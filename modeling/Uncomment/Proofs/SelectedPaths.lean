import Mathlib.Data.List.Induction
import Uncomment.Project.Sources
import Uncomment.Proofs.ResolvedPaths

/-!
# A job names every file once

The files of a job are stripped side by side, which is safe because no two of its paths lead to the same
file. There are two sorts of jobs.

* A manifest selects paths that are put in order and freed of duplicates. They are resolved, so no two of
  them are the same text (`FileTree.Proper.nodup_selectSources`).
* A search gives the files below a directory. The path of each leads to the names it was built from and
  nowhere else (`FileTree.eq_of_resolve_foldl_extend`), so the paths lead apart
  (`FileTree.Proper.pairwise_search`).

Both rest on the names of files being names: a directory that holds an entry called `..` would lead a path
astray.
-/

namespace Uncomment

/-! ## Computations that can fail -/

section

variable {α β ε : Type}

theorem bind_ok (a : α) (f : α → Except ε β) : (Except.ok a >>= f) = f a :=
  rfl

theorem bind_eq_ok_iff {x : Except ε α} {f : α → Except ε β} {b : β} :
    x >>= f = .ok b ↔ ∃ a, x = .ok a ∧ f a = .ok b := by
  cases x with
  | error cause => simp [bind, Except.bind]
  | ok a => simp [bind, Except.bind]

theorem map_eq_ok_iff {x : Except ε α} {f : α → β} {b : β} :
    x.map f = .ok b ↔ ∃ a, x = .ok a ∧ f a = b := by
  cases x with
  | error cause => simp [Except.map]
  | ok a => simp [Except.map]

variable {f : α → Except ε β} {xs : List α} {ys : List β}

theorem mapM_eq_ok_iff : xs.mapM f = .ok ys ↔ xs.map f = ys.map .ok := by
  induction xs generalizing ys with
  | nil =>
    cases ys with
    | nil => exact iff_of_true rfl rfl
    | cons => exact iff_of_false (fun h => by cases h) (fun h => by cases h)
  | cons x xs ih =>
    rw [List.mapM_cons, bind_eq_ok_iff]
    constructor
    · rintro ⟨y, hy, h⟩
      obtain ⟨rest, hrest, h⟩ := bind_eq_ok_iff.mp h
      cases h
      rw [List.map_cons, List.map_cons, hy, ih.mp hrest]
    · intro h
      cases ys with
      | nil => cases h
      | cons y ys =>
        rw [List.map_cons, List.map_cons, List.cons.injEq] at h
        exact ⟨y, h.1, bind_eq_ok_iff.mpr ⟨ys, ih.mpr h.2, rfl⟩⟩

/-- What a list of computations gives are their results. -/
theorem mem_iff_of_mapM (h : xs.mapM f = .ok ys) {y : β} : y ∈ ys ↔ ∃ x ∈ xs, f x = .ok y := by
  have hmem : y ∈ ys ↔ Except.ok y ∈ xs.map f := by
    rw [mapM_eq_ok_iff.mp h, List.mem_map]
    simp
  rw [hmem, List.mem_map]

/-- A list of computations fails exactly if one of them does. -/
theorem mapM_eq_error_iff :
    (∃ cause, xs.mapM f = .error cause) ↔ ∃ x ∈ xs, ∃ cause, f x = .error cause := by
  induction xs with
  | nil => simp [pure, Except.pure]
  | cons x xs ih =>
    rw [List.mapM_cons, List.exists_mem_cons_iff, ← ih]
    cases f x with
    | error cause => exact iff_of_true ⟨cause, rfl⟩ (Or.inl ⟨cause, rfl⟩)
    | ok y =>
      cases xs.mapM f with
      | error cause => exact iff_of_true ⟨cause, rfl⟩ (Or.inr ⟨cause, rfl⟩)
      | ok ys =>
        refine iff_of_false ?_ ?_
        · rintro ⟨_, h⟩
          cases h
        · rintro (⟨_, h⟩ | ⟨_, h⟩) <;> cases h

theorem exists_mapM_iff : (∃ ys, xs.mapM f = .ok ys) ↔ ∀ x ∈ xs, ∃ y, f x = .ok y := by
  constructor
  · rintro ⟨ys, hys⟩ x hx
    have hmem : f x ∈ ys.map .ok := by
      rw [← mapM_eq_ok_iff.mp hys]
      exact List.mem_map_of_mem hx
    obtain ⟨y, -, hy⟩ := List.mem_map.mp hmem
    exact ⟨y, hy.symm⟩
  · intro hall
    cases hresult : xs.mapM f with
    | ok ys => exact ⟨ys, rfl⟩
    | error cause =>
      obtain ⟨x, hx, _, herror⟩ := mapM_eq_error_iff.mp ⟨cause, hresult⟩
      obtain ⟨y, hy⟩ := hall x hx
      rw [hy] at herror
      cases herror

end

/-! ## What manifests select -/

/-- Files as a file system has them: every one has a place of its own, and names lead there. -/
structure FileTree.Proper (tree : FileTree) : Prop where
  names : ∀ entry ∈ tree.files, ∀ name ∈ entry.1, IsName name
  nodup : (tree.files.map Prod.fst).Nodup

namespace FileTree

variable {tree : FileTree}

theorem mem_filesBelow {folder names : Location} (h : names ∈ tree.filesBelow folder) :
    folder ++ names ∈ tree.files.map Prod.fst := by
  obtain ⟨⟨place, file⟩, hentry, hnames⟩ := List.mem_filterMap.mp h
  simp only [Option.ite_none_right_eq_some, Bool.and_eq_true, Option.some.injEq] at hnames
  obtain ⟨⟨hbelow, _⟩, rfl⟩ := hnames
  obtain ⟨names, rfl⟩ := List.isPrefixOf_iff_prefix.mp hbelow
  rw [List.drop_left]
  exact List.mem_map.mpr ⟨_, hentry, rfl⟩

theorem Proper.isName_of_mem_filesBelow (h : tree.Proper) {folder names : Location}
    (hnames : names ∈ tree.filesBelow folder) {name : Text} (hname : name ∈ names) : IsName name := by
  obtain ⟨entry, hentry, hplace⟩ := List.mem_map.mp (mem_filesBelow hnames)
  exact h.names entry hentry name (hplace ▸ List.mem_append_right _ hname)

theorem Proper.isResolved_defaultSources (h : tree.Proper) {directory : Path}
    (hdirectory : directory.IsWritten) {files : List Path}
    (hfiles : tree.defaultSources directory = .ok files) : ∀ file ∈ files, file.IsResolved := by
  unfold defaultSources at hfiles
  split at hfiles
  · cases hfiles
    simp
  · cases hfiles
    simp
  · simp only at hfiles
    split at hfiles
    · cases hfiles
    · cases hfiles
      intro file hfile
      obtain ⟨names, hnames, rfl⟩ := List.mem_map.mp hfile
      have hbelow := List.mem_of_mem_filter hnames
      refine (hdirectory.append fun part hpart => ?_).normalize
      obtain ⟨name, hname, rfl⟩ := List.mem_map.mp hpart
      exact Or.inr (h.isName_of_mem_filesBelow hbelow hname)

theorem Proper.isResolved_projectFiles (h : tree.Proper) {path : Text} {files : List Path}
    (hfiles : tree.projectFiles path = .ok files) : ∀ file ∈ files, file.IsResolved := by
  have hdirectory := (Path.isWritten_ofText path).directory
  unfold projectFiles at hfiles
  obtain ⟨t, _, hfiles⟩ := bind_eq_ok_iff.mp hfiles
  split at hfiles
  · next document _ =>
    have hincluded : ∀ file ∈ Project.included (Path.ofText path).directory document,
        file.IsResolved := by
      intro file hfile
      obtain ⟨item, _, hfile⟩ := List.mem_flatMap.mp hfile
      obtain ⟨written, _, rfl⟩ := List.mem_map.mp hfile
      exact isResolved_resolveManifestPath hdirectory written
    simp only at hfiles
    split at hfiles
    · next hdefaults =>
      obtain ⟨below, hbelow, hfiles⟩ := bind_eq_ok_iff.mp hfiles
      cases hfiles
      rw [Project.files, if_pos hdefaults]
      refine List.forall_mem_append.mpr ⟨hincluded, fun file hfile => ?_⟩
      exact h.isResolved_defaultSources hdirectory hbelow file (List.mem_of_mem_filter hfile)
    · next hdefaults =>
      cases hfiles
      rw [Project.files, if_neg hdefaults, List.append_nil]
      exact hincluded
  · cases hfiles

/-- The sources of a project are resolved paths, each once. -/
theorem Proper.projectSources (h : tree.Proper) {path : Text} {files : List Path}
    (hfiles : tree.projectSources path = .ok files) :
    files.Nodup ∧ ∀ file ∈ files, file.IsResolved := by
  obtain ⟨found, hfound, rfl⟩ := map_eq_ok_iff.mp hfiles
  refine ⟨Path.nodup_sortedSet found, fun file hfile => ?_⟩
  exact h.isResolved_projectFiles hfound file (Path.mem_sortedSet.mp hfile)

/-- The sources of a solution are resolved paths, each once. -/
theorem Proper.solutionSources (h : tree.Proper) {path : Text} {files : List Path}
    (hfiles : tree.solutionSources path = .ok files) :
    files.Nodup ∧ ∀ file ∈ files, file.IsResolved := by
  unfold FileTree.solutionSources at hfiles
  obtain ⟨projects, _, hfiles⟩ := bind_eq_ok_iff.mp hfiles
  obtain ⟨sources, hsources, hfiles⟩ := bind_eq_ok_iff.mp hfiles
  cases hfiles
  refine ⟨Path.nodup_sortedSet _, fun file hfile => ?_⟩
  obtain ⟨found, hfound, hfile⟩ := List.mem_flatten.mp (Path.mem_sortedSet.mp hfile)
  obtain ⟨project, _, hproject⟩ := (mem_iff_of_mapM hsources).mp hfound
  exact (h.projectSources hproject).2 file hfile

/-- **The paths a manifest selects are different texts.** -/
theorem Proper.nodup_selectSources (h : tree.Proper) {path : Text} {paths : List Text}
    (hpaths : tree.selectSources path = .ok paths) : paths.Nodup := by
  unfold selectSources at hpaths
  split at hpaths
  · cases hpaths
  · cases hpaths
    exact List.nodup_singleton path
  · obtain ⟨files, hfiles, rfl⟩ := map_eq_ok_iff.mp hpaths
    obtain ⟨hnodup, hresolved⟩ := h.projectSources hfiles
    exact Path.nodup_map_toText hnodup hresolved
  · obtain ⟨files, hfiles, rfl⟩ := map_eq_ok_iff.mp hpaths
    obtain ⟨hnodup, hresolved⟩ := h.solutionSources hfiles
    exact Path.nodup_map_toText hnodup hresolved

/-! ## What a search gives -/

/-- Where the pieces of a path are followed from. -/
def startOf (tree : FileTree) (path : Text) : Location :=
  if path.head? = some '/' then [] else tree.home

theorem resolve_eq_ok_iff {path : Text} {place : Location} :
    tree.resolve path = .ok place ↔ path ≠ [] ∧ '\x00' ∉ path ∧ Text.width path ≤ pathLimit ∧
      (Text.splitAt '/' path).foldlM tree.follow (tree.startOf path) = .ok place := by
  unfold resolve startOf
  split
  · next hnul => simp_all
  · next hnul =>
    split
    · next hlong =>
      simp only [reduceCtorEq, false_iff, not_and]
      intro _ _ hshort
      omega
    · next hshort =>
      split
      · simp
      · simp_all
      · next hempty hslash =>
        have hhead : path.head? ≠ some '/' := by
          cases path with
          | nil => simp
          | cons c rest =>
            rintro ⟨⟩
            exact hslash rest rfl
        simp_all

/-- A name leads to the entry of this name, and only from a directory. -/
theorem follow_name {location place : Location} {name : Text} (hname : IsName name)
    (h : tree.follow location name = .ok place) :
    tree.isFolder location = true ∧ place = location ++ [name] := by
  obtain ⟨hempty, hdot, hparent, _⟩ := hname
  unfold follow at h
  split at h
  · cases h
  · next hfolder =>
    rw [if_neg (not_or.mpr ⟨hempty, hdot⟩)] at h
    split at h
    · cases h
    · split at h
      · exact ⟨by simpa using hfolder, (Except.ok.inj h).symm⟩
      · cases h

theorem splitAt_extend {path name : Text} (hpath : path ≠ []) (hname : '/' ∉ name) :
    ∃ pieces, Text.splitAt '/' (WrittenPath.extend path name) = pieces ++ [name] ∧
      (Text.splitAt '/' path = pieces ∨ Text.splitAt '/' path = pieces ++ [[]]) := by
  have hlast := Text.splitAt_of_notMem hname
  rcases List.eq_nil_or_concat' path with rfl | ⟨front, c, rfl⟩
  · exact absurd rfl hpath
  · by_cases hc : c = '/'
    · subst hc
      refine ⟨Text.splitAt '/' front, ?_, Or.inr (Text.splitAt_append_cons front [])⟩
      have hextend : WrittenPath.extend (front ++ ['/']) name = front ++ '/' :: name := by
        simp [WrittenPath.extend]
      rw [hextend, Text.splitAt_append_cons, hlast]
    · refine ⟨Text.splitAt '/' (front ++ [c]), ?_, Or.inl rfl⟩
      have hextend : WrittenPath.extend (front ++ [c]) name = front ++ [c] ++ '/' :: name := by
        simp [WrittenPath.extend, hc]
      rw [hextend, Text.splitAt_append_cons, hlast]

theorem exists_extend_eq (path name : Text) : ∃ more, WrittenPath.extend path name = path ++ more := by
  unfold WrittenPath.extend
  split
  · exact ⟨name, rfl⟩
  · exact ⟨'/' :: name, rfl⟩

/-- A path with a name after it leads to the entry of this name where the path leads. -/
theorem exists_of_resolve_extend {path name : Text} {place : Location} (hpath : path ≠ [])
    (hname : IsName name) (h : tree.resolve (WrittenPath.extend path name) = .ok place) :
    ∃ location, tree.resolve path = .ok location ∧ place = location ++ [name] := by
  obtain ⟨_, hnul, hwidth, hfold⟩ := resolve_eq_ok_iff.mp h
  obtain ⟨pieces, hextend, hsplit⟩ := splitAt_extend hpath hname.2.2.2
  obtain ⟨more, hmore⟩ := exists_extend_eq path name
  have hstart : tree.startOf (WrittenPath.extend path name) = tree.startOf path := by
    obtain ⟨c, rest, rfl⟩ := List.exists_cons_of_ne_nil hpath
    rw [hmore]
    rfl
  rw [hmore, List.mem_append, not_or] at hnul
  rw [hmore, Text.width_append] at hwidth
  rw [hextend, hstart, List.foldlM_append] at hfold
  obtain ⟨location, hlocation, hlast⟩ := bind_eq_ok_iff.mp hfold
  rw [List.foldlM_cons] at hlast
  obtain ⟨_, hfollow, hplace⟩ := bind_eq_ok_iff.mp hlast
  cases hplace
  obtain ⟨hfolder, rfl⟩ := follow_name hname hfollow
  refine ⟨location, resolve_eq_ok_iff.mpr ⟨hpath, hnul.1, by omega, ?_⟩, rfl⟩
  rcases hsplit with hsplit | hsplit
  · rw [hsplit]
    exact hlocation
  · -- a slash at the end asks for a directory, as the name after it does
    rw [hsplit, List.foldlM_append, hlocation]
    show tree.follow location [] >>= pure = .ok location
    simp [follow, hfolder]

/-- The path of an entry below a directory leads to that entry or nowhere. -/
theorem eq_of_resolve_foldl_extend {path : Text} {location names place : Location}
    (hpath : tree.resolve path = .ok location) (hnames : ∀ name ∈ names, IsName name)
    (h : tree.resolve (names.foldl WrittenPath.extend path) = .ok place) : place = location ++ names := by
  induction names using List.reverseRecOn generalizing place with
  | nil =>
    rw [List.foldl_nil, hpath] at h
    rw [List.append_nil]
    exact (Except.ok.inj h).symm
  | append_singleton names name ih =>
    rw [List.foldl_append] at h
    have hne : names.foldl WrittenPath.extend path ≠ [] := by
      have hpath := (resolve_eq_ok_iff.mp hpath).1
      clear * - hpath
      induction names generalizing path with
      | nil => exact hpath
      | cons name names ih =>
        obtain ⟨more, hmore⟩ := exists_extend_eq path name
        exact ih (by rw [hmore]; exact List.append_ne_nil_of_left_ne_nil hpath more)
    obtain ⟨folder, hfolder, rfl⟩ := exists_of_resolve_extend hne (hnames name (by simp)) h
    rw [ih (fun n hn => hnames n (List.mem_append_left _ hn)) hfolder, List.append_assoc]

/-- Two paths do not lead to the same place. -/
def LeadApart (tree : FileTree) (a b : Text) : Prop :=
  ∀ place, tree.resolve a = .ok place → tree.resolve b ≠ .ok place

theorem LeadApart.symm {a b : Text} (h : tree.LeadApart a b) : tree.LeadApart b a :=
  fun place hb ha => h place ha hb

theorem Proper.nodup_filesBelow (h : tree.Proper) (folder : Location) : (tree.filesBelow folder).Nodup := by
  unfold filesBelow
  refine List.Pairwise.filterMap _ (fun a b hab names hnames other hother heq => ?_)
    (List.pairwise_map.mp h.nodup)
  simp only [Option.ite_none_right_eq_some, Bool.and_eq_true, Option.some.injEq,
    List.isPrefixOf_iff_prefix] at hnames hother
  obtain ⟨⟨⟨rest, ha⟩, _⟩, rfl⟩ := hnames
  obtain ⟨⟨⟨rest', hb⟩, _⟩, rfl⟩ := hother
  refine hab ?_
  rw [← ha, ← hb, List.drop_left, List.drop_left] at heq
  rw [← ha, ← hb, heq]

/-- **The paths a search gives lead to different files.** -/
theorem Proper.pairwise_search (h : tree.Proper) (path : Text) (depthLimit : Option Nat) :
    (tree.search path depthLimit).Pairwise tree.LeadApart := by
  unfold search
  split
  · exact List.Pairwise.nil
  · split
    · exact List.Pairwise.nil
    · next location hpath =>
      split
      · exact List.pairwise_singleton _ path
      · refine (List.mergeSort_perm _ _).pairwise_iff (fun hab => hab.symm) |>.mpr ?_
        refine List.Pairwise.map _ (fun a b hab => hab) (List.Pairwise.filter _ ?_)
        refine List.pairwise_map.mpr ((h.nodup_filesBelow location).imp_of_mem ?_)
        intro a b ha hb hab place hplace hother
        simp only [FoundEntry.path, FoundEntry.pathAfter, List.take_length] at hplace hother
        have hplace := eq_of_resolve_foldl_extend hpath
          (fun name hname => h.isName_of_mem_filesBelow ha hname) hplace
        have hother := eq_of_resolve_foldl_extend hpath
          (fun name hname => h.isName_of_mem_filesBelow hb hname) hother
        exact hab (List.append_cancel_left (hplace.symm.trans hother))

end FileTree

end Uncomment
