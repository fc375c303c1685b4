import Mathlib.Data.List.Nodup
import Uncomment.Files.Path
import Uncomment.Proofs.TextCuts

/-!
# Resolved paths

Source files are selected as paths in parts, and stripped as paths written as texts. Duplicates are dropped
among the former (`Path.nodup_sortedSet`). That this drops them among the latter too is because a resolved
path, in which nothing stands for the current directory, is read back from its text part by part
(`Path.ofText_toText`): different resolved paths are different texts.

Every path a manifest names is resolved (`isResolved_resolveManifestPath`).
-/

namespace Uncomment

/-- A name as an entry of a directory can have it. -/
def IsName (name : Text) : Prop :=
  name ≠ [] ∧ name ≠ ['.'] ∧ name ≠ ['.', '.'] ∧ '/' ∉ name

instance (name : Text) : Decidable (IsName name) :=
  inferInstanceAs (Decidable (_ ∧ _))

/-! ## Paths in order, each once -/

namespace PathPart

/-- The text of a name, nothing for the other parts. -/
def label : PathPart → Text
  | name text => text
  | _ => []

theorem compare_eq_compareLex :
    (Ord.compare : PathPart → PathPart → Ordering) = compareLex (compareOn rank) (compareOn label) := by
  funext a b
  cases a <;> cases b <;> rfl

instance : Std.TransOrd PathPart := by
  unfold Std.TransOrd
  rw [compare_eq_compareLex]
  infer_instance

instance : Std.LawfulEqOrd PathPart where
  eq_of_compare {a b} h := by
    cases a <;> cases b <;> first | rfl | cases h | skip
    next a b =>
      have hab : Ord.compare a b = .eq := h
      rw [Std.LawfulEqOrd.eq_of_compare hab]

end PathPart

namespace Path

theorem le_antisymm {a b : Path} (hab : le a b = true) (hba : le b a = true) : a = b :=
  Std.LawfulEqOrd.eq_of_compare (Std.OrientedCmp.isLE_antisymm hab hba)

theorem pairwise_mergeSort (paths : List Path) :
    (paths.mergeSort le).Pairwise fun a b => le a b = true := by
  apply List.pairwise_mergeSort
  · intro a b c hab hbc
    exact Std.TransCmp.isLE_trans hab hbc
  · intro a b
    have hswap : Ord.compare b a = (Ord.compare a b).swap := Std.OrientedCmp.eq_swap
    rw [le, le, hswap]
    cases Ord.compare a b <;> rfl

/-- The paths are in order, each once. -/
def Ascending (paths : List Path) : Prop :=
  paths.Pairwise fun a b => Ord.compare a b = .lt

theorem Ascending.nodup {paths : List Path} (h : Ascending paths) : paths.Nodup := by
  refine List.Pairwise.imp (fun {a b} hab => ?_) h
  rintro rfl
  rw [Std.ReflOrd.compare_self] at hab
  cases hab

/-- Ascending paths are determined by what they are. -/
theorem Ascending.eq_of_mem_iff {a b : List Path} (ha : Ascending a) (hb : Ascending b)
    (h : ∀ path, path ∈ a ↔ path ∈ b) : a = b := by
  have hperm : a.Perm b := (List.perm_ext_iff_of_nodup ha.nodup hb.nodup).mpr h
  refine hperm.eq_of_pairwise (fun x y _ _ hxy hyx => ?_) ha hb
  exact absurd hyx (Std.OrientedCmp.not_lt_of_lt hxy)

@[simp] theorem mem_dedup {path : Path} {paths : List Path} :
    path ∈ sortedSet.dedup paths ↔ path ∈ paths := by
  fun_induction sortedSet.dedup paths with
  | case1 a rest ih => simp [ih]
  | case2 a b rest hne ih => simp [ih]
  | case3 => rfl

/-- In an ordered list equal paths are neighbours, so dropping neighbours drops all duplicates. -/
theorem ascending_dedup {paths : List Path} (h : paths.Pairwise fun a b => le a b = true) :
    Ascending (sortedSet.dedup paths) := by
  fun_induction sortedSet.dedup paths with
  | case1 a rest ih => exact ih h.of_cons
  | case2 a b rest hne ih =>
    refine List.Pairwise.cons (fun path hpath => ?_) (ih h.of_cons)
    have hab := List.rel_of_pairwise_cons h List.mem_cons_self
    have hle := List.rel_of_pairwise_cons h (mem_dedup.mp hpath)
    have hpath : path ≠ a := by
      rintro rfl
      rcases List.mem_cons.mp (mem_dedup.mp hpath) with heq | hrest
      · exact hne heq
      · exact hne (le_antisymm hab (List.rel_of_pairwise_cons h.of_cons hrest))
    cases hcompare : Ord.compare a path with
    | lt => rfl
    | eq => exact absurd (Std.LawfulEqOrd.eq_of_compare hcompare).symm hpath
    | gt => simp [le, hcompare] at hle
  | case3 paths hshort =>
    rcases paths with _ | ⟨a, _ | ⟨b, rest⟩⟩
    · exact List.Pairwise.nil
    · exact List.pairwise_singleton _ a
    · exact absurd rfl (hshort a b rest)

/-- **Paths are selected in order, each once.** -/
theorem ascending_sortedSet (paths : List Path) : Ascending (sortedSet paths) :=
  ascending_dedup (pairwise_mergeSort paths)

theorem nodup_sortedSet (paths : List Path) : (sortedSet paths).Nodup :=
  (ascending_sortedSet paths).nodup

@[simp] theorem mem_sortedSet {path : Path} {paths : List Path} :
    path ∈ sortedSet paths ↔ path ∈ paths := by
  rw [sortedSet, mem_dedup, List.mem_mergeSort]

/-- **In which order paths are found, and how often, makes no difference.** -/
theorem sortedSet_congr {a b : List Path} (h : ∀ path, path ∈ a ↔ path ∈ b) : sortedSet a = sortedSet b :=
  (ascending_sortedSet a).eq_of_mem_iff (ascending_sortedSet b) fun path => by
    rw [mem_sortedSet, mem_sortedSet, h]

end Path

/-! ## Resolved paths and their texts -/

/-- A part that leads somewhere from a directory. -/
def PathPart.IsStep : PathPart → Prop
  | .parent => True
  | .name text => IsName text
  | _ => False

namespace Path

/-- The root stands at most at the start of a path, and what follows has a property. -/
def AfterStart (property : PathPart → Prop) (path : Path) : Prop :=
  ∃ start rest, path = start ++ rest ∧ (start = [] ∨ start = [.root]) ∧ ∀ part ∈ rest, property part

/-- A path as it can be written. -/
def IsWritten : Path → Prop :=
  AfterStart fun part => part = .current ∨ part.IsStep

/-- A path in which nothing stands for the current directory. -/
def IsResolved : Path → Prop :=
  AfterStart PathPart.IsStep

theorem isStep_partOf? {piece : Text} {part : PathPart} (hslash : '/' ∉ piece)
    (h : partOf? piece = some part) : part.IsStep := by
  unfold partOf? at h
  split at h
  · cases h
  · next hempty =>
    rw [not_or] at hempty
    split at h
    · cases h
      trivial
    · next hparent =>
      cases h
      exact ⟨hempty.1, hempty.2, hparent, hslash⟩

theorem partOf?_text {part : PathPart} (h : part.IsStep) : partOf? part.text = some part := by
  cases part with
  | root | current => cases h
  | parent => rfl
  | name text =>
    obtain ⟨hempty, hdot, hparent, _⟩ := h
    simp [partOf?, PathPart.text, hempty, hdot, hparent]

theorem text_ne_nil {part : PathPart} (h : part.IsStep) : part.text ≠ [] ∧ part.text ≠ ['.'] := by
  have hpart := partOf?_text h
  constructor <;> intro htext <;> simp [partOf?, htext] at hpart

theorem slash_notMem_text {part : PathPart} (h : part.IsStep) : '/' ∉ part.text := by
  cases part with
  | root | current => cases h
  | parent => simp [PathPart.text]
  | name text => exact h.2.2.2

theorem isWritten_ofText (t : Text) : (ofText t).IsWritten := by
  have hsteps : ∀ part ∈ (Text.splitAt '/' t).filterMap partOf?,
      part = PathPart.current ∨ part.IsStep := by
    intro part hpart
    obtain ⟨piece, hpiece, hpart⟩ := List.mem_filterMap.mp hpart
    exact Or.inr (isStep_partOf? (Text.notMem_of_mem_splitAt hpiece) hpart)
  simp only [ofText]
  split
  · exact ⟨[.root], _, rfl, Or.inr rfl, hsteps⟩
  · exact ⟨[], _, rfl, Or.inl rfl, List.forall_mem_cons.mpr ⟨Or.inl rfl, hsteps⟩⟩
  · exact ⟨[], _, rfl, Or.inl rfl, hsteps⟩

theorem IsWritten.append {path more : Path} (h : path.IsWritten)
    (hmore : ∀ part ∈ more, part = .current ∨ part.IsStep) : (path ++ more).IsWritten := by
  obtain ⟨start, rest, rfl, hstart, hrest⟩ := h
  refine ⟨start, rest ++ more, List.append_assoc .., hstart, ?_⟩
  exact List.forall_mem_append.mpr ⟨hrest, hmore⟩

theorem IsWritten.directory {path : Path} (h : path.IsWritten) : path.directory.IsWritten := by
  unfold Path.directory
  split
  · exact ⟨[], [.current], rfl, Or.inl rfl, by simp⟩
  · obtain ⟨start, rest, rfl, hstart, hrest⟩ := h
    cases rest with
    | nil =>
      rcases hstart with rfl | rfl
      · exact ⟨[], [], rfl, Or.inl rfl, by simp⟩
      · exact ⟨[], [], rfl, Or.inl rfl, by simp⟩
    | cons part rest =>
      refine ⟨start, (part :: rest).dropLast, List.dropLast_append_cons, hstart, ?_⟩
      exact fun p hp => hrest p (List.dropLast_subset _ hp)

theorem IsWritten.followedBy {base relative : Path} (hbase : base.IsWritten)
    (hrelative : relative.IsWritten) : (base.followedBy relative).IsWritten := by
  unfold Path.followedBy
  split
  · exact hrelative
  · next hroot =>
    obtain ⟨start, rest, rfl, rfl | rfl, hrest⟩ := hrelative
    · exact hbase.append hrest
    · exact absurd rfl (hroot rest)

/-- Resolving keeps the start, and the parts after it are steps. -/
theorem foldl_resolveStep {start : Path} (hstart : start = [] ∨ start = [.root]) {rest resolved : Path}
    (hrest : ∀ part ∈ rest, part = .current ∨ part.IsStep) (hresolved : ∀ part ∈ resolved, part.IsStep) :
    ∃ steps : Path, rest.foldl resolveStep (resolved ++ start) = steps ++ start ∧
      ∀ part ∈ steps, part.IsStep := by
  induction rest generalizing resolved with
  | nil => exact ⟨resolved, rfl, hresolved⟩
  | cons part rest ih =>
    have hpart := hrest part List.mem_cons_self
    replace hrest := fun p hp => hrest p (List.mem_cons_of_mem _ hp)
    rw [List.foldl_cons]
    have hcons : ∀ {p : PathPart}, p.IsStep → ∀ q ∈ p :: resolved, q.IsStep :=
      fun hp => List.forall_mem_cons.mpr ⟨hp, hresolved⟩
    cases part with
    | root => rcases hpart with hpart | hpart <;> cases hpart
    | current => exact ih hrest hresolved
    | name text =>
      rcases hpart with hpart | hpart
      · cases hpart
      · exact ih hrest (hcons hpart)
    | parent =>
      -- a parent directory takes a name away, and the start is no name
      have hparent : PathPart.parent.IsStep := trivial
      cases resolved with
      | nil =>
        rcases hstart with rfl | rfl <;> exact ih hrest (hcons hparent)
      | cons last resolved =>
        cases last with
        | name text => exact ih hrest fun p hp => hresolved p (List.mem_cons_of_mem _ hp)
        | root | current => exact absurd (hresolved _ List.mem_cons_self) id
        | parent => exact ih hrest (hcons hparent)

theorem IsWritten.normalize {path : Path} (h : path.IsWritten) : path.normalize.IsResolved := by
  obtain ⟨start, rest, rfl, hstart, hrest⟩ := h
  obtain ⟨steps, hfold, hsteps⟩ := foldl_resolveStep hstart hrest (List.forall_mem_nil _)
  refine ⟨start, steps.reverse, ?_, hstart, fun p hp => hsteps p (List.mem_reverse.mp hp)⟩
  unfold Path.normalize
  rw [List.foldl_append]
  rcases hstart with rfl | rfl
  · rw [List.foldl_nil]
    rw [List.append_nil] at hfold
    simpa using congrArg List.reverse hfold
  · exact (congrArg List.reverse hfold).trans (by simp)

/-- A resolved path is read back from its text. -/
theorem ofText_toText {path : Path} (h : path.IsResolved) : ofText path.toText = path := by
  obtain ⟨start, rest, rfl, hstart, hrest⟩ := h
  have hparts : (rest.map PathPart.text).filterMap partOf? = rest := by
    rw [List.filterMap_map]
    exact (List.filterMap_congr fun part hpart => partOf?_text (hrest part hpart)).trans List.filterMap_some
  have hpieces : rest ≠ [] →
      Text.splitAt '/' (Text.join ['/'] (rest.map PathPart.text)) = rest.map PathPart.text := by
    intro hne
    refine Text.splitAt_join (by simpa using hne) fun piece hpiece => ?_
    obtain ⟨part, hpart, rfl⟩ := List.mem_map.mp hpiece
    exact slash_notMem_text (hrest part hpart)
  cases rest with
  | nil => rcases hstart with rfl | rfl <;> rfl
  | cons part rest =>
    have hpieces := hpieces (by simp)
    have hpart := hrest part List.mem_cons_self
    rcases hstart with rfl | rfl
    · have htext : toText (part :: rest) = Text.join ['/'] ((part :: rest).map PathPart.text) := by
        cases part with
        | root => cases hpart
        | current | parent | name => rfl
      obtain ⟨hempty, hdot⟩ := text_ne_nil hpart
      rw [List.nil_append, ofText, htext, hpieces, hparts]
      rw [List.map_cons]
      split
      · next heq => exact absurd (List.cons.inj heq).1 hempty
      · next heq => exact absurd (List.cons.inj heq).1 hdot
      · rfl
    · have hsplit : Text.splitAt '/' (toText ([.root] ++ part :: rest)) =
          [] :: (part :: rest).map PathPart.text := by
        show Text.splitAt '/' ([] ++ '/' :: Text.join ['/'] ((part :: rest).map PathPart.text)) = _
        rw [Text.splitAt_append_cons, hpieces]
        rfl
      rw [ofText, hsplit]
      show [PathPart.root] ++ ((part :: rest).map PathPart.text).filterMap partOf? = _
      rw [hparts]

/-- Different resolved paths are different texts. -/
theorem nodup_map_toText {paths : List Path} (hnodup : paths.Nodup)
    (h : ∀ path ∈ paths, path.IsResolved) : (paths.map toText).Nodup := by
  refine List.Nodup.map_on (fun a ha b hb hab => ?_) hnodup
  calc a = ofText a.toText := (ofText_toText (h a ha)).symm
    _ = ofText b.toText := by rw [hab]
    _ = b := ofText_toText (h b hb)

end Path

theorem isResolved_resolveManifestPath {base : Path} (h : base.IsWritten) (written : Text) :
    (resolveManifestPath base written).IsResolved :=
  (h.followedBy (Path.isWritten_ofText _)).normalize

end Uncomment
