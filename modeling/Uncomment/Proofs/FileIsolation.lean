import Mathlib.Data.List.Nodup
import Uncomment.Proofs.WritingBack

/-!
# Stripping a file concerns this file alone

Stripping a file neither makes nor removes anything: before and after, the same files and directories are
there (`FileTree.SameShape`), so paths lead where they led.

Of all files, it depends on the one its path leads to, and changes no other. This is said of its two
steps, reading (`FileTree.stripped_congr`) and writing (`FileTree.finish_congr`,
`FileTree.file?_finish_of_ne`), because files are stripped side by side and other steps may come between
these two.
-/

namespace Uncomment.FileTree

/-! ## Trees with the same places -/

/-- The same files and directories are there; files may differ in what they hold. -/
structure SameShape (a b : FileTree) : Prop where
  home : a.home = b.home
  folders : a.folders = b.folders
  places : a.files.map Prod.fst = b.files.map Prod.fst

variable {a b c tree : FileTree}

theorem SameShape.refl (tree : FileTree) : SameShape tree tree :=
  ⟨rfl, rfl, rfl⟩

theorem SameShape.symm (h : SameShape a b) : SameShape b a :=
  ⟨h.home.symm, h.folders.symm, h.places.symm⟩

theorem SameShape.trans (h : SameShape a b) (h' : SameShape b c) : SameShape a c :=
  ⟨h.home.trans h'.home, h.folders.trans h'.folders, h.places.trans h'.places⟩

theorem SameShape.isFolder (h : SameShape a b) (location : Location) :
    a.isFolder location = b.isFolder location := by
  have hany : ∀ tree : FileTree, tree.isFolder location =
      (location.isPrefixOf tree.home || tree.folders.any (location.isPrefixOf ·) ||
        (tree.files.map Prod.fst).any fun file => location.isPrefixOf file && location != file) := by
    intro tree
    rw [List.any_map]
    rfl
  rw [hany a, hany b, h.home, h.folders, h.places]

theorem SameShape.isSome_file? (h : SameShape a b) (location : Location) :
    (a.file? location).isSome = (b.file? location).isSome := by
  have hany : ∀ tree : FileTree,
      (tree.file? location).isSome = (tree.files.map Prod.fst).any (· == location) := by
    intro tree
    rw [file?, Option.isSome_map, List.any_map, Bool.eq_iff_iff, List.find?_isSome, List.any_eq_true]
    rfl
  rw [hany a, hany b, h.places]

/-- Paths lead to the same places. -/
theorem SameShape.resolve (h : SameShape a b) (path : Text) : a.resolve path = b.resolve path := by
  have hfollow : a.follow = b.follow := by
    funext location piece
    rw [follow, follow, isPresent, isPresent, h.isFolder, h.isFolder, h.isSome_file?]
  unfold FileTree.resolve
  rw [hfollow, h.home]

theorem sameShape_put {location : Location} {file : StoredFile} (h : tree.file? location = some file)
    (content : Bytes) : SameShape (tree.put location content) tree := by
  rw [put_of_file? h]
  exact ⟨rfl, rfl, by rw [List.map_map]; rfl⟩

/-- Where every file has a place of its own, it is the one found there. -/
theorem file?_of_mem (hnodup : (tree.files.map Prod.fst).Nodup) {entry : Location × StoredFile}
    (h : entry ∈ tree.files) : tree.file? entry.1 = some entry.2 := by
  have hsome : (tree.files.find? (·.1 == entry.1)).isSome = true :=
    List.find?_isSome.mpr ⟨entry, h, beq_self_eq_true entry.1⟩
  obtain ⟨found, hfound⟩ := Option.isSome_iff_exists.mp hsome
  have hplace := List.find?_some hfound
  have heq := List.inj_on_of_nodup_map hnodup (List.mem_of_find?_eq_some hfound) h
    (beq_iff_eq.mp hplace)
  rw [file?, hfound, heq]
  rfl

/-- Trees with the same places and the same files there are equal. -/
theorem SameShape.eq_of_file? (h : SameShape a b) (hnodup : (a.files.map Prod.fst).Nodup)
    (hfile : ∀ place, a.file? place = b.file? place) : a = b := by
  have hfiles : ∀ tree : FileTree, (tree.files.map Prod.fst).Nodup →
      tree.files.map some =
        (tree.files.map Prod.fst).map fun place => (tree.file? place).map (Prod.mk place) := by
    intro tree hnodup
    rw [List.map_map]
    refine List.map_congr_left fun entry hentry => ?_
    simp [file?_of_mem hnodup hentry]
  have hsome : a.files.map some = b.files.map some := by
    rw [hfiles a hnodup, hfiles b (h.places ▸ hnodup), h.places, funext hfile]
  have heq : a.files = b.files := List.map_injective_iff.mpr (fun _ _ => Option.some.inj) hsome
  obtain ⟨hhome, hfolders, _⟩ := h
  cases a
  cases b
  simp only at hhome hfolders heq
  rw [hhome, hfolders, heq]

/-! ## The two steps of stripping a file -/

/-- The file a path leads to is the same. -/
def SameAt (a b : FileTree) (path : Text) : Prop :=
  ∀ place, a.resolve path = .ok place → b.file? place = a.file? place

theorem locate_congr {path : Text} (hshape : SameShape a b) (h : SameAt a b path) :
    b.locate path = a.locate path := by
  unfold locate
  rw [← hshape.resolve]
  cases hresolve : a.resolve path with
  | error cause => rfl
  | ok place =>
    simp only
    rw [h place hresolve]

/-- What stripping reads is what the path leads to. -/
theorem stripped_congr {path : Text} (hshape : SameShape a b) (h : SameAt a b path)
    (settings : Settings) : b.stripped settings path = a.stripped settings path := by
  simp only [stripped, read]
  rw [locate_congr hshape h]

/-- What is left to do after a file was read: the failure stands, or the result is written back. -/
def finish (tree : FileTree) (mode : WriteBack) (path : Text) :
    Except StripError EncodedOutcome → FileTree × Except StripError Outcome
  | .error cause => (tree, .error cause)
  | .ok result => tree.store mode path result

/-- Stripping a file is reading it and writing it. -/
theorem strip_eq_finish (tree : FileTree) (mode : WriteBack) (settings : Settings) (path : Text) :
    tree.strip mode settings path = tree.finish mode path (tree.stripped settings path) := by
  unfold strip
  cases tree.stripped settings path <;> rfl

variable {mode : WriteBack} {path : Text} {result : Except StripError EncodedOutcome}

/-- What becomes of a result that has to be written to a file. -/
theorem store_of_locate {location : Location} {file : StoredFile} {encoded : EncodedOutcome}
    {content : Bytes} (hlocate : tree.locate path = .ok (location, file))
    (hwrite : encoded.writeBack? mode = some content) :
    tree.store mode path encoded =
      if file.writable then (tree.put location content, .ok encoded.outcome)
      else (tree, .error (.unwritable (String.ofList path) .denied)) := by
  simp only [store, hwrite, write, hlocate]
  cases file.writable <;> rfl

theorem store_of_locate_error {cause : IoError} {encoded : EncodedOutcome} {content : Bytes}
    (hlocate : tree.locate path = .error cause) (hwrite : encoded.writeBack? mode = some content) :
    tree.store mode path encoded = (tree, .error (.unwritable (String.ofList path) cause)) := by
  simp only [store, hwrite, write, hlocate]

theorem store_of_none {encoded : EncodedOutcome} (hwrite : encoded.writeBack? mode = none) :
    tree.store mode path encoded = (tree, .ok encoded.outcome) := by
  simp only [store, hwrite]

/-- Writing leaves everything as it is, or writes the file that the path leads to. -/
theorem finish_cases (tree : FileTree) (mode : WriteBack) (path : Text)
    (result : Except StripError EncodedOutcome) :
    (tree.finish mode path result).1 = tree ∨
      mode ≠ .never ∧ ∃ location file content, tree.locate path = .ok (location, file) ∧
        (tree.finish mode path result).1 = tree.put location content := by
  cases result with
  | error cause => exact Or.inl rfl
  | ok encoded =>
    rw [finish]
    cases hwrite : encoded.writeBack? mode with
    | none => exact Or.inl (by rw [store_of_none hwrite])
    | some content =>
      cases hlocate : tree.locate path with
      | error cause => exact Or.inl (by rw [store_of_locate_error hlocate hwrite])
      | ok found =>
        obtain ⟨location, file⟩ := found
        rw [store_of_locate hlocate hwrite]
        split
        · exact Or.inr ⟨(writeBack?_eq hwrite).2, location, file, content, rfl, rfl⟩
        · exact Or.inl rfl

theorem sameShape_finish (tree : FileTree) (mode : WriteBack) (path : Text)
    (result : Except StripError EncodedOutcome) : SameShape (tree.finish mode path result).1 tree := by
  rcases finish_cases tree mode path result with h | ⟨_, location, file, content, hlocate, h⟩
  · rw [h]
    exact SameShape.refl tree
  · rw [h]
    exact sameShape_put (locate_eq_ok_iff.mp hlocate).2 content

/-- Writing changes no file but the one its path leads to. -/
theorem file?_finish_of_ne {place : Location} (h : tree.resolve path ≠ .ok place) :
    (tree.finish mode path result).1.file? place = tree.file? place := by
  rcases finish_cases tree mode path result with heq | ⟨_, location, file, content, hlocate, heq⟩
  · rw [heq]
  · obtain ⟨hresolve, hfile⟩ := locate_eq_ok_iff.mp hlocate
    have hne : place ≠ location := by
      rintro rfl
      exact h hresolve
    rw [heq, file?_put hfile, if_neg hne]

/-- Where nothing may be written, everything stays as it is. -/
theorem finish_never (tree : FileTree) (path : Text) (result : Except StripError EncodedOutcome) :
    (tree.finish .never path result).1 = tree := by
  rcases finish_cases tree .never path result with h | ⟨hmode, _⟩
  · exact h
  · exact absurd rfl hmode

/-- What writing does, and whether it succeeds, is decided by the file that the path leads to. -/
theorem finish_congr (hshape : SameShape a b) (h : SameAt a b path) :
    (b.finish mode path result).2 = (a.finish mode path result).2 ∧
      SameAt (a.finish mode path result).1 (b.finish mode path result).1 path := by
  have hstay : ∀ outcome : Except StripError Outcome,
      (b, outcome).2 = (a, outcome).2 ∧ SameAt (a, outcome).1 (b, outcome).1 path :=
    fun outcome => ⟨rfl, h⟩
  have hsame := locate_congr hshape h
  cases result with
  | error cause => exact hstay _
  | ok encoded =>
    rw [finish, finish]
    cases hwrite : encoded.writeBack? mode with
    | none =>
      rw [store_of_none hwrite, store_of_none hwrite]
      exact hstay _
    | some content =>
      cases hlocate : a.locate path with
      | error cause =>
        rw [store_of_locate_error hlocate hwrite, store_of_locate_error (hsame.trans hlocate) hwrite]
        exact hstay _
      | ok found =>
        obtain ⟨location, file⟩ := found
        rw [store_of_locate hlocate hwrite, store_of_locate (hsame.trans hlocate) hwrite]
        split
        · obtain ⟨hresolve, hfile⟩ := locate_eq_ok_iff.mp hlocate
          have hother : b.file? location = some file := (h location hresolve).trans hfile
          refine ⟨rfl, fun place hplace => ?_⟩
          rw [resolve_put hfile] at hplace
          rw [file?_put hfile, file?_put hother, h place hplace]
        · exact hstay _

end Uncomment.FileTree
