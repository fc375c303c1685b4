import Uncomment.Proofs.FileIsolation
import Uncomment.Proofs.SelectedPaths
import Uncomment.Proofs.SolutionLines
import Uncomment.Proofs.SpelledPaths

/-!
# The last name of a path

A path that ends with a name leads to an entry of this name (`FileTree.getLast?_of_resolve`). So paths with
different extensions lead to different files: in particular no project of a solution leads to the solution
(`FileTree.ne_of_resolve_project`), and writing a solution changes none of its projects.
-/

namespace Uncomment

namespace Path

theorem fileName?_concat_name (path : Path) (name : Text) : fileName? (path ++ [.name name]) = some name := by
  rw [fileName?, List.getLast?_concat]

theorem fileName?_eq_some_iff {path : Path} {name : Text} :
    path.fileName? = some name ↔ path.getLast? = some (.name name) := by
  unfold fileName?
  split
  · next text hlast => rw [hlast, Option.some_inj, Option.some_inj, PathPart.name.injEq]
  · next hlast =>
    simp only [reduceCtorEq, false_iff]
    exact fun h => hlast name h

/-- A path that ends with a name is written so, but for what leads nowhere. -/
theorem exists_pieces_of_fileName? {t name : Text} (h : (ofText t).fileName? = some name) :
    IsName name ∧ ∃ before after, Text.splitAt '/' t = before ++ name :: after ∧
      ∀ piece ∈ after, partOf? piece = none := by
  obtain ⟨start, hstart, hroot⟩ := exists_start t
  rw [fileName?_eq_some_iff, hstart] at h
  have hsteps : (steps t).getLast? = some (.name name) := by
    rw [List.getLast?_append] at h
    cases hlast : (steps t).getLast? with
    | some part => rwa [hlast] at h
    | none =>
      rw [hlast] at h
      split at hroot
      · rw [hroot] at h
        cases h
      · rcases hroot with rfl | rfl <;> cases h
  obtain ⟨front, hfront⟩ := List.getLast?_eq_some_iff.mp hsteps
  -- the pieces that give the last step, and those after it that give none
  obtain ⟨before, more, hpieces, -, hmore⟩ := List.filterMap_eq_append_iff.mp hfront
  obtain ⟨nowhere, piece, after, rfl, -, hpiece, hafter⟩ := List.filterMap_eq_cons_iff.mp hmore
  have hslash : '/' ∉ piece := by
    refine Text.notMem_of_mem_splitAt (t := t) ?_
    rw [hpieces]
    simp
  have hname : IsName name := isStep_partOf? hslash hpiece
  have hsame : piece = name := by
    unfold partOf? at hpiece
    split at hpiece
    · cases hpiece
    · split at hpiece
      · cases hpiece
      · cases hpiece
        rfl
  subst hsame
  refine ⟨hname, before ++ nowhere, after, ?_, List.filterMap_eq_nil_iff.mp hafter⟩
  rw [hpieces, List.append_assoc]

end Path

namespace FileTree

variable {tree : FileTree}

theorem follow_nowhere {location place : Location} {piece : Text} (hpiece : Path.partOf? piece = none)
    (h : tree.follow location piece = .ok place) : place = location := by
  have hempty : piece = [] ∨ piece = ['.'] := by
    unfold Path.partOf? at hpiece
    split at hpiece
    · next h => exact h
    · split at hpiece <;> cases hpiece
  unfold follow at h
  split at h
  · cases h
  · exact (Except.ok.inj h).symm

theorem foldlM_follow_nowhere {pieces : List Text} (hpieces : ∀ piece ∈ pieces, Path.partOf? piece = none)
    {location place : Location} (h : pieces.foldlM tree.follow location = .ok place) : place = location := by
  induction pieces generalizing location with
  | nil => exact (Except.ok.inj h).symm
  | cons piece rest ih =>
    rw [List.foldlM_cons] at h
    obtain ⟨next, hnext, h⟩ := bind_eq_ok_iff.mp h
    rw [ih (fun p hp => hpieces p (List.mem_cons_of_mem _ hp)) h]
    exact follow_nowhere (hpieces piece List.mem_cons_self) hnext

/-- **A path that ends with a name leads to an entry of this name.** -/
theorem getLast?_of_resolve {path name : Text} {place : Location}
    (hname : (Path.ofText path).fileName? = some name) (h : tree.resolve path = .ok place) :
    place.getLast? = some name := by
  obtain ⟨hisName, before, after, hpieces, hafter⟩ := Path.exists_pieces_of_fileName? hname
  obtain ⟨-, -, -, hfollow⟩ := resolve_eq_ok_iff.mp h
  rw [hpieces, List.foldlM_append] at hfollow
  obtain ⟨folder, -, hfollow⟩ := bind_eq_ok_iff.mp hfollow
  rw [List.foldlM_cons] at hfollow
  obtain ⟨entry, hentry, hfollow⟩ := bind_eq_ok_iff.mp hfollow
  rw [foldlM_follow_nowhere hafter hfollow, (follow_name hisName hentry).2, List.getLast?_concat]

end FileTree

/-! ## Solutions and their projects -/

/-- A character of an extension. -/
def isExtensionMark (c : Char) : Bool :=
  !isBlank c && !isSeparator c && c != '.'

theorem isExtensionMark_of_toLower {c : Char} (h : isExtensionMark c.toLower = true) :
    isExtensionMark c = true := by
  unfold Char.toLower at h
  split at h
  · next hcapital =>
    -- no capital is white space or a mark
    have hmin : 65 ≤ c.toNat := UInt32.le_iff_toNat_le.mp hcapital.1
    have hmax : c.toNat ≤ 90 := UInt32.le_iff_toNat_le.mp hcapital.2
    have hblank : isBlank c = false := by
      simp only [isBlank, Bool.or_eq_false_iff, Bool.and_eq_false_iff, decide_eq_false_iff_not,
        beq_eq_false_iff_ne]
      omega
    have hother : ∀ d : Char, d.toNat < 65 ∨ 90 < d.toNat → c ≠ d := by
      rintro d hd rfl
      omega
    simp [isExtensionMark, isSeparator, hblank, hother '/' (by decide), hother '\\' (by decide),
      hother '.' (by decide)]
  · exact h

theorem Path.steps_append_name {t name : Text} (hname : IsName name) (h : t = [] ∨ ∃ front, t = front ++ ['/']) :
    ∃ path, steps (t ++ name) = path ++ [.name name] := by
  rcases h with rfl | ⟨front, rfl⟩
  · exact ⟨[], steps_name hname⟩
  · refine ⟨steps front, ?_⟩
    rw [List.append_assoc, List.singleton_append, steps_append_slash, steps_name hname]

/-- A text with an extension ends with a name that has it. -/
theorem Path.exists_steps_append_extension (t : Text) {extension : Text} (hne : extension ≠ [])
    (h : ∀ c ∈ extension, isExtensionMark c = true) :
    ∃ path stem, steps (t ++ '.' :: extension) = path ++ [.name (stem ++ '.' :: extension)] := by
  have hslash : '/' ∉ extension := fun hmem => absurd (h _ hmem) (by decide)
  have hpoint : '.' ∉ extension := fun hmem => absurd (h _ hmem) (by decide)
  have hname : ∀ stem : Text, '/' ∉ stem → IsName (stem ++ '.' :: extension) := by
    intro stem hstem
    obtain ⟨c, hc⟩ := List.exists_mem_of_ne_nil _ hne
    have hmem : c ∈ stem ++ '.' :: extension := List.mem_append_right _ (List.mem_cons_of_mem _ hc)
    -- the name holds a character that is no point, so it is neither `.` nor `..`
    have hcpoint : c ≠ '.' := fun heq => hpoint (heq ▸ hc)
    refine ⟨by simp, fun heq => ?_, fun heq => ?_, ?_⟩
    · rw [heq, List.mem_singleton] at hmem
      exact hcpoint hmem
    · rw [heq] at hmem
      simp [hcpoint] at hmem
    · simp [hstem, hslash]
  by_cases hmem : '/' ∈ t
  · obtain ⟨front, stem, rfl, hstem⟩ := Text.exists_last_cut hmem
    obtain ⟨path, hpath⟩ := steps_append_name (hname stem hstem) (Or.inr ⟨front, rfl⟩)
    refine ⟨path, stem, ?_⟩
    rw [← hpath]
    simp
  · obtain ⟨path, hpath⟩ := steps_append_name (hname t hmem) (Or.inl rfl)
    exact ⟨path, t, hpath⟩

/-- The path of a project ends with a name that has the extension. -/
theorem exists_name_of_hasExtension (base : Path) {written extension : Text} (hne : extension ≠ [])
    (hmarks : ∀ c ∈ Text.toLowerAscii extension, isExtensionMark c = true)
    (h : hasExtension written extension = true) :
    ∃ name, (resolveManifestPath base written).fileName? = some name ∧ hasExtension name extension = true := by
  have hpoint : '.' ∈ written := by
    by_contra hnot
    rw [hasExtension, Text.cutLast?_of_notMem hnot] at h
    cases h
  obtain ⟨front, found, rfl, hfound⟩ := Text.exists_last_cut hpoint
  have hsame : Text.toLowerAscii found = Text.toLowerAscii extension := by
    rw [hasExtension, Text.cutLast?_append_cons hfound] at h
    exact beq_iff_eq.mp h
  have hfoundMarks : ∀ c ∈ found, isExtensionMark c = true := by
    intro c hc
    refine isExtensionMark_of_toLower (hmarks _ ?_)
    rw [← hsame]
    exact List.mem_map_of_mem hc
  have hfoundNe : found ≠ [] := by
    rintro rfl
    exact hne (List.map_eq_nil_iff.mp hsame.symm)
  have htrim : Text.trim (slashed (front ++ '.' :: found)) =
      Text.trimStart (slashed front) ++ '.' :: found := by
    have hback : '\\' ∉ '.' :: found := by
      rw [List.mem_cons, not_or]
      exact ⟨by decide, fun hmem => absurd (hfoundMarks _ hmem) (by decide)⟩
    have hend : Text.trimEnd found = found := by
      obtain ⟨start, c, rfl⟩ := List.eq_nil_or_concat' found |>.resolve_left hfoundNe
      have hc := hfoundMarks c (by simp)
      refine Text.trimEnd_concat_of_not_blank start ?_
      simp only [isExtensionMark, Bool.and_eq_true, Bool.not_eq_true'] at hc
      exact hc.1.1
    rw [slashed_append, slashed_of_notMem hback, Text.trim_append_cons _ _ (by decide), hend]
  obtain ⟨path, stem, hsteps⟩ :=
    Path.exists_steps_append_extension (Text.trimStart (slashed front)) hfoundNe hfoundMarks
  refine ⟨stem ++ '.' :: found, ?_, ?_⟩
  · rw [resolveManifestPath_eq, htrim, hsteps, ← List.append_assoc, Path.normalize_concat_name,
      Path.fileName?_concat_name]
  · rw [hasExtension, Text.cutLast?_append_cons hfound]
    exact beq_iff_eq.mpr hsame

/-- The path of a solution ends with a name that has not the extension of a project. -/
theorem exists_name_of_solution {path : Text} (h : SourceKind.ofPath? path = some .solution) :
    ∃ name, (Path.ofText path).fileName? = some name ∧ hasExtension name Solution.projectExtension = false := by
  unfold SourceKind.ofPath? at h
  split at h
  · next hextension =>
    obtain ⟨found, hfound, hsln⟩ := Option.map_eq_some_iff.mp hextension
    unfold Path.extension? at hfound
    obtain ⟨name, hname, hfound⟩ := Option.bind_eq_some_iff.mp hfound
    obtain ⟨⟨stem, last⟩, hcut, hfound⟩ := Option.bind_eq_some_iff.mp hfound
    simp only [Option.ite_none_left_eq_some, Option.some.injEq] at hfound
    obtain ⟨-, rfl⟩ := hfound
    refine ⟨name, hname, ?_⟩
    have hlower : Text.toLowerAscii last = "sln".toList := by rw [← hsln, String.toList_ofList]
    rw [hasExtension, hcut]
    show (Text.toLowerAscii last == _) = false
    rw [hlower]
    decide
  · cases h
  · cases h
  · cases h

/-- **No project of a solution leads to the solution.** -/
theorem FileTree.ne_of_resolve_project {tree : FileTree} {path t : Text} {place place' : Location}
    (hkind : SourceKind.ofPath? path = some .solution) (hplace : tree.resolve path = .ok place) {project : Path}
    (hproject : project ∈ Solution.projects (Path.directory (.ofText path)) t)
    (hplace' : tree.resolve project.toText = .ok place') : place' ≠ place := by
  obtain ⟨written, hwritten, rfl⟩ := List.mem_map.mp hproject
  obtain ⟨name, hname, hfalse⟩ := exists_name_of_solution hkind
  obtain ⟨name', hname', htrue⟩ := exists_name_of_hasExtension (Path.directory (.ofText path)) (by decide)
    (List.all_eq_true.mp (by decide)) (List.mem_filter.mp hwritten).2
  rw [← Path.ofText_toText (isResolved_resolveManifestPath (Path.isWritten_ofText path).directory written)]
    at hname'
  rintro rfl
  have hsame := (getLast?_of_resolve hname' hplace').symm.trans (getLast?_of_resolve hname hplace)
  rw [Option.some.inj hsame, hfalse] at htrue
  cases htrue

end Uncomment
