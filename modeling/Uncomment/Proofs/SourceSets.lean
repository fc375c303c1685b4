import Uncomment.Proofs.LastNames
import Uncomment.Proofs.ReplacedItems

/-!
# Source files are selected as sets

A project and a solution select a set of files: in order, each once, and no matter in which order the entries
stand that name the files and how they are spelled (`FileTree.selects_sets`).

* What a document selects is said without lists by `Project.Selected`.
* A solution selects what its projects do, and fails if one of them does
  (`FileTree.solutionSources_eq_ok_iff`, `FileTree.solutionSources_eq_error_iff`).
* In another order the entries name the same files. That the rest of the files is the same when a project or
  a solution is written anew is because a search looks at names alone (`FileTree.SameShape.defaultSources`),
  and no project leads to the solution.
-/

namespace Uncomment

open Xml (Node Name Attribute)

/-! ## What a document selects -/

namespace Project

/-- The files of a project: those its items include, but for linked and generated items; and, in the short
style, those found below its directory, unless the document turns this off or an item removes them. -/
inductive Selected (directory : Path) (document : Node) (below : List Path) : Path → Prop
  | included {item : Node} {value written : Text} :
      item ∈ document.descendants → isElement "Compile".toList item = true → isLinked item = false →
        isGenerated item = false → item.attribute? "Include".toList = some value →
          written ∈ itemList value → Selected directory document below (resolveManifestPath directory written)
  | found {file : Path} :
      isShortStyle document = true → (∀ node ∈ document.descendants, turnsOffDefaults node = false) →
        file ∈ below →
          (∀ item ∈ document.descendants, isElement "Compile".toList item = true →
            ∀ value, item.attribute? "Remove".toList = some value →
              ∀ written ∈ itemList value, resolveManifestPath directory written ≠ file) →
            Selected directory document below file

variable {directory : Path} {document : Node} {below : List Path} {file : Path}

theorem mem_listed {base : Text} {item : Node} : file ∈ listed directory base item ↔
    ∃ value, item.attribute? base = some value ∧
      ∃ written ∈ itemList value, resolveManifestPath directory written = file := by
  simp only [listed, List.mem_map, List.mem_flatMap, Option.mem_toList]
  constructor
  · rintro ⟨written, ⟨value, hvalue, hwritten⟩, hfile⟩
    exact ⟨value, hvalue, written, hwritten, hfile⟩
  · rintro ⟨value, hvalue, written, hwritten, hfile⟩
    exact ⟨written, ⟨value, hvalue, hwritten⟩, hfile⟩

theorem mem_compileItems {item : Node} : item ∈ compileItems document ↔
    item ∈ document.descendants ∧ isElement "Compile".toList item = true :=
  List.mem_filter

/-- **A document selects exactly these files.** -/
theorem mem_sources_iff : file ∈ sources directory document below ↔ Selected directory document below file := by
  rw [sources, Path.mem_sortedSet, mem_files, included, removed]
  simp only [List.mem_flatMap, List.mem_filter, mem_compileItems, mem_listed, Bool.and_eq_true,
    Bool.not_eq_true', compilesDefaults, List.any_eq_false, Bool.not_eq_true]
  constructor
  · rintro (⟨item, ⟨⟨hmem, hitem⟩, hlinked, hgenerated⟩, value, hvalue, written, hwritten, rfl⟩ |
      ⟨⟨hshort, hdefaults⟩, hbelow, hremoved⟩)
    · exact .included hmem hitem hlinked hgenerated hvalue hwritten
    · refine .found hshort hdefaults hbelow fun item hmem hitem value hvalue written hwritten hfile => ?_
      exact hremoved ⟨item, ⟨hmem, hitem⟩, value, hvalue, written, hwritten, hfile⟩
  · rintro (⟨hmem, hitem, hlinked, hgenerated, hvalue, hwritten⟩ | ⟨hshort, hdefaults, hbelow, hkept⟩)
    · exact Or.inl ⟨_, ⟨⟨hmem, hitem⟩, hlinked, hgenerated⟩, _, hvalue, _, hwritten, rfl⟩
    · refine Or.inr ⟨⟨hshort, hdefaults⟩, hbelow, ?_⟩
      rintro ⟨item, ⟨hmem, hitem⟩, value, hvalue, written, hwritten, hfile⟩
      exact hkept item hmem hitem value hvalue written hwritten hfile

end Project

namespace FileTree

variable {tree a b : FileTree}

/-! ## What the selection depends on -/

/-- A search looks at names alone. -/
theorem SameShape.defaultSources (h : SameShape a b) (directory : Path) :
    b.defaultSources directory = a.defaultSources directory := by
  have hfiles : ∀ folder, b.filesBelow folder = a.filesBelow folder := by
    intro folder
    have hplaces : ∀ tree : FileTree, tree.filesBelow folder = (tree.files.map Prod.fst).filterMap fun file =>
        if folder.isPrefixOf file && folder.length < file.length then some (file.drop folder.length)
        else none := by
      intro tree
      rw [List.filterMap_map]
      rfl
    rw [hplaces a, hplaces b, h.places]
  have hfolders : ∀ folder, b.foldersBelow folder = a.foldersBelow folder := by
    intro folder
    have hplaces : ∀ tree : FileTree,
        tree.files.map (·.1.dropLast) = (tree.files.map Prod.fst).map List.dropLast := by
      intro tree
      rw [List.map_map]
      rfl
    unfold foldersBelow
    rw [hplaces a, hplaces b, h.places, h.folders]
  unfold FileTree.defaultSources
  simp only [hfiles, hfolders, h.resolve]

theorem readManifest_congr {path : Text} (hshape : SameShape a b) (h : SameAt a b path) :
    b.readManifest path = a.readManifest path := by
  unfold readManifest readText read
  rw [locate_congr hshape h]

/-- A project depends on its file and on the names of the others. -/
theorem projectSources_congr {path : Text} (hshape : SameShape a b) (h : SameAt a b path) :
    b.projectSources path = a.projectSources path := by
  unfold projectSources projectFiles
  simp only [readManifest_congr hshape h, hshape.defaultSources]

theorem readable_of_readManifest {path t : Text} {place : Location} {file : StoredFile}
    (hlocate : tree.locate path = .ok (place, file)) (h : tree.readManifest path = .ok t) :
    file.readable = true := by
  unfold readManifest readText read at h
  rw [hlocate] at h
  by_contra hnot
  simp [hnot] at h

/-- **A project selects what its document does.** -/
theorem projectSources_eq_ok_iff {path : Text} {files : List Path} : tree.projectSources path = .ok files ↔
    ∃ t document below, tree.readManifest path = .ok t ∧ Xml.parse? t = some document ∧
      tree.foundSources (Path.directory (.ofText path)) document = .ok below ∧
      Project.sources (Path.directory (.ofText path)) document below = files := by
  have hdocument : ∀ {t document}, tree.readManifest path = .ok t → Xml.parse? t = some document →
      (tree.projectSources path = .ok files ↔ ∃ below,
        tree.foundSources (Path.directory (.ofText path)) document = .ok below ∧
        Project.sources (Path.directory (.ofText path)) document below = files) := by
    intro t document hread hparse
    rw [projectSources_of_parse hread hparse, documentSources, map_eq_ok_iff]
  constructor
  · intro h
    obtain ⟨found, hfound, -⟩ := map_eq_ok_iff.mp h
    obtain ⟨t, hread, hfound⟩ := bind_eq_ok_iff.mp hfound
    cases hparse : Xml.parse? t with
    | none =>
      rw [hparse] at hfound
      cases hfound
    | some document =>
      obtain ⟨below, hbelow, hfiles⟩ := (hdocument hread hparse).mp h
      exact ⟨t, document, below, hread, hparse, hbelow, hfiles⟩
  · rintro ⟨t, document, below, hread, hparse, hbelow, hfiles⟩
    exact (hdocument hread hparse).mpr ⟨below, hbelow, hfiles⟩

/-- A manifest that is written anew is read as it was written. -/
theorem readManifest_put {path t : Text} {place : Location} {file : StoredFile} {content : Bytes}
    (hlocate : tree.locate path = .ok (place, file)) (hreadable : file.readable = true)
    (hdecode : Utf8.decode content = .ok t) : (tree.put place content).readManifest path = .ok t := by
  unfold readManifest readText
  simp only [read_put hlocate hreadable, hdecode]

/-! ## Solutions -/

/-- Files are the union of what projects select, if none of these fails. -/
structure UnionOf (tree : FileTree) (projects files : List Path) : Prop where
  succeed : ∀ project ∈ projects, ∃ sources, tree.projectSources project.toText = .ok sources
  ascending : Path.Ascending files
  mem_iff : ∀ file, file ∈ files ↔
    ∃ project ∈ projects, ∃ sources, tree.projectSources project.toText = .ok sources ∧ file ∈ sources

/-- A union depends on which projects there are, and on what these select. -/
theorem UnionOf.congr {projects projects' files : List Path} (h : UnionOf a projects files)
    (hmem : ∀ project, project ∈ projects' ↔ project ∈ projects)
    (hsame : ∀ project ∈ projects, b.projectSources project.toText = a.projectSources project.toText) :
    UnionOf b projects' files where
  succeed project hproject := by
    rw [hsame project ((hmem project).mp hproject)]
    exact h.succeed project ((hmem project).mp hproject)
  ascending := h.ascending
  mem_iff file := by
    simp only [h.mem_iff, hmem]
    exact exists_congr fun project => and_congr_right fun hproject => by rw [hsame project hproject]

/-- **A solution selects what its projects select.** -/
theorem solutionSources_eq_ok_iff {path : Text} {files : List Path} :
    tree.solutionSources path = .ok files ↔
      ∃ projects, tree.solutionProjects path = .ok projects ∧ UnionOf tree projects files := by
  have hmem : ∀ {projects : List Path} {results : List (List Path)},
      (projects.mapM fun project => tree.projectSources project.toText) = .ok results → ∀ file,
        file ∈ Path.sortedSet results.flatten ↔ ∃ project ∈ projects, ∃ sources,
          tree.projectSources project.toText = .ok sources ∧ file ∈ sources := by
    intro projects results hresults file
    simp only [Path.mem_sortedSet, List.mem_flatten, mem_iff_of_mapM hresults]
    constructor
    · rintro ⟨sources, ⟨project, hproject, hsources⟩, hfile⟩
      exact ⟨project, hproject, sources, hsources, hfile⟩
    · rintro ⟨project, hproject, sources, hsources, hfile⟩
      exact ⟨sources, ⟨project, hproject, hsources⟩, hfile⟩
  unfold solutionSources
  rw [bind_eq_ok_iff]
  refine exists_congr fun projects => and_congr_right fun _ => ?_
  rw [bind_eq_ok_iff]
  constructor
  · rintro ⟨results, hresults, h⟩
    cases h
    exact ⟨exists_mapM_iff.mp ⟨results, hresults⟩, Path.ascending_sortedSet _, hmem hresults⟩
  · -- the union is ascending, so it is the list that is selected
    intro h
    obtain ⟨results, hresults⟩ := exists_mapM_iff.mpr h.succeed
    refine ⟨results, hresults, congrArg Except.ok ?_⟩
    exact (Path.ascending_sortedSet _).eq_of_mem_iff h.ascending fun file => by
      rw [hmem hresults, h.mem_iff]

/-- **A solution fails if it cannot be read or one of its projects fails.** -/
theorem solutionSources_eq_error_iff {path : Text} :
    (∃ cause, tree.solutionSources path = .error cause) ↔
      (∃ cause, tree.readManifest path = .error cause) ∨
        ∃ projects, tree.solutionProjects path = .ok projects ∧
          ∃ project ∈ projects, ∃ cause, tree.projectSources project.toText = .error cause := by
  unfold solutionSources solutionProjects
  cases tree.readManifest path with
  | error cause => exact iff_of_true ⟨cause, rfl⟩ (Or.inl ⟨cause, rfl⟩)
  | ok t =>
    simp only [Except.map, bind_ok, reduceCtorEq, exists_false, false_or, Except.ok.injEq, exists_eq_left']
    rw [← mapM_eq_error_iff]
    cases (Solution.projects (Path.directory (.ofText path)) t).mapM fun project =>
        tree.projectSources project.toText with
    | error cause => exact iff_of_true ⟨cause, rfl⟩ ⟨cause, rfl⟩
    | ok sources =>
      refine iff_of_false ?_ ?_
      · rintro ⟨_, h⟩
        cases h
      · rintro ⟨_, h⟩
        cases h

/-- **The order of lines makes no difference.** -/
theorem solutionSources_of_perm {path t t' : Text} {place : Location} {file : StoredFile} {content : Bytes}
    (hkind : SourceKind.ofPath? path = some .solution) (hlocate : tree.locate path = .ok (place, file))
    (hread : tree.readManifest path = .ok t) (hdecode : Utf8.decode content = .ok t')
    (hperm : (Text.lines t).Perm (Text.lines t')) (files : List Path) :
    (tree.put place content).solutionSources path = .ok files ↔ tree.solutionSources path = .ok files := by
  obtain ⟨hresolve, hfile⟩ := locate_eq_ok_iff.mp hlocate
  let directory := Path.directory (.ofText path)
  have hprojects : tree.solutionProjects path = .ok (Solution.projects directory t) := by
    rw [solutionProjects, hread]
    rfl
  have hprojects' : (tree.put place content).solutionProjects path = .ok (Solution.projects directory t') := by
    rw [solutionProjects, readManifest_put hlocate (readable_of_readManifest hlocate hread) hdecode]
    rfl
  have hmem : ∀ project, project ∈ Solution.projects directory t' ↔ project ∈ Solution.projects directory t :=
    fun project => ((hperm.filterMap _).filter _ |>.map _).mem_iff.symm
  -- no project leads to the solution, so all of them are as they were
  have hsame : ∀ project ∈ Solution.projects directory t,
      (tree.put place content).projectSources project.toText = tree.projectSources project.toText := by
    intro project hproject
    refine projectSources_congr (sameShape_put hfile content).symm fun found hfound => ?_
    rw [file?_put hfile, if_neg (ne_of_resolve_project hkind hresolve hproject hfound)]
  rw [solutionSources_eq_ok_iff, solutionSources_eq_ok_iff, hprojects, hprojects']
  simp only [Except.ok.injEq, exists_eq_left']
  constructor
  · exact fun h => h.congr (fun project => (hmem project).symm) fun project hproject =>
      (hsame project ((hmem project).mp hproject)).symm
  · exact fun h => h.congr hmem hsame

/-- **The order of items makes no difference**, at whatever depth of the document they stand. -/
theorem projectSources_of_perm {path t t' : Text} {place : Location} {file : StoredFile} {content : Bytes}
    (hlocate : tree.locate path = .ok (place, file)) (hread : tree.readManifest path = .ok t)
    (hdecode : Utf8.decode content = .ok t') {tag : Name} {attributes : List Attribute}
    {nodes nodes' old new : List Node} (hparse : Xml.parse? t = some (.element tag attributes nodes))
    (hparse' : Xml.parse? t' = some (.element tag attributes nodes'))
    (h : Project.ItemsReplaced nodes nodes' old new) (hperm : old.Perm new) :
    (tree.put place content).projectSources path = tree.projectSources path := by
  obtain ⟨-, hfile⟩ := locate_eq_ok_iff.mp hlocate
  have hread' := readManifest_put hlocate (readable_of_readManifest hlocate hread) hdecode
  rw [projectSources_of_parse hread hparse, projectSources_of_parse hread' hparse']
  exact Project.documentSources_of_perm h hperm tag attributes
    ((sameShape_put hfile content).symm.defaultSources _)

/-! ## Sets of files -/

/-- Selecting is not sensitive to how the manifests are written. -/
structure SelectsSets (tree : FileTree) : Prop where
  /-- A document selects a set of files, whatever is found below its directory. -/
  document : ∀ directory document below,
    Path.Ascending (Project.sources directory document below) ∧
      ∀ file, file ∈ Project.sources directory document below ↔
        Project.Selected directory document below file
  /-- A project selects what its document does. -/
  project : ∀ path files, tree.projectSources path = .ok files ↔
    ∃ t document below, tree.readManifest path = .ok t ∧ Xml.parse? t = some document ∧
      tree.foundSources (Path.directory (.ofText path)) document = .ok below ∧
      Project.sources (Path.directory (.ofText path)) document below = files
  /-- A project selects the same when its items are written in another order. -/
  itemOrder : ∀ path place file content t t' tag attributes nodes nodes' old new,
    tree.locate path = .ok (place, file) → tree.readManifest path = .ok t → Utf8.decode content = .ok t' →
      Xml.parse? t = some (.element tag attributes nodes) →
      Xml.parse? t' = some (.element tag attributes nodes') →
      Project.ItemsReplaced nodes nodes' old new → old.Perm new →
        (tree.put place content).projectSources path = tree.projectSources path
  /-- An entry resolves to the same path however it is spelled. -/
  spelling : ∀ directory written written', SpelledAlike written written' →
    resolveManifestPath directory written = resolveManifestPath directory written'
  /-- So a file that is found is removed by its names, however they are spelled. -/
  removal : ∀ directory names written, (∀ name ∈ names, IsName name ∧ '\\' ∉ name) →
    SpelledAlike (Text.join ['/'] names) written → Text.trim (Text.join ['/'] names) = Text.join ['/'] names →
      resolveManifestPath directory written = Path.normalize (directory ++ names.map .name)
  /-- A solution selects the union of what its projects select, if none of them fails. -/
  solution : ∀ path files, tree.solutionSources path = .ok files ↔
    ∃ projects, tree.solutionProjects path = .ok projects ∧ UnionOf tree projects files
  /-- A solution fails only for a reason. -/
  solutionFails : ∀ path, (∃ cause, tree.solutionSources path = .error cause) ↔
    (∃ cause, tree.readManifest path = .error cause) ∨
      ∃ projects, tree.solutionProjects path = .ok projects ∧
        ∃ project ∈ projects, ∃ cause, tree.projectSources project.toText = .error cause
  /-- A solution selects the same when its lines are written in another order. -/
  lineOrder : ∀ path place file content t t' files, SourceKind.ofPath? path = some .solution →
    tree.locate path = .ok (place, file) → tree.readManifest path = .ok t → Utf8.decode content = .ok t' →
      (Text.lines t).Perm (Text.lines t') →
        ((tree.put place content).solutionSources path = .ok files ↔ tree.solutionSources path = .ok files)

end FileTree

end Uncomment
