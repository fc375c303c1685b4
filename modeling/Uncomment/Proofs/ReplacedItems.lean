import Mathlib.Data.List.Forall2
import Uncomment.Proofs.SelectedPaths

/-!
# Replacing items of a project document

What a project document selects is read off its elements one by one. So if some items of a document are
replaced by others, at any depth, it selects what it selected before but for these items
(`ItemsReplaced.exists_shared`): all other nodes are read as before (`Alike`), since from the children of a
node only the names are read, and those of items are not asked for.

Documents are compared so in two ways. If the items are the same in another order, the same files are selected
(`documentSources_of_perm`). If an item that includes a list of files is replaced by items that include one of
them each, it depends: whether an item is generated is decided by the end of its whole list, so this makes no
difference where the end of the list speaks for all its members (`item_list_is_separate_items`), but elsewhere
it may (`generated_end_hides_list`).
-/

namespace Uncomment

open Xml (Node Name Attribute)
open Xml.Node (descendantsOfAll)

namespace Project

/-! ## Documents that differ in items -/

/-- Whether a node says what is compiled. -/
abbrev isItem (node : Node) : Bool :=
  isElement "Compile".toList node

/-- The second list of nodes is the first one with some items replaced, at any depth: where the first has
those of the third list, one or more in each place, the second has those of the fourth. -/
inductive ItemsReplaced : List Node → List Node → List Node → List Node → Prop
  | nil : ItemsReplaced [] [] [] []
  | same (node : Node) {nodes nodes' old new : List Node} :
      ItemsReplaced nodes nodes' old new → ItemsReplaced (node :: nodes) (node :: nodes') old new
  | inside (tag : Name) (attributes : List Attribute)
      {children children' nodes nodes' old new old' new' : List Node} :
      ItemsReplaced children children' old new → ItemsReplaced nodes nodes' old' new' →
        ItemsReplaced (.element tag attributes children :: nodes)
          (.element tag attributes children' :: nodes') (old ++ old') (new ++ new')
  | items {items items' nodes nodes' old new : List Node} :
      items ≠ [] → items' ≠ [] → (∀ item ∈ items, isItem item = true) →
        (∀ item ∈ items', isItem item = true) → ItemsReplaced nodes nodes' old new →
          ItemsReplaced (items ++ nodes) (items' ++ nodes') (items ++ old) (items' ++ new)

/-- What is read from two nodes is the same. -/
structure Alike (a b : Node) : Prop where
  tag : a.tag? = b.tag?
  attributes : a.attributes = b.attributes
  text : a.text? = b.text?
  hasChild : ∀ base, base ≠ "Compile".toList → hasChild base a = hasChild base b

namespace Alike

variable {a b : Node}

theorem refl (a : Node) : Alike a a :=
  ⟨rfl, rfl, rfl, fun _ _ => rfl⟩

theorem isElement (h : Alike a b) (base : Text) : isElement base a = isElement base b := by
  unfold Project.isElement
  rw [h.tag]

theorem attribute? (h : Alike a b) (base : Text) : a.attribute? base = b.attribute? base := by
  unfold Node.attribute?
  rw [h.attributes]

theorem isLinked (h : Alike a b) : isLinked a = isLinked b := by
  unfold Project.isLinked
  rw [h.attribute?, h.hasChild _ (by decide)]

theorem isGenerated (h : Alike a b) : isGenerated a = isGenerated b := by
  unfold Project.isGenerated
  rw [h.attribute?, h.hasChild _ (by decide)]

theorem listed (h : Alike a b) (directory : Path) (base : Text) :
    listed directory base a = listed directory base b := by
  unfold Project.listed
  rw [h.attribute?]

theorem turnsOffDefaults (h : Alike a b) : turnsOffDefaults a = turnsOffDefaults b := by
  unfold Project.turnsOffDefaults
  rw [h.isElement, h.text]

end Alike

theorem isElement_of_isItem {node : Node} (h : isItem node = true) {base : Text}
    (hne : base ≠ "Compile".toList) : isElement base node = false := by
  unfold isItem isElement at h
  unfold isElement
  cases htag : node.tag? with
  | none => rfl
  | some tag =>
    rw [htag, Option.any_some, Bool.and_eq_true, beq_iff_eq] at h
    rw [Option.any_some, h.1, beq_eq_false_iff_ne.mpr hne.symm, Bool.false_and]

theorem descendantsOfAll_eq_flatMap (nodes : List Node) :
    descendantsOfAll nodes = nodes.flatMap Node.descendants := by
  induction nodes with
  | nil => rfl
  | cons node rest ih => rw [descendantsOfAll, ih, List.flatMap_cons]

theorem descendants_eq (node : Node) : node.descendants = node :: descendantsOfAll node.children := by
  cases node <;> rfl

theorem descendantsOfAll_append (a b : List Node) :
    descendantsOfAll (a ++ b) = descendantsOfAll a ++ descendantsOfAll b := by
  rw [descendantsOfAll_eq_flatMap, descendantsOfAll_eq_flatMap, descendantsOfAll_eq_flatMap,
    List.flatMap_append]

theorem perm_middle {α : Type} {xs ys a b c d : List α} (hx : xs.Perm (a ++ b)) (hy : ys.Perm (c ++ d)) :
    (xs ++ ys).Perm (a ++ c ++ (b ++ d)) := by
  refine (hx.append hy).trans ?_
  rw [List.append_assoc, List.append_assoc]
  exact (List.perm_append_comm_assoc b c d).append_left a

namespace ItemsReplaced

variable {nodes nodes' old new : List Node}

theorem isItem_old (h : ItemsReplaced nodes nodes' old new) : ∀ item ∈ old, isItem item = true := by
  induction h with
  | nil => exact List.forall_mem_nil _
  | same _ _ ih => exact ih
  | inside _ _ _ _ ih ih' => exact List.forall_mem_append.mpr ⟨ih, ih'⟩
  | items _ _ hitems _ _ ih => exact List.forall_mem_append.mpr ⟨hitems, ih⟩

theorem new_ne_nil (h : ItemsReplaced nodes nodes' old new) (hne : old ≠ []) : new ≠ [] := by
  induction h with
  | nil => exact hne
  | same _ _ ih => exact ih hne
  | inside _ _ _ _ ih ih' =>
    rcases not_and_or.mp (List.append_eq_nil_iff.not.mp hne) with hold | hold
    · exact List.append_ne_nil_of_left_ne_nil (ih hold) _
    · exact List.append_ne_nil_of_right_ne_nil _ (ih' hold)
  | items _ hne' => exact List.append_ne_nil_of_left_ne_nil hne' _

/-- Elements around replaced items are read as before. -/
theorem alike (h : ItemsReplaced nodes nodes' old new) (tag : Name) (attributes : List Attribute) :
    Alike (.element tag attributes nodes) (.element tag attributes nodes') where
  tag := rfl
  attributes := rfl
  text := by
    -- an element that begins with an item begins with no text
    have hitems : ∀ items rest : List Node, items ≠ [] → (∀ item ∈ items, isItem item = true) →
        (Node.element tag attributes (items ++ rest)).text? = none := by
      intro items rest hne hitems
      obtain ⟨item, more, rfl⟩ := List.exists_cons_of_ne_nil hne
      have hitem := hitems item List.mem_cons_self
      cases item with
      | element => rfl
      | text | note => cases hitem
    cases h with
    | nil | inside => rfl
    | same node => cases node <;> rfl
    | items hne hne' hold hnew => rw [hitems _ _ hne hold, hitems _ _ hne' hnew]
  hasChild base hne := by
    show nodes.any (isElement base) = nodes'.any (isElement base)
    have hitems : ∀ items : List Node, (∀ item ∈ items, isItem item = true) →
        items.any (isElement base) = false := by
      intro items hitems
      rw [List.any_eq_false]
      exact fun item hitem => by simp [isElement_of_isItem (hitems item hitem) hne]
    induction h with
    | nil => rfl
    | same node _ ih => rw [List.any_cons, List.any_cons, ih]
    | inside _ _ _ _ _ ih => rw [List.any_cons, List.any_cons, ih]; rfl
    | items _ _ hold hnew _ ih =>
      rw [List.any_append, List.any_append, hitems _ hold, hitems _ hnew, ih]

/-- **Nodes are shared but for the replaced items** and what is below these. -/
theorem exists_common (h : ItemsReplaced nodes nodes' old new) :
    ∃ common common', List.Forall₂ Alike common common' ∧
      (descendantsOfAll nodes).Perm (common ++ descendantsOfAll old) ∧
      (descendantsOfAll nodes').Perm (common' ++ descendantsOfAll new) := by
  induction h with
  | nil => exact ⟨[], [], .nil, .refl _, .refl _⟩
  | same node _ ih =>
    obtain ⟨common, common', halike, hperm, hperm'⟩ := ih
    refine ⟨node.descendants ++ common, node.descendants ++ common', ?_, ?_, ?_⟩
    · exact List.rel_append (List.forall₂_same.mpr fun n _ => Alike.refl n) halike
    · rw [descendantsOfAll, List.append_assoc]
      exact hperm.append_left _
    · rw [descendantsOfAll, List.append_assoc]
      exact hperm'.append_left _
  | inside tag attributes h _ ih ih' =>
    obtain ⟨common₁, common₁', halike₁, hperm₁, hperm₁'⟩ := ih
    obtain ⟨common₂, common₂', halike₂, hperm₂, hperm₂'⟩ := ih'
    refine ⟨_ :: (common₁ ++ common₂), _ :: (common₁' ++ common₂'),
      .cons (h.alike tag attributes) (List.rel_append halike₁ halike₂), ?_, ?_⟩
    · rw [descendantsOfAll, Node.descendants, descendantsOfAll_append]
      exact .cons _ (perm_middle hperm₁ hperm₂)
    · rw [descendantsOfAll, Node.descendants, descendantsOfAll_append]
      exact .cons _ (perm_middle hperm₁' hperm₂')
  | items _ _ _ _ _ ih =>
    obtain ⟨common, common', halike, hperm, hperm'⟩ := ih
    refine ⟨common, common', halike, ?_, ?_⟩
    · rw [descendantsOfAll_append, descendantsOfAll_append]
      exact (hperm.append_left _).trans (List.perm_append_comm_assoc _ _ _)
    · rw [descendantsOfAll_append, descendantsOfAll_append]
      exact (hperm'.append_left _).trans (List.perm_append_comm_assoc _ _ _)

/-- The same for what is read from the nodes of two documents. -/
theorem exists_shared {β : Type} (h : ItemsReplaced nodes nodes' old new) (tag : Name)
    (attributes : List Attribute) {f : Node → List β} (hf : ∀ a b, Alike a b → f a = f b) :
    ∃ shared,
      ((Node.element tag attributes nodes).descendants.flatMap f).Perm
        (shared ++ (descendantsOfAll old).flatMap f) ∧
      ((Node.element tag attributes nodes').descendants.flatMap f).Perm
        (shared ++ (descendantsOfAll new).flatMap f) := by
  obtain ⟨common, common', halike, hperm, hperm'⟩ := h.exists_common
  have hroot := hf _ _ (h.alike tag attributes)
  have hcommon : common.flatMap f = common'.flatMap f := by
    clear hperm hperm'
    induction halike with
    | nil => rfl
    | cons hab _ ih => rw [List.flatMap_cons, List.flatMap_cons, hf _ _ hab, ih]
  refine ⟨f (.element tag attributes nodes) ++ common.flatMap f, ?_, ?_⟩
  · rw [Node.descendants, List.flatMap_cons, List.append_assoc, ← List.flatMap_append]
    exact (hperm.flatMap_right f).append_left _
  · rw [Node.descendants, List.flatMap_cons, hroot, hcommon, List.append_assoc, ← List.flatMap_append]
    exact (hperm'.flatMap_right f).append_left _

theorem mem_congr {β : Type} (h : ItemsReplaced nodes nodes' old new) (tag : Name)
    (attributes : List Attribute) {f : Node → List β} (hf : ∀ a b, Alike a b → f a = f b) {x : β}
    (hitems : x ∈ (descendantsOfAll old).flatMap f ↔ x ∈ (descendantsOfAll new).flatMap f) :
    x ∈ (Node.element tag attributes nodes).descendants.flatMap f ↔
      x ∈ (Node.element tag attributes nodes').descendants.flatMap f := by
  obtain ⟨shared, hold, hnew⟩ := h.exists_shared tag attributes hf
  rw [hold.mem_iff, hnew.mem_iff, List.mem_append, List.mem_append, hitems]

end ItemsReplaced

/-! ## What documents select -/

/-- The files an item includes. -/
def includedBy (directory : Path) (item : Node) : List Path :=
  if isItem item && !isLinked item && !isGenerated item then listed directory "Include".toList item else []

/-- The files an item removes. -/
def removedBy (directory : Path) (item : Node) : List Path :=
  if isItem item then listed directory "Remove".toList item else []

/-- Whether a node turns off the default files, as a list of one. -/
def offBy (node : Node) : List Bool :=
  [turnsOffDefaults node]

theorem Alike.includedBy {a b : Node} (h : Alike a b) (directory : Path) :
    includedBy directory a = includedBy directory b := by
  unfold Project.includedBy isItem
  rw [h.isElement, h.isLinked, h.isGenerated, h.listed]

theorem Alike.removedBy {a b : Node} (h : Alike a b) (directory : Path) :
    removedBy directory a = removedBy directory b := by
  unfold Project.removedBy isItem
  rw [h.isElement, h.listed]

section Selection

variable {directory : Path} {document : Node} {below : List Path} {file : Path}

theorem mem_included : file ∈ included directory document ↔
    file ∈ document.descendants.flatMap (includedBy directory) := by
  have hitem : ∀ item, file ∈ includedBy directory item ↔
      isItem item = true ∧ (!isLinked item && !isGenerated item) = true ∧
        file ∈ listed directory "Include".toList item := by
    intro item
    rw [includedBy, Bool.and_assoc, List.mem_ite_nil_right, Bool.and_eq_true, and_assoc]
  simp only [included, compileItems, List.mem_flatMap, List.mem_filter, hitem, and_assoc]

theorem mem_removed : file ∈ removed directory document ↔
    file ∈ document.descendants.flatMap (removedBy directory) := by
  have hitem : ∀ item, file ∈ removedBy directory item ↔
      isItem item = true ∧ file ∈ listed directory "Remove".toList item := by
    intro item
    rw [removedBy, List.mem_ite_nil_right]
  simp only [removed, compileItems, List.mem_flatMap, List.mem_filter, hitem, and_assoc]

theorem compilesDefaults_iff : compilesDefaults document = true ↔
    isShortStyle document = true ∧ true ∉ document.descendants.flatMap offBy := by
  simp only [compilesDefaults, Bool.and_eq_true, Bool.not_eq_true', ← Bool.not_eq_true, List.any_eq_true,
    List.mem_flatMap, offBy, List.mem_singleton, eq_comm (a := true)]

/-- A file is selected if it is included, or compiled by default and not removed. -/
theorem mem_files : file ∈ files directory document below ↔
    file ∈ included directory document ∨
      compilesDefaults document = true ∧ file ∈ below ∧ file ∉ removed directory document := by
  rw [files, List.mem_append, List.mem_ite_nil_right, List.mem_filter]
  simp

end Selection

/-! ## The same items in another order -/

namespace ItemsReplaced

variable {nodes nodes' old new : List Node}

theorem compilesDefaults_eq (h : ItemsReplaced nodes nodes' old new) (tag : Name) (attributes : List Attribute)
    (hitems : true ∈ (descendantsOfAll old).flatMap offBy ↔ true ∈ (descendantsOfAll new).flatMap offBy) :
    compilesDefaults (.element tag attributes nodes) = compilesDefaults (.element tag attributes nodes') := by
  have hoff : ∀ a b, Alike a b → offBy a = offBy b := fun a b hab => by rw [offBy, offBy, hab.turnsOffDefaults]
  rw [Bool.eq_iff_iff, compilesDefaults_iff, compilesDefaults_iff, h.mem_congr tag attributes hoff hitems]
  rfl

theorem mem_removed_iff (h : ItemsReplaced nodes nodes' old new) (tag : Name) (attributes : List Attribute)
    {directory file : Path} (hitems : file ∈ (descendantsOfAll old).flatMap (removedBy directory) ↔
      file ∈ (descendantsOfAll new).flatMap (removedBy directory)) :
    file ∈ removed directory (.element tag attributes nodes) ↔
      file ∈ removed directory (.element tag attributes nodes') := by
  rw [mem_removed, mem_removed, h.mem_congr tag attributes (fun a b hab => hab.removedBy directory) hitems]

end ItemsReplaced

/-- What a document selects is decided by what it includes and removes, and by whether it compiles the
default files. -/
theorem sources_congr {directory : Path} {document document' : Node} (below : List Path)
    (hincluded : ∀ file, file ∈ included directory document ↔ file ∈ included directory document')
    (hremoved : ∀ file, file ∈ removed directory document ↔ file ∈ removed directory document')
    (hdefaults : compilesDefaults document = compilesDefaults document') :
    sources directory document below = sources directory document' below :=
  Path.sortedSet_congr fun file => by rw [mem_files, mem_files, hincluded, hremoved, hdefaults]

end Project

/-- The source files that are found for a project. Its directory is searched only if the document needs it. -/
def FileTree.foundSources (tree : FileTree) (directory : Path) (document : Node) :
    Except SelectionError (List Path) :=
  if Project.compilesDefaults document then tree.defaultSources directory else .ok []

/-- The source files of a project, once its document is read. -/
def FileTree.documentSources (tree : FileTree) (directory : Path) (document : Node) :
    Except SelectionError (List Path) :=
  (tree.foundSources directory document).map (Project.sources directory document)

theorem FileTree.projectSources_of_parse {tree : FileTree} {path t : Text} {document : Node}
    (hread : tree.readManifest path = .ok t) (hparse : Xml.parse? t = some document) :
    tree.projectSources path = tree.documentSources (Path.directory (.ofText path)) document := by
  unfold projectSources projectFiles documentSources foundSources
  simp only [hread, bind_ok, hparse]
  split
  · cases tree.defaultSources (Path.directory (.ofText path)) <;> rfl
  · rfl

theorem FileTree.documentSources_congr {tree tree' : FileTree} {directory : Path} {document document' : Node}
    (hbelow : tree'.defaultSources directory = tree.defaultSources directory)
    (hdefaults : Project.compilesDefaults document' = Project.compilesDefaults document)
    (hsources : ∀ below, Project.sources directory document' below = Project.sources directory document below) :
    tree'.documentSources directory document' = tree.documentSources directory document := by
  have hfunction : Project.sources directory document' = Project.sources directory document := funext hsources
  rw [documentSources, documentSources, foundSources, foundSources, hdefaults, hbelow, hfunction]

namespace Project

/-- **The order of items makes no difference.** -/
theorem documentSources_of_perm {nodes nodes' old new : List Node} (h : ItemsReplaced nodes nodes' old new)
    (hperm : old.Perm new) (tag : Name) (attributes : List Attribute) {tree tree' : FileTree}
    {directory : Path} (hbelow : tree'.defaultSources directory = tree.defaultSources directory) :
    tree'.documentSources directory (.element tag attributes nodes') =
      tree.documentSources directory (.element tag attributes nodes) := by
  have hitems : ∀ {β : Type} (f : Node → List β) (x : β),
      x ∈ (descendantsOfAll old).flatMap f ↔ x ∈ (descendantsOfAll new).flatMap f := by
    intro β f x
    rw [descendantsOfAll_eq_flatMap, descendantsOfAll_eq_flatMap]
    exact ((hperm.flatMap_right _).flatMap_right f).mem_iff
  have hdefaults := (h.compilesDefaults_eq tag attributes (hitems offBy true)).symm
  refine FileTree.documentSources_congr hbelow hdefaults fun below => ?_
  refine sources_congr below (fun file => ?_) (fun file => ?_) hdefaults
  · rw [mem_included, mem_included]
    exact (h.mem_congr tag attributes (fun a b hab => hab.includedBy directory) (hitems _ file)).symm
  · exact (h.mem_removed_iff tag attributes (hitems _ file)).symm

/-! ## Lists of files -/

/-- An item that includes other files, and is the same else. -/
def including (files : Text) : Node → Node
  | .element tag attributes children =>
    .element tag (attributes.map fun a =>
      if a.name = ⟨none, "Include".toList⟩ then { a with value := files } else a) children
  | node => node

section Including

variable (files : Text) (item : Node)

theorem children_including : (including files item).children = item.children := by
  cases item <;> rfl

theorem isElement_including (base : Text) : isElement base (including files item) = isElement base item := by
  cases item <;> rfl

theorem hasChild_including (base : Text) : hasChild base (including files item) = hasChild base item := by
  unfold hasChild
  rw [children_including]

theorem attribute?_including (base : Text) : (including files item).attribute? base =
    (item.attribute? base).map fun value => if base = "Include".toList then files else value := by
  cases item with
  | text | note => rfl
  | element tag attributes children =>
    show ((attributes.map _).find? _).map Attribute.value = ((attributes.find? _).map Attribute.value).map _
    rw [List.find?_map, Option.map_map, Option.map_map]
    have hname : ((fun a : Attribute => a.name == ⟨none, base⟩) ∘ fun a =>
        if a.name = ⟨none, "Include".toList⟩ then { a with value := files } else a) =
        fun a => a.name == ⟨none, base⟩ := by
      funext a
      rw [Function.comp_apply]
      split <;> rfl
    rw [hname]
    cases hfound : attributes.find? fun a => a.name == ⟨none, base⟩ with
    | none => rfl
    | some a =>
      have hbase : a.name = ⟨none, base⟩ := by simpa using List.find?_some hfound
      simp only [Option.map_some, Function.comp_apply, hbase, Name.mk.injEq, true_and]
      split <;> rfl

theorem attribute?_including_of_ne {base : Text} (h : base ≠ "Include".toList) :
    (including files item).attribute? base = item.attribute? base := by
  rw [attribute?_including]
  simp only [if_neg h, Option.map_id']

theorem isLinked_including : isLinked (including files item) = isLinked item := by
  unfold isLinked
  rw [attribute?_including_of_ne _ _ (by decide), hasChild_including]

theorem removedBy_including (directory : Path) :
    removedBy directory (including files item) = removedBy directory item := by
  unfold removedBy isItem listed
  rw [isElement_including, attribute?_including_of_ne _ _ (by decide)]

theorem offBy_including : offBy (including files item) = offBy item := by
  unfold offBy turnsOffDefaults Node.text?
  rw [isElement_including, children_including]

end Including

theorem itemList_of_mem {value files : Text} (h : files ∈ itemList value) : itemList files = [files] := by
  unfold itemList at h
  obtain ⟨hmem, hne⟩ := List.mem_filter.mp h
  obtain ⟨piece, hpiece, rfl⟩ := List.mem_map.mp hmem
  have hsemicolon : ';' ∉ Text.trim piece :=
    fun hmem => Text.notMem_of_mem_splitAt hpiece ((Text.trim_sublist piece).subset hmem)
  rw [itemList, Text.splitAt_of_notMem hsemicolon, List.map_singleton, Text.trim_trim]
  exact List.filter_eq_self.mpr (by simpa using hne)

/-- The items of a list, each in an item of its own. -/
def separated (item : Node) (value : Text) : List Node :=
  (itemList value).map fun files => including files item

section Separated

variable {item : Node} {value : Text}

/-- An item includes its list, unless it is linked or generated. -/
theorem includedBy_eq (directory : Path) (hitem : isItem item = true)
    (hvalue : item.attribute? "Include".toList = some value) :
    includedBy directory item = if isLinked item || isGenerated item then []
      else (itemList value).map (resolveManifestPath directory) := by
  unfold includedBy listed
  rw [hitem, hvalue]
  cases isLinked item <;> cases isGenerated item <;> simp

/-- Separate items include what they have, unless they are linked or generated. -/
theorem flatMap_includedBy_separated (directory : Path) (hitem : isItem item = true)
    (hvalue : item.attribute? "Include".toList = some value) :
    (separated item value).flatMap (includedBy directory) = if isLinked item then []
      else ((itemList value).filter fun files => !isGenerated (including files item)).map
        (resolveManifestPath directory) := by
  have hone : ∀ files ∈ itemList value, includedBy directory (including files item) =
      if isLinked item || isGenerated (including files item) then []
        else [resolveManifestPath directory files] := by
    intro files hfiles
    have hvalue' : (including files item).attribute? "Include".toList = some files := by
      rw [attribute?_including, hvalue, Option.map_some, if_pos rfl]
    rw [includedBy_eq directory ((isElement_including files item _).trans hitem) hvalue', isLinked_including,
      itemList_of_mem hfiles, List.map_singleton]
  unfold separated
  generalize itemList value = list at hone
  induction list with
  | nil => cases isLinked item <;> rfl
  | cons files rest ih =>
    rw [List.map_cons, List.flatMap_cons, hone files List.mem_cons_self,
      ih fun files hfiles => hone files (List.mem_cons_of_mem _ hfiles)]
    cases isLinked item <;> cases hgenerated : isGenerated (including files item) <;> simp [hgenerated]

/-- The end of the list speaks for all its files: either none of them is generated, or all are. Of a linked
item it makes no difference. -/
def SpeaksForAll (item : Node) (value : Text) : Prop :=
  isLinked item = true ∨ ∀ files ∈ itemList value, isGenerated (including files item) = isGenerated item

theorem flatMap_includedBy_eq_of_speaksForAll (directory : Path) (hitem : isItem item = true)
    (hvalue : item.attribute? "Include".toList = some value) (hspeaks : SpeaksForAll item value) :
    (separated item value).flatMap (includedBy directory) = includedBy directory item := by
  rw [flatMap_includedBy_separated directory hitem hvalue, includedBy_eq directory hitem hvalue]
  rcases hspeaks with hlinked | hspeaks
  · rw [if_pos hlinked, hlinked, Bool.true_or, if_pos rfl]
  · have hfilter : ((itemList value).filter fun files => !isGenerated (including files item)) =
        (itemList value).filter fun _ => !isGenerated item :=
      List.filter_congr fun files hfiles => by rw [hspeaks files hfiles]
    rw [hfilter]
    cases isLinked item <;> cases isGenerated item <;> simp

/-- Separate items have the same below them. -/
theorem mem_flatMap_separated {β : Type} (f : Node → List β) (x : β) (hne : separated item value ≠ []) :
    x ∈ (descendantsOfAll (separated item value)).flatMap f ↔
      x ∈ (separated item value).flatMap f ∨ x ∈ (descendantsOfAll item.children).flatMap f := by
  have hbelow : ∀ node ∈ separated item value,
      node.descendants = node :: descendantsOfAll item.children := by
    intro node hnode
    obtain ⟨files, -, rfl⟩ := List.mem_map.mp hnode
    rw [descendants_eq, children_including]
  rw [descendantsOfAll_eq_flatMap, List.mem_flatMap, List.mem_flatMap]
  constructor
  · rintro ⟨n, hn, hx⟩
    obtain ⟨node, hnode, hn⟩ := List.mem_flatMap.mp hn
    rw [hbelow node hnode] at hn
    rcases List.mem_cons.mp hn with rfl | hn
    · exact Or.inl ⟨_, hnode, hx⟩
    · exact Or.inr (List.mem_flatMap.mpr ⟨n, hn, hx⟩)
  · rintro (⟨node, hnode, hx⟩ | hx)
    · refine ⟨node, List.mem_flatMap.mpr ⟨node, hnode, ?_⟩, hx⟩
      rw [hbelow node hnode]
      exact List.mem_cons_self
    · obtain ⟨n, hn, hx⟩ := List.mem_flatMap.mp hx
      obtain ⟨node, hnode⟩ := List.exists_mem_of_ne_nil _ hne
      refine ⟨n, List.mem_flatMap.mpr ⟨node, hnode, ?_⟩, hx⟩
      rw [hbelow node hnode]
      exact List.mem_cons_of_mem _ hn

theorem mem_flatMap_single {β : Type} (f : Node → List β) (x : β) :
    x ∈ (descendantsOfAll [item]).flatMap f ↔
      x ∈ f item ∨ x ∈ (descendantsOfAll item.children).flatMap f := by
  rw [descendantsOfAll_eq_flatMap, List.flatMap_singleton, descendants_eq, List.flatMap_cons, List.mem_append]

/-- What all separate items have in common with the item, they have together. -/
theorem mem_flatMap_of_same {β : Type} (f : Node → List β) (x : β) (hne : separated item value ≠ [])
    (hf : ∀ files, f (including files item) = f item) :
    x ∈ (descendantsOfAll [item]).flatMap f ↔ x ∈ (descendantsOfAll (separated item value)).flatMap f := by
  rw [mem_flatMap_single, mem_flatMap_separated f x hne]
  have hsame : x ∈ (separated item value).flatMap f ↔ x ∈ f item := by
    rw [List.mem_flatMap]
    constructor
    · rintro ⟨node, hnode, hx⟩
      obtain ⟨files, -, rfl⟩ := List.mem_map.mp hnode
      rwa [hf] at hx
    · intro hx
      obtain ⟨node, hnode⟩ := List.exists_mem_of_ne_nil _ hne
      obtain ⟨files, -, rfl⟩ := List.mem_map.mp hnode
      exact ⟨_, hnode, by rwa [hf]⟩
  rw [hsame]

end Separated

section Replaced

variable (tag : Name) (attributes : List Attribute) {nodes nodes' : List Node} {item : Node} {value : Text}

theorem ItemsReplaced.separated_ne_nil (h : ItemsReplaced nodes nodes' [item] (separated item value)) :
    separated item value ≠ [] :=
  h.new_ne_nil (List.cons_ne_nil _ _)

theorem ItemsReplaced.compilesDefaults_separated
    (h : ItemsReplaced nodes nodes' [item] (separated item value)) :
    compilesDefaults (.element tag attributes nodes') = compilesDefaults (.element tag attributes nodes) :=
  (h.compilesDefaults_eq tag attributes
    (mem_flatMap_of_same offBy true h.separated_ne_nil fun files => offBy_including files item)).symm

theorem ItemsReplaced.mem_removed_separated (h : ItemsReplaced nodes nodes' [item] (separated item value))
    (directory file : Path) : file ∈ removed directory (.element tag attributes nodes') ↔
      file ∈ removed directory (.element tag attributes nodes) :=
  (h.mem_removed_iff tag attributes (mem_flatMap_of_same _ file h.separated_ne_nil fun files =>
    removedBy_including files item directory)).symm

/-- But for what the items include, the same is selected. -/
theorem ItemsReplaced.exists_others (h : ItemsReplaced nodes nodes' [item] (separated item value))
    (directory : Path) (below : List Path) : ∃ others,
      sources directory (.element tag attributes nodes) below =
        Path.sortedSet (others ++ includedBy directory item) ∧
      sources directory (.element tag attributes nodes') below =
        Path.sortedSet (others ++ (separated item value).flatMap (includedBy directory)) := by
  obtain ⟨shared, hold, hnew⟩ := h.exists_shared tag attributes fun a b hab => hab.includedBy directory
  -- both select what the shared nodes include, what stands below the item, and the default files
  let shown := (descendantsOfAll item.children).flatMap (includedBy directory)
  let defaults := below.filter fun file =>
    compilesDefaults (.element tag attributes nodes) &&
      !(removed directory (.element tag attributes nodes)).contains file
  have hmem : ∀ file, file ∈ defaults ↔ compilesDefaults (.element tag attributes nodes) = true ∧
      file ∈ below ∧ file ∉ removed directory (.element tag attributes nodes) := by
    intro file
    simp only [defaults, List.mem_filter, Bool.and_eq_true, Bool.not_eq_true', List.contains_eq_mem,
      decide_eq_false_iff_not]
    tauto
  refine ⟨shared ++ shown ++ defaults, Path.sortedSet_congr fun file => ?_,
    Path.sortedSet_congr fun file => ?_⟩
  · simp only [mem_files, mem_included, hold.mem_iff, List.mem_append, mem_flatMap_single, hmem, shown]
    tauto
  · simp only [mem_files, mem_included, hnew.mem_iff, List.mem_append, mem_flatMap_separated _ _ h.separated_ne_nil,
      hmem, shown, h.compilesDefaults_separated tag attributes, h.mem_removed_separated tag attributes]
    tauto

end Replaced

/-- An item that includes a list of files, all of which depend on `A.cs`. -/
def dependent (files : Text) : Node :=
  .element ⟨none, "Compile".toList⟩ [⟨⟨none, "Include".toList⟩, files⟩]
    [.element ⟨none, "DependentUpon".toList⟩ [] [.text "A.cs".toList]]

/-- The document with such an item for each of some lists. -/
def dependentDocument (lists : List Text) : Text :=
  "<P>".toList ++ (lists.flatMap fun files => "<Compile Include=\"".toList ++ files ++
    "\"><DependentUpon>A.cs</DependentUpon></Compile>".toList) ++ "</P>".toList

/-- It is a project. -/
def dependentProject (lists : List Text) : FileTree :=
  .ofList [] [("p.csproj".toList, Utf8.encode (dependentDocument lists))]

/-- **A list of files and items for each of them differ where the list is not generated as a whole.** Let an
item include a list of files. It is left out as a whole if it is linked, or generated by the end of its list;
items that include one of the files each are left out one by one. Nothing else makes a difference, so
projects with the one and with the others select the same if the end of the list speaks for all its files. -/
theorem item_list_is_separate_items (tag : Name) (attributes : List Attribute) {nodes nodes' : List Node}
    {item : Node} {value : Text} (hvalue : item.attribute? "Include".toList = some value)
    (h : ItemsReplaced nodes nodes' [item] (separated item value)) :
    (∀ directory below, ∃ others,
      sources directory (.element tag attributes nodes) below =
        Path.sortedSet (others ++ if isLinked item || isGenerated item then []
          else (itemList value).map (resolveManifestPath directory)) ∧
      sources directory (.element tag attributes nodes') below =
        Path.sortedSet (others ++ if isLinked item then []
          else ((itemList value).filter fun files => !isGenerated (including files item)).map
            (resolveManifestPath directory))) ∧
    (SpeaksForAll item value → ∀ (tree tree' : FileTree) (path t t' : Text),
      tree.readManifest path = .ok t → Xml.parse? t = some (.element tag attributes nodes) →
      tree'.readManifest path = .ok t' → Xml.parse? t' = some (.element tag attributes nodes') →
      tree'.defaultSources (Path.directory (.ofText path)) =
        tree.defaultSources (Path.directory (.ofText path)) →
      tree'.projectSources path = tree.projectSources path) := by
  have hitem := h.isItem_old item List.mem_cons_self
  constructor
  · intro directory below
    obtain ⟨others, hold, hnew⟩ := h.exists_others tag attributes directory below
    refine ⟨others, ?_, ?_⟩
    · rw [hold, includedBy_eq directory hitem hvalue]
    · rw [hnew, flatMap_includedBy_separated directory hitem hvalue]
  · intro hspeaks tree tree' path t t' hread hparse hread' hparse' hbelow
    rw [FileTree.projectSources_of_parse hread hparse, FileTree.projectSources_of_parse hread' hparse']
    refine FileTree.documentSources_congr hbelow (h.compilesDefaults_separated tag attributes) fun below => ?_
    obtain ⟨others, hold, hnew⟩ := h.exists_others tag attributes (Path.directory (.ofText path)) below
    rw [hold, hnew, flatMap_includedBy_eq_of_speaksForAll _ hitem hvalue hspeaks]

theorem item_list_is_separate_items_of_sources :
    (dependentProject ["A.cs; B.cs".toList]).projectFiles "p.csproj".toList =
      .ok [[.name "A.cs".toList], [.name "B.cs".toList]] ∧
    (dependentProject ["A.cs".toList, "B.cs".toList]).projectSources "p.csproj".toList =
      (dependentProject ["A.cs; B.cs".toList]).projectSources "p.csproj".toList := by
  have hseparated : separated (dependent "A.cs; B.cs".toList) "A.cs; B.cs".toList =
      [dependent "A.cs".toList, dependent "B.cs".toList] := by decide +kernel
  have hreplaced : ItemsReplaced ([dependent "A.cs; B.cs".toList] ++ [])
      ([dependent "A.cs".toList, dependent "B.cs".toList] ++ []) [dependent "A.cs; B.cs".toList]
      (separated (dependent "A.cs; B.cs".toList) "A.cs; B.cs".toList) := by
    rw [hseparated]
    exact .items (List.cons_ne_nil _ _) (List.cons_ne_nil _ _) (by decide) (by decide) .nil
  refine ⟨by decide +kernel, ?_⟩
  exact (item_list_is_separate_items ⟨none, "P".toList⟩ [] (by decide) hreplaced).2
    (Or.inr (by decide +kernel)) _ _ _ (dependentDocument ["A.cs; B.cs".toList])
    (dependentDocument ["A.cs".toList, "B.cs".toList]) (by decide +kernel) (by decide +kernel)
    (by decide +kernel) (by decide +kernel) (by decide +kernel)

/-- **A generated file at the end of a list hides the others**, and one before the end is selected. Separate
items select the others alone. -/
theorem generated_end_hides_list :
    separated (dependent "A.cs;B.Designer.cs".toList) "A.cs;B.Designer.cs".toList =
      [dependent "A.cs".toList, dependent "B.Designer.cs".toList] ∧
    (dependentProject ["A.cs;B.Designer.cs".toList]).projectSources "p.csproj".toList = .ok [] ∧
    (dependentProject ["A.cs".toList, "B.Designer.cs".toList]).projectSources "p.csproj".toList =
      .ok [[.name "A.cs".toList]] ∧
    (dependentProject ["A.Designer.cs;B.cs".toList]).projectSources "p.csproj".toList =
      .ok [[.name "A.Designer.cs".toList], [.name "B.cs".toList]] ∧
    (dependentProject ["A.Designer.cs".toList, "B.cs".toList]).projectSources "p.csproj".toList =
      .ok [[.name "B.cs".toList]] := by
  have hfiles : (dependentProject ["A.Designer.cs;B.cs".toList]).projectFiles "p.csproj".toList =
      .ok [[.name "A.Designer.cs".toList], [.name "B.cs".toList]] := by decide +kernel
  refine ⟨by decide +kernel, by decide +kernel, by decide +kernel, ?_, by decide +kernel⟩
  rw [FileTree.projectSources, hfiles, Except.map, Path.sortedSet, List.mergeSort_of_pairwise (by decide)]
  decide

end Project

end Uncomment
