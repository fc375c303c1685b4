import Mathlib.Data.List.Induction
import Mathlib.Logic.Relation
import Uncomment.Proofs.SpelledPaths

/-!
# Normal forms of paths

Paths that differ by stays and detours (`Path.LeadAlike`) lead to the same place. Among all paths that lead there
exactly one is normal: an optional root, then parent directories, then names (`Path.IsNormal`). Normalising finds
it (`Path.normalize_gives_normal_forms`), and nothing else does (`Path.GivesNormalForms.eq_normalize`).

* A normal path ends with a name, which a parent directory takes away, or it has no name, and takes one parent
  directory more (`Path.IsNormal.last`). So every part keeps a path normal (`Path.IsWritten.isNormal_normalize`).
* Stays and detours change nothing (`Path.normalize_eq_of_leadAlike`), and a path is turned into its normal form
  by them alone (`Path.leadAlike_normalize`).
* A normal path is its own normal form (`Path.IsNormal.normalize_eq`), so it is the only one.
-/

namespace Uncomment

namespace Path

variable {a b path : Path}

/-! ## Normal paths -/

/-- An optional root, then parent directories, then names. -/
def IsNormal (path : Path) : Prop :=
  ∃ (start : Path) (ups : Nat) (names : List Text),
    path = start ++ List.replicate ups .parent ++ names.map .name ∧
      (start = [] ∨ start = [.root]) ∧ ∀ name ∈ names, IsName name

section Start

variable {start : Path} (hstart : start = [] ∨ start = [.root])

include hstart

theorem isNormal_ups (ups : Nat) : IsNormal (start ++ List.replicate ups .parent) :=
  ⟨start, ups, [], by simp, hstart, List.forall_mem_nil _⟩

theorem name_notMem_ups (ups : Nat) (name : Text) : .name name ∉ start ++ List.replicate ups .parent := by
  intro hmem
  rcases List.mem_append.mp hmem with hmem | hmem
  · rcases hstart with rfl | rfl <;> simp at hmem
  · cases List.eq_of_mem_replicate hmem

end Start

theorem IsNormal.concat_name (h : path.IsNormal) {name : Text} (hname : IsName name) :
    IsNormal (path ++ [.name name]) := by
  obtain ⟨start, ups, names, rfl, hstart, hnames⟩ := h
  refine ⟨start, ups, names ++ [name], ?_, hstart, ?_⟩
  · rw [List.map_append, ← List.append_assoc]
    rfl
  · intro n hn
    rcases List.mem_append.mp hn with hn | hn
    · exact hnames n hn
    · rw [List.mem_singleton.mp hn]
      exact hname

/-- What a normal path ends with. -/
theorem IsNormal.last (h : path.IsNormal) :
    (∃ (front : Path) (name : Text), path = front ++ [.name name] ∧ front.IsNormal ∧ IsName name) ∨
      (∀ name, .name name ∉ path) ∧ IsNormal (path ++ [.parent]) := by
  obtain ⟨start, ups, names, rfl, hstart, hnames⟩ := h
  rcases List.eq_nil_or_concat' names with rfl | ⟨front, name, rfl⟩
  · right
    rw [List.map_nil, List.append_nil]
    refine ⟨name_notMem_ups hstart ups, ?_⟩
    rw [List.append_assoc, ← List.replicate_succ']
    exact isNormal_ups hstart (ups + 1)
  · left
    refine ⟨start ++ List.replicate ups .parent ++ front.map .name, name, ?_, ?_, ?_⟩
    · rw [List.map_append, ← List.append_assoc]
      rfl
    · exact ⟨start, ups, front, rfl, hstart, fun n hn => hnames n (List.mem_append_left _ hn)⟩
    · exact hnames name (List.mem_append_right _ List.mem_cons_self)

/-! ## Normalising part by part -/

theorem normalize_start {start : Path} (h : start = [] ∨ start = [.root]) : normalize start = start := by
  rcases h with rfl | rfl <;> rfl

/-- A parent directory takes the last name away. -/
theorem normalize_concat_parent_of_name {front : Path} {name : Text}
    (h : path.normalize = front ++ [.name name]) : normalize (path ++ [.parent]) = front := by
  rw [normalize_concat, h, List.reverse_append]
  exact front.reverse_reverse

/-- A parent directory stays where there is no name. -/
theorem normalize_concat_parent_of_no_name (h : ∀ name, .name name ∉ path.normalize) :
    normalize (path ++ [.parent]) = path.normalize ++ [.parent] := by
  have hstep : resolveStep path.normalize.reverse .parent = .parent :: path.normalize.reverse := by
    cases hreverse : path.normalize.reverse with
    | nil => rfl
    | cons last rest =>
      cases last with
      | name name =>
        refine absurd (List.mem_reverse.mp ?_) (h name)
        rw [hreverse]
        exact List.mem_cons_self
      | root | current | parent => rfl
  rw [normalize_concat, hstep, List.reverse_cons, List.reverse_reverse]

/-- What holds of every start, and is kept by every part that can be written, holds of every path. -/
@[elab_as_elim]
theorem IsWritten.induction {motive : Path → Prop} (h : path.IsWritten)
    (start : ∀ start : Path, start = [] ∨ start = [.root] → motive start)
    (current : ∀ path : Path, motive path → motive (path ++ [.current]))
    (parent : ∀ path : Path, path.IsWritten → motive path → motive (path ++ [.parent]))
    (name : ∀ (path : Path) (name : Text), IsName name → motive path → motive (path ++ [.name name])) :
    motive path := by
  obtain ⟨first, rest, rfl, hfirst, hrest⟩ := h
  induction rest using List.reverseRecOn with
  | nil =>
    rw [List.append_nil]
    exact start first hfirst
  | append_singleton rest part ih =>
    obtain ⟨hfront, hlast⟩ := List.forall_mem_append.mp hrest
    have hpart := hlast part List.mem_cons_self
    rw [← List.append_assoc]
    cases part with
    | root => rcases hpart with hpart | hpart <;> cases hpart
    | current => exact current _ (ih hfront)
    | parent => exact parent _ ⟨first, rest, rfl, hfirst, hfront⟩ (ih hfront)
    | name text =>
      rcases hpart with hpart | hname
      · cases hpart
      · exact name _ text hname (ih hfront)

/-- **Every path has a normal form.** -/
theorem IsWritten.isNormal_normalize (h : path.IsWritten) : path.normalize.IsNormal := by
  refine IsWritten.induction h ?start ?current ?parent ?name
  case start =>
    intro start hstart
    rw [normalize_start hstart, ← List.append_nil start]
    exact isNormal_ups hstart 0
  case current =>
    intro path ih
    rw [normalize_append_current, List.append_nil]
    exact ih
  case parent =>
    intro path _ ih
    rcases ih.last with ⟨front, name, heq, hfront, -⟩ | ⟨hno, hup⟩
    · rw [normalize_concat_parent_of_name heq]
      exact hfront
    · rw [normalize_concat_parent_of_no_name hno]
      exact hup
  case name =>
    intro path name hname ih
    rw [normalize_concat_name]
    exact ih.concat_name hname

/-- **A normal path is its own normal form.** -/
theorem IsNormal.normalize_eq (h : path.IsNormal) : path.normalize = path := by
  obtain ⟨start, ups, names, rfl, hstart, -⟩ := h
  have hups : normalize (start ++ List.replicate ups .parent) = start ++ List.replicate ups .parent := by
    induction ups with
    | zero =>
      show normalize (start ++ []) = start ++ []
      rw [List.append_nil, normalize_start hstart]
    | succ ups ih =>
      have hno : ∀ name, .name name ∉ normalize (start ++ List.replicate ups .parent) := by
        rw [ih]
        exact name_notMem_ups hstart ups
      rw [List.replicate_succ', ← List.append_assoc, normalize_concat_parent_of_no_name hno, ih]
  induction names using List.reverseRecOn with
  | nil => rw [List.map_nil, List.append_nil, hups]
  | append_singleton names name ih =>
    rw [List.map_append, ← List.append_assoc, List.map_singleton, normalize_concat_name, ih]

/-! ## Stays and detours -/

/-- A stay or a detour more: where the path is, or into a directory and back. -/
inductive Insertion : Path → Path → Prop
  | stay {front back : Path} : .root ∉ back → Insertion (front ++ back) (front ++ .current :: back)
  | detour {front back : Path} {name : Text} : .root ∉ back → IsName name →
      Insertion (front ++ back) (front ++ .name name :: .parent :: back)

/-- The paths differ by any number of stays and detours. -/
def LeadAlike : Path → Path → Prop :=
  Relation.EqvGen Insertion

theorem Insertion.normalize_eq (h : Insertion a b) : a.normalize = b.normalize := by
  cases h with
  | stay _ => exact (normalize_append_current _ _).symm
  | detour _ _ => exact (normalize_append_detour _ _ _).symm

theorem Insertion.append (h : Insertion a b) {more : Path} (hmore : .root ∉ more) :
    Insertion (a ++ more) (b ++ more) := by
  have hback : ∀ {back : Path}, .root ∉ back → .root ∉ back ++ more := by
    intro back hback hmem
    rcases List.mem_append.mp hmem with hmem | hmem
    · exact hback hmem
    · exact hmore hmem
  cases h with
  | stay h =>
    rw [List.append_assoc, List.append_assoc]
    exact .stay (hback h)
  | detour h hname =>
    rw [List.append_assoc, List.append_assoc]
    exact .detour (hback h) hname

/-- **Paths that lead alike have the same normal form.** -/
theorem normalize_eq_of_leadAlike (h : LeadAlike a b) : a.normalize = b.normalize := by
  induction h with
  | rel _ _ h => exact h.normalize_eq
  | refl _ => rfl
  | symm _ _ _ ih => exact ih.symm
  | trans _ _ _ _ _ ih ih' => exact ih.trans ih'

theorem LeadAlike.append (h : LeadAlike a b) {more : Path} (hmore : .root ∉ more) :
    LeadAlike (a ++ more) (b ++ more) := by
  induction h with
  | rel _ _ h => exact .rel _ _ (h.append hmore)
  | refl _ => exact .refl _
  | symm _ _ _ ih => exact .symm _ _ ih
  | trans _ _ _ _ _ ih ih' => exact .trans _ _ _ ih ih'

theorem leadAlike_concat_current (path : Path) : LeadAlike (path ++ [.current]) path := by
  have h : Insertion (path ++ []) (path ++ [.current]) := .stay List.not_mem_nil
  rw [List.append_nil] at h
  exact .symm _ _ (.rel _ _ h)

theorem leadAlike_concat_detour (path : Path) {name : Text} (hname : IsName name) :
    LeadAlike (path ++ [.name name] ++ [.parent]) path := by
  have h : Insertion (path ++ []) (path ++ [.name name, .parent]) := .detour List.not_mem_nil hname
  rw [List.append_nil] at h
  rw [List.append_assoc]
  exact .symm _ _ (.rel _ _ h)

/-- **A path leads where its normal form does.** -/
theorem leadAlike_normalize (h : path.IsWritten) : LeadAlike path path.normalize := by
  refine IsWritten.induction h ?start ?current ?parent ?name
  case start =>
    intro start hstart
    rw [normalize_start hstart]
    exact .refl _
  case current =>
    intro path ih
    rw [normalize_append_current, List.append_nil]
    exact .trans _ _ _ (leadAlike_concat_current path) ih
  case parent =>
    intro path hpath ih
    have hup : LeadAlike (path ++ [.parent]) (path.normalize ++ [.parent]) := ih.append (by simp)
    rcases hpath.isNormal_normalize.last with ⟨front, name, heq, -, hname⟩ | ⟨hno, -⟩
    · rw [normalize_concat_parent_of_name heq]
      rw [heq] at hup
      exact .trans _ _ _ hup (leadAlike_concat_detour front hname)
    · rw [normalize_concat_parent_of_no_name hno]
      exact hup
  case name =>
    intro path name _ ih
    rw [normalize_concat_name]
    exact ih.append (by simp)

/-- **No other normal path leads alike.** -/
theorem IsNormal.eq_normalize (h : b.IsNormal) (hab : LeadAlike a b) : b = a.normalize := by
  calc b = b.normalize := h.normalize_eq.symm
    _ = a.normalize := (normalize_eq_of_leadAlike hab).symm

/-! ## Joined texts -/

section Joined

variable {relative name : Text}

theorem steps_extend (base relative : Text) :
    steps (WrittenPath.extend base relative) = steps base ++ steps relative := by
  unfold WrittenPath.extend
  split
  · next h =>
    rcases Bool.or_eq_true_iff.mp h with hempty | hslash
    · rw [List.isEmpty_iff.mp hempty]
      rfl
    · obtain ⟨front, rfl⟩ := List.getLast?_eq_some_iff.mp (beq_iff_eq.mp hslash)
      rw [List.append_assoc, List.singleton_append, steps_append_slash, steps_append_slash]
      show steps front ++ steps relative = steps front ++ [] ++ steps relative
      rw [List.append_nil]
  · exact steps_append_slash base relative

/-- What is joined to a path does not change where it starts. -/
theorem head?_extend (base : Text) (h : relative.head? ≠ some '/') :
    (WrittenPath.extend base relative).head? = some '/' ↔ base.head? = some '/' := by
  unfold WrittenPath.extend
  cases base with
  | nil => simpa using h
  | cons c rest => split <;> rfl

theorem normalize_ofText (t : Text) :
    (ofText t).normalize = normalize ((if t.head? = some '/' then [.root] else []) ++ steps t) := by
  rw [← normalize_followedBy_ofText]
  congr 1
  unfold followedBy
  split <;> rfl

/-- The parts of joined texts follow each other. -/
theorem normalize_ofText_extend (base : Text) (h : relative.head? ≠ some '/') :
    (ofText (WrittenPath.extend base relative)).normalize =
      normalize ((if base.head? = some '/' then [.root] else []) ++ (steps base ++ steps relative)) := by
  rw [normalize_ofText, steps_extend]
  simp only [head?_extend base h]

/-- **A stay between two texts leads nowhere.** -/
theorem normalize_ofText_stay (base : Text) (h : relative.head? ≠ some '/') :
    (ofText (WrittenPath.extend (WrittenPath.extend base ".".toList) relative)).normalize =
      (ofText (WrittenPath.extend base relative)).normalize := by
  have hsteps : steps (WrittenPath.extend base ".".toList) = steps base := by
    rw [steps_extend]
    exact List.append_nil _
  have hhead := head?_extend base (show ".".toList.head? ≠ some '/' by decide)
  rw [normalize_ofText_extend _ h, normalize_ofText_extend _ h, hsteps]
  simp only [hhead]

/-- **A detour between two texts leads nowhere.** -/
theorem normalize_ofText_detour (base : Text) (hname : IsName name) (h : relative.head? ≠ some '/') :
    (ofText (WrittenPath.extend (WrittenPath.extend (WrittenPath.extend base name) "..".toList) relative)).normalize =
      (ofText (WrittenPath.extend base relative)).normalize := by
  have hslash : name.head? ≠ some '/' := by
    intro hmem
    exact hname.2.2.2 (List.mem_of_mem_head? hmem)
  have hsteps : steps (WrittenPath.extend (WrittenPath.extend base name) "..".toList) =
      steps base ++ [.name name, .parent] := by
    rw [steps_extend, steps_extend, steps_name hname, List.append_assoc]
    rfl
  have hhead := (head?_extend (WrittenPath.extend base name) (show "..".toList.head? ≠ some '/' by decide)).trans
    (head?_extend base hslash)
  rw [normalize_ofText_extend _ h, normalize_ofText_extend _ h, hsteps]
  simp only [hhead]
  rw [List.append_assoc (steps base), ← List.append_assoc _ (steps base), ← List.append_assoc _ (steps base)]
  exact normalize_append_detour _ (steps relative) name

end Joined

/-! ## Normal forms -/

/-- What a function does that gives every path its normal form. -/
structure GivesNormalForms (normal : Path → Path) : Prop where
  /-- The normal form of a path is normal. -/
  isNormal : ∀ path, path.IsWritten → (normal path).IsNormal
  /-- It is its own normal form. -/
  idempotent : ∀ path, path.IsWritten → normal (normal path) = normal path
  /-- A stay is left out, wherever it stands. -/
  stay : ∀ front back, normal (front ++ .current :: back) = normal (front ++ back)
  /-- A detour is taken back, wherever it stands. -/
  detour : ∀ front name back, normal (front ++ .name name :: .parent :: back) = normal (front ++ back)
  /-- So any number of them makes no difference. -/
  eq_of_leadAlike : ∀ a b, LeadAlike a b → normal a = normal b
  /-- Nothing but stays and detours is taken away. -/
  leadAlike : ∀ path, path.IsWritten → LeadAlike path (normal path)
  /-- There is no other normal form. -/
  unique : ∀ path other, other.IsNormal → LeadAlike path other → other = normal path
  /-- Every text is a path, and its normal form is read back from the text of the normal form. -/
  text : ∀ t, (ofText t).IsWritten ∧ ofText (normal (ofText t)).toText = normal (ofText t)
  /-- A stay is left out between two texts. -/
  stayInText : ∀ base relative : Text, relative.head? ≠ some '/' →
    normal (ofText (WrittenPath.extend (WrittenPath.extend base ".".toList) relative)) =
      normal (ofText (WrittenPath.extend base relative))
  /-- A detour is taken back between two texts. -/
  detourInText : ∀ base name relative : Text, IsName name → relative.head? ≠ some '/' →
    normal (ofText (WrittenPath.extend (WrittenPath.extend (WrittenPath.extend base name) "..".toList) relative)) =
      normal (ofText (WrittenPath.extend base relative))

/-- Only one function gives every path its normal form. -/
theorem GivesNormalForms.eq_normalize {normal : Path → Path} (h : GivesNormalForms normal)
    (hpath : path.IsWritten) : normal path = path.normalize :=
  (h.isNormal path hpath).eq_normalize (h.leadAlike path hpath)

/-- **Normalising gives every path its normal form**: an optional root, then parent directories, then names. All
paths that differ by stays and detours have the same one, and no other normal path leads alike. -/
theorem normalize_gives_normal_forms : GivesNormalForms normalize where
  isNormal _ hpath := hpath.isNormal_normalize
  idempotent _ hpath := hpath.isNormal_normalize.normalize_eq
  stay := normalize_append_current
  detour front name back := normalize_append_detour front back name
  eq_of_leadAlike _ _ h := normalize_eq_of_leadAlike h
  leadAlike _ hpath := leadAlike_normalize hpath
  unique _ _ hnormal h := hnormal.eq_normalize h
  text t := ⟨isWritten_ofText t, ofText_toText (isWritten_ofText t).normalize⟩
  stayInText base _ h := normalize_ofText_stay base h
  detourInText base _ _ hname h := normalize_ofText_detour base hname h

/-- A parent directory that no name stands before, a detour, and a stay. -/
theorem normalize_gives_normal_forms_of_detour :
    LeadAlike [.root, .parent, .name "x".toList, .parent, .current, .name "A.cs".toList]
      [.root, .parent, .name "A.cs".toList] ∧
    IsNormal [.root, .parent, .name "A.cs".toList] ∧
    normalize [.root, .parent, .name "x".toList, .parent, .current, .name "A.cs".toList] =
      [.root, .parent, .name "A.cs".toList] := by
  have hstay : Insertion [.root, .parent, .name "A.cs".toList]
      [.root, .parent, .current, .name "A.cs".toList] :=
    @Insertion.stay [.root, .parent] [.name "A.cs".toList] (by decide)
  have hdetour : Insertion [.root, .parent, .current, .name "A.cs".toList]
      [.root, .parent, .name "x".toList, .parent, .current, .name "A.cs".toList] :=
    @Insertion.detour [.root, .parent] [.current, .name "A.cs".toList] "x".toList (by decide) (by decide)
  have halike : LeadAlike [.root, .parent, .name "x".toList, .parent, .current, .name "A.cs".toList]
      [.root, .parent, .name "A.cs".toList] :=
    .trans _ _ _ (.symm _ _ (.rel _ _ hdetour)) (.symm _ _ (.rel _ _ hstay))
  have hnormal : IsNormal [.root, .parent, .name "A.cs".toList] :=
    ⟨[.root], 1, ["A.cs".toList], rfl, Or.inr rfl, by decide⟩
  exact ⟨halike, hnormal, (normalize_gives_normal_forms.unique _ _ hnormal halike).symm⟩

end Path

end Uncomment
