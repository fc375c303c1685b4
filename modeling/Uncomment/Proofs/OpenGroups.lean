import Uncomment.Proofs.NestedBranches

/-!
# Open groups

Lines come in any order, and many of them are wrong: an `#endif` too many, an `#else` after an `#else`, an
`#elif` with something that is no condition. Whatever they are, the state stays consistent.

* What is compiled is decided by the innermost group, yet it is compiled exactly if the current branch of
  **every** open group is: a group inside one that is not compiled counts as taken.
* Of the branches of a group **at most one** is compiled, and none begins after its `#else`.

The branches of a group are no longer in the state when the next one begins. They are noted down along the
run (`openBranches`), from nothing but the lines, their errors and whether the text after each of them is
compiled, and the record of the group is compared with the notes.
-/

namespace Uncomment

/-! ## What a directive can do -/

namespace Compilation

/-- What a directive does to a state. -/
inductive Step (state : Compilation) : Directive → Compilation → Option DirectiveError → Prop where
  | opened (condition : Text) :
    Step state (.ifBranch condition)
      ⟨state.symbols, .opened state.isActive (state.evaluate? condition) :: state.groups⟩
      (conditionError (state.evaluate? condition))
  | elif (condition : Text) {group : BranchGroup} {outer : List BranchGroup}
      (hopen : state.groups = group :: outer) (helse : group.elseSeen = false) :
    Step state (.elifBranch condition)
      ⟨state.symbols, group.elif (state.evaluate? condition) :: outer⟩
      (conditionError (state.evaluate? condition))
  | otherwise {group : BranchGroup} {outer : List BranchGroup}
      (hopen : state.groups = group :: outer) (helse : group.elseSeen = false) :
    Step state .elseBranch ⟨state.symbols, group.otherwise :: outer⟩ none
  | closed {group : BranchGroup} {outer : List BranchGroup} (hopen : state.groups = group :: outer) :
    Step state .endif ⟨state.symbols, outer⟩ none
  /-- No group is open, or another branch begins after the `#else` of the innermost. -/
  | unexpected {directive : Directive}
      (hdirective : (∃ condition, directive = .elifBranch condition) ∨ directive = .elseBranch ∨
        directive = .endif)
      (hgroup : ∀ group ∈ state.groups.head?, directive ≠ .endif ∧ group.elseSeen = true) :
    Step state directive state (some (.unexpected directive))
  /-- A symbol is defined or not defined any more. -/
  | symbols {directive : Directive} {symbol : Text} (defined : List Text)
      (hdirective : directive = .define symbol ∨ directive = .undef symbol)
      (hactive : state.isActive = true) :
    Step state directive ⟨defined, state.groups⟩ none
  /-- Nothing changes: what is defined is no symbol, or the text is not compiled, or it is none of the six. -/
  | ignored {directive : Directive} {error : Option DirectiveError}
      (hconditional : directive.isConditional = false)
      (herror : error = none ∨ error = some .invalidExpression) :
    Step state directive state error

/-- **A directive does one of these.** -/
theorem step_apply (state : Compilation) (directive : Directive) :
    state.Step directive (state.apply directive).1 (state.apply directive).2 := by
  cases directive with
  | ifBranch condition => exact .opened condition
  | elifBranch condition =>
    rcases hopen : state.groups with _ | ⟨group, outer⟩
    · simp only [apply, hopen]
      exact .unexpected (Or.inl ⟨condition, rfl⟩) (by simp [hopen])
    · by_cases helse : group.elseSeen = true
      · simp only [apply, hopen, helse, if_true]
        exact .unexpected (Or.inl ⟨condition, rfl⟩) (by simp [hopen, helse])
      · simp only [apply, hopen, helse, if_false, Bool.false_eq_true]
        exact .elif condition hopen (by simpa using helse)
  | elseBranch =>
    rcases hopen : state.groups with _ | ⟨group, outer⟩
    · simp only [apply, hopen]
      exact .unexpected (Or.inr (Or.inl rfl)) (by simp [hopen])
    · by_cases helse : group.elseSeen = true
      · simp only [apply, hopen, helse, if_true]
        exact .unexpected (Or.inr (Or.inl rfl)) (by simp [hopen, helse])
      · simp only [apply, hopen, helse, if_false, Bool.false_eq_true]
        exact .otherwise hopen (by simpa using helse)
  | endif =>
    rcases hopen : state.groups with _ | ⟨group, outer⟩
    · simp only [apply, hopen]
      exact .unexpected (Or.inr (Or.inr rfl)) (by simp [hopen])
    · simp only [apply, hopen]
      exact .closed hopen
  | define symbol =>
    simp only [apply]
    split
    · exact .ignored rfl (Or.inr rfl)
    · split
      · next hactive => exact .symbols _ (Or.inl rfl) hactive
      · exact .ignored rfl (Or.inl rfl)
  | undef symbol =>
    simp only [apply]
    split
    · exact .ignored rfl (Or.inr rfl)
    · split
      · next hactive => exact .symbols _ (Or.inr rfl) hactive
      · exact .ignored rfl (Or.inl rfl)
  | other => exact .ignored rfl (Or.inl rfl)

/-! ## The open groups of a state -/

/-- How the open groups of a state, the innermost first, fit together. -/
structure Consistent (state : Compilation) : Prop where
  /-- A group inside one that is not compiled is not compiled, and counts as taken. -/
  inside : state.groups.Pairwise fun inner outer =>
    outer.active = false → inner.active = false ∧ inner.taken = true
  /-- A group whose current branch is compiled counts as taken. -/
  taken : ∀ group ∈ state.groups, group.active = true → group.taken = true

theorem consistent_initial : initial.Consistent :=
  ⟨.nil, by simp [initial]⟩

variable {state after : Compilation} {directive : Directive} {error : Option DirectiveError}

/-- **The text is compiled exactly if the current branch of every open group is.** -/
theorem Consistent.isActive_iff (h : state.Consistent) :
    state.isActive = true ↔ ∀ group ∈ state.groups, group.active = true := by
  obtain ⟨symbols, groups⟩ := state
  cases groups with
  | nil => simp [isActive]
  | cons group outer =>
    constructor
    · intro hactive other hother
      rcases List.mem_cons.mp hother with rfl | hother
      · exact hactive
      · by_contra hinactive
        have hinside := (List.pairwise_cons.mp h.inside).1 other hother (by simpa using hinactive)
        rw [show group.active = true from hactive] at hinside
        cases hinside.1
    · intro hall
      exact hall group (by simp)

/-- The groups around a group are consistent without it. -/
theorem Consistent.outer {symbols : List Text} {group : BranchGroup} {outer : List BranchGroup}
    (h : Consistent ⟨symbols, group :: outer⟩) (symbols' : List Text) : Consistent ⟨symbols', outer⟩ :=
  ⟨(List.pairwise_cons.mp h.inside).2, fun g hg => h.taken g (List.mem_cons_of_mem _ hg)⟩

/-- A group may be put on top of open ones if it is in order itself, and not compiled and taken where the text
around it is not compiled. -/
theorem Consistent.cons {symbols : List Text} {group : BranchGroup} {outer : List BranchGroup}
    (h : Consistent ⟨symbols, outer⟩) (htaken : group.active = true → group.taken = true)
    (hinside : (∃ g ∈ outer, g.active = false) → group.active = false ∧ group.taken = true) :
    Consistent ⟨symbols, group :: outer⟩ := by
  refine ⟨List.pairwise_cons.mpr ⟨fun g hg hinactive => hinside ⟨g, hg, hinactive⟩, h.inside⟩, ?_⟩
  intro g hg
  rcases List.mem_cons.mp hg with rfl | hg
  · exact htaken
  · exact h.taken g hg

/-- A branch of the innermost group is followed by another one. -/
theorem Consistent.next {symbols : List Text} {group next : BranchGroup} {outer : List BranchGroup}
    (h : Consistent ⟨symbols, group :: outer⟩) (htaken : next.active = true → next.taken = true)
    (hkept : group.taken = true → next.active = false ∧ next.taken = true) :
    Consistent ⟨symbols, next :: outer⟩ := by
  refine (h.outer symbols).cons htaken fun ⟨g, hg, hinactive⟩ => hkept ?_
  exact ((List.pairwise_cons.mp h.inside).1 g hg hinactive).2

/-- **A step keeps the groups consistent.** -/
theorem Step.consistent (h : state.Step directive after error) (hstate : state.Consistent) :
    after.Consistent := by
  cases h with
  | opened condition =>
    refine hstate.cons ?_ ?_
    · simp +contextual [BranchGroup.opened]
    · rintro ⟨g, hg, hinactive⟩
      have hnot : state.isActive = false := by
        rw [← Bool.not_eq_true, hstate.isActive_iff]
        intro hall
        rw [hall g hg] at hinactive
        cases hinactive
      simp [BranchGroup.opened, hnot]
  | @elif condition group outer hopen helse =>
    obtain ⟨symbols, groups⟩ := state
    obtain rfl : groups = group :: outer := hopen
    refine hstate.next ?_ ?_
    · simp +contextual [BranchGroup.elif]
    · simp +contextual [BranchGroup.elif]
  | @otherwise group outer hopen helse =>
    obtain ⟨symbols, groups⟩ := state
    obtain rfl : groups = group :: outer := hopen
    refine hstate.next ?_ ?_
    · simp [BranchGroup.otherwise]
    · simp +contextual [BranchGroup.otherwise]
  | @closed group outer hopen =>
    obtain ⟨symbols, groups⟩ := state
    obtain rfl : groups = group :: outer := hopen
    exact hstate.outer symbols
  | unexpected => exact hstate
  | symbols defined => exact ⟨hstate.inside, hstate.taken⟩
  | ignored => exact hstate

end Compilation

/-! ## The branches of a group -/

/-- A branch of a group: whether it begins with `#else`, and whether it is compiled. -/
structure Branch where
  isElse : Bool
  active : Bool
  deriving DecidableEq, Repr

/-- A line that was applied: the state before and after it, and what is wrong with it. -/
structure AppliedLine where
  before : Compilation
  directive : Directive
  after : Compilation
  error : Option DirectiveError
  deriving DecidableEq, Repr

/-- The branches of the open groups after a directive, given whether the text after it is compiled. An `#if`
begins a group, `#elif` and `#else` begin a branch of the innermost group, and `#endif` ends it. -/
def Directive.noteBranch (active : Bool) : Directive → List (List Branch) → List (List Branch)
  | ifBranch _, branches => [⟨false, active⟩] :: branches
  | elifBranch _, innermost :: outer => (⟨false, active⟩ :: innermost) :: outer
  | elseBranch, innermost :: outer => (⟨true, active⟩ :: innermost) :: outer
  | endif, _ :: outer => outer
  | _, branches => branches

namespace AppliedLine

/-- The branches of the open groups after a line, the innermost group and the newest branch first. A
directive that is unexpected begins and ends nothing. -/
def note (branches : List (List Branch)) (a : AppliedLine) : List (List Branch) :=
  if a.error = some (.unexpected a.directive) then branches
  else a.directive.noteBranch a.after.isActive branches

/-- Whether the line is an `#if`. -/
def opens (a : AppliedLine) : Bool :=
  match a.directive with
  | .ifBranch _ => true
  | _ => false

/-- Whether the line is an `#endif` and finds an open group. -/
def closes (a : AppliedLine) : Bool :=
  a.directive == .endif && a.before.inGroup

end AppliedLine

namespace Compilation

/-- A line as it is applied to a state. -/
def applied (state : Compilation) (line : Text) : AppliedLine :=
  ⟨state, Directive.parse line, (state.applyLine line).1, (state.applyLine line).2⟩

/-- Lines as they are applied, one after the other. -/
def trace (state : Compilation) : List Text → List AppliedLine
  | [] => []
  | line :: rest => state.applied line :: trace (state.applied line).after rest

/-- The branches of the open groups after lines. -/
def openBranches (state : Compilation) (lines : List Text) : List (List Branch) :=
  (state.trace lines).foldl AppliedLine.note []

end Compilation

/-- What the record of a group has to do with the branches of the group so far, the newest first. -/
structure BranchGroup.AgreesWith (group : BranchGroup) (branches : List Branch) : Prop where
  /-- The current branch is the newest one. -/
  current : branches.head?.map (·.active) = some group.active
  /-- At most one branch is compiled. -/
  atMostOne : branches.countP (·.active) ≤ 1
  /-- No branch begins after the `#else`. -/
  elseLast : ∀ branch ∈ branches.tail, branch.isElse = false
  elseSeen : group.elseSeen = branches.any (·.isElse)
  /-- As long as the group does not count as taken, no branch was compiled. -/
  noneActive : group.taken = false → ∀ branch ∈ branches, branch.active = false

namespace BranchGroup.AgreesWith

variable {group next : BranchGroup} {branches : List Branch}

/-- A group that begins has one branch. -/
theorem opened (parentActive : Bool) (value : Option Bool) :
    (BranchGroup.opened parentActive value).AgreesWith
      [⟨false, (BranchGroup.opened parentActive value).active⟩] := by
  refine ⟨rfl, ?_, by simp, rfl, ?_⟩
  · exact List.countP_le_length
  · simp +contextual [BranchGroup.opened]

/-- **One more branch**: it is compiled only if the group does not count as taken, and then does. -/
theorem cons (h : group.AgreesWith branches) (helse : group.elseSeen = false) (isElse : Bool)
    (hseen : next.elseSeen = isElse) (hactive : next.active = true → group.taken = false)
    (htaken : next.taken = false → group.taken = false ∧ next.active = false) :
    next.AgreesWith (⟨isElse, next.active⟩ :: branches) := by
  have hnoElse : branches.any (·.isElse) = false := h.elseSeen.symm.trans helse
  refine ⟨rfl, ?_, ?_, ?_, ?_⟩
  · cases hnext : next.active with
    | false =>
      rw [List.countP_cons_of_neg (by simp)]
      exact h.atMostOne
    | true =>
      have hnone : branches.countP (·.active) = 0 :=
        List.countP_eq_zero.mpr fun b hb => by simp [h.noneActive (hactive hnext) b hb]
      rw [List.countP_cons_of_pos rfl, hnone]
  · intro b hb
    have hall := List.any_eq_false.mp hnoElse b hb
    simpa using hall
  · rw [hseen, List.any_cons, hnoElse, Bool.or_false]
  · intro hnot b hb
    obtain ⟨hbefore, hinactive⟩ := htaken hnot
    rcases List.mem_cons.mp hb with rfl | hb
    · exact hinactive
    · exact h.noneActive hbefore b hb

end BranchGroup.AgreesWith

namespace Compilation

variable {state after : Compilation} {directive : Directive} {error : Option DirectiveError}
  {branches : List (List Branch)}

/-- The groups of a state agree with the branches that were noted for them. -/
def AgreesWith (state : Compilation) (branches : List (List Branch)) : Prop :=
  List.Forall₂ BranchGroup.AgreesWith state.groups branches

theorem conditionError_ne_unexpected (value : Option Bool) (directive : Directive) :
    conditionError value ≠ some (.unexpected directive) := by
  unfold conditionError
  split <;> simp

/-- **What is noted of a step agrees with the state after it.** -/
theorem Step.agreesWith (h : state.Step directive after error) (hstate : state.AgreesWith branches) :
    after.AgreesWith (AppliedLine.note branches ⟨state, directive, after, error⟩) := by
  cases h with
  | opened condition =>
    rw [AppliedLine.note, if_neg (conditionError_ne_unexpected _ _)]
    exact .cons (.opened _ _) hstate
  | @elif condition group outer hopen helse =>
    rw [AppliedLine.note, if_neg (conditionError_ne_unexpected _ _)]
    rw [AgreesWith, hopen] at hstate
    obtain ⟨innermost, rest, hgroup, houter, rfl⟩ := List.forall₂_cons_left_iff.mp hstate
    refine .cons (hgroup.cons helse false helse ?_ ?_) houter
    · simp +contextual [BranchGroup.elif]
    · simp +contextual [BranchGroup.elif]
  | @otherwise group outer hopen helse =>
    rw [AppliedLine.note, if_neg (by simp)]
    rw [AgreesWith, hopen] at hstate
    obtain ⟨innermost, rest, hgroup, houter, rfl⟩ := List.forall₂_cons_left_iff.mp hstate
    refine .cons (hgroup.cons helse true rfl ?_ ?_) houter
    · simp [BranchGroup.otherwise]
    · simp [BranchGroup.otherwise]
  | @closed group outer hopen =>
    rw [AppliedLine.note, if_neg (by simp)]
    rw [AgreesWith, hopen] at hstate
    obtain ⟨innermost, rest, hgroup, houter, rfl⟩ := List.forall₂_cons_left_iff.mp hstate
    exact houter
  | unexpected =>
    rw [AppliedLine.note, if_pos rfl]
    exact hstate
  | symbols defined hdirective =>
    rcases hdirective with rfl | rfl <;> exact hstate
  | ignored hconditional herror =>
    have hnote : error ≠ some (.unexpected directive) := by
      rcases herror with rfl | rfl <;> simp
    rw [AppliedLine.note, if_neg hnote]
    cases directive <;> first | exact hstate | cases hconditional

/-- **The depth**: an `#if` opens a group, whatever its condition, and an `#endif` that finds one closes it. -/
theorem Step.length_groups (h : state.Step directive after error) :
    let a : AppliedLine := ⟨state, directive, after, error⟩
    after.groups.length + (if a.closes then 1 else 0) =
      state.groups.length + (if a.opens then 1 else 0) := by
  intro a
  cases h with
  | opened condition => rfl
  | elif condition hopen helse =>
    rw [hopen]
    rfl
  | otherwise hopen helse =>
    rw [hopen]
    rfl
  | closed hopen =>
    have hcloses : a.closes = true := by simp [a, AppliedLine.closes, inGroup, hopen]
    rw [hcloses, hopen]
    rfl
  | unexpected hdirective hgroup =>
    rcases hdirective with ⟨condition, rfl⟩ | rfl | rfl
    · rfl
    · rfl
    · have hcloses : a.closes = false := by
        cases hopen : state.groups with
        | nil => simp [a, AppliedLine.closes, inGroup, hopen]
        | cons group outer => exact absurd rfl (hgroup group (by simp [hopen])).1
      rw [hcloses]
      rfl
  | symbols defined hdirective => rcases hdirective with rfl | rfl <;> rfl
  | ignored hconditional => cases directive <;> first | rfl | cases hconditional

end Compilation

/-! ## Runs -/

/-- What a line does not change. -/
structure AppliedLine.Careful (a : AppliedLine) : Prop where
  /-- An unexpected directive changes nothing. -/
  unexpected : ∀ directive, a.error = some (.unexpected directive) → a.after = a.before
  /-- Neither does a `#define` or `#undef` with an error. -/
  symbolError : ∀ symbol, a.directive = .define symbol ∨ a.directive = .undef symbol →
    a.error ≠ none → a.after = a.before
  /-- Symbols change only with a `#define` or `#undef` that is compiled. -/
  symbols : a.after.symbols ≠ a.before.symbols →
    (∃ symbol, a.directive = .define symbol ∨ a.directive = .undef symbol) ∧
      a.before.isActive = true

theorem AppliedLine.careful_of_same {a : AppliedLine} (h : a.after = a.before) : a.Careful :=
  ⟨fun _ _ => h, fun _ _ _ => h, fun hsymbols => absurd (congrArg _ h) hsymbols⟩

/-- A conditional directive that is not unexpected need only leave the symbols as they are. -/
theorem AppliedLine.careful_of_conditional {a : AppliedLine}
    (hconditional : a.directive.isConditional = true)
    (herror : ∀ directive, a.error ≠ some (.unexpected directive))
    (hsymbols : a.after.symbols = a.before.symbols) : a.Careful := by
  refine ⟨fun directive h => absurd h (herror directive), ?_, fun h => absurd hsymbols h⟩
  rintro symbol (h | h) <;> rw [h] at hconditional <;> cases hconditional

namespace Compilation

variable {state after : Compilation} {directive : Directive} {error : Option DirectiveError}

theorem Step.careful (h : state.Step directive after error) :
    AppliedLine.Careful ⟨state, directive, after, error⟩ := by
  cases h with
  | opened => exact AppliedLine.careful_of_conditional rfl (conditionError_ne_unexpected _) rfl
  | elif => exact AppliedLine.careful_of_conditional rfl (conditionError_ne_unexpected _) rfl
  | otherwise => exact AppliedLine.careful_of_conditional rfl (by simp) rfl
  | closed => exact AppliedLine.careful_of_conditional rfl (by simp) rfl
  | unexpected => exact AppliedLine.careful_of_same rfl
  | symbols defined hdirective hactive =>
    exact ⟨by simp, fun _ _ h => absurd rfl h, fun _ => ⟨⟨_, hdirective⟩, hactive⟩⟩
  | ignored => exact AppliedLine.careful_of_same rfl

/-- Every line of a run is a step. -/
theorem step_of_mem_trace {lines : List Text} {a : AppliedLine} (ha : a ∈ state.trace lines) :
    a.before.Step a.directive a.after a.error := by
  induction lines generalizing state with
  | nil => cases ha
  | cons line rest ih =>
    rcases List.mem_cons.mp ha with rfl | ha
    · exact step_apply state (Directive.parse line)
    · exact ih ha

theorem trace_concat (state : Compilation) (lines : List Text) (line : Text) :
    state.trace (lines ++ [line]) =
      state.trace lines ++ [(state.afterLines lines).applied line] := by
  induction lines generalizing state with
  | nil => rfl
  | cons first rest ih =>
    rw [List.cons_append, trace, trace, ih, List.cons_append]
    rfl

theorem afterLines_concat (state : Compilation) (lines : List Text) (line : Text) :
    state.afterLines (lines ++ [line]) = ((state.afterLines lines).applyLine line).1 := by
  rw [afterLines, afterLines, List.foldl_append, List.foldl_cons, List.foldl_nil]

/-- What holds of the state that lines lead to from the start of a file, and of the lines on the way. -/
structure StaysConsistent (lines : List Text) : Prop where
  groups : (initial.afterLines lines).Consistent
  /-- The text is compiled exactly if the current branch of every open group is. -/
  isActive_iff : (initial.afterLines lines).isActive = true ↔
    ∀ group ∈ (initial.afterLines lines).groups, group.active = true
  /-- Every open group has at most one branch that is compiled, and none after its `#else`. -/
  branches : (initial.afterLines lines).AgreesWith (initial.openBranches lines)
  /-- There are as many open groups as `#if` lines less the `#endif` lines that found one. -/
  depth : (initial.afterLines lines).groups.length + (initial.trace lines).countP (·.closes) =
    (initial.trace lines).countP (·.opens)
  careful : ∀ a ∈ initial.trace lines, a.Careful

/-- **The state stays consistent**, whatever the lines are. -/
theorem stays_consistent (lines : List Text) : StaysConsistent lines := by
  -- Consistent groups, notes that agree with them, and the depth are carried from line to line.
  have hrun : (initial.afterLines lines).Consistent ∧
      (initial.afterLines lines).AgreesWith (initial.openBranches lines) ∧
      (initial.afterLines lines).groups.length + (initial.trace lines).countP (·.closes) =
        (initial.trace lines).countP (·.opens) := by
    induction lines using List.reverseRecOn with
    | nil => exact ⟨consistent_initial, .nil, rfl⟩
    | append_singleton lines line ih =>
      obtain ⟨hconsistent, hagrees, hdepth⟩ := ih
      have hstep := step_apply (initial.afterLines lines) (Directive.parse line)
      rw [afterLines_concat]
      refine ⟨hstep.consistent hconsistent, ?_, ?_⟩
      · rw [openBranches, trace_concat, List.foldl_append]
        exact hstep.agreesWith hagrees
      · have hlength : ((initial.afterLines lines).applyLine line).1.groups.length +
              (if ((initial.afterLines lines).applied line).closes then 1 else 0) =
            (initial.afterLines lines).groups.length +
              (if ((initial.afterLines lines).applied line).opens then 1 else 0) :=
          hstep.length_groups
        rw [trace_concat, List.countP_append, List.countP_append, List.countP_singleton,
          List.countP_singleton]
        omega
  obtain ⟨hconsistent, hagrees, hdepth⟩ := hrun
  exact ⟨hconsistent, hconsistent.isActive_iff, hagrees, hdepth,
    fun a ha => (step_of_mem_trace ha).careful⟩

/-- A group whose first condition is none: the second branch is compiled, and what comes after the `#else` is
none of the group's branches. -/
example :
    initial.openBranches ["#if (".toList, "#elif true".toList, "#else".toList, "#elif true".toList] =
      [[⟨true, false⟩, ⟨false, true⟩, ⟨false, false⟩]] := by
  decide +kernel

end Compilation

end Uncomment
