import Mathlib.Data.Finset.Basic
import Uncomment.Directive.Compilation

/-!
# Nested groups

What is compiled is decided line by line, from a flat state with two marks per open group. What it means
is said on the **tree** of a program: lines and groups one after the other, a group being branches, each
with a program of its own. Whether a branch is compiled depends on the text around the group, on the
branches before it and on the symbols at its line (`branchIsCompiled`); whatever is defined in text that is
not compiled counts for nothing.

The flat state implements the tree. In front of a later branch of a group, all that the group's record
holds of what came before is one mark: the group counts as taken if and only if the text around it is not
compiled or an earlier branch was (`LaterBranches.accepted`). Everything else is the state around the
group, which is there again after the group.
-/

namespace Uncomment

/-! ## Programs -/

/-- Whether a condition is true where the given symbols are defined. -/
def Condition.Holds (defined : Finset Text) : Condition → Prop
  | constant value => value = true
  | symbol name => name ∈ defined
  | negation operand => ¬operand.Holds defined
  | binary .or left right => left.Holds defined ∨ right.Holds defined
  | binary .and left right => left.Holds defined ∧ right.Holds defined
  | binary .equal left right => (left.Holds defined ↔ right.Holds defined)
  | binary .notEqual left right => ¬(left.Holds defined ↔ right.Holds defined)

/-- Conditions can be decided, operand by operand. -/
def Condition.decideHolds (defined : Finset Text) : (c : Condition) → Decidable (c.Holds defined)
  | constant value => inferInstanceAs (Decidable (value = true))
  | symbol name => inferInstanceAs (Decidable (name ∈ defined))
  | negation operand =>
    have := operand.decideHolds defined
    inferInstanceAs (Decidable (¬operand.Holds defined))
  | binary .or left right =>
    have := left.decideHolds defined
    have := right.decideHolds defined
    inferInstanceAs (Decidable (left.Holds defined ∨ right.Holds defined))
  | binary .and left right =>
    have := left.decideHolds defined
    have := right.decideHolds defined
    inferInstanceAs (Decidable (left.Holds defined ∧ right.Holds defined))
  | binary .equal left right =>
    have := left.decideHolds defined
    have := right.decideHolds defined
    inferInstanceAs (Decidable (left.Holds defined ↔ right.Holds defined))
  | binary .notEqual left right =>
    have := left.decideHolds defined
    have := right.decideHolds defined
    inferInstanceAs (Decidable (¬(left.Holds defined ↔ right.Holds defined)))

instance (defined : Finset Text) (c : Condition) : Decidable (c.Holds defined) :=
  c.decideHolds defined

/-- A line with a directive that takes no argument, or whose argument does not matter. -/
structure DirectiveLine (directive : Directive) where
  line : Text
  reads : Directive.parse line = directive

/-- A line with a directive that takes a condition, and the condition it is given. -/
structure ConditionLine (directive : Text → Directive) where
  line : Text
  argument : Text
  condition : Condition
  reads : Directive.parse line = directive argument
  isCondition : Condition.parse? argument = some condition

/-- A line with a directive that takes a symbol, and the symbol it is given. -/
structure SymbolLine (directive : Text → Directive) where
  line : Text
  symbol : Text
  reads : Directive.parse line = directive symbol
  isSymbol : Compilation.isSymbol symbol = true

mutual

/-- Lines and groups, one after the other. -/
inductive DirectiveProgram where
  | done
  | define (line : SymbolLine .define) (rest : DirectiveProgram)
  | undef (line : SymbolLine .undef) (rest : DirectiveProgram)
  | other (line : DirectiveLine .other) (rest : DirectiveProgram)
  | group (line : ConditionLine .ifBranch) (body : DirectiveProgram) (later : LaterBranches)
      (rest : DirectiveProgram)

/-- What follows the first branch of a group: any number of `#elif`, an `#else` perhaps, and `#endif`. -/
inductive LaterBranches where
  | endif (line : DirectiveLine .endif)
  | otherwise (line : DirectiveLine .elseBranch) (body : DirectiveProgram)
      (last : DirectiveLine .endif)
  | elif (line : ConditionLine .elifBranch) (body : DirectiveProgram) (later : LaterBranches)

end

mutual

/-- The lines of a program. -/
def DirectiveProgram.lines : DirectiveProgram → List Text
  | .done => []
  | .define line rest => line.line :: rest.lines
  | .undef line rest => line.line :: rest.lines
  | .other line rest => line.line :: rest.lines
  | .group line body later rest => line.line :: (body.lines ++ (later.lines ++ rest.lines))

/-- The lines of later branches. -/
def LaterBranches.lines : LaterBranches → List Text
  | .endif line => [line.line]
  | .otherwise line body last => line.line :: (body.lines ++ [last.line])
  | .elif line body later => line.line :: (body.lines ++ later.lines)

end

/-! ## What a program means -/

/-- Whether a branch is compiled: the text around its group is, no earlier branch of the group is, and it
is an `#else` or its condition is true. -/
def branchIsCompiled (enclosing earlier : Bool) (condition : Option Condition)
    (defined : Finset Text) : Bool :=
  decide (enclosing = true ∧ earlier = false ∧ ∀ c ∈ condition, c.Holds defined)

mutual

/-- The symbols that are defined after a program. Only what is compiled counts. -/
def DirectiveProgram.definedAfter (compiled : Bool) (defined : Finset Text) :
    DirectiveProgram → Finset Text
  | .done => defined
  | .define line rest =>
    rest.definedAfter compiled (if compiled then insert line.symbol defined else defined)
  | .undef line rest =>
    rest.definedAfter compiled (if compiled then defined.erase line.symbol else defined)
  | .other _ rest => rest.definedAfter compiled defined
  | .group line body later rest =>
    let branch := branchIsCompiled compiled false (some line.condition) defined
    rest.definedAfter compiled
      (later.definedAfter compiled branch (body.definedAfter branch defined))

/-- The symbols that are defined after later branches; `earlier` tells that a branch before them is
compiled. -/
def LaterBranches.definedAfter (enclosing earlier : Bool) (defined : Finset Text) :
    LaterBranches → Finset Text
  | .endif _ => defined
  | .otherwise _ body _ =>
    body.definedAfter (branchIsCompiled enclosing earlier none defined) defined
  | .elif line body later =>
    let branch := branchIsCompiled enclosing earlier (some line.condition) defined
    later.definedAfter enclosing (earlier || branch) (body.definedAfter branch defined)

end

mutual

/-- Whether the text after each line of a program is compiled. -/
def DirectiveProgram.activity (compiled : Bool) (defined : Finset Text) :
    DirectiveProgram → List Bool
  | .done => []
  | .define line rest =>
    compiled :: rest.activity compiled (if compiled then insert line.symbol defined else defined)
  | .undef line rest =>
    compiled :: rest.activity compiled (if compiled then defined.erase line.symbol else defined)
  | .other _ rest => compiled :: rest.activity compiled defined
  | .group line body later rest =>
    let branch := branchIsCompiled compiled false (some line.condition) defined
    let afterBody := body.definedAfter branch defined
    branch :: (body.activity branch defined ++ (later.activity compiled branch afterBody ++
      rest.activity compiled (later.definedAfter compiled branch afterBody)))

/-- Whether the text after each line of later branches is compiled. -/
def LaterBranches.activity (enclosing earlier : Bool) (defined : Finset Text) :
    LaterBranches → List Bool
  | .endif _ => [enclosing]
  | .otherwise _ body _ =>
    let branch := branchIsCompiled enclosing earlier none defined
    branch :: (body.activity branch defined ++ [enclosing])
  | .elif line body later =>
    let branch := branchIsCompiled enclosing earlier (some line.condition) defined
    branch :: (body.activity branch defined ++
      later.activity enclosing (earlier || branch) (body.definedAfter branch defined))

end

/-! ## Applying lines -/

namespace Compilation

/-- The state after each line, with what is wrong with the line. -/
def steps (state : Compilation) : List Text → List (Compilation × Option DirectiveError)
  | [] => []
  | line :: rest => state.applyLine line :: steps (state.applyLine line).1 rest

/-- The state after lines. -/
def afterLines (state : Compilation) (lines : List Text) : Compilation :=
  lines.foldl (fun state line => (state.applyLine line).1) state

/-- Lines are applied without an error; what is compiled after each of them, and the state at the end. -/
structure Accepts (state : Compilation) (lines : List Text) (activity : List Bool)
    (after : Compilation) : Prop where
  noError : (state.steps lines).map (·.2) = lines.map fun _ => none
  isActive : (state.steps lines).map (·.1.isActive) = activity
  after : state.afterLines lines = after

variable {state next middle after : Compilation} {lines more : List Text} {activity later : List Bool}

theorem Accepts.nil (state : Compilation) : state.Accepts [] [] state :=
  ⟨rfl, rfl, rfl⟩

theorem Accepts.cons {line : Text} (hline : state.applyLine line = (next, none))
    (h : next.Accepts lines activity after) :
    state.Accepts (line :: lines) (next.isActive :: activity) after := by
  refine ⟨?_, ?_, ?_⟩
  · rw [steps, hline, List.map_cons, List.map_cons, h.noError]
  · rw [steps, hline, List.map_cons, h.isActive]
  · rw [afterLines, List.foldl_cons, hline]
    exact h.after

theorem steps_append (state : Compilation) (lines more : List Text) :
    state.steps (lines ++ more) = state.steps lines ++ (state.afterLines lines).steps more := by
  induction lines generalizing state with
  | nil => rfl
  | cons line rest ih =>
    rw [List.cons_append, steps, steps, ih, List.cons_append]
    rfl

theorem Accepts.append (h : state.Accepts lines activity middle)
    (h' : middle.Accepts more later after) :
    state.Accepts (lines ++ more) (activity ++ later) after := by
  refine ⟨?_, ?_, ?_⟩
  · rw [steps_append, h.after, List.map_append, List.map_append, h.noError, h'.noError]
  · rw [steps_append, h.after, List.map_append, h.isActive, h'.isActive]
  · rw [afterLines, List.foldl_append]
    show (state.afterLines lines).afterLines more = after
    rw [h.after, h'.after]

end Compilation

/-! ## One line -/

theorem Condition.eval_eq_true_iff (symbols : List Text) (c : Condition) :
    c.eval symbols = true ↔ c.Holds symbols.toFinset := by
  induction c with
  | constant value => rfl
  | symbol name => simp [eval, Holds]
  | negation operand ih => simp [eval, Holds, ← ih]
  | binary operator left right ihl ihr =>
    cases operator with
    | or | and => simp [eval, Holds, BinaryOperator.apply, ← ihl, ← ihr]
    | equal | notEqual =>
      simp only [eval, Holds, BinaryOperator.apply, ← ihl, ← ihr]
      cases left.eval symbols <;> cases right.eval symbols <;> simp

/-- The value of the condition on a line. -/
theorem ConditionLine.evaluate?_eq {directive : Text → Directive} (l : ConditionLine directive)
    (state : Compilation) :
    state.evaluate? l.argument = some (decide (l.condition.Holds state.symbols.toFinset)) := by
  rw [Compilation.evaluate?, l.isCondition, Option.map_some]
  congr 1
  rw [Bool.eq_iff_iff, Condition.eval_eq_true_iff, decide_eq_true_iff]

/-- What a group's record holds of what came before: its `#else` was not seen, and it counts as taken if
the text around it is not compiled or an earlier branch is. -/
structure BranchGroup.Records (group : BranchGroup) (enclosing earlier : Bool) : Prop where
  elseSeen : group.elseSeen = false
  taken : group.taken = (!enclosing || earlier)

namespace Compilation

variable (symbols : List Text) (groups : List BranchGroup)

theorem applyLine_other (l : DirectiveLine .other) (state : Compilation) :
    state.applyLine l.line = (state, none) := by
  rw [applyLine, l.reads]
  rfl

/-- A symbol is defined only in text that is compiled. -/
theorem applyLine_define (l : SymbolLine .define) :
    ∃ defined, applyLine ⟨symbols, groups⟩ l.line = (⟨defined, groups⟩, none) ∧
      defined.toFinset = if isActive ⟨symbols, groups⟩ then insert l.symbol symbols.toFinset
        else symbols.toFinset := by
  rw [applyLine, l.reads]
  simp only [apply, l.isSymbol, Bool.not_true, Bool.false_eq_true, if_false]
  split
  · refine ⟨symbols.insert l.symbol, rfl, ?_⟩
    ext name
    simp
  · exact ⟨symbols, rfl, rfl⟩

theorem applyLine_undef (l : SymbolLine .undef) :
    ∃ defined, applyLine ⟨symbols, groups⟩ l.line = (⟨defined, groups⟩, none) ∧
      defined.toFinset = if isActive ⟨symbols, groups⟩ then symbols.toFinset.erase l.symbol
        else symbols.toFinset := by
  rw [applyLine, l.reads]
  simp only [apply, l.isSymbol, Bool.not_true, Bool.false_eq_true, if_false]
  split
  · refine ⟨symbols.filter (· != l.symbol), rfl, ?_⟩
    ext name
    simp [and_comm]
  · exact ⟨symbols, rfl, rfl⟩

/-- An `#if` opens a group that records the branch. -/
theorem applyLine_if (l : ConditionLine .ifBranch) :
    ∃ group : BranchGroup,
      applyLine ⟨symbols, groups⟩ l.line = (⟨symbols, group :: groups⟩, none) ∧
      group.active = branchIsCompiled (isActive ⟨symbols, groups⟩) false (some l.condition)
        symbols.toFinset ∧
      group.Records (isActive ⟨symbols, groups⟩) (branchIsCompiled (isActive ⟨symbols, groups⟩)
        false (some l.condition) symbols.toFinset) := by
  rw [applyLine, l.reads]
  simp only [apply, l.evaluate?_eq]
  refine ⟨_, rfl, ?_, rfl, ?_⟩
  · simp [BranchGroup.opened, branchIsCompiled]
  · cases isActive ⟨symbols, groups⟩ <;> simp [BranchGroup.opened, branchIsCompiled]

variable {group : BranchGroup} {earlier : Bool}

/-- An `#elif` adds its branch to what the group records. -/
theorem applyLine_elif (l : ConditionLine .elifBranch)
    (h : group.Records (isActive ⟨symbols, groups⟩) earlier) :
    ∃ next : BranchGroup,
      applyLine ⟨symbols, group :: groups⟩ l.line = (⟨symbols, next :: groups⟩, none) ∧
      next.active = branchIsCompiled (isActive ⟨symbols, groups⟩) earlier (some l.condition)
        symbols.toFinset ∧
      next.Records (isActive ⟨symbols, groups⟩) (earlier || branchIsCompiled
        (isActive ⟨symbols, groups⟩) earlier (some l.condition) symbols.toFinset) := by
  rw [applyLine, l.reads]
  simp only [apply, h.elseSeen, l.evaluate?_eq, Bool.false_eq_true, if_false]
  have htaken := h.taken
  generalize isActive ⟨symbols, groups⟩ = enclosing at htaken ⊢
  refine ⟨_, rfl, ?_, h.elseSeen, ?_⟩
  · simp [BranchGroup.elif, branchIsCompiled, htaken, Bool.and_assoc]
  · cases enclosing <;> cases earlier <;> simp [BranchGroup.elif, branchIsCompiled, htaken]

theorem applyLine_else (l : DirectiveLine .elseBranch)
    (h : group.Records (isActive ⟨symbols, groups⟩) earlier) :
    applyLine ⟨symbols, group :: groups⟩ l.line = (⟨symbols, group.otherwise :: groups⟩, none) ∧
      group.otherwise.active =
        branchIsCompiled (isActive ⟨symbols, groups⟩) earlier none symbols.toFinset := by
  rw [applyLine, l.reads]
  refine ⟨by simp [apply, h.elseSeen], ?_⟩
  simp [BranchGroup.otherwise, branchIsCompiled, h.taken]

theorem applyLine_endif (group : BranchGroup) (l : DirectiveLine .endif) :
    applyLine ⟨symbols, group :: groups⟩ l.line = (⟨symbols, groups⟩, none) := by
  rw [applyLine, l.reads]
  rfl

end Compilation

/-! ## The flat state implements the tree -/

mutual

/-- **A program leaves the open groups as they are**, and what is compiled on the way is what the tree
says. -/
theorem DirectiveProgram.accepted (p : DirectiveProgram) (symbols : List Text)
    (groups : List BranchGroup) :
    ∃ defined : List Text,
      defined.toFinset =
        p.definedAfter (Compilation.isActive ⟨symbols, groups⟩) symbols.toFinset ∧
      Compilation.Accepts ⟨symbols, groups⟩ p.lines
        (p.activity (Compilation.isActive ⟨symbols, groups⟩) symbols.toFinset)
        ⟨defined, groups⟩ := by
  cases p with
  | done => exact ⟨symbols, rfl, .nil _⟩
  | define line rest =>
    obtain ⟨symbols', hline, hsymbols⟩ := Compilation.applyLine_define symbols groups line
    obtain ⟨defined, hdefined, hrest⟩ := rest.accepted symbols' groups
    rw [hsymbols] at hdefined hrest
    have haccepts := hrest.cons hline
    exact ⟨defined, hdefined, haccepts⟩
  | undef line rest =>
    obtain ⟨symbols', hline, hsymbols⟩ := Compilation.applyLine_undef symbols groups line
    obtain ⟨defined, hdefined, hrest⟩ := rest.accepted symbols' groups
    rw [hsymbols] at hdefined hrest
    have haccepts := hrest.cons hline
    exact ⟨defined, hdefined, haccepts⟩
  | other line rest =>
    obtain ⟨defined, hdefined, hrest⟩ := rest.accepted symbols groups
    exact ⟨defined, hdefined, hrest.cons (Compilation.applyLine_other line _)⟩
  | group line body later rest =>
    -- The first branch runs in front of the group's record, the later branches take it away again.
    obtain ⟨group, hline, hactive, hrecords⟩ := Compilation.applyLine_if symbols groups line
    obtain ⟨inBody, hinBody, hbody⟩ := body.accepted symbols (group :: groups)
    obtain ⟨inLater, hinLater, hlater⟩ := later.accepted inBody group groups _ hrecords
    obtain ⟨defined, hdefined, hrest⟩ := rest.accepted inLater groups
    have haccepts := ((hbody.append (hlater.append hrest)).cons hline)
    rw [show Compilation.isActive ⟨symbols, group :: groups⟩ = _ from hactive] at hinBody haccepts
    rw [hinBody] at hinLater haccepts
    rw [hinLater] at hdefined haccepts
    exact ⟨defined, hdefined, haccepts⟩

/-- **Later branches close their group**, and leave the groups around it as they are. -/
theorem LaterBranches.accepted (b : LaterBranches) (symbols : List Text) (group : BranchGroup)
    (groups : List BranchGroup) (earlier : Bool)
    (h : group.Records (Compilation.isActive ⟨symbols, groups⟩) earlier) :
    ∃ defined : List Text,
      defined.toFinset =
        b.definedAfter (Compilation.isActive ⟨symbols, groups⟩) earlier symbols.toFinset ∧
      Compilation.Accepts ⟨symbols, group :: groups⟩ b.lines
        (b.activity (Compilation.isActive ⟨symbols, groups⟩) earlier symbols.toFinset)
        ⟨defined, groups⟩ := by
  cases b with
  | endif line =>
    exact ⟨symbols, rfl, (Compilation.Accepts.nil _).cons (Compilation.applyLine_endif ..)⟩
  | otherwise line body last =>
    obtain ⟨hline, hactive⟩ := Compilation.applyLine_else symbols groups line h
    obtain ⟨inBody, hinBody, hbody⟩ := body.accepted symbols (group.otherwise :: groups)
    have hlast := (Compilation.Accepts.nil _).cons
      (Compilation.applyLine_endif inBody groups group.otherwise last)
    have haccepts := (hbody.append hlast).cons hline
    rw [show Compilation.isActive ⟨symbols, group.otherwise :: groups⟩ = _ from hactive]
      at hinBody haccepts
    exact ⟨inBody, hinBody, haccepts⟩
  | elif line body later =>
    obtain ⟨next, hline, hactive, hrecords⟩ := Compilation.applyLine_elif symbols groups line h
    obtain ⟨inBody, hinBody, hbody⟩ := body.accepted symbols (next :: groups)
    obtain ⟨defined, hdefined, hlater⟩ := later.accepted inBody next groups _ hrecords
    have haccepts := (hbody.append hlater).cons hline
    rw [show Compilation.isActive ⟨symbols, next :: groups⟩ = _ from hactive] at hinBody haccepts
    rw [hinBody] at hdefined haccepts
    exact ⟨defined, hdefined, haccepts⟩

end

/-- **The flat state implements nested groups.** For every program, applying its lines in order from the
start of a file gives no error at any line; after every line the text is compiled exactly if the tree says
so; at the end no group is open, and the symbols are those that the tree defines. -/
theorem nested_branches_are_implemented (p : DirectiveProgram) :
    (Compilation.initial.steps p.lines).map (·.2) = (p.lines.map fun _ => none) ∧
    (Compilation.initial.steps p.lines).map (·.1.isActive) = p.activity true ∅ ∧
    (Compilation.initial.afterLines p.lines).inGroup = false ∧
    (Compilation.initial.afterLines p.lines).symbols.toFinset = p.definedAfter true ∅ := by
  obtain ⟨defined, hdefined, haccepts⟩ := p.accepted [] []
  have hafter : Compilation.initial.afterLines p.lines = ⟨defined, []⟩ := haccepts.after
  refine ⟨haccepts.noError, haccepts.isActive, ?_, ?_⟩
  · rw [hafter]
    rfl
  · rw [hafter]
    exact hdefined

/-- A group in a branch: the symbol that the branch defines decides the group inside it. -/
example :
    let inner := DirectiveProgram.group
      ⟨"#if !A || B".toList, "!A || B".toList,
        .binary .or (.negation (.symbol ['A'])) (.symbol ['B']), by decide +kernel, by decide +kernel⟩
      .done (.endif ⟨"#endif".toList, by decide +kernel⟩) .done
    (DirectiveProgram.group
      ⟨"#if A".toList, ['A'], .symbol ['A'], by decide +kernel, by decide +kernel⟩
      (.define ⟨"#define B".toList, ['B'], by decide +kernel, by decide +kernel⟩ .done)
      (.elif ⟨"# elif true // t".toList, "true".toList, .constant true, by decide +kernel,
          by decide +kernel⟩
        (.define ⟨"#define A".toList, ['A'], by decide +kernel, by decide +kernel⟩ inner)
        (.otherwise ⟨"#else".toList, by decide +kernel⟩ .done
          ⟨"#endif".toList, by decide +kernel⟩))
      .done).activity true ∅ = [false, false, true, true, false, true, false, true] := by
  decide

end Uncomment
