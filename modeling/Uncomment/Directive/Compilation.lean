import Uncomment.Directive.Basic
import Uncomment.Directive.Condition

/-!
# Conditional compilation

Which lines of a file are compiled, decided directive by directive. No symbol is defined from
outside: only `#define` and `#undef` lines that are themselves compiled define symbols.

The state is flat: the symbols, and one record per open `#if`, the innermost first. **The text is
compiled when the innermost group's current branch is**, because a group opened in text that is not
compiled counts as taken from the start, so none of its branches is ever active.
-/

namespace Uncomment

/-- One open `#if` … `#endif` group. -/
structure BranchGroup where
  /-- The current branch is compiled. -/
  active : Bool
  /-- A branch of the group was compiled already, or the group is inside text that is not. -/
  taken : Bool
  /-- The `#else` of the group was seen. -/
  elseSeen : Bool
  deriving DecidableEq, Repr

namespace BranchGroup

/-- The group an `#if` opens. -/
def opened (parentActive : Bool) (value : Option Bool) : BranchGroup :=
  let active := parentActive && value == some true
  { active, taken := active || !parentActive, elseSeen := false }

/-- The group after an `#elif`. -/
def elif (group : BranchGroup) (value : Option Bool) : BranchGroup :=
  let active := !group.taken && value == some true
  { group with active, taken := group.taken || active }

/-- The group after an `#else`. -/
def otherwise (group : BranchGroup) : BranchGroup :=
  { group with active := !group.taken, taken := true, elseSeen := true }

end BranchGroup

/-- What is wrong with a directive. -/
inductive DirectiveError where
  /-- `#elif`, `#else` or `#endif` without an open group, or after the `#else` of its group. -/
  | unexpected (directive : Directive)
  /-- The argument is not a condition, or not a symbol. -/
  | invalidExpression
  deriving DecidableEq, Repr

/-- The symbols that are defined and the groups that are open. -/
structure Compilation where
  symbols : List Text
  groups : List BranchGroup
  deriving DecidableEq, Repr

namespace Compilation

/-- The state at the start of a file. -/
def initial : Compilation := { symbols := [], groups := [] }

/-- Whether the text at this point is compiled. -/
def isActive (state : Compilation) : Bool :=
  match state.groups with
  | [] => true
  | group :: _ => group.active

/-- Whether an `#if` waits for its `#endif`. -/
def inGroup (state : Compilation) : Bool :=
  !state.groups.isEmpty

/-- Whether the text is a name that `#define` accepts. -/
def isSymbol (t : Text) : Bool :=
  !t.isEmpty && t.all isIdentifierPart && t != "true".toList && t != "false".toList

/-- The value of a condition, if it is one. -/
def evaluate? (state : Compilation) (condition : Text) : Option Bool :=
  (Condition.parse? condition).map (Condition.eval state.symbols)

/-- The error of a directive whose condition could not be evaluated. -/
def conditionError (value : Option Bool) : Option DirectiveError :=
  if value.isNone then some .invalidExpression else none

/-- Applies a directive. The state stays usable when there is an error. -/
def apply (state : Compilation) (directive : Directive) : Compilation × Option DirectiveError :=
  match directive with
  | .ifBranch condition =>
    let value := state.evaluate? condition
    ({ state with groups := .opened state.isActive value :: state.groups }, conditionError value)
  | .elifBranch condition =>
    match state.groups with
    | [] => (state, some (.unexpected directive))
    | group :: outer =>
      if group.elseSeen then (state, some (.unexpected directive))
      else
        let value := state.evaluate? condition
        ({ state with groups := group.elif value :: outer }, conditionError value)
  | .elseBranch =>
    match state.groups with
    | [] => (state, some (.unexpected directive))
    | group :: outer =>
      if group.elseSeen then (state, some (.unexpected directive))
      else ({ state with groups := group.otherwise :: outer }, none)
  | .endif =>
    match state.groups with
    | [] => (state, some (.unexpected directive))
    | _ :: outer => ({ state with groups := outer }, none)
  | .define symbol =>
    if !isSymbol symbol then (state, some .invalidExpression)
    else if state.isActive then ({ state with symbols := state.symbols.insert symbol }, none)
    else (state, none)
  | .undef symbol =>
    if !isSymbol symbol then (state, some .invalidExpression)
    else if state.isActive then
      ({ state with symbols := state.symbols.filter (· != symbol) }, none)
    else (state, none)
  | .other => (state, none)

/-- Applies a directive line. -/
def applyLine (state : Compilation) (line : Text) : Compilation × Option DirectiveError :=
  state.apply (Directive.parse line)

end Compilation

end Uncomment
