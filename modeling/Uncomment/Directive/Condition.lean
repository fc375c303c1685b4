import Uncomment.Text.CharClass

/-!
# Conditions of conditional compilation

The expressions after `#if` and `#elif`: the constants `true` and `false`, symbols, `!`, `==`, `!=`,
`&&`, `||` and parentheses. A condition is read in two steps, into tokens and into a tree, and the
tree is evaluated under the symbols that are defined.

## Reading the tree

The tokens are read one by one with a stack of what is **pending**: negations, open parentheses, and
operators that have their left side. A complete operand first takes the negations right before it;
the next operator then decides how many pending ones bind tighter and are combined. All binary
operators associate to the left, `==` and `!=` bind tightest and `||` binds least.

## Termination

`tokenize` recurses on what is left of the text after a token, which is shorter; every other function
recurses on its list.
-/

namespace Uncomment

/-- The binary operators of conditions. -/
inductive BinaryOperator where
  | or
  | and
  | equal
  | notEqual
  deriving DecidableEq, Repr

namespace BinaryOperator

/-- How tight the operator binds. -/
def precedence : BinaryOperator → Nat
  | or => 1
  | and => 2
  | equal | notEqual => 3

/-- The value of the operator. -/
def apply : BinaryOperator → Bool → Bool → Bool
  | or, a, b => a || b
  | and, a, b => a && b
  | equal, a, b => a == b
  | notEqual, a, b => a != b

end BinaryOperator

/-- A condition. -/
inductive Condition where
  | constant (value : Bool)
  | symbol (name : Text)
  | negation (operand : Condition)
  | binary (operator : BinaryOperator) (left right : Condition)
  deriving DecidableEq, Repr

namespace Condition

/-- The value of the condition under the symbols that are defined. -/
def eval (symbols : List Text) : Condition → Bool
  | constant value => value
  | symbol name => symbols.contains name
  | negation operand => !eval symbols operand
  | binary operator left right => operator.apply (eval symbols left) (eval symbols right)

/-- A name in a condition: `true` and `false` are constants, every other name is a symbol. -/
def ofName (name : Text) : Condition :=
  if name = "true".toList then constant true
  else if name = "false".toList then constant false
  else symbol name

/-! ## Tokens -/

/-- A token of a condition. -/
inductive Token where
  | name (text : Text)
  | not
  | openParen
  | closeParen
  | binary (operator : BinaryOperator)
  deriving DecidableEq, Repr

/-- The operator or parenthesis the text begins with, and what follows it. -/
def operator? : Text → Option (Token × Text)
  | '&' :: '&' :: rest => some (.binary .and, rest)
  | '|' :: '|' :: rest => some (.binary .or, rest)
  | '=' :: '=' :: rest => some (.binary .equal, rest)
  | '!' :: '=' :: rest => some (.binary .notEqual, rest)
  | '!' :: rest => some (.not, rest)
  | '(' :: rest => some (.openParen, rest)
  | ')' :: rest => some (.closeParen, rest)
  | _ => none

theorem length_of_operator? {t rest : Text} {token : Token} (h : operator? t = some (token, rest)) :
    rest.length < t.length := by
  unfold operator? at h
  split at h <;> simp at h <;> obtain ⟨_, rfl⟩ := h <;> simp only [List.length_cons] <;> omega

/-- A nonempty run of characters at the front makes what follows it shorter. -/
theorem length_dropWhile_lt {p : Char → Bool} {t : Text} (h : ¬(t.takeWhile p).isEmpty = true) :
    (t.dropWhile p).length < t.length := by
  have hlen := congrArg List.length (List.takeWhile_append_dropWhile (p := p) (l := t))
  have hpos : 0 < (t.takeWhile p).length := by
    rw [List.length_pos_iff]
    intro hnil
    simp [hnil] at h
  rw [List.length_append] at hlen
  omega

/-- The tokens of a condition, with any white space between them. A character that is neither part
of an operator nor of a name makes the whole text unreadable. -/
def tokenize (t : Text) : Option (List Token) :=
  match t with
  | [] => some []
  | c :: rest =>
    if isBlank c then tokenize rest
    else
      match _h : operator? (c :: rest) with
      | some (token, after) => (tokenize after).map (token :: ·)
      | none =>
        let name := (c :: rest).takeWhile isIdentifierPart
        if _h : name.isEmpty then none
        else (tokenize ((c :: rest).dropWhile isIdentifierPart)).map (.name name :: ·)
termination_by t.length
decreasing_by
  · simp
  · exact length_of_operator? ‹_›
  · exact length_dropWhile_lt ‹_›

/-! ## Trees -/

/-- What waits for the operand being read. -/
inductive Pending where
  | negation
  | group
  | operand (left : Condition) (operator : BinaryOperator)
  deriving DecidableEq, Repr

/-- An operand takes the negations right before it. -/
def negated (operand : Condition) : List Pending → Condition × List Pending
  | .negation :: stack => negated (.negation operand) stack
  | stack => (operand, stack)

/-- A right side is combined with every pending left side whose operator binds at least as tight. -/
def combined (least : Nat) (right : Condition) : List Pending → Condition × List Pending
  | .operand left operator :: stack =>
    if least ≤ operator.precedence then combined least (.binary operator left right) stack
    else (right, .operand left operator :: stack)
  | stack => (right, stack)

/-- Reads tokens, with what is pending and the operand just read, if one was. -/
def parseFrom (stack : List Pending) : Option Condition → List Token → Option Condition
  | none, .not :: tokens => parseFrom (.negation :: stack) none tokens
  | none, .openParen :: tokens => parseFrom (.group :: stack) none tokens
  | none, .name text :: tokens =>
    let (operand, stack) := negated (ofName text) stack
    parseFrom stack (some operand) tokens
  | some right, .binary operator :: tokens =>
    let (left, stack) := combined operator.precedence right stack
    parseFrom (.operand left operator :: stack) none tokens
  | some right, .closeParen :: tokens =>
    match combined 0 right stack with
    | (inner, .group :: stack) =>
      let (operand, stack) := negated inner stack
      parseFrom stack (some operand) tokens
    | _ => none
  | some right, [] =>
    match combined 0 right stack with
    | (whole, []) => some whole
    | _ => none
  | _, _ => none

/-- The condition written as a text, if it is one. -/
def parse? (t : Text) : Option Condition :=
  match tokenize t with
  | some tokens => parseFrom [] none tokens
  | none => none

end Condition

end Uncomment
