import Uncomment.Text.Basic

/-!
# Trivia

The text between the tokens of a C# file, cut into pieces of one kind each: white space, line breaks,
comments, directives, and the lines of conditional branches that are not compiled.
-/

namespace Uncomment

/-- What a piece of text between tokens is. -/
inductive TriviumKind where
  /-- White space without line breaks. -/
  | whitespace
  /-- One line break; a carriage return and the line feed after it are one. -/
  | newline
  /-- A comment from `//` to the end of its line. -/
  | lineComment
  /-- A comment from `/*` to `*/`. -/
  | blockComment
  /-- A documentation comment from `///` to the end of its line. -/
  | docLineComment
  /-- A documentation comment from `/**` to `*/`. -/
  | docBlockComment
  /-- A directive from `#` to the end of its line. -/
  | directive
  /-- Whole lines of a conditional branch that is not compiled. -/
  | disabledText
  deriving DecidableEq, Repr

namespace TriviumKind

/-- Whether the kind is one of the four kinds of comments. -/
def isComment : TriviumKind → Bool
  | lineComment | blockComment | docLineComment | docBlockComment => true
  | whitespace | newline | directive | disabledText => false

/-- All kinds. -/
def all : List TriviumKind :=
  [whitespace, newline, lineComment, blockComment, docLineComment, docBlockComment, directive,
   disabledText]

theorem mem_all (kind : TriviumKind) : kind ∈ all := by
  cases kind <;> decide

end TriviumKind

/-- A piece of text between tokens. -/
structure Trivium where
  kind : TriviumKind
  text : Text
  deriving DecidableEq, Repr

/-- The pieces on one side of a token, in order. -/
abbrev Trivia := List Trivium

/-- The text of all the pieces. -/
def Trivia.text (trivia : Trivia) : Text :=
  trivia.flatMap Trivium.text

@[simp] theorem Trivia.text_nil : Trivia.text [] = [] := rfl

@[simp] theorem Trivia.text_cons (t : Trivium) (ts : Trivia) :
    Trivia.text (t :: ts) = t.text ++ Trivia.text ts := rfl

@[simp] theorem Trivia.text_append (a b : Trivia) :
    Trivia.text (a ++ b) = Trivia.text a ++ Trivia.text b := by
  simp [Trivia.text]

end Uncomment
