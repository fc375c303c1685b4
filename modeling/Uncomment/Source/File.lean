import Uncomment.Source.Terminal

/-!
# Source files

The terminals of a whole file. The last one is always the end of the file, which holds the trivia at
the end of the file as its leading trivia; this is a field of the type, so a file cannot be built
without it.
-/

namespace Uncomment

/-- The terminals of a file in order, ending with the end of the file. -/
structure SourceFile where
  terminals : List Terminal
  ends : terminals.getLast?.any Terminal.isEnd = true
  deriving DecidableEq

namespace SourceFile

/-- Why a list of terminals is not a file. -/
inductive Malformed where
  /-- The last terminal is not the end of the file. -/
  | endMissing
  deriving DecidableEq, Repr

/-- The wording of the reason. -/
def Malformed.message : Malformed → String
  | endMissing => "A syntax file must end with an end of file terminal."

/-- The file made of the terminals, if the last one is the end of the file. -/
def ofTerminals (terminals : List Terminal) : Except Malformed SourceFile :=
  if ends : terminals.getLast?.any Terminal.isEnd = true then .ok { terminals, ends }
  else .error .endMissing

/-- The text of the file. -/
def text (file : SourceFile) : Text :=
  textOf file.terminals

/-- All trivia of the file, in order. -/
def trivia (file : SourceFile) : Trivia :=
  file.terminals.flatMap Terminal.trivia

/-- The number of trivia of a kind. -/
def count (file : SourceFile) (kind : TriviumKind) : Nat :=
  file.trivia.countP (·.kind == kind)

/-- The number of comments of any kind. -/
def commentCount (file : SourceFile) : Nat :=
  file.trivia.countP (·.kind.isComment)

/-- Each terminal with the one after it. -/
def withNext : List Terminal → List (Terminal × Option Terminal)
  | [] => []
  | t :: rest => (t, rest.head?) :: withNext rest

end SourceFile

end Uncomment
