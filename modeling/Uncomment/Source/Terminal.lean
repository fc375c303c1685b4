import Uncomment.Source.Trivia
import Uncomment.Text.Position

/-!
# Terminals

A terminal is a token together with the trivia around it. The trivia on a token's own line after it,
up to and including the line break, **trail** it; everything else between two tokens **leads** the
second one. So the texts of the terminals, one after the other, are the text of the file.
-/

namespace Uncomment

/-- What a token is. -/
inductive TokenKind where
  | identifier
  | keyword
  | numericLiteral
  | characterLiteral
  | stringLiteral
  | interpolatedString
  | punctuation
  /-- A character that starts no token. -/
  | badCharacter
  /-- The end of the file, a token without text. -/
  | endOfFile
  deriving DecidableEq, Repr

/-- A token with the trivia before and after it. -/
structure Terminal where
  kind : TokenKind
  text : Text
  leading : Trivia
  trailing : Trivia
  deriving DecidableEq, Repr

namespace Terminal

/-- Whether the terminal is the end of the file. -/
def isEnd (t : Terminal) : Bool :=
  t.kind == .endOfFile

/-- The leading trivia, the token and the trailing trivia as one text. -/
def fullText (t : Terminal) : Text :=
  Trivia.text t.leading ++ t.text ++ Trivia.text t.trailing

/-- All trivia of the terminal, in order. -/
def trivia (t : Terminal) : Trivia :=
  t.leading ++ t.trailing

end Terminal

/-- The text of terminals one after the other. -/
def textOf (terminals : List Terminal) : Text :=
  terminals.flatMap Terminal.fullText

@[simp] theorem textOf_nil : textOf [] = [] := rfl

@[simp] theorem textOf_cons (t : Terminal) (ts : List Terminal) :
    textOf (t :: ts) = t.fullText ++ textOf ts := rfl

/-- The terminals with the span of each one's token, the first terminal starting at an offset. -/
def tokenSpans (offset : Nat) : List Terminal → List (Terminal × Span)
  | [] => []
  | t :: rest =>
    let start := offset + (Trivia.text t.leading).width
    let stop := start + t.text.width
    (t, ⟨start, stop⟩) :: tokenSpans (stop + (Trivia.text t.trailing).width) rest

end Uncomment
