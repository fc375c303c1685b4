import Uncomment.Text.Basic

/-!
# Offsets, spans and positions

Places in a text come in two forms. An **offset** counts bytes of UTF-8 from the start, and a span is
a pair of offsets; this is what the lexer produces. A **position** counts lines and characters inside
the line; this is what a reader of a message sees. Lines end at line feeds only.
-/

namespace Uncomment

/-- A stretch of text between two byte offsets. -/
structure Span where
  start : Nat
  stop : Nat
  deriving DecidableEq, Repr

/-- The text of a span, if both ends are character boundaries in order. -/
def Span.text? (span : Span) (t : Text) : Option Text :=
  t.slice? span.start span.stop

/-- Spans are ordered by where they start, then by where they end. -/
def Span.le (a b : Span) : Bool :=
  a.start < b.start || (a.start == b.start && a.stop ≤ b.stop)

/-- A line and a character inside it, both counted from 0. -/
structure Position where
  line : Nat
  column : Nat
  deriving DecidableEq, Repr

namespace Text

/-- The offset right after each line feed, for a text found at the given offset. -/
def lineStartsAfter (offset : Nat) : Text → List Nat
  | [] => []
  | c :: rest =>
    let next := offset + c.utf8Size
    if c = '\n' then next :: lineStartsAfter next rest else lineStartsAfter next rest

/-- The offset of the start of each line. -/
def lineStarts (t : Text) : List Nat :=
  0 :: lineStartsAfter 0 t

/-- The number of the line an offset is in: of the lines that start at it or before, the last. -/
def lineAt (t : Text) (offset : Nat) : Nat :=
  (t.lineStarts.takeWhile (· ≤ offset)).length - 1

/-- The offset of the start of a line, 0 for a line the text does not have. -/
def lineStart (t : Text) (line : Nat) : Nat :=
  t.lineStarts.getD line 0

/-- The position of an offset, if it is a character boundary of the text. -/
def position? (t : Text) (offset : Nat) : Option Position := do
  let line := t.lineAt offset
  let before ← t.slice? (t.lineStart line) offset
  return { line, column := before.length }

end Text

end Uncomment
