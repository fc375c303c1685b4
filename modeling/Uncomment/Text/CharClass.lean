import Uncomment.Text.Basic
import Uncomment.Text.Alphabetic
import Uncomment.Text.Numeric

/-!
# Character classes

The classes of characters the C# lexical grammar tells apart: line breaks, white space, and the
characters of identifiers. A line break is always white space; an identifier never holds either.
-/

namespace Uncomment

/-- A character that ends a line: carriage return, line feed, next line, or one of the two Unicode
separators. -/
def isLineBreak (c : Char) : Bool :=
  c == '\r' || c == '\n' || c == '\u0085' || c == '\u2028' || c == '\u2029'

/-- A character with the property White_Space. -/
def isBlank (c : Char) : Bool :=
  let n := c.toNat
  (0x09 ≤ n && n ≤ 0x0D) || n == 0x20 || n == 0x85 || n == 0xA0 || n == 0x1680 ||
    (0x2000 ≤ n && n ≤ 0x200A) || n == 0x2028 || n == 0x2029 || n == 0x202F || n == 0x205F ||
    n == 0x3000

/-- A character that can start an identifier. -/
def isIdentifierStart (c : Char) : Bool :=
  c == '_' || Alphabetic.contains c

/-- A character that can continue an identifier. -/
def isIdentifierPart (c : Char) : Bool :=
  c == '_' || Alphabetic.contains c || Numeric.contains c

/-- An ASCII hexadecimal digit of either case. -/
def isHexDigit (c : Char) : Bool :=
  c.isDigit || ('a' ≤ c && c ≤ 'f') || ('A' ≤ c && c ≤ 'F')

/-- The value of a hexadecimal digit. -/
def hexValue (c : Char) : Nat :=
  if c.isDigit then c.toNat - '0'.toNat else c.toLower.toNat - 'a'.toNat + 10

/-- Every line break is white space. -/
theorem isBlank_of_isLineBreak {c : Char} (h : isLineBreak c = true) : isBlank c = true := by
  simp only [isLineBreak, Bool.or_eq_true, beq_iff_eq] at h
  rcases h with (((rfl | rfl) | rfl) | rfl) | rfl <;> decide

/-- What can start an identifier can continue one. -/
theorem isIdentifierPart_of_isIdentifierStart {c : Char} (h : isIdentifierStart c = true) :
    isIdentifierPart c = true := by
  simp only [isIdentifierStart, isIdentifierPart, Bool.or_eq_true] at h ⊢
  exact Or.inl h

namespace Text

/-- The text without the white space it begins with. -/
def trimStart (t : Text) : Text :=
  t.dropWhile isBlank

/-- The text without the white space it ends with. -/
def trimEnd (t : Text) : Text :=
  (t.reverse.dropWhile isBlank).reverse

/-- The text without white space at either end. -/
def trim (t : Text) : Text :=
  trimEnd (trimStart t)

/-- The first line of the text in the sense of `isLineBreak`, without what ends it. -/
def currentLine (t : Text) : Text :=
  t.takeWhile fun c => !isLineBreak c

/-- What follows the first line, beginning with the line break if there is one. -/
def afterLine (t : Text) : Text :=
  t.dropWhile fun c => !isLineBreak c

@[simp] theorem currentLine_append_afterLine (t : Text) : currentLine t ++ afterLine t = t :=
  List.takeWhile_append_dropWhile

theorem length_afterLine_le (t : Text) : (afterLine t).length ≤ t.length :=
  (List.dropWhile_sublist _).length_le

end Text

end Uncomment
