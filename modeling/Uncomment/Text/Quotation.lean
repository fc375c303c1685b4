import Uncomment.Text.Basic
import Uncomment.Text.Unprintable

/-!
# Quoted characters and texts

Two ways to show a character that may not be printable as it is. A **plain** quotation keeps
printable ASCII only and is used for a single character in a diagnostic. A **readable** quotation
keeps every printable character and is used for a stretch of text in the log; there a character that
extends the one before it is escaped only at the beginning, where it would join the quotation mark.
-/

namespace Uncomment.Quotation

/-- The escape `\u{...}` with lower case digits and no leading zeros. -/
def codePoint (c : Char) : Text :=
  ['\\', 'u', '\x7b'] ++ Nat.toDigits 16 c.toNat ++ ['\x7d']

/-- The escape made of a backslash and one letter or mark, for the characters that have one. -/
def short? (c : Char) : Option Text :=
  if c = '\t' then some ['\\', 't']
  else if c = '\r' then some ['\\', 'r']
  else if c = '\n' then some ['\\', 'n']
  else if c = '\'' || c = '"' || c = '\\' then some ['\\', c]
  else none

/-- A character in a plain quotation: printable ASCII as it is, everything else escaped. -/
def plainChar (c : Char) : Text :=
  match short? c with
  | some escape => escape
  | none => if 0x20 ≤ c.toNat && c.toNat ≤ 0x7E then [c] else codePoint c

/-- A character in a readable quotation, at its beginning or after it. -/
def readableChar (atStart : Bool) (c : Char) : Text :=
  if c = '\x00' then ['\\', '0']
  else
    match short? c with
    | some escape => escape
    | none =>
      if (atStart && Unprintable.joinsPrevious c) || Unprintable.contains c then codePoint c else [c]

/-- A text in a readable quotation. -/
def readable : Text → Text
  | [] => []
  | c :: rest => readableChar true c ++ rest.flatMap (readableChar false)

end Uncomment.Quotation
