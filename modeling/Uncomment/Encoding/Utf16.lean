import Uncomment.Encoding.Utf8

/-!
# UTF-16

Texts as lists of 16 bit units, and units as pairs of bytes in either order. A character beyond
U+FFFF is a **surrogate pair**; a unit that is half of a pair without the other half belongs to no
text.
-/

namespace Uncomment.Utf16

/-- The first half of a surrogate pair. -/
def isHigh (unit : UInt16) : Bool :=
  0xD800 ≤ unit.toNat && unit.toNat < 0xDC00

/-- The second half of a surrogate pair. -/
def isLow (unit : UInt16) : Bool :=
  0xDC00 ≤ unit.toNat && unit.toNat < 0xE000

/-- The units of a character. -/
def encodeChar (c : Char) : List UInt16 :=
  let n := c.toNat
  if n < 0x10000 then [n.toUInt16]
  else [(0xD800 + (n - 0x10000) / 0x400).toUInt16, (0xDC00 + (n - 0x10000) % 0x400).toUInt16]

/-- The units of a text. -/
def encode (t : Text) : List UInt16 :=
  t.flatMap encodeChar

/-- The character of a surrogate pair. -/
def joinPair (high low : UInt16) : Char :=
  Char.ofNat (0x10000 + (high.toNat - 0xD800) * 0x400 + (low.toNat - 0xDC00))

/-- Reads all units of a text. Fails with the first half pair. -/
def decode : List UInt16 → Except UInt16 Text
  | [] => .ok []
  | unit :: rest =>
    if isHigh unit then
      match rest with
      | [] => .error unit
      | low :: rest =>
        if isLow low then
          match decode rest with
          | .error bad => .error bad
          | .ok t => .ok (joinPair unit low :: t)
        else .error unit
    else if isLow unit then .error unit
    else
      match decode rest with
      | .error bad => .error bad
      | .ok t => .ok (Char.ofNat unit.toNat :: t)

/-- Which byte of a unit comes first. -/
inductive ByteOrder where
  | littleEndian
  | bigEndian
  deriving DecidableEq, Repr

namespace ByteOrder

/-- The two bytes of a unit. -/
def split (order : ByteOrder) (unit : UInt16) : Bytes :=
  let high := (unit.toNat / 0x100).toUInt8
  let low := (unit.toNat % 0x100).toUInt8
  match order with
  | littleEndian => [low, high]
  | bigEndian => [high, low]

/-- The unit of two bytes. -/
def combine (order : ByteOrder) (first second : UInt8) : UInt16 :=
  match order with
  | littleEndian => (second.toNat * 0x100 + first.toNat).toUInt16
  | bigEndian => (first.toNat * 0x100 + second.toNat).toUInt16

/-- The units of a list of bytes, if their number is even. -/
def units? (order : ByteOrder) : Bytes → Option (List UInt16)
  | [] => some []
  | [_] => none
  | first :: second :: rest => (units? order rest).map (order.combine first second :: ·)

end ByteOrder

end Uncomment.Utf16
