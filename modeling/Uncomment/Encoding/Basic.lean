import Uncomment.Encoding.Utf16

/-!
# The encoding of a file

A source file is stored in one of four encodings, told apart by the **byte order mark** it begins
with. A file without a mark is UTF-8. The mark is not part of the text, and writing the text back
puts it in front again, so a file can be rewritten exactly as it was stored.
-/

namespace Uncomment

/-- How a file stores its text. -/
inductive Encoding where
  /-- UTF-8 without a byte order mark. -/
  | utf8
  /-- UTF-8 with a byte order mark. -/
  | utf8Marked
  /-- UTF-16, low byte first, with a byte order mark. -/
  | utf16le
  /-- UTF-16, high byte first, with a byte order mark. -/
  | utf16be
  deriving DecidableEq, Repr

/-- Why the content of a file is not a text. -/
inductive DecodeError where
  /-- The byte at this offset of the file does not belong to a complete character. -/
  | invalidUtf8 (offset : Nat)
  /-- A file of 16 bit units has an odd number of bytes. -/
  | oddLength
  /-- Half of a surrogate pair stands alone. -/
  | unpairedSurrogate (unit : UInt16)
  deriving DecidableEq, Repr

/-- The wording of a decoding error. -/
def DecodeError.message : DecodeError → String
  | invalidUtf8 offset => s!"Invalid utf-8 sequence at byte {offset}."
  | oddLength => "Odd number of bytes in an utf-16 file."
  | unpairedSurrogate unit =>
    "Unpaired utf-16 surrogate 0x" ++ String.ofList (Nat.toDigits 16 unit.toNat) ++ "."

namespace Encoding

/-- The byte order mark in front of the content. -/
def mark : Encoding → Bytes
  | utf8 => []
  | utf8Marked => [0xEF, 0xBB, 0xBF]
  | utf16le => [0xFF, 0xFE]
  | utf16be => [0xFE, 0xFF]

/-- The name of the encoding. -/
def name : Encoding → String
  | utf8 => "utf-8"
  | utf8Marked => "utf-8 (bom)"
  | utf16le => "utf-16le"
  | utf16be => "utf-16be"

/-- The encoding whose mark the bytes begin with, UTF-8 without a mark if there is none. -/
def detect (bytes : Bytes) : Encoding :=
  ([utf16le, utf16be, utf8Marked].find? fun e => e.mark.isPrefixOf bytes).getD utf8

/-- The bytes of a text after the mark. -/
def encodeBody (encoding : Encoding) (t : Text) : Bytes :=
  match encoding with
  | utf8 | utf8Marked => Utf8.encode t
  | utf16le => (Utf16.encode t).flatMap Utf16.ByteOrder.littleEndian.split
  | utf16be => (Utf16.encode t).flatMap Utf16.ByteOrder.bigEndian.split

/-- The content of a file that stores the text in this encoding. -/
def encode (encoding : Encoding) (t : Text) : Bytes :=
  encoding.mark ++ encoding.encodeBody t

/-- Reads 16 bit units stored in a byte order. -/
def decodeUnits (order : Utf16.ByteOrder) (body : Bytes) : Except DecodeError Text :=
  match order.units? body with
  | none => .error .oddLength
  | some units =>
    match Utf16.decode units with
    | .error unit => .error (.unpairedSurrogate unit)
    | .ok t => .ok t

/-- Reads the bytes after the mark. -/
def decodeBody (encoding : Encoding) (body : Bytes) : Except DecodeError Text :=
  match encoding with
  | utf8 | utf8Marked =>
    match Utf8.decodeFrom encoding.mark.length body with
    | .error offset => .error (.invalidUtf8 offset)
    | .ok t => .ok t
  | utf16le => decodeUnits .littleEndian body
  | utf16be => decodeUnits .bigEndian body

end Encoding

/-- A text together with the encoding that stores it. -/
structure DecodedText where
  text : Text
  encoding : Encoding
  deriving DecidableEq, Repr

/-- Reads the content of a file. -/
def DecodedText.ofBytes (bytes : Bytes) : Except DecodeError DecodedText :=
  let encoding := Encoding.detect bytes
  match encoding.decodeBody (bytes.drop encoding.mark.length) with
  | .error cause => .error cause
  | .ok text => .ok { text, encoding }

/-- The content of a file that stores this text in this encoding. -/
def DecodedText.toBytes (d : DecodedText) : Bytes :=
  d.encoding.encode d.text

end Uncomment
