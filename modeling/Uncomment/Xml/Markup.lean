import Uncomment.Text.CharClass

/-!
# The pieces of XML

Readers for the pieces documents are made of. A reader takes a text and gives what it read and the rest
of the text, or nothing if the text does not begin with such a piece.

References to characters are resolved in texts and in the values of attributes. There are no other
entities than the five that stand for marks of the syntax itself.
-/

namespace Uncomment.Xml

/-! ## Characters -/

/-- White space between the parts of a tag. -/
def isSpace (c : Char) : Bool :=
  c == ' ' || c == '\t' || c == '\n' || c == '\r'

/-- A character that may stand in a document. -/
def isAllowed (c : Char) : Bool :=
  if c.toNat < 0x20 then isSpace c else c.toNat != 0xFFFE && c.toNat != 0xFFFF

/-- The characters beyond ASCII a name may begin with. -/
def nameStartRanges : CodeRanges :=
  [(0xC0, 0xD6), (0xD8, 0xF6), (0xF8, 0x2FF), (0x370, 0x37D), (0x37F, 0x1FFF), (0x200C, 0x200D),
    (0x2070, 0x218F), (0x2C00, 0x2FEF), (0x3001, 0xD7FF), (0xF900, 0xFDCF), (0xFDF0, 0xFFFD),
    (0x10000, 0xEFFFF)]

/-- The characters beyond ASCII a name may hold after its first. -/
def nameOnlyRanges : CodeRanges :=
  [(0xB7, 0xB7), (0x300, 0x36F), (0x203F, 0x2040)]

/-- A character a name may begin with; colons are not part of names. -/
def isNameStart (c : Char) : Bool :=
  c.isAlpha || c == '_' || nameStartRanges.contains c.toNat

/-- A character of a name. -/
def isNameChar (c : Char) : Bool :=
  isNameStart c || c.isDigit || c == '-' || c == '.' || nameOnlyRanges.contains c.toNat

/-! ## Plain pieces -/

/-- The text after white space. -/
def skipSpaces (t : Text) : Text :=
  t.dropWhile isSpace

/-- Characters up to a place where the rest of the text passes a test, or up to the end. All of them have
to be allowed. -/
def charsUntil (stop : Text → Bool) : Text → Option (Text × Text)
  | [] => some ([], [])
  | c :: rest =>
    if !isAllowed c then none
    else if stop (c :: rest) then some ([], c :: rest)
    else (charsUntil stop rest).map fun (chars, rest) => (c :: chars, rest)

/-- Characters up to a mark, and what follows the mark. -/
def upToMark (mark : Text) (t : Text) : Option (Text × Text) := do
  let (chars, rest) ← charsUntil mark.isPrefixOf t
  let rest ← Text.dropStart? mark rest
  return (chars, rest)

/-- A name as it is written: a label that stands for a namespace, and a base name. -/
structure WrittenName where
  /-- Empty if no colon is written. -/
  label : Text
  base : Text
  deriving DecidableEq, Repr

/-- Whether a text begins as a name does. -/
def beginsName (t : Text) : Bool :=
  t.head?.any isNameStart

/-- Reads a name with at most one colon. -/
def writtenName (t : Text) : Option (WrittenName × Text) :=
  let isPart := fun c => c == ':' || isNameChar c
  match Text.splitAt ':' (t.takeWhile isPart) with
  | [base] => if beginsName base then some (⟨[], base⟩, t.dropWhile isPart) else none
  | [label, base] =>
    if (label.isEmpty || beginsName label) && beginsName base then
      some (⟨label, base⟩, t.dropWhile isPart)
    else none
  | _ => none

/-! ## References -/

/-- The number written with digits of a base, if there are any and it fits in 32 bits. -/
def codeOf? (base : Nat) (isDigit : Char → Bool) (digits : Text) : Option Nat :=
  let n := digits.foldl (fun n c => n * base + hexValue c) 0
  if !digits.isEmpty && digits.all isDigit && n < 0x100000000 then some n else none

/-- The character with a code; codes of no character stand for the replacement character. -/
def charOf? (code : Nat) : Option Char :=
  let c := if code.isValidChar then Char.ofNat code else '\uFFFD'
  if isAllowed c then some c else none

/-- The character that a reference, without the marks around it, stands for. -/
def referenced? : Text → Option Char
  | '#' :: 'x' :: digits => (codeOf? 16 isHexDigit digits).bind charOf?
  | '#' :: digits => (codeOf? 10 Char.isDigit digits).bind charOf?
  | name =>
    match String.ofList name with
    | "quot" => some '"'
    | "amp" => some '&'
    | "apos" => some '\''
    | "lt" => some '<'
    | "gt" => some '>'
    | _ => none

/-- A piece after an ampersand: the character that is referred to, and the text after it. -/
def afterReference (plain : Text → Text) (piece : Text) : Option Text := do
  let (name, rest) ← Text.cutOnce? ';' piece
  let c ← referenced? name
  return c :: plain rest

/-- A text with its references resolved; what is not a reference is read by `plain`. -/
def resolved (plain : Text → Text) (t : Text) : Option Text :=
  match Text.splitAt '&' t with
  | [] => some []
  | first :: pieces => do
    let rest ← pieces.mapM (afterReference plain)
    return plain first ++ rest.flatten

/-- In the value of an attribute, line breaks and tabs stand for blanks. -/
def spacesForBreaks : Text → Text
  | '\r' :: '\n' :: rest => ' ' :: spacesForBreaks rest
  | c :: rest => (if c == '\r' || c == '\n' || c == '\t' then ' ' else c) :: spacesForBreaks rest
  | [] => []

/-! ## Pieces of markup -/

/-- A name, an equals sign and a value in quotes; references in the value are not resolved yet. -/
def writtenAttribute (t : Text) : Option ((WrittenName × Text) × Text) := do
  let (name, rest) ← writtenName t
  let rest ← Text.dropStart? ['='] (skipSpaces rest)
  match skipSpaces rest with
  | quote :: rest =>
    if quote == '"' || quote == '\'' then
      let (value, rest) ← charsUntil (fun t => t.head? == some quote || t.head? == some '<') rest
      let rest ← Text.dropStart? [quote] rest
      return ((name, value), rest)
    else none
  | [] => none

/-- The rest of a comment after its opening mark. Two hyphens end it. -/
def comment (t : Text) : Option Text := do
  let (chars, rest) ← upToMark "-->".toList t
  if Text.occursIn "--".toList chars || chars.getLast? == some '-' then none else some rest

/-- A processing instruction. The declaration of a document is not one. -/
def instruction (t : Text) : Option Text :=
  if "<?xml ".toList.isPrefixOf t then none
  else do
    let rest ← Text.dropStart? "<?".toList t
    let isPart := fun c => c == ':' || isNameChar c
    let name := rest.takeWhile isPart
    if beginsName name || name.head? == some ':' then
      let (_, rest) ← upToMark "?>".toList (skipSpaces (rest.dropWhile isPart))
      some rest
    else none

/-- The text after comments, processing instructions and white space. -/
def skipNotes (t : Text) : Option Text :=
  let start := skipSpaces t
  match Text.dropStart? "<!--".toList start with
  | some inside =>
    match comment inside with
    | some rest => if _h : rest.length < t.length then skipNotes rest else none
    | none => none
  | none =>
    if "<?".toList.isPrefixOf start then
      match instruction start with
      | some rest => if _h : rest.length < t.length then skipNotes rest else none
      | none => none
    else some start
termination_by t.length

end Uncomment.Xml
