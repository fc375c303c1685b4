import Uncomment.Xml.Markup
import Uncomment.Xml.Node

/-!
# Reading XML documents

A document is an optional declaration and one element, with notes and white space around it. Document
types are not accepted.

Attributes named `xmlns`, or labelled so, declare namespaces. A declaration counts for its element and
everything below, until another one of the same label hides it.

## Termination

The reader keeps the elements that are open on a stack and goes through the text piece by piece. Every
piece has to shorten the rest of the text; one that does not would end the reading.
-/

namespace Uncomment.Xml

/-! ## Namespaces -/

/-- Labels and the namespaces they stand for, the nearest declaration first. The empty label is for names
without one. -/
abbrev Scope := List (Text × Text)

/-- The namespace of names with the label `xml`. -/
def xmlSpace : Text := "http://www.w3.org/XML/1998/namespace".toList

/-- The namespace of declarations. -/
def declarationSpace : Text := "http://www.w3.org/2000/xmlns/".toList

/-- The mark of a declaration. -/
def declarationLabel : Text := "xmlns".toList

/-- The label that needs no declaration. -/
def xmlLabel : Text := "xml".toList

/-- The namespace a label stands for; a name without a label may have none. -/
def Scope.space? (scope : Scope) (label : Text) : Option (Option Text) :=
  match scope.find? (·.1 == label) with
  | some (_, space) => some (some space)
  | none => if label.isEmpty then some none else none

/-- The declarations of an element, in order, followed by those it is inside of. The two reserved
namespaces cannot be declared, and no label twice. -/
def declare (own : Scope) : List (WrittenName × Text) → Option Scope
  | [] => some own
  | (name, space) :: rest =>
    if name.label = declarationLabel then
      if space = declarationSpace ∨ (name.base = xmlLabel ↔ space ≠ xmlSpace) ∨
          own.any (·.1 == name.base) then none
      else if name.base = xmlLabel then declare own rest
      else declare (own ++ [(name.base, space)]) rest
    else if name.base = declarationLabel then
      if space = declarationSpace ∨ space = xmlSpace then none
      else declare (own ++ [([], space)]) rest
    else declare own rest

/-- Whether an attribute declares a namespace. -/
def isDeclaration (name : WrittenName) : Bool :=
  name.label == declarationLabel || name.base == declarationLabel

/-- The name of an attribute. A name without a label has no namespace. -/
def attributeName? (scope : Scope) (name : WrittenName) : Option Name :=
  if name.label = xmlLabel then some ⟨some xmlSpace, name.base⟩
  else if name.label.isEmpty then some ⟨none, name.base⟩
  else (scope.space? name.label).map fun space => ⟨space, name.base⟩

/-! ## Tags -/

/-- An element that is not closed yet. -/
structure OpenElement where
  written : WrittenName
  tag : Name
  attributes : List Attribute
  scope : Scope
  /-- The last child first. -/
  children : List Node := []

namespace OpenElement

/-- The element of a tag inside of some scope, if its names make sense. -/
def ofTag? (scope : Scope) (name : WrittenName) (written : List (WrittenName × Text)) :
    Option OpenElement := do
  if name.label = declarationLabel then none
  let values ← written.mapM fun (name, value) =>
    (resolved spacesForBreaks value).map fun value => (name, value)
  let scope := (← declare [] values) ++ scope
  let attributes ← (values.filter fun (name, _) => !isDeclaration name).mapM fun (name, value) =>
    (attributeName? scope name).map fun name => Attribute.mk name value
  if ¬ (attributes.map Attribute.name).Nodup then none
  let space ← scope.space? name.label
  return { written := name, tag := ⟨space, name.base⟩, attributes, scope }

/-- The element with another child. A text right after a text continues it. -/
def add (e : OpenElement) (child : Node) : OpenElement :=
  { e with
    children :=
      match child, e.children with
      | .text more, .text content :: rest => .text (content ++ more) :: rest
      | _, _ => child :: e.children }

/-- The element once it is closed. -/
def close (e : OpenElement) : Node :=
  .element e.tag e.attributes e.children.reverse

end OpenElement

/-- The attributes of a tag, whether the tag closes itself, and what follows it. White space has to come
before each attribute. -/
def tagEnd (t : Text) : Option (List (WrittenName × Text) × Bool × Text) :=
  match skipSpaces t with
  | '/' :: '>' :: rest => some ([], true, rest)
  | '>' :: rest => some ([], false, rest)
  | start =>
    if start.length < t.length then do
      let (found, rest) ← writtenAttribute start
      if _h : rest.length < t.length then
        let (attributes, closed, rest) ← tagEnd rest
        return (found :: attributes, closed, rest)
      else none
    else none
termination_by t.length

/-- A start tag, after its opening mark: the element, whether it is closed at once, and what follows. -/
def startTag (scope : Scope) (t : Text) : Option (OpenElement × Bool × Text) := do
  let (name, rest) ← writtenName t
  let (attributes, closed, rest) ← tagEnd rest
  let element ← OpenElement.ofTag? scope name attributes
  return (element, closed, rest)

/-- An end tag, after its opening mark. -/
def endTag (t : Text) : Option (WrittenName × Text) := do
  let (name, rest) ← writtenName t
  let rest ← Text.dropStart? ['>'] (skipSpaces rest)
  return (name, rest)

/-! ## Content -/

/-- A piece of the content of an element. -/
inductive Piece where
  | node (node : Node)
  | start (element : OpenElement)
  | stop (name : WrittenName)

/-- The text up to the next tag. The mark that ends character data may not stand in it. -/
def textPiece (t : Text) : Option (Piece × Text) := do
  let (chars, rest) ← charsUntil (fun t => t.head? == some '<') t
  if Text.occursIn "]]>".toList chars then none
  let content ← resolved id chars
  return (.node (.text content), rest)

/-- The piece of content a text begins with. -/
def piece (scope : Scope) (t : Text) : Option (Piece × Text) :=
  match t with
  | '<' :: '!' :: rest =>
    match Text.dropStart? "--".toList rest, Text.dropStart? "[CDATA[".toList rest with
    | some inside, _ => (comment inside).map fun rest => (.node .note, rest)
    | _, some inside =>
      (upToMark "]]>".toList inside).map fun (chars, rest) => (.node (.text chars), rest)
    | none, none => none
  | '<' :: '?' :: _ => (instruction t).map fun rest => (.node .note, rest)
  | '<' :: '/' :: rest => (endTag rest).map fun (name, rest) => (.stop name, rest)
  | '<' :: rest =>
    (startTag scope rest).map fun (element, closed, rest) =>
      (if closed then .node element.close else .start element, rest)
  | _ => textPiece t

/-- Reads up to the end of the outermost open element. `outer` are the elements around `top`. -/
def content (outer : List OpenElement) (top : OpenElement) (t : Text) : Option (Node × Text) :=
  match piece top.scope t with
  | none => none
  | some (found, rest) =>
    if _h : rest.length < t.length then
      match found with
      | .node node => content outer (top.add node) rest
      | .start element => content (top :: outer) element rest
      | .stop name =>
        if name = top.written then
          match outer with
          | [] => some (top.close, rest)
          | around :: outer => content outer (around.add top.close) rest
        else none
    else none
termination_by t.length

/-! ## Documents -/

/-- White space before the next part of a declaration; none is needed before its end. -/
def declarationGap (t : Text) : Option Text :=
  if t.head?.all isSpace || "?>".toList.isPrefixOf t then some (skipSpaces t) else none

/-- A part of a declaration that need not be there. -/
def optionalPart (name : Text) (t : Text) : Option Text :=
  if name.isPrefixOf t then (writtenAttribute t).map (·.2) else some t

/-- The text after the declaration of a document. The version has to be given; it may be followed by the
encoding and by whether the document stands alone. -/
def skipDeclaration (t : Text) : Option Text :=
  if "<?xml ".toList.isPrefixOf t then do
    let rest ← declarationGap (t.drop "<?xml".length)
    if !"version".toList.isPrefixOf rest then none
    let rest ← optionalPart "version".toList rest
    let rest ← declarationGap rest
    let withEncoding := "encoding".toList.isPrefixOf rest
    let rest ← optionalPart "encoding".toList rest
    let rest ← if withEncoding then declarationGap rest else some rest
    let rest ← optionalPart "standalone".toList rest
    Text.dropStart? "?>".toList (skipSpaces rest)
  else some t

/-- The element of a text and what follows it. -/
def rootElement (t : Text) : Option (Node × Text) := do
  let rest ← Text.dropStart? ['<'] t
  let (element, closed, rest) ← startTag [] rest
  if closed then return (element.close, rest) else content [] element rest

/-- The root element of a document, if the text is one. A byte order mark at its start is skipped. -/
def parse? (t : Text) : Option Node := do
  let t ← skipDeclaration ((Text.dropStart? ['\uFEFF'] t).getD t)
  let t ← skipNotes t
  let (root, rest) ← rootElement t
  let rest ← skipNotes rest
  if rest.isEmpty then some root else none

end Uncomment.Xml
