import Uncomment.Text.Basic

/-!
# XML documents

A document is a tree of elements, texts and notes (comments and processing instructions, which mean
nothing here). The name of an element or attribute is a namespace, if it has one, and a base name.
-/

namespace Uncomment.Xml

/-- A name with its namespace. -/
structure Name where
  space : Option Text
  base : Text
  deriving DecidableEq, Repr

/-- An attribute of an element. -/
structure Attribute where
  name : Name
  value : Text
  deriving DecidableEq, Repr

/-- A node of a document. -/
inductive Node where
  | element (tag : Name) (attributes : List Attribute) (children : List Node)
  | text (content : Text)
  | note
  deriving Repr

namespace Node

/-- The name of an element. -/
def tag? : Node → Option Name
  | element tag _ _ => some tag
  | text _ | note => none

/-- The attributes of an element; other nodes have none. -/
def attributes : Node → List Attribute
  | element _ attributes _ => attributes
  | text _ | note => []

/-- The children of an element; other nodes have none. -/
def children : Node → List Node
  | element _ _ children => children
  | text _ | note => []

/-- The value of the attribute with a base name and no namespace. -/
def attribute? (node : Node) (base : Text) : Option Text :=
  (node.attributes.find? (·.name == ⟨none, base⟩)).map Attribute.value

/-- The text an element begins with. -/
def text? (node : Node) : Option Text :=
  match node.children with
  | text content :: _ => some content
  | _ => none

mutual

/-- A node and everything below it, in the order of the document. -/
def descendants : Node → List Node
  | element tag attributes children =>
    element tag attributes children :: descendantsOfAll children
  | node => [node]

/-- Some nodes and everything below them, in the order of the document. -/
def descendantsOfAll : List Node → List Node
  | [] => []
  | node :: rest => descendants node ++ descendantsOfAll rest

end

mutual

/-- Decides whether two nodes are the same. -/
def decEq : (a b : Node) → Decidable (a = b)
  | element tag attributes children, element tag' attributes' children' =>
    match decEqAll children children' with
    | isTrue h =>
      decidable_of_iff (tag = tag' ∧ attributes = attributes') (by rw [element.injEq, h, and_iff_left rfl])
    | isFalse h => isFalse fun heq => h (element.inj heq).2.2
  | text content, text content' => decidable_of_iff (content = content') (by rw [text.injEq])
  | note, note => isTrue rfl
  | element .., text _ | element .., note | text _, element .. | text _, note | note, element ..
  | note, text _ => isFalse nofun

/-- Decides whether some nodes are the same as others. -/
def decEqAll : (as bs : List Node) → Decidable (as = bs)
  | [], [] => isTrue rfl
  | a :: as, b :: bs =>
    match decEq a b, decEqAll as bs with
    | isTrue ha, isTrue has => isTrue (by rw [ha, has])
    | isFalse ha, _ => isFalse fun heq => ha (List.cons.inj heq).1
    | _, isFalse has => isFalse fun heq => has (List.cons.inj heq).2
  | [], _ :: _ | _ :: _, [] => isFalse nofun

end

instance : DecidableEq Node := decEq

end Node

end Uncomment.Xml
