import Uncomment.Files.Path
import Uncomment.Xml.Node

/-!
# The sources a project document names

A project document lists what is compiled in `Compile` elements: each includes some files, or removes
some that are compiled by default. Files that are only linked into the project, and generated files that
depend on another one, are left out.

A project in the short style also compiles every source file below its directory, unless the document
turns that off.
-/

namespace Uncomment.Project

open Xml (Node)

/-- The namespace of project documents. Elements without a namespace count as well. -/
def space : Text := "http://schemas.microsoft.com/developer/msbuild/2003".toList

/-- Whether a node is the element of a project document with a base name. -/
def isElement (base : Text) (node : Node) : Bool :=
  node.tag?.any fun tag => tag.base == base && tag.space.all (· == space)

/-- Whether an item has a child element with a base name. -/
def hasChild (base : Text) (item : Node) : Bool :=
  item.children.any (isElement base)

/-- The elements that say what is compiled. -/
def compileItems (document : Node) : List Node :=
  document.descendants.filter (isElement "Compile".toList)

/-- Whether an item is only linked: its place in the project is given by an attribute or a child. -/
def isLinked (item : Node) : Bool :=
  (item.attribute? "Link".toList).isSome || hasChild "Link".toList item

/-- Whether an item is generated: it is named as a designer file and depends on another one. -/
def isGenerated (item : Node) : Bool :=
  (item.attribute? "Include".toList).any
      (fun files => ".designer.cs".toList.isSuffixOf (Text.toLowerAscii files)) &&
    hasChild "DependentUpon".toList item

/-- The items of a list: they are separated by semicolons, and blanks around them mean nothing. -/
def itemList (t : Text) : List Text :=
  ((Text.splitAt ';' t).map Text.trim).filter fun item => !item.isEmpty

/-- The files in the list of an attribute of an item. -/
def listed (directory : Path) (base : Text) (item : Node) : List Path :=
  ((item.attribute? base).toList.flatMap itemList).map (resolveManifestPath directory)

/-- The files a document includes. -/
def included (directory : Path) (document : Node) : List Path :=
  ((compileItems document).filter fun item => !isLinked item && !isGenerated item).flatMap
    (listed directory "Include".toList)

/-- The files a document removes from those compiled by default. -/
def removed (directory : Path) (document : Node) : List Path :=
  (compileItems document).flatMap (listed directory "Remove".toList)

/-- Whether a document is in the short style. -/
def isShortStyle (document : Node) : Bool :=
  (document.attribute? "Sdk".toList).isSome

/-- Whether a node turns off the default files. -/
def turnsOffDefaults (node : Node) : Bool :=
  isElement "EnableDefaultCompileItems".toList node &&
    node.text?.any fun t => Text.sameIgnoringCase (Text.trim t) "false".toList

/-- Whether the files below the directory of a project are compiled by default. -/
def compilesDefaults (document : Node) : Bool :=
  isShortStyle document && !document.descendants.any turnsOffDefaults

/-- The files of a project, in no order and perhaps more than once. `below` are the source files below
its directory. -/
def files (directory : Path) (document : Node) (below : List Path) : List Path :=
  included directory document ++
    if compilesDefaults document then
      below.filter fun file => !(removed directory document).contains file
    else []

/-- The source files of a project, in order and each once. -/
def sources (directory : Path) (document : Node) (below : List Path) : List Path :=
  Path.sortedSet (files directory document below)

end Uncomment.Project
