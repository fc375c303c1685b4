import Uncomment.Patch.Compaction

/-!
# Hunks

A patch shows the changes of a text in hunks: changes that are near each other, with three lines of
context around them. Changes share a hunk when the context of one reaches that of the next.
-/

namespace Uncomment.Patch

/-- Lines of the old text that are replaced by lines of the new one, each given by start and end. -/
structure Edit where
  oldStart : Nat
  oldStop : Nat
  newStart : Nat
  newStop : Nat
  deriving DecidableEq, Repr

/-- The edits of a comparison: the runs between common lines, each taken together. The numbers are the
lines of both texts so far, and `current` is the edit being collected. -/
def editsFrom (old new : Nat) (current : Option Edit) : List Segment → List Edit
  | [] => current.toList
  | .keep _ _ length :: rest =>
    current.toList ++ editsFrom (old + length) (new + length) none rest
  | .remove _ length :: rest =>
    let edit := current.getD ⟨old, old, new, new⟩
    editsFrom (old + length) new (some { edit with oldStop := edit.oldStop + length }) rest
  | .add _ length :: rest =>
    let edit := current.getD ⟨old, old, new, new⟩
    editsFrom old (new + length) (some { edit with newStop := edit.newStop + length }) rest

/-- The number of lines of context around a change. -/
def contextLength : Nat := 3

/-- A line of a hunk. -/
inductive HunkLine where
  | context (line : Text)
  | removed (line : Text)
  | added (line : Text)
  deriving DecidableEq, Repr

/-- Changes with their context, and the lines of both texts they cover. -/
structure Hunk where
  oldStart : Nat
  oldLength : Nat
  newStart : Nat
  newLength : Nat
  lines : List HunkLine
  deriving DecidableEq, Repr

/-- How much context follows an edit; less at the end of a text. -/
def contextAfter (a b : Array Text) (e : Edit) : Nat :=
  min contextLength (min (a.size - e.oldStop) (b.size - e.newStop))

/-- The lines of a text between two places. -/
def linesBetween (a : Array Text) (start stop : Nat) : List Text :=
  (a.extract start stop).toList

/-- The lines of an edit: what is removed, then what is added. -/
def Edit.lines (a b : Array Text) (e : Edit) : List HunkLine :=
  (linesBetween a e.oldStart e.oldStop).map .removed ++
    (linesBetween b e.newStart e.newStop).map .added

/-- The lines of edits of one hunk and of the context between and after them. -/
def hunkLines (a b : Array Text) (e : Edit) : List Edit → List HunkLine
  | [] =>
    e.lines a b ++ (linesBetween b e.newStop (e.newStop + contextAfter a b e)).map .context
  | next :: rest =>
    e.lines a b ++ (linesBetween b e.newStop next.newStart).map .context ++ hunkLines a b next rest

/-- The hunk of edits that are near each other. -/
def hunkOf (a b : Array Text) (first : Edit) (rest : List Edit) : Hunk :=
  let last := rest.getLastD first
  let oldStart := first.oldStart - contextLength
  let newStart := first.newStart - contextLength
  { oldStart, oldLength := last.oldStop + contextAfter a b last - oldStart
    newStart, newLength := last.newStop + contextAfter a b last - newStart
    lines := (linesBetween b newStart first.newStart).map .context ++ hunkLines a b first rest }

/-- Whether the context of an edit reaches that of the next one. -/
def sharesHunk (a b : Array Text) (e next : Edit) : Bool :=
  min next.oldStart (a.size - 1) - contextLength < e.oldStop + contextAfter a b e

/-- The edits grouped into hunks. -/
def grouped (a b : Array Text) : List Edit → List (Edit × List Edit)
  | [] => []
  | e :: rest =>
    match rest, grouped a b rest with
    | next :: _, (first, more) :: groups =>
      if sharesHunk a b e next then (e, first :: more) :: groups
      else (e, []) :: (first, more) :: groups
    | _, groups => (e, []) :: groups

/-- The hunks that turn one text into another. -/
def hunks (old new : Text) : List Hunk :=
  let a := (Text.linesWithEnds old).toArray
  let b := (Text.linesWithEnds new).toArray
  let segments := compact a b (segmentsOf a b ⟨0, a.size, 0, b.size⟩)
  (grouped a b (editsFrom 0 0 none segments)).map fun (first, rest) => hunkOf a b first rest

end Uncomment.Patch
