import Uncomment.Patch.Hunk

/-!
# Patches as they are shown

A patch in the unified format, with or without colours. An empty line of context is shown without the
space that marks context, and a last line without a line feed is followed by a remark.
-/

namespace Uncomment.Patch

/-- The part of a patch a style belongs to. -/
inductive Part where
  | patchHeader
  | hunkHeader
  | context
  | removed
  | added
  deriving DecidableEq, Repr

/-- The code that ends a style. -/
def styleEnd : Text := "\x1b[0m".toList

/-- The code that starts the style of a part; context has none. -/
def Part.style? : Part → Option Text
  | patchHeader => some "\x1b[1m".toList
  | hunkHeader => some "\x1b[36m".toList
  | removed => some "\x1b[31m".toList
  | added => some "\x1b[32m".toList
  | context => none

/-- A text in the style of a part. -/
def Part.paint (colored : Bool) (part : Part) (t : Text) : Text :=
  match colored, part.style? with
  | true, some style => style ++ t ++ styleEnd
  | _, _ => t

/-- The remark after a line without a line feed. -/
def missingLineFeed : Text := "\n\\ No newline at end of file\n".toList

/-- A line of a hunk with the mark of its kind. -/
def HunkLine.render (colored : Bool) (line : HunkLine) : Text :=
  let (part, mark, text) :=
    match line with
    | context text => (Part.context, ' ', text)
    | removed text => (Part.removed, '-', text)
    | added text => (Part.added, '+', text)
  let shown := if mark = ' ' ∧ text = ['\n'] then text else mark :: text
  part.paint colored shown ++ if text.getLast? = some '\n' then [] else missingLineFeed

/-- The lines a hunk covers in a text: the first, and how many unless it is one. Lines are counted from
1, but an empty range is given by the line before it. -/
def renderRange (start length : Nat) : Text :=
  let first := if length = 0 then start else start + 1
  (toString first).toList ++ if length = 1 then [] else ',' :: (toString length).toList

/-- A hunk with its header. -/
def Hunk.render (colored : Bool) (h : Hunk) : Text :=
  let header := "@@ -".toList ++ renderRange h.oldStart h.oldLength ++ " +".toList ++
    renderRange h.newStart h.newLength ++ " @@".toList
  Part.hunkHeader.paint colored header ++ ['\n'] ++ h.lines.flatMap (HunkLine.render colored)

/-- The header of every patch. -/
def header : Text := "--- original\n+++ modified\n".toList

/-- The patch that turns one text into another. -/
def render (colored : Bool) (old new : Text) : Text :=
  Part.patchHeader.paint colored header ++ (hunks old new).flatMap (Hunk.render colored)

end Uncomment.Patch
