import Uncomment.Source.Trivia

/-!
# Classes of trivia

Removing comments tells apart fewer kinds of trivia than reading does: blanks, line breaks, the two
shapes of comments that are removed, and everything else. A documentation comment that is kept is
something else.
-/

namespace Uncomment

/-- A trivium as far as the removal of comments is concerned. -/
inductive TriviumClass where
  | inlineWhitespace
  | lineBreak
  /-- A comment that runs to the end of its line. -/
  | lineComment
  /-- A comment with an end of its own. -/
  | blockComment
  /-- What comes after the last trivium of a file; never a trivium itself. -/
  | endOfInput
  | other
  deriving DecidableEq, Repr

/-- The class of a trivium, with or without documentation among the comments. -/
def Trivium.classify (stripDocs : Bool) (t : Trivium) : TriviumClass :=
  match t.kind with
  | .whitespace => .inlineWhitespace
  | .newline => .lineBreak
  | .lineComment => .lineComment
  | .blockComment => .blockComment
  | .docLineComment => if stripDocs then .lineComment else .other
  | .docBlockComment => if stripDocs then .blockComment else .other
  | .directive | .disabledText => .other

/-- Whether a trivium is a comment to remove. -/
def Trivium.isRemovable (stripDocs : Bool) (t : Trivium) : Bool :=
  t.classify stripDocs == .lineComment || t.classify stripDocs == .blockComment

/-- Where a span of trivia stands and how it is treated. -/
structure SpanContext where
  /-- A line break right after a removed comment goes with it. -/
  collapse : Bool
  /-- The end of the file directly follows the span. -/
  atEnd : Bool
  /-- Documentation comments are removed too. -/
  stripDocs : Bool
  deriving DecidableEq, Repr

namespace SpanContext

/-- A span before a token. -/
def leading (atEnd stripDocs : Bool) : SpanContext := { collapse := true, atEnd, stripDocs }

/-- A span after a token. -/
def trailing (atEnd stripDocs : Bool) : SpanContext := { collapse := false, atEnd, stripDocs }

/-- The class of what comes next, if anything does: the first of the trivia left, or the end. -/
def nextClass (context : SpanContext) : Trivia → Option TriviumClass
  | [] => if context.atEnd then some .endOfInput else none
  | t :: _ => some (t.classify context.stripDocs)

/-- The classes of the trivia of a span and of what comes after it. -/
def classes (context : SpanContext) (trivia : Trivia) : List TriviumClass :=
  trivia.map (Trivium.classify context.stripDocs) ++
    if context.atEnd then [.endOfInput] else []

end SpanContext

end Uncomment
