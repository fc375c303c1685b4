import Uncomment.Diagnostic.Analysis
import Uncomment.Settings.Basic
import Uncomment.Strip.Rules

/-!
# Stripping a file

Every terminal keeps its token; only its trivia are stripped. The trivia before the first token are the
header of the file, which is kept unless the settings say otherwise.
-/

namespace Uncomment

/-- Whether the end of the file directly follows the trailing trivia of a terminal, given the terminal
after it. -/
def trailingAtEnd : Option Terminal → Bool
  | none => true
  | some next => next.isEnd && next.leading.isEmpty

/-- A terminal with its trivia stripped. -/
def stripTerminal (stripDocs keepLeading trailingAtEnd : Bool) (t : Terminal) : Terminal :=
  { t with
    leading :=
      if keepLeading then t.leading else stripSpan (.leading t.isEnd stripDocs) t.leading
    trailing := stripSpan (.trailing trailingAtEnd stripDocs) t.trailing }

/-- Terminals with their trivia stripped; the leading trivia of the first may be kept. -/
def stripTerminals (stripDocs keepFirst : Bool) : List Terminal → List Terminal
  | [] => []
  | t :: rest =>
    stripTerminal stripDocs keepFirst (trailingAtEnd rest.head?) t ::
      stripTerminals stripDocs false rest

/-- Stripping keeps what each terminal is. -/
@[simp] theorem kind_stripTerminal (stripDocs keepLeading atEnd : Bool) (t : Terminal) :
    (stripTerminal stripDocs keepLeading atEnd t).kind = t.kind := rfl

theorem isEnd_getLast?_stripTerminals (stripDocs : Bool) (terminals : List Terminal)
    (keepFirst : Bool) :
    (stripTerminals stripDocs keepFirst terminals).getLast?.any Terminal.isEnd =
      terminals.getLast?.any Terminal.isEnd := by
  induction terminals generalizing keepFirst with
  | nil => rfl
  | cons t rest ih =>
    cases rest with
    | nil => rfl
    | cons u more => simpa [stripTerminals, List.getLast?_cons_cons] using ih false

namespace SourceFile

/-- The file without its comments. -/
def strip (settings : Settings) (file : SourceFile) : SourceFile :=
  { terminals := stripTerminals settings.stripDocs settings.keepHeader file.terminals
    ends := by rw [isEnd_getLast?_stripTerminals]; exact file.ends }

/-- What is logged about a span and its stripped form. -/
def spanLog (before after : Trivia) : List LogEntry :=
  if before.length = after.length then [] else [.strippedSpan (Trivia.text before)]

/-- What is logged when a file is stripped. -/
def stripLog (settings : Settings) (file : SourceFile) : List LogEntry :=
  let stripped := file.strip settings
  (file.terminals.zip stripped.terminals).flatMap (fun (before, after) =>
      spanLog before.leading after.leading ++ spanLog before.trailing after.trailing) ++
    [.removedComments (file.commentCount - stripped.commentCount)]

end SourceFile

/-- The text without its comments, or what is wrong with it. -/
def stripText (settings : Settings) (t : Text) : Except (List Diagnostic) Text :=
  match SourceFile.parse t with
  | .error diagnostics => .error diagnostics
  | .ok file => .ok (file.strip settings).text

/-- What is logged when a text is stripped. -/
def stripTextLog (settings : Settings) (t : Text) : List LogEntry :=
  (Analysis.ofText t).log ++
    match SourceFile.parse t with
    | .error _ => []
    | .ok file => file.stripLog settings

end Uncomment
