import Uncomment.Strip.File

/-!
# The outcome of stripping

Stripping a text either leaves it as it is or changes it; a text that is not accepted is not stripped at
all, and the report says why.
-/

namespace Uncomment

/-- What stripping did to a text. -/
inductive Outcome where
  /-- There was nothing to remove. -/
  | identical (text : Text)
  /-- The text before and after. -/
  | changed (before after : Text)
  deriving DecidableEq, Repr

namespace Outcome

/-- The text after stripping. -/
def text : Outcome → Text
  | identical text => text
  | changed _ after => after

/-- The outcome for a text and its stripped form. -/
def of (before after : Text) : Outcome :=
  if after = before then identical before else changed before after

@[simp] theorem text_of (before after : Text) : (of before after).text = after := by
  unfold of
  split
  · next h => exact h.symm
  · rfl

end Outcome

/-- Strips a text; what is wrong with it is reported under the given name. -/
def stripNamed (name : String) (settings : Settings) (t : Text) :
    Except (List ReportEntry) Outcome :=
  match stripText settings t with
  | .error diagnostics => .error (reportEntries name t diagnostics)
  | .ok stripped => .ok (.of t stripped)

/-- The entries of a report, each on lines of its own. -/
def reportLines (entries : List ReportEntry) : String :=
  String.join (entries.map fun entry => entry.show ++ "\n")

end Uncomment
