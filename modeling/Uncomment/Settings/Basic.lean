/-!
# Settings

What is removed from a file can be set in two ways.
-/

namespace Uncomment

/-- What to remove. -/
structure Settings where
  /-- Leave the trivia before the first token as they are; they usually hold a licence. -/
  keepHeader : Bool := true
  /-- Remove documentation comments too. -/
  stripDocs : Bool := true
  deriving DecidableEq, Repr

namespace Settings

/-- The settings with a given choice about the header, if one is given. -/
def withKeepHeader (settings : Settings) (choice : Option Bool) : Settings :=
  { settings with keepHeader := choice.getD settings.keepHeader }

/-- The settings with a given choice about documentation, if one is given. -/
def withStripDocs (settings : Settings) (choice : Option Bool) : Settings :=
  { settings with stripDocs := choice.getD settings.stripDocs }

end Settings

end Uncomment
