import Uncomment.Text.Quotation

/-!
# The log

What the library notes about its own work. An operation gives the entries it would log as a list, so
the log is a value like any other.
-/

namespace Uncomment

/-- Something worth noting. -/
inductive LogEntry where
  /-- A text was read: the numbers of its terminals and diagnostics. -/
  | lexed (terminals diagnostics : Nat)
  /-- Something was removed from the trivia with this text. -/
  | strippedSpan (text : Text)
  /-- The number of comments removed from a file. -/
  | removedComments (count : Nat)
  /-- The number of sources a project names, duplicates included. -/
  | foundSources (count : Nat) (project : Text)
  /-- A configuration file was found. -/
  | readingConfiguration (path : Text)
  deriving DecidableEq, Repr

namespace LogEntry

/-- How detailed an entry is. -/
inductive Level where
  | debug
  | trace
  deriving DecidableEq, Repr

/-- The name of a level. -/
def Level.name : Level → String
  | debug => "DEBUG"
  | trace => "TRACE"

/-- The level of an entry. -/
def level : LogEntry → Level
  | strippedSpan _ => .trace
  | lexed .. | removedComments _ | foundSources .. | readingConfiguration _ => .debug

/-- The wording of an entry. -/
def message : LogEntry → String
  | lexed terminals diagnostics =>
    s!"Lexed {terminals} terminals, found {diagnostics} diagnostics."
  | strippedSpan text => "Stripped span `" ++ String.ofList (Quotation.readable text) ++ "`."
  | removedComments count => s!"Removed {count} comments."
  | foundSources count project =>
    s!"Found {count} source files in `" ++ String.ofList project ++ "`."
  | readingConfiguration path => "Reading configuration from `" ++ String.ofList path ++ "`."

end LogEntry

end Uncomment
