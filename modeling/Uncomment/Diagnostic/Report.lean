import Uncomment.Diagnostic.Fault

/-!
# Diagnostics as they are shown

A diagnostic is shown with its location, its message, the line it is on and a mark under the part it is
about. Only the first line of a span is marked, with at least one caret.
-/

namespace Uncomment

/-- A diagnostic resolved against its file. -/
structure ReportEntry where
  /-- File, line and column, the latter two counted from 1. -/
  location : String
  message : String
  /-- The line, and carets under the part of it that is meant. -/
  marks : String
  deriving DecidableEq, Repr

/-- The entry as it is shown. -/
def ReportEntry.show (entry : ReportEntry) : String :=
  entry.location ++ ": error: " ++ entry.message ++ "\n" ++ entry.marks

/-- Resolves a diagnostic against the text it is about, if its span lies in that text. -/
def Diagnostic.entry? (fileName : String) (t : Text) (d : Diagnostic) : Option ReportEntry := do
  let position ← t.position? d.span.start
  let (_, fromLine) ← t.cutAt? (t.lineStart position.line)
  let marked ← d.span.text? t
  let carets := max 1 (Text.firstLine marked).length
  return {
    location := fileName ++ ":" ++ toString (position.line + 1) ++ ":" ++
      toString (position.column + 1)
    message := d.fault.message
    marks := String.ofList (Text.firstLine fromLine ++ ['\n'] ++
      List.replicate position.column ' ' ++ List.replicate carets '^') }

/-- Resolves diagnostics against the text they are about. -/
def reportEntries (fileName : String) (t : Text) (diagnostics : List Diagnostic) :
    List ReportEntry :=
  diagnostics.filterMap (Diagnostic.entry? fileName t)

/-- Diagnostics as they are shown, one after the other. -/
def report (fileName : String) (t : Text) (diagnostics : List Diagnostic) : String :=
  String.intercalate "\n" ((reportEntries fileName t diagnostics).map ReportEntry.show)

/-- The number of diagnostics in words. -/
def reportSummary (diagnostics : List Diagnostic) : String :=
  "Found " ++ toString diagnostics.length ++ " parser diagnostics."

/-- Diagnostics in the order of their spans; those of one span stay in the order they were found. -/
def sortDiagnostics (diagnostics : List Diagnostic) : List Diagnostic :=
  diagnostics.mergeSort fun a b => a.span.le b.span

end Uncomment
