import Uncomment.Diagnostic.Delimiters
import Uncomment.Diagnostic.Report
import Uncomment.Lexer.File
import Uncomment.Log

/-!
# Analysis of a text

Reading a text and everything found wrong with it. The file is complete even if something is wrong; but
a text is **accepted** only if nothing is.
-/

namespace Uncomment

/-- A file and what is wrong with it. -/
structure Analysis where
  file : SourceFile
  /-- In the order of their spans. -/
  diagnostics : List Diagnostic
  deriving DecidableEq

namespace Analysis

/-- Reads a text and checks its brackets. -/
def ofText (t : Text) : Analysis :=
  let file := SourceFile.ofText t
  { file, diagnostics := sortDiagnostics (lexDiagnostics t ++ file.delimiterDiagnostics) }

/-- What is logged when a text is analysed. -/
def log (a : Analysis) : List LogEntry :=
  [.lexed a.file.terminals.length a.diagnostics.length]

end Analysis

/-- The file of a text, if nothing is wrong with it. -/
def SourceFile.parse (t : Text) : Except (List Diagnostic) SourceFile :=
  let analysis := Analysis.ofText t
  if analysis.diagnostics.isEmpty then .ok analysis.file else .error analysis.diagnostics

end Uncomment
