import Uncomment.Encoding.Basic
import Uncomment.Files.Tree
import Uncomment.Strip.Outcome

/-!
# Stripping stored files

The content of a file is decoded, stripped, and encoded again as it was stored. Whether the result is
written back is the caller's choice: never, only if something changed, or in any case. A file that
cannot be decoded, or whose text is not accepted, is never written.
-/

namespace Uncomment

/-- When the result of stripping is written back. -/
inductive WriteBack where
  | never
  | whenChanged
  | always
  deriving DecidableEq, Repr

/-- Why an input could not be read. -/
inductive ReadError where
  | io (cause : IoError)
  | encoding (cause : DecodeError)
  deriving DecidableEq, Repr

/-- The wording of the reason. -/
def ReadError.message : ReadError → String
  | io cause => cause.message
  | encoding cause => cause.message

/-- Why an input could not be stripped. -/
inductive StripError where
  /-- The text is not accepted. -/
  | rejected (entries : List ReportEntry)
  | unreadable (name : String) (cause : ReadError)
  | unwritable (name : String) (cause : IoError)
  deriving DecidableEq, Repr

/-- The wording of the reason. -/
def StripError.message : StripError → String
  | rejected entries => reportLines entries
  | unreadable name cause => "Unable to read from `" ++ name ++ "`.: " ++ cause.message
  | unwritable name cause => "Unable to write to `" ++ name ++ "`.: " ++ cause.message

/-- An outcome together with the encoding of the input. -/
structure EncodedOutcome where
  outcome : Outcome
  encoding : Encoding
  deriving DecidableEq, Repr

/-- The content to store after stripping. -/
def EncodedOutcome.toBytes (e : EncodedOutcome) : Bytes :=
  e.encoding.encode e.outcome.text

/-- The content to write back, if it has to be written. -/
def EncodedOutcome.writeBack? (e : EncodedOutcome) : WriteBack → Option Bytes
  | .never => none
  | .always => some e.toBytes
  | .whenChanged =>
    match e.outcome with
    | .identical _ => none
    | .changed .. => some e.toBytes

/-- Strips the content of an input. -/
def stripBytes (name : String) (settings : Settings) (content : Bytes) :
    Except StripError EncodedOutcome :=
  match DecodedText.ofBytes content with
  | .error cause => .error (.unreadable name (.encoding cause))
  | .ok decoded =>
    match stripNamed name settings decoded.text with
    | .error entries => .error (.rejected entries)
    | .ok outcome => .ok { outcome, encoding := decoded.encoding }

/-- What is logged when the content of an input is stripped. -/
def stripBytesLog (settings : Settings) (content : Bytes) : List LogEntry :=
  match DecodedText.ofBytes content with
  | .error _ => []
  | .ok decoded => stripTextLog settings decoded.text

namespace FileTree

/-- Reads a file and strips its content. -/
def stripped (tree : FileTree) (settings : Settings) (path : Text) :
    Except StripError EncodedOutcome :=
  let name := String.ofList path
  match tree.read path with
  | .error cause => .error (.unreadable name (.io cause))
  | .ok content => stripBytes name settings content

/-- Writes the result of stripping a file back, as far as it has to be. -/
def store (tree : FileTree) (mode : WriteBack) (path : Text) (result : EncodedOutcome) :
    FileTree × Except StripError Outcome :=
  match result.writeBack? mode with
  | none => (tree, .ok result.outcome)
  | some content =>
    match tree.write path content with
    | .error cause => (tree, .error (.unwritable (String.ofList path) cause))
    | .ok tree => (tree, .ok result.outcome)

/-- Strips a file: the files afterwards, and what happened. -/
def strip (tree : FileTree) (mode : WriteBack) (settings : Settings) (path : Text) :
    FileTree × Except StripError Outcome :=
  match tree.stripped settings path with
  | .error cause => (tree, .error cause)
  | .ok result => tree.store mode path result

/-- What is logged when a file is stripped. -/
def stripLog (tree : FileTree) (settings : Settings) (path : Text) : List LogEntry :=
  match tree.read path with
  | .error _ => []
  | .ok content => stripBytesLog settings content

end FileTree

end Uncomment
