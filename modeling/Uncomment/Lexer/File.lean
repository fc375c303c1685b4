import Uncomment.Lexer.Token
import Uncomment.Lexer.Trivia
import Uncomment.Source.File

/-!
# Reading a file

A text is read terminal by terminal: trivia, a token, and the trivia that end the token's line. The
reading is complete whatever the text is: faults are noted beside the pieces they are about, and the
pieces put together are the text (`text_lexFrom`). The last terminal, and only the last, is the end of
the file, so a reading is always a `SourceFile`.

Offsets are not needed for any of this. They are counted afterwards, where the faults become
diagnostics: **the span of a diagnostic is the span of the piece that has the fault.**

## Termination

A token is never empty, so `lexFrom` recurses on a shorter text.
-/

namespace Uncomment

/-- A terminal as it was read, with what is wrong with its pieces. -/
structure LexedTerminal where
  leading : List (Noted Trivium)
  kind : TokenKind
  text : Text
  fault : Option Fault
  trailing : List (Noted Trivium)
  deriving DecidableEq, Repr

namespace LexedTerminal

/-- The terminal without the notes. -/
def terminal (l : LexedTerminal) : Terminal :=
  { kind := l.kind, text := l.text, leading := l.leading.map Noted.item,
    trailing := l.trailing.map Noted.item }

/-- The end of the file with the trivia before it. An open `#if` is a fault of it. -/
def atEnd (leading : ReadTrivia) : LexedTerminal :=
  { leading := leading.items, kind := .endOfFile, text := [],
    fault := if leading.state.compilation.inGroup then some .unterminatedConditional else none,
    trailing := [] }

end LexedTerminal

/-- The state after a token: more than white space was seen on the line. -/
def LexState.afterToken (state : LexState) : LexState :=
  { state with lineStart := false }

/-- Reads the terminals of a text, the end of the file last. -/
def lexFrom (state : LexState) (t : Text) : List LexedTerminal :=
  let leading := readTrivia true state t
  match _h : readToken leading.rest with
  | none => [.atEnd leading]
  | some token =>
    let trailing := readTrivia false leading.state.afterToken token.rest
    { leading := leading.items, kind := token.kind, text := token.text, fault := token.fault,
      trailing := trailing.items } :: lexFrom trailing.state trailing.rest
termination_by t.length
decreasing_by
  exact Nat.lt_of_le_of_lt (length_readTrivia_le ..)
    (Nat.lt_of_lt_of_le (length_readToken ‹_›) (length_readTrivia_le ..))

/-- Reads the terminals of a file. -/
def lex (t : Text) : List LexedTerminal :=
  lexFrom .initial t

/-! ## The reading is the text -/

theorem LexedTerminal.fullText_terminal (l : LexedTerminal) :
    l.terminal.fullText = notedText l.leading ++ l.text ++ notedText l.trailing := rfl

/-- **The terminals put together are the text.** -/
theorem text_lexFrom (state : LexState) (t : Text) :
    textOf ((lexFrom state t).map LexedTerminal.terminal) = t := by
  fun_induction lexFrom state t with
  | case1 state t leading h =>
    have hcat := append_readTrivia true state t
    rw [show leading.rest = [] from readToken_eq_none_iff.mp h] at hcat
    simpa [LexedTerminal.atEnd, LexedTerminal.terminal, Terminal.fullText, notedText] using hcat
  | case2 state t leading token h trailing ih =>
    simp only [List.map_cons, textOf_cons, ih, LexedTerminal.fullText_terminal, List.append_assoc]
    rw [append_readTrivia, (sound_readToken h).1, append_readTrivia]

/-- The last terminal is the end of the file. -/
theorem ends_lexFrom (state : LexState) (t : Text) :
    ((lexFrom state t).map LexedTerminal.terminal).getLast?.any Terminal.isEnd = true := by
  fun_induction lexFrom state t with
  | case1 => rfl
  | case2 state t leading token h trailing ih =>
    rw [List.map_cons]
    cases hrest : (lexFrom trailing.state trailing.rest).map LexedTerminal.terminal with
    | nil => rw [hrest] at ih; simp at ih
    | cons first more => rw [hrest] at ih; simpa [List.getLast?_cons_cons] using ih

/-- The file a text is read as. -/
def SourceFile.ofText (t : Text) : SourceFile :=
  { terminals := (lex t).map LexedTerminal.terminal, ends := ends_lexFrom .initial t }

/-- **A file read from a text has that text.** -/
@[simp] theorem SourceFile.text_ofText (t : Text) : (SourceFile.ofText t).text = t :=
  text_lexFrom .initial t

/-! ## Diagnostics -/

/-- The diagnostic of a piece at an offset, if the piece has a fault. -/
def faultAt (offset : Nat) (text : Text) (fault : Option Fault) : List Diagnostic :=
  fault.toList.map fun cause => ⟨⟨offset, offset + text.width⟩, cause⟩

/-- The diagnostics of trivia found at an offset. -/
def triviaDiagnostics (offset : Nat) : List (Noted Trivium) → List Diagnostic
  | [] => []
  | piece :: rest =>
    faultAt offset piece.item.text piece.fault ++
      triviaDiagnostics (offset + piece.item.text.width) rest

namespace LexedTerminal

/-- The diagnostics of a terminal found at an offset, in order. -/
def diagnostics (offset : Nat) (l : LexedTerminal) : List Diagnostic :=
  let start := offset + (notedText l.leading).width
  triviaDiagnostics offset l.leading ++ faultAt start l.text l.fault ++
    triviaDiagnostics (start + l.text.width) l.trailing

/-- The number of bytes of a terminal. -/
def width (l : LexedTerminal) : Nat :=
  l.terminal.fullText.width

end LexedTerminal

/-- The diagnostics of terminals found at an offset, in order. -/
def lexDiagnosticsFrom (offset : Nat) : List LexedTerminal → List Diagnostic
  | [] => []
  | l :: rest => l.diagnostics offset ++ lexDiagnosticsFrom (offset + l.width) rest

/-- What reading a text finds wrong with it, in order. -/
def lexDiagnostics (t : Text) : List Diagnostic :=
  lexDiagnosticsFrom 0 (lex t)

/-- The offset after each terminal, for terminals found at an offset. -/
def endOffsetsFrom (offset : Nat) : List LexedTerminal → List Nat
  | [] => []
  | l :: rest => (offset + l.width) :: endOffsetsFrom (offset + l.width) rest

end Uncomment
