import Uncomment.Diagnostic.Fault
import Uncomment.Lexer.Literal
import Uncomment.Source.Terminal

/-!
# Reading trivia

The pieces between tokens. What a `#` means depends on what was read before it, so the reader carries
a **state**: whether only white space was seen on the current line, and what is compiled. Inside text
that is not compiled whole lines are taken, up to the next conditional directive.

Directives and text that is not compiled only lead a token: they start a line, and the trivia that
trail a token end with its line.

## Termination

Every piece takes at least one character (`length_readTrivium`), so `readTrivia` recurses on a shorter
text; `disabledLines` takes at least the line break of a line before it goes on.
-/

namespace Uncomment

/-- What the lexer remembers from the text before. -/
structure LexState where
  /-- Only white space was seen since the last line break. -/
  lineStart : Bool
  /-- The conditional compilation of the directives so far. -/
  compilation : Compilation
  deriving DecidableEq, Repr

/-- The state at the start of a file. -/
def LexState.initial : LexState := { lineStart := true, compilation := .initial }

/-- Something that was read, and what is wrong with it. -/
structure Noted (α : Type) where
  item : α
  fault : Option Fault
  deriving DecidableEq, Repr

/-! ## Pieces -/

/-- Reads one line break at the front of the text. -/
def lineBreak (t : Text) : Text × Text :=
  Reader.count (if ['\r', '\n'].isPrefixOf t then 2 else 1) t

/-- Reads lines with their line breaks, up to a line that is a conditional directive. -/
def disabledLines (t : Text) : Text × Text :=
  let line := t.currentLine
  let ending := lineBreak t.afterLine
  let taken := line ++ ending.1
  if t.afterLine.isEmpty || ending.2.isEmpty || startsWithConditional ending.2 then (taken, ending.2)
  else
    let (lines, rest) := disabledLines ending.2
    (taken ++ lines, rest)
termination_by t.length
decreasing_by
  have h : ¬ t.afterLine = [] := by simp_all
  have hle := t.length_afterLine_le
  have hpos := List.length_pos_iff.mpr h
  simp only [lineBreak, Reader.count, List.length_drop]
  split <;> omega

/-- The kind of a comment that begins with `//`: three slashes, but not four, are documentation. -/
def lineCommentKind (t : Text) : TriviumKind :=
  if "///".toList.isPrefixOf t && !"////".toList.isPrefixOf t then .docLineComment else .lineComment

/-- The kind of a comment that begins with `/*`: a second star makes it documentation, unless it closes
the comment. -/
def blockCommentKind (t : Text) : TriviumKind :=
  if "/**".toList.isPrefixOf t && !"/**/".toList.isPrefixOf t then .docBlockComment
  else .blockComment

/-- A piece that was read off the front of a text. -/
structure ReadTrivium where
  item : Noted Trivium
  state : LexState
  /-- What follows the piece. -/
  rest : Text
  deriving DecidableEq, Repr

namespace ReadTrivium

/-- A piece that cannot be wrong. -/
def plain (kind : TriviumKind) (piece : Text × Text) (state : LexState) : ReadTrivium :=
  { item := ⟨⟨kind, piece.1⟩, none⟩, state, rest := piece.2 }

/-- A block comment; the text begins with `/*`. -/
def block (state : LexState) (t : Text) : ReadTrivium :=
  let scan := blockComment t
  { item :=
      ⟨⟨blockCommentKind t, scan.taken⟩, if scan.closed then none else some .unterminatedComment⟩
    state := { state with lineStart := false }
    rest := scan.rest }

/-- A directive; the text begins with `#`. -/
def directive (state : LexState) (t : Text) : ReadTrivium :=
  let line := t.currentLine
  let (compilation, error) := state.compilation.applyLine line
  { item := ⟨⟨.directive, line⟩, error.map Fault.ofDirectiveError⟩
    state := { lineStart := false, compilation }
    rest := t.afterLine }

end ReadTrivium

/-- The piece at the front of a text, none where a token or the end of the text is. -/
def readTrivium (leading : Bool) (state : LexState) : Text → Option ReadTrivium
  | [] => none
  | c :: rest =>
    let t : Text := c :: rest
    let next := rest.head?
    if leading && state.lineStart && !state.compilation.isActive && !startsWithConditional t then
      some (.plain .disabledText (disabledLines t) { state with lineStart := true })
    else if isLineBreak c then some (.plain .newline (lineBreak t) { state with lineStart := true })
    else if isBlank c then
      some (.plain .whitespace (Reader.run (fun d => isBlank d && !isLineBreak d) t) state)
    else if c = '/' ∧ next = some '/' then
      some (.plain (lineCommentKind t) (t.currentLine, t.afterLine) { state with lineStart := false })
    else if c = '/' ∧ next = some '*' then some (.block state t)
    else if c = '#' ∧ leading ∧ state.lineStart then some (.directive state t)
    else none

/-! ## Nothing is lost and no piece is empty -/

theorem append_lineBreak (t : Text) : (lineBreak t).1 ++ (lineBreak t).2 = t :=
  Reader.lossless_count _ t

theorem append_disabledLines (t : Text) : (disabledLines t).1 ++ (disabledLines t).2 = t := by
  fun_induction disabledLines t with
  | case1 t line br taken h =>
    simp only [taken, line, br, List.append_assoc, append_lineBreak]
    exact t.currentLine_append_afterLine
  | case2 t line br taken h lines rest heq ih =>
    rw [heq] at ih
    simp only at ih
    simp only [List.append_assoc, ih]
    simp only [taken, line, br, List.append_assoc, append_lineBreak]
    exact t.currentLine_append_afterLine

theorem disabledLines_ne_nil {t : Text} (h : t ≠ []) : (disabledLines t).1 ≠ [] := by
  have hfirst : t.currentLine ++ (lineBreak t.afterLine).1 ≠ [] := by
    intro hnil
    obtain ⟨hline, hbreak⟩ := List.append_eq_nil_iff.mp hnil
    have hall := t.currentLine_append_afterLine
    rw [hline, List.nil_append] at hall
    rw [hall] at hbreak
    have : t = [] := by
      unfold lineBreak Reader.count at hbreak
      simp only [List.take_eq_nil_iff] at hbreak
      rcases hbreak with hb | hb
      · split at hb <;> omega
      · exact hb
    exact h this
  rw [disabledLines]
  simp only
  split
  · exact hfirst
  · intro hnil
    exact hfirst (List.append_eq_nil_iff.mp hnil).1

/-- The piece and what follows it are the text, and the piece is not empty. -/
def ReadTrivium.Sound (r : ReadTrivium) (t : Text) : Prop :=
  r.item.item.text ++ r.rest = t ∧ r.item.item.text ≠ []

theorem currentLine_ne_nil {c : Char} {rest : Text} (h : isLineBreak c = false) :
    Text.currentLine (c :: rest) ≠ [] := by
  simp [Text.currentLine, h]

theorem sound_readTrivium {leading : Bool} {state : LexState} {t : Text} {r : ReadTrivium}
    (h : readTrivium leading state t = some r) : r.Sound t := by
  cases t with
  | nil => simp [readTrivium] at h
  | cons c rest =>
    simp only [readTrivium] at h
    split at h
    · simp only [Option.some.injEq] at h
      subst h
      exact ⟨append_disabledLines _, disabledLines_ne_nil (by simp)⟩
    · split at h
      · simp only [Option.some.injEq] at h
        subst h
        refine ⟨append_lineBreak _, ?_⟩
        simp only [ReadTrivium.plain, lineBreak, Reader.count]
        split <;> simp
      · next hb =>
        split at h
        · next hw =>
          simp only [Option.some.injEq] at h
          subst h
          refine ⟨Reader.lossless_run _ _, ?_⟩
          simp [ReadTrivium.plain, Reader.run, hw, hb]
        · split at h
          · simp only [Option.some.injEq] at h
            subst h
            exact ⟨Text.currentLine_append_afterLine _, currentLine_ne_nil (by simpa using hb)⟩
          · split at h
            · simp only [Option.some.injEq] at h
              subst h
              exact ⟨covers_blockComment _, by simp [ReadTrivium.block, blockComment]⟩
            · split at h
              · simp only [Option.some.injEq] at h
                subst h
                exact ⟨Text.currentLine_append_afterLine _, currentLine_ne_nil (by simpa using hb)⟩
              · simp at h

/-- What follows a piece is shorter than the text. -/
theorem length_readTrivium {leading : Bool} {state : LexState} {t : Text} {r : ReadTrivium}
    (h : readTrivium leading state t = some r) : r.rest.length < t.length := by
  obtain ⟨hcat, hne⟩ := sound_readTrivium h
  have := List.length_pos_iff.mpr hne
  rw [← hcat, List.length_append]
  omega

/-! ## All trivia of one side -/

/-- The trivia on one side of a token. -/
structure ReadTrivia where
  items : List (Noted Trivium)
  state : LexState
  /-- What follows the trivia. -/
  rest : Text
  deriving DecidableEq, Repr

/-- Reads trivia up to a token or the end of the text; trailing trivia end with their line. -/
def readTrivia (leading : Bool) (state : LexState) (t : Text) : ReadTrivia :=
  match _h : readTrivium leading state t with
  | none => { items := [], state, rest := t }
  | some r =>
    if !leading && r.item.item.kind == .newline then
      { items := [r.item], state := r.state, rest := r.rest }
    else
      let more := readTrivia leading r.state r.rest
      { more with items := r.item :: more.items }
termination_by t.length
decreasing_by exact length_readTrivium ‹_›

/-- The text of noted trivia. -/
def notedText (items : List (Noted Trivium)) : Text :=
  Trivia.text (items.map Noted.item)

/-- The trivia and what follows them are the text. -/
theorem append_readTrivia (leading : Bool) (state : LexState) (t : Text) :
    notedText (readTrivia leading state t).items ++ (readTrivia leading state t).rest = t := by
  fun_induction readTrivia leading state t with
  | case1 => rfl
  | case2 state t r h _ => simpa [notedText] using (sound_readTrivium h).1
  | case3 state t r h _ more ih =>
    have hs := (sound_readTrivium h).1
    simp only [notedText, List.map_cons, Trivia.text_cons, List.append_assoc]
    rw [show Trivia.text (more.items.map Noted.item) ++ more.rest = r.rest from ih]
    exact hs

/-- What follows the trivia is no longer than the text. -/
theorem length_readTrivia_le (leading : Bool) (state : LexState) (t : Text) :
    (readTrivia leading state t).rest.length ≤ t.length := by
  have h := congrArg List.length (append_readTrivia leading state t)
  rw [List.length_append] at h
  omega

end Uncomment
