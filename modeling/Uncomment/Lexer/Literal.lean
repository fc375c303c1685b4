import Uncomment.Lexer.Scan

/-!
# Comments, character literals and string literals

The pieces of source text that have to be closed, apart from interpolated strings. Each is read
character by character until what closes it; a literal of the regular kind also ends, unclosed, at the
end of its line.

A string literal has one of three **styles**. A regular one escapes with a backslash, a verbatim one
doubles a quote, and a raw one is closed by at least as many quotes as opened it.

## Termination

`stringBody` goes on after a run of quotes, so it recurses on a shorter rest; the others recurse on
the text itself.
-/

namespace Uncomment

/-! ## Block comments -/

/-- Reads up to the first `*/`. -/
def blockBody : Text → Scan
  | [] => .stop []
  | c :: rest =>
    if c = '*' ∧ rest.head? = some '/' then ⟨['*', '/'], rest.drop 1, true⟩
    else (blockBody rest).after [c]

/-- Reads a block comment; the text begins with `/*`. -/
def blockComment (t : Text) : Scan :=
  (blockBody (t.drop 2)).after (t.take 2)

theorem covers_blockBody (t : Text) : (blockBody t).Covers t := by
  induction t with
  | nil => rfl
  | cons c rest ih =>
    unfold blockBody
    split
    · next h =>
      obtain ⟨rfl, h⟩ := h
      cases rest with
      | nil => simp at h
      | cons d more => simp at h; subst h; rfl
    · exact ih.after [c]

theorem covers_blockComment (t : Text) : (blockComment t).Covers t := by
  have h := (covers_blockBody (t.drop 2)).after (t.take 2)
  rwa [List.take_append_drop] at h

/-! ## Character literals -/

/-- Reads a character literal after its opening quote. A backslash takes the character after it,
unless the line ends there. -/
def characterBody : Text → Scan
  | [] => .stop []
  | c :: rest =>
    if isLineBreak c then .stop (c :: rest)
    else if c = '\\' then
      match rest with
      | [] => (Scan.stop []).after [c]
      | d :: more =>
        if isLineBreak d then (Scan.stop (d :: more)).after [c]
        else (characterBody more).after [c, d]
    else if c = '\'' then ⟨[c], rest, true⟩
    else (characterBody rest).after [c]

/-- Reads a character literal; the text begins with a single quote. -/
def characterLiteral (t : Text) : Scan :=
  (characterBody (t.drop 1)).after (t.take 1)

theorem covers_characterBody (t : Text) : (characterBody t).Covers t := by
  fun_induction characterBody t with
  | case1 => rfl
  | case2 => rfl
  | case3 => rfl
  | case4 => rfl
  | case5 d more _ _ ih => exact ih.after ['\\', d]
  | case6 => rfl
  | case7 c rest _ _ _ ih => exact ih.after [c]

theorem covers_characterLiteral (t : Text) : (characterLiteral t).Covers t := by
  have h := (covers_characterBody (t.drop 1)).after (t.take 1)
  rwa [List.take_append_drop] at h

/-! ## String literals -/

/-- How the body of a string literal is quoted. -/
inductive StringStyle where
  /-- On one line, with backslash escapes. -/
  | regular
  /-- With doubled quotes. -/
  | verbatim
  /-- Closed by at least as many quotes as opened it. -/
  | raw (quotes : Nat)
  deriving DecidableEq, Repr

/-- The run of quotes at the front of a text. -/
def quoteRun (t : Text) : Text :=
  t.takeWhile (· == '"')

/-- Reads the quotes that open a string literal and tells its style. In a verbatim literal two quotes
are one escaped quote, so it is never raw. -/
def openingQuotes (verbatim : Bool) (t : Text) : StringStyle × Text × Text :=
  let quotes := (quoteRun t).length
  if 3 ≤ quotes && !verbatim then (.raw quotes, t.take quotes, t.drop quotes)
  else (if verbatim then .verbatim else .regular, t.take 1, t.drop 1)

/-- Reads quotes inside a literal, found at the front of the text, and tells whether they close it. -/
def closingQuotes (style : StringStyle) (t : Text) : Scan :=
  match style with
  | .regular => ⟨t.take 1, t.drop 1, true⟩
  | .verbatim =>
    if (t.drop 1).head? = some '"' then ⟨t.take 2, t.drop 2, false⟩ else ⟨t.take 1, t.drop 1, true⟩
  | .raw quotes =>
    let run := (quoteRun t).length
    ⟨t.take run, t.drop run, decide (quotes ≤ run)⟩

theorem covers_closingQuotes (style : StringStyle) (t : Text) : (closingQuotes style t).Covers t := by
  unfold closingQuotes
  split
  · exact List.take_append_drop 1 t
  · split
    · exact List.take_append_drop 2 t
    · exact List.take_append_drop 1 t
  · exact List.take_append_drop _ t

/-- At least one quote is taken. -/
theorem length_closingQuotes (style : StringStyle) (rest : Text) :
    (closingQuotes style ('"' :: rest)).rest.length ≤ rest.length := by
  unfold closingQuotes
  split
  · simp
  · split <;> simp
  · simp [quoteRun]

/-- Reads the body of a string literal and the quotes that close it. -/
def stringBody (style : StringStyle) : Text → Scan
  | [] => .stop []
  | c :: rest =>
    if isLineBreak c ∧ style = .regular then .stop (c :: rest)
    else if c = '\\' ∧ style = .regular then
      match rest with
      | [] => (Scan.stop []).after [c]
      | d :: more =>
        if isLineBreak d then (Scan.stop (d :: more)).after [c]
        else (stringBody style more).after [c, d]
    else if c = '"' then
      let quotes := closingQuotes style ('"' :: rest)
      if quotes.closed then quotes else (stringBody style quotes.rest).after quotes.taken
    else (stringBody style rest).after [c]
termination_by t => t.length
decreasing_by
  · simp only [List.length_cons]; omega
  · have := length_closingQuotes style rest; simp only [List.length_cons]; omega
  · simp

/-- Reads a string literal; the text begins with a quote, or with `@` and a quote. -/
def stringLiteral (t : Text) : Scan :=
  let verbatim := t.head? == some '@'
  let start := if verbatim then 1 else 0
  let (style, quotes, rest) := openingQuotes verbatim (t.drop start)
  (stringBody style rest).after (t.take start ++ quotes)

theorem covers_stringBody (style : StringStyle) (t : Text) : (stringBody style t).Covers t := by
  fun_induction stringBody style t with
  | case1 => rfl
  | case2 => rfl
  | case3 => rfl
  | case4 => rfl
  | case5 c _ _ d more _ ih => exact ih.after [c, d]
  | case6 => exact covers_closingQuotes _ _
  | case7 rest quotes _ _ _ ih =>
    have h := ih.after quotes.taken
    rwa [show quotes.taken ++ quotes.rest = '"' :: rest from covers_closingQuotes _ _] at h
  | case8 c rest _ _ _ ih => exact ih.after [c]

theorem append_openingQuotes (verbatim : Bool) (t : Text) :
    (openingQuotes verbatim t).2.1 ++ (openingQuotes verbatim t).2.2 = t := by
  unfold openingQuotes
  simp only
  split <;> exact List.take_append_drop _ t

theorem covers_stringLiteral (t : Text) : (stringLiteral t).Covers t := by
  unfold stringLiteral
  simp only
  have h := (covers_stringBody (openingQuotes (t.head? == some '@')
      (t.drop (if t.head? == some '@' then 1 else 0))).1
    (openingQuotes (t.head? == some '@') (t.drop (if t.head? == some '@' then 1 else 0))).2.2).after
      (t.take (if t.head? == some '@' then 1 else 0) ++
        (openingQuotes (t.head? == some '@')
          (t.drop (if t.head? == some '@' then 1 else 0))).2.1)
  rwa [List.append_assoc, append_openingQuotes, List.take_append_drop] at h

end Uncomment
