import Uncomment.Proofs.StringForms

/-!
# The forms of interpolated strings

An interpolated string is a sequence of pieces, some of which are holes; a hole holds items, some of which
are interpolated strings again (`InterpolatedForm`). However deep they are nested, such a string is one token
(`interpolated_string_is_one_token`).

The scanner has no recursion to match that of the grammar, but a stack of frames. What carries the induction
is that a part of a string is taken off the text with the frames below it left as they are, whatever they
are and whatever follows (`ReadWhole`).
-/

namespace Uncomment

/-! ## The grammar -/

/-- The parts an interpolated string is made of. -/
inductive InterpolatedPart where
  /-- A string with its prefix and its quotes. -/
  | whole
  /-- What stands between the quotes. -/
  | pieces (verbatim : Bool)
  /-- What stands between two braces, and whether a literal comes first there. -/
  | items (literalFirst : Bool)
  deriving DecidableEq, Repr

/-- The body of a character literal: no quote and no line break, and a backslash takes the character after
it along. -/
inductive CharacterBody : Text → Prop
  | nil : CharacterBody []
  | char {c : Char} {body : Text} (hq : c ≠ '\'') (hs : c ≠ '\\') (hb : isLineBreak c = false)
      (h : CharacterBody body) : CharacterBody (c :: body)
  | escape {c : Char} {body : Text} (hb : isLineBreak c = false) (h : CharacterBody body) :
      CharacterBody ('\\' :: c :: body)

/-- The texts that are a part of an interpolated string. No literal among the items of a hole follows
another one immediately. -/
inductive InterpolatedForm : InterpolatedPart → Text → Prop
  | regular {pieces : Text} (h : InterpolatedForm (.pieces false) pieces) :
      InterpolatedForm .whole (['$'] ++ '"' :: pieces ++ ['"'])
  | verbatim {marks pieces : Text} (hmarks : marks = ['$', '@'] ∨ marks = ['@', '$'])
      (h : InterpolatedForm (.pieces true) pieces) :
      InterpolatedForm .whole (marks ++ '"' :: pieces ++ ['"'])
  | noPieces {verbatim : Bool} : InterpolatedForm (.pieces verbatim) []
  /-- In a regular string the pieces stay on one line, and a backslash is no character of its own. -/
  | pieceChar {verbatim : Bool} {c : Char} {rest : Text} (hq : c ≠ '"') (hbrace : c ≠ '{')
      (hregular : verbatim = false → c ≠ '\\' ∧ isLineBreak c = false)
      (h : InterpolatedForm (.pieces verbatim) rest) :
      InterpolatedForm (.pieces verbatim) (c :: rest)
  | escape {c : Char} {rest : Text} (hb : isLineBreak c = false)
      (h : InterpolatedForm (.pieces false) rest) :
      InterpolatedForm (.pieces false) ('\\' :: c :: rest)
  | quotes {rest : Text} (h : InterpolatedForm (.pieces true) rest) :
      InterpolatedForm (.pieces true) ('"' :: '"' :: rest)
  | braces {verbatim : Bool} {rest : Text} (h : InterpolatedForm (.pieces verbatim) rest) :
      InterpolatedForm (.pieces verbatim) ('{' :: '{' :: rest)
  /-- A second brace would make the first one an escape. -/
  | hole {verbatim first : Bool} {items rest : Text} (hitems : InterpolatedForm (.items first) items)
      (hhead : items.head? ≠ some '{') (h : InterpolatedForm (.pieces verbatim) rest) :
      InterpolatedForm (.pieces verbatim) ('{' :: items ++ '}' :: rest)
  | noItems : InterpolatedForm (.items false) []
  | itemChar {first : Bool} {c : Char} {rest : Text}
      (hc : c ∉ ['{', '}', '"', '\'', '@', '$', '/']) (h : InterpolatedForm (.items first) rest) :
      InterpolatedForm (.items false) (c :: rest)
  | group {inner first : Bool} {items rest : Text} (hitems : InterpolatedForm (.items inner) items)
      (h : InterpolatedForm (.items first) rest) :
      InterpolatedForm (.items false) ('{' :: items ++ '}' :: rest)
  | string {literal rest : Text} (hliteral : StringForm literal [])
      (h : InterpolatedForm (.items false) rest) : InterpolatedForm (.items true) (literal ++ rest)
  | character {body rest : Text} (hbody : CharacterBody body)
      (h : InterpolatedForm (.items false) rest) :
      InterpolatedForm (.items true) ('\'' :: body ++ '\'' :: rest)
  | lineComment {first : Bool} {line rest : Text} {c : Char}
      (hline : ∀ d ∈ line, isLineBreak d = false) (hc : isLineBreak c = true)
      (h : InterpolatedForm (.items first) rest) :
      InterpolatedForm (.items false) (['/', '/'] ++ line ++ c :: rest)
  | blockComment {first : Bool} {body rest : Text} (hbody : ¬ ['*', '/'] <:+: body)
      (h : InterpolatedForm (.items first) rest) :
      InterpolatedForm (.items false) (['/', '*'] ++ body ++ ['*', '/'] ++ rest)
  | nested {literal rest : Text} (hliteral : InterpolatedForm .whole literal)
      (h : InterpolatedForm (.items false) rest) : InterpolatedForm (.items true) (literal ++ rest)

/-! ## Literals and comments among the items -/

theorem CharacterBody.characterBody_eq {body : Text} (h : CharacterBody body) (rest : Text) :
    characterBody (body ++ '\'' :: rest) = ⟨body ++ ['\''], rest, true⟩ := by
  induction h with
  | nil => exact characterBody_quote rest
  | char hq hs hb _ ih =>
    rw [List.cons_append, characterBody_other hb hs hq, ih]
    rfl
  | escape hb _ ih =>
    rw [List.cons_append, List.cons_append, characterBody_escape hb, ih]
    rfl

theorem blockBody_of_no_end {body : Text} (h : ¬ ['*', '/'] <:+: body) (rest : Text) :
    blockBody (body ++ '*' :: '/' :: rest) = ⟨body ++ ['*', '/'], rest, true⟩ := by
  induction body with
  | nil => simp [blockBody]
  | cons c body ih =>
    have hbody : ¬ ['*', '/'] <:+: body := fun hinside => h (hinside.trans (List.suffix_cons c body).isInfix)
    -- The comment does not end here: after a star in the body no slash follows.
    have hopen : ¬ (c = '*' ∧ (body ++ '*' :: '/' :: rest).head? = some '/') := by
      rintro ⟨rfl, hslash⟩
      cases body with
      | nil => simp at hslash
      | cons d body =>
        obtain rfl : d = '/' := by simpa using hslash
        exact h ⟨[], body, rfl⟩
    rw [List.cons_append, blockBody, if_neg hopen, ih hbody]
    rfl

/-- A complete literal stays one before anything but another quote. -/
theorem StringForm.before {literal rest : Text} (h : StringForm literal [])
    (hrest : rest.head? ≠ some '"') : StringForm literal rest := by
  cases h with
  | @regular body _ hbody _ =>
    refine .regular hbody ?_
    rintro ⟨more, hthree⟩
    cases hbody with
    | nil =>
      obtain rfl : '"' :: more = rest := by simpa [List.replicate_succ] using hthree
      exact hrest rfl
    | char hq =>
      simp only [List.replicate_succ, List.cons_append, List.cons.injEq, true_and] at hthree
      exact hq hthree.1.symm
    | escape => simp [List.replicate_succ] at hthree
  | verbatim hbody _ => exact .verbatim hbody hrest
  | raw hopen hbody hclose _ => exact .raw hopen hbody hclose hrest

theorem StringForm.beginsString {literal rest : Text} (h : StringForm literal rest) :
    ∃ s, literal ++ rest = '"' :: s ∨ literal ++ rest = '@' :: '"' :: s := by
  cases h with
  | regular => exact ⟨_, Or.inl rfl⟩
  | verbatim => exact ⟨_, Or.inr rfl⟩
  | @raw opening _ _ _ hopen =>
    obtain ⟨more, rfl⟩ : ∃ more, opening = more + 1 := ⟨opening - 1, by omega⟩
    exact ⟨_, Or.inl rfl⟩

/-! ## Moves in a body -/

/-- The body of a string with one dollar. -/
def Frame.ofBody (verbatim : Bool) : Frame :=
  .body (if verbatim then .verbatim else .regular) 1

section Body

variable {verbatim : Bool} {outer : List Frame} {c : Char} {rest : Text}

theorem Frame.ofBody_char (hq : c ≠ '"') (hbrace : c ≠ '{')
    (hregular : verbatim = false → c ≠ '\\' ∧ isLineBreak c = false) :
    (ofBody verbatim).move outer (c :: rest) = .go [c] rest (ofBody verbatim :: outer) := by
  cases verbatim with
  | false =>
    obtain ⟨hs, hb⟩ := hregular rfl
    simp [ofBody, move, moveInBody, hq, hbrace, hs, hb]
  | true => simp [ofBody, move, moveInBody, hq, hbrace]

theorem Frame.ofBody_escape (hb : isLineBreak c = false) :
    (ofBody false).move outer ('\\' :: c :: rest) = .go ['\\', c] rest (ofBody false :: outer) := by
  have hs : isLineBreak '\\' = false := by decide
  simp [ofBody, move, moveInBody, hs, hb]

theorem Frame.ofBody_quotes :
    (ofBody true).move outer ('"' :: '"' :: rest) = .go ['"', '"'] rest (ofBody true :: outer) := by
  simp [ofBody, move, moveInBody, closingQuotes]

theorem Frame.ofBody_braces :
    (ofBody verbatim).move outer ('{' :: '{' :: rest) =
      .go ['{', '{'] rest (ofBody verbatim :: outer) := by
  have hb : isLineBreak '{' = false := by decide
  cases verbatim <;> simp [ofBody, move, moveInBody, runLength, hb]

theorem Frame.ofBody_hole (hrest : rest.head? ≠ some '{') :
    (ofBody verbatim).move outer ('{' :: rest) =
      .go ['{'] rest (.hole 1 0 :: ofBody verbatim :: outer) := by
  have hb : isLineBreak '{' = false := by decide
  have hrun : runLength '{' ('{' :: rest) = 1 := by
    cases rest with
    | nil => rfl
    | cons d more =>
      have hd : d ≠ '{' := by simpa using hrest
      simp [runLength, hd]
  cases verbatim <;> simp [ofBody, move, moveInBody, hrun, hb]

theorem Frame.ofBody_close (hrest : rest.head? ≠ some '"') :
    (ofBody verbatim).move outer ('"' :: rest) = .go ['"'] rest outer := by
  have hb : isLineBreak '"' = false := by decide
  cases verbatim <;> simp [ofBody, move, moveInBody, closingQuotes, hrest, hb]

end Body

/-! ## Moves in a hole -/

/-- The frames after a closing brace. -/
def Frame.afterBrace (outer : List Frame) : Nat → List Frame
  | 0 => outer
  | depth + 1 => .hole 1 depth :: outer

section Hole

variable {depth : Nat} {outer : List Frame} {c : Char} {rest : Text}

theorem Frame.hole_char (hc : c ∉ ['{', '}', '"', '\'', '@', '$', '/']) :
    (hole 1 depth).move outer (c :: rest) = .go [c] rest (.hole 1 depth :: outer) := by
  simp only [List.mem_cons, List.not_mem_nil, or_false, not_or] at hc
  obtain ⟨h1, h2, h3, h4, h5, h6, h7⟩ := hc
  simp [move, moveInHole, h1, h2, h3, h4, h5, h6, h7]

/-- A line break is an item like any other character. -/
theorem not_mem_of_isLineBreak (hc : isLineBreak c = true) :
    c ∉ ['{', '}', '"', '\'', '@', '$', '/'] := by
  have hnone : ['{', '}', '"', '\'', '@', '$', '/'].any isLineBreak = false := by decide
  exact fun hmem => absurd hc (List.any_eq_false.mp hnone c hmem)

theorem Frame.hole_open :
    (hole 1 depth).move outer ('{' :: rest) = .go ['{'] rest (.hole 1 (depth + 1) :: outer) := by
  simp [move, moveInHole]

theorem Frame.hole_close :
    (hole 1 depth).move outer ('}' :: rest) = .go ['}'] rest (afterBrace outer depth) := by
  cases depth with
  | zero =>
    have hrun := runLength_pos '}' rest
    have hmin : min (runLength '}' ('}' :: rest)) 1 = 1 := by omega
    simp [move, moveInHole, afterBrace, hmin]
  | succ depth => simp [move, moveInHole, afterBrace]

theorem Frame.hole_string {literal : Text} (h : StringForm literal rest) :
    (hole 1 depth).move outer (literal ++ rest) = .go literal rest (.hole 1 depth :: outer) := by
  have heq := h.stringLiteral_eq
  obtain ⟨s, hs | hs⟩ := h.beginsString
  all_goals
    rw [hs] at heq ⊢
    simp [move, moveInHole, Move.nested, heq]

theorem Frame.hole_character {body : Text} (h : CharacterBody body) :
    (hole 1 depth).move outer ('\'' :: (body ++ '\'' :: rest)) =
      .go ('\'' :: (body ++ ['\''])) rest (.hole 1 depth :: outer) := by
  have heq : characterLiteral ('\'' :: (body ++ '\'' :: rest)) =
      ⟨'\'' :: (body ++ ['\'']), rest, true⟩ := by
    show (characterBody (body ++ '\'' :: rest)).after ['\''] = _
    rw [h.characterBody_eq]
    rfl
  simp [move, moveInHole, Move.nested, heq]

theorem Frame.hole_lineComment {line : Text} (hline : ∀ d ∈ line, isLineBreak d = false)
    (hc : isLineBreak c = true) :
    (hole 1 depth).move outer ('/' :: '/' :: (line ++ c :: rest)) =
      .go ('/' :: '/' :: line) (c :: rest) (.hole 1 depth :: outer) := by
  have hslashes : ∀ d ∈ '/' :: '/' :: line, isLineBreak d = false := by
    intro d hd
    rcases List.mem_append.mp (show d ∈ ['/', '/'] ++ line from hd) with hd | hd
    · obtain rfl : d = '/' := by simpa using hd
      decide
    · exact hline d hd
  obtain ⟨hcurrent, hafter⟩ := currentLine_append (s := c :: rest) hslashes (by simpa using hc)
  simp only [List.cons_append] at hcurrent hafter
  simp [move, moveInHole, startsInterpolated, stringMarks, hcurrent, hafter]

theorem Frame.hole_blockComment {body : Text} (h : ¬ ['*', '/'] <:+: body) :
    (hole 1 depth).move outer ('/' :: '*' :: (body ++ '*' :: '/' :: rest)) =
      .go ('/' :: '*' :: (body ++ ['*', '/'])) rest (.hole 1 depth :: outer) := by
  have heq : blockComment ('/' :: '*' :: (body ++ '*' :: '/' :: rest)) =
      ⟨'/' :: '*' :: (body ++ ['*', '/']), rest, true⟩ := by
    show (blockBody (body ++ '*' :: '/' :: rest)).after ['/', '*'] = _
    rw [blockBody_of_no_end h]
    rfl
  simp [move, moveInHole, Move.nested, heq]

/-- A string marked with dollars is entered. -/
theorem Frame.hole_nested {t : Text} (h : startsInterpolated t = true)
    (hmark : ∃ d s, t = d :: s ∧ (d = '$' ∨ d = '@' ∧ s.head? ≠ some '"')) :
    (hole 1 depth).move outer t =
      .go (openingInterpolated t).2.1 (openingInterpolated t).2.2
        ((openingInterpolated t).1 :: .hole 1 depth :: outer) := by
  obtain ⟨d, s, rfl, rfl | ⟨rfl, hs⟩⟩ := hmark
  · simp [move, moveInHole, h]
  · simp [move, moveInHole, h, hs]

end Hole

/-! ## Openings -/

theorem openingInterpolated_regular {t : Text} (h : ¬ List.replicate 3 '"' <+: '"' :: t) :
    openingInterpolated ('$' :: '"' :: t) = (.ofBody false, ['$', '"'], t) := by
  have hmarks : stringMarks ('$' :: '"' :: t) = ['$'] := rfl
  have hquotes := openingQuotes_regular h
  simp [openingInterpolated, hmarks, hquotes, Frame.ofBody]

theorem openingInterpolated_verbatim {marks : Text} (hmarks : marks = ['$', '@'] ∨ marks = ['@', '$'])
    (t : Text) :
    openingInterpolated (marks ++ '"' :: t) = (.ofBody true, marks ++ ['"'], t) := by
  have hquotes := openingQuotes_verbatim ('"' :: t)
  rcases hmarks with rfl | rfl
  · have hmarks : stringMarks ('$' :: '@' :: '"' :: t) = ['$', '@'] := rfl
    simp [openingInterpolated, hmarks, hquotes, Frame.ofBody]
  · have hmarks : stringMarks ('@' :: '$' :: '"' :: t) = ['@', '$'] := rfl
    simp [openingInterpolated, hmarks, hquotes, Frame.ofBody]

/-- The pieces of a regular string do not go on with a quote, so its quotes open no raw string. -/
theorem InterpolatedForm.few_quotes {pieces rest : Text} (h : InterpolatedForm (.pieces false) pieces)
    (hrest : rest.head? ≠ some '"') :
    ¬ List.replicate 3 '"' <+: '"' :: (pieces ++ '"' :: rest) := by
  rintro ⟨more, hthree⟩
  simp only [List.replicate_succ, List.replicate_zero, List.cons_append, List.nil_append,
    List.cons.injEq, true_and] at hthree
  cases h with
  | noPieces =>
    obtain rfl : '"' :: more = rest := by simpa using hthree
    exact hrest rfl
  | pieceChar hq =>
    obtain ⟨rfl, -⟩ := List.cons.inj hthree
    exact hq rfl
  | escape | braces | hole => cases hthree

/-- An interpolated string starts one, and not a verbatim string. -/
theorem InterpolatedForm.marked {s : Text} (h : InterpolatedForm .whole s) (rest : Text) :
    startsInterpolated (s ++ rest) = true ∧
      ∃ c t, s ++ rest = c :: t ∧ (c = '$' ∨ c = '@' ∧ t.head? ≠ some '"') := by
  cases h with
  | regular => exact ⟨rfl, _, _, rfl, Or.inl rfl⟩
  | verbatim hmarks =>
    rcases hmarks with rfl | rfl
    · exact ⟨rfl, _, _, rfl, Or.inl rfl⟩
    · exact ⟨rfl, _, _, rfl, Or.inr ⟨rfl, by simp⟩⟩

/-- Items that do not begin with a literal do not begin with a quote. -/
theorem InterpolatedForm.head_ne {items : Text} (h : InterpolatedForm (.items false) items)
    (rest : Text) : (items ++ '}' :: rest).head? ≠ some '"' := by
  cases h with
  | noItems => simp
  | itemChar hc =>
    simp only [List.cons_append, List.head?_cons, ne_eq, Option.some.injEq]
    rintro rfl
    simp at hc
  | group | lineComment | blockComment => simp

/-! ## Nested strings -/

theorem Scan.after_after (a b : Text) (s : Scan) : (s.after b).after a = s.after (a ++ b) := by
  simp [Scan.after]

/-- The scanner takes a part of a string off the text and leaves the frames below it as they are. The
quote after the pieces and the brace after the items are taken along. -/
def ReadWhole : InterpolatedPart → Text → Prop
  | .whole, s => ∀ rest, rest.head? ≠ some '"' → ∀ outer,
      (scanFrames ((openingInterpolated (s ++ rest)).1 :: outer)
          (openingInterpolated (s ++ rest)).2.2).after (openingInterpolated (s ++ rest)).2.1 =
        (scanFrames outer rest).after s
  | .pieces verbatim, s => ∀ rest, rest.head? ≠ some '"' → ∀ outer,
      scanFrames (.ofBody verbatim :: outer) (s ++ '"' :: rest) =
        (scanFrames outer rest).after (s ++ ['"'])
  | .items _, s => ∀ rest depth outer,
      scanFrames (.hole 1 depth :: outer) (s ++ '}' :: rest) =
        (scanFrames (Frame.afterBrace outer depth) rest).after (s ++ ['}'])

/-- **Every part of an interpolated string is taken as a whole**, by induction on how it is formed. -/
theorem InterpolatedForm.readWhole {part : InterpolatedPart} {s : Text}
    (h : InterpolatedForm part s) : ReadWhole part s := by
  induction h with
  | regular hpieces ih =>
    intro rest hrest outer
    have hopening := openingInterpolated_regular (hpieces.few_quotes hrest)
    simp only [List.append_assoc, List.cons_append, List.nil_append]
    rw [hopening, ih rest hrest outer, Scan.after_after]
    rfl
  | @verbatim marks pieces hmarks _ ih =>
    intro rest hrest outer
    have hopening := openingInterpolated_verbatim hmarks (pieces ++ '"' :: rest)
    simp only [List.append_assoc, List.cons_append, List.nil_append]
    rw [hopening, ih rest hrest outer, Scan.after_after]
    simp
  | noPieces =>
    intro rest hrest outer
    exact scanFrames_go (Frame.ofBody_close hrest)
  | pieceChar hq hbrace hregular _ ih =>
    intro rest hrest outer
    rw [List.cons_append, scanFrames_go (Frame.ofBody_char hq hbrace hregular), ih rest hrest outer,
      Scan.after_after]
    rfl
  | escape hb _ ih =>
    intro rest hrest outer
    rw [List.cons_append, List.cons_append, scanFrames_go (Frame.ofBody_escape hb),
      ih rest hrest outer, Scan.after_after]
    rfl
  | quotes _ ih =>
    intro rest hrest outer
    rw [List.cons_append, List.cons_append, scanFrames_go Frame.ofBody_quotes, ih rest hrest outer,
      Scan.after_after]
    rfl
  | braces _ ih =>
    intro rest hrest outer
    rw [List.cons_append, List.cons_append, scanFrames_go Frame.ofBody_braces, ih rest hrest outer,
      Scan.after_after]
    rfl
  | @hole verbatim first items pieces _ hhead _ ihitems ih =>
    intro rest hrest outer
    have hbrace : (items ++ '}' :: (pieces ++ '"' :: rest)).head? ≠ some '{' := by
      cases items with
      | nil => simp
      | cons c items => exact hhead
    have hitems := ihitems (pieces ++ '"' :: rest) 0 (.ofBody verbatim :: outer)
    simp only [List.append_assoc, List.cons_append]
    rw [scanFrames_go (Frame.ofBody_hole hbrace), hitems, Frame.afterBrace, ih rest hrest outer,
      Scan.after_after, Scan.after_after]
    simp
  | noItems =>
    intro rest depth outer
    exact scanFrames_go Frame.hole_close
  | itemChar hc _ ih =>
    intro rest depth outer
    rw [List.cons_append, scanFrames_go (Frame.hole_char hc), ih rest depth outer, Scan.after_after]
    rfl
  | @group inner first items more _ _ ihitems ih =>
    intro rest depth outer
    have hitems := ihitems (more ++ '}' :: rest) (depth + 1) outer
    simp only [List.append_assoc, List.cons_append]
    rw [scanFrames_go Frame.hole_open, hitems, Frame.afterBrace, ih rest depth outer,
      Scan.after_after, Scan.after_after]
    simp
  | string hliteral hitems ih =>
    intro rest depth outer
    have hform := hliteral.before (hitems.head_ne rest)
    rw [List.append_assoc, scanFrames_go (Frame.hole_string hform), ih rest depth outer,
      Scan.after_after, List.append_assoc]
  | character hbody _ ih =>
    intro rest depth outer
    simp only [List.append_assoc, List.cons_append]
    rw [scanFrames_go (Frame.hole_character hbody), ih rest depth outer, Scan.after_after]
    simp
  | lineComment hline hc _ ih =>
    intro rest depth outer
    have hitem := not_mem_of_isLineBreak hc
    simp only [List.append_assoc, List.cons_append, List.nil_append]
    rw [scanFrames_go (Frame.hole_lineComment hline hc), scanFrames_go (Frame.hole_char hitem),
      ih rest depth outer, Scan.after_after, Scan.after_after]
    simp
  | blockComment hbody _ ih =>
    intro rest depth outer
    simp only [List.append_assoc, List.cons_append, List.nil_append]
    rw [scanFrames_go (Frame.hole_blockComment hbody), ih rest depth outer, Scan.after_after]
    simp
  | @nested literal items hliteral hitems ihliteral ih =>
    intro rest depth outer
    obtain ⟨hstarts, hmark⟩ := hliteral.marked (items ++ '}' :: rest)
    have hwhole := ihliteral (items ++ '}' :: rest) (hitems.head_ne rest) (.hole 1 depth :: outer)
    rw [List.append_assoc, scanFrames_go (Frame.hole_nested hstarts hmark), hwhole,
      ih rest depth outer, Scan.after_after, List.append_assoc]

/-! ## Tokens -/

theorem InterpolatedForm.interpolatedString_eq {s after : Text} (h : InterpolatedForm .whole s)
    (hafter : after.head? ≠ some '"') : interpolatedString (s ++ after) = ⟨s, after, true⟩ := by
  calc interpolatedString (s ++ after)
    _ = (scanFrames [] after).after s := h.readWhole after hafter []
    _ = ⟨s, after, true⟩ := by rw [scanFrames, Scan.after, List.append_nil]

theorem InterpolatedForm.readToken_eq {s after : Text} (h : InterpolatedForm .whole s)
    (hafter : after.head? ≠ some '"') :
    readToken (s ++ after) = some ⟨.interpolatedString, s, none, after⟩ := by
  have hscan := h.interpolatedString_eq hafter
  obtain ⟨hstarts, c, t, heq, hmark⟩ := h.marked after
  rw [heq] at hscan hstarts ⊢
  rcases hmark with rfl | ⟨rfl, ht⟩
  · simp [readToken, hstarts, ReadToken.closed, hscan]
  · simp [readToken, hstarts, ReadToken.closed, hscan, ht]

/-- No trivia are read before an interpolated string that is compiled. -/
theorem InterpolatedForm.readTrivia_eq {s : Text} (h : InterpolatedForm .whole s) (after : Text)
    {state : LexState} (hstate : state.lineStart = true → state.compilation.isActive = true) :
    readTrivia true state (s ++ after) = { items := [], state, rest := s ++ after } := by
  obtain ⟨-, c, t, heq, hmark⟩ := h.marked after
  have hc : c = '$' ∨ c = '@' := hmark.imp id And.left
  rw [heq]
  refine readTrivia_of_none (readTrivium_eq_none_iff.mpr ⟨?_, ?_, ?_, ?_⟩)
  · cases hline : state.lineStart with
    | false => simp [LexState.skipsLine, hline]
    | true => simp [LexState.skipsLine, hstate hline]
  · rcases hc with rfl | rfl <;> decide
  · intro hslash
    rcases hc with rfl | rfl <;> cases hslash
  · intro hhash
    rcases hc with rfl | rfl <;> cases hhash

/-- **An interpolated string is one token, however deep the strings in its holes are nested.** Wherever
the lexer stands before one that no further quote follows, the next token is the whole string and nothing
is wrong with it: all that is reported of the terminal is about the trivia around it. Where the text is
compiled, no trivia are read before the string itself. -/
theorem interpolated_string_is_one_token {s after : Text} (hs : InterpolatedForm .whole s)
    (hafter : after.head? ≠ some '"') :
    (∀ state text, (readTrivia true state text).rest = s ++ after →
      ∃ l later, lexFrom state text = l :: later ∧
        l.leading = (readTrivia true state text).items ∧
        l.kind = .interpolatedString ∧ l.text = s ∧ l.fault = none ∧
        ∀ offset, l.diagnostics offset =
          triviaDiagnostics offset l.leading ++
            triviaDiagnostics (offset + (notedText l.leading).width + s.width) l.trailing) ∧
    (∀ state : LexState, (state.lineStart = true → state.compilation.isActive = true) →
      readTrivia true state (s ++ after) = { items := [], state, rest := s ++ after }) := by
  refine ⟨fun state text htext => ?_, fun state hstate => hs.readTrivia_eq after hstate⟩
  have htoken := hs.readToken_eq hafter
  rw [← htext] at htoken
  refine ⟨_, _, lexFrom_of_token htoken, rfl, rfl, rfl, rfl, fun offset => ?_⟩
  simp [LexedTerminal.diagnostics, faultAt]

/-- A verbatim string in the hole of a regular one, with a string in its own hole. -/
theorem interpolated_string_is_one_token_of_nested :
    InterpolatedForm .whole "$\"a\x7b$@\"\x7b\"b\"\x7d\"\x7d\"".toList ∧
    List.head? [';'] ≠ some '"' ∧
    ∃ l later, lex "$\"a\x7b$@\"\x7b\"b\"\x7d\"\x7d\";".toList = l :: later ∧
      l.leading = [] ∧ l.kind = .interpolatedString ∧
      l.text = "$\"a\x7b$@\"\x7b\"b\"\x7d\"\x7d\"".toList ∧ l.fault = none := by
  have hstring : StringForm ('"' :: ['b'] ++ ['"']) [] :=
    .regular (.char (by decide) (by decide) (by decide) .nil) (by decide)
  have hinner : InterpolatedForm .whole (['$', '@'] ++ '"' :: "\x7b\"b\"\x7d".toList ++ ['"']) :=
    .verbatim (Or.inl rfl) (.hole (.string hstring .noItems) (by decide) .noPieces)
  have hs : InterpolatedForm .whole "$\"a\x7b$@\"\x7b\"b\"\x7d\"\x7d\"".toList :=
    .regular (.pieceChar (by decide) (by decide) (fun _ => by decide)
      (.hole (.nested hinner .noItems) (by decide) .noPieces))
  have hafter : List.head? [';'] ≠ some '"' := by decide
  obtain ⟨htoken, htrivia⟩ := interpolated_string_is_one_token hs hafter
  have hinitial := htrivia .initial (fun _ => rfl)
  obtain ⟨l, later, hlex, hleading, hkind, htext, hfault, -⟩ :=
    htoken .initial _ (congrArg ReadTrivia.rest hinitial)
  rw [hinitial] at hleading
  exact ⟨hs, hafter, l, later, hlex, hleading, hkind, htext, hfault⟩

end Uncomment
