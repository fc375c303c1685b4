import Uncomment.Lexer.File

/-!
# Pieces of trivia, one by one

What the reader of trivia can do in one move, said once: `Reading` has one constructor per kind of
piece, with everything the move looks at, and `readTrivium_eq_some_iff` says that these are all.
Everything else about trivia is proved from it.

* `Reading.state_eq`: the state after a piece depends on the piece alone (`LexState.after`).
* `isActive_of_token`: the lexer never stops at a token in text that is not compiled.
* `readTrivia_after_token`: the trivia that trail a token and those that lead the next one are, put
  together, what one reading in leading mode finds between the two.
-/

namespace Uncomment

/-! ## Lines and block comments -/

/-- What follows a line begins with a line break, if there is anything. -/
theorem isLineBreak_head_afterLine (t : Text) : ∀ c ∈ t.afterLine.head?, isLineBreak c = true := by
  intro c hc
  have hnot := List.head?_dropWhile_not (fun d => !isLineBreak d) t
  rw [show t.dropWhile (fun d => !isLineBreak d) = t.afterLine from rfl, hc] at hnot
  simpa using hnot

/-- A text without line breaks is a line before a line break or the end. -/
theorem currentLine_append {line s : Text} (hline : ∀ c ∈ line, isLineBreak c = false)
    (hs : ∀ c ∈ s.head?, isLineBreak c = true) :
    Text.currentLine (line ++ s) = line ∧ Text.afterLine (line ++ s) = s := by
  have hnot : ∀ c ∈ line, (!isLineBreak c) = true := by
    intro c hc
    simp [hline c hc]
  simp only [Text.currentLine, Text.afterLine]
  rw [List.takeWhile_append_of_pos hnot, List.dropWhile_append_of_pos hnot]
  cases s with
  | nil => simp
  | cons c rest => simp [hs c rfl]

theorem isLineBreak_of_mem_currentLine {t : Text} {c : Char} (h : c ∈ t.currentLine) :
    isLineBreak c = false := by
  simpa using List.all_eq_true.mp List.all_takeWhile c h

theorem Scan.Covers.head? {scan : Scan} {t : Text} (h : scan.Covers t) (hne : scan.taken ≠ [])
    (s : Text) : (scan.taken ++ s).head? = t.head? := by
  obtain ⟨c, rest, hc⟩ := List.exists_cons_of_ne_nil hne
  rw [← h, hc]
  rfl

theorem blockBody_taken_ne_nil {t : Text} (h : (blockBody t).closed = true) :
    (blockBody t).taken ≠ [] := by
  cases t with
  | nil => simp [blockBody, Scan.stop] at h
  | cons c rest =>
    unfold blockBody
    split <;> simp

theorem blockBody_append {t : Text} (h : (blockBody t).closed = true) (s : Text) :
    blockBody ((blockBody t).taken ++ s) = ⟨(blockBody t).taken, s, true⟩ := by
  induction t with
  | nil => simp [blockBody, Scan.stop] at h
  | cons c rest ih =>
    by_cases hc : c = '*' ∧ rest.head? = some '/'
    · have heq : blockBody (c :: rest) = ⟨['*', '/'], rest.drop 1, true⟩ := by
        rw [blockBody, if_pos hc]
      rw [heq]
      simp [blockBody]
    · have heq : blockBody (c :: rest) = (blockBody rest).after [c] := by
        rw [blockBody, if_neg hc]
      rw [heq] at h ⊢
      have hhead := (covers_blockBody rest).head? (blockBody_taken_ne_nil h) s
      simp only [Scan.after_taken, List.cons_append, List.nil_append]
      rw [blockBody, if_neg (by rw [hhead]; exact hc), ih h]
      rfl

/-- **A closed block comment is read the same way whatever follows it.** -/
theorem blockComment_append {t : Text} (h : (blockComment t).closed = true) (s : Text) :
    blockComment ((blockComment t).taken ++ s) = ⟨(blockComment t).taken, s, true⟩ := by
  have hlen : (t.take 2).length = 2 := by
    rcases Nat.lt_or_ge t.length 2 with hlt | hge
    · have hnil : t.drop 2 = [] := List.drop_eq_nil_of_le (Nat.le_of_lt hlt)
      rw [blockComment, hnil] at h
      simp [blockBody, Scan.stop] at h
    · simp [hge]
  have hbody := blockBody_append h s
  simp only [blockComment, Scan.after_taken, List.append_assoc] at hbody ⊢
  rw [List.drop_left' hlen, List.take_left' hlen, hbody]
  rfl

/-! ## One move -/

/-- Whether a whole line is taken as text that is not compiled. -/
def LexState.skipsLine (state : LexState) (leading : Bool) (t : Text) : Bool :=
  leading && state.lineStart && !state.compilation.isActive && !startsWithConditional t

/-- One move of the reader of trivia: the text it looks at and the piece it gives. -/
inductive Reading (leading : Bool) (state : LexState) : Text → ReadTrivium → Prop
  | disabled {t : Text} (hne : t ≠ []) (hskip : state.skipsLine leading t = true) :
      Reading leading state t (.plain .disabledText (disabledLines t) { state with lineStart := true })
  | newline {c : Char} {rest : Text} (hskip : state.skipsLine leading (c :: rest) = false)
      (hc : isLineBreak c = true) :
      Reading leading state (c :: rest)
        (.plain .newline (lineBreak (c :: rest)) { state with lineStart := true })
  | blank {c : Char} {rest : Text} (hskip : state.skipsLine leading (c :: rest) = false)
      (hb : isLineBreak c = false) (hc : isBlank c = true) :
      Reading leading state (c :: rest)
        (.plain .whitespace (Reader.run (fun d => isBlank d && !isLineBreak d) (c :: rest)) state)
  | line {rest : Text} (hskip : state.skipsLine leading ('/' :: '/' :: rest) = false) :
      Reading leading state ('/' :: '/' :: rest)
        (.plain (lineCommentKind ('/' :: '/' :: rest))
          (Text.currentLine ('/' :: '/' :: rest), Text.afterLine ('/' :: '/' :: rest))
          { state with lineStart := false })
  | block {rest : Text} (hskip : state.skipsLine leading ('/' :: '*' :: rest) = false) :
      Reading leading state ('/' :: '*' :: rest) (.block state ('/' :: '*' :: rest))
  | directive {rest : Text} (hskip : state.skipsLine leading ('#' :: rest) = false)
      (hl : leading = true) (hs : state.lineStart = true) :
      Reading leading state ('#' :: rest) (.directive state ('#' :: rest))

theorem readTrivium_cons (leading : Bool) (state : LexState) (c : Char) (rest : Text) :
    readTrivium leading state (c :: rest) =
      if state.skipsLine leading (c :: rest) then
        some (.plain .disabledText (disabledLines (c :: rest)) { state with lineStart := true })
      else if isLineBreak c then
        some (.plain .newline (lineBreak (c :: rest)) { state with lineStart := true })
      else if isBlank c then
        some (.plain .whitespace (Reader.run (fun d => isBlank d && !isLineBreak d) (c :: rest)) state)
      else if c = '/' ∧ rest.head? = some '/' then
        some (.plain (lineCommentKind (c :: rest))
          (Text.currentLine (c :: rest), Text.afterLine (c :: rest)) { state with lineStart := false })
      else if c = '/' ∧ rest.head? = some '*' then some (.block state (c :: rest))
      else if c = '#' ∧ leading ∧ state.lineStart then some (.directive state (c :: rest))
      else none := rfl

theorem reading_of_readTrivium {leading : Bool} {state : LexState} {t : Text} {r : ReadTrivium}
    (h : readTrivium leading state t = some r) : Reading leading state t r := by
  cases t with
  | nil => simp [readTrivium] at h
  | cons c rest =>
    rw [readTrivium_cons] at h
    split at h
    · next hskip =>
      cases h
      exact .disabled (by simp) hskip
    · next hskip =>
      have hskip : state.skipsLine leading (c :: rest) = false := by simpa using hskip
      split at h
      · next hc =>
        cases h
        exact .newline hskip hc
      · next hb =>
        split at h
        · next hw =>
          cases h
          exact .blank hskip (by simpa using hb) hw
        · split at h
          · next hc =>
            obtain ⟨rfl, hnext⟩ := hc
            obtain ⟨more, rfl⟩ := List.head?_eq_some_iff.mp hnext
            cases h
            exact .line hskip
          · split at h
            · next hc =>
              obtain ⟨rfl, hnext⟩ := hc
              obtain ⟨more, rfl⟩ := List.head?_eq_some_iff.mp hnext
              cases h
              exact .block hskip
            · split at h
              · next hc =>
                obtain ⟨rfl, hl, hs⟩ := hc
                cases h
                exact .directive hskip hl hs
              · simp at h

theorem readTrivium_of_reading {leading : Bool} {state : LexState} {t : Text} {r : ReadTrivium}
    (h : Reading leading state t r) : readTrivium leading state t = some r := by
  cases h with
  | disabled hne hskip =>
    obtain ⟨c, rest, rfl⟩ := List.exists_cons_of_ne_nil hne
    rw [readTrivium_cons, hskip, if_pos rfl]
  | newline hskip hc =>
    rw [readTrivium_cons, hskip, if_neg Bool.false_ne_true, if_pos hc]
  | blank hskip hb hc =>
    rw [readTrivium_cons, hskip, if_neg Bool.false_ne_true, hb, if_neg Bool.false_ne_true, if_pos hc]
  | line hskip =>
    rw [readTrivium_cons, hskip, if_neg Bool.false_ne_true, if_neg (by decide), if_neg (by decide),
      if_pos (by simp)]
  | block hskip =>
    rw [readTrivium_cons, hskip, if_neg Bool.false_ne_true, if_neg (by decide), if_neg (by decide),
      if_neg (by simp), if_pos (by simp)]
  | directive hskip hl hs =>
    rw [readTrivium_cons, hskip, if_neg Bool.false_ne_true, if_neg (by decide), if_neg (by decide),
      if_neg (by simp), if_neg (by simp), if_pos (by simp [hl, hs])]

/-- **These are all the moves.** -/
theorem readTrivium_eq_some_iff {leading : Bool} {state : LexState} {t : Text} {r : ReadTrivium} :
    readTrivium leading state t = some r ↔ Reading leading state t r :=
  ⟨reading_of_readTrivium, readTrivium_of_reading⟩

theorem isLineBreak_eq_false_of_isBlank {c : Char} (h : isBlank c = false) :
    isLineBreak c = false := by
  cases hb : isLineBreak c with
  | false => rfl
  | true => rw [isBlank_of_isLineBreak hb] at h; simp at h

/-- Where no piece is read: the first character starts a token. -/
theorem readTrivium_eq_none_iff {leading : Bool} {state : LexState} {c : Char} {rest : Text} :
    readTrivium leading state (c :: rest) = none ↔
      state.skipsLine leading (c :: rest) = false ∧ isBlank c = false ∧
        (c = '/' → rest.head? ≠ some '/' ∧ rest.head? ≠ some '*') ∧
        (c = '#' → leading = true → state.lineStart = false) := by
  rw [readTrivium_cons]
  cases hskip : state.skipsLine leading (c :: rest) with
  | true => simp
  | false =>
    cases hw : isBlank c with
    | true =>
      simp only [Bool.false_eq_true, if_false, if_true]
      split <;> simp
    | false =>
      have hb := isLineBreak_eq_false_of_isBlank hw
      simp only [hb, Bool.false_eq_true, if_false, true_and]
      by_cases h1 : c = '/' ∧ rest.head? = some '/'
      · simp [h1]
      · by_cases h2 : c = '/' ∧ rest.head? = some '*'
        · simp [h2]
        · by_cases h3 : c = '#' ∧ leading = true ∧ state.lineStart = true
          · simp [h3]
          · rw [if_neg h1, if_neg h2, if_neg h3]
            simp only [true_iff]
            refine ⟨fun hc => ⟨fun hn => h1 ⟨hc, hn⟩, fun hn => h2 ⟨hc, hn⟩⟩, fun hc hl => ?_⟩
            cases hs : state.lineStart with
            | false => rfl
            | true => exact absurd ⟨hc, hl, hs⟩ h3

/-! ## The state after a piece -/

/-- The state after a trivium, whatever text follows it. -/
def LexState.after (state : LexState) (x : Trivium) : LexState :=
  match x.kind with
  | .whitespace => state
  | .newline | .disabledText => { state with lineStart := true }
  | .lineComment | .blockComment | .docLineComment | .docBlockComment =>
    { state with lineStart := false }
  | .directive => { lineStart := false, compilation := (state.compilation.applyLine x.text).1 }

/-- The state after trivia, one after the other. -/
def LexState.afterAll (state : LexState) (trivia : Trivia) : LexState :=
  trivia.foldl LexState.after state

@[simp] theorem LexState.afterAll_nil (state : LexState) : state.afterAll [] = state := rfl

@[simp] theorem LexState.afterAll_cons (state : LexState) (x : Trivium) (xs : Trivia) :
    state.afterAll (x :: xs) = (state.after x).afterAll xs := rfl

@[simp] theorem LexState.afterAll_append (state : LexState) (xs ys : Trivia) :
    state.afterAll (xs ++ ys) = (state.afterAll xs).afterAll ys := by
  simp [LexState.afterAll]

/-- The trivia of a reading, without the notes. -/
def ReadTrivia.trivia (r : ReadTrivia) : Trivia := r.items.map Noted.item

theorem lineCommentKind_eq_or (t : Text) :
    lineCommentKind t = .lineComment ∨ lineCommentKind t = .docLineComment := by
  unfold lineCommentKind
  split <;> simp

theorem blockCommentKind_eq_or (t : Text) :
    blockCommentKind t = .blockComment ∨ blockCommentKind t = .docBlockComment := by
  unfold blockCommentKind
  split <;> simp

@[simp] theorem isComment_lineCommentKind (t : Text) : (lineCommentKind t).isComment = true := by
  rcases lineCommentKind_eq_or t with h | h <;> rw [h] <;> rfl

@[simp] theorem isComment_blockCommentKind (t : Text) : (blockCommentKind t).isComment = true := by
  rcases blockCommentKind_eq_or t with h | h <;> rw [h] <;> rfl

theorem lineCommentKind_ne {t : Text} {kind : TriviumKind} (h : kind.isComment = false) :
    lineCommentKind t ≠ kind := by
  rintro rfl
  simp at h

theorem blockCommentKind_ne {t : Text} {kind : TriviumKind} (h : kind.isComment = false) :
    blockCommentKind t ≠ kind := by
  rintro rfl
  simp at h

/-- Text that is not compiled comes from one move only. -/
theorem Reading.eq_of_disabledText {leading : Bool} {state : LexState} {t : Text} {r : ReadTrivium}
    (h : Reading leading state t r) (hk : r.item.item.kind = .disabledText) :
    t ≠ [] ∧ state.skipsLine leading t = true ∧
      r = .plain .disabledText (disabledLines t) { state with lineStart := true } := by
  cases h with
  | disabled hne hskip => exact ⟨hne, hskip, rfl⟩
  | line => exact absurd hk (lineCommentKind_ne rfl)
  | block => exact absurd hk (blockCommentKind_ne rfl)
  | newline | blank | directive => cases hk

theorem LexState.after_of_isComment {x : Trivium} (h : x.kind.isComment = true)
    (state : LexState) : state.after x = { state with lineStart := false } := by
  unfold LexState.after
  cases hk : x.kind <;> simp [hk, TriviumKind.isComment] at h ⊢

/-- **The state after a move depends on the piece alone.** -/
theorem Reading.state_eq {leading : Bool} {state : LexState} {t : Text} {r : ReadTrivium}
    (h : Reading leading state t r) : r.state = state.after r.item.item := by
  cases h with
  | disabled => rfl
  | newline => rfl
  | blank => rfl
  | line => exact (LexState.after_of_isComment (isComment_lineCommentKind _) state).symm
  | block => exact (LexState.after_of_isComment (isComment_blockCommentKind _) state).symm
  | directive => rfl

theorem state_readTrivia (leading : Bool) (state : LexState) (t : Text) :
    (readTrivia leading state t).state = state.afterAll (readTrivia leading state t).trivia := by
  fun_induction readTrivia leading state t with
  | case1 => rfl
  | case2 state t r h =>
    exact (reading_of_readTrivium h).state_eq
  | case3 state t r h _ more ih =>
    show more.state = (state.after r.item.item).afterAll more.trivia
    rw [← (reading_of_readTrivium h).state_eq]
    exact ih

/-! ## All pieces -/

/-- A token is read only where some text is left. -/
theorem ne_nil_of_readToken {t : Text} {token : ReadToken} (h : readToken t = some token) :
    t ≠ [] := by
  intro hnil
  rw [readToken_eq_none_iff.mpr hnil] at h
  cases h

theorem readTrivia_of_none {leading : Bool} {state : LexState} {t : Text}
    (h : readTrivium leading state t = none) :
    readTrivia leading state t = { items := [], state, rest := t } := by
  rw [readTrivia]
  split
  · rfl
  · next r hr => rw [h] at hr; cases hr

/-- Every trivium that is read is the piece of a reading in the same mode. -/
theorem exists_reading_of_mem {leading : Bool} {state : LexState} {t : Text} {x : Trivium}
    (hx : x ∈ (readTrivia leading state t).trivia) :
    ∃ state' t' r, Reading leading state' t' r ∧ r.item.item = x := by
  fun_induction readTrivia leading state t with
  | case1 => simp [ReadTrivia.trivia] at hx
  | case2 state t r h hk =>
    obtain rfl : x = r.item.item := by simpa [ReadTrivia.trivia] using hx
    exact ⟨state, t, r, reading_of_readTrivium h, rfl⟩
  | case3 state t r h hk more ih =>
    rcases List.mem_cons.mp hx with rfl | hx
    · exact ⟨state, t, r, reading_of_readTrivium h, rfl⟩
    · exact ih hx

/-- In leading mode the reader goes on after each piece. -/
theorem readTrivia_of_reading {state : LexState} {t : Text} {r : ReadTrivium}
    (h : Reading true state t r) :
    readTrivia true state t =
      { readTrivia true r.state r.rest with
        items := r.item :: (readTrivia true r.state r.rest).items } := by
  rw [readTrivia]
  split
  · next hn => rw [readTrivium_of_reading h] at hn; cases hn
  · next r' hr =>
    rw [readTrivium_of_reading h] at hr
    cases hr
    rfl

theorem trivia_readTrivia {state : LexState} {t : Text} {r : ReadTrivium}
    (h : Reading true state t r) :
    (readTrivia true state t).trivia = r.item.item :: (readTrivia true r.state r.rest).trivia := by
  rw [readTrivia_of_reading h]
  rfl

/-- In either mode the piece comes first. -/
theorem trivia_of_reading {leading : Bool} {state : LexState} {t : Text} {r : ReadTrivium}
    (h : Reading leading state t r) :
    ∃ more, (readTrivia leading state t).trivia = r.item.item :: more := by
  rw [readTrivia]
  split
  · next hn => rw [readTrivium_of_reading h] at hn; cases hn
  · next r' hr =>
    rw [readTrivium_of_reading h] at hr
    cases hr
    split
    · exact ⟨[], rfl⟩
    · exact ⟨_, rfl⟩

/-! ## No token in text that is not compiled -/

/-- A conditional directive begins with white space or with `#`. -/
theorem head_of_startsWithConditional {c : Char} {rest : Text}
    (h : startsWithConditional (c :: rest) = true) : isBlank c = true ∨ c = '#' := by
  cases hw : isBlank c with
  | true => exact Or.inl rfl
  | false =>
    have hb := isLineBreak_eq_false_of_isBlank hw
    simp only [startsWithConditional, Text.currentLine, Text.trimStart, Bool.and_eq_true,
      List.takeWhile_cons, hb, Bool.not_false, if_true, List.dropWhile_cons, hw,
      Bool.false_eq_true, if_false, List.head?_cons, beq_iff_eq, Option.some.injEq] at h
    exact Or.inr h.1

/-- Text that is not compiled is met in leading trivia only, at the start of a line or at the end
of one. -/
def LexState.Settled (state : LexState) (leading : Bool) (t : Text) : Prop :=
  state.compilation.isActive = true ∨
    (leading = true ∧ (state.lineStart = true ∨ ∀ c ∈ t.head?, isLineBreak c = true))

/-- In the middle of a line the text is compiled. -/
theorem LexState.Settled.isActive {state : LexState} {leading : Bool} {c : Char} {rest : Text}
    (hs : state.Settled leading (c :: rest)) (hskip : state.skipsLine leading (c :: rest) = false)
    (hw : isBlank c = false) (hc : c ≠ '#') : state.compilation.isActive = true := by
  rcases hs with ha | ⟨hl, hs | hb⟩
  · exact ha
  · cases ha : state.compilation.isActive with
    | true => rfl
    | false =>
      have hcond : startsWithConditional (c :: rest) = true := by
        simpa [LexState.skipsLine, hl, hs, ha] using hskip
      rcases head_of_startsWithConditional hcond with h | h
      · rw [hw] at h
        simp at h
      · exact absurd h hc
  · rw [isBlank_of_isLineBreak (hb c rfl)] at hw
    simp at hw

theorem Reading.settled {leading : Bool} {state : LexState} {t : Text} {r : ReadTrivium}
    (h : Reading leading state t r) (hs : state.Settled leading t) :
    r.state.Settled leading r.rest := by
  cases h with
  | disabled hne hskip =>
    simp only [LexState.skipsLine, Bool.and_eq_true] at hskip
    exact Or.inr ⟨hskip.1.1.1, Or.inl rfl⟩
  | newline hskip hc =>
    rcases hs with ha | ⟨hl, _⟩
    · exact Or.inl ha
    · exact Or.inr ⟨hl, Or.inl rfl⟩
  | blank hskip hb hc =>
    rcases hs with ha | ⟨hl, hs | hb'⟩
    · exact Or.inl ha
    · exact Or.inr ⟨hl, Or.inl hs⟩
    · rw [hb' _ rfl] at hb
      simp at hb
  | line hskip => exact Or.inl (hs.isActive hskip (by decide) (by decide))
  | block hskip => exact Or.inl (hs.isActive hskip (by decide) (by decide))
  | directive hskip hl hls => exact Or.inr ⟨hl, Or.inr (isLineBreak_head_afterLine _)⟩

theorem settled_readTrivia {leading : Bool} {state : LexState} {t : Text}
    (hs : state.Settled leading t) :
    (readTrivia leading state t).state.Settled leading (readTrivia leading state t).rest := by
  fun_induction readTrivia leading state t with
  | case1 => exact hs
  | case2 state t r h => exact (reading_of_readTrivium h).settled hs
  | case3 state t r h _ more ih => exact ih ((reading_of_readTrivium h).settled hs)

/-- A reading in leading mode goes on as long as there is a piece. -/
theorem readTrivium_readTrivia (state : LexState) (t : Text) :
    readTrivium true (readTrivia true state t).state (readTrivia true state t).rest = none := by
  fun_induction readTrivia true state t with
  | case1 state t h => exact h
  | case2 state t r h hk => simp at hk
  | case3 state t r h _ more ih => exact ih

/-- **The lexer stops at a token only in text that is compiled.** -/
theorem isActive_of_token {leading : Bool} {state : LexState} {t : Text}
    (hs : state.Settled leading t) (hnone : readTrivium leading state t = none) (hne : t ≠ []) :
    state.compilation.isActive = true := by
  obtain ⟨c, rest, rfl⟩ := List.exists_cons_of_ne_nil hne
  obtain ⟨hskip, hw, _, hhash⟩ := readTrivium_eq_none_iff.mp hnone
  by_cases hc : c = '#'
  · rcases hs with ha | ⟨hl, hs | hb⟩
    · exact ha
    · rw [hhash hc hl] at hs
      simp at hs
    · rw [isBlank_of_isLineBreak (hb c rfl)] at hw
      simp at hw
  · exact hs.isActive hskip hw hc

/-! ## Between two tokens -/

/-- Off the start of a line both modes read the same piece. -/
theorem readTrivium_of_not_lineStart {state : LexState} (h : state.lineStart = false) (t : Text) :
    readTrivium true state t = readTrivium false state t := by
  cases t with
  | nil => rfl
  | cons c rest =>
    rw [readTrivium_cons, readTrivium_cons]
    simp [LexState.skipsLine, h]

/-- A piece on a token's own line is blank, a comment or the line break. -/
theorem Reading.lineStart_of_trailing {state : LexState} {t : Text} {r : ReadTrivium}
    (h : Reading false state t r) (hs : state.lineStart = false)
    (hk : r.item.item.kind ≠ .newline) : r.state.lineStart = false := by
  cases h with
  | disabled hne hskip => simp [LexState.skipsLine] at hskip
  | newline => exact absurd rfl hk
  | blank => exact hs
  | line => rfl
  | block => rfl
  | directive hskip hl => simp at hl

/-- **What trails a token and what leads the next one are one reading in leading mode.** -/
theorem readTrivia_after_token {state : LexState} (hs : state.lineStart = false) (t : Text) :
    readTrivia true state t =
      { items := (readTrivia false state t).items ++
          (readTrivia true (readTrivia false state t).state (readTrivia false state t).rest).items
        state :=
          (readTrivia true (readTrivia false state t).state (readTrivia false state t).rest).state
        rest := (readTrivia true (readTrivia false state t).state
          (readTrivia false state t).rest).rest } := by
  fun_induction readTrivia false state t with
  | case1 => rfl
  | case2 state t r h hk =>
    rw [← readTrivium_of_not_lineStart hs] at h
    rw [readTrivia_of_reading (reading_of_readTrivium h)]
    rfl
  | case3 state t r h hk more ih =>
    have hr := (reading_of_readTrivium h).lineStart_of_trailing hs (by simpa using hk)
    rw [← readTrivium_of_not_lineStart hs] at h
    rw [readTrivia_of_reading (reading_of_readTrivium h), ih hr]
    rfl

/-- Trailing trivia end with a line break, or nothing leads the next token. -/
theorem trailing_ends {state : LexState} (hs : state.lineStart = false) (t : Text) :
    (∃ before last, (readTrivia false state t).trivia = before ++ [last] ∧ last.kind = .newline) ∨
      ((readTrivia false state t).state.lineStart = false ∧
        readTrivium true (readTrivia false state t).state (readTrivia false state t).rest = none) := by
  fun_induction readTrivia false state t with
  | case1 state t h =>
    rw [← readTrivium_of_not_lineStart hs] at h
    exact Or.inr ⟨hs, h⟩
  | case2 state t r h hk =>
    exact Or.inl ⟨[], r.item.item, rfl, by simpa using hk⟩
  | case3 state t r h hk more ih =>
    have hr := (reading_of_readTrivium h).lineStart_of_trailing hs (by simpa using hk)
    rcases ih hr with ⟨before, last, heq, hlast⟩ | hend
    · refine Or.inl ⟨r.item.item :: before, last, ?_, hlast⟩
      show r.item.item :: more.trivia = _
      rw [heq]
      rfl
    · exact Or.inr hend

/-! ## One terminal -/

theorem lexFrom_of_end {state : LexState} {t : Text} (h : (readTrivia true state t).rest = []) :
    lexFrom state t = [.atEnd (readTrivia true state t)] := by
  rw [lexFrom]
  split
  · rfl
  · next token hsome => exact absurd h (ne_nil_of_readToken hsome)

theorem lexFrom_of_token {state : LexState} {t : Text} {token : ReadToken}
    (h : readToken (readTrivia true state t).rest = some token) :
    lexFrom state t =
      { leading := (readTrivia true state t).items, kind := token.kind, text := token.text,
        fault := token.fault,
        trailing :=
          (readTrivia false (readTrivia true state t).state.afterToken token.rest).items } ::
        lexFrom (readTrivia false (readTrivia true state t).state.afterToken token.rest).state
          (readTrivia false (readTrivia true state t).state.afterToken token.rest).rest := by
  rw [lexFrom]
  split
  · next hnone => rw [h] at hnone; cases hnone
  · next token' hsome =>
    rw [h] at hsome
    cases hsome
    rfl

end Uncomment
