import Uncomment.Proofs.DirectiveLines

/-!
# Texts that are the same up to the end of a line

The lexer never looks beyond the line it is in, except to find the end of what it has begun. So if two
texts are the same up to and including a line break (`SameLine`), and a piece of trivia or a token ends
before that line break, then both texts give the same piece and the same token, **whatever is wrong with
them**: `Reading.of_sameLine`, `readToken_of_sameLine`. What is left of the texts is again the same up to
the end of that line, so this goes on from piece to piece (`readTrivia_of_sameLine`).

Nothing is said about the text after the line break. It may open a comment or a string, or be cut off.
-/

namespace Uncomment

/-- The texts are the same up to a line break, which they have in common. -/
def SameLine (s s' : Text) : Prop :=
  ∃ line rest rest', EndsLine line ∧ s = line ++ rest ∧ s' = line ++ rest'

theorem EndsLine.ne_nil {t : Text} (h : EndsLine t) : t ≠ [] := by
  obtain ⟨before, c, rfl, _⟩ := h
  simp

theorem EndsLine.exists_break {t : Text} (h : EndsLine t) : ∃ c ∈ t, isLineBreak c = true := by
  obtain ⟨before, c, rfl, hc⟩ := h
  exact ⟨c, by simp, hc⟩

theorem EndsLine.tail {c : Char} {t : Text} (h : EndsLine (c :: t)) (hc : isLineBreak c = false) :
    EndsLine t := by
  obtain ⟨before, d, heq, hd⟩ := h
  cases before with
  | nil =>
    cases heq
    rw [hc] at hd
    cases hd
  | cons e more =>
    cases heq
    exact ⟨more, d, rfl, hd⟩

namespace SameLine

variable {s s' : Text}

theorem of_endsLine {line : Text} (h : EndsLine line) (rest rest' : Text) :
    SameLine (line ++ rest) (line ++ rest') :=
  ⟨line, rest, rest', h, rfl, rfl⟩

theorem append (h : SameLine s s') (a : Text) : SameLine (a ++ s) (a ++ s') := by
  obtain ⟨line, rest, rest', hline, rfl, rfl⟩ := h
  exact ⟨a ++ line, rest, rest', hline.append a, by simp, by simp⟩

theorem ne_nil (h : SameLine s s') : s ≠ [] := by
  obtain ⟨line, rest, rest', hline, rfl, rfl⟩ := h
  simp [hline.ne_nil]

theorem head?_eq (h : SameLine s s') : s.head? = s'.head? := by
  obtain ⟨line, rest, rest', hline, rfl, rfl⟩ := h
  obtain ⟨c, more, rfl⟩ := List.exists_cons_of_ne_nil hline.ne_nil
  rfl

/-- In the middle of a line the texts are also the same after the first character. -/
theorem exists_cons {c : Char} {t : Text} (h : SameLine (c :: t) s') (hc : isLineBreak c = false) :
    ∃ t', s' = c :: t' ∧ SameLine t t' := by
  obtain ⟨line, rest, rest', hline, heq, rfl⟩ := h
  obtain ⟨d, more, rfl⟩ := List.exists_cons_of_ne_nil hline.ne_nil
  cases heq
  exact ⟨more ++ rest', rfl, of_endsLine (hline.tail hc) rest rest'⟩

theorem agree (h : SameLine s s') : Agree s s' := by
  obtain ⟨line, rest, rest', ⟨before, c, rfl, hc⟩, rfl, rfl⟩ := h
  have hboundary : ∀ more : Text, Boundary (c :: more) := by
    rintro more d ⟨⟩
    exact Or.inl (isBlank_of_isLineBreak hc)
  rw [List.append_assoc, List.append_assoc]
  exact Agree.append before (.apart (hboundary rest) (hboundary rest') id)

theorem startsWithConditional_eq (h : SameLine s s') :
    startsWithConditional s = startsWithConditional s' := by
  obtain ⟨line, rest, rest', hline, rfl, rfl⟩ := h
  rw [startsWithConditional_of_break hline.exists_break,
    startsWithConditional_of_break hline.exists_break]

theorem skipsLine_eq (h : SameLine s s') (state : LexState) (leading : Bool) :
    state.skipsLine leading s = state.skipsLine leading s' := by
  simp only [LexState.skipsLine, h.startsWithConditional_eq]

end SameLine

/-! ## One piece -/

/-- A line break is no conditional directive, whatever follows it. -/
theorem skipsLine_of_break {c : Char} (hc : isLineBreak c = true) (state : LexState)
    (leading : Bool) (rest rest' : Text) :
    state.skipsLine leading (c :: rest) = state.skipsLine leading (c :: rest') := by
  simp [LexState.skipsLine, startsWithConditional, Text.currentLine, hc]

/-- **A line break is read again** before another text that does not complete it. -/
theorem Reading.newline_append {leading : Bool} {state : LexState} {c : Char} {rest s : Text}
    (hskip : state.skipsLine leading (c :: rest) = false) (hc : isLineBreak c = true)
    (hs : (lineBreak (c :: rest)).1 = ['\r'] → s.head? ≠ some '\n') :
    Reading leading state ((lineBreak (c :: rest)).1 ++ s)
      (.plain .newline ((lineBreak (c :: rest)).1, s) { state with lineStart := true }) := by
  obtain ⟨more, hmore⟩ : ∃ more, (lineBreak (c :: rest)).1 = c :: more := by
    unfold lineBreak Reader.count
    split <;> exact ⟨_, rfl⟩
  have htaken : lineBreak ((lineBreak (c :: rest)).1 ++ s) = ((lineBreak (c :: rest)).1, s) := by
    rcases (isLineBreakText_lineBreak hc rest).1 with htext | ⟨d, htext, _⟩
    · rw [htext]
      exact lineBreak_pair s
    · rw [htext] at hs ⊢
      exact lineBreak_cons_of_ne fun hd => hs (by rw [hd])
  rw [skipsLine_of_break hc state leading rest (more ++ s)] at hskip
  rw [← htaken, hmore]
  exact .newline hskip hc

theorem run_takeWhile_append {p : Char → Bool} (t : Text) {s : Text}
    (hs : ∀ c ∈ s.head?, p c = false) : Reader.run p (t.takeWhile p ++ s) = (t.takeWhile p, s) := by
  have htake : ∀ c ∈ t.takeWhile p, p c = true :=
    fun c hc => List.all_eq_true.mp List.all_takeWhile c hc
  simp only [Reader.run]
  rw [List.takeWhile_append_of_pos htake, List.dropWhile_append_of_pos htake]
  cases s with
  | nil => simp
  | cons c rest => simp [hs c rfl]

/-- The line at the front of a text is the line again before the end of a line. -/
theorem currentLine_taken (t : Text) {s : Text} (hs : ∀ c ∈ s.head?, isLineBreak c = true) :
    Text.currentLine (t.currentLine ++ s) = t.currentLine ∧
      Text.afterLine (t.currentLine ++ s) = s :=
  currentLine_append (fun _ hc => isLineBreak_of_mem_currentLine hc) hs

/-- **A piece that ends before the line does is read again**, with the same fault. -/
theorem Reading.of_sameLine {leading : Bool} {state : LexState} {t s : Text} {r : ReadTrivium}
    (h : Reading leading state t r) (hs : SameLine r.rest s) :
    Reading leading state (r.item.item.text ++ s) { r with rest := s } := by
  have hsound := (sound_readTrivium (readTrivium_of_reading h)).1
  have hskip := (hs.append r.item.item.text).skipsLine_eq state leading
  have hhead := hs.head?_eq
  rw [hsound] at hskip
  cases h with
  | disabled hne hskips =>
    simp only [ReadTrivium.plain] at hs hskip ⊢
    rw [hskips] at hskip
    have hf := (disabledLines_rest t).resolve_left hs.ne_nil
    have hf' := hs.startsWithConditional_eq.symm.trans hf
    have hlines : disabledLines ((disabledLines t).1 ++ s) = ((disabledLines t).1, s) := by
      refine disabledLines_append hf hf' ?_
      rw [append_disabledLines]
    have hagain := Reading.disabled (by simp [disabledLines_ne_nil hne]) hskip.symm
    rw [hlines] at hagain
    exact hagain
  | @newline c rest hskips hc =>
    refine Reading.newline_append hskips hc fun htext => ?_
    rw [← hhead]
    exact (isLineBreakText_lineBreak hc rest).2 htext
  | @blank c rest hskips hb hc =>
    simp only [ReadTrivium.plain, Reader.run] at hskip hhead ⊢
    have hrun : Reader.run (fun d => isBlank d && !isLineBreak d)
        ((c :: rest).takeWhile (fun d => isBlank d && !isLineBreak d) ++ s) =
          ((c :: rest).takeWhile (fun d => isBlank d && !isLineBreak d), s) := by
      refine run_takeWhile_append _ fun d hd => ?_
      have hnot := List.head?_dropWhile_not (fun d => isBlank d && !isLineBreak d) (c :: rest)
      rw [hhead, hd] at hnot
      simpa using hnot
    have htext : (c :: rest).takeWhile (fun d => isBlank d && !isLineBreak d) =
        c :: rest.takeWhile fun d => isBlank d && !isLineBreak d := by simp [hb, hc]
    rw [htext, List.cons_append] at hskip hrun
    rw [htext, List.cons_append]
    have hagain := Reading.blank (hskip.symm.trans hskips) hb hc
    rw [hrun] at hagain
    exact hagain
  | @line rest hskips =>
    simp only [ReadTrivium.plain] at hskip hhead ⊢
    have hbreak := isLineBreak_head_afterLine ('/' :: '/' :: rest)
    rw [hhead] at hbreak
    obtain ⟨hline, hafter⟩ := currentLine_taken ('/' :: '/' :: rest) hbreak
    have hkind : lineCommentKind (Text.currentLine ('/' :: '/' :: rest) ++ s) =
        lineCommentKind ('/' :: '/' :: rest) := by
      rw [lineCommentKind_append hbreak, lineCommentKind_currentLine]
    have htext : Text.currentLine ('/' :: '/' :: rest) = '/' :: '/' :: rest.currentLine := by
      simp [Text.currentLine, isLineBreak]
    rw [htext, List.cons_append, List.cons_append] at hskip hline hafter hkind
    rw [htext, List.cons_append, List.cons_append]
    have hagain := Reading.line (hskip.symm.trans hskips)
    rw [hline, hafter, hkind] at hagain
    exact hagain
  | @block rest hskips =>
    have hclosed : (blockComment ('/' :: '*' :: rest)).closed = true :=
      closed_blockComment (s := s) (Or.inr ⟨hs.ne_nil, hhead⟩)
    have hagain' := blockComment_append hclosed s
    have hkind := blockCommentKind_append (s := s) (length_blockComment hclosed)
    rw [blockCommentKind_taken hclosed] at hkind
    have htext : (blockComment ('/' :: '*' :: rest)).taken = '/' :: '*' :: (blockBody rest).taken :=
      rfl
    simp only [ReadTrivium.block] at hskip ⊢
    rw [htext, List.cons_append, List.cons_append] at hskip hagain' hkind
    rw [htext, List.cons_append, List.cons_append]
    have hagain := Reading.block (hskip.symm.trans hskips)
    simp only [ReadTrivium.block, hagain', hkind] at hagain
    rw [hclosed]
    exact hagain
  | @directive rest hskips hl hls =>
    simp only [ReadTrivium.directive] at hskip hhead ⊢
    have hbreak := isLineBreak_head_afterLine ('#' :: rest)
    rw [hhead] at hbreak
    obtain ⟨hline, hafter⟩ := currentLine_taken ('#' :: rest) hbreak
    have htext : Text.currentLine ('#' :: rest) = '#' :: rest.currentLine := by
      simp [Text.currentLine, isLineBreak]
    rw [htext, List.cons_append] at hskip hline hafter
    rw [htext, List.cons_append]
    have hagain := Reading.directive (hskip.symm.trans hskips) hl hls
    simp only [ReadTrivium.directive, hline, hafter] at hagain
    exact hagain

/-- Where no piece is read, none is read from the other text. -/
theorem readTrivium_of_sameLine {leading : Bool} {state : LexState} {t t' : Text}
    (h : readTrivium leading state t = none) (ht : SameLine t t') :
    readTrivium leading state t' = none := by
  obtain ⟨c, rest, rfl⟩ := List.exists_cons_of_ne_nil ht.ne_nil
  obtain ⟨hskip, hblank, hslash, hhash⟩ := readTrivium_eq_none_iff.mp h
  rw [ht.skipsLine_eq] at hskip
  obtain ⟨rest', rfl, hrest⟩ := ht.exists_cons (isLineBreak_eq_false_of_isBlank hblank)
  rw [hrest.head?_eq] at hslash
  exact readTrivium_eq_none_iff.mpr ⟨hskip, hblank, hslash, hhash⟩

/-! ## All pieces, and a token -/

/-- One move of the reader and the rest, in either mode. -/
theorem readTrivia_step {leading : Bool} {state : LexState} {t : Text} {r : ReadTrivium}
    (h : Reading leading state t r) :
    readTrivia leading state t =
      if !leading && r.item.item.kind == .newline then
        { items := [r.item], state := r.state, rest := r.rest }
      else
        { readTrivia leading r.state r.rest with
          items := r.item :: (readTrivia leading r.state r.rest).items } := by
  rw [readTrivia]
  split
  · next hn => rw [readTrivium_of_reading h] at hn; cases hn
  · next r' hr =>
    rw [readTrivium_of_reading h] at hr
    cases hr
    rfl

/-- **Trivia that end before the line does are read again**, and the reading stops there again. -/
theorem readTrivia_of_sameLine {leading : Bool} {state : LexState} {t s : Text} {r : ReadTrivia}
    (hr : readTrivia leading state t = r) (hs : SameLine r.rest s) :
    readTrivia leading state (notedText r.items ++ s) = { r with rest := s } := by
  subst hr
  fun_induction readTrivia leading state t with
  | case1 state t h => exact readTrivia_of_none (readTrivium_of_sameLine h hs)
  | case2 state t r h hk =>
    have hagain := (reading_of_readTrivium h).of_sameLine hs
    have htext : notedText [r.item] = r.item.item.text := List.append_nil _
    rw [htext, readTrivia_step hagain, if_pos hk]
  | case3 state t r h hk more ih =>
    -- What is left after the piece is the same up to the end of the same line.
    have hcat : notedText more.items ++ more.rest = r.rest := append_readTrivia leading r.state r.rest
    have hrest := hs.append (notedText more.items)
    have hnoted : notedText (r.item :: more.items) = r.item.item.text ++ notedText more.items := rfl
    rw [hcat] at hrest
    have hagain := (reading_of_readTrivium h).of_sameLine hrest
    have hmore : readTrivia leading r.state (notedText more.items ++ s) = { more with rest := s } :=
      ih hs
    rw [hnoted, List.append_assoc, readTrivia_step hagain, if_neg hk]
    simp only [hmore]

/-- **A token that ends before the line does is read again**, also if it has a fault. -/
theorem readToken_of_sameLine {t s : Text} {token : ReadToken} (h : readToken t = some token)
    (hs : SameLine token.rest s) : readToken (token.text ++ s) = some { token with rest := s } :=
  readToken_append h (Or.inr ⟨hs.ne_nil, hs.head?_eq⟩) hs.agree

/-- **A terminal that ends before the line does is read again.** The lexer is then in the same state. -/
theorem lexFrom_of_sameLine {state : LexState} {t s : Text} {token : ReadToken}
    {leading trailing : ReadTrivia} (hleading : readTrivia true state t = leading)
    (htoken : readToken leading.rest = some token)
    (htrailing : readTrivia false leading.state.afterToken token.rest = trailing)
    (hs : SameLine trailing.rest s) :
    lexFrom state (notedText leading.items ++ (token.text ++ (notedText trailing.items ++ s))) =
      { leading := leading.items, kind := token.kind, text := token.text, fault := token.fault,
        trailing := trailing.items } :: lexFrom trailing.state s := by
  have hafter : SameLine token.rest (notedText trailing.items ++ s) := by
    have h := hs.append (notedText trailing.items)
    rwa [← htrailing, append_readTrivia, htrailing] at h
  have hbefore : SameLine leading.rest (token.text ++ (notedText trailing.items ++ s)) := by
    have h := hafter.append token.text
    rwa [(sound_readToken htoken).1] at h
  have hfirst := readTrivia_of_sameLine hleading hbefore
  have hagain : readToken (readTrivia true state
      (notedText leading.items ++ (token.text ++ (notedText trailing.items ++ s)))).rest =
        some { token with rest := notedText trailing.items ++ s } := by
    rw [hfirst]
    exact readToken_of_sameLine htoken hafter
  rw [lexFrom_of_token hagain, hfirst]
  simp only [readTrivia_of_sameLine htrailing hs]

end Uncomment
