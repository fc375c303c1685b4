import Mathlib.Data.List.Find
import Uncomment.Proofs.Agreement
import Uncomment.Proofs.Pieces

/-!
# What a token looks at

All that the reader of a token looks at are the tokens right after it. A token that is complete is
read the same way from texts that agree after it (`readToken_of_agree`). So is a literal that is never
closed, if it stops before the text does: it stops at the end of its line, and then what follows also has
to begin in the same way (`readToken_append`).

Literals may hold white space and slashes, but they have an end of their own; only the quotes at the
end have to be told apart from quotes that follow. In an interpolated string every move takes its
piece whole, and where the string goes on, what follows begins in the same way.
-/

namespace Uncomment

/-! ## Comments and literals -/

/-- What follows a scan may be replaced: the scan is complete, or it stopped before some text and the
other text begins in the same way. -/
def Scan.EndsBefore (scan : Scan) (s : Text) : Prop :=
  scan.closed = true ∨ (scan.rest ≠ [] ∧ scan.rest.head? = s.head?)

/-- Where the scan ends before the text does, it stays the same if what follows is replaced by a text that
agrees. -/
def Steady (f : Text → Scan) (t : Text) : Prop :=
  ∀ s, Agree (f t).rest s → (f t).EndsBefore s → f ((f t).taken ++ s) = { f t with rest := s }

/-- What follows the taken part of a scan can be put in its place. -/
theorem Scan.Covers.agree {scan : Scan} {t s : Text} (h : scan.Covers t) (hs : Agree scan.rest s) :
    Agree t (scan.taken ++ s) := by
  have hagree := hs.append scan.taken
  rwa [h] at hagree

namespace Scan.EndsBefore

variable {scan : Scan} {t s : Text}

theorem of_after {b : Text} (h : (scan.after b).EndsBefore s) : scan.EndsBefore s := h

theorem not_stop_nil : ¬ (Scan.stop []).EndsBefore s := by
  simp [Scan.EndsBefore, Scan.stop]

/-- Where a scan stops, the other text begins with the character it stopped at. -/
theorem of_stop {c : Char} {rest : Text} (h : (Scan.stop (c :: rest)).EndsBefore s) :
    ∃ s', s = c :: s' := by
  rcases h with h | ⟨_, h⟩
  · simp [Scan.stop] at h
  · exact List.head?_eq_some_iff.mp h.symm

/-- The text that is scanned and the other one begin in the same way. -/
theorem head? (h : scan.EndsBefore s) (hcovers : scan.Covers t)
    (hne : scan.closed = true → scan.taken ≠ []) : t.head? = (scan.taken ++ s).head? := by
  by_cases hnil : scan.taken = []
  · rcases h with h | ⟨_, h⟩
    · exact absurd hnil (hne h)
    · rw [Scan.Covers, hnil, List.nil_append] at hcovers
      rw [hnil, ← hcovers, h]
      rfl
  · exact (hcovers.head? hnil s).symm

end Scan.EndsBefore

/-- A body that is read after a number of characters. -/
theorem steady_drop {body : Text → Scan} (hnil : body [] = .stop [])
    (hbody : ∀ t, Steady body t) (n : Nat) (t : Text) :
    Steady (fun u => (body (u.drop n)).after (u.take n)) t := by
  intro s hs hends
  simp only [Scan.after_rest, Scan.after_taken] at hs ⊢
  have hlen : n ≤ t.length := by
    rcases Nat.le_total n t.length with hle | hle
    · exact hle
    · have hstop := hends.of_after
      rw [List.drop_eq_nil_of_le hle, hnil] at hstop
      exact absurd hstop Scan.EndsBefore.not_stop_nil
  have htake : (t.take n).length = n := by simp [hlen]
  rw [List.append_assoc, List.drop_left' htake, List.take_left' htake, hbody _ s hs hends.of_after]
  rfl

/-- A block comment that is not closed goes on to the end of the text. -/
theorem blockBody_rest {t : Text} (h : (blockBody t).closed = false) : (blockBody t).rest = [] := by
  induction t with
  | nil => rfl
  | cons c rest ih =>
    unfold blockBody at h ⊢
    split
    · next hc =>
      rw [if_pos hc] at h
      cases h
    · next hc =>
      rw [if_neg hc] at h
      exact ih h

theorem closed_blockComment {t s : Text} (h : (blockComment t).EndsBefore s) :
    (blockComment t).closed = true := by
  rcases h with h | ⟨hne, _⟩
  · exact h
  · cases hc : (blockComment t).closed with
    | true => rfl
    | false => exact absurd (blockBody_rest hc) hne

theorem steady_blockComment (t : Text) : Steady blockComment t := by
  intro s _ hends
  rw [blockComment_append (closed_blockComment hends) s, ← closed_blockComment hends]

theorem characterBody_escape {d : Char} (hd : isLineBreak d = false) (more : Text) :
    characterBody ('\\' :: d :: more) = (characterBody more).after ['\\', d] := by
  rw [characterBody.eq_def]
  simp [hd, show isLineBreak '\\' = false by decide]

theorem characterBody_escape_break {d : Char} (hd : isLineBreak d = true) (more : Text) :
    characterBody ('\\' :: d :: more) = (Scan.stop (d :: more)).after ['\\'] := by
  rw [characterBody.eq_def]
  simp [hd, show isLineBreak '\\' = false by decide]

theorem characterBody_break {c : Char} (hb : isLineBreak c = true) (rest : Text) :
    characterBody (c :: rest) = .stop (c :: rest) := by
  rw [characterBody.eq_def]
  simp [hb]

theorem characterBody_other {c : Char} (hb : isLineBreak c = false) (hs : c ≠ '\\')
    (hq : c ≠ '\'') (rest : Text) : characterBody (c :: rest) = (characterBody rest).after [c] := by
  rw [characterBody.eq_def]
  simp [hb, hs, hq]

theorem characterBody_quote (rest : Text) : characterBody ('\'' :: rest) = ⟨['\''], rest, true⟩ := by
  rw [characterBody.eq_def]
  simp [show isLineBreak '\'' = false by decide]

theorem steady_characterBody (t : Text) : Steady characterBody t := by
  intro s hs hends
  fun_induction characterBody t with
  | case1 => exact absurd hends Scan.EndsBefore.not_stop_nil
  | case2 c rest hb =>
    obtain ⟨s', rfl⟩ := hends.of_stop
    exact characterBody_break hb s'
  | case3 => exact absurd hends.of_after Scan.EndsBefore.not_stop_nil
  | case4 d more hd =>
    obtain ⟨s', rfl⟩ := hends.of_after.of_stop
    exact characterBody_escape_break hd s'
  | case5 d more hd _ ih =>
    simp only [Scan.after_taken, List.cons_append, List.nil_append]
    rw [characterBody_escape (by simpa using hd), ih hs hends.of_after]
    rfl
  | case6 => exact characterBody_quote s
  | case7 c rest hb hslash hquote ih =>
    simp only [Scan.after_taken, List.cons_append, List.nil_append]
    rw [characterBody_other (by simpa using hb) hslash hquote, ih hs hends.of_after]
    rfl

theorem steady_characterLiteral (t : Text) : Steady characterLiteral t := by
  have hnil : characterBody [] = .stop [] := rfl
  exact steady_drop hnil steady_characterBody 1 t

/-! ## Quotes -/

theorem take_length_takeWhile (p : Char → Bool) (t : Text) :
    t.take (t.takeWhile p).length = t.takeWhile p :=
  (List.prefix_iff_eq_take.mp (List.takeWhile_prefix p)).symm

theorem drop_length_takeWhile (p : Char → Bool) (t : Text) :
    t.drop (t.takeWhile p).length = t.dropWhile p := by
  have h := List.take_append_drop (t.takeWhile p).length t
  rw [take_length_takeWhile] at h
  exact List.append_cancel_left (h.trans List.takeWhile_append_dropWhile.symm)

theorem inner_quote : Inner (· == '"') := inner_beq (by decide) (by decide)

/-- A run of inside characters is the same in texts that agree after it. -/
theorem dropWhile_of_agree {p : Char → Bool} (hp : Inner p) {t s : Text}
    (h : Agree (t.dropWhile p) s) :
    (t.takeWhile p ++ s).takeWhile p = t.takeWhile p ∧ (t.takeWhile p ++ s).dropWhile p = s := by
  have hagree := h.append (t.takeWhile p)
  rw [List.takeWhile_append_dropWhile] at hagree
  have htake := (hagree.takeWhile hp).symm
  have hcat := List.takeWhile_append_dropWhile (p := p) (l := t.takeWhile p ++ s)
  rw [htake] at hcat
  exact ⟨htake, List.append_cancel_left hcat⟩

theorem quoteRun_append {t s : Text} (h : Agree (t.dropWhile (· == '"')) s) :
    quoteRun (quoteRun t ++ s) = quoteRun t ∧ (quoteRun t ++ s).dropWhile (· == '"') = s :=
  dropWhile_of_agree inner_quote h

theorem closingQuotes_raw (quotes : Nat) (t : Text) :
    closingQuotes (.raw quotes) t =
      ⟨quoteRun t, t.dropWhile (· == '"'), decide (quotes ≤ (quoteRun t).length)⟩ := by
  simp only [closingQuotes, quoteRun]
  rw [take_length_takeWhile, drop_length_takeWhile]

/-- The quotes inside a literal, before another text that agrees. -/
theorem closingQuotes_append (style : StringStyle) (rest : Text) {s : Text}
    (h : Agree (closingQuotes style ('"' :: rest)).rest s) :
    closingQuotes style ((closingQuotes style ('"' :: rest)).taken ++ s) =
      { closingQuotes style ('"' :: rest) with rest := s } := by
  cases style with
  | regular => simp [closingQuotes]
  | verbatim =>
    by_cases hn : rest.head? = some '"'
    · obtain ⟨more, rfl⟩ := List.head?_eq_some_iff.mp hn
      simp [closingQuotes]
    · simp only [closingQuotes, List.drop_succ_cons, List.drop_zero, if_neg hn] at h
      have hs : s.head? ≠ some '"' := fun hs =>
        hn ((h.head?_eq_some_iff (by decide) (by decide)).mpr hs)
      simp [closingQuotes, hn, hs]
  | raw quotes =>
    rw [closingQuotes_raw] at h ⊢
    obtain ⟨hrun, hrest⟩ := quoteRun_append h
    simp only [closingQuotes_raw, hrun, hrest]

theorem openingQuotes_append (verbatim : Bool) {t s : Text} (ht : t ≠ [])
    (h : Agree (openingQuotes verbatim t).2.2 s) :
    openingQuotes verbatim ((openingQuotes verbatim t).2.1 ++ s) =
      ((openingQuotes verbatim t).1, (openingQuotes verbatim t).2.1, s) := by
  have hagree := h.append (openingQuotes verbatim t).2.1
  rw [append_openingQuotes] at hagree
  have hrun : quoteRun ((openingQuotes verbatim t).2.1 ++ s) = quoteRun t :=
    (hagree.takeWhile inner_quote).symm
  have hlen : (quoteRun t).length ≤ t.length := (List.takeWhile_prefix _).length_le
  have hone : 1 ≤ t.length := List.length_pos_iff.mpr ht
  -- Both texts begin with the same run of quotes, so the style is decided in the same way.
  by_cases hraw : (3 ≤ (quoteRun t).length && !verbatim) = true
  · have heq : openingQuotes verbatim t =
        (.raw (quoteRun t).length, t.take (quoteRun t).length, t.drop (quoteRun t).length) := by
      simp only [openingQuotes, hraw, if_true]
    rw [heq] at hrun ⊢
    simp only [openingQuotes, hrun, hraw, if_true]
    rw [List.take_left' (by simp [hlen]), List.drop_left' (by simp [hlen])]
  · have heq : openingQuotes verbatim t =
        (if verbatim then .verbatim else .regular, t.take 1, t.drop 1) := by
      simp only [openingQuotes, hraw, Bool.false_eq_true, if_false]
    rw [heq] at hrun ⊢
    simp only [openingQuotes, hrun, hraw, Bool.false_eq_true, if_false]
    rw [List.take_left' (by simp [hone]), List.drop_left' (by simp [hone])]

/-! ## String literals -/

theorem stringBody_escape {d : Char} (hd : isLineBreak d = false) (more : Text) :
    stringBody .regular ('\\' :: d :: more) = (stringBody .regular more).after ['\\', d] := by
  rw [stringBody.eq_def]
  simp [hd, show isLineBreak '\\' = false by decide]

theorem stringBody_escape_break {d : Char} (hd : isLineBreak d = true) (more : Text) :
    stringBody .regular ('\\' :: d :: more) = (Scan.stop (d :: more)).after ['\\'] := by
  rw [stringBody.eq_def]
  simp [hd, show isLineBreak '\\' = false by decide]

theorem stringBody_break {c : Char} (hb : isLineBreak c = true) (rest : Text) :
    stringBody .regular (c :: rest) = .stop (c :: rest) := by
  rw [stringBody.eq_def]
  simp [hb]

theorem stringBody_quote (style : StringStyle) (rest : Text) :
    stringBody style ('"' :: rest) =
      if (closingQuotes style ('"' :: rest)).closed then closingQuotes style ('"' :: rest)
      else (stringBody style (closingQuotes style ('"' :: rest)).rest).after
        (closingQuotes style ('"' :: rest)).taken := by
  rw [stringBody.eq_def]
  simp [show isLineBreak '"' = false by decide]

theorem stringBody_other {style : StringStyle} {c : Char}
    (hb : ¬(isLineBreak c = true ∧ style = .regular)) (hs : ¬(c = '\\' ∧ style = .regular))
    (hq : c ≠ '"') (rest : Text) :
    stringBody style (c :: rest) = (stringBody style rest).after [c] := by
  rw [stringBody.eq_def]
  simp only [if_neg hb, if_neg hs, if_neg hq]

/-- The quotes inside a literal begin with a quote. -/
theorem closingQuotes_taken_cons (style : StringStyle) (rest : Text) :
    ∃ more, (closingQuotes style ('"' :: rest)).taken = '"' :: more := by
  have hcat := covers_closingQuotes style ('"' :: rest)
  have hne := closingQuotes_taken_ne_nil style rest
  obtain ⟨c, more, hc⟩ := List.exists_cons_of_ne_nil hne
  rw [Scan.Covers, hc, List.cons_append, List.cons.injEq] at hcat
  exact ⟨more, by rw [hc, hcat.1]⟩

/-- The body of a literal that begins with quotes, before another text that agrees. -/
theorem stringBody_quotes_append (style : StringStyle) (rest : Text) {s : Text}
    (h : Agree (closingQuotes style ('"' :: rest)).rest s) :
    stringBody style ((closingQuotes style ('"' :: rest)).taken ++ s) =
      if (closingQuotes style ('"' :: rest)).closed then
        { closingQuotes style ('"' :: rest) with rest := s }
      else (stringBody style s).after (closingQuotes style ('"' :: rest)).taken := by
  have hquotes := closingQuotes_append style rest h
  obtain ⟨more, hmore⟩ := closingQuotes_taken_cons style rest
  rw [hmore, List.cons_append] at hquotes ⊢
  rw [stringBody_quote, hquotes]
  simp only [hmore]

theorem steady_stringBody (style : StringStyle) (t : Text) : Steady (stringBody style) t := by
  intro s hs hends
  fun_induction stringBody style t with
  | case1 => exact absurd hends Scan.EndsBefore.not_stop_nil
  | case2 c rest hb =>
    obtain ⟨hb, rfl⟩ := hb
    obtain ⟨s', rfl⟩ := hends.of_stop
    exact stringBody_break hb s'
  | case3 => exact absurd hends.of_after Scan.EndsBefore.not_stop_nil
  | case4 c hb hc d more hd =>
    obtain ⟨rfl, rfl⟩ := hc
    obtain ⟨s', rfl⟩ := hends.of_after.of_stop
    exact stringBody_escape_break hd s'
  | case5 c hb hc d more hd ih =>
    obtain ⟨rfl, rfl⟩ := hc
    simp only [Scan.after_taken, List.cons_append, List.nil_append]
    rw [stringBody_escape (by simpa using hd), ih hs hends.of_after]
    rfl
  | case6 rest quotes hclosed =>
    rw [stringBody_quotes_append style rest hs, if_pos hclosed]
  | case7 rest quotes hclosed _ _ ih =>
    -- What follows the quotes is the rest of the body, which agrees with its replacement.
    have hagree := (covers_stringBody style quotes.rest).agree hs
    simp only [Scan.after_taken, List.append_assoc]
    rw [stringBody_quotes_append style rest hagree, if_neg hclosed, ih hs hends.of_after]
    rfl
  | case8 c rest hb hslash hquote ih =>
    simp only [Scan.after_taken, List.cons_append, List.nil_append]
    rw [stringBody_other hb hslash hquote, ih hs hends.of_after]
    rfl

/-- A body that is read after its opening quotes. -/
theorem steady_opened (verbatim : Bool) {t : Text} (ht : t ≠ []) :
    Steady (fun u => (stringBody (openingQuotes verbatim u).1 (openingQuotes verbatim u).2.2).after
      (openingQuotes verbatim u).2.1) t := by
  intro s hs hends
  simp only [Scan.after_rest, Scan.after_taken] at hs ⊢
  have hagree := (covers_stringBody _ _).agree hs
  rw [List.append_assoc, openingQuotes_append verbatim ht hagree,
    steady_stringBody _ _ s hs hends.of_after]
  rfl

theorem stringLiteral_verbatim (rest : Text) :
    stringLiteral ('@' :: rest) =
      ((stringBody (openingQuotes true rest).1 (openingQuotes true rest).2.2).after
        (openingQuotes true rest).2.1).after ['@'] := by
  simp [stringLiteral, Scan.after]

theorem stringLiteral_other {c : Char} (hc : c ≠ '@') (rest : Text) :
    stringLiteral (c :: rest) =
      (stringBody (openingQuotes false (c :: rest)).1 (openingQuotes false (c :: rest)).2.2).after
        (openingQuotes false (c :: rest)).2.1 := by
  have hne : (some c == some '@') = false := by simpa using hc
  simp [stringLiteral, hne]

theorem steady_stringLiteral (c : Char) (rest : Text) : Steady stringLiteral (c :: rest) := by
  intro s hs hends
  by_cases hc : c = '@'
  · subst hc
    rw [stringLiteral_verbatim] at hs hends ⊢
    have hne : rest ≠ [] := by
      rintro rfl
      have hnil : stringBody .verbatim [] = .stop [] := by rw [stringBody]
      have hstop : (stringBody .verbatim []).EndsBefore s := hends
      rw [hnil] at hstop
      exact absurd hstop Scan.EndsBefore.not_stop_nil
    have hopened := steady_opened true hne s hs hends.of_after
    simp only [Scan.after_taken, List.cons_append, List.nil_append, List.append_assoc]
      at hopened ⊢
    rw [stringLiteral_verbatim, hopened]
    rfl
  · have hhead := (covers_stringLiteral (c :: rest)).head? (stringLiteral_taken_ne_nil c rest) s
    obtain ⟨more, hmore⟩ := List.head?_eq_some_iff.mp hhead
    rw [stringLiteral_other hc] at hs hends hmore ⊢
    have hopened := steady_opened false (List.cons_ne_nil c rest) s hs hends
    rw [hmore] at hopened ⊢
    rw [stringLiteral_other hc]
    exact hopened

/-! ## Interpolated strings -/

theorem stringMarks_of_agree {s t : Text} (h : Agree s t) : stringMarks s = stringMarks t :=
  h.takeWhile inner_isMark

theorem drop_stringMarks (t : Text) :
    t.drop (stringMarks t).length = t.dropWhile fun c => c == '$' || c == '@' :=
  drop_length_takeWhile _ t

theorem startsInterpolated_of_agree {s t : Text} (h : Agree s t) :
    startsInterpolated s = startsInterpolated t := by
  have hquote := (h.dropWhile inner_isMark).head?_eq_some_iff (d := '"') (by decide) (by decide)
  simp only [startsInterpolated, drop_stringMarks]
  rw [stringMarks_of_agree h, Bool.eq_iff_iff]
  simp only [Bool.and_eq_true, beq_iff_eq, hquote]

theorem drop_stringMarks_ne_nil {t : Text} (h : startsInterpolated t = true) :
    t.drop (stringMarks t).length ≠ [] := by
  simp only [startsInterpolated, Bool.and_eq_true, beq_iff_eq] at h
  intro hnil
  rw [hnil] at h
  simp at h

theorem openingInterpolated_append {t s : Text} (ht : startsInterpolated t = true)
    (h : Agree (openingInterpolated t).2.2 s) :
    openingInterpolated ((openingInterpolated t).2.1 ++ s) =
      ((openingInterpolated t).1, (openingInterpolated t).2.1, s) := by
  have hagree := h.append (openingInterpolated t).2.1
  rw [append_openingInterpolated] at hagree
  have hmarks := (stringMarks_of_agree hagree).symm
  have hquotes := openingQuotes_append ((stringMarks t).contains '@') (drop_stringMarks_ne_nil ht) h
  simp only [openingInterpolated, List.append_assoc] at hmarks ⊢
  rw [hmarks, List.drop_left, hquotes]

theorem runLength_of_agree {d : Char} (hb : isBlank d = false) (hd : d ≠ '/') {s t : Text}
    (h : Agree s t) : runLength d s = runLength d t := by
  simp only [runLength, h.takeWhile (inner_beq hb hd)]

theorem runLength_le (c : Char) (t : Text) : runLength c t ≤ t.length :=
  (List.takeWhile_prefix _).length_le

/-- A number of characters is taken off another text that begins with them. -/
theorem take_drop_append {a b s : Text} {n : Nat} (hn : n ≤ (a ++ b).length)
    (h : (a ++ b).take n = a) : (a ++ s).take n = a ∧ (a ++ s).drop n = s := by
  have hlen : a.length = n := by
    have := congrArg List.length h
    rw [List.length_take, Nat.min_eq_left hn] at this
    exact this.symm
  exact ⟨List.take_left' hlen, List.drop_left' hlen⟩

/-- A single character is taken before any text. -/
theorem single_append {c : Char} {more rest s : Text} {stay frames : List Frame}
    (h : Move.go [c] (more ++ rest) stay = .go (c :: more) rest frames) :
    Move.go [c] (more ++ s) stay = .go (c :: more) s frames := by
  simp only [Move.go.injEq, List.cons.injEq, true_and] at h
  obtain ⟨rfl, _, rfl⟩ := h
  rfl

/-- So is a number of characters that are there. -/
theorem taken_append {a rest s : Text} {n : Nat} {stay frames : List Frame}
    (hn : n ≤ (a ++ rest).length)
    (h : Move.go ((a ++ rest).take n) ((a ++ rest).drop n) stay = .go a rest frames) :
    Move.go ((a ++ s).take n) ((a ++ s).drop n) stay = .go a s frames := by
  simp only [Move.go.injEq] at h
  obtain ⟨htake, _, rfl⟩ := h
  obtain ⟨htake', hdrop'⟩ := take_drop_append hn htake
  rw [htake', hdrop']

/-- A brace in a regular or verbatim string is escaped by a second one. -/
theorem brace_append {more rest s : Text} {n : Nat} {stay hole frames : List Frame}
    (hn : n ≤ ('{' :: more ++ rest).length)
    (h : (if 2 ≤ n then Move.go (('{' :: more ++ rest).take 2) (('{' :: more ++ rest).drop 2) stay
      else .go ['{'] (more ++ rest) hole) = .go ('{' :: more) rest frames) :
    (if 2 ≤ n then Move.go (('{' :: more ++ s).take 2) (('{' :: more ++ s).drop 2) stay
      else .go ['{'] (more ++ s) hole) = .go ('{' :: more) s frames := by
  split at h
  · next h2 =>
    rw [if_pos h2]
    exact taken_append (Nat.le_trans h2 hn) h
  · next h2 =>
    rw [if_neg h2]
    exact single_append h

/-- A backslash takes the next character with it, unless the text or the line ends there. -/
def escapeMove (stay : List Frame) (c : Char) : Text → Move
  | [] => .go [c] [] stay
  | d :: more => if isLineBreak d then .go [c] (d :: more) stay else .go [c, d] more stay

theorem escape_append {c : Char} {more rest s : Text} {stay frames : List Frame}
    (h : escapeMove stay c (more ++ rest) = .go (c :: more) rest frames)
    (hhead : frames ≠ [] → rest.head? = s.head?) (hstay : stay ≠ []) :
    escapeMove stay c (more ++ s) = .go (c :: more) s frames := by
  cases more with
  | nil =>
    -- The backslash is taken alone, so the text or the line ends after it.
    cases rest with
    | nil =>
      cases h
      obtain rfl : s = [] := List.head?_eq_none_iff.mp (hhead hstay).symm
      rfl
    | cons d rest =>
      simp only [escapeMove, List.nil_append] at h ⊢
      split at h
      · next hd =>
        cases h
        obtain ⟨s', rfl⟩ := List.head?_eq_some_iff.mp (hhead hstay).symm
        simp [hd]
      · simp at h
  | cons d more =>
    simp only [escapeMove, List.cons_append] at h ⊢
    split at h
    · simp at h
    · next hd =>
      rw [if_neg hd]
      simp only [Move.go.injEq, List.cons.injEq, true_and] at h
      obtain ⟨rfl, _, rfl⟩ := h
      rfl

/-- A move in a body, before another text that agrees. Where the string goes on, its next character
has to be the same. -/
theorem Frame.moveInBody_append {style : StringStyle} {dollars : Nat} {outer frames : List Frame}
    {t taken rest s : Text} (h : moveInBody style dollars outer t = .go taken rest frames)
    (hs : Agree rest s) (hhead : frames ≠ [] → rest.head? = s.head?) :
    moveInBody style dollars outer (taken ++ s) = .go taken s frames := by
  have hsound := sound_moveInBody style dollars outer t
  rw [h] at hsound
  obtain ⟨rfl, hne⟩ := hsound
  obtain ⟨c, more, rfl⟩ := List.exists_cons_of_ne_nil hne
  simp only [moveInBody, List.cons_append] at h ⊢
  split at h
  · cases h
  · next hbreak =>
    rw [if_neg hbreak]
    split at h
    · next hescape =>
      rw [if_pos hescape]
      exact escape_append h hhead (by simp)
    · next hescape =>
      rw [if_neg hescape]
      split at h
      · next hquote =>
        subst hquote
        rw [if_pos rfl]
        simp only [Move.go.injEq] at h
        obtain ⟨htaken, hrest, rfl⟩ := h
        have hquotes := closingQuotes_append style (more ++ rest) (s := s) (by rwa [hrest])
        rw [htaken, List.cons_append] at hquotes
        rw [hquotes]
        simp only [htaken]
      · next hquote =>
        rw [if_neg hquote]
        split at h
        · next hbrace =>
          subst hbrace
          rw [if_pos rfl]
          have hrun : runLength '{' ('{' :: (more ++ s)) = runLength '{' ('{' :: (more ++ rest)) :=
            (runLength_of_agree (by decide) (by decide) (hs.append ('{' :: more))).symm
          have hle := runLength_le '{' ('{' :: (more ++ rest))
          rw [hrun]
          cases style with
          | raw quotes => exact taken_append (a := '{' :: more) hle h
          | regular => exact brace_append hle h
          | verbatim => exact brace_append hle h
        · next hbrace =>
          rw [if_neg hbrace]
          exact single_append h

/-- A piece that has to be closed, before another text that agrees. -/
theorem nested_append {f : Text → Scan} {t taken rest s : Text} {stay frames : List Frame}
    (hf : Steady f t) (h : Move.nested stay (f t) = .go taken rest frames) (hs : Agree rest s) :
    Move.nested stay (f (taken ++ s)) = .go taken s frames := by
  unfold Move.nested at h
  split at h
  · next hclosed =>
    simp only [Move.go.injEq] at h
    obtain ⟨rfl, rfl, rfl⟩ := h
    rw [hf s hs (Or.inl hclosed)]
    simp [Move.nested, hclosed]
  · cases h

/-- So is a piece that is not closed, if it ends before the text does. -/
theorem nested_stop_append {f : Text → Scan} {t s : Text} {scan : Scan} {stay : List Frame}
    (hf : Steady f t) (h : Move.nested stay (f t) = .stop scan) (hs : Agree scan.rest s)
    (hends : scan.EndsBefore s) :
    Move.nested stay (f (scan.taken ++ s)) = .stop { scan with rest := s } := by
  unfold Move.nested at h
  split at h
  · cases h
  · next hclosed =>
    cases h
    rw [hf s hs hends]
    simp [Move.nested, hclosed]

/-- A line comment in a hole ends where its line does. -/
theorem currentLine_move_append {t taken rest s : Text} {stay frames : List Frame}
    (h : Move.go (Text.currentLine t) (Text.afterLine t) stay = .go taken rest frames)
    (hhead : rest.head? = s.head?) :
    Move.go (Text.currentLine (taken ++ s)) (Text.afterLine (taken ++ s)) stay =
      .go taken s frames := by
  simp only [Move.go.injEq] at h
  obtain ⟨rfl, rfl, rfl⟩ := h
  have hbreak : ∀ d ∈ s.head?, isLineBreak d = true := by
    rw [← hhead]
    exact isLineBreak_head_afterLine t
  obtain ⟨hline, hafter⟩ := currentLine_append (fun d hd => isLineBreak_of_mem_currentLine hd) hbreak
  rw [hline, hafter]

/-- An interpolated string in a hole is opened by the same marks and quotes. -/
theorem opening_move_append {t taken rest s : Text} {stay frames : List Frame}
    (hmarks : startsInterpolated t = true)
    (h : Move.go (openingInterpolated t).2.1 (openingInterpolated t).2.2
      ((openingInterpolated t).1 :: stay) = .go taken rest frames) (hs : Agree rest s) :
    Move.go (openingInterpolated (taken ++ s)).2.1 (openingInterpolated (taken ++ s)).2.2
      ((openingInterpolated (taken ++ s)).1 :: stay) = .go taken s frames := by
  simp only [Move.go.injEq] at h
  obtain ⟨rfl, rfl, rfl⟩ := h
  rw [openingInterpolated_append hmarks hs]

/-- Where a hole is closed, all braces that close it are taken. -/
theorem closingBrace_append {dollars depth : Nat} {outer frames : List Frame} {more rest s : Text}
    (h : Frame.moveInHole dollars depth outer ('}' :: (more ++ rest)) =
      .go ('}' :: more) rest frames) (hs : Agree rest s) :
    Frame.moveInHole dollars depth outer ('}' :: (more ++ s)) = .go ('}' :: more) s frames := by
  have hrun : runLength '}' ('}' :: (more ++ s)) = runLength '}' ('}' :: (more ++ rest)) :=
    (runLength_of_agree (by decide) (by decide) (hs.append ('}' :: more))).symm
  have hle := runLength_le '}' ('}' :: (more ++ rest))
  simp only [Frame.moveInHole] at h ⊢
  rw [if_neg (by decide), if_pos trivial] at h ⊢
  cases depth with
  | zero =>
    simp only [hrun]
    exact taken_append (a := '}' :: more) (Nat.le_trans (Nat.min_le_left _ _) hle) h
  | succ depth => exact single_append h

/-- A move in a hole, before another text that agrees, with the same condition. -/
theorem Frame.moveInHole_append {dollars depth : Nat} {outer frames : List Frame}
    {t taken rest s : Text} (h : moveInHole dollars depth outer t = .go taken rest frames)
    (hs : Agree rest s) (hhead : frames ≠ [] → rest.head? = s.head?) :
    moveInHole dollars depth outer (taken ++ s) = .go taken s frames := by
  have hsound := sound_moveInHole dollars depth outer t
  rw [h] at hsound
  obtain ⟨rfl, hne⟩ := hsound
  obtain ⟨c, more, rfl⟩ := List.exists_cons_of_ne_nil hne
  by_cases hclose : c = '}'
  · subst hclose
    exact closingBrace_append h hs
  have hnext : frames ≠ [] → (more ++ s).head? = (more ++ rest).head? := by
    intro hframes
    cases more with
    | nil => exact (hhead hframes).symm
    | cons d more => rfl
  have hquote : (more ++ s).head? = some '"' ↔ (more ++ rest).head? = some '"' :=
    ((hs.append more).head?_eq_some_iff (by decide) (by decide)).symm
  have hmarks : startsInterpolated (c :: (more ++ s)) = startsInterpolated (c :: (more ++ rest)) :=
    (startsInterpolated_of_agree (hs.append (c :: more))).symm
  simp only [moveInHole, List.cons_append, if_neg hclose] at h ⊢
  simp only [hquote, hmarks]
  split at h
  · next hopen =>
    rw [if_pos hopen]
    exact single_append h
  · next hopen =>
    rw [if_neg hopen]
    split at h
    · next hstring =>
      rw [if_pos hstring]
      exact nested_append (steady_stringLiteral c _) h hs
    · next hstring =>
      rw [if_neg hstring]
      split at h
      · next hchar =>
        rw [if_pos hchar]
        exact nested_append (steady_characterLiteral _) h hs
      · next hchar =>
        rw [if_neg hchar]
        split at h
        · next hinter =>
          rw [if_pos hinter]
          exact opening_move_append hinter.2 h hs
        · next hinter =>
          rw [if_neg hinter]
          -- From here on the string goes on, so the character after the first one is the same.
          have hframes : frames ≠ [] := by
            rintro rfl
            simp only [Move.nested] at h
            split at h
            · simp at h
            · split at h
              · split at h <;> simp at h
              · simp at h
          simp only [hnext hframes]
          split at h
          · next hline =>
            rw [if_pos hline]
            exact currentLine_move_append h (hhead hframes)
          · next hline =>
            rw [if_neg hline]
            split at h
            · next hblock =>
              rw [if_pos hblock]
              exact nested_append (steady_blockComment _) h hs
            · next hblock =>
              rw [if_neg hblock]
              exact single_append h

theorem Frame.move_append {frame : Frame} {outer frames : List Frame} {t taken rest s : Text}
    (h : frame.move outer t = .go taken rest frames) (hs : Agree rest s)
    (hhead : frames ≠ [] → rest.head? = s.head?) :
    frame.move outer (taken ++ s) = .go taken s frames := by
  cases frame with
  | body style dollars => exact moveInBody_append h hs hhead
  | hole dollars depth => exact moveInHole_append h hs hhead

theorem closed_of_nested {stay : List Frame} {scan scan' : Scan}
    (h : Move.nested stay scan = .stop scan') : scan'.closed = false := by
  unfold Move.nested at h
  split at h
  · cases h
  · next hclosed =>
    cases h
    simpa using hclosed

/-- Where the body of a string stops, it stops at the end of its line or of the text. -/
theorem Frame.moveInBody_stop {style : StringStyle} {dollars : Nat} {outer : List Frame} {t : Text}
    {scan : Scan} (h : moveInBody style dollars outer t = .stop scan) :
    scan = .stop t ∧ ∀ c ∈ t.head?, isLineBreak c = true ∧ style = .regular := by
  cases t with
  | nil =>
    cases h
    exact ⟨rfl, nofun⟩
  | cons c rest =>
    simp only [moveInBody] at h
    split at h
    · next hb =>
      cases h
      exact ⟨rfl, fun d hd => by cases hd; exact hb⟩
    · split at h
      · split at h
        · cases h
        · split at h <;> cases h
      · split at h
        · cases h
        · split at h
          · split at h
            · cases h
            all_goals split at h <;> cases h
          · cases h

/-- A string that stops is not closed. -/
theorem Frame.closed_of_stop {frame : Frame} {outer : List Frame} {t : Text} {scan : Scan}
    (h : frame.move outer t = .stop scan) : scan.closed = false := by
  cases frame with
  | body style dollars =>
    rw [(moveInBody_stop h).1]
    rfl
  | hole dollars depth =>
    simp only [move, moveInHole] at h
    split at h
    · cases h; rfl
    · split at h
      · cases h
      · split at h
        · split at h <;> cases h
        · split at h
          · exact closed_of_nested h
          · split at h
            · exact closed_of_nested h
            · split at h
              · cases h
              · split at h
                · cases h
                · split at h
                  · exact closed_of_nested h
                  · cases h

/-- A hole stops with a literal or a comment that is not closed. Before another text that agrees and begins
in the same way it stops again. -/
theorem Frame.moveInHole_stop_append {dollars depth : Nat} {outer : List Frame} {t s : Text}
    {scan : Scan} (h : moveInHole dollars depth outer t = .stop scan) (hs : Agree scan.rest s)
    (hends : scan.EndsBefore s) :
    moveInHole dollars depth outer (scan.taken ++ s) = .stop { scan with rest := s } := by
  cases t with
  | nil =>
    cases h
    exact absurd hends Scan.EndsBefore.not_stop_nil
  | cons c rest =>
    have hcovers := sound_moveInHole dollars depth outer (c :: rest)
    rw [h] at hcovers
    have hagree : Agree (c :: rest) (scan.taken ++ s) := hcovers.agree hs
    simp only [moveInHole] at h
    split at h
    · cases h
    · next hopen =>
      split at h
      · split at h <;> cases h
      · next hclose =>
        split at h
        · next hstring =>
          -- The literal begins in the same way, so it is found again.
          have hinner : isBlank c = false ∧ c ≠ '/' := by
            rcases hstring with rfl | ⟨rfl, _⟩ <;> decide
          obtain ⟨more, hmore, hrest⟩ := hagree.eq_cons hinner.1 hinner.2
          have hquote := hrest.head?_eq_some_iff (d := '"') (by decide) (by decide)
          rw [hquote] at hstring
          have hnested := nested_stop_append (steady_stringLiteral c rest) h hs hends
          rw [hmore] at hnested ⊢
          simp only [moveInHole]
          rw [if_neg hopen, if_neg hclose, if_pos hstring, hnested]
        · next hstring =>
          split at h
          · next hchar =>
            subst hchar
            obtain ⟨more, hmore, hrest⟩ := hagree.eq_cons (by decide) (by decide)
            have hnested := nested_stop_append (steady_characterLiteral _) h hs hends
            rw [hmore] at hnested ⊢
            simp only [moveInHole]
            rw [if_neg hopen, if_neg hclose, if_neg (by simp), if_pos trivial, hnested]
          · split at h
            · cases h
            · split at h
              · cases h
              · split at h
                · -- A comment that is not closed goes on to the end of the text.
                  have hclosed := closed_of_nested h
                  unfold Move.nested at h
                  split at h
                  · cases h
                  · cases h
                    rw [closed_blockComment hends] at hclosed
                    cases hclosed
                · cases h

theorem Frame.stop_append {frame : Frame} {outer : List Frame} {t s : Text} {scan : Scan}
    (h : frame.move outer t = .stop scan) (hs : Agree scan.rest s) (hends : scan.EndsBefore s) :
    frame.move outer (scan.taken ++ s) = .stop { scan with rest := s } := by
  cases frame with
  | body style dollars =>
    obtain ⟨rfl, hbreak⟩ := moveInBody_stop h
    cases t with
    | nil => exact absurd hends Scan.EndsBefore.not_stop_nil
    | cons c rest =>
      obtain ⟨s', rfl⟩ := hends.of_stop
      simp [move, moveInBody, Scan.stop, hbreak c rfl]
  | hole dollars depth => exact moveInHole_stop_append h hs hends

theorem scanFrames_stop {frame : Frame} {outer : List Frame} {t : Text} {scan : Scan}
    (h : frame.move outer t = .stop scan) : scanFrames (frame :: outer) t = scan := by
  rw [scanFrames]
  split
  · next heq => rw [h] at heq; cases heq; rfl
  · next heq => rw [h] at heq; cases heq

theorem scanFrames_go {frame : Frame} {outer frames : List Frame} {t taken rest : Text}
    (h : frame.move outer t = .go taken rest frames) :
    scanFrames (frame :: outer) t = (scanFrames frames rest).after taken := by
  rw [scanFrames]
  split
  · next heq => rw [h] at heq; cases heq
  · next heq => rw [h] at heq; cases heq; rfl

/-- What closes an open string is not empty. -/
theorem scanFrames_taken_ne_nil {frames : List Frame} {t : Text} (hne : frames ≠ [])
    (h : (scanFrames frames t).closed = true) : (scanFrames frames t).taken ≠ [] := by
  cases frames with
  | nil => exact absurd rfl hne
  | cons frame outer =>
    cases hmove : frame.move outer t with
    | stop scan =>
      rw [scanFrames_stop hmove, Frame.closed_of_stop hmove] at h
      simp at h
    | go taken rest frames =>
      have hsound := frame.sound_move outer t
      rw [hmove] at hsound
      rw [scanFrames_go hmove, Scan.after_taken]
      simp [hsound.2]

theorem steady_scanFrames (frames : List Frame) (t : Text) : Steady (scanFrames frames) t := by
  intro s hs hends
  fun_induction scanFrames frames t with
  | case1 => rw [List.nil_append, scanFrames]
  | case2 t frame outer scan hmove => exact scanFrames_stop (Frame.stop_append hmove hs hends)
  | case3 t frame outer taken rest frames hmove ih =>
    have hcovers := covers_scanFrames frames rest
    have hmove' := Frame.move_append hmove (hcovers.agree hs) fun hne =>
      hends.of_after.head? hcovers (scanFrames_taken_ne_nil hne)
    rw [Scan.after_taken, List.append_assoc, scanFrames_go hmove', ih hs hends.of_after]
    rfl

theorem steady_interpolatedString {t : Text} (ht : startsInterpolated t = true) :
    Steady interpolatedString t := by
  intro s hs hends
  simp only [interpolatedString, Scan.after_rest, Scan.after_taken] at hs ⊢
  have hagree := (covers_scanFrames _ _).agree hs
  rw [List.append_assoc, openingInterpolated_append ht hagree,
    steady_scanFrames _ _ s hs hends.of_after]
  rfl

/-! ## Tokens -/

/-- After the first character of any punctuation come inside characters. -/
theorem punctuation_inside : ∀ p ∈ punctuation, ∀ c ∈ p.tail, isBlank c = false ∧ c ≠ '/' := by
  intro p hp c hc
  have hall : punctuation.all (fun p => p.tail.all fun c => !isBlank c && c != '/') = true := by
    decide
  simpa using List.all_eq_true.mp (List.all_eq_true.mp hall p hp) c hc

theorem isPrefixOf_punctuation {p : Text} (hp : p ∈ punctuation) (c : Char) {s t : Text}
    (h : Agree s t) : p.isPrefixOf (c :: s) = p.isPrefixOf (c :: t) := by
  cases p with
  | nil => rfl
  | cons d rest =>
    have hin : ∀ x ∈ rest, isBlank x = false ∧ x ≠ '/' := punctuation_inside _ hp
    simp only [List.isPrefixOf_cons_cons]
    rw [h.isPrefixOf hin]

theorem punctuation?_of_agree (c : Char) {s t : Text} (h : Agree s t) :
    punctuation? (c :: s) = punctuation? (c :: t) :=
  List.find?_congr fun _ hp => isPrefixOf_punctuation hp c h

theorem Reader.Local.append {r : Reader} (hr : r.Local) (hl : r.Lossless) {t s : Text}
    (hs : Agree (r t).2 s) : r ((r t).1 ++ s) = ((r t).1, s) := by
  have hagree : Agree t ((r t).1 ++ s) := by
    have happend := hs.append (r t).1
    rwa [hl t] at happend
  have heq := (hr _ _ hagree).1.symm
  have hcat := hl ((r t).1 ++ s)
  rw [heq] at hcat
  exact Prod.ext heq (List.append_cancel_left hcat)

theorem ReadToken.plain_append {r : Reader} {kind : TokenKind} {token : ReadToken} {t s : Text}
    (hr : r.Local) (hl : r.Lossless) (h : ReadToken.plain kind (r t) = token)
    (hs : Agree token.rest s) :
    ReadToken.plain kind (r (token.text ++ s)) = { token with rest := s } := by
  subst h
  have happend := hr.append hl hs
  simp only [ReadToken.plain] at happend ⊢
  rw [happend]

theorem ReadToken.word_append {token : ReadToken} {t s : Text}
    (h : ReadToken.word (identifier t) = token) (hs : Agree token.rest s) :
    ReadToken.word (identifier (token.text ++ s)) = { token with rest := s } := by
  subst h
  have happend : identifier ((ReadToken.word (identifier t)).text ++ s) = ((identifier t).1, s) :=
    local_identifier.append append_identifier hs
  rw [happend]
  rfl

theorem ReadToken.closed_append {f : Text → Scan} {kind : TokenKind} {fault : Fault}
    {token : ReadToken} {t s : Text} (hf : Steady f t) (h : ReadToken.closed kind fault (f t) = token)
    (hends : token.fault = none ∨ (token.rest ≠ [] ∧ token.rest.head? = s.head?))
    (hs : Agree token.rest s) :
    ReadToken.closed kind fault (f (token.text ++ s)) = { token with rest := s } := by
  subst h
  have hscan : (f t).EndsBefore s := by
    refine hends.imp_left fun hfault => ?_
    cases hc : (f t).closed with
    | true => rfl
    | false => simp [ReadToken.closed, hc] at hfault
  have hsteady : f ((ReadToken.closed kind fault (f t)).text ++ s) = { f t with rest := s } :=
    hf s hs hscan
  rw [hsteady]
  rfl

theorem ReadToken.symbol_append {c : Char} {more rest s : Text} {token : ReadToken}
    (h : ReadToken.symbol c (more ++ rest) = token) (htext : token.text = c :: more)
    (hs : Agree rest s) :
    ReadToken.symbol c (more ++ s) = { token with rest := s } := by
  have hfind := punctuation?_of_agree c (hs.append more)
  simp only [ReadToken.symbol] at h ⊢
  rw [← hfind]
  split at h
  · next p hp =>
    subst h
    have hprefix : p.isPrefixOf (c :: (more ++ rest)) = true :=
      List.find?_some (p := fun q => List.isPrefixOf q (c :: (more ++ rest))) hp
    have hle := (List.isPrefixOf_iff_prefix.mp hprefix).length_le
    obtain ⟨htake, hdrop⟩ := take_drop_append (a := c :: more) (s := s) hle htext
    rw [List.cons_append] at htake hdrop
    simp only [ReadToken.plain, Reader.count] at htext ⊢
    rw [htake, hdrop, htext]
  · subst h
    obtain rfl : more = [] := by simpa using htext
    rfl

/-- **A token is read the same way if what follows it is replaced by a text that agrees**, if the token is
complete, or if it ends before the text does and what follows begins in the same way. -/
theorem readToken_append {t s : Text} {token : ReadToken} (h : readToken t = some token)
    (hends : token.fault = none ∨ (token.rest ≠ [] ∧ token.rest.head? = s.head?))
    (hs : Agree token.rest s) :
    readToken (token.text ++ s) = some { token with rest := s } := by
  obtain ⟨rfl, hne⟩ := sound_readToken h
  obtain ⟨c, more, hmore⟩ := List.exists_cons_of_ne_nil hne
  have hagree : Agree (more ++ token.rest) (more ++ s) := hs.append more
  have hdigit := hagree.any_head? inner_isDigit
  have hstart := hagree.any_head? inner_isIdentifierStart
  have hquote : (more ++ token.rest).head? = some '"' ↔ (more ++ s).head? = some '"' :=
    hagree.head?_eq_some_iff (by decide) (by decide)
  have hmarks : startsInterpolated (c :: (more ++ token.rest)) =
      startsInterpolated (c :: (more ++ s)) := startsInterpolated_of_agree (hagree.append [c])
  have hcons : token.text ++ s = c :: (more ++ s) := by rw [hmore, List.cons_append]
  rw [hmore] at h
  simp only [hcons, readToken, List.cons_append, Option.some.injEq] at h ⊢
  simp only [← hdigit, ← hstart, ← hquote, ← hmarks]
  rw [← hcons]
  split at h
  · next hc =>
    rw [if_pos hc]
    exact ReadToken.plain_append local_numericLiteral append_numericLiteral h hs
  · next hc =>
    rw [if_neg hc]
    split at h
    · next hchar =>
      rw [if_pos hchar]
      exact ReadToken.closed_append (steady_characterLiteral _) h hends hs
    · next hchar =>
      rw [if_neg hchar]
      split at h
      · next hstring =>
        rw [if_pos hstring]
        exact ReadToken.closed_append (steady_stringLiteral c _) h hends hs
      · next hstring =>
        rw [if_neg hstring]
        split at h
        · next hinter =>
          rw [if_pos hinter]
          exact ReadToken.closed_append (steady_interpolatedString hinter.2) h hends hs
        · next hinter =>
          rw [if_neg hinter]
          split at h
          · next hword =>
            rw [if_pos hword]
            exact ReadToken.word_append h hs
          · next hword =>
            rw [if_neg hword]
            exact ReadToken.symbol_append h hmore hs

/-- A complete token is read the same way if what follows it is replaced by a text that agrees. -/
theorem readToken_of_agree {t s : Text} {token : ReadToken} (h : readToken t = some token)
    (hfault : token.fault = none) (hs : Agree token.rest s) :
    readToken (token.text ++ s) = some { token with rest := s } :=
  readToken_append h (Or.inl hfault) hs

/-! ## Where a token starts -/

theorem Agree.head?_slash {s t : Text} (h : Agree s t) (ht : t.head? = some '/') :
    s.head? = some '/' := by
  cases h with
  | apart _ _ hslash => exact hslash ht
  | step c h => exact ht

/-- Whether no token starts with the character. -/
def startsNoToken (c : Char) : Bool :=
  !c.isDigit && !isIdentifierStart c && !(['\'', '"', '@', '$'].contains c) &&
    punctuation.all (·.head? != some c)

theorem punctuation?_of_startsNoToken {c : Char} (hc : startsNoToken c = true) (rest : Text) :
    punctuation? (c :: rest) = none := by
  unfold punctuation?
  rw [List.find?_eq_none]
  intro p hp hstarts
  obtain ⟨d, more, rfl⟩ := List.exists_cons_of_ne_nil (punctuation_ne_nil p hp)
  rw [List.isPrefixOf_cons_cons, Bool.and_eq_true, beq_iff_eq] at hstarts
  simp only [startsNoToken, Bool.and_eq_true, List.all_eq_true] at hc
  simpa [hstarts.1] using hc.2 _ hp

/-- Where no token starts, the character is a token of its own, with a fault. -/
theorem fault_readToken_of_startsNoToken {c : Char} {rest : Text} {token : ReadToken}
    (hc : startsNoToken c = true) (h : readToken (c :: rest) = some token) :
    token.fault = some (.badCharacter c) := by
  have hpunctuation := punctuation?_of_startsNoToken hc
  have hdot : c ≠ '.' := by
    rintro rfl
    revert hc
    decide +kernel
  simp only [startsNoToken, Bool.and_eq_true, Bool.not_eq_true',
    List.contains_cons, List.contains_nil, Bool.or_false, Bool.or_eq_false_iff,
    beq_eq_false_iff_ne] at hc
  obtain ⟨⟨⟨hdigit, hword⟩, hcharacter, hstring, hat, hdollar⟩, _⟩ := hc
  simp only [readToken, Option.some.injEq] at h
  rw [if_neg (by simp [hdigit, hdot]), if_neg hcharacter, if_neg (by simp [hstring, hat]),
    if_neg (by simp [hat, hdollar]), if_neg (by simp [hword, hat]), ReadToken.symbol,
    hpunctuation] at h
  rw [← h]

/-- No token starts with `#`. -/
theorem fault_readToken_hash {rest : Text} {token : ReadToken}
    (h : readToken ('#' :: rest) = some token) : token.fault = some (.badCharacter '#') :=
  fault_readToken_of_startsNoToken (by decide +kernel) h

/-- Where a complete token starts, no trivia are read, also if what follows the token is replaced. -/
theorem readTrivium_of_agree {leading leading' : Bool} {state state' : LexState} {t s : Text}
    {token : ReadToken} (hnone : readTrivium leading state t = none)
    (h : readToken t = some token) (hfault : token.fault = none) (hs : Agree token.rest s)
    (hactive : state'.compilation.isActive = true) :
    readTrivium leading' state' (token.text ++ s) = none := by
  obtain ⟨rfl, hne⟩ := sound_readToken h
  obtain ⟨c, more, hmore⟩ := List.exists_cons_of_ne_nil hne
  rw [hmore, List.cons_append] at hnone h
  obtain ⟨_, hblank, hslash, _⟩ := readTrivium_eq_none_iff.mp hnone
  have hagree : Agree (more ++ token.rest) (more ++ s) := hs.append more
  rw [hmore, List.cons_append, readTrivium_eq_none_iff]
  refine ⟨by simp [LexState.skipsLine, hactive], hblank, fun hc => ?_, fun hc => ?_⟩
  · obtain ⟨hline, hblock⟩ := hslash hc
    refine ⟨fun hs => hline (hagree.head?_slash hs), fun hs => hblock ?_⟩
    exact (hagree.head?_eq_some_iff (by decide) (by decide)).mpr hs
  · subst hc
    rw [fault_readToken_hash h] at hfault
    simp at hfault

end Uncomment
