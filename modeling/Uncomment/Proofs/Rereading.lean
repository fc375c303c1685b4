import Uncomment.Proofs.StrippedSpans

/-!
# Reading trivia again

The texts of readable trivia, put in front of any text, are read as trivia again. The pieces need not be
the same: white space that has come together is one piece, and so are a carriage return and a line feed.
What stays the same is where the reader ends and in which state, and that every piece it takes is
without a fault (`Leads`).

There is one way to fail: a directive has to be the first on its line, apart from white space. Where one
is not, the reader stops at its `#` (`stops_at_hash`).
-/

namespace Uncomment

/-! ## Readings that end in the same place -/

/-- A reading in leading mode ends as another one does, which begins later; every piece it takes before
is without a fault and as required. -/
structure Leads (P : Trivium → Prop) (state : LexState) (t : Text) (state' : LexState)
    (t' : Text) : Prop where
  state_eq : (readTrivia true state t).state = (readTrivia true state' t').state
  rest_eq : (readTrivia true state t).rest = (readTrivia true state' t').rest
  items : ∀ x ∈ (readTrivia true state t).items,
    x.fault = none ∧ P x.item ∨ x ∈ (readTrivia true state' t').items

namespace Leads

variable {P : Trivium → Prop} {state state' state'' : LexState} {t t' t'' : Text}

theorem refl (P : Trivium → Prop) (state : LexState) (t : Text) : Leads P state t state t :=
  ⟨rfl, rfl, fun _ hx => Or.inr hx⟩

theorem trans (h : Leads P state t state' t') (h' : Leads P state' t' state'' t'') :
    Leads P state t state'' t'' where
  state_eq := h.state_eq.trans h'.state_eq
  rest_eq := h.rest_eq.trans h'.rest_eq
  items x hx := (h.items x hx).elim Or.inl (h'.items x)

/-- One piece leads to what follows it. -/
theorem of_reading {r : ReadTrivium} (h : Reading true state t r) (hfault : r.item.fault = none)
    (hP : P r.item.item) : Leads P state t r.state r.rest := by
  have heq := readTrivia_of_reading h
  refine ⟨by rw [heq], by rw [heq], fun x hx => ?_⟩
  rw [heq] at hx
  rcases List.mem_cons.mp hx with rfl | hx
  · exact Or.inl ⟨hfault, hP⟩
  · exact Or.inr hx

/-- What leads to the end of a piece leads to its beginning. -/
theorem of_later {r : ReadTrivium} (h : Leads P state t r.state r.rest)
    (hr : Reading true state' t' r) : Leads P state t state' t' := by
  have heq := readTrivia_of_reading hr
  refine ⟨by rw [heq]; exact h.state_eq, by rw [heq]; exact h.rest_eq, fun x hx => ?_⟩
  rw [heq]
  exact (h.items x hx).imp_right (List.mem_cons_of_mem _)

/-- A reading that leads to where no trivia follow ends there. -/
theorem ends (h : Leads P state t state' t') (hnone : readTrivium true state' t' = none) :
    (readTrivia true state t).state = state' ∧ (readTrivia true state t).rest = t' ∧
      ∀ x ∈ (readTrivia true state t).items, x.fault = none ∧ P x.item := by
  have heq := readTrivia_of_none hnone
  refine ⟨by rw [h.state_eq, heq], by rw [h.rest_eq, heq], fun x hx => ?_⟩
  refine (h.items x hx).resolve_right fun hmem => ?_
  rw [heq] at hmem
  simp at hmem

/-- After a token the reading may be cut at the end of its line. -/
theorem after_token (h : Leads P state t state' t') (hs : state.lineStart = false) :
    Leads P (readTrivia false state t).state (readTrivia false state t).rest state' t' := by
  have heq := readTrivia_after_token hs t
  refine ⟨?_, ?_, fun x hx => ?_⟩
  · rw [← h.state_eq, heq]
  · rw [← h.rest_eq, heq]
  · refine h.items x ?_
    rw [heq]
    exact List.mem_append_right _ hx

end Leads

/-! ## What the texts of trivia begin with -/

variable {atEnd : Bool} {state : LexState} {next : Trivia} {s : Text}

/-- The text after trivia of a span is empty where the span is at the end. -/
def Follows (atEnd : Bool) (s : Text) : Prop := atEnd = true → s = []

theorem IsLineBreakText.head? {t : Text} (h : IsLineBreakText t) (s : Text) :
    ∀ c ∈ (t ++ s).head?, isLineBreak c = true := by
  rcases h with rfl | ⟨c, rfl, hc⟩
  · simp [isLineBreak]
  · simpa using hc

theorem head?_of_lineEndsAt (hends : LineEndsAt atEnd next) (h : Readable atEnd state next)
    (hs : Follows atEnd s) : ∀ c ∈ (Trivia.text next ++ s).head?, isLineBreak c = true := by
  cases next with
  | nil =>
    rw [hs hends]
    simp
  | cons n rest =>
    have hkind : n.kind = .newline := hends
    rw [Trivia.text_cons, List.append_assoc]
    exact (h.1.text_of_newline hends).head? _

theorem startsWithConditional_text (hbranch : StartsBranch next) (h : Readable atEnd state next)
    (hs : Follows atEnd s) : startsWithConditional (Trivia.text next ++ s) = true := by
  have hdirective : ∀ {state : LexState} {d : Trivium} {rest : Trivia}, d.isBranch = true →
      Readable atEnd state (d :: rest) →
      startsWithConditional (d.text ++ (Trivia.text rest ++ s)) = true := by
    intro state d rest hd h
    simp only [Trivium.isBranch, Bool.and_eq_true, beq_iff_eq] at hd
    obtain ⟨hline, _, hends⟩ := h.1.text_of_directive hd.1
    rw [startsWithConditional_append hline (head?_of_lineEndsAt hends h.2 hs)]
    exact hd.2
  cases hbranch with
  | directive hd =>
    rw [Trivia.text_cons, List.append_assoc]
    exact hdirective hd h
  | blank hb hd =>
    rw [Trivia.text_cons, Trivia.text_cons, List.append_assoc, List.append_assoc,
      startsWithConditional_blank (h.1.text_of_blank hb)]
    exact hdirective hd h.2

theorem head?_of_startsDisabled {before : Text} (hdisabled : StartsDisabled before next)
    (h : Readable atEnd state next) (hbefore : before = ['\r']) :
    (Trivia.text next ++ s).head? ≠ some '\n' := by
  cases next with
  | nil => exact absurd hdisabled id
  | cons d rest =>
    have hhead := hdisabled.2 hbefore
    obtain ⟨c, more, hc⟩ := List.exists_cons_of_ne_nil h.1.text_ne_nil
    rw [hc] at hhead
    rw [Trivia.text_cons, hc]
    exact hhead

/-! ## One piece -/

variable {P : Trivium → Prop}

/-- A run of white space may go on in what follows it. -/
theorem leads_blank {text : Text} (hne : text ≠ [])
    (hb : ∀ c ∈ text, isBlank c = true ∧ isLineBreak c = false)
    (hskip : state.skipsLine true (text ++ s) = false) (hskip' : state.skipsLine true s = false)
    (hP : ∀ u, P ⟨.whitespace, u⟩) : Leads P state (text ++ s) state s := by
  obtain ⟨c, rest, rfl⟩ := List.exists_cons_of_ne_nil hne
  obtain ⟨hc, hcb⟩ := hb c (by simp)
  have hdrop : ((c :: rest) ++ s).dropWhile (fun d => isBlank d && !isLineBreak d) =
      s.dropWhile (fun d => isBlank d && !isLineBreak d) :=
    List.dropWhile_append_of_pos fun d hd => by simp [hb d hd]
  have hfirst : Leads P state ((c :: rest) ++ s) state
      (s.dropWhile fun d => isBlank d && !isLineBreak d) := by
    rw [← hdrop]
    exact .of_reading (.blank hskip hcb hc) rfl (hP _)
  cases s with
  | nil => exact hfirst
  | cons d more =>
    by_cases hd : isBlank d = true ∧ isLineBreak d = false
    · exact hfirst.of_later (.blank hskip' hd.2 hd.1)
    · have hstay : (d :: more).dropWhile (fun d => isBlank d && !isLineBreak d) = d :: more := by
        rw [List.dropWhile_cons_of_neg]
        simpa using hd
      rwa [hstay] at hfirst

theorem leads_of_lineBreak {c : Char} {rest text : Text}
    (hskip : state.skipsLine true (c :: rest) = false) (hc : isLineBreak c = true)
    (hbreak : lineBreak (c :: rest) = (text, s)) (hP : ∀ u, P ⟨.newline, u⟩) :
    Leads P state (c :: rest) { state with lineStart := true } s := by
  have hr := Leads.of_reading (P := P) (.newline hskip hc) rfl (hP _)
  simpa only [ReadTrivium.plain, hbreak] using hr

/-- A line break that is taken as it stands. -/
theorem leads_newline {text : Text} (ht : IsLineBreakText text)
    (hskip : state.skipsLine true (text ++ s) = false)
    (hcut : text = ['\r'] → s.head? ≠ some '\n') (hP : ∀ u, P ⟨.newline, u⟩) :
    Leads P state (text ++ s) { state with lineStart := true } s := by
  rcases ht with rfl | ⟨c, rfl, hc⟩
  · exact leads_of_lineBreak hskip rfl (lineBreak_pair s) hP
  · exact leads_of_lineBreak hskip hc (lineBreak_cons_of_ne fun h => hcut (by rw [h])) hP

/-- A line break in compiled text; a carriage return takes a line feed that follows it. -/
theorem leads_newline_of_active {text : Text} (ht : IsLineBreakText text)
    (hactive : state.compilation.isActive = true) (hP : ∀ u, P ⟨.newline, u⟩) :
    Leads P state (text ++ s) { state with lineStart := true } s := by
  have hskip : ∀ u, state.skipsLine true u = false := by
    intro u
    simp [LexState.skipsLine, hactive]
  by_cases hpair : text = ['\r'] ∧ s.head? = some '\n'
  · obtain ⟨rfl, hn⟩ := hpair
    obtain ⟨more, rfl⟩ := List.head?_eq_some_iff.mp hn
    have hboth : Leads P state ('\r' :: '\n' :: more) { state with lineStart := true } more :=
      leads_of_lineBreak (hskip _) rfl (lineBreak_pair more) hP
    -- The line feed alone would lead to the same place.
    have hfeed : Reading true { state with lineStart := true } ('\n' :: more)
        (.plain .newline (['\n'], more) { state with lineStart := true }) := by
      rw [← lineBreak_cons_of_ne (c := '\n') (by simp)]
      exact .newline (by simp [LexState.skipsLine, hactive]) rfl
    exact hboth.of_later hfeed
  · exact leads_newline ht (hskip _) (fun h hn => hpair ⟨h, hn⟩) hP

theorem leads_line {rest : Text} (hline : ∀ c ∈ rest, isLineBreak c = false)
    (hactive : state.compilation.isActive = true) (hs : ∀ c ∈ s.head?, isLineBreak c = true)
    (hP : P ⟨lineCommentKind ('/' :: '/' :: rest), '/' :: '/' :: rest⟩) :
    Leads P state ('/' :: '/' :: rest ++ s) { state with lineStart := false } s := by
  have hall : ∀ c ∈ '/' :: '/' :: rest, isLineBreak c = false := by
    intro c hc
    simp only [List.mem_cons] at hc
    rcases hc with rfl | rfl | hc
    · rfl
    · rfl
    · exact hline c hc
  obtain ⟨hcurrent, hafter⟩ := currentLine_append hall hs
  have hr : Reading true state ('/' :: '/' :: (rest ++ s)) _ :=
    .line (by simp [LexState.skipsLine, hactive])
  have hkind : lineCommentKind ('/' :: '/' :: rest ++ s) = lineCommentKind ('/' :: '/' :: rest) :=
    lineCommentKind_append hs
  simp only [List.cons_append] at hcurrent hafter hkind ⊢
  rw [hcurrent, hafter, hkind] at hr
  exact .of_reading hr rfl hP

theorem leads_block {rest : Text}
    (hclosed : blockComment ('/' :: '*' :: rest) = ⟨'/' :: '*' :: rest, [], true⟩)
    (hactive : state.compilation.isActive = true)
    (hP : P ⟨blockCommentKind ('/' :: '*' :: rest), '/' :: '*' :: rest⟩) :
    Leads P state ('/' :: '*' :: rest ++ s) { state with lineStart := false } s := by
  have hlength : 4 ≤ (blockComment ('/' :: '*' :: rest)).taken.length :=
    length_blockComment (by rw [hclosed])
  have hagain := blockComment_append (t := '/' :: '*' :: rest) (by rw [hclosed]) s
  rw [hclosed] at hlength hagain
  have hkind := blockCommentKind_append (s := s) hlength
  have hr : Reading true state ('/' :: '*' :: (rest ++ s)) _ :=
    .block (by simp [LexState.skipsLine, hactive])
  simp only [List.cons_append] at hagain hkind ⊢
  simp only [ReadTrivium.block, hagain, hkind] at hr
  exact .of_reading hr rfl hP

theorem leads_directive {rest : Text} (hline : ∀ c ∈ rest, isLineBreak c = false)
    (hok : (state.compilation.applyLine ('#' :: rest)).2 = none)
    (hskip : state.skipsLine true ('#' :: rest ++ s) = false) (hstart : state.lineStart = true)
    (hs : ∀ c ∈ s.head?, isLineBreak c = true) (hP : P ⟨.directive, '#' :: rest⟩) :
    Leads P state ('#' :: rest ++ s)
      { lineStart := false, compilation := (state.compilation.applyLine ('#' :: rest)).1 } s := by
  have hall : ∀ c ∈ '#' :: rest, isLineBreak c = false := by
    intro c hc
    rcases List.mem_cons.mp hc with rfl | hc
    · rfl
    · exact hline c hc
  obtain ⟨hcurrent, hafter⟩ := currentLine_append hall hs
  have hr : Reading true state ('#' :: (rest ++ s)) _ := .directive hskip rfl hstart
  simp only [List.cons_append] at hcurrent hafter ⊢
  simp only [ReadTrivium.directive, hcurrent, hafter, hok] at hr
  exact .of_reading hr rfl hP

theorem leads_disabled {text f : Text} (hne : text ≠ []) (hoff : state.compilation.isActive = false)
    (hstart : state.lineStart = true) (hf : startsWithConditional f = true)
    (hlines : disabledLines (text ++ f) = (text, f))
    (hfirst : startsWithConditional (text ++ f) = false) (hs : startsWithConditional s = true)
    (hP : P ⟨.disabledText, text⟩) :
    Leads P state (text ++ s) { state with lineStart := true } s := by
  have hbreak := exists_break_of_disabledLines hf hlines
  have hskip : state.skipsLine true (text ++ s) = true := by
    rw [startsWithConditional_of_break hbreak] at hfirst
    simp [LexState.skipsLine, hstart, hoff, startsWithConditional_of_break hbreak, hfirst]
  have hr : Reading true state (text ++ s) _ := .disabled (by simp [hne]) hskip
  rw [disabledLines_append hf hs hlines] at hr
  exact .of_reading hr rfl hP

/-! ## All pieces -/

/-- Whether only white space stands on the line after a trivium, given whether it did before. -/
def Trivium.lineStartAfter (x : Trivium) (lineStart : Bool) : Bool :=
  match x.kind with
  | .whitespace => lineStart
  | .newline | .disabledText => true
  | .lineComment | .blockComment | .docLineComment | .docBlockComment | .directive => false

theorem LexState.lineStart_after (state : LexState) (x : Trivium) :
    (state.after x).lineStart = x.lineStartAfter state.lineStart := by
  unfold LexState.after Trivium.lineStartAfter
  cases x.kind <;> rfl

/-- Whether every directive is the first on its line. -/
def directivesFirst (lineStart : Bool) : Trivia → Bool
  | [] => true
  | x :: xs => (x.kind != .directive || lineStart) && directivesFirst (x.lineStartAfter lineStart) xs

/-- What is required of pieces does not exclude white space and line breaks. -/
def AllowsBlanks (P : Trivium → Prop) : Prop :=
  ∀ x : Trivium, x.kind = .whitespace ∨ x.kind = .newline → P x

/-- **A piece that fits is read again**, a directive only at the start of a line. -/
theorem leads_of_fits {x : Trivium} (h : x.Fits atEnd state next)
    (hnext : Readable atEnd (state.after x) next) (hs : Follows atEnd s)
    (hfirst : x.kind = .directive → state.lineStart = true) (hblank : AllowsBlanks P) (hP : P x) :
    Leads P state (x.text ++ (Trivia.text next ++ s)) (state.after x) (Trivia.text next ++ s) := by
  cases h with
  | blank hne hb hbranch =>
    have hcond : state.compilation.isActive = true ∨
        startsWithConditional (Trivia.text next ++ s) = true :=
      hbranch.imp_right fun h => startsWithConditional_text h hnext hs
    refine leads_blank hne hb ?_ ?_ fun u => hblank _ (Or.inl rfl)
    · rcases hcond with h | h <;> simp [LexState.skipsLine, startsWithConditional_blank hb, h]
    · rcases hcond with h | h <;> simp [LexState.skipsLine, h]
  | newline ht ha => exact leads_newline_of_active ht ha fun u => hblank _ (Or.inr rfl)
  | disabledNewline ht hoff hstart hbranch =>
    refine leads_newline ht (by simp [LexState.skipsLine, hstart]) ?_ fun u => hblank _ (Or.inr rfl)
    intro hreturn
    rcases hbranch with hbranch | hdisabled
    · obtain ⟨c, rest, heq, hc⟩ :=
        cons_of_startsWithConditional (startsWithConditional_text hbranch hnext hs)
      rw [heq]
      rintro ⟨⟩
      simp [isLineBreak] at hc
    · exact head?_of_startsDisabled hdisabled hnext hreturn
  | @line rest hline ha hends =>
    rw [LexState.after_of_isComment (isComment_lineCommentKind _)] at hnext ⊢
    exact leads_line hline ha (head?_of_lineEndsAt hends hnext hs) hP
  | @block rest hclosed ha =>
    rw [LexState.after_of_isComment (isComment_blockCommentKind _)]
    exact leads_block hclosed ha hP
  | directive hline hok hplace hends =>
    have hbreak := head?_of_lineEndsAt hends hnext hs
    refine leads_directive hline hok ?_ (hfirst rfl) hbreak hP
    rcases hplace with ha | ⟨_, hcond⟩
    · simp [LexState.skipsLine, ha]
    · refine not_skipsLine_of_conditional state ?_
      rw [startsWithConditional_append ?_ hbreak]
      · exact hcond
      · intro c hc
        rcases List.mem_cons.mp hc with rfl | hc
        · rfl
        · exact hline c hc
  | disabled hne hoff hstart hf hlines hcond hbranch =>
    exact leads_disabled hne hoff hstart hf hlines hcond (startsWithConditional_text hbranch hnext hs)
      hP

/-- **The texts of readable trivia are read as trivia**, if every directive is first on its line. -/
theorem leads_of_readable {xs : Trivia} (h : Readable atEnd state xs) (hs : Follows atEnd s)
    (hfirst : directivesFirst state.lineStart xs = true) (hblank : AllowsBlanks P)
    (hP : ∀ x ∈ xs, P x) : Leads P state (Trivia.text xs ++ s) (state.afterAll xs) s := by
  induction xs generalizing state with
  | nil => exact .refl P state s
  | cons x rest ih =>
    simp only [directivesFirst, Bool.and_eq_true, Bool.or_eq_true, bne_iff_ne, ne_eq] at hfirst
    obtain ⟨hx, hrest⟩ := hfirst
    rw [← LexState.lineStart_after] at hrest
    rw [Trivia.text_cons, List.append_assoc]
    have hpiece := leads_of_fits h.1 h.2 hs (fun hk => hx.resolve_left fun hne => hne hk) hblank
      (hP x (by simp))
    exact hpiece.trans (ih h.2 hrest fun y hy => hP y (by simp [hy]))

/-- **The reader stops at the `#` of a directive that is not first on its line.** -/
theorem stops_at_hash {xs : Trivia} (h : Readable atEnd state xs) (hs : Follows atEnd s)
    (hfirst : directivesFirst state.lineStart xs = false) :
    (readTrivia true state (Trivia.text xs ++ s)).rest.head? = some '#' := by
  induction xs generalizing state with
  | nil => simp [directivesFirst] at hfirst
  | cons x rest ih =>
    rw [Trivia.text_cons, List.append_assoc]
    by_cases hx : x.kind = .directive ∧ state.lineStart = false
    · obtain ⟨hk, hstart⟩ := hx
      obtain ⟨more, hmore⟩ := List.head?_eq_some_iff.mp (h.1.text_of_directive hk).2.1
      have hnone : readTrivium true state ('#' :: (more ++ (Trivia.text rest ++ s))) = none := by
        rw [readTrivium_eq_none_iff]
        exact ⟨by simp [LexState.skipsLine, hstart], by decide, by simp, fun _ _ => hstart⟩
      rw [hmore, List.cons_append, readTrivia_of_none hnone]
      rfl
    · have hok : x.kind = .directive → state.lineStart = true := by
        intro hk
        cases hstart : state.lineStart with
        | true => rfl
        | false => exact absurd ⟨hk, hstart⟩ hx
      have hpiece := leads_of_fits (P := fun _ => True) h.1 h.2 hs hok (fun _ _ => trivial) trivial
      rw [hpiece.rest_eq]
      refine ih h.2 ?_
      rw [LexState.lineStart_after]
      simp only [directivesFirst, Bool.and_eq_false_iff, Bool.or_eq_false_iff] at hfirst
      rcases hfirst with ⟨hk, hstart⟩ | hrest
      · exact absurd ⟨by simpa using hk, hstart⟩ hx
      · exact hrest

end Uncomment
