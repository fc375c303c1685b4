import Uncomment.Proofs.CodeLines
import Uncomment.Proofs.Replay
import Uncomment.Proofs.SpanEdits

/-!
# How trivia are split between terminals

What stands between two tokens is cut into pieces, and the pieces into those that trail the first token and
those that lead the second one. For **every** text, faulty or not, the pieces then have a shape that the
rules for comments rely on (`SplitShape`): where lines end, where directives and lines that are not compiled
can stand, and what the blanks and line breaks between them are.

Most of it is a fact about one piece and the next. Lines that are not compiled need more: that they come
right after a directive and its line break rests on everything read since the directive (`SkipPhase`).
-/

namespace Uncomment

/-! ## The shape -/

/-- Nothing follows in the text: no trivia of the span, and nothing after the span. -/
def NothingFollows (after : Trivia) (following : Text) : Prop :=
  after = [] ∧ following = []

/-- The line ends here: with a line break in the span, or with the text. -/
def LineEndsBefore (after : Trivia) (following : Text) : Prop :=
  (∃ n rest, after = n :: rest ∧ n.kind = .newline) ∨ NothingFollows after following

/-- Only blanks stand before, back to a line break, to lines that are not compiled or to the start of the
file. `preceding` are the trivia that trail the token before, if there is one. -/
def LineBeginsAfter (preceding : Option Trivia) (before : Trivia) : Prop :=
  (∃ lines n blanks, preceding.getD [] ++ before = lines ++ n :: blanks ∧
    (n.kind = .newline ∨ n.kind = .disabledText) ∧ ∀ b ∈ blanks, b.kind = .whitespace) ∨
  (preceding = none ∧ ∀ b ∈ before, b.kind = .whitespace)

/-- What holds on either side of a token. -/
structure SpanShape (xs : Trivia) (following : Text) : Prop where
  lineComment : ∀ before x after, xs = before ++ x :: after →
    x.kind = .lineComment ∨ x.kind = .docLineComment → LineEndsBefore after following
  blanksApart : ∀ before x y after, xs = before ++ x :: y :: after →
    ¬(x.kind = .whitespace ∧ y.kind = .whitespace)
  blank : ∀ x ∈ xs, x.kind = .whitespace → ∀ c ∈ x.text, isBlank c = true ∧ isLineBreak c = false
  lineBreak : ∀ x ∈ xs, x.kind = .newline → IsLineBreakText x.text

/-- The trivia that trail a token. -/
structure TrailingShape (xs : Trivia) (following : Text) : Prop extends SpanShape xs following where
  tokenLine : ∀ x ∈ xs, x.kind ≠ .directive ∧ x.kind ≠ .disabledText
  lineBreakLast : ∀ before n after, xs = before ++ n :: after → n.kind = .newline → after = []

/-- The trivia that lead a token, after those that trail the token before. -/
structure LeadingShape (preceding : Option Trivia) (xs : Trivia) (following : Text) : Prop
    extends SpanShape xs following where
  begins : xs ≠ [] → ∀ ys ∈ preceding, endsWithBreak ys = true
  directive : ∀ before d after, xs = before ++ d :: after → d.kind = .directive →
    LineBeginsAfter preceding before ∧ LineEndsBefore after following
  disabledText : ∀ before x after, xs = before ++ x :: after → x.kind = .disabledText →
    (∃ lines d n, before = lines ++ [d, n] ∧ d.kind = .directive ∧ n.kind = .newline) ∧
      (EndsLine x.text ∨ NothingFollows after following) ∧
      (StartsBranch after ∨ NothingFollows after following)

/-- The trivia around all tokens. -/
def SplitShape (preceding : Option Trivia) : List Terminal → Prop
  | [] => True
  | a :: rest =>
    LeadingShape preceding a.leading (fromToken (a :: rest)) ∧
      TrailingShape a.trailing (textOf rest) ∧ SplitShape (some a.trailing) rest

/-! ## Pieces side by side -/

theorem LineEndsAt.lineEndsBefore {after : Trivia} {following : Text}
    (h : LineEndsAt following.isEmpty after) : LineEndsBefore after following := by
  cases after with
  | nil => exact Or.inr ⟨rfl, List.isEmpty_iff.mp h⟩
  | cons n rest => exact Or.inl ⟨n, rest, rfl, h⟩

theorem LinesEnd.lineEndsAt {atEnd : Bool} {before after : Trivia} {x : Trivium}
    (h : LinesEnd atEnd (before ++ x :: after)) (hx : x.runsToLineEnd = true) :
    LineEndsAt atEnd after := by
  induction before with
  | nil => exact h.1 hx
  | cons y before ih => exact ih h.2

theorem Reading.text_of_blank {leading : Bool} {state : LexState} {t : Text} {r : ReadTrivium}
    (h : Reading leading state t r) (hk : r.item.item.kind = .whitespace) :
    ∀ c ∈ r.item.item.text, isBlank c = true ∧ isLineBreak c = false := by
  cases h with
  | blank =>
    intro c hc
    simpa using List.all_eq_true.mp List.all_takeWhile c hc
  | line => exact absurd hk (lineCommentKind_ne rfl)
  | block => exact absurd hk (blockCommentKind_ne rfl)
  | disabled | newline | directive => simp [ReadTrivium.plain, ReadTrivium.directive] at hk

theorem Reading.text_of_newline {leading : Bool} {state : LexState} {t : Text} {r : ReadTrivium}
    (h : Reading leading state t r) (hk : r.item.item.kind = .newline) :
    IsLineBreakText r.item.item.text := by
  cases h with
  | newline hskip hc => exact (isLineBreakText_lineBreak hc _).1
  | line => exact absurd hk (lineCommentKind_ne rfl)
  | block => exact absurd hk (blockCommentKind_ne rfl)
  | disabled | blank | directive => simp [ReadTrivium.plain, ReadTrivium.directive] at hk

theorem spanShape_readTrivia (leading : Bool) (state : LexState) (t : Text) :
    SpanShape (readTrivia leading state t).trivia (readTrivia leading state t).rest := by
  constructor
  · intro before x after hsplit hx
    have hends := linesEnd_readTrivia leading state t
    rw [hsplit] at hends
    refine (hends.lineEndsAt ?_).lineEndsBefore
    rcases hx with hx | hx <;> simp [Trivium.runsToLineEnd, hx]
  · rintro before x y after hsplit ⟨hx, hy⟩
    have hchain := isChain_blanksApart leading state t
    rw [hsplit, List.isChain_append_cons_cons] at hchain
    exact hchain.2.1 hx hy
  · intro x hx hk
    obtain ⟨_, _, r, hr, rfl⟩ := exists_reading_of_mem hx
    exact hr.text_of_blank hk
  · intro x hx hk
    obtain ⟨_, _, r, hr, rfl⟩ := exists_reading_of_mem hx
    exact hr.text_of_newline hk

theorem trailingShape_readTrivia (state : LexState) (t : Text) :
    TrailingShape (readTrivia false state t).trivia (readTrivia false state t).rest := by
  refine ⟨spanShape_readTrivia false state t, onTokenLine_readTrivia state t, ?_⟩
  intro before n after hsplit hn
  cases after with
  | nil => rfl
  | cons y rest =>
    have hchain := isChain_linesOn state t
    rw [hsplit, List.isChain_append_cons_cons] at hchain
    exact absurd hn hchain.2.1

/-! ## Where directives stand -/

theorem LineBeginsAfter.concat {preceding : Option Trivia} {before : Trivia} {b : Trivium}
    (h : LineBeginsAfter preceding before) (hb : b.kind = .whitespace) :
    LineBeginsAfter preceding (before ++ [b]) := by
  rcases h with ⟨lines, n, blanks, heq, hn, hblanks⟩ | ⟨hnone, hblanks⟩
  · refine Or.inl ⟨lines, n, blanks ++ [b], ?_, hn, ?_⟩
    · rw [← List.append_assoc, heq]
      simp
    · simpa [or_imp, forall_and, hb] using hblanks
  · exact Or.inr ⟨hnone, by simpa [or_imp, forall_and, hb] using hblanks⟩

theorem lineBeginsAfter_concat (preceding : Option Trivia) (before : Trivia) {n : Trivium}
    (hn : n.kind = .newline ∨ n.kind = .disabledText) :
    LineBeginsAfter preceding (before ++ [n]) :=
  Or.inl ⟨preceding.getD [] ++ before, n, [], by simp, hn, by simp⟩

/-- A directive that is first on its line has only blanks before it there. -/
theorem lineBeginsAfter_of_directivesFirst {preceding : Option Trivia} {lineStart : Bool}
    {before before' after : Trivia} {d : Trivium}
    (hstart : lineStart = true → LineBeginsAfter preceding before)
    (h : directivesFirst lineStart (before' ++ d :: after) = true) (hd : d.kind = .directive) :
    LineBeginsAfter preceding (before ++ before') := by
  induction before' generalizing lineStart before with
  | nil =>
    rw [List.nil_append, directivesFirst, Bool.and_eq_true, Bool.or_eq_true] at h
    rw [List.append_nil]
    exact hstart (h.1.resolve_left (by simp [hd]))
  | cons x rest ih =>
    rw [List.cons_append, directivesFirst, Bool.and_eq_true] at h
    rw [List.append_cons]
    refine ih (fun hx => ?_) h.2
    unfold Trivium.lineStartAfter at hx
    cases hkind : x.kind <;> simp only [hkind, Bool.false_eq_true] at hx
    · exact (hstart hx).concat hkind
    · exact lineBeginsAfter_concat _ _ (Or.inl hkind)
    · exact lineBeginsAfter_concat _ _ (Or.inr hkind)

/-! ## Where lines that are not compiled stand -/

/-- What was read last, where the text is not compiled. After a directive comes its line break, and only
right after the two are lines skipped; then comes a conditional directive, or nothing. -/
inductive SkipPhase (before : Trivia) (state : LexState) (t : Text) : Prop
  | compiled (ha : state.compilation.isActive = true)
  | directive {lines : Trivia} {d : Trivium} (heq : before = lines ++ [d])
      (hd : d.kind = .directive) (hs : state.lineStart = false)
      (ht : ∀ c ∈ t.head?, isLineBreak c = true)
  | lineBreak {lines : Trivia} {d n : Trivium} (heq : before = lines ++ [d, n])
      (hd : d.kind = .directive) (hn : n.kind = .newline) (hs : state.lineStart = true)
  | branch (hs : state.lineStart = true) (ht : t = [] ∨ startsWithConditional t = true)

theorem SkipPhase.settled {before : Trivia} {state : LexState} {t : Text}
    (h : SkipPhase before state t) : state.Settled true t := by
  cases h with
  | compiled ha => exact Or.inl ha
  | directive _ _ _ ht => exact Or.inr ⟨rfl, Or.inr ht⟩
  | lineBreak _ _ _ hs => exact Or.inr ⟨rfl, Or.inl hs⟩
  | branch hs => exact Or.inr ⟨rfl, Or.inl hs⟩

/-- No line break stands where a line that is not compiled begins with a conditional directive. -/
theorem isActive_of_lineBreak {state : LexState} {c : Char} {rest : Text}
    (hskip : state.skipsLine true (c :: rest) = false) (hc : isLineBreak c = true)
    (hs : state.lineStart = true) : state.compilation.isActive = true := by
  cases ha : state.compilation.isActive with
  | true => rfl
  | false =>
    have hcond := startsWithConditional_of_not_skipsLine hskip hs ha
    obtain ⟨d, more, heq, hd⟩ := cons_of_startsWithConditional hcond
    cases heq
    rw [hc] at hd
    cases hd

/-- After blanks at the start of a line that is not compiled the conditional directive is still next. -/
theorem skipPhase_blank {before : Trivia} {state : LexState} {c : Char} {rest : Text}
    (hskip : state.skipsLine true (c :: rest) = false) (hs : state.lineStart = true) :
    SkipPhase before state ((c :: rest).dropWhile fun d => isBlank d && !isLineBreak d) := by
  cases ha : state.compilation.isActive with
  | true => exact .compiled ha
  | false =>
    have hcond := startsWithConditional_of_not_skipsLine hskip hs ha
    have hrun : ∀ d ∈ (c :: rest).takeWhile (fun d => isBlank d && !isLineBreak d),
        isBlank d = true ∧ isLineBreak d = false := by
      intro d hd
      simpa using List.all_eq_true.mp List.all_takeWhile d hd
    rw [← List.takeWhile_append_dropWhile (p := fun d => isBlank d && !isLineBreak d)
      (l := c :: rest), startsWithConditional_blank hrun] at hcond
    exact .branch hs (Or.inr hcond)

/-- **One piece leads from phase to phase.** -/
theorem Reading.skipPhase {state : LexState} {t : Text} {r : ReadTrivium} {before : Trivia}
    (h : Reading true state t r) (hp : SkipPhase before state t) :
    SkipPhase (before ++ [r.item.item]) r.state r.rest := by
  cases h with
  | disabled hne hskip => exact .branch rfl (disabledLines_rest t)
  | newline hskip hc =>
    cases hp with
    | compiled ha => exact .compiled ha
    | directive heq hd hs ht =>
      exact .lineBreak (by rw [heq, List.append_assoc]; rfl) hd rfl rfl
    | lineBreak heq hd hn hs =>
      have hactive := isActive_of_lineBreak hskip hc hs
      exact .compiled hactive
    | branch hs ht =>
      have hactive := isActive_of_lineBreak hskip hc hs
      exact .compiled hactive
  | blank hskip hb hc =>
    cases hp with
    | compiled ha => exact .compiled ha
    | directive heq hd hs ht =>
      rw [ht _ rfl] at hb
      cases hb
    | lineBreak heq hd hn hs => exact skipPhase_blank hskip hs
    | branch hs ht => exact skipPhase_blank hskip hs
  | line hskip => exact .compiled (hp.settled.isActive hskip (by decide) (by decide))
  | block hskip => exact .compiled (hp.settled.isActive hskip (by decide) (by decide))
  | directive hskip hl hs => exact .directive rfl rfl rfl (isLineBreak_head_afterLine _)

/-- Lines are skipped only right after a directive and its line break. -/
theorem SkipPhase.of_skipsLine {before : Trivia} {state : LexState} {t : Text}
    (hp : SkipPhase before state t) (hne : t ≠ []) (hskip : state.skipsLine true t = true) :
    ∃ lines d n, before = lines ++ [d, n] ∧ d.kind = .directive ∧ n.kind = .newline := by
  simp only [LexState.skipsLine, Bool.true_and, Bool.and_eq_true, Bool.not_eq_true'] at hskip
  obtain ⟨⟨hstart, hoff⟩, hcond⟩ := hskip
  cases hp with
  | compiled ha => simp [ha] at hoff
  | directive _ _ hs => simp [hs] at hstart
  | lineBreak heq hd hn => exact ⟨_, _, _, heq, hd, hn⟩
  | branch _ ht =>
    rcases ht with rfl | ht
    · exact absurd rfl hne
    · simp [ht] at hcond

/-- What follows lines that were skipped: a conditional directive, or nothing. -/
theorem after_disabledLines (state : LexState) (t : Text) :
    let r := readTrivia true { state with lineStart := true } (disabledLines t).2
    (EndsLine (disabledLines t).1 ∨ NothingFollows r.trivia r.rest) ∧
      (StartsBranch r.trivia ∨ NothingFollows r.trivia r.rest) := by
  rcases disabledLines_rest t with hnil | hcond
  · have hnone : readTrivium true { state with lineStart := true } (disabledLines t).2 = none := by
      rw [hnil]
      rfl
    rw [readTrivia_of_none hnone]
    exact ⟨Or.inr ⟨rfl, hnil⟩, Or.inr ⟨rfl, hnil⟩⟩
  · obtain ⟨c, rest, hcons, _⟩ := cons_of_startsWithConditional hcond
    exact ⟨Or.inl (endsLine_disabledLines (by rw [hcons]; simp)),
      Or.inl (startsBranch_readTrivia rfl hcond)⟩

theorem disabledText_readTrivia {state : LexState} {t : Text} {seen before after : Trivia}
    {x : Trivium} (hp : SkipPhase seen state t)
    (hsplit : (readTrivia true state t).trivia = before ++ x :: after)
    (hx : x.kind = .disabledText) :
    (∃ lines d n, seen ++ before = lines ++ [d, n] ∧ d.kind = .directive ∧ n.kind = .newline) ∧
      (EndsLine x.text ∨ NothingFollows after (readTrivia true state t).rest) ∧
      (StartsBranch after ∨ NothingFollows after (readTrivia true state t).rest) := by
  fun_induction readTrivia true state t generalizing seen before with
  | case1 => simp [ReadTrivia.trivia] at hsplit
  | case2 state t r h hk => simp at hk
  | case3 state t r h hk more =>
    rename_i ih
    have hr := reading_of_readTrivium h
    have hcons : r.item.item :: more.trivia = before ++ x :: after := hsplit
    cases before with
    | nil =>
      obtain ⟨rfl, rfl⟩ := List.cons.inj hcons
      obtain ⟨hne, hskip, rfl⟩ := hr.eq_of_disabledText hx
      rw [List.append_nil]
      exact ⟨hp.of_skipsLine hne hskip, after_disabledLines state t⟩
    | cons y before =>
      obtain ⟨rfl, hmore⟩ := List.cons.inj hcons
      rw [List.append_cons]
      exact ih (hr.skipPhase hp) hmore

/-! ## All terminals -/

theorem leadingShape_readTrivia {state : LexState} {t : Text} {preceding : Option Trivia}
    (ha : state.compilation.isActive = true)
    (hbegins : (readTrivia true state t).trivia ≠ [] → ∀ ys ∈ preceding, endsWithBreak ys = true) :
    LeadingShape preceding (readTrivia true state t).trivia (readTrivia true state t).rest := by
  refine ⟨spanShape_readTrivia true state t, hbegins, ?_, ?_⟩
  · intro before d after hsplit hd
    have hends := linesEnd_readTrivia true state t
    have hfirst := directivesFirst_readTrivia state t
    rw [hsplit] at hends hfirst
    refine ⟨?_, (hends.lineEndsAt (by simp [Trivium.runsToLineEnd, hd])).lineEndsBefore⟩
    -- The span begins at the start of a line, for a line break or nothing is before it.
    have hstart : LineBeginsAfter preceding [] := by
      cases preceding with
      | none => exact Or.inr ⟨rfl, by simp⟩
      | some ys =>
        obtain ⟨lines, n, rfl, hn⟩ :=
          exists_concat_of_endsWithBreak (hbegins (by simp [hsplit]) ys rfl)
        exact Or.inl ⟨lines, n, [], by simp, Or.inl hn, by simp⟩
    exact lineBeginsAfter_of_directivesFirst (fun _ => hstart) hfirst hd
  · intro before x after hsplit hx
    have hphase : SkipPhase [] state t := .compiled ha
    exact disabledText_readTrivia hphase hsplit hx

theorem splitShape_lexFrom {state : LexState} {t : Text} {preceding : Option Trivia}
    (ha : state.compilation.isActive = true)
    (hbegins : (readTrivia true state t).trivia ≠ [] → ∀ ys ∈ preceding, endsWithBreak ys = true) :
    SplitShape preceding ((lexFrom state t).map LexedTerminal.terminal) := by
  induction state, t using lexFrom.induct generalizing preceding with
  | case1 state t leading =>
    rename_i hnone
    have hend := readToken_eq_none_iff.mp hnone
    have hleading := leadingShape_readTrivia ha hbegins
    rw [hend] at hleading
    rw [terminals_of_end hend]
    exact ⟨hleading, ⟨⟨by simp, by simp, by simp, by simp⟩, by simp, by simp⟩, trivial⟩
  | case2 state t leading token htoken =>
    rename_i trailing ih
    have hactive : leading.state.afterToken.compilation.isActive = true :=
      isActive_leading ha htoken
    have hrest : textOf ((lexFrom trailing.state trailing.rest).map LexedTerminal.terminal) =
        trailing.rest := text_lexFrom _ _
    have htext : leading.rest = token.text ++ (Trivia.text trailing.trivia ++ trailing.rest) := by
      rw [← (sound_readToken htoken).1]
      exact congrArg _ (append_readTrivia false leading.state.afterToken token.rest).symm
    have hleading := leadingShape_readTrivia ha hbegins
    have htrailing := trailingShape_readTrivia leading.state.afterToken token.rest
    rw [terminals_of_token htoken rfl]
    refine ⟨?_, ?_, ih (isActive_trailing hactive _) ?_⟩
    · rw [show (readTrivia true state t).rest = _ from htext, ← hrest] at hleading
      exact hleading
    · rw [hrest]
      exact htrailing
    · intro hne ys hys
      cases hys
      exact endsWithBreak_trailing rfl hne

/-- **The trivia of every text are split as the rules expect.** For the terminals of any text:

* trailing trivia hold no directive and no lines that are not compiled, and a line break only last;
* a terminal that is not the first has leading trivia only if those that trail the terminal before end with
  a line break;
* a line comment is followed by a line break of its span, or ends the text;
* a directive has only blanks before it, back to a line break, to lines that are not compiled or to the
  start of the file, and is followed by a line break or ends the text;
* lines that are not compiled come right after a directive and its line break, end with a line break or
  the text, and are followed by a conditional directive, perhaps after blanks, or end the text;
* no two runs of blanks are side by side, blanks hold no line break, and a line break is a carriage return
  and a line feed or a single character. -/
theorem trivia_split_shape (t : Text) : SplitShape none (SourceFile.ofText t).terminals :=
  splitShape_lexFrom rfl (by simp)

end Uncomment
