import Uncomment.Proofs.SameLine

/-!
# Text that is not compiled has no influence

What stands in a branch that is not compiled may be replaced by almost anything: open comments and
strings, brackets, other directives. The two texts are read as the same terminals apart from that one
trivium, with the same faults, and stripped in the same way.

The replaced lines begin after a line break and end before a conditional directive or at the end of the
text. Before them the two texts are the same up to a line break, so they are read alike
(`readTrivia_of_sameLine`, `readToken_of_sameLine`); the lines themselves are skipped up to the same
place (`disabledLines_of_lines`); and behind them the lexer goes on with the same text in the same state.
So this is first proved for the span with the lines in it (`readTrivia_replaced`) and then, token by token
towards the front, for the whole text (`lexFrom_replaced`).

For stripping, a trivium of text that is not compiled is no comment: both rules leave it where it is and
never look at its text (`exists_stripSpan_other`). Two files that differ in one such trivium are the same
`Place` filled with two trivia, and so are their stripped forms.
-/

namespace Uncomment

/-! ## Lines that are not compiled -/

/-- No line of the text, cut at every line break, is a conditional directive. -/
def NoConditional (d : Text) : Prop :=
  ∀ line ∈ d.splitOnP isLineBreak,
    ¬((Text.trimStart line).head? = some '#' ∧ (Directive.parse line).isConditional = true)

instance (d : Text) : Decidable (NoConditional d) :=
  inferInstanceAs (Decidable (∀ line ∈ d.splitOnP isLineBreak,
    ¬((Text.trimStart line).head? = some '#' ∧ (Directive.parse line).isConditional = true)))

/-- A text that may stand where lines are not compiled, in front of another text. -/
structure Inert (d post : Text) : Prop where
  nonempty : d ≠ []
  /-- A carriage return in front of it would take the line feed along. -/
  start : d.head? ≠ some '\n'
  lines : NoConditional d
  /-- What follows, if anything does, starts on a line of its own. -/
  ends : post ≠ [] → EndsLine d

theorem Inert.head?_append {d post : Text} (h : Inert d post) (s : Text) :
    (d ++ s).head? ≠ some '\n' := by
  obtain ⟨c, rest, rfl⟩ := List.exists_cons_of_ne_nil h.nonempty
  exact h.start

theorem EndsLine.of_append {a b : Text} (h : EndsLine (a ++ b)) (hb : b ≠ []) : EndsLine b := by
  obtain ⟨before, c, heq, hc⟩ := h
  obtain ⟨init, d, rfl⟩ := (List.eq_nil_or_concat b).resolve_left hb
  rw [List.concat_eq_append, ← List.append_assoc] at heq
  obtain ⟨_, hd⟩ := List.append_inj' heq rfl
  cases hd
  exact ⟨init, c, List.concat_eq_append, hc⟩

/-- The line at the front is the first of the lines. -/
theorem currentLine_mem_lines (t : Text) : t.currentLine ∈ t.splitOnP isLineBreak := by
  by_cases hbreak : ∃ c ∈ t, isLineBreak c = true
  · obtain ⟨c, rest, hafter, hc⟩ := exists_afterLine hbreak
    have hline : ∀ d ∈ t.currentLine, isLineBreak d = false :=
      fun d hd => isLineBreak_of_mem_currentLine hd
    have hlines := List.splitOnP_append_cons_of_forall_mem hline c hc rest
    rw [← hafter, t.currentLine_append_afterLine] at hlines
    rw [hlines]
    exact List.mem_cons_self
  · have hnone : ∀ c ∈ t, isLineBreak c = false :=
      fun c hc => eq_false_of_ne_true fun h => hbreak ⟨c, hc, h⟩
    have hline := (currentLine_append (s := []) hnone (by simp)).1
    rw [List.append_nil] at hline
    rw [hline, List.splitOnP_eq_singleton hnone]
    exact List.mem_singleton_self t

theorem NoConditional.startsWithConditional_eq {d : Text} (h : NoConditional d) :
    startsWithConditional d = false := by
  have hline := h _ (currentLine_mem_lines d)
  rw [← beq_iff_eq, ← Bool.and_eq_true] at hline
  exact eq_false_of_ne_true hline

/-- The lines behind a line break are lines of the text. -/
theorem NoConditional.of_append {a b : Text} (h : NoConditional (a ++ b)) (ha : EndsLine a) :
    NoConditional b := by
  obtain ⟨before, c, rfl, hc⟩ := ha
  intro line hline
  refine h line ?_
  rw [List.append_assoc, List.singleton_append, List.splitOnP_append_cons _ _ hc]
  exact List.mem_append_right _ hline

/-- Nor is there one at the front if another text follows on a line of its own. -/
theorem NoConditional.startsWithConditional_append {d post : Text} (h : NoConditional d)
    (hends : post ≠ [] → EndsLine d) : startsWithConditional (d ++ post) = false := by
  by_cases hpost : post = []
  · rw [hpost, List.append_nil]
    exact h.startsWithConditional_eq
  · rw [startsWithConditional_of_break (hends hpost).exists_break]
    exact h.startsWithConditional_eq

/-- The first line of a text with its line break, and what is behind it. -/
theorem exists_first_line {d : Text} (h : ∃ c ∈ d, isLineBreak c = true) :
    ∃ ending more, d = d.currentLine ++ ending ++ more ∧ EndsLine ending ∧
      ∀ s, s.head? ≠ some '\n' → lineBreak (Text.afterLine (d ++ s)) = (ending, more ++ s) := by
  obtain ⟨ending, more, hd, _, hcut⟩ := lineBreak_append h
  obtain ⟨c, rest, hafter, hc⟩ := exists_afterLine h
  refine ⟨ending, more, hd, ?_, hcut⟩
  have hbreak := (isLineBreakText_lineBreak hc rest).1
  rw [← hafter, ← List.append_nil d, hcut [] (by simp)] at hbreak
  exact hbreak.endsLine

/-- **Lines without a conditional directive are skipped**, up to the end of the text or to the conditional
directive behind them. -/
theorem disabledLines_of_lines {d post : Text} (hne : d ≠ []) (hlines : NoConditional d)
    (hends : post ≠ [] → EndsLine d) (hpost : post = [] ∨ startsWithConditional post = true) :
    disabledLines (d ++ post) = (d, post) := by
  have hfeed : post.head? ≠ some '\n' := by
    rcases hpost with rfl | hcond
    · simp
    · obtain ⟨c, rest, rfl, hc⟩ := cons_of_startsWithConditional hcond
      rintro ⟨⟩
      cases hc
  -- Line by line: behind the first line stand again lines of this kind, or what follows.
  induction hlen : d.length using Nat.strongRecOn generalizing d with
  | ind n ih =>
    by_cases hbreak : ∃ c ∈ d, isLineBreak c = true
    · obtain ⟨ending, more, hd, hending, hcut⟩ := exists_first_line hbreak
      obtain ⟨c, rest, hafter, _⟩ := exists_afterLine hbreak
      have hfirst : EndsLine (d.currentLine ++ ending) := hending.append _
      have hnotEnd : (d.afterLine ++ post).isEmpty = false := by simp [hafter]
      rw [disabledLines]
      simp only [hcut post hfeed, (line_append hbreak post).1]
      rw [(line_append hbreak post).2, hnotEnd, Bool.false_or]
      by_cases hmore : more = []
      · rw [hmore, List.append_nil] at hd
        rw [hmore, List.nil_append, if_pos (by simpa using hpost), ← hd]
      · have hlines' : NoConditional more := by
          rw [hd] at hlines
          exact hlines.of_append hfirst
        have hends' : post ≠ [] → EndsLine more := by
          intro h
          have hlast := hends h
          rw [hd] at hlast
          exact hlast.of_append hmore
        have hshort : more.length < n := by
          have := List.length_pos_iff.mpr hfirst.ne_nil
          rw [← hlen, hd, List.length_append]
          omega
        rw [hlines'.startsWithConditional_append hends', ih _ hshort hmore hlines' hends' rfl,
          if_neg (by simp [hmore]), ← hd]
    · have hnil : post = [] := by
        refine Decidable.byContradiction fun h => hbreak ?_
        exact (hends h).exists_break
      have hnone : ∀ c ∈ d, isLineBreak c = false :=
        fun c hc => eq_false_of_ne_true fun h => hbreak ⟨c, hc, h⟩
      obtain ⟨hline, hafter⟩ := currentLine_append (s := []) hnone (by simp)
      rw [hnil, disabledLines]
      simp only [hline, hafter]
      simp [lineBreak, Reader.count]

/-! ## A span with replaced lines -/

theorem startsWithConditional_dropWhile (t : Text) :
    startsWithConditional (t.dropWhile fun d => isBlank d && !isLineBreak d) =
      startsWithConditional t := by
  have hrun : ∀ d ∈ t.takeWhile (fun d => isBlank d && !isLineBreak d),
      isBlank d = true ∧ isLineBreak d = false := by
    intro d hd
    simpa using List.all_eq_true.mp List.all_takeWhile d hd
  rw [← startsWithConditional_blank hrun, List.takeWhile_append_dropWhile]

/-- The line break before lines that are not compiled is read again before other lines. -/
theorem Reading.before_disabled {state : LexState} {t : Text} {r : ReadTrivium}
    (h : Reading true state t r) (hne : r.rest ≠ [])
    (hskip : r.state.skipsLine true r.rest = true) :
    EndsLine r.item.item.text ∧
      ∀ s : Text, s.head? ≠ some '\n' →
        Reading true state (r.item.item.text ++ s) { r with rest := s } := by
  simp only [LexState.skipsLine, Bool.and_eq_true, Bool.not_eq_true'] at hskip
  obtain ⟨⟨⟨_, hstart⟩, hoff⟩, hcond⟩ := hskip
  cases h with
  | disabled hne' hskips =>
    -- Lines that are not compiled end where a conditional directive is.
    have hrest := (disabledLines_rest t).resolve_left hne
    rw [show startsWithConditional (disabledLines t).2 = false from hcond] at hrest
    cases hrest
  | @newline c rest hskips hc =>
    exact ⟨(isLineBreakText_lineBreak hc rest).1.endsLine,
      fun s hs => Reading.newline_append hskips hc fun _ => hs⟩
  | @blank c rest hskips hb hc =>
    -- White space is read there only before a conditional directive.
    have hbranch := startsWithConditional_of_not_skipsLine hskips hstart hoff
    rw [← startsWithConditional_dropWhile] at hbranch
    exact absurd hbranch (Bool.eq_false_iff.mp hcond)
  | line | block | directive => cases hstart

/-- The first trivium of a span, and the rest of the span behind it. -/
theorem exists_reading_of_items {state : LexState} {t : Text} {x : Noted Trivium}
    {xs : List (Noted Trivium)} (h : (readTrivia true state t).items = x :: xs) :
    ∃ r, Reading true state t r ∧ r.item = x ∧ (readTrivia true r.state r.rest).items = xs ∧
      readTrivia true state t = { readTrivia true r.state r.rest with items := x :: xs } := by
  cases hr : readTrivium true state t with
  | none =>
    rw [readTrivia_of_none hr] at h
    cases h
  | some r =>
    have hreading := reading_of_readTrivium hr
    have hread := readTrivia_of_reading hreading
    rw [hread] at h
    obtain ⟨rfl, rfl⟩ := List.cons.inj h
    exact ⟨r, hreading, rfl, rfl, hread⟩

/-- Other lines are taken in their place. -/
theorem Reading.disabled_replaced {state : LexState} {t d post : Text}
    (hskip : state.skipsLine true t = true) (hd : Inert d post)
    (hpost : post = [] ∨ startsWithConditional post = true) :
    Reading true state (d ++ post)
      { item := ⟨⟨.disabledText, d⟩, none⟩, state := { state with lineStart := true },
        rest := post } := by
  have hskip' : state.skipsLine true (d ++ post) = true := by
    simp only [LexState.skipsLine, Bool.and_eq_true, Bool.not_eq_true'] at hskip ⊢
    exact ⟨hskip.1, hd.lines.startsWithConditional_append hd.ends⟩
  have hagain := Reading.disabled (by simp [hd.nonempty]) hskip'
  rw [disabledLines_of_lines hd.nonempty hd.lines hd.ends hpost] at hagain
  exact hagain

theorem notedText_append (a b : List (Noted Trivium)) :
    notedText (a ++ b) = notedText a ++ notedText b := by
  simp [notedText]

/-- **A span in which lines that are not compiled are replaced.** If it does not begin with them, a line
break stands before them. The same trivia are read around other lines, and the reading ends in the same
state with the same text left. -/
theorem readTrivia_replaced {state : LexState} {t d post : Text} {fault : Option Fault}
    {left right : List (Noted Trivium)}
    (hitems : (readTrivia true state t).items = left ++ ⟨⟨.disabledText, d⟩, fault⟩ :: right)
    (hpost : notedText right ++ (readTrivia true state t).rest = post) :
    fault = none ∧ (left = [] → t ≠ [] ∧ state.skipsLine true t = true) ∧
      (left ≠ [] → EndsLine (notedText left)) ∧
      ∀ d', Inert d' post →
        readTrivia true state (notedText left ++ (d' ++ post)) =
          { readTrivia true state t with items := left ++ ⟨⟨.disabledText, d'⟩, none⟩ :: right } := by
  induction left generalizing state t with
  | nil =>
    obtain ⟨r, hr, hitem, hright, hread⟩ := exists_reading_of_items hitems
    obtain ⟨hne, hskip, rfl⟩ := hr.eq_of_disabledText (by rw [hitem])
    obtain ⟨_, hfault⟩ := Noted.mk.inj hitem
    have hrest : (disabledLines t).2 = post := by
      rw [← hpost, hread, ← hright]
      exact (append_readTrivia true { state with lineStart := true } (disabledLines t).2).symm
    have hend := disabledLines_rest t
    simp only [ReadTrivium.plain, hrest] at hend hread hright
    refine ⟨hfault.symm, fun _ => ⟨hne, hskip⟩, fun h => absurd rfl h, fun d' hd' => ?_⟩
    have hagain := readTrivia_of_reading (Reading.disabled_replaced hskip hd' hend)
    rw [hright] at hagain
    rw [hread]
    exact hagain
  | cons x left ih =>
    rw [List.cons_append] at hitems
    obtain ⟨r, hr, rfl, hleft, hread⟩ := exists_reading_of_items hitems
    rw [hread] at hpost ⊢
    obtain ⟨hfault, hfirst, hbreak, hreplaced⟩ := ih hleft hpost
    have htext : notedText (r.item :: left) = r.item.item.text ++ notedText left := rfl
    -- The last piece before the lines is the line break they begin after; behind an earlier piece the
    -- text is the same up to that line break.
    have hagain : EndsLine (notedText (r.item :: left)) ∧ ∀ d', Inert d' post →
        Reading true state (r.item.item.text ++ (notedText left ++ (d' ++ post)))
          { r with rest := notedText left ++ (d' ++ post) } := by
      by_cases hnil : left = []
      · subst hnil
        obtain ⟨hne, hskip⟩ := hfirst rfl
        obtain ⟨hline, hagain⟩ := hr.before_disabled hne hskip
        refine ⟨by simpa [htext, notedText] using hline, fun d' hd' => hagain _ ?_⟩
        exact hd'.head?_append post
      · rw [htext]
        refine ⟨(hbreak hnil).append _, fun d' _ => hr.of_sameLine ?_⟩
        have hcat := append_readTrivia true r.state r.rest
        rw [hleft, notedText_append, List.append_assoc] at hcat
        rw [← hcat]
        exact .of_endsLine (hbreak hnil) _ _
    refine ⟨hfault, fun h => absurd h (by simp), fun _ => hagain.1, fun d' hd' => ?_⟩
    have hstep := readTrivia_of_reading (hagain.2 d' hd')
    rw [hreplaced d' hd'] at hstep
    rw [htext, List.append_assoc]
    exact hstep

/-! ## A text with replaced lines -/

/-- The first terminal of a text, and the text behind its leading trivia. -/
theorem leading_of_lexFrom {state : LexState} {t : Text} {l : LexedTerminal}
    {after : List LexedTerminal} (h : lexFrom state t = l :: after) :
    (readTrivia true state t).items = l.leading ∧
      (readTrivia true state t).rest =
        l.text ++ (notedText l.trailing ++ textOf (after.map LexedTerminal.terminal)) := by
  have htext := text_lexFrom state t
  have hcat := append_readTrivia true state t
  have hitems : (readTrivia true state t).items = l.leading := by
    cases htoken : readToken (readTrivia true state t).rest with
    | none =>
      rw [lexFrom_of_end (readToken_eq_none_iff.mp htoken)] at h
      rw [← (List.cons.inj h).1]
      rfl
    | some token =>
      rw [lexFrom_of_token htoken] at h
      rw [← (List.cons.inj h).1]
  refine ⟨hitems, ?_⟩
  rw [h, List.map_cons, textOf_cons, LexedTerminal.fullText_terminal, ← hitems, List.append_assoc,
    List.append_assoc] at htext
  exact List.append_cancel_left (hcat.trans htext.symm)

theorem textOf_append (as bs : List Terminal) : textOf (as ++ bs) = textOf as ++ textOf bs :=
  List.flatMap_append

/-- The terminal with the lines that are replaced, where it comes first. -/
theorem lexFrom_first_replaced {state : LexState} (ha : state.compilation.isActive = true)
    {t d post : Text} {fault : Option Fault} {left right : List (Noted Trivium)} {l : LexedTerminal}
    {after : List LexedTerminal} (hlex : lexFrom state t = l :: after)
    (hl : l.leading = left ++ ⟨⟨.disabledText, d⟩, fault⟩ :: right)
    (hpost : notedText right ++ (l.text ++ (notedText l.trailing ++
      textOf (after.map LexedTerminal.terminal))) = post) :
    fault = none ∧ EndsLine (notedText left) ∧
      ∀ d', Inert d' post →
        lexFrom state (notedText left ++ (d' ++ post)) =
          { l with leading := left ++ ⟨⟨.disabledText, d'⟩, none⟩ :: right } :: after := by
  obtain ⟨hitems, hrest⟩ := leading_of_lexFrom hlex
  rw [hl] at hitems
  rw [← hrest] at hpost
  obtain ⟨hfault, hfirst, hline, hreplaced⟩ := readTrivia_replaced hitems hpost
  -- A directive must have turned the lines off.
  have hne : left ≠ [] := by
    intro hnil
    have hskip := (hfirst hnil).2
    simp [LexState.skipsLine, ha] at hskip
  refine ⟨hfault, hline hne, fun d' hd' => ?_⟩
  have hread := hreplaced d' hd'
  cases htoken : readToken (readTrivia true state t).rest with
  | none =>
    have hend := readToken_eq_none_iff.mp htoken
    rw [lexFrom_of_end hend] at hlex
    obtain ⟨rfl, rfl⟩ := List.cons.inj hlex
    rw [lexFrom_of_end (by rw [hread]; exact hend), hread]
    rfl
  | some token =>
    rw [lexFrom_of_token htoken] at hlex
    obtain ⟨rfl, rfl⟩ := List.cons.inj hlex
    rw [lexFrom_of_token (by rw [hread]; exact htoken), hread]

/-- **A text in which lines that are not compiled are replaced.** A line break stands before them, and the
same terminals are read apart from that one trivium, which has no fault. -/
theorem lexFrom_replaced {state : LexState} (ha : state.compilation.isActive = true) {t d post : Text}
    {fault : Option Fault} {left right : List (Noted Trivium)} {before after : List LexedTerminal}
    {l : LexedTerminal} (hlex : lexFrom state t = before ++ l :: after)
    (hl : l.leading = left ++ ⟨⟨.disabledText, d⟩, fault⟩ :: right)
    (hpost : notedText right ++ (l.text ++ (notedText l.trailing ++
      textOf (after.map LexedTerminal.terminal))) = post) :
    fault = none ∧ EndsLine (textOf (before.map LexedTerminal.terminal) ++ notedText left) ∧
      ∀ d', Inert d' post →
        lexFrom state (textOf (before.map LexedTerminal.terminal) ++ notedText left ++ (d' ++ post)) =
          before ++ { l with leading := left ++ ⟨⟨.disabledText, d'⟩, none⟩ :: right } :: after := by
  induction before generalizing state t with
  | nil =>
    rw [List.map_nil, textOf_nil, List.nil_append]
    exact lexFrom_first_replaced ha hlex hl hpost
  | cons first before ih =>
    cases htoken : readToken (readTrivia true state t).rest with
    | none =>
      rw [lexFrom_of_end (readToken_eq_none_iff.mp htoken)] at hlex
      simp at hlex
    | some token =>
      have hleading : (readTrivia true state t).state.afterToken.compilation.isActive = true :=
        isActive_leading ha htoken
      have hactive := isActive_trailing hleading token.rest
      rw [lexFrom_of_token htoken, List.cons_append] at hlex
      generalize htrailing :
        readTrivia false (readTrivia true state t).state.afterToken token.rest = trailing
        at hlex hactive
      obtain ⟨rfl, hrest⟩ := List.cons.inj hlex
      obtain ⟨hfault, hline, hreplaced⟩ := ih hactive hrest
      have hsame : ∀ s, SameLine trailing.rest
          (textOf (before.map LexedTerminal.terminal) ++ notedText left ++ s) := by
        intro s
        have htext := text_lexFrom trailing.state trailing.rest
        rw [hrest, List.map_append, textOf_append, List.map_cons, textOf_cons,
          LexedTerminal.fullText_terminal, hl, notedText_append, List.append_assoc, List.append_assoc,
          List.append_assoc, ← List.append_assoc] at htext
        rw [← htext]
        exact .of_endsLine hline _ s
      refine ⟨hfault, ?_, fun d' hd' => ?_⟩
      · rw [List.map_cons, textOf_cons, List.append_assoc]
        exact hline.append _
      · have hagain := lexFrom_of_sameLine rfl htoken htrailing (hsame (d' ++ post))
        rw [hreplaced d' hd'] at hagain
        rw [List.map_cons, textOf_cons, LexedTerminal.fullText_terminal]
        simp only [List.append_assoc] at hagain ⊢
        exact hagain

/-! ## What is found wrong -/

/-- What is wrong with a terminal and its trivia, in order. -/
def LexedTerminal.faults (l : LexedTerminal) : List Fault :=
  l.leading.filterMap Noted.fault ++ l.fault.toList ++ l.trailing.filterMap Noted.fault

theorem map_fault_faultAt (offset : Nat) (text : Text) (fault : Option Fault) :
    (faultAt offset text fault).map Diagnostic.fault = fault.toList := by
  cases fault <;> rfl

theorem map_fault_triviaDiagnostics (offset : Nat) (items : List (Noted Trivium)) :
    (triviaDiagnostics offset items).map Diagnostic.fault = items.filterMap Noted.fault := by
  induction items generalizing offset with
  | nil => rfl
  | cons piece rest ih =>
    rw [triviaDiagnostics, List.map_append, map_fault_faultAt, ih]
    cases hfault : piece.fault <;> simp [hfault]

/-- **The kinds of the diagnostics do not depend on the offsets.** -/
theorem map_fault_lexDiagnosticsFrom (offset : Nat) (ls : List LexedTerminal) :
    (lexDiagnosticsFrom offset ls).map Diagnostic.fault = ls.flatMap LexedTerminal.faults := by
  induction ls generalizing offset with
  | nil => rfl
  | cons l rest ih =>
    rw [lexDiagnosticsFrom, List.map_append, ih, LexedTerminal.diagnostics, List.map_append,
      List.map_append, map_fault_triviaDiagnostics, map_fault_faultAt, map_fault_triviaDiagnostics]
    rfl

/-! ## Stripping around a trivium that is no comment -/

/-- The class of what comes next where a trivium that is no comment follows some trivia. -/
def SpanContext.classBeforeOther (context : SpanContext) (left : Trivia) : TriviumClass :=
  (left.head?.map (Trivium.classify context.stripDocs)).getD .other

theorem nextClass_append_other {context : SpanContext} {x : Trivium}
    (hx : x.classify context.stripDocs = .other) (left right : Trivia) :
    context.nextClass (left ++ x :: right) = some (context.classBeforeOther left) := by
  cases left with
  | nil => simp [SpanContext.nextClass, SpanContext.classBeforeOther, hx]
  | cons y left => rfl

/-- The end of the input does not come next. -/
theorem classBeforeOther_ne_endOfInput (context : SpanContext) (left : Trivia) :
    context.classBeforeOther left ≠ .endOfInput := by
  cases left with
  | nil => simp [SpanContext.classBeforeOther]
  | cons y left => exact classify_ne_endOfInput _ y

/-- The line rule keeps the trivium and does not look at its text. -/
theorem exists_lineRule_other (context : SpanContext) (left right : Trivia) (skip : Bool)
    (hskip : skip = true → left ≠ []) :
    ∃ kept, ∀ x : Trivium, x.classify context.stripDocs = .other →
      lineRule context skip (left ++ x :: right) = kept ++ x :: lineRule context false right := by
  induction left generalizing skip with
  | nil =>
    refine ⟨[], fun x hx => ?_⟩
    have hfalse : skip = false := eq_false_of_ne_true fun h => hskip h rfl
    simp [lineRule, hfalse, hx]
  | cons y left ih =>
    obtain ⟨kept, hkept⟩ := ih false (by simp)
    cases skip with
    | true =>
      refine ⟨kept, fun x hx => ?_⟩
      rw [List.cons_append, lineRule, if_pos rfl]
      exact hkept x hx
    | false =>
      simp only [List.cons_append, lineRule, Bool.false_eq_true, if_false]
      by_cases hbreak : y.classify context.stripDocs = .lineComment ∧
          context.classBeforeOther left = .lineBreak
      · have hne : left ≠ [] := by
          rintro rfl
          cases hbreak.2
        obtain ⟨kept', hkept'⟩ := ih context.collapse fun _ => hne
        refine ⟨kept', fun x hx => ?_⟩
        simp only [nextClass_append_other hx, hbreak, hkept' x hx]
      · by_cases hblank : y.classify context.stripDocs = .inlineWhitespace ∧
            context.classBeforeOther left = .lineComment
        · refine ⟨kept, fun x hx => ?_⟩
          simp only [nextClass_append_other hx, hblank, hkept x hx]
        · refine ⟨y :: kept, fun x hx => ?_⟩
          have hend := classBeforeOther_ne_endOfInput context left
          rw [nextClass_append_other hx, hkept x hx]
          split <;> simp_all

/-- So does the block rule; the blanks that wait there are the same too. -/
theorem exists_blockRule_other (context : SpanContext) (left right : Trivia) (skip : Bool)
    (pending : Trivia) (hskip : skip = true → left ≠ []) :
    ∃ kept pending', ∀ x : Trivium, x.classify context.stripDocs = .other →
      blockRule context skip pending (left ++ x :: right) =
        kept ++ x :: blockRule context false pending' right := by
  induction left generalizing skip pending with
  | nil =>
    refine ⟨[], pending, fun x hx => ?_⟩
    have hfalse : skip = false := eq_false_of_ne_true fun h => hskip h rfl
    simp [blockRule, hfalse, hx]
  | cons y left ih =>
    cases skip with
    | true =>
      obtain ⟨kept, pending', hkept⟩ := ih false pending (by simp)
      refine ⟨kept, pending', fun x hx => ?_⟩
      rw [List.cons_append, blockRule, if_pos rfl]
      exact hkept x hx
    | false =>
      simp only [List.cons_append, blockRule, Bool.false_eq_true, if_false]
      by_cases hblank : y.classify context.stripDocs = .inlineWhitespace ∧
          context.classBeforeOther left = .blockComment
      · obtain ⟨kept, pending', hkept⟩ := ih false (pending ++ [y]) (by simp)
        refine ⟨kept, pending', fun x hx => ?_⟩
        simp only [nextClass_append_other hx, hblank, hkept x hx]
      · by_cases hcomment : y.classify context.stripDocs = .blockComment
        · by_cases hbreak : context.classBeforeOther left = .lineBreak
          · have hne : left ≠ [] := by
              rintro rfl
              cases hbreak
            obtain ⟨kept, pending', hkept⟩ := ih context.collapse [] fun _ => hne
            refine ⟨kept, pending', fun x hx => ?_⟩
            simp only [nextClass_append_other hx, hcomment, hbreak, hkept x hx]
          · obtain ⟨kept, pending', hkept⟩ := ih false [] (by simp)
            refine ⟨(replacementBreak y.text).toList ++ pending ++ kept, pending', fun x hx => ?_⟩
            have hend := classBeforeOther_ne_endOfInput context left
            rw [nextClass_append_other hx, hkept x hx]
            split <;> simp_all
        · obtain ⟨kept, pending', hkept⟩ := ih false pending (by simp)
          refine ⟨y :: kept, pending', fun x hx => ?_⟩
          rw [nextClass_append_other hx, hkept x hx]
          split <;> simp_all

theorem onlyOther_disabledText (context : SpanContext) :
    OnlyOther context (·.kind == .disabledText) := by
  intro x hx
  simp [Trivium.classify, eq_of_beq hx]

/-- Two lists around an element are the same on its left if they are so for two different elements. -/
theorem eq_of_append_cons_eq {x y : Trivium} (hxy : x ≠ y) {a b a' b' : Trivia}
    (hx : a ++ x :: b = a' ++ x :: b') (hy : a ++ y :: b = a' ++ y :: b') : a = a' := by
  induction a generalizing a' with
  | nil =>
    cases a' with
    | nil => rfl
    | cons c more => exact absurd ((List.cons.inj hx).1.trans (List.cons.inj hy).1.symm) hxy
  | cons c rest ih =>
    cases a' with
    | nil => exact absurd ((List.cons.inj hx).1.symm.trans (List.cons.inj hy).1) hxy
    | cons c' more =>
      obtain ⟨rfl, hrest⟩ := List.cons.inj hx
      rw [ih hrest (List.cons.inj hy).2]

/-- **A trivium that is no comment stays**, and what is left around it does not depend on its text. The
same trivia of text that is not compiled are on its left. -/
theorem exists_stripSpan_other (context : SpanContext) (left right : Trivia) :
    ∃ left' right', (∀ x : Trivium, x.classify context.stripDocs = .other →
        stripSpan context (left ++ x :: right) = left' ++ x :: right') ∧
      left'.filter (·.kind == .disabledText) = left.filter (·.kind == .disabledText) := by
  obtain ⟨kept, hkept⟩ := exists_lineRule_other context left right false (by simp)
  obtain ⟨left', pending, hleft⟩ :=
    exists_blockRule_other context kept (lineRule context false right) false [] (by simp)
  have hspan : ∀ x : Trivium, x.classify context.stripDocs = .other →
      stripSpan context (left ++ x :: right) =
        left' ++ x :: blockRule context false pending (lineRule context false right) := by
    intro x hx
    rw [stripSpan, removeLineComments, hkept x hx, removeBlockComments, hleft x hx]
  refine ⟨left', _, hspan, ?_⟩
  -- Stripping keeps these trivia in order, whatever the text of the one in the middle is.
  have hfilter : ∀ d : Text,
      left'.filter (·.kind == .disabledText) ++ ⟨.disabledText, d⟩ ::
          (blockRule context false pending (lineRule context false right)).filter
            (·.kind == .disabledText) =
        left.filter (·.kind == .disabledText) ++ ⟨.disabledText, d⟩ ::
          right.filter (·.kind == .disabledText) := by
    intro d
    have hkeep := filter_stripSpan (onlyOther_disabledText context)
      (left ++ ⟨.disabledText, d⟩ :: right)
    rw [hspan _ rfl] at hkeep
    simpa using hkeep
  exact eq_of_append_cons_eq (by simp) (hfilter []) (hfilter ['\n'])

/-! ## Places -/

/-- A place among the leading trivia of a terminal of a file. -/
structure Place where
  before : List Terminal
  /-- The trivia of the terminal on the left of the place. -/
  left : Trivia
  right : Trivia
  kind : TokenKind
  token : Text
  trailing : Trivia
  after : List Terminal

namespace Place

/-- The terminals with a trivium at the place. -/
def fill (p : Place) (x : Trivium) : List Terminal :=
  p.before ++
    { kind := p.kind, text := p.token, leading := p.left ++ x :: p.right, trailing := p.trailing } ::
      p.after

/-- The text before the place. -/
def textBefore (p : Place) : Text :=
  textOf p.before ++ Trivia.text p.left

/-- The text after the place. -/
def textAfter (p : Place) : Text :=
  Trivia.text p.right ++ (p.token ++ (Trivia.text p.trailing ++ textOf p.after))

/-- Which of the trivia of text that is not compiled stands at the place: the number of the terminal, and
how many of them come before it in the terminal. -/
def index (p : Place) : Nat × Nat :=
  (p.before.length, p.left.countP (·.kind == .disabledText))

/-- The whole text, with some text at the place. -/
def textWith (p : Place) (d : Text) : Text :=
  p.textBefore ++ (d ++ p.textAfter)

theorem textOf_fill (p : Place) (x : Trivium) : textOf (p.fill x) = p.textWith x.text := by
  simp [fill, textWith, textBefore, textAfter, textOf_append, Terminal.fullText]

theorem text_of_fill {p : Place} {file : SourceFile} {x : Trivium} (h : file.terminals = p.fill x) :
    file.text = p.textWith x.text := by
  rw [SourceFile.text, h, textOf_fill]

/-- The terminal with the place has leading trivia, so a terminal right before it is not at the end. -/
theorem exists_trailingAtEnd_fill (p : Place) :
    ∃ atEnd, ∀ x : Trivium, trailingAtEnd (p.fill x).head? = atEnd := by
  obtain ⟨before, left, right, kind, token, trailing, after⟩ := p
  cases before with
  | nil =>
    refine ⟨false, fun x => ?_⟩
    simp [fill, trailingAtEnd]
  | cons first before => exact ⟨trailingAtEnd (some first), fun x => rfl⟩

/-- **Stripping with a trivium at the place that is no comment**: the trivium is at the corresponding
place again, which does not depend on its text. -/
theorem exists_stripTerminals_fill (p : Place) (stripDocs keepFirst : Bool) :
    ∃ q : Place, q.index = p.index ∧ ∀ x : Trivium, x.classify stripDocs = .other →
      stripTerminals stripDocs keepFirst (p.fill x) = q.fill x := by
  obtain ⟨before, left, right, kind, token, trailing, after⟩ := p
  induction before generalizing keepFirst with
  | nil =>
    obtain ⟨left', right', hcount, hspan⟩ : ∃ left' right' : Trivia,
        left'.countP (·.kind == .disabledText) = left.countP (·.kind == .disabledText) ∧
        ∀ x : Trivium, x.classify stripDocs = .other →
          (if keepFirst then left ++ x :: right
            else stripSpan (.leading (kind == .endOfFile) stripDocs) (left ++ x :: right)) =
            left' ++ x :: right' := by
      cases keepFirst with
      | true => exact ⟨left, right, rfl, fun x _ => rfl⟩
      | false =>
        obtain ⟨left', right', hspan, hfilter⟩ :=
          exists_stripSpan_other (.leading (kind == .endOfFile) stripDocs) left right
        refine ⟨left', right', ?_, hspan⟩
        rw [List.countP_eq_length_filter, hfilter, List.countP_eq_length_filter]
    refine ⟨{ before := [], left := left', right := right', kind, token,
              trailing := stripSpan (.trailing (trailingAtEnd after.head?) stripDocs) trailing,
              after := stripTerminals stripDocs false after },
      congrArg (Prod.mk 0) hcount, fun x hx => ?_⟩
    simp only [fill, List.nil_append, stripTerminals, stripTerminal, Terminal.isEnd, hspan x hx]
  | cons first before ih =>
    obtain ⟨q, hindex, hq⟩ := ih false
    obtain ⟨hlength, hcount⟩ := Prod.mk.inj hindex
    obtain ⟨atEnd, hnext⟩ :=
      exists_trailingAtEnd_fill ⟨before, left, right, kind, token, trailing, after⟩
    refine ⟨{ q with before := stripTerminal stripDocs keepFirst atEnd first :: q.before },
      Prod.ext (congrArg (· + 1) hlength) hcount, fun x hx => ?_⟩
    have hstrip : stripTerminals stripDocs keepFirst
        (fill ⟨first :: before, left, right, kind, token, trailing, after⟩ x) =
          stripTerminal stripDocs keepFirst
            (trailingAtEnd (fill ⟨before, left, right, kind, token, trailing, after⟩ x).head?) first ::
            stripTerminals stripDocs false
              (fill ⟨before, left, right, kind, token, trailing, after⟩ x) := rfl
    rw [hstrip, hnext x, hq x hx]
    rfl

/-- The place of the stripped file, whatever settings strip it. -/
theorem exists_strip_fill (p : Place) (settings : Settings) :
    ∃ q : Place, q.index = p.index ∧ ∀ (file : SourceFile) (x : Trivium),
      file.terminals = p.fill x → x.classify settings.stripDocs = .other →
        (file.strip settings).terminals = q.fill x := by
  obtain ⟨q, hindex, hq⟩ := p.exists_stripTerminals_fill settings.stripDocs settings.keepHeader
  refine ⟨q, hindex, fun file x hfile hx => ?_⟩
  rw [← hq x hx, ← hfile]
  rfl

end Place

/-! ## The whole file -/

/-- Text that is not compiled never trails a token. -/
theorem trailing_ne_disabledText (state : LexState) (t : Text) :
    ∀ a ∈ (lexFrom state t).map LexedTerminal.terminal, ∀ x ∈ a.trailing,
      x.kind ≠ .disabledText := by
  induction state, t using lexFrom.induct with
  | case1 state t leading =>
    rename_i hnone
    rw [lexFrom_of_end (readToken_eq_none_iff.mp hnone)]
    simp [LexedTerminal.atEnd, LexedTerminal.terminal]
  | case2 state t leading token htoken =>
    rename_i trailing ih
    rw [lexFrom_of_token htoken]
    intro a ha x hx
    rcases List.mem_cons.mp ha with rfl | ha
    · exact (onTokenLine_readTrivia _ _ x hx).2
    · exact ih a ha x hx

/-- **Replacing lines that are not compiled in a text**: the terminals are the same around them, and so
is what is found wrong. -/
theorem lex_replaced {t d : Text} {p : Place}
    (h : (SourceFile.ofText t).terminals = p.fill ⟨.disabledText, d⟩) {d' : Text}
    (hd' : Inert d' p.textAfter) :
    (SourceFile.ofText (p.textWith d')).terminals = p.fill ⟨.disabledText, d'⟩ ∧
      (lexDiagnostics (p.textWith d')).map Diagnostic.fault =
        (lexDiagnostics t).map Diagnostic.fault := by
  -- What was read is at the same place, with its notes.
  obtain ⟨before, more, hlex, hbefore, hmore⟩ := List.map_eq_append_iff.mp h
  obtain ⟨l, after, rfl, hl, hafter⟩ := List.map_eq_cons_iff.mp hmore
  obtain ⟨hkind, htext, hleading, htrailing⟩ := Terminal.mk.inj hl
  obtain ⟨left, more, hitems, hleft, hmore⟩ := List.map_eq_append_iff.mp hleading
  obtain ⟨⟨item, fault⟩, right, rfl, rfl, hright⟩ := List.map_eq_cons_iff.mp hmore
  have hpost : notedText right ++ (l.text ++ (notedText l.trailing ++
      textOf (after.map LexedTerminal.terminal))) = p.textAfter := by
    rw [notedText, notedText, hright, htext, htrailing, hafter]
    rfl
  have hfront : p.textBefore = textOf (before.map LexedTerminal.terminal) ++ notedText left := by
    rw [notedText, hleft, hbefore]
    rfl
  have hactive : LexState.initial.compilation.isActive = true := rfl
  obtain ⟨rfl, _, hreplaced⟩ := lexFrom_replaced hactive hlex hitems hpost
  have hagain : lex (p.textWith d') =
      before ++ { l with leading := left ++ ⟨⟨.disabledText, d'⟩, none⟩ :: right } :: after := by
    rw [Place.textWith, hfront]
    exact hreplaced d' hd'
  constructor
  · simp only [SourceFile.ofText, hagain, List.map_append, List.map_cons, Place.fill, hbefore, hafter,
      LexedTerminal.terminal, hleft, hright, hkind, htext, htrailing]
  · rw [lexDiagnostics, lexDiagnostics, map_fault_lexDiagnosticsFrom, map_fault_lexDiagnosticsFrom,
      hagain, hlex]
    simp [LexedTerminal.faults, hitems]

/-- **Text that is not compiled has no influence on anything else.** It is found only among the leading
trivia of a terminal. Wherever it stands in a file, put any other text there that is not empty, does not
begin with a line feed, has no line with a conditional directive, and ends with a line break unless
nothing follows. Then the text is read as the same terminals with only that trivium changed, the same
faults are found in the same order, and whatever the settings are, the stripped files differ only in that
trivium too. -/
theorem disabled_text_is_inert (t : Text) :
    (∀ a ∈ (SourceFile.ofText t).terminals, ∀ x ∈ a.trailing, x.kind ≠ .disabledText) ∧
    ∀ (p : Place) (d d' : Text), (SourceFile.ofText t).terminals = p.fill ⟨.disabledText, d⟩ →
      Inert d' p.textAfter →
        t = p.textWith d ∧
        (SourceFile.ofText (p.textWith d')).terminals = p.fill ⟨.disabledText, d'⟩ ∧
        (lexDiagnostics (p.textWith d')).map Diagnostic.fault =
          (lexDiagnostics t).map Diagnostic.fault ∧
        ∀ settings, ∃ q : Place, q.index = p.index ∧
          ((SourceFile.ofText t).strip settings).terminals = q.fill ⟨.disabledText, d⟩ ∧
          ((SourceFile.ofText (p.textWith d')).strip settings).terminals =
            q.fill ⟨.disabledText, d'⟩ ∧
          ((SourceFile.ofText t).strip settings).text = q.textWith d ∧
          ((SourceFile.ofText (p.textWith d')).strip settings).text = q.textWith d' := by
  refine ⟨trailing_ne_disabledText .initial t, fun p d d' h hd' => ?_⟩
  obtain ⟨hterminals, hfaults⟩ := lex_replaced h hd'
  refine ⟨?_, hterminals, hfaults, fun settings => ?_⟩
  · rw [← SourceFile.text_ofText t]
    exact Place.text_of_fill h
  · obtain ⟨q, hindex, hq⟩ := p.exists_strip_fill settings
    have hbefore := hq _ _ h rfl
    have hafter := hq _ _ hterminals rfl
    exact ⟨q, hindex, hbefore, hafter, Place.text_of_fill hbefore, Place.text_of_fill hafter⟩

/-- A definition, an open comment, a quote and a brace are put where one name is not compiled. -/
theorem disabled_text_is_inert_of_open_comment :
    ∃ p : Place, p.textWith "foo\n".toList = "#if A\nfoo\n#endif\nx; // c\n".toList ∧
      (SourceFile.ofText "#if A\n#define B\r/* \" \x7b\u2028#endif\nx; // c\n".toList).terminals =
        p.fill ⟨.disabledText, "#define B\r/* \" \x7b\u2028".toList⟩ ∧
      (lexDiagnostics "#if A\n#define B\r/* \" \x7b\u2028#endif\nx; // c\n".toList).map
        Diagnostic.fault = [] := by
  let p : Place :=
    { before := [], left := [⟨.directive, "#if A".toList⟩, ⟨.newline, ['\n']⟩],
      right := [⟨.directive, "#endif".toList⟩, ⟨.newline, ['\n']⟩], kind := .identifier, token := ['x'],
      trailing := [],
      after := (SourceFile.ofText "; // c\n".toList).terminals }
  have hinert : Inert "#define B\r/* \" \x7b\u2028".toList p.textAfter :=
    { nonempty := by decide, start := by decide, lines := by decide +kernel,
      ends := fun _ => ⟨"#define B\r/* \" \x7b".toList, '\u2028', by decide, by decide⟩ }
  obtain ⟨htext, hterminals, hfaults, _⟩ :=
    (disabled_text_is_inert "#if A\nfoo\n#endif\nx; // c\n".toList).2 p "foo\n".toList _
      (by decide +kernel) hinert
  have hreplaced : p.textWith "#define B\r/* \" \x7b\u2028".toList =
      "#if A\n#define B\r/* \" \x7b\u2028#endif\nx; // c\n".toList := by decide +kernel
  rw [hreplaced] at hterminals hfaults
  refine ⟨p, htext.symm, hterminals, hfaults.trans ?_⟩
  decide +kernel

end Uncomment
