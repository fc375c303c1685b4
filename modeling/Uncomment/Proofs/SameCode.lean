import Uncomment.Proofs.Acceptance
import Uncomment.Proofs.Lookahead
import Uncomment.Proofs.Rereading

/-!
# The code stays the same

Reading a stripped text gives back the tokens of the text, as long as no two tokens are **glued**: where
something stood between two tokens, something still does.

The new reading follows the old one terminal by terminal (`Resumes`). Between two tokens the trivia that
were kept are read again up to the next token (`leads_of_readable`); the token is read again because
what follows it agrees with what followed it before (`readToken_of_agree`). That it agrees is a matter
of all the tokens after it, up to the first place where something stands between two of them, and is
proved first (`agree_fromToken`).
-/

namespace Uncomment

/-! ## Tokens that are glued -/

/-- The texts between two tokens, for each two that follow each other. -/
def separators : List Terminal → List Text
  | a :: b :: rest =>
    (if a.isEnd || b.isEnd then [] else [Trivia.text (a.trailing ++ b.leading)]) ++
      separators (b :: rest)
  | [_] => []
  | [] => []

/-- No two tokens are glued: what stood between two tokens is not all gone. -/
def KeepsApart (before after : List Terminal) : Prop :=
  ∀ pair ∈ (separators before).zip (separators after), pair.1 ≠ [] → pair.2 ≠ []

instance (before after : List Terminal) : Decidable (KeepsApart before after) :=
  inferInstanceAs (Decidable (∀ pair ∈ _, _))

theorem KeepsApart.tail {a b a' b' : Terminal} {rest rest' : List Terminal}
    (h : KeepsApart (a :: b :: rest) (a' :: b' :: rest')) (ha : a'.isEnd = a.isEnd)
    (hb : b'.isEnd = b.isEnd) : KeepsApart (b :: rest) (b' :: rest') := by
  intro pair hpair
  refine h pair ?_
  simp only [separators, ha, hb]
  split
  · exact hpair
  · simp [hpair]

theorem KeepsApart.head {a b a' b' : Terminal} {rest rest' : List Terminal}
    (h : KeepsApart (a :: b :: rest) (a' :: b' :: rest')) (ha : a'.isEnd = a.isEnd)
    (hb : b'.isEnd = b.isEnd) (haEnd : a.isEnd = false) (hbEnd : b.isEnd = false)
    (hne : Trivia.text (a.trailing ++ b.leading) ≠ []) :
    Trivia.text (a'.trailing ++ b'.leading) ≠ [] := by
  refine h (Trivia.text (a.trailing ++ b.leading), Trivia.text (a'.trailing ++ b'.leading)) ?_ hne
  simp [separators, ha, hb, haEnd, hbEnd]

/-! ## Between two tokens -/

theorem Trivium.Fits.head? {atEnd : Bool} {state : LexState} {next : Trivia} {x : Trivium}
    (h : x.Fits atEnd state next) (hk : x.kind ≠ .directive ∧ x.kind ≠ .disabledText) (s : Text) :
    ∃ c, (x.text ++ s).head? = some c ∧ if x.kind.isComment then c = '/' else isBlank c = true := by
  cases h with
  | @blank text hne hb =>
    obtain ⟨c, rest, rfl⟩ := List.exists_cons_of_ne_nil hne
    exact ⟨c, rfl, (hb c (by simp)).1⟩
  | newline ht | disabledNewline ht =>
    rcases ht with rfl | ⟨c, rfl, hc⟩
    · exact ⟨_, rfl, by decide⟩
    · exact ⟨c, rfl, isBlank_of_isLineBreak hc⟩
  | line => exact ⟨'/', rfl, by simp⟩
  | block => exact ⟨'/', rfl, by simp⟩
  | directive => exact absurd rfl hk.1
  | disabled => exact absurd rfl hk.2

theorem Trivium.Fits.boundary {atEnd : Bool} {state : LexState} {next : Trivia} {x : Trivium}
    (h : x.Fits atEnd state next) (hk : x.kind ≠ .directive ∧ x.kind ≠ .disabledText) (s : Text) :
    Boundary (x.text ++ s) := by
  obtain ⟨c, hc, hclass⟩ := h.head? hk s
  intro d hd
  rw [hc] at hd
  cases hd
  split at hclass
  · exact Or.inr hclass
  · exact Or.inl hclass

/-- Of trivia on the line of a token only a comment begins with a slash. -/
theorem Trivium.Fits.head?_eq_slash_iff {atEnd : Bool} {state : LexState} {next : Trivia}
    {x : Trivium} (h : x.Fits atEnd state next)
    (hk : x.kind ≠ .directive ∧ x.kind ≠ .disabledText) (s : Text) :
    (x.text ++ s).head? = some '/' ↔ x.kind.isComment = true := by
  obtain ⟨c, hc, hclass⟩ := h.head? hk s
  rw [hc]
  cases hcomment : x.kind.isComment with
  | true => simpa [hcomment] using hclass
  | false =>
    rw [hcomment] at hclass
    simp only [Option.some.injEq, Bool.false_eq_true, iff_false]
    rintro rfl
    simp [isBlank] at hclass

/-- What trailing trivia can be. -/
def OnTokenLine (xs : Trivia) : Prop :=
  ∀ x ∈ xs, x.kind ≠ .directive ∧ x.kind ≠ .disabledText

theorem onTokenLine_readTrivia (state : LexState) (t : Text) :
    OnTokenLine (readTrivia false state t).trivia := by
  intro x hx
  obtain ⟨state', t', r, hr, rfl⟩ := exists_reading_of_mem hx
  cases hr with
  | disabled hne hskip => simp [LexState.skipsLine] at hskip
  | newline | blank => exact ⟨by simp [ReadTrivium.plain], by simp [ReadTrivium.plain]⟩
  | line => exact ⟨lineCommentKind_ne rfl, lineCommentKind_ne rfl⟩
  | block => exact ⟨blockCommentKind_ne rfl, blockCommentKind_ne rfl⟩
  | directive hskip hl => simp at hl

theorem OnTokenLine.stripSpan {context : SpanContext} {xs : Trivia} (h : OnTokenLine xs) :
    OnTokenLine (stripSpan context xs) := by
  intro y hy
  obtain ⟨middle, hline, hblock⟩ := stripSpan_steps context xs
  rcases hblock.mem hy with hmem | hkind
  · exact h y (hline.mem hmem)
  · simp [hkind]

theorem stripSpan_nil (context : SpanContext) : stripSpan context [] = [] := rfl

/-- **What follows a token still agrees** if what stands between it and the next one is not all gone,
and if what follows from the next one on agrees. -/
theorem agree_spans (context context' : SpanContext) {atEnd : Bool} {state : LexState}
    {trailing leading : Trivia} {s s' : Text} (hcollapse : context.collapse = false)
    (hread : Readable atEnd state trailing) (hends : LinesEnd context.atEnd trailing)
    (hline : OnTokenLine trailing) (hbreak : leading ≠ [] → endsWithBreak trailing = true)
    (hapart : s' ≠ [] → Trivia.text (trailing ++ leading) ≠ [] →
      Trivia.text (stripSpan context trailing ++ stripSpan context' leading) ≠ [])
    (hnext : Agree s s') :
    Agree (Trivia.text trailing ++ (Trivia.text leading ++ s))
      (Trivia.text (stripSpan context trailing) ++
        (Trivia.text (stripSpan context' leading) ++ s')) := by
  cases trailing with
  | nil =>
    -- Nothing trails the token, so nothing leads the next one either.
    have hnil : leading = [] := by
      cases leading with
      | nil => rfl
      | cons x rest => simpa [endsWithBreak] using hbreak (by simp)
    rw [hnil]
    exact hnext
  | cons x rest =>
    have hleft := hread.1.boundary (hline x (by simp))
      (Trivia.text rest ++ (Trivia.text leading ++ s))
    have hread' : Readable atEnd state (stripSpan context (x :: rest)) := readable_stripSpan hread
    have hline' : OnTokenLine (stripSpan context (x :: rest)) := hline.stripSpan
    rw [Trivia.text_cons, List.append_assoc]
    cases hstripped : stripSpan context (x :: rest) with
    | nil =>
      -- Then no line break ended the span, so nothing led the next token, and no token comes next.
      have hnil : leading = [] := by
        cases leading with
        | nil => rfl
        | cons y more =>
          have hkept := endsWithBreak_stripSpan hcollapse (hbreak (by simp))
          rw [hstripped] at hkept
          simp [endsWithBreak] at hkept
      have hs' : s' = [] := by
        cases s' with
        | nil => rfl
        | cons d more =>
          have hne := hread.1.text_ne_nil
          refine absurd ?_ (hapart (by simp) (by simp [hne]))
          rw [hstripped, hnil]
          rfl
      subst hnil hs'
      exact .apart hleft (by simp [Boundary, stripSpan_nil]) (by simp [stripSpan_nil])
    | cons y more =>
      rw [hstripped] at hread' hline'
      have hfits := hread'.1
      rw [Trivia.text_cons, List.append_assoc]
      refine .apart hleft (hfits.boundary (hline' y (by simp)) _) fun hslash => ?_
      -- A comment that comes first now came first before.
      have hcomment : y.kind.isComment = true :=
        (hfits.head?_eq_slash_iff (hline' y (by simp)) _).mp hslash
      have hstarts : startsWithComment (x :: rest) = true := by
        refine startsWithComment_stripSpan hcollapse hends ?_
        rw [hstripped]
        exact hcomment
      exact (hread.1.head?_eq_slash_iff (hline x (by simp)) _).mpr hstarts

/-! ## What follows a token -/

/-- The terminals of a text, stripped. -/
def strippedFrom (stripDocs keepFirst : Bool) (state : LexState) (t : Text) : List Terminal :=
  stripTerminals stripDocs keepFirst ((lexFrom state t).map LexedTerminal.terminal)

/-- The text of terminals from the first token on. -/
def fromToken : List Terminal → Text
  | [] => []
  | a :: rest => a.text ++ (Trivia.text a.trailing ++ textOf rest)

theorem textOf_eq_fromToken (a : Terminal) (rest : List Terminal) :
    textOf (a :: rest) = Trivia.text a.leading ++ fromToken (a :: rest) := by
  simp [Terminal.fullText, fromToken]

/-- The first terminal of a text, as far as its leading trivia go. -/
theorem lexFrom_head (state : LexState) (t : Text) :
    ∃ l rest, lexFrom state t = l :: rest ∧ l.leading = (readTrivia true state t).items ∧
      ((readTrivia true state t).rest = [] → rest = [] ∧ l.text = [] ∧ l.trailing = []) ∧
      l.terminal.isEnd = (readTrivia true state t).rest.isEmpty := by
  cases htoken : readToken (readTrivia true state t).rest with
  | none =>
    have hnil := readToken_eq_none_iff.mp htoken
    refine ⟨_, _, lexFrom_of_end hnil, rfl, fun _ => ⟨rfl, rfl, rfl⟩, ?_⟩
    rw [hnil]
    rfl
  | some token =>
    have hne := ne_nil_of_readToken htoken
    refine ⟨_, _, lexFrom_of_token htoken, rfl, fun hnil => absurd hnil hne, ?_⟩
    have hempty : (readTrivia true state t).rest.isEmpty = false := by simpa using hne
    rw [hempty]
    simpa [LexedTerminal.terminal, Terminal.isEnd] using kind_readToken htoken

/-- After the trivia that trail a token the text is compiled. -/
theorem isActive_trailing {state : LexState} (ha : state.compilation.isActive = true) (t : Text) :
    (readTrivia false state t).state.compilation.isActive = true := by
  have hs : state.Settled false t := Or.inl ha
  exact (settled_readTrivia hs).resolve_right fun h => by simp at h

/-- Something leads the next token only after a line break. -/
theorem endsWithBreak_trailing {state : LexState} (hs : state.lineStart = false) {t : Text}
    (h : (readTrivia true (readTrivia false state t).state (readTrivia false state t).rest).trivia ≠
      []) : endsWithBreak (readTrivia false state t).trivia = true := by
  rcases trailing_ends hs t with ⟨before, last, heq, hlast⟩ | ⟨_, hnone⟩
  · rw [heq]
    simp [endsWithBreak, hlast]
  · rw [readTrivia_of_none hnone] at h
    exact absurd rfl h

/-- What follows a token agrees with what follows it in the stripped text, if this is so for the next
token. -/
theorem agree_after_token {stripDocs keepFirst : Bool} {state : LexState} {t : Text}
    {r : ReadTrivia} {a : Terminal} (hr : readTrivia false state t = r)
    (hapart : KeepsApart (a :: (lexFrom r.state r.rest).map LexedTerminal.terminal)
      (stripTerminals stripDocs keepFirst
        (a :: (lexFrom r.state r.rest).map LexedTerminal.terminal)))
    (hs : state.lineStart = false) (ha : state.compilation.isActive = true)
    (hfault : ∀ x ∈ r.items, x.fault = none) (hend : a.isEnd = false)
    (htrailing : a.trailing = r.trivia)
    (hnext : Agree (readTrivia true r.state r.rest).rest
      (fromToken (strippedFrom stripDocs false r.state r.rest))) :
    Agree t (Trivia.text (stripSpan (.trailing r.rest.isEmpty stripDocs) r.trivia) ++
      textOf (strippedFrom stripDocs false r.state r.rest)) := by
  obtain ⟨l, rest, hl, hleading, hnil, hisEnd⟩ := lexFrom_head r.state r.rest
  have htext : t = Trivia.text r.trivia ++
      (Trivia.text (readTrivia true r.state r.rest).trivia ++
        (readTrivia true r.state r.rest).rest) := by
    have hfirst : Trivia.text (readTrivia false state t).trivia ++ (readTrivia false state t).rest =
        t := append_readTrivia false state t
    have hsecond : Trivia.text (readTrivia true r.state r.rest).trivia ++
        (readTrivia true r.state r.rest).rest = r.rest := append_readTrivia true r.state r.rest
    rw [hr] at hfirst
    rw [hsecond, hfirst]
  have hatEnd := trailingAtEnd_lexFrom r.state r.rest
  have hread : Readable (readTrivia false state t).rest.isEmpty state
      (readTrivia false state t).trivia :=
    readable_readTrivia (Or.inl ha) (by rw [hr]; exact hfault) (isActive_trailing ha t)
  have hends := linesEnd_readTrivia false state t
  have hline := onTokenLine_readTrivia state t
  have hbreak := endsWithBreak_trailing hs (t := t)
  have hl' : l.terminal.leading = (readTrivia true r.state r.rest).trivia := by
    simp [LexedTerminal.terminal, hleading, ReadTrivia.trivia]
  rw [hr] at hread hends hline hbreak
  rw [← hl'] at htext hbreak
  simp only [strippedFrom, hl, List.map_cons, stripTerminals] at hnext hatEnd hapart ⊢
  rw [textOf_eq_fromToken, htext]
  refine agree_spans (.trailing r.rest.isEmpty stripDocs) (.leading l.terminal.isEnd stripDocs) rfl
    hread hends hline hbreak ?_ hnext
  intro hne hsep
  have hrest : (readTrivia true r.state r.rest).rest ≠ [] := by
    intro hend
    obtain ⟨rfl, htoken, htrailing⟩ := hnil hend
    refine hne ?_
    simp [fromToken, stripTerminal, stripTerminals, LexedTerminal.terminal, htoken, htrailing,
      stripSpan_nil]
  have hkept := hapart.head rfl rfl hend (by rw [hisEnd]; simpa using hrest)
    (by rw [htrailing]; exact hsep)
  simpa only [stripTerminal, htrailing, hatEnd, Bool.false_eq_true, if_false] using hkept

theorem KeepsApart.of_cons {stripDocs keepFirst : Bool} {a : Terminal} {rest : List Terminal}
    (h : KeepsApart (a :: rest) (stripTerminals stripDocs keepFirst (a :: rest))) :
    KeepsApart rest (stripTerminals stripDocs false rest) := by
  cases rest with
  | nil => simp [KeepsApart, separators]
  | cons b rest => exact KeepsApart.tail h rfl rfl

/-- Before a token the text is compiled. -/
theorem isActive_leading {state : LexState} (ha : state.compilation.isActive = true) {t : Text}
    {token : ReadToken} (h : readToken (readTrivia true state t).rest = some token) :
    (readTrivia true state t).state.compilation.isActive = true := by
  exact isActive_of_token (settled_readTrivia (Or.inl ha)) (readTrivium_readTrivia state t)
    (ne_nil_of_readToken h)

/-- **From the first token on, a text and the stripped text agree.** -/
theorem agree_fromToken {stripDocs keepFirst : Bool} {state : LexState} {t : Text}
    (ha : state.compilation.isActive = true) (hclean : ∀ l ∈ lexFrom state t, l.Clean)
    (hapart : KeepsApart ((lexFrom state t).map LexedTerminal.terminal)
      (strippedFrom stripDocs keepFirst state t)) :
    Agree (readTrivia true state t).rest (fromToken (strippedFrom stripDocs keepFirst state t)) := by
  unfold strippedFrom at hapart ⊢
  fun_induction lexFrom state t generalizing keepFirst with
  | case1 state t leading =>
    rename_i hnone
    have hnil : (readTrivia true state t).rest = [] := readToken_eq_none_iff.mp hnone
    have hnil' : fromToken (stripTerminals stripDocs keepFirst
        (List.map LexedTerminal.terminal [.atEnd leading])) = [] := by
      simp [fromToken, stripTerminals, stripTerminal, LexedTerminal.terminal, LexedTerminal.atEnd,
        stripSpan_nil]
    rw [hnil, hnil']
    exact .apart (by simp [Boundary]) (by simp [Boundary]) (by simp)
  | case2 state t leading token h trailing =>
    rename_i ih
    have hactive : leading.state.afterToken.compilation.isActive = true := isActive_leading ha h
    obtain ⟨hfirst, hrest⟩ := List.forall_mem_cons.mp hclean
    have hnext := ih (isActive_trailing hactive _) hrest hapart.of_cons
    have hend : (token.kind == .endOfFile) = false := by simpa using kind_readToken h
    have hafter := agree_after_token rfl hapart rfl hactive hfirst.trailing hend rfl hnext
    have hatEnd := trailingAtEnd_lexFrom trailing.state trailing.rest
    have htoken := hafter.append token.text
    rw [(sound_readToken h).1] at htoken
    simp only [List.map_cons, stripTerminals, stripTerminal, fromToken]
    rw [hatEnd]
    exact htoken

/-! ## One terminal after the other -/

/-- What a reading of the stripped text may find: no comment to remove, except where trivia are kept. -/
def Passes (stripDocs keep : Bool) (x : Trivium) : Prop :=
  keep = true ∨ x.isRemovable stripDocs = false

theorem allowsBlanks_passes (stripDocs keep : Bool) : AllowsBlanks (Passes stripDocs keep) := by
  intro x hx
  refine Or.inr ?_
  rcases hx with h | h <;> simp [Trivium.isRemovable, Trivium.classify, h]

/-- A reading stands in the stripped text where another one stands in the text: from here it comes to
the stripped text of what is left, with the same compilation. -/
structure Resumes (stripDocs keepFirst : Bool) (state : LexState) (t : Text) (state' : LexState)
    (u : Text) : Prop where
  active : state.compilation.isActive = true
  clean : ∀ l ∈ lexFrom state t, l.Clean
  apart : KeepsApart ((lexFrom state t).map LexedTerminal.terminal)
    (strippedFrom stripDocs keepFirst state t)
  leads : ∃ start : LexState, start.compilation = state.compilation ∧
    ((readTrivia true state t).trivia ≠ [] → start.lineStart = true) ∧
    Leads (Passes stripDocs keepFirst) state' u start
      (textOf (strippedFrom stripDocs keepFirst state t))

/-- The leading trivia of a terminal, stripped or kept. -/
def strippedLeading (stripDocs keep atEnd : Bool) (xs : Trivia) : Trivia :=
  if keep then xs else stripSpan (.leading atEnd stripDocs) xs

theorem strippedLeading_nil (stripDocs keep atEnd : Bool) :
    strippedLeading stripDocs keep atEnd [] = [] := by
  simp [strippedLeading, stripSpan_nil]

theorem readable_strippedLeading {stripDocs keep atEnd : Bool} {state : LexState} {xs : Trivia}
    (h : Readable atEnd state xs) :
    Readable atEnd state (strippedLeading stripDocs keep atEnd xs) := by
  unfold strippedLeading
  split
  · exact h
  · exact readable_stripSpan h

theorem passes_strippedLeading {stripDocs keep atEnd : Bool} {xs : Trivia}
    (h : LinesEnd atEnd xs) :
    ∀ x ∈ strippedLeading stripDocs keep atEnd xs, Passes stripDocs keep x := by
  intro x hx
  unfold strippedLeading at hx
  split at hx
  · next hkeep => exact Or.inl hkeep
  · exact Or.inr (isRemovable_stripSpan (.leading atEnd stripDocs) h x hx)

theorem compilation_strippedLeading {stripDocs keep atEnd : Bool} {state state' : LexState}
    (h : state'.compilation = state.compilation) (xs : Trivia) :
    (state'.afterAll (strippedLeading stripDocs keep atEnd xs)).compilation =
      (state.afterAll xs).compilation := by
  unfold strippedLeading
  split
  · rw [compilation_afterAll, compilation_afterAll, h]
  · exact compilation_stripSpan _ h xs

/-- The leading trivia of the stripped text are read up to what follows them. -/
theorem leads_strippedLeading {stripDocs keep : Bool} {state start : LexState} {t s : Text}
    (ha : state.compilation.isActive = true)
    (hclean : ∀ x ∈ (readTrivia true state t).items, x.fault = none)
    (hactive : (readTrivia true state t).state.compilation.isActive = true)
    (hc : start.compilation = state.compilation)
    (hstart : (readTrivia true state t).trivia ≠ [] → start.lineStart = true)
    (hs : Follows (readTrivia true state t).rest.isEmpty s)
    (hfirst : directivesFirst true (strippedLeading stripDocs keep
      (readTrivia true state t).rest.isEmpty (readTrivia true state t).trivia) = true) :
    Leads (Passes stripDocs keep) start
      (Trivia.text (strippedLeading stripDocs keep (readTrivia true state t).rest.isEmpty
        (readTrivia true state t).trivia) ++ s)
      (start.afterAll (strippedLeading stripDocs keep (readTrivia true state t).rest.isEmpty
        (readTrivia true state t).trivia)) s := by
  have hread : Readable (readTrivia true state t).rest.isEmpty start
      (strippedLeading stripDocs keep (readTrivia true state t).rest.isEmpty
        (readTrivia true state t).trivia) :=
    readable_strippedLeading ((readable_readTrivia (Or.inl ha) hclean hactive).of_active ha hc)
  refine leads_of_readable hread hs ?_ (allowsBlanks_passes _ _)
    (passes_strippedLeading (linesEnd_readTrivia true state t))
  cases hls : start.lineStart with
  | true => exact hfirst
  | false =>
    have hnil : (readTrivia true state t).trivia = [] := by
      refine Decidable.byContradiction fun hne => ?_
      rw [hstart hne] at hls
      simp at hls
    rw [hnil, strippedLeading_nil]
    rfl

/-- Nothing follows the trivia at the end of a text. -/
theorem follows_strippedFrom (stripDocs keepFirst : Bool) (state : LexState) (t : Text) :
    Follows t.isEmpty (textOf (strippedFrom stripDocs keepFirst state t)) := by
  intro hempty
  obtain rfl : t = [] := by simpa using hempty
  have hnone : readTrivium true state [] = none := rfl
  rw [strippedFrom, lexFrom_of_end (by rw [readTrivia_of_none hnone]), readTrivia_of_none hnone]
  simp [stripTerminals, stripTerminal, LexedTerminal.terminal, LexedTerminal.atEnd,
    Terminal.fullText, stripSpan_nil]

theorem directivesFirst_of_onTokenLine {xs : Trivia} (h : OnTokenLine xs) (lineStart : Bool) :
    directivesFirst lineStart xs = true := by
  induction xs generalizing lineStart with
  | nil => rfl
  | cons x rest ih =>
    have hx : (x.kind != .directive) = true := by simpa using (h x (by simp)).1
    rw [directivesFirst, hx, ih fun y hy => h y (by simp [hy])]
    rfl

theorem isActive_of_not_inGroup {c : Compilation} (h : c.inGroup = false) : c.isActive = true := by
  simp only [Compilation.inGroup, Bool.not_eq_false', List.isEmpty_iff] at h
  simp [Compilation.isActive, h]

/-- A text without a fault does not end inside an `#if`. -/
theorem inGroup_of_clean {r : ReadTrivia} (h : (LexedTerminal.atEnd r).Clean) :
    r.state.compilation.inGroup = false := by
  cases hg : r.state.compilation.inGroup with
  | false => rfl
  | true => simpa [LexedTerminal.atEnd, hg] using h.fault

/-- The trailing trivia of the stripped text are read up to what follows them. -/
theorem leads_strippedTrailing {stripDocs : Bool} {state next : LexState} {t s : Text}
    {r : ReadTrivia} (hr : readTrivia false state t = r) (ha : state.compilation.isActive = true)
    (hclean : ∀ x ∈ r.items, x.fault = none) (hc : next.compilation = state.compilation)
    (hs : Follows r.rest.isEmpty s) :
    Leads (Passes stripDocs false) next
      (Trivia.text (stripSpan (.trailing r.rest.isEmpty stripDocs) r.trivia) ++ s)
      (next.afterAll (stripSpan (.trailing r.rest.isEmpty stripDocs) r.trivia)) s := by
  subst hr
  have hread := readable_readTrivia (Or.inl ha) hclean (isActive_trailing ha t)
  refine leads_of_readable (readable_stripSpan (hread.of_active ha hc)) hs
    (directivesFirst_of_onTokenLine (onTokenLine_readTrivia state t).stripSpan _)
    (allowsBlanks_passes _ _) fun x hx => Or.inr ?_
  exact isRemovable_stripSpan (.trailing _ stripDocs) (linesEnd_readTrivia false state t) x hx

/-- The stripped terminals, from a token. -/
theorem strippedFrom_of_token {stripDocs keepFirst : Bool} {state : LexState} {t : Text}
    {token : ReadToken} {r : ReadTrivia}
    (htoken : readToken (readTrivia true state t).rest = some token)
    (hr : readTrivia false (readTrivia true state t).state.afterToken token.rest = r) :
    strippedFrom stripDocs keepFirst state t =
      { kind := token.kind, text := token.text,
        leading := strippedLeading stripDocs keepFirst (readTrivia true state t).rest.isEmpty
          (readTrivia true state t).trivia,
        trailing := stripSpan (.trailing r.rest.isEmpty stripDocs) r.trivia } ::
        strippedFrom stripDocs false r.state r.rest := by
  have hlex := lexFrom_of_token htoken
  rw [hr] at hlex
  have hend : (token.kind == .endOfFile) = (readTrivia true state t).rest.isEmpty := by
    obtain ⟨l, rest, heq, _, _, hisEnd⟩ := lexFrom_head state t
    rw [hlex] at heq
    cases heq
    exact hisEnd
  rw [strippedFrom, hlex, ← hend, List.map_cons, stripTerminals, trailingAtEnd_lexFrom]
  rfl

/-- The stripped terminals, at the end of the text. -/
theorem strippedFrom_of_end {stripDocs keepFirst : Bool} {state : LexState} {t : Text}
    (hend : (readTrivia true state t).rest = []) :
    strippedFrom stripDocs keepFirst state t =
      [{ kind := .endOfFile, text := [],
         leading := strippedLeading stripDocs keepFirst (readTrivia true state t).rest.isEmpty
           (readTrivia true state t).trivia,
         trailing := [] }] := by
  rw [strippedFrom, lexFrom_of_end hend, hend]
  rfl

namespace Resumes

variable {stripDocs keepFirst : Bool} {state state' : LexState} {t u : Text}

theorem after_token (h : Resumes stripDocs keepFirst state t state' u)
    (hs : state'.lineStart = false) :
    Resumes stripDocs keepFirst state t (readTrivia false state' u).state
      (readTrivia false state' u).rest := by
  obtain ⟨start, hc, hstart, hleads⟩ := h.leads
  exact ⟨h.active, h.clean, h.apart, start, hc, hstart, hleads.after_token hs⟩

/-- At the end of the text the stripped text ends. -/
theorem ends (h : Resumes stripDocs keepFirst state t state' u)
    (hend : (readTrivia true state t).rest = [])
    (hfirst : directivesFirst true (strippedLeading stripDocs keepFirst
      (readTrivia true state t).rest.isEmpty (readTrivia true state t).trivia) = true) :
    ∃ items, lexFrom state' u =
        [{ leading := items, kind := .endOfFile, text := [], fault := none, trailing := [] }] ∧
      ∀ x ∈ items, x.fault = none ∧ Passes stripDocs keepFirst x.item := by
  obtain ⟨start, hc, hstart, hleads⟩ := h.leads
  have hlex := lexFrom_of_end hend
  have hclean : (LexedTerminal.atEnd (readTrivia true state t)).Clean :=
    h.clean _ (by rw [hlex]; simp)
  have hgroup := inGroup_of_clean hclean
  rw [strippedFrom_of_end hend, textOf_cons] at hleads
  simp only [Terminal.fullText, textOf_nil, Trivia.text_nil, List.append_nil] at hleads
  rw [← List.append_nil (Trivia.text _)] at hleads
  obtain ⟨hstate, hrest, hitems⟩ := (hleads.trans (leads_strippedLeading h.active hclean.leading
    (isActive_of_not_inGroup hgroup) hc hstart (by simp [Follows]) hfirst)).ends rfl
  refine ⟨(readTrivia true state' u).items, ?_, hitems⟩
  rw [lexFrom_of_end hrest, LexedTerminal.atEnd, hstate, compilation_strippedLeading hc,
    ← state_readTrivia, hgroup]
  rfl

/-- After a token the reading stands where its trailing trivia are. -/
theorem of_trailing {r : ReadTrivia} {next : LexState} (hr : readTrivia false state t = r)
    (hs : state.lineStart = false) (ha : state.compilation.isActive = true)
    (hclean : ∀ x ∈ r.items, x.fault = none) (hrest : ∀ l ∈ lexFrom r.state r.rest, l.Clean)
    (hapart : KeepsApart ((lexFrom r.state r.rest).map LexedTerminal.terminal)
      (strippedFrom stripDocs false r.state r.rest))
    (hc : next.compilation = state.compilation) :
    Resumes stripDocs false r.state r.rest next
      (Trivia.text (stripSpan (.trailing r.rest.isEmpty stripDocs) r.trivia) ++
        textOf (strippedFrom stripDocs false r.state r.rest)) := by
  have hactive := isActive_trailing ha t
  have hstate := state_readTrivia false state t
  have hbreak := endsWithBreak_trailing hs (t := t)
  rw [hr] at hactive hstate hbreak
  refine ⟨hactive, hrest, hapart, _, ?_, fun hne => ?_,
    leads_strippedTrailing hr ha hclean hc (follows_strippedFrom stripDocs false r.state r.rest)⟩
  · rw [compilation_stripSpan _ hc, ← hstate]
  · exact lineStart_of_endsWithBreak (endsWithBreak_stripSpan rfl (hbreak hne)) next

/-- **At a token the stripped text has the same token**, and the reading goes on after it. -/
theorem token {token : ReadToken} {r : ReadTrivia}
    (h : Resumes stripDocs keepFirst state t state' u)
    (htoken : readToken (readTrivia true state t).rest = some token)
    (hr : readTrivia false (readTrivia true state t).state.afterToken token.rest = r)
    (hfirst : directivesFirst true (strippedLeading stripDocs keepFirst
      (readTrivia true state t).rest.isEmpty (readTrivia true state t).trivia) = true) :
    ∃ items next s, next.lineStart = false ∧
      lexFrom state' u =
        { leading := items, kind := token.kind, text := token.text, fault := none,
          trailing := (readTrivia false next s).items } ::
          lexFrom (readTrivia false next s).state (readTrivia false next s).rest ∧
      (∀ x ∈ items, x.fault = none ∧ Passes stripDocs keepFirst x.item) ∧
      Resumes stripDocs false r.state r.rest next s := by
  obtain ⟨start, hc, hstart, hleads⟩ := h.leads
  have hlex := lexFrom_of_token htoken
  rw [hr] at hlex
  have hall := h.clean
  have hapart := h.apart
  rw [hlex] at hall hapart
  obtain ⟨hclean, hrest⟩ := List.forall_mem_cons.mp hall
  have hactive : (readTrivia true state t).state.afterToken.compilation.isActive = true :=
    isActive_leading h.active htoken
  have hactive' : r.state.compilation.isActive = true := by
    rw [← hr]
    exact isActive_trailing hactive token.rest
  -- What follows the token in the stripped text agrees with what followed it.
  rw [strippedFrom, hlex] at hapart
  have hagree := agree_after_token hr hapart rfl hactive hclean.trailing
    (by simpa [LexedTerminal.terminal, Terminal.isEnd] using kind_readToken htoken) rfl
    (agree_fromToken hactive' hrest hapart.of_cons)
  rw [strippedFrom_of_token htoken hr, textOf_cons, Terminal.fullText, List.append_assoc,
    List.append_assoc] at hleads
  generalize hs : Trivia.text (stripSpan (.trailing r.rest.isEmpty stripDocs) r.trivia) ++
    textOf (strippedFrom stripDocs false r.state r.rest) = s at hleads hagree
  generalize hys : strippedLeading stripDocs keepFirst (readTrivia true state t).rest.isEmpty
    (readTrivia true state t).trivia = ys at hleads
  -- So the leading trivia are read up to the token and no further.
  have hcomp : (start.afterAll ys).compilation = (readTrivia true state t).state.compilation := by
    rw [← hys, compilation_strippedLeading hc, ← state_readTrivia]
  have hnone : readTrivium true (start.afterAll ys) (token.text ++ s) = none :=
    readTrivium_of_agree (readTrivium_readTrivia state t) htoken hclean.fault hagree
      (by rw [hcomp]; exact hactive)
  have hleading : Leads (Passes stripDocs keepFirst) start (Trivia.text ys ++ (token.text ++ s))
      (start.afterAll ys) (token.text ++ s) := by
    rw [← hys]
    refine leads_strippedLeading h.active hclean.leading hactive hc hstart ?_ hfirst
    exact fun hempty => absurd (List.isEmpty_iff.mp hempty) (ne_nil_of_readToken htoken)
  obtain ⟨hstate, hrest', hitems⟩ := (hleads.trans hleading).ends hnone
  -- There the token is read again, and what is left is the stripped text of what was left.
  have hagain : readToken (readTrivia true state' u).rest = some { token with rest := s } := by
    rw [hrest']
    exact readToken_of_agree htoken hclean.fault hagree
  refine ⟨(readTrivia true state' u).items, (start.afterAll ys).afterToken, s, rfl, ?_, hitems, ?_⟩
  · rw [lexFrom_of_token hagain, hstate]
    simp only [show token.fault = none from hclean.fault]
  · rw [← hs]
    exact of_trailing hr rfl hactive hclean.trailing hrest hapart.of_cons hcomp

end Resumes

theorem clean_of_items {items : List (Noted Trivium)} {P : Trivium → Prop}
    (h : ∀ x ∈ items, x.fault = none ∧ P x.item) : ∀ x ∈ items, x.fault = none :=
  fun x hx => (h x hx).1

/-- The leading trivia that are read belong to the body only where they are not kept. -/
theorem isRemovable_of_passes {stripDocs keep : Bool} {items : List (Noted Trivium)}
    (h : ∀ x ∈ items, x.fault = none ∧ Passes stripDocs keep x.item) :
    ∀ x ∈ (if keep then [] else items.map Noted.item), x.isRemovable stripDocs = false := by
  intro x hx
  split at hx
  · simp at hx
  · next hkeep =>
    obtain ⟨y, hy, rfl⟩ := List.mem_map.mp hx
    exact (h y hy).2.resolve_left hkeep

theorem bodyTrivia_cons {keep : Bool} {l : LexedTerminal} {ls : List LexedTerminal} :
    bodyTrivia keep ((l :: ls).map LexedTerminal.terminal) =
      (if keep then [] else l.leading.map Noted.item) ++ l.trailing.map Noted.item ++
        bodyTrivia false (ls.map LexedTerminal.terminal) := rfl

/-- What trails a token is part of what is read up to the next one. -/
theorem items_trailing {stripDocs : Bool} {state : LexState} {t : Text}
    (hs : state.lineStart = false) (hclean : ∀ l ∈ lexFrom state t, l.Clean)
    (hbody : ∀ x ∈ bodyTrivia false ((lexFrom state t).map LexedTerminal.terminal),
      x.isRemovable stripDocs = false) :
    ∀ x ∈ (readTrivia false state t).items,
      x.fault = none ∧ x.item.isRemovable stripDocs = false := by
  intro x hx
  obtain ⟨l, rest, heq, hleading, _⟩ := lexFrom_head state t
  have hmem : x ∈ l.leading := by
    rw [hleading, readTrivia_after_token hs t]
    exact List.mem_append_left _ hx
  rw [heq] at hclean hbody
  refine ⟨(hclean l (by simp)).leading x hmem, hbody x.item ?_⟩
  rw [bodyTrivia_cons]
  simp only [List.mem_append]
  exact Or.inl (Or.inl (List.mem_map_of_mem hmem))

/-- **The stripped text is read as the same tokens**, without a fault and without a comment to remove,
if every directive is first on its line. -/
theorem Resumes.same_code {stripDocs keepFirst : Bool} {state state' : LexState} {t u : Text}
    (h : Resumes stripDocs keepFirst state t state' u)
    (hfirst : ∀ a ∈ strippedFrom stripDocs keepFirst state t,
      directivesFirst true a.leading = true) :
    (lexFrom state' u).map (·.terminal.token) = (lexFrom state t).map (·.terminal.token) ∧
      (∀ l ∈ lexFrom state' u, l.Clean) ∧
      ∀ x ∈ bodyTrivia keepFirst ((lexFrom state' u).map LexedTerminal.terminal),
        x.isRemovable stripDocs = false := by
  induction state, t using lexFrom.induct generalizing keepFirst state' u with
  | case1 state t leading =>
    rename_i hnone
    have hend : (readTrivia true state t).rest = [] := readToken_eq_none_iff.mp hnone
    rw [strippedFrom_of_end hend] at hfirst
    obtain ⟨items, heq, hitems⟩ := h.ends hend (hfirst _ (List.mem_singleton.mpr rfl))
    rw [heq, lexFrom_of_end hend]
    refine ⟨rfl, ?_, ?_⟩
    · intro l hl
      obtain rfl := List.mem_singleton.mp hl
      exact ⟨clean_of_items hitems, rfl, by simp⟩
    · intro x hx
      rw [bodyTrivia_cons] at hx
      exact isRemovable_of_passes hitems x (by simpa [bodyTrivia] using hx)
  | case2 state t leading token htoken =>
    rename_i trailing ih
    rw [strippedFrom_of_token htoken rfl] at hfirst
    obtain ⟨hhead, htail⟩ := List.forall_mem_cons.mp hfirst
    obtain ⟨items, next, s, hs, heq, hitems, hnext⟩ := h.token htoken rfl hhead
    obtain ⟨htokens, hclean, hbody⟩ := ih (hnext.after_token hs) htail
    -- The trivia that trail the token are among those of a reading that is not cut at its line.
    obtain ⟨_, hclean', hbody'⟩ := ih hnext htail
    have htrailing := items_trailing hs hclean' hbody'
    rw [heq, lexFrom_of_token htoken]
    refine ⟨?_, ?_, ?_⟩
    · rw [List.map_cons, List.map_cons, htokens]
      rfl
    · intro l hl
      rcases List.mem_cons.mp hl with rfl | hl
      · exact ⟨clean_of_items hitems, rfl, fun x hx => (htrailing x hx).1⟩
      · exact hclean l hl
    · intro x hx
      rw [bodyTrivia_cons] at hx
      simp only [List.mem_append] at hx
      rcases hx with (hx | hx) | hx
      · exact isRemovable_of_passes hitems x hx
      · obtain ⟨y, hy, rfl⟩ := List.mem_map.mp hx
        exact (htrailing y hy).2
      · exact hbody x hx

/-- The reading of the whole stripped text stands at its start. -/
theorem resumes_initial {stripDocs keepFirst : Bool} {t : Text} (hclean : ∀ l ∈ lex t, l.Clean)
    (hapart : KeepsApart ((lex t).map LexedTerminal.terminal)
      (strippedFrom stripDocs keepFirst .initial t)) :
    Resumes stripDocs keepFirst .initial t .initial
      (textOf (strippedFrom stripDocs keepFirst .initial t)) :=
  ⟨rfl, hclean, hapart, .initial, rfl, fun _ => rfl, .refl _ _ _⟩

/-! ## Directives stay first on their lines -/

/-- Where no comment is left, every directive is first on its line. -/
theorem directivesFirst_of_no_comment {atEnd lineStart : Bool} {state : LexState} {xs : Trivia}
    (h : Readable atEnd state xs) (hnone : ∀ x ∈ xs, x.kind.isComment = false)
    (hstart : lineStart = true ∨ LineEndsAt atEnd xs) : directivesFirst lineStart xs = true := by
  induction xs generalizing state lineStart with
  | nil => rfl
  | cons x rest ih =>
    have hnot : x.kind ≠ .newline → lineStart = true := fun hne => hstart.resolve_right hne
    have hrest : ∀ b, b = true ∨ LineEndsAt atEnd rest → directivesFirst b rest = true :=
      fun b hb => ih h.2 (fun y hy => hnone y (by simp [hy])) hb
    by_cases hk : x.kind = .directive
    · have hends := (h.1.text_of_directive hk).2.2
      simp [directivesFirst, hnot (by simp [hk]), hrest _ (Or.inr hends)]
    · have hafter : x.lineStartAfter lineStart = true := by
        have hcomment := hnone x (by simp)
        unfold Trivium.lineStartAfter
        cases hkind : x.kind <;> simp [hkind, TriviumKind.isComment] at hk hcomment hnot ⊢
        exact hnot
      rw [directivesFirst, hrest _ (Or.inl hafter)]
      simpa using Or.inl hk

/-- In a text every directive is first on its line. -/
theorem directivesFirst_readTrivia (state : LexState) (t : Text) :
    directivesFirst state.lineStart (readTrivia true state t).trivia = true := by
  fun_induction readTrivia true state t with
  | case1 => rfl
  | case2 state t r h hk => simp at hk
  | case3 state t r h hk more ih =>
    have hr := reading_of_readTrivium h
    have hfirst : (r.item.item.kind != .directive || state.lineStart) = true := by
      simp only [Bool.or_eq_true, bne_iff_ne]
      cases hr with
      | disabled | newline | blank => exact Or.inl (by simp [ReadTrivium.plain])
      | line => exact Or.inl (lineCommentKind_ne rfl)
      | block => exact Or.inl (blockCommentKind_ne rfl)
      | directive hskip hl hs => exact Or.inr hs
    show directivesFirst state.lineStart (r.item.item :: more.trivia) = true
    rw [directivesFirst, hfirst, ← LexState.lineStart_after, ← hr.state_eq]
    exact ih

theorem isComment_of_not_isRemovable {x : Trivium} (h : x.isRemovable true = false) :
    x.kind.isComment = false := by
  simp only [Trivium.isRemovable, Trivium.classify] at h
  cases hkind : x.kind <;> simp [hkind, TriviumKind.isComment] at h ⊢

theorem directivesFirst_strippedLeading {keep : Bool} {state : LexState} {t : Text}
    (ha : state.compilation.isActive = true)
    (hclean : ∀ x ∈ (readTrivia true state t).items, x.fault = none)
    (hactive : (readTrivia true state t).state.compilation.isActive = true)
    (hkeep : keep = true → state.lineStart = true) :
    directivesFirst true (strippedLeading true keep (readTrivia true state t).rest.isEmpty
      (readTrivia true state t).trivia) = true := by
  have hread := readable_readTrivia (Or.inl ha) hclean hactive
  unfold strippedLeading
  split
  · next h =>
    have hfirst := directivesFirst_readTrivia state t
    rwa [hkeep h] at hfirst
  · refine directivesFirst_of_no_comment (readable_stripSpan hread) (fun x hx => ?_) (Or.inl rfl)
    exact isComment_of_not_isRemovable
      (isRemovable_stripSpan (.leading _ true) (linesEnd_readTrivia true state t) x hx)

/-- **Where documentation is removed too, stripping leaves every directive first on its line.** -/
theorem directivesFirst_strippedFrom {keepFirst : Bool} {state : LexState} {t : Text}
    (ha : state.compilation.isActive = true) (hclean : ∀ l ∈ lexFrom state t, l.Clean)
    (hkeep : keepFirst = true → state.lineStart = true) :
    ∀ a ∈ strippedFrom true keepFirst state t, directivesFirst true a.leading = true := by
  induction state, t using lexFrom.induct generalizing keepFirst with
  | case1 state t leading =>
    rename_i hnone
    have hend : (readTrivia true state t).rest = [] := readToken_eq_none_iff.mp hnone
    rw [lexFrom_of_end hend] at hclean
    have hlast := hclean _ (List.mem_singleton.mpr rfl)
    rw [strippedFrom_of_end hend]
    intro a hmem
    obtain rfl := List.mem_singleton.mp hmem
    exact directivesFirst_strippedLeading ha hlast.leading
      (isActive_of_not_inGroup (inGroup_of_clean hlast)) hkeep
  | case2 state t leading token htoken =>
    rename_i trailing ih
    rw [lexFrom_of_token htoken] at hclean
    obtain ⟨hfirst, hrest⟩ := List.forall_mem_cons.mp hclean
    have hactive : leading.state.afterToken.compilation.isActive = true := isActive_leading ha htoken
    rw [strippedFrom_of_token htoken rfl]
    intro a hmem
    rcases List.mem_cons.mp hmem with rfl | hmem
    · exact directivesFirst_strippedLeading ha hfirst.leading hactive hkeep
    · exact ih (isActive_trailing hactive _) hrest (by simp) a hmem

/-! ## Accepted texts -/

theorem strip_terminals (settings : Settings) (t : Text) :
    ((SourceFile.ofText t).strip settings).terminals =
      strippedFrom settings.stripDocs settings.keepHeader .initial t := rfl

theorem token_ofText (t : Text) :
    (SourceFile.ofText t).terminals.map Terminal.token = (lex t).map (·.terminal.token) := by
  simp only [SourceFile.ofText, List.map_map]
  rfl

/-- A text that is read without a fault as the tokens of an accepted text is accepted. -/
theorem parse_of_same_tokens {t u : Text} {file : SourceFile} (h : SourceFile.parse t = .ok file)
    (hclean : ∀ l ∈ lex u, l.Clean)
    (htokens : (lex u).map (·.terminal.token) = (lex t).map (·.terminal.token)) :
    SourceFile.parse u = .ok (.ofText u) := by
  obtain ⟨rfl, _, hbalanced⟩ := parse_eq_ok_iff.mp h
  refine parse_eq_ok_iff.mpr ⟨rfl, hclean, delimiterDiagnostics_eq_nil ?_ hbalanced⟩
  rw [token_ofText, token_ofText]
  exact htokens

/-- **Reading the stripped text gives back the same code.** For every accepted text, if documentation is
removed too and no two tokens are glued, the stripped text is accepted, its terminals have the same
kinds and texts, and no comment of any kind is left, except in a header that is kept. -/
theorem strip_keeps_code {settings : Settings} {t : Text} {file : SourceFile}
    (hparse : SourceFile.parse t = .ok file) (hdocs : settings.stripDocs = true)
    (hapart : KeepsApart file.terminals (file.strip settings).terminals) :
    ∃ once again, stripText settings t = .ok once ∧ SourceFile.parse once = .ok again ∧
      again.terminals.map (fun x => (x.kind, x.text)) =
        file.terminals.map (fun x => (x.kind, x.text)) ∧
      ∀ x ∈ again.bodyTrivia settings.keepHeader, x.kind.isComment = false := by
  obtain ⟨rfl, hclean, _⟩ := parse_eq_ok_iff.mp hparse
  rw [strip_terminals, hdocs] at hapart
  have hresumes := resumes_initial hclean hapart
  obtain ⟨htokens, hclean', hbody⟩ :=
    hresumes.same_code (directivesFirst_strippedFrom rfl hclean fun _ => rfl)
  refine ⟨textOf (strippedFrom true settings.keepHeader .initial t), _, ?_,
    parse_of_same_tokens hparse hclean' htokens, ?_, fun x hx => ?_⟩
  · rw [stripText, hparse, ← hdocs]
    rfl
  · show List.map Terminal.token _ = List.map Terminal.token _
    rw [token_ofText, token_ofText]
    exact htokens
  · exact isComment_of_not_isRemovable (hbody x hx)

/-- A comment between two tokens, one at the end of a line, and a part that is not compiled. -/
theorem strip_keeps_code_of_statement :
    ∃ once again,
      stripText {} "x = 1 /* one */ + 2; // two\n#if DEBUG\nlog(); // no\n#endif\n".toList =
        .ok once ∧
      SourceFile.parse once = .ok again ∧
      again.terminals.map (fun x => (x.kind, x.text)) =
        (SourceFile.ofText
          "x = 1 /* one */ + 2; // two\n#if DEBUG\nlog(); // no\n#endif\n".toList).terminals.map
          (fun x => (x.kind, x.text)) ∧
      ∀ x ∈ again.bodyTrivia true, x.kind.isComment = false :=
  strip_keeps_code (parse_of_diagnostics (by decide +kernel)) rfl (by decide +kernel)

end Uncomment
