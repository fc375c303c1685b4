import Uncomment.Proofs.Shape

/-!
# Stripped spans

What the two rules leave of a span can be read again if the span could. A piece looks at what comes next
only if that is a line break or something the rules never touch, so it finds the same after stripping
(`SameStart`). Comments stand in compiled text, where it does not matter to the next piece whether a
line has begun (`Readable.of_active`), so they can go, with or without their line break.
-/

namespace Uncomment

variable {context : SpanContext} {atEnd : Bool} {state : LexState}

/-! ## What comes next stays -/

/-- What a piece can look at is found at the front of both lists. -/
structure SameStart (stripDocs : Bool) (xs ys : Trivia) : Prop where
  nil : xs = [] → ys = []
  cons : ∀ x rest, xs = x :: rest →
    x.classify stripDocs = .lineBreak ∨ x.classify stripDocs = .other → ∃ rest', ys = x :: rest'
  blank : ∀ b d rest, xs = b :: d :: rest → b.classify stripDocs = .inlineWhitespace →
    d.classify stripDocs = .other → ∃ rest', ys = b :: d :: rest'

theorem LineStripped.cons_of_class {x : Trivium} {xs ys : Trivia}
    (h : LineStripped context (x :: xs) ys)
    (hx : x.classify context.stripDocs = .lineBreak ∨ x.classify context.stripDocs = .other) :
    ∃ ys', ys = x :: ys' ∧ LineStripped context xs ys' := by
  cases h with
  | keep _ _ h => exact ⟨_, rfl, h⟩
  | blank hb => rw [hb] at hx; simp at hx
  | comment hc => rw [hc] at hx; simp at hx
  | last hc => rw [hc] at hx; simp at hx

theorem LineStripped.sameStart {xs ys : Trivia} (h : LineStripped context xs ys) :
    SameStart context.stripDocs xs ys where
  nil := by
    rintro rfl
    cases h
    rfl
  cons := by
    rintro x rest rfl hx
    obtain ⟨ys', rfl, _⟩ := h.cons_of_class hx
    exact ⟨ys', rfl⟩
  blank := by
    rintro b d rest rfl hb hd
    cases h with
    | keep _ _ h =>
      obtain ⟨ys', rfl, _⟩ := h.cons_of_class (Or.inr hd)
      exact ⟨ys', rfl⟩
    | blank _ hn => simp [SpanContext.nextClass, hd] at hn
    | comment hc => rw [hb] at hc; simp at hc

/-- A span that begins with a block comment, or with the blanks before one, begins with neither a line
break nor something the rules leave alone. -/
theorem head_of_blockComment {blank : Option Trivium} {x y : Trivium} {xs ys : Trivia}
    (hb : ∀ b ∈ blank, b.classify context.stripDocs = .inlineWhitespace)
    (hx : x.classify context.stripDocs = .blockComment) (heq : y :: ys = blank.toList ++ x :: xs) :
    y.classify context.stripDocs = .inlineWhitespace ∧ ys = x :: xs ∨
      y.classify context.stripDocs = .blockComment := by
  cases blank with
  | none =>
    cases heq
    exact Or.inr hx
  | some b =>
    cases heq
    exact Or.inl ⟨hb _ rfl, rfl⟩

theorem BlockStripped.cons_of_class {x : Trivium} {xs ys : Trivia}
    (h : BlockStripped context (x :: xs) ys)
    (hx : x.classify context.stripDocs = .lineBreak ∨ x.classify context.stripDocs = .other) :
    ∃ ys', ys = x :: ys' ∧ BlockStripped context xs ys' := by
  generalize heq : x :: xs = zs at h
  cases h with
  | nil => cases heq
  | keep _ _ h =>
    cases heq
    exact ⟨_, rfl, h⟩
  | comment hb hc => rcases head_of_blockComment hb hc heq with h | h <;> simp [h] at hx
  | last hb hc => rcases head_of_blockComment hb hc heq with h | h <;> simp [h] at hx
  | inside hb hc => rcases head_of_blockComment hb hc heq with h | h <;> simp [h] at hx

theorem BlockStripped.blank_of_class {b d : Trivium} {xs ys : Trivia}
    (h : BlockStripped context (b :: d :: xs) ys)
    (hb : b.classify context.stripDocs = .inlineWhitespace)
    (hd : d.classify context.stripDocs = .other) :
    ∃ ys', ys = b :: ys' ∧ BlockStripped context (d :: xs) ys' := by
  have hnot : ∀ {blank : Option Trivium} {x : Trivium} {zs : Trivia},
      (∀ b ∈ blank, b.classify context.stripDocs = .inlineWhitespace) →
      x.classify context.stripDocs = .blockComment → b :: d :: xs ≠ blank.toList ++ x :: zs := by
    intro blank x zs hblank hx heq
    rcases head_of_blockComment hblank hx heq with ⟨_, hcons⟩ | hblock
    · cases hcons
      rw [hx] at hd
      simp at hd
    · rw [hb] at hblock
      simp at hblock
  generalize heq : b :: d :: xs = zs at h
  cases h with
  | nil => cases heq
  | keep _ _ h =>
    cases heq
    exact ⟨_, rfl, h⟩
  | comment hblank hx => exact absurd heq (hnot hblank hx)
  | last hblank hx => exact absurd heq (hnot hblank hx)
  | inside hblank hx => exact absurd heq (hnot hblank hx)

theorem BlockStripped.sameStart {xs ys : Trivia} (h : BlockStripped context xs ys) :
    SameStart context.stripDocs xs ys where
  nil := by
    rintro rfl
    generalize heq : [] = zs at h
    cases h with
    | nil => rfl
    | keep => cases heq
    | comment => simp at heq
    | last => simp at heq
    | inside => simp at heq
  cons := by
    rintro x rest rfl hx
    obtain ⟨ys', rfl, _⟩ := h.cons_of_class hx
    exact ⟨ys', rfl⟩
  blank := by
    rintro b d rest rfl hb hd
    obtain ⟨ys', rfl, h'⟩ := h.blank_of_class hb hd
    obtain ⟨ys'', rfl, _⟩ := h'.cons_of_class (Or.inr hd)
    exact ⟨ys'', rfl⟩

namespace SameStart

variable {stripDocs : Bool} {xs ys : Trivia}

theorem lineEndsAt (h : SameStart stripDocs xs ys) (hx : LineEndsAt atEnd xs) :
    LineEndsAt atEnd ys := by
  cases xs with
  | nil =>
    rw [h.nil rfl]
    exact hx
  | cons n rest =>
    have hkind : n.kind = .newline := hx
    obtain ⟨rest', rfl⟩ := h.cons n rest rfl (Or.inl (by simp [Trivium.classify, hkind]))
    exact hx

theorem startsBranch (h : SameStart stripDocs xs ys) (hx : StartsBranch xs) : StartsBranch ys := by
  have hclass : ∀ {d : Trivium}, d.isBranch = true → d.classify stripDocs = .other := by
    intro d hd
    simp only [Trivium.isBranch, Bool.and_eq_true, beq_iff_eq] at hd
    simp [Trivium.classify, hd.1]
  cases hx with
  | directive hd =>
    obtain ⟨rest', rfl⟩ := h.cons _ _ rfl (Or.inr (hclass hd))
    exact .directive hd
  | blank hb hd =>
    obtain ⟨rest', rfl⟩ := h.blank _ _ _ rfl (by simp [Trivium.classify, hb]) (hclass hd)
    exact .blank hb hd

theorem startsDisabled {before : Text} (h : SameStart stripDocs xs ys)
    (hx : StartsDisabled before xs) : StartsDisabled before ys := by
  cases xs with
  | nil => exact absurd hx id
  | cons d rest =>
    obtain ⟨rest', rfl⟩ := h.cons d rest rfl (Or.inr (by simp [Trivium.classify, hx.1]))
    exact hx

/-- A piece that fits before the first list fits before the second. -/
theorem fits {x : Trivium} (h : SameStart stripDocs xs ys) (hx : x.Fits atEnd state xs) :
    x.Fits atEnd state ys := by
  cases hx with
  | blank hne hb hnext => exact .blank hne hb (hnext.imp_right h.startsBranch)
  | newline ht ha => exact .newline ht ha
  | disabledNewline ht hoff hs hnext =>
    exact .disabledNewline ht hoff hs (hnext.imp h.startsBranch h.startsDisabled)
  | line hline ha hends => exact .line hline ha (h.lineEndsAt hends)
  | block hclosed ha => exact .block hclosed ha
  | directive hline hok hplace hends => exact .directive hline hok hplace (h.lineEndsAt hends)
  | disabled hne hoff hs hf hlines hfirst hnext =>
    exact .disabled hne hoff hs hf hlines hfirst (h.startsBranch hnext)

end SameStart

/-! ## Comments can go -/

theorem LexState.after_compilation {x : Trivium} (hx : x.kind ≠ .directive) (state : LexState) :
    (state.after x).compilation = state.compilation := by
  unfold LexState.after
  cases hkind : x.kind <;> simp_all

theorem LexState.after_directive {x : Trivium} (hx : x.kind = .directive) {state state' : LexState}
    (h : state'.compilation = state.compilation) : state'.after x = state.after x := by
  simp [LexState.after, hx, h]

theorem Trivium.Fits.of_active {x : Trivium} {next : Trivia} {state' : LexState}
    (h : x.Fits atEnd state next) (ha : state.compilation.isActive = true)
    (hc : state'.compilation = state.compilation) : x.Fits atEnd state' next := by
  rw [← hc] at ha
  cases h with
  | blank hne hb => exact .blank hne hb (Or.inl ha)
  | newline ht => exact .newline ht ha
  | disabledNewline ht hoff => rw [← hc, ha] at hoff; simp at hoff
  | line hline _ hends => exact .line hline ha hends
  | block hclosed => exact .block hclosed ha
  | directive hline hok _ hends => exact .directive hline (by rw [hc]; exact hok) (Or.inl ha) hends
  | disabled _ hoff => rw [← hc, ha] at hoff; simp at hoff

/-- In compiled text it does not matter whether a line has begun. -/
theorem Readable.of_active {xs : Trivia} {state' : LexState} (h : Readable atEnd state xs)
    (ha : state.compilation.isActive = true) (hc : state'.compilation = state.compilation) :
    Readable atEnd state' xs := by
  induction xs generalizing state state' with
  | nil =>
    show state'.compilation.isActive = true
    rw [hc]
    exact ha
  | cons x rest ih =>
    obtain ⟨hx, hrest⟩ := h
    refine ⟨hx.of_active ha hc, ?_⟩
    by_cases hkind : x.kind = .directive
    · rw [LexState.after_directive hkind hc]
      exact hrest
    · refine ih hrest ?_ ?_
      · rw [LexState.after_compilation hkind]
        exact ha
      · rw [LexState.after_compilation hkind, LexState.after_compilation hkind, hc]

/-- Comments stand in compiled text. -/
theorem Trivium.Fits.isActive {x : Trivium} {next : Trivia} (h : x.Fits atEnd state next)
    (hx : x.kind.isComment = true) : state.compilation.isActive = true := by
  cases h with
  | blank => simp [TriviumKind.isComment] at hx
  | newline => simp [TriviumKind.isComment] at hx
  | disabledNewline => simp [TriviumKind.isComment] at hx
  | line _ ha => exact ha
  | block _ ha => exact ha
  | directive => simp [TriviumKind.isComment] at hx
  | disabled => simp [TriviumKind.isComment] at hx

theorem isComment_of_classify {stripDocs : Bool} {x : Trivium}
    (h : x.classify stripDocs = .lineComment ∨ x.classify stripDocs = .blockComment) :
    x.kind.isComment = true :=
  isComment_of_isRemovable (by simpa [Trivium.isRemovable] using h)

theorem kind_of_lineBreak {stripDocs : Bool} {x : Trivium} (h : x.classify stripDocs = .lineBreak) :
    x.kind = .newline := by
  unfold Trivium.classify at h
  cases hkind : x.kind <;> cases stripDocs <;> simp [hkind] at h ⊢

theorem kind_of_inlineWhitespace {stripDocs : Bool} {x : Trivium}
    (h : x.classify stripDocs = .inlineWhitespace) : x.kind = .whitespace := by
  unfold Trivium.classify at h
  cases hkind : x.kind <;> cases stripDocs <;> simp [hkind] at h ⊢

theorem ne_directive_of_isComment {x : Trivium} (h : x.kind.isComment = true) :
    x.kind ≠ .directive := by
  intro hkind
  simp [hkind, TriviumKind.isComment] at h

/-- What follows a comment can be read without it. -/
theorem Readable.of_comment {x : Trivium} {xs : Trivia} (h : Readable atEnd state (x :: xs))
    (hx : x.kind.isComment = true) :
    state.compilation.isActive = true ∧ Readable atEnd state xs := by
  have ha := h.1.isActive hx
  have hc := LexState.after_compilation (ne_directive_of_isComment hx) state
  refine ⟨ha, h.2.of_active ?_ hc.symm⟩
  rw [hc]
  exact ha

/-- In compiled text only what runs to the end of its line looks at what comes next. -/
theorem Trivium.Fits.of_next {x : Trivium} {next next' : Trivia} (h : x.Fits atEnd state next)
    (ha : state.compilation.isActive = true) (hx : x.runsToLineEnd = false) :
    x.Fits atEnd state next' := by
  cases h with
  | blank hne hb => exact .blank hne hb (Or.inl ha)
  | newline ht => exact .newline ht ha
  | disabledNewline _ hoff => rw [ha] at hoff; simp at hoff
  | @line rest =>
    rcases lineCommentKind_eq_or ('/' :: '/' :: rest) with h | h <;>
      simp [Trivium.runsToLineEnd, h] at hx
  | block hclosed => exact .block hclosed ha
  | directive => simp [Trivium.runsToLineEnd] at hx
  | disabled _ hoff => rw [ha] at hoff; simp at hoff

/-- A piece that is neither a directive nor runs to the end of its line, before trivia that can be
read. -/
theorem Readable.cons {x : Trivium} {next ys : Trivia} (hx : x.Fits atEnd state next)
    (hk : x.kind = .whitespace ∨ x.kind = .newline) (ha : state.compilation.isActive = true)
    (hys : Readable atEnd state ys) : Readable atEnd state (x :: ys) := by
  have hruns : x.runsToLineEnd = false := by
    rcases hk with h | h <;> simp [Trivium.runsToLineEnd, h]
  have hdirective : x.kind ≠ .directive := by
    rcases hk with h | h <;> simp [h]
  exact ⟨hx.of_next ha hruns, hys.of_active ha (LexState.after_compilation hdirective state)⟩

theorem Readable.of_blank {b : Trivium} {xs : Trivia} (h : Readable atEnd state (b :: xs))
    (hb : b.kind = .whitespace) : Readable atEnd state xs := by
  have hstate : state.after b = state := by simp [LexState.after, hb]
  rw [← hstate]
  exact h.2

theorem Readable.of_newline {n : Trivium} {xs : Trivia} (h : Readable atEnd state (n :: xs))
    (hn : n.kind = .newline) (ha : state.compilation.isActive = true) : Readable atEnd state xs := by
  have hc := LexState.after_compilation (x := n) (by simp [hn]) state
  exact h.2.of_active (by rw [hc]; exact ha) hc.symm

/-- The line break after a comment goes or stays. -/
theorem Readable.breakAfter {n : Trivium} {xs ys : Trivia} (h : Readable atEnd state (n :: xs))
    (hn : n.kind = .newline) (ha : state.compilation.isActive = true)
    (hys : Readable atEnd state xs → Readable atEnd state ys) :
    Readable atEnd state (context.breakAfter n ++ ys) := by
  have hrest := hys (h.of_newline hn ha)
  unfold SpanContext.breakAfter
  split
  · exact hrest
  · exact .cons h.1 (Or.inr hn) ha hrest

theorem LineStripped.readable {xs ys : Trivia} (h : LineStripped context xs ys)
    (hx : Readable atEnd state xs) : Readable atEnd state ys := by
  induction h generalizing state with
  | nil => exact hx
  | keep _ _ h ih => exact ⟨h.sameStart.fits hx.1, ih hx.2⟩
  | blank hb _ _ ih => exact ih (hx.of_blank (kind_of_inlineWhitespace hb))
  | comment hc hn _ ih =>
    obtain ⟨ha, hrest⟩ := hx.of_comment (isComment_of_classify (Or.inl hc))
    exact hrest.breakAfter (kind_of_lineBreak hn) ha ih
  | last hc => exact (hx.of_comment (isComment_of_classify (Or.inl hc))).1

theorem Readable.of_blanks {blank : Option Trivium} {xs : Trivia}
    (hb : ∀ b ∈ blank, b.classify context.stripDocs = .inlineWhitespace)
    (h : Readable atEnd state (blank.toList ++ xs)) : Readable atEnd state xs := by
  cases blank with
  | none => exact h
  | some b => exact h.of_blank (kind_of_inlineWhitespace (hb b rfl))

/-- Blanks and a line break in place of a comment. -/
theorem Readable.replacement {blank : Option Trivium} {xs ys : Trivia} {comment : Text}
    (hb : ∀ b ∈ blank, b.classify context.stripDocs = .inlineWhitespace)
    (h : Readable atEnd state (blank.toList ++ xs)) (ha : state.compilation.isActive = true)
    (hys : Readable atEnd state ys) :
    Readable atEnd state ((replacementBreak comment).toList ++ blank.toList ++ ys) := by
  have hblank : Readable atEnd state (blank.toList ++ ys) := by
    cases blank with
    | none => exact hys
    | some b => exact .cons h.1 (Or.inl (kind_of_inlineWhitespace (hb b rfl))) ha hys
  rw [List.append_assoc]
  cases hbreak : replacementBreak comment with
  | none => exact hblank
  | some n =>
    have hfits : n.Fits atEnd state [] := by
      unfold replacementBreak at hbreak
      split at hbreak <;> cases hbreak
      · exact .newline (Or.inl rfl) ha
      · exact .newline (Or.inr ⟨'\r', rfl, rfl⟩) ha
      · exact .newline (Or.inr ⟨'\n', rfl, rfl⟩) ha
    exact .cons hfits (Or.inr (kind_replacementBreak hbreak)) ha hblank

theorem BlockStripped.readable {xs ys : Trivia} (h : BlockStripped context xs ys)
    (hx : Readable atEnd state xs) : Readable atEnd state ys := by
  induction h generalizing state with
  | nil => exact hx
  | keep _ _ h ih => exact ⟨h.sameStart.fits hx.1, ih hx.2⟩
  | comment hb hc hn _ ih =>
    obtain ⟨ha, hrest⟩ := (hx.of_blanks hb).of_comment (isComment_of_classify (Or.inr hc))
    exact hrest.breakAfter (kind_of_lineBreak hn) ha ih
  | last hb hc => exact ((hx.of_blanks hb).of_comment (isComment_of_classify (Or.inr hc))).1
  | inside hb hc _ _ ih =>
    obtain ⟨ha, hrest⟩ := (hx.of_blanks hb).of_comment (isComment_of_classify (Or.inr hc))
    exact hx.replacement hb ha (ih hrest)

/-- **A stripped span can be read again.** -/
theorem readable_stripSpan {xs : Trivia} (h : Readable atEnd state xs) :
    Readable atEnd state (stripSpan context xs) := by
  obtain ⟨middle, hline, hblock⟩ := stripSpan_steps context xs
  exact hblock.readable (hline.readable h)

/-! ## What is compiled stays -/

/-- The compilation after trivia is that after their directives. -/
theorem compilation_afterAll (state : LexState) (xs : Trivia) :
    (state.afterAll xs).compilation =
      (xs.filter (·.kind == .directive)).foldl (fun c x => (c.applyLine x.text).1)
        state.compilation := by
  induction xs generalizing state with
  | nil => rfl
  | cons x rest ih =>
    rw [LexState.afterAll_cons, ih, List.filter_cons]
    by_cases hx : x.kind = .directive
    · simp [hx, LexState.after]
    · have hne : (x.kind == .directive) = false := by simpa using hx
      rw [LexState.after_compilation hx, hne]
      rfl

theorem onlyOther_directive : OnlyOther context (·.kind == .directive) := by
  intro x hx
  simp only [beq_iff_eq] at hx
  simp [Trivium.classify, hx]

/-- **Stripping a span does not change what is compiled after it.** -/
theorem compilation_stripSpan (context : SpanContext) {state' : LexState}
    (h : state'.compilation = state.compilation) (xs : Trivia) :
    (state'.afterAll (stripSpan context xs)).compilation = (state.afterAll xs).compilation := by
  rw [compilation_afterAll, compilation_afterAll, filter_stripSpan onlyOther_directive, h]

/-! ## The end of a trailing span -/

/-- Whether the last trivium is a line break. -/
def endsWithBreak (xs : Trivia) : Bool :=
  xs.getLast?.any (·.kind == .newline)

theorem endsWithBreak_append (xs : Trivia) {ys : Trivia} (h : ys ≠ []) :
    endsWithBreak (xs ++ ys) = endsWithBreak ys := by
  obtain ⟨before, n, rfl⟩ := List.eq_nil_or_concat ys |>.resolve_left h
  simp [endsWithBreak]

theorem endsWithBreak_cons {x : Trivium} {xs : Trivia} (h : xs ≠ []) :
    endsWithBreak (x :: xs) = endsWithBreak xs :=
  endsWithBreak_append [x] h

theorem ne_nil_of_endsWithBreak {xs : Trivia} (h : endsWithBreak xs = true) : xs ≠ [] := by
  rintro rfl
  simp [endsWithBreak] at h

theorem exists_concat_of_endsWithBreak {xs : Trivia} (h : endsWithBreak xs = true) :
    ∃ before n, xs = before ++ [n] ∧ n.kind = .newline := by
  obtain ⟨before, n, rfl⟩ := List.eq_nil_or_concat xs |>.resolve_left (ne_nil_of_endsWithBreak h)
  exact ⟨before, n, List.concat_eq_append, by simpa [endsWithBreak] using h⟩

/-- A trivium is kept in front of trivia of which the line break at the end is kept. -/
theorem endsWithBreak_keep {stripDocs : Bool} {x : Trivium} {xs ys : Trivia}
    (hsame : SameStart stripDocs xs ys)
    (ih : endsWithBreak xs = true → endsWithBreak ys = true)
    (h : endsWithBreak (x :: xs) = true) : endsWithBreak (x :: ys) = true := by
  cases xs with
  | nil =>
    rw [hsame.nil rfl]
    exact h
  | cons y rest =>
    rw [endsWithBreak_cons (by simp)] at h
    have hys := ih h
    rw [endsWithBreak_cons (ne_nil_of_endsWithBreak hys)]
    exact hys

theorem endsWithBreak_singleton (stripDocs : Bool) {x : Trivium}
    (hx : x.classify stripDocs ≠ .lineBreak) : endsWithBreak [x] = false := by
  simp only [endsWithBreak, List.getLast?_singleton, Option.any_some, beq_eq_false_iff_ne, ne_eq]
  intro hkind
  exact hx (by simp [Trivium.classify, hkind])

theorem LineStripped.endsWithBreak {xs ys : Trivia} (h : LineStripped context xs ys)
    (hc : context.collapse = false) (hx : endsWithBreak xs = true) : endsWithBreak ys = true := by
  induction h with
  | nil => exact hx
  | keep _ _ h ih => exact endsWithBreak_keep h.sameStart ih hx
  | blank _ hn _ ih =>
    obtain ⟨x, rest, rfl, _⟩ := nextClass_eq_some hn (by simp)
    rw [endsWithBreak_cons (by simp)] at hx
    exact ih hx
  | comment _ _ h ih =>
    rw [endsWithBreak_cons (by simp)] at hx
    rw [SpanContext.breakAfter, hc]
    exact endsWithBreak_keep h.sameStart ih hx
  | last hx' =>
    rw [endsWithBreak_singleton context.stripDocs (by simp [hx'])] at hx
    simp at hx

theorem BlockStripped.endsWithBreak {xs ys : Trivia} (h : BlockStripped context xs ys)
    (hc : context.collapse = false) (hx : endsWithBreak xs = true) : endsWithBreak ys = true := by
  induction h with
  | nil => exact hx
  | keep _ _ h ih => exact endsWithBreak_keep h.sameStart ih hx
  | comment _ _ _ h ih =>
    rw [endsWithBreak_append _ (by simp), endsWithBreak_cons (by simp)] at hx
    rw [SpanContext.breakAfter, hc]
    exact endsWithBreak_keep h.sameStart ih hx
  | last _ hx' =>
    rw [endsWithBreak_append _ (by simp),
      endsWithBreak_singleton context.stripDocs (by simp [hx'])] at hx
    simp at hx
  | @inside blank x xs ys _ hx' _ h ih =>
    rw [endsWithBreak_append _ (by simp)] at hx
    have hne : xs ≠ [] := by
      rintro rfl
      rw [endsWithBreak_singleton context.stripDocs (by simp [hx'])] at hx
      simp at hx
    rw [endsWithBreak_cons hne] at hx
    have hys := ih hx
    rw [endsWithBreak_append _ (ne_nil_of_endsWithBreak hys)]
    exact hys

/-- **A trailing span keeps the line break it ends with.** -/
theorem endsWithBreak_stripSpan {xs : Trivia} (hc : context.collapse = false)
    (h : endsWithBreak xs = true) : endsWithBreak (stripSpan context xs) = true := by
  obtain ⟨middle, hline, hblock⟩ := stripSpan_steps context xs
  exact hblock.endsWithBreak hc (hline.endsWithBreak hc h)

theorem lineStart_of_endsWithBreak {xs : Trivia} (h : endsWithBreak xs = true) (state : LexState) :
    (state.afterAll xs).lineStart = true := by
  obtain ⟨before, n, rfl, hn⟩ := exists_concat_of_endsWithBreak h
  rw [LexState.afterAll_append]
  simp [LexState.after, hn]

/-! ## The start of a trailing span -/

/-- Whether the first trivium is a comment. -/
def startsWithComment (xs : Trivia) : Bool :=
  xs.head?.any (·.kind.isComment)

theorem startsWithComment_breakAfter {n : Trivium} {xs : Trivia} (hc : context.collapse = false)
    (hn : n.classify context.stripDocs = .lineBreak) :
    startsWithComment (context.breakAfter n ++ xs) = false := by
  rw [SpanContext.breakAfter, hc]
  simp [startsWithComment, kind_of_lineBreak hn, TriviumKind.isComment]

theorem LineStripped.of_startsWithComment {xs ys : Trivia} (h : LineStripped context xs ys)
    (hc : context.collapse = false) (hends : LinesEnd context.atEnd xs)
    (hy : startsWithComment ys = true) : startsWithComment xs = true := by
  cases h with
  | nil => exact hy
  | keep => exact hy
  | blank _ hn h =>
    -- The comment the blanks stand before goes and leaves at most its line break.
    obtain ⟨c, rest, rfl, hline⟩ := nextClass_eq_some hn (by simp)
    cases h with
    | keep _ hkeep =>
      obtain ⟨hne, hne'⟩ := hkeep hline
      rcases (hends.2.1 (runsToLineEnd_of_classify hline)).nextClass with h | h
      · exact absurd h hne
      · exact absurd h hne'
    | blank hb => rw [hline] at hb; simp at hb
    | comment _ hn' => rw [startsWithComment_breakAfter hc hn'] at hy; simp at hy
    | last => simp [startsWithComment] at hy
  | comment _ hn => rw [startsWithComment_breakAfter hc hn] at hy; simp at hy
  | last => simp [startsWithComment] at hy

theorem BlockStripped.of_startsWithComment {xs ys : Trivia} (h : BlockStripped context xs ys)
    (hc : context.collapse = false) (hy : startsWithComment ys = true) :
    startsWithComment xs = true := by
  cases h with
  | nil => exact hy
  | keep => exact hy
  | comment _ _ hn => rw [startsWithComment_breakAfter hc hn] at hy; simp at hy
  | last => simp [startsWithComment] at hy
  | @inside blank x xs ys hb hx _ _ =>
    cases blank with
    | none => simpa [startsWithComment] using isComment_of_classify (Or.inr hx)
    | some b =>
      have hkind := kind_of_inlineWhitespace (hb b rfl)
      cases hbreak : replacementBreak x.text with
      | none => simp [hbreak, startsWithComment, hkind, TriviumKind.isComment] at hy
      | some n =>
        have hn := kind_replacementBreak hbreak
        simp [hbreak, startsWithComment, hn, TriviumKind.isComment] at hy

/-- A trailing span begins with a comment only if it did before. -/
theorem startsWithComment_stripSpan {xs : Trivia} (hc : context.collapse = false)
    (hends : LinesEnd context.atEnd xs) (h : startsWithComment (stripSpan context xs) = true) :
    startsWithComment xs = true := by
  obtain ⟨middle, hline, hblock⟩ := stripSpan_steps context xs
  exact hline.of_startsWithComment hc hends (hblock.of_startsWithComment hc h)

end Uncomment
