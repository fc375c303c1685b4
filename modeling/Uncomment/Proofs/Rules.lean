import Uncomment.Strip.Rules

/-!
# What the two rules do

The two rules look one trivium ahead and carry a flag, and the block rule also carries the blanks that
wait for a comment. Here each of them is said as a relation between a span and its stripped form, with
one constructor per thing that can happen (`LineStripped`, `BlockStripped`). What a rule does to a span
is then proved by induction on the relation, without the flag and without the waiting blanks.
-/

namespace Uncomment

variable {context : SpanContext}

/-! ## What comes next -/

theorem classify_ne_endOfInput (stripDocs : Bool) (x : Trivium) :
    x.classify stripDocs ≠ .endOfInput := by
  unfold Trivium.classify
  split <;> (try split) <;> simp

/-- What comes next is the end of the input only after the last trivium of the file. -/
theorem nextClass_eq_endOfInput {xs : Trivia}
    (h : context.nextClass xs = some .endOfInput) : xs = [] ∧ context.atEnd = true := by
  cases xs with
  | nil =>
    simp only [SpanContext.nextClass, Option.ite_none_right_eq_some] at h
    exact ⟨rfl, h.1⟩
  | cons x xs => exact absurd (Option.some.inj h) (classify_ne_endOfInput _ x)

/-- Any other class is that of the next trivium. -/
theorem nextClass_eq_some {xs : Trivia} {c : TriviumClass} (h : context.nextClass xs = some c)
    (hc : c ≠ .endOfInput) : ∃ x rest, xs = x :: rest ∧ x.classify context.stripDocs = c := by
  cases xs with
  | nil =>
    simp only [SpanContext.nextClass, Option.ite_none_right_eq_some, Option.some.injEq] at h
    exact absurd h.2.symm hc
  | cons x rest => exact ⟨x, rest, rfl, Option.some.inj h⟩

/-! ## The line rule -/

/-- The line break after a removed comment, where it stays. -/
def SpanContext.breakAfter (context : SpanContext) (n : Trivium) : Trivia :=
  if context.collapse then [] else [n]

/-- A span and the same without its line comments. -/
inductive LineStripped (context : SpanContext) : Trivia → Trivia → Prop
  | nil : LineStripped context [] []
  | keep {x : Trivium} {xs ys : Trivia}
      (hblank : x.classify context.stripDocs = .inlineWhitespace →
        context.nextClass xs ≠ some .lineComment)
      (hcomment : x.classify context.stripDocs = .lineComment →
        context.nextClass xs ≠ some .lineBreak ∧ context.nextClass xs ≠ some .endOfInput)
      (h : LineStripped context xs ys) : LineStripped context (x :: xs) (x :: ys)
  | blank {b : Trivium} {xs ys : Trivia} (hb : b.classify context.stripDocs = .inlineWhitespace)
      (hn : context.nextClass xs = some .lineComment) (h : LineStripped context xs ys) :
      LineStripped context (b :: xs) ys
  | comment {x n : Trivium} {xs ys : Trivia} (hx : x.classify context.stripDocs = .lineComment)
      (hn : n.classify context.stripDocs = .lineBreak) (h : LineStripped context xs ys) :
      LineStripped context (x :: n :: xs) (context.breakAfter n ++ ys)
  | last {x : Trivium} (hx : x.classify context.stripDocs = .lineComment)
      (hend : context.atEnd = true) : LineStripped context [x] []

/-- A line break passes the line rule, unless the comment before it took it along. -/
theorem lineRule_lineBreak {n : Trivium} (hn : n.classify context.stripDocs = .lineBreak)
    (xs : Trivia) :
    lineRule context context.collapse (n :: xs) =
      context.breakAfter n ++ lineRule context false xs := by
  unfold SpanContext.breakAfter
  cases hcollapse : context.collapse with
  | true => simp [lineRule]
  | false => simp [lineRule, hn]

/-- **The line rule strips line comments.** -/
theorem lineStripped_lineRule : ∀ xs : Trivia, LineStripped context xs (lineRule context false xs)
  | [] => .nil
  | x :: rest => by
    by_cases hblank : x.classify context.stripDocs = .inlineWhitespace ∧
        context.nextClass rest = some .lineComment
    · obtain ⟨hb, hn⟩ := hblank
      have heq : lineRule context false (x :: rest) = lineRule context false rest := by
        simp [lineRule, hb, hn]
      rw [heq]
      exact .blank hb hn (lineStripped_lineRule rest)
    · by_cases hcomment : x.classify context.stripDocs = .lineComment ∧
          context.nextClass rest = some .lineBreak
      · obtain ⟨hx, hn⟩ := hcomment
        obtain ⟨n, more, rfl, hbreak⟩ := nextClass_eq_some hn (by simp)
        have heq : lineRule context false (x :: n :: more) =
            context.breakAfter n ++ lineRule context false more := by
          rw [← lineRule_lineBreak hbreak more]
          simp [lineRule, hx, hn]
        rw [heq]
        exact .comment hx hbreak (lineStripped_lineRule more)
      · by_cases hlast : x.classify context.stripDocs = .lineComment ∧
            context.nextClass rest = some .endOfInput
        · obtain ⟨hx, hn⟩ := hlast
          obtain ⟨rfl, hend⟩ := nextClass_eq_endOfInput hn
          have heq : lineRule context false [x] = [] := by simp [lineRule, hx, hn]
          rw [heq]
          exact .last hx hend
        · -- None of the branches that leave something out is taken.
          have heq : lineRule context false (x :: rest) = x :: lineRule context false rest := by
            simp only [lineRule, Bool.false_eq_true, if_false]
            split <;> simp_all
          rw [heq]
          refine .keep (fun h1 h2 => hblank ⟨h1, h2⟩) (fun h1 => ⟨fun h2 => hcomment ⟨h1, h2⟩,
            fun h2 => hlast ⟨h1, h2⟩⟩) (lineStripped_lineRule rest)
termination_by xs => xs.length

/-! ## The block rule -/

/-- A span and the same without its block comments. Right before each comment stand the blanks that
waited for it, if any. -/
inductive BlockStripped (context : SpanContext) : Trivia → Trivia → Prop
  | nil : BlockStripped context [] []
  | keep {x : Trivium} {xs ys : Trivia} (hx : x.classify context.stripDocs ≠ .blockComment)
      (hblank : x.classify context.stripDocs = .inlineWhitespace →
        context.nextClass xs ≠ some .blockComment)
      (h : BlockStripped context xs ys) : BlockStripped context (x :: xs) (x :: ys)
  | comment {blank : Option Trivium} {x n : Trivium} {xs ys : Trivia}
      (hb : ∀ b ∈ blank, b.classify context.stripDocs = .inlineWhitespace)
      (hx : x.classify context.stripDocs = .blockComment)
      (hn : n.classify context.stripDocs = .lineBreak) (h : BlockStripped context xs ys) :
      BlockStripped context (blank.toList ++ x :: n :: xs) (context.breakAfter n ++ ys)
  | last {blank : Option Trivium} {x : Trivium}
      (hb : ∀ b ∈ blank, b.classify context.stripDocs = .inlineWhitespace)
      (hx : x.classify context.stripDocs = .blockComment) (hend : context.atEnd = true) :
      BlockStripped context (blank.toList ++ [x]) []
  | inside {blank : Option Trivium} {x : Trivium} {xs ys : Trivia}
      (hb : ∀ b ∈ blank, b.classify context.stripDocs = .inlineWhitespace)
      (hx : x.classify context.stripDocs = .blockComment)
      (hn : context.nextClass xs ≠ some .lineBreak ∧ context.nextClass xs ≠ some .endOfInput)
      (h : BlockStripped context xs ys) :
      BlockStripped context (blank.toList ++ x :: xs)
        ((replacementBreak x.text).toList ++ blank.toList ++ ys)

theorem blockRule_lineBreak {n : Trivium} (hn : n.classify context.stripDocs = .lineBreak)
    (xs : Trivia) :
    blockRule context context.collapse [] (n :: xs) =
      context.breakAfter n ++ blockRule context false [] xs := by
  unfold SpanContext.breakAfter
  cases hcollapse : context.collapse with
  | true => simp [blockRule]
  | false => simp [blockRule, hn]

/-- A block comment with the blanks that waited for it, given what the rule does to the trivia after
it and to those after the next one. -/
theorem blockStripped_comment (blank : Option Trivium) {x : Trivium} {rest : Trivia}
    (hb : ∀ b ∈ blank, b.classify context.stripDocs = .inlineWhitespace)
    (hx : x.classify context.stripDocs = .blockComment)
    (hrest : BlockStripped context rest (blockRule context false [] rest))
    (hmore : ∀ n more, rest = n :: more →
      BlockStripped context more (blockRule context false [] more)) :
    BlockStripped context (blank.toList ++ x :: rest)
      (blockRule context false blank.toList (x :: rest)) := by
  by_cases hbreak : context.nextClass rest = some .lineBreak
  · obtain ⟨n, more, rfl, hn⟩ := nextClass_eq_some hbreak (by simp)
    have heq : blockRule context false blank.toList (x :: n :: more) =
        context.breakAfter n ++ blockRule context false [] more := by
      rw [← blockRule_lineBreak hn more]
      simp [blockRule, hx, hbreak]
    rw [heq]
    exact .comment hb hx hn (hmore n more rfl)
  · by_cases hend : context.nextClass rest = some .endOfInput
    · obtain ⟨rfl, hatEnd⟩ := nextClass_eq_endOfInput hend
      have heq : blockRule context false blank.toList [x] = [] := by simp [blockRule, hx, hend]
      rw [heq]
      exact .last hb hx hatEnd
    · have heq : blockRule context false blank.toList (x :: rest) =
          (replacementBreak x.text).toList ++ blank.toList ++ blockRule context false [] rest := by
        simp only [blockRule, Bool.false_eq_true, if_false, hx]
      rw [heq]
      exact .inside hb hx ⟨hbreak, hend⟩ hrest

/-- **The block rule strips block comments.** -/
theorem blockStripped_blockRule :
    ∀ xs : Trivia, BlockStripped context xs (blockRule context false [] xs)
  | [] => .nil
  | x :: rest => by
    by_cases hx : x.classify context.stripDocs = .blockComment
    · exact blockStripped_comment none (by simp) hx (blockStripped_blockRule rest)
        fun n more heq => blockStripped_blockRule more
    · by_cases hblank : x.classify context.stripDocs = .inlineWhitespace ∧
          context.nextClass rest = some .blockComment
      · -- The blank waits for the comment after it, and the two are left out together.
        obtain ⟨hb, hn⟩ := hblank
        obtain ⟨y, more, rfl, hy⟩ := nextClass_eq_some hn (by simp)
        have heq : blockRule context false [] (x :: y :: more) =
            blockRule context false [x] (y :: more) := by
          simp [blockRule, hb, hn]
        rw [heq]
        exact blockStripped_comment (some x) (by simpa using hb) hy
          (blockStripped_blockRule more) fun n more' heq => blockStripped_blockRule more'
      · have heq : blockRule context false [] (x :: rest) =
            x :: blockRule context false [] rest := by
          simp only [blockRule, Bool.false_eq_true, if_false]
          split <;> simp_all
        rw [heq]
        exact .keep hx (fun h1 h2 => hblank ⟨h1, h2⟩) (blockStripped_blockRule rest)
termination_by xs => xs.length
decreasing_by all_goals simp_all; try omega

/-- A stripped span comes from the span in two steps. -/
theorem stripSpan_steps (context : SpanContext) (xs : Trivia) :
    ∃ middle, LineStripped context xs middle ∧
      BlockStripped context middle (stripSpan context xs) :=
  ⟨lineRule context false xs, lineStripped_lineRule xs, blockStripped_blockRule _⟩

/-! ## What stays -/

theorem mem_breakAfter {n y : Trivium} (h : y ∈ context.breakAfter n) : y = n := by
  unfold SpanContext.breakAfter at h
  split at h
  · simp at h
  · simpa using h

/-- The line rule only leaves trivia out. -/
theorem LineStripped.mem {xs ys : Trivia} (h : LineStripped context xs ys) {y : Trivium}
    (hy : y ∈ ys) : y ∈ xs := by
  induction h with
  | nil => exact hy
  | keep _ _ _ ih =>
    rcases List.mem_cons.mp hy with rfl | hy
    · simp
    · simp [ih hy]
  | blank _ _ _ ih => simp [ih hy]
  | comment _ _ _ ih =>
    rcases List.mem_append.mp hy with hy | hy
    · simp [mem_breakAfter hy]
    · simp [ih hy]
  | last => simp at hy

theorem kind_replacementBreak {comment : Text} {y : Trivium} (h : y ∈ replacementBreak comment) :
    y.kind = .newline := by
  unfold replacementBreak at h
  split at h <;> simp at h <;> rw [← h]

/-- The block rule leaves trivia out, and puts line breaks where comments with line breaks were. -/
theorem BlockStripped.mem {xs ys : Trivia} (h : BlockStripped context xs ys) {y : Trivium}
    (hy : y ∈ ys) : y ∈ xs ∨ y.kind = .newline := by
  induction h with
  | nil => exact Or.inl hy
  | keep _ _ _ ih =>
    rcases List.mem_cons.mp hy with rfl | hy
    · exact Or.inl (by simp)
    · exact (ih hy).imp (fun h => by simp [h]) id
  | comment _ _ _ _ ih =>
    rcases List.mem_append.mp hy with hy | hy
    · exact Or.inl (by simp [mem_breakAfter hy])
    · exact (ih hy).imp (fun h => by simp [h]) id
  | last => simp at hy
  | inside _ _ _ _ ih =>
    rcases List.mem_append.mp hy with hy | hy
    · rcases List.mem_append.mp hy with hy | hy
      · exact Or.inr (kind_replacementBreak (Option.mem_toList.mp hy))
      · exact Or.inl (List.mem_append_left _ hy)
    · exact (ih hy).imp (fun h => by simp [h]) id

/-- A test that only other trivia pass. -/
def OnlyOther (context : SpanContext) (p : Trivium → Bool) : Prop :=
  ∀ x, p x = true → x.classify context.stripDocs = .other

theorem OnlyOther.eq_false {p : Trivium → Bool} (hp : OnlyOther context p) {x : Trivium}
    {c : TriviumClass} (hx : x.classify context.stripDocs = c) (hc : c ≠ .other) : p x = false := by
  cases hpx : p x with
  | false => rfl
  | true => exact absurd (hx.symm.trans (hp x hpx)) hc

theorem filter_blank {p : Trivium → Bool} {blank : Option Trivium} (hp : OnlyOther context p)
    (hb : ∀ b ∈ blank, b.classify context.stripDocs = .inlineWhitespace) :
    blank.toList.filter p = [] := by
  rw [List.filter_eq_nil_iff]
  intro b hmem
  rw [hp.eq_false (hb b (Option.mem_toList.mp hmem)) (by simp)]
  simp

theorem filter_breakAfter {p : Trivium → Bool} {n : Trivium} (hp : OnlyOther context p)
    (hn : n.classify context.stripDocs = .lineBreak) : (context.breakAfter n).filter p = [] := by
  rw [List.filter_eq_nil_iff]
  intro y hy
  rw [mem_breakAfter hy, hp.eq_false hn (by simp)]
  simp

theorem filter_replacementBreak {p : Trivium → Bool} (hp : OnlyOther context p) (comment : Text) :
    (replacementBreak comment).toList.filter p = [] := by
  rw [List.filter_eq_nil_iff]
  intro y hy
  have hk := kind_replacementBreak (Option.mem_toList.mp hy)
  rw [hp.eq_false (show y.classify context.stripDocs = .lineBreak by simp [Trivium.classify, hk])
    (by simp)]
  simp

theorem LineStripped.filter {p : Trivium → Bool} {xs ys : Trivia}
    (h : LineStripped context xs ys) (hp : OnlyOther context p) : ys.filter p = xs.filter p := by
  induction h with
  | nil => rfl
  | keep _ _ _ ih => simp only [List.filter_cons, ih]
  | blank hb _ _ ih => rw [List.filter_cons, hp.eq_false hb (by simp), ih]; rfl
  | comment hx hn _ ih =>
    rw [List.filter_append, filter_breakAfter hp hn, List.filter_cons, hp.eq_false hx (by simp),
      List.filter_cons, hp.eq_false hn (by simp), ih]
    rfl
  | last hx => rw [List.filter_cons, hp.eq_false hx (by simp)]; rfl

theorem BlockStripped.filter {p : Trivium → Bool} {xs ys : Trivia}
    (h : BlockStripped context xs ys) (hp : OnlyOther context p) : ys.filter p = xs.filter p := by
  induction h with
  | nil => rfl
  | keep _ _ _ ih => simp only [List.filter_cons, ih]
  | comment hb hx hn _ ih =>
    rw [List.filter_append, filter_breakAfter hp hn, List.filter_append, filter_blank hp hb,
      List.filter_cons, hp.eq_false hx (by simp), List.filter_cons, hp.eq_false hn (by simp), ih]
    rfl
  | last hb hx =>
    rw [List.filter_append, filter_blank hp hb, List.filter_cons, hp.eq_false hx (by simp)]
    rfl
  | inside hb hx _ _ ih =>
    rw [List.filter_append, List.filter_append, filter_replacementBreak hp, List.filter_append,
      filter_blank hp hb, List.filter_cons, hp.eq_false hx (by simp), ih]
    rfl

/-- **Everything of the class "other" stays, in order.** -/
theorem filter_stripSpan {p : Trivium → Bool} (hp : OnlyOther context p) (xs : Trivia) :
    (stripSpan context xs).filter p = xs.filter p := by
  obtain ⟨middle, hline, hblock⟩ := stripSpan_steps context xs
  rw [hblock.filter hp, hline.filter hp]

/-! ## Spans without comments -/

theorem LineStripped.eq_of_forall {xs ys : Trivia} (h : LineStripped context xs ys)
    (hx : ∀ x ∈ xs, x.classify context.stripDocs ≠ .lineComment) : ys = xs := by
  induction h with
  | nil => rfl
  | keep _ _ _ ih => rw [ih fun x hmem => hx x (by simp [hmem])]
  | blank _ hn _ _ =>
    obtain ⟨x, rest, rfl, hc⟩ := nextClass_eq_some hn (by simp)
    exact absurd hc (hx x (by simp))
  | comment hc => exact absurd hc (hx _ (by simp))
  | last hc => exact absurd hc (hx _ (by simp))

theorem BlockStripped.eq_of_forall {xs ys : Trivia} (h : BlockStripped context xs ys)
    (hx : ∀ x ∈ xs, x.classify context.stripDocs ≠ .blockComment) : ys = xs := by
  induction h with
  | nil => rfl
  | keep _ _ _ ih => rw [ih fun x hmem => hx x (by simp [hmem])]
  | comment _ hc => exact absurd hc (hx _ (by simp))
  | last _ hc => exact absurd hc (hx _ (by simp))
  | inside _ hc => exact absurd hc (hx _ (by simp))

theorem isRemovable_eq_false_iff {stripDocs : Bool} {x : Trivium} :
    x.isRemovable stripDocs = false ↔
      x.classify stripDocs ≠ .lineComment ∧ x.classify stripDocs ≠ .blockComment := by
  simp [Trivium.isRemovable]

/-- **A span without comments to remove is left as it is.** -/
theorem stripSpan_of_forall (context : SpanContext) {xs : Trivia}
    (h : ∀ x ∈ xs, x.isRemovable context.stripDocs = false) : stripSpan context xs = xs := by
  obtain ⟨middle, hline, hblock⟩ := stripSpan_steps context xs
  have hmiddle : middle = xs :=
    hline.eq_of_forall fun x hx => (isRemovable_eq_false_iff.mp (h x hx)).1
  rw [hmiddle] at hblock
  exact hblock.eq_of_forall fun x hx => (isRemovable_eq_false_iff.mp (h x hx)).2

end Uncomment
