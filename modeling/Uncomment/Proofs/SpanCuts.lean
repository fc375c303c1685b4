import Mathlib.Data.List.Basic
import Uncomment.Proofs.SpanEdits

/-!
# Where a span can be cut

A rule looks one trivium ahead, so most places of a span can be **cut**: what is before and what is after
are stripped on their own, and the results stand side by side (`LineStripped.append`,
`BlockStripped.append`). A place cannot be cut where a comment before it, or blanks, look across.

The block rule runs on what the line rule left. What stands before a place there need not be what stood
before it in the span: line comments that go take their line breaks along, and a block comment before them
comes to stand where they were. This is the only way it can happen (`LineStripped.exists_hidden`), and it
is said on the span itself by `BlockThenLines`.
-/

namespace Uncomment

variable {context : SpanContext}

/-! ## The relations determine the result -/

theorem LineStripped.eq_lineRule {xs ys : Trivia} (h : LineStripped context xs ys) :
    lineRule context false xs = ys := by
  induction h with
  | nil => rfl
  | @keep x xs ys hblank hcomment _ ih =>
    have hkeep : lineRule context false (x :: xs) = x :: lineRule context false xs := by
      simp only [lineRule, Bool.false_eq_true, if_false]
      split <;> simp_all
    rw [hkeep, ih]
  | blank hb hn _ ih => simp [lineRule, hb, hn, ih]
  | @comment x n xs ys hx hn _ ih =>
    have hskip : lineRule context false (x :: n :: xs) =
        lineRule context context.collapse (n :: xs) := by
      rw [lineRule]
      simp [hx, SpanContext.nextClass, hn]
    rw [hskip, lineRule_lineBreak hn, ih]
  | last hx hend => simp [lineRule, hx, SpanContext.nextClass, hend]

/-- Blanks before a block comment wait for it. -/
theorem blockRule_blank {blank : Option Trivium} {x : Trivium} {rest : Trivia}
    (hb : ∀ b ∈ blank, b.classify context.stripDocs = .inlineWhitespace)
    (hx : x.classify context.stripDocs = .blockComment) :
    blockRule context false [] (blank.toList ++ x :: rest) =
      blockRule context false blank.toList (x :: rest) := by
  cases blank with
  | none => rfl
  | some b =>
    rw [Option.toList_some, List.singleton_append, blockRule]
    simp [hb b rfl, SpanContext.nextClass, hx]

theorem BlockStripped.eq_blockRule {xs ys : Trivia} (h : BlockStripped context xs ys) :
    blockRule context false [] xs = ys := by
  induction h with
  | nil => rfl
  | @keep x xs ys hx hblank _ ih =>
    have hkeep : blockRule context false [] (x :: xs) = x :: blockRule context false [] xs := by
      simp only [blockRule, Bool.false_eq_true, if_false]
      split <;> simp_all
    rw [hkeep, ih]
  | @comment blank x n xs ys hb hx hn _ ih =>
    have hskip : blockRule context false blank.toList (x :: n :: xs) =
        blockRule context context.collapse [] (n :: xs) := by
      rw [blockRule]
      simp [hx, SpanContext.nextClass, hn]
    rw [blockRule_blank hb hx, hskip, blockRule_lineBreak hn, ih]
  | last hb hx hend =>
    rw [blockRule_blank hb hx]
    simp [blockRule, hx, SpanContext.nextClass, hend]
  | inside hb hx hn _ ih =>
    obtain ⟨hbreak, hend⟩ := hn
    rw [blockRule_blank hb hx, ← ih]
    simp only [blockRule, Bool.false_eq_true, if_false, hx]

/-- The stripped form of a span, from its two steps. -/
theorem stripSpan_of_steps {xs middle ys : Trivia} (hline : LineStripped context xs middle)
    (hblock : BlockStripped context middle ys) : stripSpan context xs = ys := by
  rw [stripSpan, removeBlockComments, removeLineComments, hline.eq_lineRule, hblock.eq_blockRule]

/-! ## Cutting a span -/

/-- A property of the last element of a list, if there is one, is one of its tail's. -/
theorem forall_getLast?_of_cons {p : Trivium → Prop} {x : Trivium} {xs : Trivia}
    (h : ∀ y ∈ (x :: xs).getLast?, p y) : ∀ y ∈ xs.getLast?, p y :=
  fun y hy => h y (List.mem_getLast?_cons hy)

theorem forall_getLast?_of_append {p : Trivium → Prop} {xs ys : Trivia}
    (h : ∀ y ∈ (xs ++ ys).getLast?, p y) : ∀ y ∈ ys.getLast?, p y :=
  fun y hy => h y (List.mem_getLast?_append_of_mem_getLast? hy)

/-- What comes after a span matters only where the span ends. -/
theorem nextClass_append_atEnd {xs : Trivia} {atEnd : Bool} (h : xs ≠ []) (ys : Trivia) :
    context.nextClass (xs ++ ys) = SpanContext.nextClass { context with atEnd } xs := by
  obtain ⟨x, rest, rfl⟩ := List.exists_cons_of_ne_nil h
  rfl

theorem nextClass_append {xs : Trivia} (h : xs ≠ []) (ys : Trivia) :
    context.nextClass (xs ++ ys) = context.nextClass xs :=
  nextClass_append_atEnd h ys

/-- **The line rule can be cut** where no line comment stands before, and no blanks before one. -/
theorem LineStripped.append {xs xs' ys ys' : Trivia} (h : LineStripped context xs xs')
    (h' : LineStripped context ys ys')
    (hblank : ∀ x ∈ xs.getLast?, x.classify context.stripDocs = .inlineWhitespace →
      context.nextClass ys ≠ some .lineComment)
    (hcomment : ∀ x ∈ xs.getLast?, x.classify context.stripDocs ≠ .lineComment) :
    LineStripped context (xs ++ ys) (xs' ++ ys') := by
  induction h with
  | nil => exact h'
  | @keep x xs xs' hb hc _ ih =>
    have hrest := ih (forall_getLast?_of_cons hblank) (forall_getLast?_of_cons hcomment)
    by_cases hnil : xs = []
    · subst hnil
      exact .keep (hblank x rfl) (fun hx => absurd hx (hcomment x rfl)) hrest
    · rw [← nextClass_append hnil ys] at hb hc
      exact .keep hb hc hrest
  | @blank b xs xs' hb hn _ ih =>
    have hne : xs ≠ [] := by
      rintro rfl
      simp [SpanContext.nextClass] at hn
    have hrest := ih (forall_getLast?_of_cons hblank) (forall_getLast?_of_cons hcomment)
    exact .blank hb ((nextClass_append hne ys).trans hn) hrest
  | @comment x n xs xs' hx hn _ ih =>
    have hrest := ih (forall_getLast?_of_cons (forall_getLast?_of_cons hblank))
      (forall_getLast?_of_cons (forall_getLast?_of_cons hcomment))
    rw [List.append_assoc]
    exact .comment hx hn hrest
  | last hx => exact absurd hx (hcomment _ rfl)

/-- The end of the file matters to the line rule only after a line comment. -/
theorem LineStripped.of_atEnd {xs ys : Trivia} (h : LineStripped context xs ys) (atEnd : Bool)
    (hlast : ∀ x ∈ xs.getLast?, x.classify context.stripDocs ≠ .lineComment) :
    LineStripped { context with atEnd } xs ys := by
  induction h with
  | nil => exact .nil
  | @keep x xs ys hblank hcomment _ ih =>
    have hrest := ih (forall_getLast?_of_cons hlast)
    cases xs with
    | nil =>
      refine .keep (fun _ => ?_) (fun hx => absurd hx (hlast x rfl)) hrest
      simp [SpanContext.nextClass]
    | cons y rest => exact .keep hblank hcomment hrest
  | blank hb hn _ ih =>
    obtain ⟨x, rest, rfl, hx⟩ := nextClass_eq_some hn (by simp)
    exact .blank hb (congrArg some hx) (ih (forall_getLast?_of_cons hlast))
  | comment hx hn _ ih =>
    exact .comment hx hn (ih (forall_getLast?_of_cons (forall_getLast?_of_cons hlast)))
  | last hx => exact absurd hx (hlast _ rfl)

/-- **The block rule can be cut** where no blanks stand before a block comment, and none before a line break or
the end of the file. Whether the file ends after the first part matters only if a block comment stands
last there. -/
theorem BlockStripped.append {atEnd : Bool} {xs xs' ys ys' : Trivia}
    (h : BlockStripped { context with atEnd } xs xs') (h' : BlockStripped context ys ys')
    (hblank : ∀ x ∈ xs.getLast?, x.classify context.stripDocs = .inlineWhitespace →
      context.nextClass ys ≠ some .blockComment)
    (hcomment : ∀ x ∈ xs.getLast?, x.classify context.stripDocs = .blockComment → atEnd = false ∧
      context.nextClass ys ≠ some .lineBreak ∧ context.nextClass ys ≠ some .endOfInput) :
    BlockStripped context (xs ++ ys) (xs' ++ ys') := by
  induction h with
  | nil => exact h'
  | @keep x xs xs' hx hb _ ih =>
    have hrest := ih (forall_getLast?_of_cons hblank) (forall_getLast?_of_cons hcomment)
    by_cases hnil : xs = []
    · subst hnil
      exact .keep hx (hblank x rfl) hrest
    · rw [← nextClass_append_atEnd hnil ys] at hb
      exact .keep hx hb hrest
  | @comment blank x n xs xs' hb hx hn _ ih =>
    have hrest := ih
      (forall_getLast?_of_cons (forall_getLast?_of_cons (forall_getLast?_of_append hblank)))
      (forall_getLast?_of_cons (forall_getLast?_of_cons (forall_getLast?_of_append hcomment)))
    rw [List.append_assoc, List.append_assoc]
    exact .comment hb hx hn hrest
  | last hb hx hend =>
    have hnot := (hcomment _ (by simp) hx).1
    rw [show atEnd = true from hend] at hnot
    cases hnot
  | @inside blank x xs xs' hb hx hn _ ih =>
    have hrest := ih (forall_getLast?_of_cons (forall_getLast?_of_append hblank))
      (forall_getLast?_of_cons (forall_getLast?_of_append hcomment))
    rw [List.append_assoc, List.append_assoc]
    by_cases hnil : xs = []
    · subst hnil
      exact .inside hb hx (hcomment x (by simp) hx).2 hrest
    · rw [← nextClass_append_atEnd hnil ys] at hn
      exact .inside hb hx hn hrest

/-- A block comment whose line ends goes with the line break where it would go at the end of the file. -/
theorem BlockStripped.append_lineBreak {xs xs' ys ys' : Trivia} {n : Trivium}
    (h : BlockStripped { context with atEnd := true } xs xs') (h' : BlockStripped context ys ys')
    (hn : n.classify context.stripDocs = .lineBreak) (hcollapse : context.collapse = true)
    (hlast : ∃ x ∈ xs.getLast?, x.classify context.stripDocs = .blockComment) :
    BlockStripped context (xs ++ n :: ys) (xs' ++ ys') := by
  induction h with
  | nil => simp at hlast
  | @keep x xs xs' hx hb _ ih =>
    have hne : xs ≠ [] := by
      rintro rfl
      obtain ⟨y, hy, hclass⟩ := hlast
      obtain rfl : x = y := by simpa using hy
      exact hx hclass
    rw [List.getLast?_cons_of_ne_nil hne] at hlast
    rw [← nextClass_append_atEnd hne (n :: ys)] at hb
    exact .keep hx hb (ih hlast)
  | @comment blank x m xs xs' hb hx hm _ ih =>
    by_cases hnil : xs = []
    · subst hnil
      obtain ⟨y, hy, hclass⟩ := hlast
      obtain rfl : m = y := by simpa using hy
      simp [hclass] at hm
    · rw [List.getLast?_append_of_ne_nil _ (by simp), List.getLast?_cons_of_ne_nil (by simp),
        List.getLast?_cons_of_ne_nil hnil] at hlast
      rw [List.append_assoc, List.append_assoc]
      exact .comment hb hx hm (ih hlast)
  | @last blank x hb hx =>
    have hbreak : context.breakAfter n = [] := by simp [SpanContext.breakAfter, hcollapse]
    have hcomment : BlockStripped context (blank.toList ++ x :: n :: ys)
        (context.breakAfter n ++ ys') := .comment hb hx hn h'
    rw [hbreak] at hcomment
    rw [List.append_assoc]
    exact hcomment
  | @inside blank x xs xs' hb hx hm _ ih =>
    have hne : xs ≠ [] := by
      rintro rfl
      simp [SpanContext.nextClass] at hm
    rw [List.getLast?_append_of_ne_nil _ (by simp), List.getLast?_cons_of_ne_nil hne] at hlast
    rw [← nextClass_append_atEnd hne (n :: ys)] at hm
    rw [List.append_assoc, List.append_assoc]
    exact .inside hb hx hm (ih hlast)

/-! ## What the line rule leaves last -/

/-- Removed line comments, each with blanks before it, perhaps, and the line break after it. -/
inductive LineComments (stripDocs : Bool) : Trivia → Prop
  | nil : LineComments stripDocs []
  | comment {x n : Trivium} {rest : Trivia} (hx : x.classify stripDocs = .lineComment)
      (hn : n.classify stripDocs = .lineBreak) (h : LineComments stripDocs rest) :
      LineComments stripDocs (x :: n :: rest)
  | blank {b x n : Trivium} {rest : Trivia} (hb : b.classify stripDocs = .inlineWhitespace)
      (hx : x.classify stripDocs = .lineComment) (hn : n.classify stripDocs = .lineBreak)
      (h : LineComments stripDocs rest) : LineComments stripDocs (b :: x :: n :: rest)

/-- The span ends with a removed block comment and the removed line comments after it: the first of them
on its line, the others on lines of their own. -/
def BlockThenLines (stripDocs : Bool) (xs : Trivia) : Prop :=
  ∃ front b tail, xs = front ++ b :: tail ∧ b.classify stripDocs = .blockComment ∧
    LineComments stripDocs tail ∧ tail ≠ []

theorem BlockThenLines.append_left {stripDocs : Bool} {xs : Trivia} (ys : Trivia)
    (h : BlockThenLines stripDocs xs) : BlockThenLines stripDocs (ys ++ xs) := by
  obtain ⟨front, b, tail, rfl, hb, htail, hne⟩ := h
  exact ⟨ys ++ front, b, tail, by simp, hb, htail, hne⟩

/-- The line rule leaves nothing only of line comments with their line breaks. -/
theorem LineStripped.lineComments {xs ys : Trivia} (h : LineStripped context xs ys) (hys : ys = [])
    (hlast : ∀ x ∈ xs.getLast?, x.classify context.stripDocs ≠ .lineComment) :
    LineComments context.stripDocs xs ∧ (xs ≠ [] → context.collapse = true) := by
  induction h with
  | nil => exact ⟨.nil, fun hne => absurd rfl hne⟩
  | keep => cases hys
  | @blank b xs ys hb hn _ ih =>
    obtain ⟨hxs, hcollapse⟩ := ih hys (forall_getLast?_of_cons hlast)
    obtain ⟨x, rest, rfl, hx⟩ := nextClass_eq_some hn (by simp)
    have hc : context.collapse = true := hcollapse (by simp)
    cases hxs with
    | comment _ hn' htail => exact ⟨.blank hb hx hn' htail, fun _ => hc⟩
    | blank hb' => rw [hx] at hb'; cases hb'
  | @comment x n xs ys hx hn _ ih =>
    obtain ⟨hbreak, hrest⟩ := List.append_eq_nil_iff.mp hys
    obtain ⟨hxs, _⟩ := ih hrest (forall_getLast?_of_cons (forall_getLast?_of_cons hlast))
    refine ⟨.comment hx hn hxs, fun _ => ?_⟩
    by_contra hc
    simp [SpanContext.breakAfter, hc] at hbreak
  | last hx => exact absurd hx (hlast _ rfl)

/-- Line comments leave nothing where they take their line breaks along. -/
theorem LineComments.lineStripped {tail xs ys : Trivia} (h : LineComments context.stripDocs tail)
    (hcollapse : context.collapse = true) (hxs : LineStripped context xs ys) :
    LineStripped context (tail ++ xs) ys := by
  have hbreak (n : Trivium) : context.breakAfter n = [] := by
    simp [SpanContext.breakAfter, hcollapse]
  induction h with
  | nil => exact hxs
  | @comment x n rest hx hn _ ih =>
    have hcomment := LineStripped.comment hx hn ih
    rw [hbreak, List.nil_append] at hcomment
    exact hcomment
  | @blank b x n rest hb hx hn _ ih =>
    have hcomment := LineStripped.comment hx hn ih
    rw [hbreak, List.nil_append] at hcomment
    exact .blank hb (congrArg some hx) hcomment

/-- **What the line rule leaves last**, if it is no line break, stood last in the span or right before line
comments that go. -/
theorem LineStripped.exists_hidden {xs ys : Trivia} (h : LineStripped context xs ys)
    (hlast : ∀ x ∈ xs.getLast?, x.classify context.stripDocs ≠ .lineComment) {b : Trivium}
    (hb : b ∈ ys.getLast?) (hbreak : b.classify context.stripDocs ≠ .lineBreak) :
    ∃ front tail, xs = front ++ b :: tail ∧ LineComments context.stripDocs tail ∧
      (tail ≠ [] → context.collapse = true) ∧
      (b.classify context.stripDocs = .inlineWhitespace →
        context.nextClass tail ≠ some .lineComment) := by
  induction h with
  | nil => cases hb
  | @keep x xs ys hblank _ h ih =>
    by_cases hys : ys = []
    · subst hys
      obtain rfl : x = b := by simpa using hb
      obtain ⟨htail, hcollapse⟩ := h.lineComments rfl (forall_getLast?_of_cons hlast)
      exact ⟨[], xs, rfl, htail, hcollapse, hblank⟩
    · rw [List.getLast?_cons_of_ne_nil hys] at hb
      obtain ⟨front, tail, rfl, htail⟩ := ih (forall_getLast?_of_cons hlast) hb
      exact ⟨x :: front, tail, rfl, htail⟩
  | @blank c xs ys _ _ _ ih =>
    obtain ⟨front, tail, rfl, htail⟩ := ih (forall_getLast?_of_cons hlast) hb
    exact ⟨c :: front, tail, rfl, htail⟩
  | @comment x n xs ys _ hn _ ih =>
    by_cases hys : ys = []
    · subst hys
      rw [List.append_nil] at hb
      rw [mem_breakAfter (List.mem_of_getLast? hb)] at hbreak
      exact absurd hn hbreak
    · rw [List.getLast?_append_of_ne_nil _ hys] at hb
      obtain ⟨front, tail, rfl, htail⟩ :=
        ih (forall_getLast?_of_cons (forall_getLast?_of_cons hlast)) hb
      exact ⟨x :: n :: front, tail, rfl, htail⟩
  | last => cases hb

/-- A block comment that the line rule leaves last, but did not find last, was hidden behind line comments. -/
theorem LineStripped.hidden_of_last {xs ys : Trivia} (h : LineStripped context xs ys)
    (hlast : ∀ x ∈ xs.getLast?, x.isRemovable context.stripDocs = false) {y : Trivium}
    (hy : y ∈ ys.getLast?) (hblock : y.classify context.stripDocs = .blockComment) :
    context.collapse = true ∧ BlockThenLines context.stripDocs xs := by
  obtain ⟨front, tail, rfl, htail, hcollapse, _⟩ :=
    h.exists_hidden (fun x hx => (isRemovable_eq_false_iff.mp (hlast x hx)).1) hy (by simp [hblock])
  by_cases hne : tail = []
  · subst hne
    exact absurd hblock (isRemovable_eq_false_iff.mp (hlast y (by simp))).2
  · exact ⟨hcollapse hne, front, y, tail, rfl, hblock, htail, hne⟩

/-- Where no two runs of blanks stand side by side, the line rule does not leave blanks last. -/
theorem LineStripped.last_ne_blank {xs ys : Trivia} (h : LineStripped context xs ys)
    (hapart : xs.IsChain BlanksApart)
    (hlast : ∀ x ∈ xs.getLast?, x.classify context.stripDocs ≠ .lineComment ∧
      x.classify context.stripDocs ≠ .inlineWhitespace) :
    ∀ y ∈ ys.getLast?, y.classify context.stripDocs ≠ .inlineWhitespace := by
  intro y hy hblank
  obtain ⟨front, tail, rfl, htail, _, hnext⟩ :=
    h.exists_hidden (fun x hx => (hlast x hx).1) hy (by simp [hblank])
  cases htail with
  | nil => exact (hlast y (by simp)).2 hblank
  | comment hx => exact hnext hblank (congrArg some hx)
  | blank hb =>
    have hpair := (List.isChain_append_cons_cons.mp hapart).2.1
    exact hpair (kind_of_inlineWhitespace hblank) (kind_of_inlineWhitespace hb)

/-! ## Cutting both rules at once -/

theorem classify_of_newline {stripDocs : Bool} {n : Trivium} (hn : n.kind = .newline) :
    n.classify stripDocs = .lineBreak := by
  simp [Trivium.classify, hn]

theorem LineStripped.keep_newline {n : Trivium} {xs ys : Trivia} (hn : n.kind = .newline)
    (h : LineStripped context xs ys) : LineStripped context (n :: xs) (n :: ys) := by
  have hclass : n.classify context.stripDocs = .lineBreak := classify_of_newline hn
  exact .keep (by simp [hclass]) (by simp [hclass]) h

theorem BlockStripped.keep_newline {n : Trivium} {xs ys : Trivia} (hn : n.kind = .newline)
    (h : BlockStripped context xs ys) : BlockStripped context (n :: xs) (n :: ys) := by
  have hclass : n.classify context.stripDocs = .lineBreak := classify_of_newline hn
  exact .keep (by simp [hclass]) (by simp [hclass]) h

/-- **A span can be cut at a line break** that no comment takes along: the one before it, or a block comment
that is hidden behind line comments. -/
theorem stripSpan_append_newline {before after : Trivia} {n : Trivium} (hn : n.kind = .newline)
    (hlast : ∀ x ∈ before.getLast?, x.isRemovable context.stripDocs = false)
    (hhidden : context.collapse = true → ¬BlockThenLines context.stripDocs before) :
    stripSpan context (before ++ n :: after) =
      stripSpan context before ++ n :: stripSpan context after := by
  obtain ⟨middle, hline, hblock⟩ := stripSpan_steps context before
  obtain ⟨middle', hline', hblock'⟩ := stripSpan_steps context after
  have hclass : n.classify context.stripDocs = .lineBreak := classify_of_newline hn
  refine stripSpan_of_steps (hline.append (hline'.keep_newline hn) ?_ ?_)
    (hblock.append (hblock'.keep_newline hn) ?_ ?_)
  · intro x _ _
    simp [SpanContext.nextClass, hclass]
  · intro x hx
    exact (isRemovable_eq_false_iff.mp (hlast x hx)).1
  · intro x _ _
    simp [SpanContext.nextClass, hclass]
  · intro x hx hcomment
    obtain ⟨hcollapse, hthen⟩ := hline.hidden_of_last hlast hx hcomment
    exact absurd hthen (hhidden hcollapse)

/-- The trivia end where a line begins: there are none, or the last is a line break, or lines that are not
compiled. -/
def EndsAtLineStart (xs : Trivia) : Prop :=
  ∀ x ∈ xs.getLast?, x.kind = .newline ∨ x.kind = .disabledText

theorem EndsAtLineStart.classify {xs : Trivia} (h : EndsAtLineStart xs) (stripDocs : Bool) :
    ∀ x ∈ xs.getLast?, x.classify stripDocs = .lineBreak ∨ x.classify stripDocs = .other := by
  intro x hx
  rcases h x hx with hkind | hkind
  · exact Or.inl (classify_of_newline hkind)
  · exact Or.inr (by simp [Trivium.classify, hkind])

theorem LineStripped.append_of_lineStart {xs xs' ys ys' : Trivia} (h : LineStripped context xs xs')
    (h' : LineStripped context ys ys') (hxs : EndsAtLineStart xs) :
    LineStripped context (xs ++ ys) (xs' ++ ys') := by
  have hclass := hxs.classify context.stripDocs
  refine h.append h' (fun x hx hblank => ?_) fun x hx hcomment => ?_
  · rcases hclass x hx with hx | hx <;> rw [hblank] at hx <;> cases hx
  · rcases hclass x hx with hx | hx <;> rw [hcomment] at hx <;> cases hx

/-- **A span can be cut where a line begins**, unless a block comment is hidden behind line comments there
and a line break or the end of the file comes next. -/
theorem stripSpan_append_of_lineStart {xs : Trivia} (ys : Trivia) (hxs : EndsAtLineStart xs)
    (hapart : xs.IsChain BlanksApart)
    (hhidden : context.nextClass (removeLineComments context ys) = some .lineBreak ∨
      context.nextClass (removeLineComments context ys) = some .endOfInput →
        ¬BlockThenLines context.stripDocs xs) :
    stripSpan context (xs ++ ys) =
      stripSpan { context with atEnd := false } xs ++ stripSpan context ys := by
  obtain ⟨middle, hline, hblock⟩ := stripSpan_steps { context with atEnd := false } xs
  obtain ⟨middle', hline', hblock'⟩ := stripSpan_steps context ys
  have hclass := hxs.classify context.stripDocs
  have hlast : ∀ x ∈ xs.getLast?, x.isRemovable context.stripDocs = false := fun x hx =>
    isRemovable_eq_false_iff.mpr (by rcases hclass x hx with h | h <;> simp [h])
  have hwhole : LineStripped context xs middle :=
    hline.of_atEnd context.atEnd fun x hx => (isRemovable_eq_false_iff.mp (hlast x hx)).1
  have hblank := hwhole.last_ne_blank hapart fun x hx => by
    rcases hclass x hx with h | h <;> simp [h]
  refine stripSpan_of_steps (hwhole.append_of_lineStart hline' hxs)
    (hblock.append hblock' (fun x hx hx' => absurd hx' (hblank x hx)) fun x hx hx' => ?_)
  have hthen := (hwhole.hidden_of_last hlast hx hx').2
  rw [removeLineComments, hline'.eq_lineRule] at hhidden
  exact ⟨rfl, fun hbreak => hhidden (Or.inl hbreak) hthen, fun hend => hhidden (Or.inr hend) hthen⟩

end Uncomment
