import Uncomment.Proofs.SpanCuts

/-!
# Line breaks that have nothing to do with a comment

A removed comment takes the line break right after it along, and no other should go. The span is cut at
each of the others (`stripSpan_append_newline`), so it stays, and what is before and after it is stripped
as if it stood alone.

There is one exception. The block rule sees what the line rule left: where line comments come after a block
comment, they are gone with their line breaks, and the block comment takes the next line break for its own
(`stripSpan_hidden_newline`). That line break was another line's, of a blank line for instance.
-/

namespace Uncomment

variable {context : SpanContext}

/-! ## A block comment before line comments -/

/-- A block comment at the end of a span passes the line rule. -/
theorem LineStripped.last_blockComment {xs ys : Trivia} (h : LineStripped context xs ys)
    (hlast : ∃ x ∈ xs.getLast?, x.classify context.stripDocs = .blockComment) :
    ∃ y ∈ ys.getLast?, y.classify context.stripDocs = .blockComment := by
  induction h with
  | nil => exact hlast
  | @keep x xs ys _ _ h ih =>
    by_cases hnil : xs = []
    · subst hnil
      cases h
      exact hlast
    · rw [List.getLast?_cons_of_ne_nil hnil] at hlast
      obtain ⟨y, hy, hclass⟩ := ih hlast
      exact ⟨y, List.mem_getLast?_cons hy, hclass⟩
  | @blank b xs ys _ hn _ ih =>
    obtain ⟨x, rest, rfl, _⟩ := nextClass_eq_some hn (by simp)
    rw [List.getLast?_cons_of_ne_nil (by simp)] at hlast
    exact ih hlast
  | @comment x n xs ys _ hn _ ih =>
    by_cases hnil : xs = []
    · subst hnil
      obtain ⟨y, hy, hclass⟩ := hlast
      obtain rfl : n = y := by simpa using hy
      rw [hclass] at hn
      cases hn
    · rw [List.getLast?_cons_of_ne_nil (by simp), List.getLast?_cons_of_ne_nil hnil] at hlast
      obtain ⟨y, hy, hclass⟩ := ih hlast
      exact ⟨y, List.mem_getLast?_append_of_mem_getLast? hy, hclass⟩
  | @last x hx =>
    obtain ⟨y, hy, hclass⟩ := hlast
    obtain rfl : x = y := by simpa using hy
    rw [hclass] at hx
    cases hx

/-- **A block comment takes the line break after it along, over line comments that go.** -/
theorem stripSpan_hidden_newline {front tail after : Trivia} {b n : Trivium}
    (hb : b.classify context.stripDocs = .blockComment)
    (htail : LineComments context.stripDocs tail) (hn : n.kind = .newline)
    (hcollapse : context.collapse = true) :
    stripSpan context (front ++ b :: (tail ++ n :: after)) =
      stripSpan { context with atEnd := true } (front ++ [b]) ++ stripSpan context after := by
  obtain ⟨middle, hline, hblock⟩ := stripSpan_steps { context with atEnd := true } (front ++ [b])
  obtain ⟨middle', hline', hblock'⟩ := stripSpan_steps context after
  have hlast : ∀ x ∈ (front ++ [b]).getLast?, x = b := by simp
  have hfront : LineStripped context (front ++ [b]) middle := by
    refine hline.of_atEnd context.atEnd fun x hx => ?_
    rw [hlast x hx]
    simp [hb]
  have hwhole : LineStripped context (front ++ b :: (tail ++ n :: after))
      (middle ++ n :: middle') := by
    rw [List.append_cons]
    refine hfront.append (htail.lineStripped hcollapse (hline'.keep_newline hn)) ?_ ?_
    · intro x hx hblank
      rw [hlast x hx, hb] at hblank
      cases hblank
    · intro x hx
      rw [hlast x hx, hb]
      simp
  refine stripSpan_of_steps hwhole (hblock.append_lineBreak hblock' (classify_of_newline hn) hcollapse ?_)
  exact hfront.last_blockComment ⟨b, by simp, hb⟩

/-! ## The line breaks that stay -/

/-- The line breaks of a span that do not come right after a removed comment; `behind` tells that such a
comment is right before the span. -/
def unrelatedBreaks (stripDocs behind : Bool) : Trivia → Trivia
  | [] => []
  | x :: rest =>
    (if x.kind = .newline ∧ behind = false then [x] else []) ++
      unrelatedBreaks stripDocs (x.isRemovable stripDocs) rest

/-- The first of these line breaks, and what is before and after it. -/
theorem unrelatedBreaks_cases (stripDocs behind : Bool) (xs : Trivia) :
    unrelatedBreaks stripDocs behind xs = [] ∨
      ∃ before n after, xs = before ++ n :: after ∧ n.kind = .newline ∧
        (before = [] → behind = false) ∧
        (∀ x ∈ before.getLast?, x.isRemovable stripDocs = false) ∧
        unrelatedBreaks stripDocs behind xs = n :: unrelatedBreaks stripDocs false after := by
  induction xs generalizing behind with
  | nil => exact Or.inl rfl
  | cons x rest ih =>
    by_cases hx : x.kind = .newline ∧ behind = false
    · have hremovable : x.isRemovable stripDocs = false := by
        simp [Trivium.isRemovable, classify_of_newline hx.1]
      refine Or.inr ⟨[], x, rest, rfl, hx.1, fun _ => hx.2, by simp, ?_⟩
      rw [unrelatedBreaks, if_pos hx, hremovable]
      rfl
    · have hskip : unrelatedBreaks stripDocs behind (x :: rest) =
          unrelatedBreaks stripDocs (x.isRemovable stripDocs) rest := by
        rw [unrelatedBreaks, if_neg hx, List.nil_append]
      rw [hskip]
      rcases ih (x.isRemovable stripDocs) with hnil | ⟨before, n, after, rfl, hn, hx', hlast, heq⟩
      · exact Or.inl hnil
      · refine Or.inr ⟨x :: before, n, after, rfl, hn, by simp, fun y hy => ?_, heq⟩
        cases before with
        | nil =>
          obtain rfl : x = y := by simpa using hy
          exact hx' rfl
        | cons z before =>
          rw [List.getLast?_cons_cons] at hy
          exact hlast y hy

/-- **The line breaks are all left** where none comes right after a hidden block comment. -/
theorem unrelatedBreaks_sublist (context : SpanContext) (xs : Trivia)
    (h : context.collapse = true → ∀ before n after, xs = before ++ n :: after →
      n.kind = .newline → ¬BlockThenLines context.stripDocs before) :
    (unrelatedBreaks context.stripDocs false xs).Sublist
      ((stripSpan context xs).filter (·.kind == .newline)) := by
  -- From one such line break to the next.
  induction hlen : xs.length using Nat.strongRecOn generalizing xs with
  | ind k ih =>
    rcases unrelatedBreaks_cases context.stripDocs false xs with
      hnil | ⟨before, n, after, rfl, hn, _, hlast, heq⟩
    · rw [hnil]
      exact List.nil_sublist _
    · have hafter : context.collapse = true → ∀ before' n' after', after = before' ++ n' :: after' →
          n'.kind = .newline → ¬BlockThenLines context.stripDocs before' := by
        rintro hcollapse before' n' after' rfl hn' hhidden
        refine h hcollapse (before ++ n :: before') n' after' (by simp) hn' ?_
        rw [List.append_cons]
        exact hhidden.append_left _
      have hcut : stripSpan context (before ++ n :: after) =
          stripSpan context before ++ n :: stripSpan context after :=
        stripSpan_append_newline hn hlast fun hcollapse => h hcollapse before n after rfl hn
      have hshort : after.length < k := by
        rw [← hlen, List.length_append, List.length_cons]
        omega
      have hrest := ih after.length hshort after hafter rfl
      rw [heq, hcut, List.filter_append, List.filter_cons_of_pos (by simp [hn])]
      exact (hrest.cons_cons n).trans (List.sublist_append_right _ _)

/-- What becomes of the line breaks of a span that do not come right after a removed comment. -/
structure BreaksStay (context : SpanContext) (xs ys : Trivia) : Prop where
  /-- They stay where they are, but for a block comment hidden behind line comments. -/
  stays : ∀ before n after, xs = before ++ n :: after → n.kind = .newline →
    (∀ x ∈ before.getLast?, x.isRemovable context.stripDocs = false) →
    (context.collapse = true → ¬BlockThenLines context.stripDocs before) →
    ys = stripSpan context before ++ n :: stripSpan context after
  /-- A line break right after one goes, as if it came right after the block comment. -/
  goes : ∀ front b tail n after, xs = front ++ b :: (tail ++ n :: after) →
    b.classify context.stripDocs = .blockComment → LineComments context.stripDocs tail →
    n.kind = .newline → context.collapse = true →
    ys = stripSpan { context with atEnd := true } (front ++ [b]) ++ stripSpan context after
  /-- So all of them are left, in order, unless a line break comes right after one. -/
  sublist : (context.collapse = true → ∀ before n after, xs = before ++ n :: after →
      n.kind = .newline → ¬BlockThenLines context.stripDocs before) →
    (unrelatedBreaks context.stripDocs false xs).Sublist (ys.filter (·.kind == .newline))

/-- **Line breaks that have nothing to do with a comment are kept**, for every span and wherever it stands,
with one exception. A line break that does not come right after a removed comment stays at its place, and
the two parts of the span are stripped each on its own; the exception is a line break of a leading span
right after removed line comments that come after a removed block comment, which is lost. Where there is
none of these, what the stripped span has of line breaks has all of them in order. -/
theorem stripSpan_keeps_unrelated_breaks (context : SpanContext) (xs : Trivia) :
    BreaksStay context xs (stripSpan context xs) := by
  constructor
  · rintro before n after rfl hn hlast hhidden
    exact stripSpan_append_newline hn hlast hhidden
  · rintro front b tail n after rfl hb htail hn hcollapse
    exact stripSpan_hidden_newline hb htail hn hcollapse
  · exact unrelatedBreaks_sublist context xs

/-- A blank line after a line with a comment stays. -/
example :
    stripSpan (.leading false true) [⟨.lineComment, "// c".toList⟩, ⟨.newline, ['\n']⟩,
      ⟨.newline, ['\n']⟩] = [⟨.newline, ['\n']⟩] := by
  decide

/-- **A blank line can be lost.** The text is accepted, and what leads its last word is a comment line, on
which a line comment comes after a block comment, and a blank line. The line break of the blank line comes
right after another line break, and is gone. -/
theorem stripSpan_loses_blank_line :
    SourceFile.parse "a\n/* b */ // c\n\nd".toList =
        .ok (.ofText "a\n/* b */ // c\n\nd".toList) ∧
      ∃ d ∈ (SourceFile.ofText "a\n/* b */ // c\n\nd".toList).terminals.tail,
        unrelatedBreaks true false d.leading = [⟨.newline, ['\n']⟩] ∧
        ¬(unrelatedBreaks true false d.leading).Sublist
          ((stripSpan (.leading d.isEnd true) d.leading).filter (·.kind == .newline)) := by
  refine ⟨parse_of_diagnostics (by decide +kernel),
    ⟨.identifier, ['d'], [⟨.blockComment, "/* b */".toList⟩, ⟨.whitespace, [' ']⟩,
      ⟨.lineComment, "// c".toList⟩, ⟨.newline, ['\n']⟩, ⟨.newline, ['\n']⟩], []⟩,
    by decide +kernel, by decide, ?_⟩
  decide

end Uncomment
