import Uncomment.Proofs.CodeLines
import Uncomment.Proofs.SpanCuts

/-!
# Lines with nothing but comments

Before a token a line may hold nothing but blanks and comments that are removed. With line comments such a
line disappears: the span is stripped as if the line were not there.

With block comments it disappears if all that is blank stands right before the comment that ends the line.
**Blanks go with a comment only if its line ends after it**; other blanks are left, and so is the line break
if the line ends with blanks (`blanksLeft`, `breakLeft`). Nothing before or after the line matters to what
is left of it, which takes that the span can be cut where the line begins, and that no block comment has
nothing but line comments between it and a line break or the end of the file.
-/

namespace Uncomment

variable {context : SpanContext}

/-! ## What is left of a line -/

/-- Whether there is one comment and nothing else. -/
def isOneComment : Trivia → Bool
  | [c] => c.kind.isComment
  | _ => false

/-- The blanks of a line, but for one right before a comment that ends the line. -/
def blanksLeft : Trivia → Trivia
  | [] => []
  | x :: rest =>
    (if x.kind = .whitespace ∧ isOneComment rest = false then [x] else []) ++ blanksLeft rest

/-- The line break after a line, if the line ends with blanks. -/
def breakLeft (n : Trivium) (line : Trivia) : Trivia :=
  if line.getLast?.any (·.kind == .whitespace) then [n] else []

/-- All that is blank on a line stands right before the comment that ends it. -/
def BlanksBeforeLast (line : Trivia) : Prop :=
  ∀ before b after, line = before ++ b :: after → b.kind = .whitespace → isOneComment after = true

theorem blanksBeforeLast_cons {x : Trivium} {rest : Trivia} :
    BlanksBeforeLast (x :: rest) ↔
      (x.kind = .whitespace → isOneComment rest = true) ∧ BlanksBeforeLast rest := by
  constructor
  · intro h
    refine ⟨h [] x rest rfl, fun before b after heq => ?_⟩
    exact h (x :: before) b after (by rw [heq, List.cons_append])
  · rintro ⟨hx, hrest⟩ before b after heq
    cases before with
    | nil =>
      obtain ⟨rfl, rfl⟩ := List.cons.inj heq
      exact hx
    | cons y before =>
      obtain ⟨_, hmore⟩ := List.cons.inj heq
      exact hrest before b after hmore

theorem blanksLeft_eq_nil_iff {line : Trivia} : blanksLeft line = [] ↔ BlanksBeforeLast line := by
  induction line with
  | nil => simp [blanksLeft, BlanksBeforeLast]
  | cons x rest ih =>
    rw [blanksBeforeLast_cons, ← ih, blanksLeft, List.append_eq_nil_iff]
    refine and_congr_left fun _ => ?_
    by_cases hx : x.kind = .whitespace <;> simp [hx]

/-- **Nothing is left** exactly if all blanks stand right before the comment that ends the line. -/
theorem left_eq_nil_iff {n : Trivium} {line : Trivia} :
    blanksLeft line ++ breakLeft n line = [] ↔ BlanksBeforeLast line := by
  rw [List.append_eq_nil_iff, blanksLeft_eq_nil_iff]
  refine and_iff_left_of_imp fun h => ?_
  rw [breakLeft, if_neg]
  intro hlast
  cases hb : line.getLast? with
  | none => simp [hb] at hlast
  | some b =>
    obtain ⟨before, rfl⟩ := List.getLast?_eq_some_iff.mp hb
    have hkind : b.kind = .whitespace := by simpa using hlast
    exact absurd (h before b [] rfl hkind) (by simp [isOneComment])

/-- The blanks of some trivia. -/
def blanks (xs : Trivia) : Trivia :=
  xs.filter (·.kind == .whitespace)

theorem blanks_cons (x : Trivium) (xs : Trivia) :
    blanks (x :: xs) = (if x.kind = .whitespace then [x] else []) ++ blanks xs := by
  by_cases hx : x.kind = .whitespace <;> simp [blanks, hx]

theorem isOneComment_append {xs ys : Trivia} (hxs : xs ≠ []) (hys : ys ≠ []) :
    isOneComment (xs ++ ys) = false := by
  obtain ⟨x, xs, rfl⟩ := List.exists_cons_of_ne_nil hxs
  obtain ⟨y, ys, rfl⟩ := List.exists_cons_of_ne_nil hys
  cases xs <;> rfl

/-- What comes before the end of a line is not the last of it, so its blanks are left. -/
theorem blanksLeft_append {front last : Trivia} (hlast : last ≠ [])
    (hfront : ∀ x ∈ front.getLast?, x.kind = .whitespace → isOneComment last = false) :
    blanksLeft (front ++ last) = blanks front ++ blanksLeft last := by
  induction front with
  | nil => rfl
  | cons x rest ih =>
    have hone : x.kind = .whitespace → isOneComment (rest ++ last) = false := by
      intro hx
      by_cases hne : rest = []
      · subst hne
        exact hfront x rfl hx
      · exact isOneComment_append hne hlast
    rw [List.cons_append, blanksLeft, ih (forall_getLast?_of_cons hfront), blanks_cons,
      List.append_assoc]
    by_cases hx : x.kind = .whitespace <;> simp [hx, hone]

/-- If a line ends with blanks, they are all left. -/
theorem left_of_blank (n : Trivium) (front : Trivia) {b : Trivium} (hb : b.kind = .whitespace) :
    blanksLeft (front ++ [b]) ++ breakLeft n (front ++ [b]) = blanks (front ++ [b]) ++ [n] := by
  have hlast : isOneComment [b] = false := by simp [isOneComment, hb, TriviumKind.isComment]
  rw [blanksLeft_append (by simp) fun _ _ _ => hlast, breakLeft, if_pos (by simp [hb])]
  simp [blanksLeft, blanks, isOneComment, hb]

/-- If a line ends with a comment, blanks right before it go. -/
theorem left_of_comment (n : Trivium) {front : Trivia} {blank : Option Trivium} {c : Trivium}
    (hfront : ∀ x ∈ front.getLast?, x.kind ≠ .whitespace)
    (hblank : ∀ b ∈ blank, b.kind = .whitespace) (hc : c.kind.isComment = true) :
    blanksLeft (front ++ (blank.toList ++ [c])) ++ breakLeft n (front ++ (blank.toList ++ [c])) =
      blanks front := by
  have hkind := ne_whitespace_of_isComment hc
  have hnone : blanksLeft (blank.toList ++ [c]) = [] := by
    cases blank with
    | none => simp [blanksLeft, hkind]
    | some b => simp [blanksLeft, isOneComment, hkind, hc]
  rw [blanksLeft_append (by simp) fun x hx hblank => absurd hblank (hfront x hx), hnone, breakLeft,
    if_neg (by simp [hkind])]
  simp

/-! ## The block rule inside a line -/

theorem classify_of_whitespace {stripDocs : Bool} {b : Trivium} (hb : b.kind = .whitespace) :
    b.classify stripDocs = .inlineWhitespace := by
  simp [Trivium.classify, hb]

/-- A comment without a line break leaves none. -/
theorem replacementBreak_of_spansLines {comment : Text} (h : comment.spansLines = false) :
    replacementBreak comment = none := by
  have hnone : comment.hasReturnOrFeed = false := by
    by_contra hbreak
    simp [Text.spansLines_of_hasReturnOrFeed (by simpa using hbreak)] at h
  obtain ⟨hreturn, hfeed⟩ := Bool.or_eq_false_iff.mp hnone
  rw [replacementBreak, hreturn, hfeed]

/-- Blanks, or a block comment that is removed and spans no lines. -/
def BlankOrBlock (stripDocs : Bool) (x : Trivium) : Prop :=
  x.kind = .whitespace ∨ x.classify stripDocs = .blockComment ∧ x.text.spansLines = false

theorem BlankOrBlock.classify {stripDocs : Bool} {x : Trivium} (h : BlankOrBlock stripDocs x) :
    x.classify stripDocs = .inlineWhitespace ∨ x.classify stripDocs = .blockComment :=
  h.imp classify_of_whitespace And.left

/-- Neither a line break nor the end of the file comes before one. -/
theorem BlankOrBlock.nextClass {x : Trivium} (h : BlankOrBlock context.stripDocs x) (rest : Trivia) :
    context.nextClass (x :: rest) ≠ some .lineBreak ∧
      context.nextClass (x :: rest) ≠ some .endOfInput := by
  rcases h.classify with h | h <;> simp [SpanContext.nextClass, h]

/-- A line break or the end of the file comes next. -/
def EndsNext (context : SpanContext) (xs : Trivia) : Prop :=
  context.nextClass xs = some .lineBreak ∨ context.nextClass xs = some .endOfInput

theorem not_endsNext_append {xs : Trivia} (hne : xs ≠ [])
    (hxs : ∀ x ∈ xs, BlankOrBlock context.stripDocs x) (ys : Trivia) :
    ¬EndsNext context (xs ++ ys) := by
  obtain ⟨x, xs, rfl⟩ := List.exists_cons_of_ne_nil hne
  obtain ⟨hbreak, hend⟩ := (hxs x (by simp)).nextClass (xs ++ ys)
  rintro (h | h)
  · exact hbreak h
  · exact hend h

/-- A block comment that spans no lines, with something other than the end of the line after it, leaves the
blanks before it. -/
theorem BlockStripped.blanks_inside {blank : Option Trivium} {x : Trivium} {xs ys : Trivia}
    (hb : ∀ b ∈ blank, b.classify context.stripDocs = .inlineWhitespace)
    (hx : x.classify context.stripDocs = .blockComment) (hspans : x.text.spansLines = false)
    (hn : context.nextClass xs ≠ some .lineBreak ∧ context.nextClass xs ≠ some .endOfInput)
    (h : BlockStripped context xs ys) :
    BlockStripped context (blank.toList ++ x :: xs) (blank.toList ++ ys) := by
  have hinside := BlockStripped.inside hb hx hn h
  rw [replacementBreak_of_spansLines hspans] at hinside
  exact hinside

/-- Where nothing is known to come after, blanks and block comments do not end a line. -/
theorem nextClass_inside {xs : Trivia} (hxs : ∀ x ∈ xs, BlankOrBlock context.stripDocs x) :
    SpanContext.nextClass { context with atEnd := false } xs ≠ some .lineBreak ∧
      SpanContext.nextClass { context with atEnd := false } xs ≠ some .endOfInput := by
  cases xs with
  | nil => simp [SpanContext.nextClass]
  | cons x xs => exact (hxs x (by simp)).nextClass xs

/-- **Inside a line the block rule leaves the blanks**, and nothing of the comments. -/
theorem blockStripped_inside : ∀ front : Trivia, (∀ x ∈ front, BlankOrBlock context.stripDocs x) →
    BlockStripped { context with atEnd := false } front (blanks front)
  | [], _ => .nil
  | [x], hfront => by
    rcases hfront x (by simp) with hx | ⟨hx, hspans⟩
    · have hclass : x.classify context.stripDocs = .inlineWhitespace := classify_of_whitespace hx
      rw [blanks_cons, if_pos hx]
      exact .keep (by simp [hclass]) (by simp [SpanContext.nextClass]) .nil
    · have hkind := ne_whitespace_of_isComment (isComment_of_classify (Or.inr hx))
      rw [blanks_cons, if_neg hkind]
      exact @BlockStripped.blanks_inside _ none _ _ _ (by simp) hx hspans
        (nextClass_inside (by simp)) .nil
  | x :: y :: rest, hfront => by
    have hmore : ∀ z ∈ y :: rest, BlankOrBlock context.stripDocs z :=
      fun z hz => hfront z (List.mem_cons_of_mem _ hz)
    have hrest : ∀ z ∈ rest, BlankOrBlock context.stripDocs z :=
      fun z hz => hmore z (List.mem_cons_of_mem _ hz)
    rw [blanks_cons]
    rcases hfront x (by simp) with hx | ⟨hx, hspans⟩
    · have hclass : x.classify context.stripDocs = .inlineWhitespace := classify_of_whitespace hx
      rw [if_pos hx]
      rcases hmore y (by simp) with hy | ⟨hy, hspans⟩
      · -- Blanks before blanks are none of the rule's business.
        have hnext : y.classify context.stripDocs = .inlineWhitespace := classify_of_whitespace hy
        exact .keep (by simp [hclass]) (by simp [SpanContext.nextClass, hnext])
          (blockStripped_inside (y :: rest) hmore)
      · have hkind := ne_whitespace_of_isComment (isComment_of_classify (Or.inr hy))
        rw [blanks_cons, if_neg hkind]
        exact @BlockStripped.blanks_inside _ (some x) _ _ _ (by simpa using hclass) hy hspans
          (nextClass_inside hrest) (blockStripped_inside rest hrest)
    · have hkind := ne_whitespace_of_isComment (isComment_of_classify (Or.inr hx))
      rw [if_neg hkind]
      exact @BlockStripped.blanks_inside _ none _ _ _ (by simp) hx hspans (nextClass_inside hmore)
        (blockStripped_inside (y :: rest) hmore)

/-- What comes after is stripped on its own, if a block comment that stands last has more of the line after it. -/
theorem BlockStripped.after_inside {front xs ys : Trivia} (h : BlockStripped context xs ys)
    (hfront : ∀ x ∈ front, BlankOrBlock context.stripDocs x)
    (hblank : ∀ x ∈ front.getLast?, x.kind = .whitespace →
      context.nextClass xs ≠ some .blockComment)
    (hcomment : ∀ x ∈ front.getLast?, x.classify context.stripDocs = .blockComment →
      ¬EndsNext context xs) :
    BlockStripped context (front ++ xs) (blanks front ++ ys) := by
  refine @BlockStripped.append context false front _ xs ys (blockStripped_inside front hfront) h ?_ ?_
  · intro x hx hclass
    exact hblank x hx (kind_of_inlineWhitespace hclass)
  · intro x hx hclass
    have hends := hcomment x hx hclass
    exact ⟨rfl, fun hbreak => hends (Or.inl hbreak), fun hend => hends (Or.inr hend)⟩

/-! ## Lines of a text -/

/-- How a line with nothing but blanks and removed comments, none of which spans lines, ends: with blanks, or with
a comment, perhaps after blanks. Before that it has no line comment. -/
inductive CommentLine (stripDocs : Bool) : Trivia → Prop
  | blank {front : Trivia} {b : Trivium} (hfront : ∀ x ∈ front, BlankOrBlock stripDocs x)
      (hb : b.kind = .whitespace) : CommentLine stripDocs (front ++ [b])
  | comment {front : Trivia} {blank : Option Trivium} {c : Trivium}
      (hfront : ∀ x ∈ front, BlankOrBlock stripDocs x)
      (hlast : ∀ x ∈ front.getLast?, x.kind ≠ .whitespace)
      (hblank : ∀ b ∈ blank, b.kind = .whitespace) (hc : c.isRemovable stripDocs = true)
      (hspans : c.text.spansLines = false) :
      CommentLine stripDocs (front ++ (blank.toList ++ [c]))

/-- Only a line break comes after a trivium that goes on to the end of its line. -/
theorem LinesEnd.newline {atEnd : Bool} {xs ys : Trivia} {x y : Trivium}
    (h : LinesEnd atEnd (xs ++ x :: y :: ys)) (hx : x.runsToLineEnd = true) : y.kind = .newline := by
  induction xs with
  | nil => exact h.1 hx
  | cons z xs ih => exact ih h.2

/-- A line of a text with nothing but blanks and removed comments is a comment line. -/
theorem commentLine_of_line {stripDocs atEnd : Bool} {line rest : Trivia} (hne : line ≠ [])
    (hends : LinesEnd atEnd (line ++ rest)) (hapart : line.IsChain BlanksApart)
    (hline : ∀ x ∈ line, x.kind = .whitespace ∨ x.isRemovable stripDocs = true)
    (hspans : ∀ x ∈ line, x.isRemovable stripDocs = true → x.text.spansLines = false) :
    CommentLine stripDocs line := by
  have hnotBreak : ∀ x ∈ line, x.kind ≠ .newline := by
    intro x hx hkind
    rcases hline x hx with h | h
    · rw [hkind] at h
      cases h
    · simp [Trivium.isRemovable, classify_of_newline hkind] at h
  -- A line comment has a line break after it, so only the last of the line can be one.
  have hinside : ∀ before x y after, line = before ++ x :: y :: after →
      BlankOrBlock stripDocs x := by
    rintro before x y after rfl
    rcases hline x (by simp) with h | h
    · exact Or.inl h
    · refine Or.inr ⟨?_, hspans x (by simp) h⟩
      rcases Bool.or_eq_true_iff.mp h with hx | hx
      · have hclass : x.classify stripDocs = .lineComment := by simpa using hx
        rw [List.append_assoc, List.cons_append, List.cons_append] at hends
        exact absurd (hends.newline (runsToLineEnd_of_classify hclass)) (hnotBreak y (by simp))
      · simpa using hx
  obtain ⟨front, z, rfl⟩ := (List.eq_nil_or_concat' line).resolve_left hne
  have hfront : ∀ x ∈ front, BlankOrBlock stripDocs x := by
    intro x hx
    obtain ⟨before, after, rfl⟩ := List.append_of_mem hx
    rcases after with _ | ⟨y, after⟩
    · exact hinside before x z [] (by simp)
    · exact hinside before x y (after ++ [z]) (by simp)
  rcases hline z (by simp) with hz | hz
  · exact .blank hfront hz
  · have hzspans := hspans z (by simp) hz
    rcases List.eq_nil_or_concat' front with rfl | ⟨before, b, rfl⟩
    · exact @CommentLine.comment _ [] none z (by simp) (by simp) (by simp) hz hzspans
    · by_cases hb : b.kind = .whitespace
      · have hbefore : ∀ x ∈ before.getLast?, x.kind ≠ .whitespace := by
          intro x hx hkind
          obtain ⟨init, rfl⟩ := List.getLast?_eq_some_iff.mp (Option.mem_def.mp hx)
          have hchain : (init ++ x :: b :: [z]).IsChain BlanksApart := by simpa using hapart
          exact (List.isChain_append_cons_cons.mp hchain).2.1 hkind hb
        have hcomment := @CommentLine.comment stripDocs before (some b) z
          (fun x hx => hfront x (by simp [hx])) hbefore (by simpa using hb) hz hzspans
        simpa using hcomment
      · exact @CommentLine.comment _ (before ++ [b]) none z hfront (by simpa using hb) (by simp) hz
          hzspans

/-! ## Stripping a line -/

/-- Blanks and block comments are left to the block rule. -/
theorem LineStripped.after_inside {front xs ys : Trivia} (h : LineStripped context xs ys)
    (hfront : ∀ x ∈ front, BlankOrBlock context.stripDocs x)
    (hblank : ∀ x ∈ front.getLast?, x.kind = .whitespace →
      context.nextClass xs ≠ some .lineComment) :
    LineStripped context (front ++ xs) (front ++ ys) := by
  have hnot : ∀ x ∈ front, x.classify context.stripDocs ≠ .lineComment := by
    intro x hx
    rcases (hfront x hx).classify with h | h <;> simp [h]
  have hsame : LineStripped context front front := by
    have hrule : LineStripped context front (lineRule context false front) :=
      lineStripped_lineRule front
    rwa [hrule.eq_of_forall hnot] at hrule
  refine hsame.append h (fun x hx hclass => ?_) fun x hx => ?_
  · exact hblank x hx (kind_of_inlineWhitespace hclass)
  · exact hnot x (List.mem_of_getLast? hx)

/-- A line before trivia that the rules make `middle` and then `ys` of: the rules make of both what is left of the
line before `ys`, and where the line rule leaves a line break or nothing first, it did so without the line. -/
def Leaves (context : SpanContext) (line xs middle ys left : Trivia) : Prop :=
  ∃ middle', LineStripped context (line ++ xs) middle' ∧
    BlockStripped context middle' (left ++ ys) ∧ (EndsNext context middle' → EndsNext context middle)

section

variable {front post middle ys : Trivia} {n : Trivium} (hn : n.kind = .newline)
  (hline : LineStripped context post middle) (hblock : BlockStripped context middle ys)
include hn hline hblock

/-- A line that ends with blanks keeps its blanks and its line break. -/
theorem leaves_of_blank {b : Trivium} (hfront : ∀ x ∈ front, BlankOrBlock context.stripDocs x)
    (hb : b.kind = .whitespace) :
    Leaves context (front ++ [b]) (n :: post) middle ys (blanks (front ++ [b]) ++ [n]) := by
  have hall : ∀ x ∈ front ++ [b], BlankOrBlock context.stripDocs x :=
    List.forall_mem_append.mpr ⟨hfront, List.forall_mem_singleton.mpr (Or.inl hb)⟩
  refine ⟨front ++ [b] ++ n :: middle, ?_, ?_, ?_⟩
  · refine (hline.keep_newline hn).after_inside hall fun _ _ _ => ?_
    simp [SpanContext.nextClass, classify_of_newline hn]
  · rw [List.append_assoc (blanks _)]
    refine (hblock.keep_newline hn).after_inside hall (fun x _ _ => ?_) fun x hx hcomment => ?_
    · simp [SpanContext.nextClass, classify_of_newline hn]
    · obtain rfl : b = x := by simpa using hx
      rw [classify_of_whitespace hb] at hcomment
      cases hcomment
  · intro hends
    exact absurd hends (not_endsNext_append (by simp) hall _)

variable (hcollapse : context.collapse = true) {blank : Option Trivium} {c : Trivium}
  (hfront : ∀ x ∈ front, BlankOrBlock context.stripDocs x)
  (hlast : ∀ x ∈ front.getLast?, x.kind ≠ .whitespace)
  (hblank : ∀ b ∈ blank, b.classify context.stripDocs = .inlineWhitespace)
include hcollapse hfront hlast hblank

/-- A line comment goes with the blanks before it and its line break, and what is before it comes to stand
before what follows. -/
theorem leaves_of_lineComment (hc : c.classify context.stripDocs = .lineComment)
    (hhidden : ∀ x ∈ front.getLast?, x.classify context.stripDocs = .blockComment →
      ¬EndsNext context middle) :
    Leaves context (front ++ (blank.toList ++ [c])) (n :: post) middle ys (blanks front) := by
  have htail : LineComments context.stripDocs (blank.toList ++ [c, n]) := by
    cases blank with
    | none => exact .comment hc (classify_of_newline hn) .nil
    | some b => exact .blank (hblank b rfl) hc (classify_of_newline hn) .nil
  refine ⟨front ++ middle, ?_, ?_, ?_⟩
  · have hrest := (htail.lineStripped hcollapse hline).after_inside hfront
      fun x hx hkind => absurd hkind (hlast x hx)
    simpa using hrest
  · exact hblock.after_inside hfront (fun x hx hkind => absurd hkind (hlast x hx)) hhidden
  · intro hends
    by_cases hne : front = []
    · rwa [hne] at hends
    · exact absurd hends (not_endsNext_append hne hfront middle)

/-- A block comment that ends the line goes with the blanks before it and the line break. -/
theorem leaves_of_blockComment (hc : c.classify context.stripDocs = .blockComment)
    (hspans : c.text.spansLines = false) :
    Leaves context (front ++ (blank.toList ++ [c])) (n :: post) middle ys (blanks front) := by
  have hpiece : ∀ x ∈ blank.toList ++ [c], BlankOrBlock context.stripDocs x := by
    refine List.forall_mem_append.mpr ⟨fun b hb => Or.inl ?_, ?_⟩
    · exact kind_of_inlineWhitespace (hblank b (by simpa using hb))
    · exact List.forall_mem_singleton.mpr (Or.inr ⟨hc, hspans⟩)
  have hall := List.forall_mem_append.mpr ⟨hfront, hpiece⟩
  refine ⟨front ++ (blank.toList ++ [c]) ++ n :: middle, ?_, ?_, ?_⟩
  · refine (hline.keep_newline hn).after_inside hall fun _ _ _ => ?_
    simp [SpanContext.nextClass, classify_of_newline hn]
  · have hcomment := BlockStripped.comment hblank hc (classify_of_newline hn) hblock
    rw [SpanContext.breakAfter, if_pos hcollapse, List.nil_append] at hcomment
    have hends := not_endsNext_append (by simp) hpiece (n :: middle)
    have hrest := hcomment.after_inside hfront (fun x hx hkind => absurd hkind (hlast x hx))
      fun _ _ _ => by simpa using hends
    simpa using hrest
  · intro hends
    exact absurd hends (not_endsNext_append (by simp) hall _)

end

/-- **What is left of a comment line.** If it has comments of both kinds, no line break may come next when the line
comment is gone. -/
theorem CommentLine.leaves {line post middle ys : Trivia} {n : Trivium}
    (h : CommentLine context.stripDocs line) (hcollapse : context.collapse = true)
    (hn : n.kind = .newline) (hline : LineStripped context post middle)
    (hblock : BlockStripped context middle ys)
    (hhidden : EndsNext context middle →
      (∀ x ∈ line, x.classify context.stripDocs ≠ .lineComment) ∨
        ∀ x ∈ line, x.classify context.stripDocs ≠ .blockComment) :
    Leaves context line (n :: post) middle ys (blanksLeft line ++ breakLeft n line) := by
  cases h with
  | @blank front b hfront hb =>
    rw [left_of_blank n front hb]
    exact leaves_of_blank hn hline hblock hfront hb
  | @comment front blank c hfront hlast hblank hc hspans =>
    have hclass : c.classify context.stripDocs = .lineComment ∨
        c.classify context.stripDocs = .blockComment := by
      simpa [Trivium.isRemovable] using hc
    have hbclass : ∀ b ∈ blank, b.classify context.stripDocs = .inlineWhitespace :=
      fun b hb => classify_of_whitespace (hblank b hb)
    rw [left_of_comment n hlast hblank (isComment_of_classify hclass)]
    rcases hclass with hclass | hclass
    · refine leaves_of_lineComment hn hline hblock hcollapse hfront hlast hbclass hclass ?_
      intro x hx hcomment hends
      rcases hhidden hends with hnone | hnone
      · exact hnone c (by simp) hclass
      · exact hnone x (List.mem_append_left _ (List.mem_of_getLast? hx)) hcomment
    · exact leaves_of_blockComment hn hline hblock hcollapse hfront hlast hbclass hclass hspans

/-- **A comment line between what is before it and what is after it.** -/
theorem CommentLine.stripSpan_eq {pre line post : Trivia} {n : Trivium}
    (h : CommentLine context.stripDocs line) (hcollapse : context.collapse = true)
    (hn : n.kind = .newline) (hpre : EndsAtLineStart pre) (hapart : pre.IsChain BlanksApart)
    (hhidden : EndsNext context (removeLineComments context post) →
      ¬BlockThenLines context.stripDocs pre ∧
        ((∀ x ∈ line, x.classify context.stripDocs ≠ .lineComment) ∨
          ∀ x ∈ line, x.classify context.stripDocs ≠ .blockComment)) :
    stripSpan context (pre ++ (line ++ n :: post)) =
        stripSpan { context with atEnd := false } pre ++ (blanksLeft line ++ breakLeft n line) ++
          stripSpan context post ∧
      stripSpan context (pre ++ post) =
        stripSpan { context with atEnd := false } pre ++ stripSpan context post := by
  obtain ⟨middle, hline, hblock⟩ := stripSpan_steps context post
  rw [removeLineComments, hline.eq_lineRule] at hhidden
  obtain ⟨middle', hline', hblock', hends⟩ :=
    h.leaves hcollapse hn hline hblock fun hends => (hhidden hends).2
  constructor
  · have hcut : stripSpan context (pre ++ (line ++ n :: post)) =
        stripSpan { context with atEnd := false } pre ++ stripSpan context (line ++ n :: post) := by
      refine stripSpan_append_of_lineStart _ hpre hapart ?_
      rw [removeLineComments, hline'.eq_lineRule]
      exact fun hnext => (hhidden (hends hnext)).1
    rw [hcut, stripSpan_of_steps hline' hblock']
    simp only [List.append_assoc]
  · refine stripSpan_append_of_lineStart post hpre hapart ?_
    rw [removeLineComments, hline.eq_lineRule]
    exact fun hnext => (hhidden hnext).1

/-- A comment line without block comments is a line comment, perhaps after blanks. -/
theorem CommentLine.lineComments {stripDocs : Bool} {line : Trivia} {n : Trivium}
    (h : CommentLine stripDocs line) (hn : n.kind = .newline)
    (hcomment : ∃ x ∈ line, x.isRemovable stripDocs = true)
    (hnone : ∀ x ∈ line, x.classify stripDocs ≠ .blockComment) :
    LineComments stripDocs (line ++ [n]) := by
  cases h with
  | @blank front b hfront hb =>
    obtain ⟨x, hx, hremovable⟩ := hcomment
    have hkind : x.kind = .whitespace := by
      rcases List.mem_append.mp hx with hmem | hmem
      · exact (hfront x hmem).resolve_right fun h => hnone x hx h.1
      · rw [List.mem_singleton.mp hmem]
        exact hb
    simp [Trivium.isRemovable, classify_of_whitespace hkind] at hremovable
  | @comment front blank c hfront hlast hblank hc hspans =>
    have hclass : c.classify stripDocs = .lineComment := by
      have hclass : c.classify stripDocs = .lineComment ∨ c.classify stripDocs = .blockComment := by
        simpa [Trivium.isRemovable] using hc
      exact hclass.resolve_right (hnone c (by simp))
    have hnil : front = [] := by
      cases hx : front.getLast? with
      | none => exact List.getLast?_eq_none_iff.mp hx
      | some x =>
        have hmem : x ∈ front := List.mem_of_getLast? hx
        have hkind := (hfront x hmem).resolve_right fun h => hnone x (by simp [hmem]) h.1
        exact absurd hkind (hlast x hx)
    subst hnil
    cases blank with
    | none => exact .comment hclass (classify_of_newline hn) .nil
    | some b =>
      exact .blank (classify_of_whitespace (hblank b rfl)) hclass (classify_of_newline hn) .nil

/-- **A line with line comments disappears.** -/
theorem stripSpan_of_lineComments {pre lines post : Trivia} (hpre : EndsAtLineStart pre)
    (hlines : LineComments context.stripDocs lines) (hcollapse : context.collapse = true) :
    stripSpan context (pre ++ (lines ++ post)) = stripSpan context (pre ++ post) := by
  have hfirst : LineStripped context pre (lineRule context false pre) := lineStripped_lineRule pre
  obtain ⟨middle, hline, _⟩ := stripSpan_steps context post
  have hwith := hfirst.append_of_lineStart (hlines.lineStripped hcollapse hline) hpre
  have hwithout := hfirst.append_of_lineStart hline hpre
  rw [stripSpan_of_steps hwith (blockStripped_blockRule _),
    stripSpan_of_steps hwithout (blockStripped_blockRule _)]

theorem LinesEnd.of_append {atEnd : Bool} {xs ys : Trivia} (h : LinesEnd atEnd (xs ++ ys)) :
    LinesEnd atEnd ys := by
  induction xs with
  | nil => exact h
  | cons x xs ih => exact ih h.2

theorem SpansEnd.leading {terminals : List Terminal} (h : SpansEnd terminals) {a : Terminal}
    (ha : a ∈ terminals) : LinesEnd a.isEnd a.leading := by
  induction terminals with
  | nil => cases ha
  | cons b rest ih =>
    rcases List.mem_cons.mp ha with rfl | ha
    · exact h.1
    · exact ih h.2.2 ha

/-- A line with two block comments, blanks before each, leaves the first of the blanks. -/
example : blanksLeft [⟨.whitespace, "  ".toList⟩, ⟨.blockComment, "/* b */".toList⟩,
    ⟨.whitespace, " ".toList⟩, ⟨.blockComment, "/* c */".toList⟩] = [⟨.whitespace, "  ".toList⟩] := by
  decide

end Uncomment
