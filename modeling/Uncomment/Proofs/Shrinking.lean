import Uncomment.Proofs.Acceptance
import Uncomment.Proofs.StrippedSpans
import Uncomment.Strip.StoredFile

/-!
# A removed comment makes the text shorter

A removed comment may leave a line break behind, but never one as wide as itself: of what the line break
holds each character stood in the comment too, and the comment also had a slash
(`width_replacementBreak_lt`). So every comment that is removed takes at least a byte with it, in a span
(`width_stripSpan`) and in a file (`width_stripTerminals`), and a text comes out of a pass as it went in
exactly if there was nothing to remove.
-/

namespace Uncomment

variable {context : SpanContext}

/-! ## Comments are wider than what they leave behind -/

/-- Every comment has a slash. -/
def CommentsHaveSlash (xs : Trivia) : Prop :=
  ∀ x ∈ xs, x.kind.isComment = true → '/' ∈ x.text

theorem CommentsHaveSlash.tail {x : Trivium} {xs : Trivia} (h : CommentsHaveSlash (x :: xs)) :
    CommentsHaveSlash xs :=
  fun y hy => h y (List.mem_cons_of_mem _ hy)

theorem CommentsHaveSlash.of_append {xs ys : Trivia} (h : CommentsHaveSlash (xs ++ ys)) :
    CommentsHaveSlash ys :=
  fun y hy => h y (List.mem_append_right _ hy)

/-- The characters a stand-in can hold, and the slash, take up a byte each. -/
theorem count_le_width (t : Text) : t.count '\r' + t.count '\n' + t.count '/' ≤ t.width := by
  induction t with
  | nil => simp
  | cons c rest ih =>
    have hpos := c.utf8Size_pos
    simp only [List.count_cons, Text.width_cons, beq_iff_eq]
    -- No character is two of the three.
    have hone : (if c = '\r' then 1 else 0) + (if c = '\n' then 1 else 0) +
        (if c = '/' then 1 else 0) ≤ 1 := by
      by_cases hr : c = '\r'
      · subst hr; decide
      · by_cases hn : c = '\n'
        · subst hn; decide
        · simp only [hr, hn, if_false]
          split <;> omega
    omega

/-- **The line break that stands in for a comment is not as wide as the comment.** -/
theorem width_replacementBreak_lt {comment : Text} (hslash : '/' ∈ comment) :
    (Trivia.text (replacementBreak comment).toList).width < comment.width := by
  have hcount := count_le_width comment
  have hpos : 0 < comment.count '/' := List.count_pos_iff.mpr hslash
  have hwidth : (Trivia.text (replacementBreak comment).toList).width ≤
      comment.count '\r' + comment.count '\n' := by
    unfold replacementBreak
    have hmem : ∀ c : Char, comment.contains c = true → 0 < comment.count c :=
      fun c hc => List.count_pos_iff.mpr (by simpa using hc)
    split
    · next hr hn =>
      have hr' := hmem _ hr
      have hn' := hmem _ hn
      show 2 ≤ _
      omega
    · next hr hn =>
      have hr' := hmem _ hr
      show 1 ≤ _
      omega
    · next hr hn =>
      have hn' := hmem _ hn
      show 1 ≤ _
      omega
    · simp
  omega

/-! ## Spans -/

/-- The number of bytes of trivia. -/
def Trivia.width (xs : Trivia) : Nat :=
  (Trivia.text xs).width

@[simp] theorem Trivia.width_nil : Trivia.width [] = 0 := rfl

@[simp] theorem Trivia.width_cons (x : Trivium) (xs : Trivia) :
    Trivia.width (x :: xs) = x.text.width + Trivia.width xs := by
  simp [Trivia.width]

@[simp] theorem Trivia.width_append (xs ys : Trivia) :
    Trivia.width (xs ++ ys) = Trivia.width xs + Trivia.width ys := by
  simp [Trivia.width]

theorem width_breakAfter_le (context : SpanContext) (n : Trivium) :
    Trivia.width (context.breakAfter n) ≤ n.text.width := by
  unfold SpanContext.breakAfter
  split
  · simp
  · simp

theorem countP_blank {blank : Option Trivium}
    (hb : ∀ b ∈ blank, b.classify context.stripDocs = .inlineWhitespace) :
    blank.toList.countP (Trivium.isRemovable context.stripDocs) = 0 := by
  rw [List.countP_eq_zero]
  intro b hmem
  simp [Trivium.isRemovable, hb b (Option.mem_toList.mp hmem)]

theorem isRemovable_of_classify {stripDocs : Bool} {x : Trivium} {c : TriviumClass}
    (h : x.classify stripDocs = c) :
    x.isRemovable stripDocs = (c == .lineComment || c == .blockComment) := by
  rw [Trivium.isRemovable, h]

/-- A comment has a byte, and so much more than the line break that may stand in for it. -/
theorem CommentsHaveSlash.width_lt {xs : Trivia} (h : CommentsHaveSlash xs) {x : Trivium}
    (hx : x ∈ xs) (hc : x.classify context.stripDocs = .lineComment ∨
      x.classify context.stripDocs = .blockComment) :
    Trivia.width (replacementBreak x.text).toList < x.text.width :=
  width_replacementBreak_lt (h x hx (isComment_of_classify hc))

theorem LineStripped.width_le {xs ys : Trivia} (h : LineStripped context xs ys)
    (hslash : CommentsHaveSlash xs) :
    Trivia.width ys + xs.countP (Trivium.isRemovable context.stripDocs) ≤
      Trivia.width xs + ys.countP (Trivium.isRemovable context.stripDocs) := by
  induction h with
  | nil => exact Nat.le_refl _
  | keep _ _ _ ih =>
    have hrest := ih hslash.tail
    simp only [Trivia.width_cons, List.countP_cons]
    omega
  | blank hb _ _ ih =>
    have hrest := ih hslash.tail
    simp only [Trivia.width_cons, List.countP_cons, isRemovable_of_classify hb]
    simp only [beq_iff_eq, reduceCtorEq, Bool.or_eq_true, or_self, if_false]
    omega
  | @comment x n xs ys hx hn _ ih =>
    have hrest := ih hslash.tail.tail
    have hcomment := hslash.width_lt (x := x) (by simp) (Or.inl hx)
    have hbreak := width_breakAfter_le context n
    simp only [Trivia.width_cons, Trivia.width_append, List.countP_cons, List.countP_append,
      isRemovable_of_classify hx, isRemovable_of_classify hn]
    simp only [beq_iff_eq, reduceCtorEq, Bool.or_eq_true, or_self, or_false, if_true, if_false]
    omega
  | @last x hx _ =>
    have hcomment := hslash.width_lt (x := x) (by simp) (Or.inl hx)
    simp only [Trivia.width_cons, Trivia.width_nil, List.countP_cons, List.countP_nil,
      isRemovable_of_classify hx]
    simp only [beq_iff_eq, reduceCtorEq, Bool.or_eq_true, or_false, if_true]
    omega

theorem BlockStripped.width_le {xs ys : Trivia} (h : BlockStripped context xs ys)
    (hslash : CommentsHaveSlash xs) :
    Trivia.width ys + xs.countP (Trivium.isRemovable context.stripDocs) ≤
      Trivia.width xs + ys.countP (Trivium.isRemovable context.stripDocs) := by
  induction h with
  | nil => exact Nat.le_refl _
  | keep _ _ _ ih =>
    have hrest := ih hslash.tail
    simp only [Trivia.width_cons, List.countP_cons]
    omega
  | @comment blank x n xs ys hb hx hn _ ih =>
    have hslash' := hslash.of_append
    have hrest := ih hslash'.tail.tail
    have hcomment := hslash'.width_lt (x := x) (by simp) (Or.inr hx)
    have hbreak := width_breakAfter_le context n
    simp only [Trivia.width_cons, Trivia.width_append, List.countP_cons, List.countP_append,
      countP_blank hb, isRemovable_of_classify hx, isRemovable_of_classify hn]
    simp only [beq_iff_eq, reduceCtorEq, Bool.or_eq_true, or_self, false_or, if_true, if_false]
    omega
  | @last blank x hb hx _ =>
    have hcomment := hslash.of_append.width_lt (x := x) (by simp) (Or.inr hx)
    simp only [Trivia.width_cons, Trivia.width_append, Trivia.width_nil, List.countP_cons,
      List.countP_append, List.countP_nil, countP_blank hb, isRemovable_of_classify hx]
    simp only [beq_iff_eq, reduceCtorEq, Bool.or_eq_true, false_or, if_true]
    omega
  | @inside blank x xs ys hb hx _ _ ih =>
    have hslash' := hslash.of_append
    have hrest := ih hslash'.tail
    have hcomment := hslash'.width_lt (x := x) (by simp) (Or.inr hx)
    have hnone : (replacementBreak x.text).toList.countP (Trivium.isRemovable context.stripDocs) =
        0 := by
      rw [List.countP_eq_zero]
      intro n hn
      simp [Trivium.isRemovable, Trivium.classify, kind_replacementBreak (Option.mem_toList.mp hn)]
    simp only [Trivia.width_cons, Trivia.width_append, List.countP_cons, List.countP_append, hnone,
      countP_blank hb, isRemovable_of_classify hx]
    simp only [beq_iff_eq, reduceCtorEq, Bool.or_eq_true, false_or, if_true]
    omega

/-- **Each comment that is removed takes a byte with it.** -/
theorem width_stripSpan (context : SpanContext) {xs : Trivia}
    (hends : LinesEnd context.atEnd xs) (hslash : CommentsHaveSlash xs) :
    Trivia.width (stripSpan context xs) + xs.countP (Trivium.isRemovable context.stripDocs) ≤
      Trivia.width xs := by
  obtain ⟨middle, hline, hblock⟩ := stripSpan_steps context xs
  have hfirst := hline.width_le hslash
  have hsecond := hblock.width_le fun y hy => hslash y (hline.mem hy)
  have hnone : (stripSpan context xs).countP (Trivium.isRemovable context.stripDocs) = 0 := by
    rw [List.countP_eq_zero]
    intro y hy
    simp [isRemovable_stripSpan context hends y hy]
  omega

/-! ## Files -/

theorem width_stripTerminals (stripDocs : Bool) {terminals : List Terminal} (keepFirst : Bool)
    (hends : SpansEnd terminals)
    (hslash : ∀ t ∈ terminals, CommentsHaveSlash t.leading ∧ CommentsHaveSlash t.trailing) :
    (textOf (stripTerminals stripDocs keepFirst terminals)).width +
        (bodyTrivia keepFirst terminals).countP (Trivium.isRemovable stripDocs) ≤
      (textOf terminals).width := by
  induction terminals generalizing keepFirst with
  | nil => exact Nat.le_refl _
  | cons t rest ih =>
    obtain ⟨hleading, htrailing, hrest⟩ := hends
    obtain ⟨⟨hslash1, hslash2⟩, hslash3⟩ := List.forall_mem_cons.mp hslash
    have hrest' := ih false hrest hslash3
    have hleading' := width_stripSpan (.leading t.isEnd stripDocs) hleading hslash1
    have htrailing' :=
      width_stripSpan (.trailing (trailingAtEnd rest.head?) stripDocs) htrailing hslash2
    simp only [Trivia.width, SpanContext.leading, SpanContext.trailing] at hleading' htrailing'
    simp only [stripTerminals, stripTerminal, bodyTrivia, textOf_cons, Terminal.fullText,
      Text.width_append, List.countP_append, SpanContext.leading, SpanContext.trailing]
    cases keepFirst with
    | true =>
      simp only [if_true, List.countP_nil]
      omega
    | false =>
      simp only [Bool.false_eq_true, if_false]
      omega

theorem Reading.slash {leading : Bool} {state : LexState} {t : Text} {r : ReadTrivium}
    (h : Reading leading state t r) (hc : r.item.item.kind.isComment = true) :
    '/' ∈ r.item.item.text := by
  cases h with
  | disabled | newline | blank | directive =>
    simp [ReadTrivium.plain, ReadTrivium.directive, TriviumKind.isComment] at hc
  | line => simp [ReadTrivium.plain, Text.currentLine, isLineBreak]
  | block => simp [ReadTrivium.block, blockComment]

theorem commentsHaveSlash_readTrivia (leading : Bool) (state : LexState) (t : Text) :
    CommentsHaveSlash (readTrivia leading state t).trivia := by
  intro x hx
  obtain ⟨state', t', r, hr, rfl⟩ := exists_reading_of_mem hx
  exact hr.slash

theorem commentsHaveSlash_lexFrom (state : LexState) (t : Text) :
    ∀ a ∈ (lexFrom state t).map LexedTerminal.terminal,
      CommentsHaveSlash a.leading ∧ CommentsHaveSlash a.trailing := by
  fun_induction lexFrom state t with
  | case1 state t leading h =>
    intro a ha
    obtain rfl : a = (LexedTerminal.atEnd leading).terminal := by simpa using ha
    exact ⟨commentsHaveSlash_readTrivia true state t, by simp [LexedTerminal.terminal,
      LexedTerminal.atEnd, CommentsHaveSlash]⟩
  | case2 state t leading token h trailing ih =>
    intro a ha
    rcases List.mem_cons.mp ha with rfl | ha
    · exact ⟨commentsHaveSlash_readTrivia true state t, commentsHaveSlash_readTrivia false _ _⟩
    · exact ih a ha

/-- **A text gets shorter by a byte for each comment that is removed**, at least. -/
theorem width_strip (settings : Settings) (t : Text) :
    ((SourceFile.ofText t).strip settings).text.width +
        ((SourceFile.ofText t).bodyTrivia settings.keepHeader).countP
          (Trivium.isRemovable settings.stripDocs) ≤ t.width := by
  have hle := width_stripTerminals settings.stripDocs settings.keepHeader
    (spansEnd_lexFrom .initial t) (commentsHaveSlash_lexFrom .initial t)
  rw [text_lexFrom] at hle
  exact hle

/-! ## Texts that stay as they are -/

theorem stripText_of_parse {settings : Settings} {t : Text} {file : SourceFile}
    (h : SourceFile.parse t = .ok file) :
    stripText settings t = .ok (file.strip settings).text := by
  rw [stripText, h]

/-- The text of an accepted file stays as it is exactly if it has no comment to remove. -/
theorem text_strip_eq_iff {settings : Settings} {t : Text} :
    ((SourceFile.ofText t).strip settings).text = t ↔
      ∀ x ∈ (SourceFile.ofText t).bodyTrivia settings.keepHeader,
        x.isRemovable settings.stripDocs = false := by
  constructor
  · intro h
    have hle := width_strip settings t
    -- The texts before and after are as wide, so nothing went with a comment.
    rw [h] at hle
    have hzero : ((SourceFile.ofText t).bodyTrivia settings.keepHeader).countP
        (Trivium.isRemovable settings.stripDocs) = 0 := by omega
    intro x hx
    simpa using List.countP_eq_zero.mp hzero x hx
  · intro hnone
    have hsame : (SourceFile.ofText t).strip settings = SourceFile.ofText t :=
      SourceFile.eq_of_terminals (stripTerminals_of_forall _ _ _ hnone)
    rw [hsame, SourceFile.text_ofText]

/-- **A pass leaves a text alone exactly if the text is accepted and no comment to remove is found in
it.** -/
theorem stripText_eq_self_iff {settings : Settings} {t : Text} :
    stripText settings t = .ok t ↔ ∃ file, SourceFile.parse t = .ok file ∧
      ∀ x ∈ file.bodyTrivia settings.keepHeader, x.isRemovable settings.stripDocs = false := by
  constructor
  · intro h
    unfold stripText at h
    split at h
    · cases h
    · next file hparse =>
      obtain ⟨rfl, _⟩ := parse_eq_ok_iff.mp hparse
      exact ⟨_, hparse, text_strip_eq_iff.mp (Except.ok.inj h)⟩
  · rintro ⟨file, hparse, hnone⟩
    obtain ⟨rfl, _⟩ := parse_eq_ok_iff.mp hparse
    rw [stripText_of_parse hparse, text_strip_eq_iff.mpr hnone]

/-! ## Outcomes -/

theorem stripNamed_of_parse {settings : Settings} {t : Text} {file : SourceFile}
    (h : SourceFile.parse t = .ok file) (name : String) :
    stripNamed name settings t = .ok (.of t (file.strip settings).text) := by
  rw [stripNamed, stripText_of_parse h]

/-- A stored file that is not written back has the outcome of its text. -/
theorem strip_never {tree : FileTree} {path : Text} {content : Bytes} {d : DecodedText}
    (hread : tree.read path = .ok content) (hdecode : DecodedText.ofBytes content = .ok d)
    (settings : Settings) :
    tree.strip .never settings path =
      (tree, (stripNamed (String.ofList path) settings d.text).mapError .rejected) := by
  simp only [FileTree.strip, FileTree.stripped, hread, stripBytes, hdecode]
  cases stripNamed (String.ofList path) settings d.text with
  | error entries => rfl
  | ok outcome => rfl

/-- **A text is reported as it is exactly if it has nothing to remove.** For every accepted text and all
settings the outcome is "identical" if and only if no trivium outside of a header that is kept is a
comment to remove; otherwise it is the pair of the text and the stripped text, and the stripped text has
fewer bytes. A stored file with that text has the same outcome and is left as it is. -/
theorem outcome_identical_iff_no_comment {t : Text} {file : SourceFile}
    (hparse : SourceFile.parse t = .ok file) (settings : Settings) (name : String) :
    (stripNamed name settings t = .ok (.identical t) ↔
      ∀ x ∈ file.bodyTrivia settings.keepHeader,
        x.classify settings.stripDocs ≠ .lineComment ∧
          x.classify settings.stripDocs ≠ .blockComment) ∧
    (stripNamed name settings t ≠ .ok (.identical t) →
      ∃ stripped, stripText settings t = .ok stripped ∧
        stripNamed name settings t = .ok (.changed t stripped) ∧ stripped.width < t.width) ∧
    (∀ (tree : FileTree) (path : Text) (content : Bytes) (encoding : Encoding),
      tree.read path = .ok content → DecodedText.ofBytes content = .ok ⟨t, encoding⟩ →
      tree.strip .never settings path =
        (tree, (stripNamed (String.ofList path) settings t).mapError .rejected)) := by
  have hfile : file = .ofText t := (parse_eq_ok_iff.mp hparse).1
  have hidentical : stripNamed name settings t = .ok (.identical t) ↔
      (file.strip settings).text = t := by
    rw [stripNamed_of_parse hparse, Outcome.of]
    split
    · next h => simp [h]
    · next h => simp [h]
  have hnone : (file.strip settings).text = t ↔
      ∀ x ∈ file.bodyTrivia settings.keepHeader, x.isRemovable settings.stripDocs = false := by
    rw [hfile]
    exact text_strip_eq_iff
  refine ⟨?_, fun hne => ?_, fun tree path content encoding hread hdecode =>
    strip_never hread hdecode settings⟩
  · rw [hidentical, hnone]
    exact forall₂_congr fun x _ => isRemovable_eq_false_iff
  · rw [ne_eq, hidentical] at hne
    refine ⟨_, stripText_of_parse hparse, ?_, ?_⟩
    · rw [stripNamed_of_parse hparse, Outcome.of, if_neg hne]
    · -- Something is removed, so at least a byte is gone.
      have hle := width_strip settings t
      rw [← hfile] at hle
      have hpos : 0 < (file.bodyTrivia settings.keepHeader).countP
          (Trivium.isRemovable settings.stripDocs) := by
        refine Nat.pos_of_ne_zero fun hzero => hne (hnone.mpr fun x hx => ?_)
        simpa using List.countP_eq_zero.mp hzero x hx
      omega

/-- A comment in a header that is kept is not removed; a block comment between two tokens is. -/
theorem outcome_identical_iff_no_comment_of_header :
    stripNamed "a" {} "// c\nx;\n".toList = .ok (.identical "// c\nx;\n".toList) ∧
      ∃ stripped, stripText {} "// c\nx /* d\r\n */ y;\n".toList = .ok stripped ∧
        stripNamed "a" {} "// c\nx /* d\r\n */ y;\n".toList =
          .ok (.changed "// c\nx /* d\r\n */ y;\n".toList stripped) ∧
        stripped.width < Text.width "// c\nx /* d\r\n */ y;\n".toList := by
  have hsame := parse_of_diagnostics (t := "// c\nx;\n".toList) (by decide +kernel)
  have hchanged := parse_of_diagnostics (t := "// c\nx /* d\r\n */ y;\n".toList)
    (by decide +kernel)
  refine ⟨(outcome_identical_iff_no_comment hsame {} "a").1.mpr (by decide +kernel), ?_⟩
  have houtcome := outcome_identical_iff_no_comment hchanged {} "a"
  exact houtcome.2.1 fun h => absurd (houtcome.1.mp h) (by decide +kernel)

end Uncomment
