import Mathlib.Data.List.Chain
import Mathlib.Data.List.Forall2
import Uncomment.Proofs.SameCode

/-!
# Lines of code

Two tokens stand on different lines if a line break stands between them, be it in a comment. What becomes
of the line breaks between two tokens when comments are removed is settled by the trivia that trail the
first of them: they end with a line break, which stays (`endsWithBreak_stripSpan`), or nothing else stands
between the two, and then no line ends there but inside a comment (`Adjoins`, `isChain_linesOn`).

A line is never split. Lines are merged in one case only: the line breaks between two tokens are all in
removed comments, and none of them is a carriage return or a line feed. Such a comment spans lines as far
as the lexer is concerned, but nothing stands in for it (`any_isLineBreak_replacementBreak`).
-/

namespace Uncomment

/-! ## Line breaks in trivia -/

/-- Whether a text spans lines. -/
def Text.spansLines (t : Text) : Bool :=
  t.any isLineBreak

/-- Whether a text has a carriage return or a line feed. -/
def Text.hasReturnOrFeed (t : Text) : Bool :=
  t.contains '\r' || t.contains '\n'

/-- Whether a trivium leaves a line break between two tokens: one of its own if it is kept, one that
stands in for it if it is a comment to remove. -/
def Trivium.leavesBreak (stripDocs : Bool) (x : Trivium) : Bool :=
  if x.isRemovable stripDocs then x.text.hasReturnOrFeed else x.text.spansLines

theorem Text.spansLines_of_hasReturnOrFeed {t : Text} (h : t.hasReturnOrFeed = true) :
    t.spansLines = true := by
  simp only [hasReturnOrFeed, Bool.or_eq_true, List.contains_iff_mem] at h
  rw [spansLines, List.any_eq_true]
  rcases h with h | h
  · exact ⟨_, h, rfl⟩
  · exact ⟨_, h, rfl⟩

theorem Trivium.leavesBreak_iff {stripDocs : Bool} {x : Trivium} :
    x.leavesBreak stripDocs = true ↔
      x.text.spansLines = true ∧ (x.isRemovable stripDocs = true → x.text.hasReturnOrFeed = true) := by
  unfold leavesBreak
  split
  · next hx => exact ⟨fun h => ⟨Text.spansLines_of_hasReturnOrFeed h, fun _ => h⟩, fun h => h.2 hx⟩
  · next hx => exact ⟨fun h => ⟨h, fun hremovable => absurd hremovable hx⟩, And.left⟩

theorem spansLines_text (xs : Trivia) :
    (Trivia.text xs).spansLines = xs.any (·.text.spansLines) :=
  List.any_flatMap

/-- The line break that stands in for a comment. -/
theorem any_isLineBreak_replacementBreak (comment : Text) :
    (replacementBreak comment).toList.any (·.text.spansLines) = comment.hasReturnOrFeed := by
  unfold replacementBreak Text.hasReturnOrFeed
  split <;> simp_all [Text.spansLines, isLineBreak]

variable {context : SpanContext}

theorem leavesBreak_of_class {stripDocs : Bool} {x : Trivium}
    (h : x.classify stripDocs ≠ .lineComment ∧ x.classify stripDocs ≠ .blockComment) :
    x.leavesBreak stripDocs = x.text.spansLines := by
  rw [Trivium.leavesBreak, isRemovable_eq_false_iff.mpr h]
  rfl

/-- Where no line ends but inside a comment, the block rule leaves the line breaks it should. -/
theorem BlockStripped.spansLines {xs ys : Trivia} (h : BlockStripped context xs ys)
    (hend : context.atEnd = false)
    (hclass : ∀ x ∈ xs, x.classify context.stripDocs ≠ .lineBreak ∧
      x.classify context.stripDocs ≠ .lineComment) :
    ys.any (·.text.spansLines) = xs.any (Trivium.leavesBreak context.stripDocs) := by
  induction h with
  | nil => rfl
  | @keep x xs ys hx _ _ ih =>
    rw [List.any_cons, List.any_cons, ih fun y hy => hclass y (by simp [hy]),
      leavesBreak_of_class ⟨(hclass x (by simp)).2, hx⟩]
  | comment _ _ hn => exact absurd hn (hclass _ (by simp)).1
  | last _ _ hatEnd => simp [hend] at hatEnd
  | @inside blank x xs ys hb hx _ _ ih =>
    have hrest := ih fun y hy => hclass y (by simp [hy])
    have hblank : blank.toList.any (·.text.spansLines) =
        blank.toList.any (Trivium.leavesBreak context.stripDocs) := by
      cases blank with
      | none => rfl
      | some b =>
        have hb' : b.leavesBreak context.stripDocs = b.text.spansLines :=
          leavesBreak_of_class (by simp [hb b rfl])
        simp [hb']
    have hcomment : x.leavesBreak context.stripDocs = x.text.hasReturnOrFeed := by
      simp [Trivium.leavesBreak, Trivium.isRemovable, hx]
    rw [List.any_append, List.any_append, any_isLineBreak_replacementBreak, List.any_append,
      List.any_cons, hrest, hblank, hcomment, Bool.or_left_comm, Bool.or_assoc]

/-! ## Two terminals -/

/-- The line goes on after a trivium that has another one after it. -/
def LinesOn (x _ : Trivium) : Prop :=
  x.kind ≠ .newline

/-- **Of the trivia that trail a token only the last can be a line break.** -/
theorem isChain_linesOn (state : LexState) (t : Text) :
    (readTrivia false state t).trivia.IsChain LinesOn := by
  fun_induction readTrivia false state t with
  | case1 => exact .nil
  | case2 => exact .singleton _
  | case3 state t r h hk more ih =>
    exact List.isChain_cons.mpr ⟨fun _ _ => by simpa [LinesOn] using hk, ih⟩

theorem endsWithBreak_of_mem {xs : Trivia} {n : Trivium} (hchain : xs.IsChain LinesOn) (hn : n ∈ xs)
    (hk : n.kind = .newline) : endsWithBreak xs = true := by
  obtain ⟨before, after, rfl⟩ := List.append_of_mem hn
  cases after with
  | nil => simp [endsWithBreak, hk]
  | cons y rest => exact absurd hk (List.isChain_append_cons_cons.mp hchain).2.1

/-- A line break that ends a span that can be read. -/
theorem Readable.exists_newline {atEnd : Bool} {state : LexState} {xs : Trivia}
    (h : Readable atEnd state xs) (hb : endsWithBreak xs = true) :
    ∃ n ∈ xs, n.kind = .newline ∧ n.text.spansLines = true := by
  obtain ⟨before, n, rfl, hkind⟩ := exists_concat_of_endsWithBreak hb
  obtain ⟨_, _, hn⟩ := h.fits_of_mem (x := n) (by simp)
  refine ⟨n, by simp, hkind, ?_⟩
  rcases hn.text_of_newline hkind with ht | ⟨c, ht, hc⟩
  · rw [ht]
    rfl
  · simp [ht, Text.spansLines, hc]

/-- Where no line ends, nothing goes on to the end of its line. -/
theorem LinesEnd.runsToLineEnd_eq_false {xs : Trivia} (h : LinesEnd false xs)
    (hnone : ∀ x ∈ xs, x.kind ≠ .newline) : ∀ x ∈ xs, x.runsToLineEnd = false := by
  induction xs with
  | nil => simp
  | cons x xs ih =>
    intro y hy
    rcases List.mem_cons.mp hy with rfl | hy
    · refine Bool.eq_false_iff.mpr fun hruns => ?_
      have hends := h.1 hruns
      cases xs with
      | nil => simp [LineEndsAt] at hends
      | cons n rest => exact hnone n (by simp) hends
    · exact ih h.2 (fun z hz => hnone z (List.mem_cons_of_mem _ hz)) y hy

/-- How a terminal stands next to the one before it: nothing leads it unless a line ends before it, and
what trails the one before goes on to the end of a line at most. -/
structure Adjoins (a b : Terminal) : Prop where
  leading : b.leading ≠ [] → endsWithBreak a.trailing = true
  linesOn : a.trailing.IsChain LinesOn
  linesEnd : LinesEnd (trailingAtEnd (some b)) a.trailing
  readable : ∃ state, Readable (trailingAtEnd (some b)) state a.trailing

/-- **The terminals of a text without a fault adjoin each other.** -/
theorem isChain_adjoins {state : LexState} {t : Text} (ha : state.compilation.isActive = true)
    (hclean : ∀ l ∈ lexFrom state t, l.Clean) :
    ((lexFrom state t).map LexedTerminal.terminal).IsChain Adjoins := by
  fun_induction lexFrom state t with
  | case1 => exact .singleton _
  | case2 state t leading token h trailing ih =>
    have hactive : leading.state.afterToken.compilation.isActive = true := isActive_leading ha h
    obtain ⟨hfirst, hrest⟩ := List.forall_mem_cons.mp hclean
    refine List.isChain_cons.mpr ⟨fun b hb => ?_, ih (isActive_trailing hactive _) hrest⟩
    have hatEnd := trailingAtEnd_lexFrom trailing.state trailing.rest
    obtain ⟨l, rest, hl, hleading, _⟩ := lexFrom_head trailing.state trailing.rest
    obtain rfl : l.terminal = b := by simpa [hl] using hb
    rw [hl, List.map_cons, List.head?_cons] at hatEnd
    constructor
    · intro hne
      refine endsWithBreak_trailing (t := token.rest) rfl ?_
      simpa [LexedTerminal.terminal, hleading, ReadTrivia.trivia] using hne
    · exact isChain_linesOn _ _
    · rw [hatEnd]
      exact linesEnd_readTrivia false _ _
    · rw [hatEnd]
      exact ⟨leading.state.afterToken,
        readable_readTrivia (Or.inl hactive) hfirst.trailing (isActive_trailing hactive _)⟩

/-- **The line breaks that are left between two tokens** are those that the trivia between them leave. -/
theorem Adjoins.spansLines {a b : Terminal} (h : Adjoins a b) (hb : b.isEnd = false)
    (stripDocs atEnd : Bool) :
    (Trivia.text (stripSpan (.trailing (trailingAtEnd (some b)) stripDocs) a.trailing ++
        stripSpan (.leading atEnd stripDocs) b.leading)).spansLines =
      (a.trailing ++ b.leading).any (Trivium.leavesBreak stripDocs) := by
  rw [spansLines_text]
  obtain ⟨state, hread⟩ := h.readable
  cases hbreak : endsWithBreak a.trailing with
  | true =>
    -- The line ends before the second token, and this line break stays.
    obtain ⟨n, hn, hkind, hspans⟩ := hread.exists_newline hbreak
    have hstripped : Readable (trailingAtEnd (some b)) state
        (stripSpan (.trailing (trailingAtEnd (some b)) stripDocs) a.trailing) :=
      readable_stripSpan hread
    obtain ⟨m, hm, _, hleft⟩ := hstripped.exists_newline (endsWithBreak_stripSpan rfl hbreak)
    have hn' : n.leavesBreak stripDocs = true := by
      rw [leavesBreak_of_class (by simp [Trivium.classify, hkind]), hspans]
    rw [List.any_eq_true.mpr ⟨m, List.mem_append_left _ hm, hleft⟩,
      List.any_eq_true.mpr ⟨n, List.mem_append_left _ hn, hn'⟩]
  | false =>
    -- Nothing leads the second token, and no line ends but inside a comment.
    have hleading : b.leading = [] := by
      refine Decidable.byContradiction fun hne => ?_
      simp [h.leading hne] at hbreak
    have hatEnd : trailingAtEnd (some b) = false := by simp [trailingAtEnd, hb]
    have hnone : ∀ x ∈ a.trailing, x.kind ≠ .newline := by
      intro x hx hkind
      simp [endsWithBreak_of_mem h.linesOn hx hkind] at hbreak
    have hclass : ∀ x ∈ a.trailing, x.classify stripDocs ≠ .lineBreak ∧
        x.classify stripDocs ≠ .lineComment := by
      intro x hx
      refine ⟨fun hc => hnone x hx (kind_of_lineBreak hc), fun hc => ?_⟩
      have hruns := (hatEnd ▸ h.linesEnd).runsToLineEnd_eq_false hnone x hx
      simp [runsToLineEnd_of_classify hc] at hruns
    rw [hleading, stripSpan_nil, List.append_nil, List.append_nil]
    obtain ⟨middle, hline, hblock⟩ :=
      stripSpan_steps (.trailing (trailingAtEnd (some b)) stripDocs) a.trailing
    obtain rfl := hline.eq_of_forall fun x hx => (hclass x hx).2
    exact hblock.spansLines hatEnd hclass

/-! ## The lines of a file -/

/-- What stands between each two tokens that are neighbours. -/
def gaps : List Terminal → List Trivia
  | a :: b :: rest =>
    (if a.isEnd || b.isEnd then [] else [a.trailing ++ b.leading]) ++ gaps (b :: rest)
  | [_] => []
  | [] => []

/-- The line breaks that are left between the tokens of a list. -/
theorem forall₂_gaps (stripDocs keepFirst : Bool) {terminals : List Terminal}
    (h : terminals.IsChain Adjoins) :
    List.Forall₂ (fun xs ys => (Trivia.text ys).spansLines = xs.any (Trivium.leavesBreak stripDocs))
      (gaps terminals) (gaps (stripTerminals stripDocs keepFirst terminals)) := by
  induction terminals generalizing keepFirst with
  | nil => exact .nil
  | cons a rest ih =>
    cases rest with
    | nil => exact .nil
    | cons b rest =>
      obtain ⟨hab, hrest⟩ := List.isChain_cons_cons.mp h
      have hgap : List.Forall₂
          (fun xs ys => (Trivia.text ys).spansLines = xs.any (Trivium.leavesBreak stripDocs))
          (if a.isEnd || b.isEnd then [] else [a.trailing ++ b.leading])
          (if a.isEnd || b.isEnd then [] else
            [stripSpan (.trailing (trailingAtEnd (some b)) stripDocs) a.trailing ++
              stripSpan (.leading b.isEnd stripDocs) b.leading]) := by
        split
        · exact .nil
        · next hend =>
          have hb : b.isEnd = false := by
            cases hb : b.isEnd <;> simp_all
          exact .cons (hab.spansLines hb stripDocs b.isEnd) .nil
      exact List.rel_append hgap (ih false hrest)

/-- **Lines of code are never split, and merged in one case only.** Between each two tokens that are
neighbours there is a line break after stripping only if there was one before; and then exactly if one
of the trivia that span lines is kept or has a carriage return or a line feed. So where every removed
comment that spans lines has one of these, two tokens are on one line exactly if they were. -/
theorem strip_keeps_lines {settings : Settings} {t : Text} {file : SourceFile}
    (hparse : SourceFile.parse t = .ok file) :
    List.Forall₂ (fun xs ys =>
        ((Trivia.text ys).spansLines = true → (Trivia.text xs).spansLines = true) ∧
        ((Trivia.text ys).spansLines = true ↔ ∃ x ∈ xs, x.text.spansLines = true ∧
          (x.isRemovable settings.stripDocs = true → x.text.hasReturnOrFeed = true)) ∧
        ((∀ x ∈ xs, x.isRemovable settings.stripDocs = true → x.text.spansLines = true →
            x.text.hasReturnOrFeed = true) →
          ((Trivia.text xs).spansLines = true ↔ (Trivia.text ys).spansLines = true)))
      (gaps file.terminals) (gaps (file.strip settings).terminals) := by
  obtain ⟨rfl, hclean, _⟩ := parse_eq_ok_iff.mp hparse
  have hadjoins : ((lex t).map LexedTerminal.terminal).IsChain Adjoins := isChain_adjoins rfl hclean
  refine (forall₂_gaps settings.stripDocs settings.keepHeader hadjoins).imp fun xs ys h => ?_
  have hleft : (Trivia.text ys).spansLines = true ↔ ∃ x ∈ xs, x.text.spansLines = true ∧
      (x.isRemovable settings.stripDocs = true → x.text.hasReturnOrFeed = true) := by
    simp only [h, List.any_eq_true, Trivium.leavesBreak_iff]
  have hbefore : (Trivia.text xs).spansLines = true ↔ ∃ x ∈ xs, x.text.spansLines = true := by
    rw [spansLines_text, List.any_eq_true]
  have hsplit : (Trivia.text ys).spansLines = true → (Trivia.text xs).spansLines = true := by
    rw [hleft, hbefore]
    rintro ⟨x, hx, hspans, _⟩
    exact ⟨x, hx, hspans⟩
  refine ⟨hsplit, hleft, fun hbreaks => ⟨fun hspans => ?_, hsplit⟩⟩
  obtain ⟨x, hx, hspans⟩ := hbefore.mp hspans
  exact hleft.mpr ⟨x, hx, hspans, fun hremovable => hbreaks x hx hremovable hspans⟩

/-- A comment with a line feed between two tokens: both are on lines of their own before and after. -/
theorem strip_keeps_lines_of_feed :
    ([⟨.blockComment, "/*\n*/".toList⟩, ⟨.whitespace, [' ']⟩],
        [⟨.newline, ['\n']⟩, ⟨.whitespace, [' ']⟩]) ∈
        (gaps (SourceFile.ofText "a;/*\n*/ b // c\n;".toList).terminals).zip
          (gaps ((SourceFile.ofText "a;/*\n*/ b // c\n;".toList).strip {}).terminals) ∧
      ((Trivia.text [⟨.blockComment, "/*\n*/".toList⟩, ⟨.whitespace, [' ']⟩]).spansLines = true ↔
        (Trivia.text [⟨.newline, ['\n']⟩, ⟨.whitespace, [' ']⟩]).spansLines = true) := by
  have hparse := parse_of_diagnostics (t := "a;/*\n*/ b // c\n;".toList) (by decide +kernel)
  have hlines := @strip_keeps_lines {} _ _ hparse
  obtain ⟨_, hgaps⟩ := List.forall₂_iff_zip.mp hlines
  refine ⟨by decide +kernel, (hgaps ?_).2.2 (by decide +kernel)⟩
  decide +kernel

/-- **Lines of code can be merged.** A comment with a line separator in it goes without a trace. -/
theorem strip_merges_lines :
    SourceFile.parse "a;/*\u2028*/b".toList = .ok (.ofText "a;/*\u2028*/b".toList) ∧
      (gaps (SourceFile.ofText "a;/*\u2028*/b".toList).terminals).map (Text.spansLines ∘ Trivia.text) =
        [false, true] ∧
      (gaps ((SourceFile.ofText "a;/*\u2028*/b".toList).strip {}).terminals).map
        (Text.spansLines ∘ Trivia.text) = [false, false] :=
  ⟨parse_of_diagnostics (by decide +kernel), by decide +kernel, by decide +kernel⟩

end Uncomment
