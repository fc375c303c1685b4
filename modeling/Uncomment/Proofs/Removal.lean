import Uncomment.Proofs.Reproduction
import Uncomment.Proofs.Pieces
import Uncomment.Proofs.Rules
import Uncomment.Strip.File

/-!
# No comment survives

The line rule removes a comment only if a line break or the end of the file comes next, so whether all
comments go depends on what the lexer gives it. The lexer keeps its side: **what runs to the end of its
line is followed by a line break, or by nothing at the end of the file** (`LinesEnd`), for every text,
faulty or not. With that no comment is left (`isRemovable_stripSpan`), exactly the comments are taken
out (`countP_stripSpan`), and a second pass finds nothing to do.
-/

namespace Uncomment

/-! ## What ends a line -/

/-- Whether the trivium goes on to the end of its line. -/
def Trivium.runsToLineEnd (x : Trivium) : Bool :=
  match x.kind with
  | .lineComment | .docLineComment | .directive => true
  | .whitespace | .newline | .blockComment | .docBlockComment | .disabledText => false

/-- A line break comes next, or nothing at the end of the file. -/
def LineEndsAt (atEnd : Bool) : Trivia → Prop
  | [] => atEnd = true
  | n :: _ => n.kind = .newline

/-- Every trivium that goes on to the end of its line has the end of the line after it. -/
def LinesEnd (atEnd : Bool) : Trivia → Prop
  | [] => True
  | x :: xs => (x.runsToLineEnd = true → LineEndsAt atEnd xs) ∧ LinesEnd atEnd xs

/-- At the end of a line the next piece is the line break. -/
theorem lineEndsAt_readTrivia {leading : Bool} {state : LexState} {t : Text}
    (hs : state.lineStart = false) (ht : ∀ c ∈ t.head?, isLineBreak c = true) :
    LineEndsAt (readTrivia leading state t).rest.isEmpty (readTrivia leading state t).trivia := by
  cases t with
  | nil =>
    rw [readTrivia_of_none rfl]
    rfl
  | cons c rest =>
    have hskip : state.skipsLine leading (c :: rest) = false := by simp [LexState.skipsLine, hs]
    obtain ⟨more, heq⟩ := trivia_of_reading (.newline hskip (ht c rfl))
    rw [heq]
    rfl

theorem Reading.lineEnds {leading : Bool} {state : LexState} {t : Text} {r : ReadTrivium}
    (h : Reading leading state t r) (hr : r.item.item.runsToLineEnd = true) :
    r.state.lineStart = false ∧ ∀ c ∈ r.rest.head?, isLineBreak c = true := by
  cases h with
  | disabled => simp [ReadTrivium.plain, Trivium.runsToLineEnd] at hr
  | newline => simp [ReadTrivium.plain, Trivium.runsToLineEnd] at hr
  | blank => simp [ReadTrivium.plain, Trivium.runsToLineEnd] at hr
  | line => exact ⟨rfl, isLineBreak_head_afterLine _⟩
  | @block rest =>
    rcases blockCommentKind_eq_or ('/' :: '*' :: rest) with hk | hk <;>
      simp [ReadTrivium.block, Trivium.runsToLineEnd, hk] at hr
  | directive => exact ⟨rfl, isLineBreak_head_afterLine _⟩

/-- **The lexer gives every line its end.** -/
theorem linesEnd_readTrivia (leading : Bool) (state : LexState) (t : Text) :
    LinesEnd (readTrivia leading state t).rest.isEmpty (readTrivia leading state t).trivia := by
  fun_induction readTrivia leading state t with
  | case1 => exact trivial
  | case2 state t r h hk =>
    have hnewline : r.item.item.kind = .newline := by
      simp only [Bool.and_eq_true, beq_iff_eq] at hk
      exact hk.2
    exact ⟨by simp [Trivium.runsToLineEnd, hnewline], trivial⟩
  | case3 state t r h hk more ih =>
    refine ⟨fun hr => ?_, ih⟩
    obtain ⟨hs, hhead⟩ := (reading_of_readTrivium h).lineEnds hr
    exact lineEndsAt_readTrivia hs hhead

/-! ## The spans of a file -/

/-- Every line ends, in every span of the terminals. -/
def SpansEnd : List Terminal → Prop
  | [] => True
  | t :: rest =>
    LinesEnd t.isEnd t.leading ∧ LinesEnd (trailingAtEnd rest.head?) t.trailing ∧ SpansEnd rest

/-- The trailing trivia of a terminal are at the end where the text is. -/
theorem trailingAtEnd_lexFrom (state : LexState) (t : Text) :
    trailingAtEnd ((lexFrom state t).map LexedTerminal.terminal).head? = t.isEmpty := by
  rw [lexFrom]
  split
  · next hnone =>
    have hcat := append_readTrivia true state t
    rw [readToken_eq_none_iff.mp hnone, List.append_nil] at hcat
    cases t with
    | nil => rw [readTrivia_of_none rfl]; rfl
    | cons c rest =>
      have hne : (readTrivia true state (c :: rest)).items ≠ [] := by
        intro hnil
        rw [hnil] at hcat
        simp [notedText] at hcat
      simp [trailingAtEnd, LexedTerminal.atEnd, LexedTerminal.terminal, hne]
  · next token hsome =>
    have hne : t ≠ [] := by
      rintro rfl
      rw [readTrivia_of_none rfl] at hsome
      exact ne_nil_of_readToken hsome rfl
    have hend : (token.kind == .endOfFile) = false := by simpa using kind_readToken hsome
    have hempty : t.isEmpty = false := by simpa using hne
    simp [trailingAtEnd, LexedTerminal.terminal, Terminal.isEnd, hend, hempty]

theorem spansEnd_lexFrom (state : LexState) (t : Text) :
    SpansEnd ((lexFrom state t).map LexedTerminal.terminal) := by
  fun_induction lexFrom state t with
  | case1 state t leading h =>
    have hleading := linesEnd_readTrivia true state t
    rw [readToken_eq_none_iff.mp h] at hleading
    exact ⟨hleading, trivial, trivial⟩
  | case2 state t leading token h trailing ih =>
    have hne : leading.rest ≠ [] := ne_nil_of_readToken h
    have hend : (token.kind == .endOfFile) = leading.rest.isEmpty := by
      rw [show leading.rest.isEmpty = false by simpa using hne]
      simpa using kind_readToken h
    refine ⟨?_, ?_, ih⟩
    · show LinesEnd (token.kind == .endOfFile) leading.trivia
      rw [hend]
      exact linesEnd_readTrivia true state t
    · rw [trailingAtEnd_lexFrom]
      exact linesEnd_readTrivia false _ _

/-! ## No comment is left -/

variable {context : SpanContext}

theorem LineEndsAt.nextClass {next : Trivia} (h : LineEndsAt context.atEnd next) :
    context.nextClass next = some .lineBreak ∨ context.nextClass next = some .endOfInput := by
  cases next with
  | nil => exact Or.inr (by simpa [SpanContext.nextClass, LineEndsAt] using h)
  | cons n rest =>
    have hkind : n.kind = .newline := h
    exact Or.inl (by simp [SpanContext.nextClass, Trivium.classify, hkind])

theorem runsToLineEnd_of_classify {stripDocs : Bool} {x : Trivium}
    (h : x.classify stripDocs = .lineComment) : x.runsToLineEnd = true := by
  unfold Trivium.classify at h
  unfold Trivium.runsToLineEnd
  cases hkind : x.kind <;> cases stripDocs <;> simp [hkind] at h ⊢

theorem LineStripped.no_lineComment {xs ys : Trivia} (h : LineStripped context xs ys)
    (hends : LinesEnd context.atEnd xs) :
    ∀ y ∈ ys, y.classify context.stripDocs ≠ .lineComment := by
  induction h with
  | nil => simp
  | keep hblank hcomment h ih =>
    intro y hy
    rcases List.mem_cons.mp hy with rfl | hy
    · -- A line comment stays only if its line does not end after it, but every line ends.
      intro hline
      obtain ⟨hbreak, hend⟩ := hcomment hline
      rcases (hends.1 (runsToLineEnd_of_classify hline)).nextClass with hn | hn
      · exact hbreak hn
      · exact hend hn
    · exact ih hends.2 y hy
  | blank hb hn h ih => exact ih hends.2
  | comment hx hn h ih =>
    intro y hy
    rcases List.mem_append.mp hy with hy | hy
    · rw [mem_breakAfter hy, hn]
      simp
    · exact ih hends.2.2 y hy
  | last => simp

theorem BlockStripped.no_blockComment {xs ys : Trivia} (h : BlockStripped context xs ys) :
    ∀ y ∈ ys, y.classify context.stripDocs ≠ .blockComment := by
  induction h with
  | nil => simp
  | keep hx hblank h ih =>
    intro y hy
    rcases List.mem_cons.mp hy with rfl | hy
    · exact hx
    · exact ih y hy
  | comment hb hx hn h ih =>
    intro y hy
    rcases List.mem_append.mp hy with hy | hy
    · rw [mem_breakAfter hy, hn]
      simp
    · exact ih y hy
  | last => simp
  | inside hb hx hn h ih =>
    intro y hy
    rcases List.mem_append.mp hy with hy | hy
    · rcases List.mem_append.mp hy with hy | hy
      · have hkind := kind_replacementBreak (Option.mem_toList.mp hy)
        simp [Trivium.classify, hkind]
      · rw [hb y (Option.mem_toList.mp hy)]
        simp
    · exact ih y hy

/-- **No comment is left in a stripped span.** -/
theorem isRemovable_stripSpan (context : SpanContext) {xs : Trivia}
    (hends : LinesEnd context.atEnd xs) :
    ∀ y ∈ stripSpan context xs, y.isRemovable context.stripDocs = false := by
  intro y hy
  obtain ⟨middle, hline, hblock⟩ := stripSpan_steps context xs
  rw [isRemovable_eq_false_iff]
  refine ⟨?_, hblock.no_blockComment y hy⟩
  rcases hblock.mem hy with hmem | hkind
  · exact hline.no_lineComment hends y hmem
  · simp [Trivium.classify, hkind]

/-! ## How many comments go -/

/-- Whether a trivium is a comment that is kept. -/
def Trivium.isKeptComment (stripDocs : Bool) (x : Trivium) : Bool :=
  x.kind.isComment && !x.isRemovable stripDocs

theorem onlyOther_isKeptComment : OnlyOther context (Trivium.isKeptComment context.stripDocs) := by
  intro x hx
  simp only [Trivium.isKeptComment, Trivium.isRemovable, Trivium.classify] at hx ⊢
  cases hkind : x.kind <;> cases hdocs : context.stripDocs <;>
    simp [hkind, hdocs, TriviumKind.isComment] at hx ⊢

theorem isComment_of_isRemovable {stripDocs : Bool} {x : Trivium}
    (h : x.isRemovable stripDocs = true) : x.kind.isComment = true := by
  simp only [Trivium.isRemovable, Trivium.classify] at h
  cases hkind : x.kind <;> cases stripDocs <;> simp [hkind, TriviumKind.isComment] at h ⊢

/-- A comment is removed or kept. -/
theorem countP_isComment (stripDocs : Bool) (xs : Trivia) :
    xs.countP (·.kind.isComment) =
      xs.countP (Trivium.isRemovable stripDocs) +
        (xs.filter (Trivium.isKeptComment stripDocs)).length := by
  induction xs with
  | nil => rfl
  | cons x xs ih =>
    rw [List.countP_cons, List.countP_cons, List.filter_cons, ih]
    cases hr : x.isRemovable stripDocs with
    | true =>
      have hc := isComment_of_isRemovable hr
      simp only [hc, Trivium.isKeptComment, hr, Bool.not_true, Bool.and_false, Bool.false_eq_true,
        if_true, if_false]
      omega
    | false =>
      cases hc : x.kind.isComment with
      | true => simp [Trivium.isKeptComment, hr, hc]; omega
      | false => simp [Trivium.isKeptComment, hr, hc]

/-- **The comments that a stripped span lacks are those to remove.** -/
theorem countP_stripSpan (context : SpanContext) {xs : Trivia}
    (hends : LinesEnd context.atEnd xs) :
    (stripSpan context xs).countP (·.kind.isComment) +
        xs.countP (Trivium.isRemovable context.stripDocs) =
      xs.countP (·.kind.isComment) := by
  have hnone : (stripSpan context xs).countP (Trivium.isRemovable context.stripDocs) = 0 := by
    rw [List.countP_eq_zero]
    intro y hy
    simp [isRemovable_stripSpan context hends y hy]
  rw [countP_isComment context.stripDocs (stripSpan context xs), hnone,
    filter_stripSpan onlyOther_isKeptComment, countP_isComment context.stripDocs xs]
  omega

/-! ## Files -/

/-- The trivia of terminals, without the leading trivia of the first one if these are kept. -/
def bodyTrivia (keepFirst : Bool) : List Terminal → Trivia
  | [] => []
  | t :: rest => (if keepFirst then [] else t.leading) ++ t.trailing ++ bodyTrivia false rest

/-- The trivia of a file, without those before the first token if these are kept. -/
def SourceFile.bodyTrivia (keepHeader : Bool) (file : SourceFile) : Trivia :=
  Uncomment.bodyTrivia keepHeader file.terminals

theorem isRemovable_stripTerminals (stripDocs : Bool) (terminals : List Terminal)
    (keepFirst : Bool) (hends : SpansEnd terminals) :
    ∀ x ∈ bodyTrivia keepFirst (stripTerminals stripDocs keepFirst terminals),
      x.isRemovable stripDocs = false := by
  induction terminals generalizing keepFirst with
  | nil => simp [stripTerminals, bodyTrivia]
  | cons t rest ih =>
    obtain ⟨hleading, htrailing, hrest⟩ := hends
    intro x hx
    simp only [stripTerminals, bodyTrivia, stripTerminal, List.mem_append] at hx
    rcases hx with (hx | hx) | hx
    · cases keepFirst with
      | true => simp at hx
      | false => exact isRemovable_stripSpan (.leading t.isEnd stripDocs) hleading x hx
    · exact isRemovable_stripSpan (.trailing (trailingAtEnd rest.head?) stripDocs) htrailing x hx
    · exact ih false hrest x hx

theorem eq_of_trivia_stripTerminal {stripDocs keepLeading atEnd : Bool} {t : Terminal}
    (hleading : (stripTerminal stripDocs keepLeading atEnd t).leading = t.leading)
    (htrailing : (stripTerminal stripDocs keepLeading atEnd t).trailing = t.trailing) :
    stripTerminal stripDocs keepLeading atEnd t = t := by
  simp only [stripTerminal] at hleading htrailing ⊢
  rw [hleading, htrailing]

/-- Terminals without comments to remove are left as they are. -/
theorem stripTerminals_of_forall (stripDocs : Bool) (terminals : List Terminal) (keepFirst : Bool)
    (h : ∀ x ∈ bodyTrivia keepFirst terminals, x.isRemovable stripDocs = false) :
    stripTerminals stripDocs keepFirst terminals = terminals := by
  induction terminals generalizing keepFirst with
  | nil => rfl
  | cons t rest ih =>
    simp only [bodyTrivia, List.mem_append] at h
    have hleading : (stripTerminal stripDocs keepFirst (trailingAtEnd rest.head?) t).leading =
        t.leading := by
      cases keepFirst with
      | true => rfl
      | false =>
        exact stripSpan_of_forall (.leading t.isEnd stripDocs)
          fun x hx => h x (Or.inl (Or.inl hx))
    have htrailing : (stripTerminal stripDocs keepFirst (trailingAtEnd rest.head?) t).trailing =
        t.trailing :=
      stripSpan_of_forall (.trailing (trailingAtEnd rest.head?) stripDocs)
        fun x hx => h x (Or.inl (Or.inr hx))
    rw [stripTerminals, ih false fun x hx => h x (Or.inr hx),
      eq_of_trivia_stripTerminal hleading htrailing]

theorem countP_stripTerminals (stripDocs : Bool) (terminals : List Terminal) (keepFirst : Bool)
    (hends : SpansEnd terminals) :
    ((stripTerminals stripDocs keepFirst terminals).flatMap Terminal.trivia).countP
          (·.kind.isComment) +
        (bodyTrivia keepFirst terminals).countP (Trivium.isRemovable stripDocs) =
      (terminals.flatMap Terminal.trivia).countP (·.kind.isComment) := by
  induction terminals generalizing keepFirst with
  | nil => rfl
  | cons t rest ih =>
    obtain ⟨hleading, htrailing, hrest⟩ := hends
    have hrest' := ih false hrest
    have htrailing' := countP_stripSpan (.trailing (trailingAtEnd rest.head?) stripDocs) htrailing
    have hleading' := countP_stripSpan (.leading t.isEnd stripDocs) hleading
    simp only [SpanContext.leading, SpanContext.trailing] at hleading' htrailing'
    simp only [stripTerminals, bodyTrivia, stripTerminal, List.flatMap_cons, Terminal.trivia,
      List.countP_append, SpanContext.leading, SpanContext.trailing]
    cases keepFirst with
    | true =>
      simp only [if_true, List.countP_nil]
      omega
    | false =>
      simp only [Bool.false_eq_true, if_false]
      omega

/-- Two files with the same terminals are the same. -/
theorem SourceFile.eq_of_terminals {a b : SourceFile} (h : a.terminals = b.terminals) : a = b := by
  cases a
  cases b
  simpa using h

/-- **No comment survives.** For every text and all settings, no trivium of the stripped file is a
comment to remove, except in a header that is kept; the comments that are gone are exactly those that
were to be removed outside of it; and stripping the stripped file changes nothing. -/
theorem strip_leaves_no_comment (t : Text) (settings : Settings) :
    (∀ x ∈ ((SourceFile.ofText t).strip settings).bodyTrivia settings.keepHeader,
      x.classify settings.stripDocs ≠ .lineComment ∧
        x.classify settings.stripDocs ≠ .blockComment) ∧
    ((SourceFile.ofText t).strip settings).commentCount ≤ (SourceFile.ofText t).commentCount ∧
    (SourceFile.ofText t).commentCount - ((SourceFile.ofText t).strip settings).commentCount =
      ((SourceFile.ofText t).bodyTrivia settings.keepHeader).countP
        (Trivium.isRemovable settings.stripDocs) ∧
    ((SourceFile.ofText t).strip settings).strip settings = (SourceFile.ofText t).strip settings := by
  have hends := spansEnd_lexFrom .initial t
  have hnone := isRemovable_stripTerminals settings.stripDocs _ settings.keepHeader hends
  have hcount : ((SourceFile.ofText t).strip settings).commentCount +
      ((SourceFile.ofText t).bodyTrivia settings.keepHeader).countP
        (Trivium.isRemovable settings.stripDocs) = (SourceFile.ofText t).commentCount :=
    countP_stripTerminals settings.stripDocs _ settings.keepHeader hends
  refine ⟨fun x hx => isRemovable_eq_false_iff.mp (hnone x hx), by omega, by omega, ?_⟩
  exact SourceFile.eq_of_terminals (stripTerminals_of_forall _ _ _ hnone)

end Uncomment
