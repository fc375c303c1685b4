import Uncomment.Proofs.SameCode

/-!
# The line before a directive

A directive is one only where nothing but white space stands before it on its line. What a trivium does to
the line it ends on is the same for the text as for the lexer (`Trivium.Fits.endsBlank_append`), so the
text before a directive can be followed piece by piece, through the trivia of a span and from terminal to
terminal (`LaidOut`).

Stripping can spoil a directive in one way only: a documentation comment that is kept stands before it on
its line. In the text that was stripped a line ended between the two, after a comment that was removed,
and the end of the line went with that comment.
-/

namespace Uncomment

/-! ## The last line of a text -/

/-- What stands after the last line break of a text. -/
def Text.lastLine (t : Text) : Text :=
  (Text.currentLine t.reverse).reverse

/-- Whether only white space stands on the last line of a text. -/
def Text.endsBlank (t : Text) : Bool :=
  t.lastLine.all isBlank

theorem Text.endsBlank_concat (t : Text) (c : Char) :
    Text.endsBlank (t ++ [c]) = (isLineBreak c || t.endsBlank && isBlank c) := by
  cases hc : isLineBreak c <;> simp [endsBlank, lastLine, currentLine, hc]

theorem Text.endsBlank_append (t : Text) {line : Text} (h : ∀ c ∈ line, isLineBreak c = false) :
    Text.endsBlank (t ++ line) = (t.endsBlank && line.all isBlank) := by
  induction line generalizing t with
  | nil => simp
  | cons c rest ih =>
    obtain ⟨hc, hrest⟩ := List.forall_mem_cons.mp h
    rw [List.append_cons, ih _ hrest, endsBlank_concat, hc, List.all_cons, Bool.false_or,
      Bool.and_assoc]

/-- A text that ends with a line break. -/
def EndsLine (t : Text) : Prop :=
  ∃ before c, t = before ++ [c] ∧ isLineBreak c = true

theorem EndsLine.append {t : Text} (h : EndsLine t) (before : Text) : EndsLine (before ++ t) := by
  obtain ⟨init, c, rfl, hc⟩ := h
  exact ⟨before ++ init, c, by simp, hc⟩

theorem EndsLine.endsBlank {t : Text} (h : EndsLine t) : t.endsBlank = true := by
  obtain ⟨init, c, rfl, hc⟩ := h
  simp [Text.endsBlank_concat, hc]

theorem IsLineBreakText.endsLine {t : Text} (h : IsLineBreakText t) : EndsLine t := by
  rcases h with rfl | ⟨c, rfl, hc⟩
  · exact ⟨['\r'], '\n', rfl, rfl⟩
  · exact ⟨[], c, rfl, hc⟩

/-- Lines that are not compiled, up to a directive, end with a line break. -/
theorem endsLine_disabledLines {t : Text} (h : (disabledLines t).2 ≠ []) :
    EndsLine (disabledLines t).1 := by
  fun_induction disabledLines t with
  | case1 t line ending taken =>
    have hne : t.afterLine ≠ [] := by
      intro hnil
      simp [ending, hnil, lineBreak, Reader.count] at h
    obtain ⟨c, rest, hafter⟩ := List.exists_cons_of_ne_nil hne
    have hc : isLineBreak c = true := isLineBreak_head_afterLine t c (by rw [hafter]; rfl)
    have hending : IsLineBreakText ending.1 := by
      simp only [ending, hafter]
      exact (isLineBreakText_lineBreak hc rest).1
    exact hending.endsLine.append line
  | case2 t line ending taken hmore lines rest heq ih =>
    rw [heq] at ih
    exact (ih h).append taken

/-- A closed comment ends with a slash. -/
theorem blockBody_taken_concat {t : Text} (h : (blockBody t).closed = true) :
    ∃ body, (blockBody t).taken = body ++ ['/'] := by
  induction t with
  | nil => simp [blockBody, Scan.stop] at h
  | cons c rest ih =>
    unfold blockBody at h ⊢
    split
    · exact ⟨['*'], rfl⟩
    · next hc =>
      rw [if_neg hc] at h
      obtain ⟨body, hbody⟩ := ih h
      exact ⟨c :: body, by simp [hbody]⟩

theorem lineStartAfter_of_isComment {x : Trivium} (h : x.kind.isComment = true) (lineStart : Bool) :
    x.lineStartAfter lineStart = false := by
  unfold Trivium.lineStartAfter
  cases hkind : x.kind <;> simp [hkind, TriviumKind.isComment] at h ⊢

theorem runsToLineEnd_blockCommentKind (t text : Text) :
    Trivium.runsToLineEnd ⟨blockCommentKind t, text⟩ = false := by
  unfold blockCommentKind
  split <;> rfl

namespace Trivium.Fits

variable {atEnd : Bool} {state : LexState} {next : Trivia} {x : Trivium}

/-- **What a trivium does to the line it ends on.** -/
theorem endsBlank_append (h : x.Fits atEnd state next) (before : Text) :
    Text.endsBlank (before ++ x.text) = x.lineStartAfter before.endsBlank := by
  cases h with
  | blank hne hb =>
    have hall : List.all _ isBlank = true := List.all_eq_true.mpr fun c hc => (hb c hc).1
    rw [Text.endsBlank_append _ fun c hc => (hb c hc).2, hall, Bool.and_true]
    rfl
  | newline ht | disabledNewline ht => exact (ht.endsLine.append before).endsBlank
  | @line rest hline =>
    rw [lineStartAfter_of_isComment (by simp), Text.endsBlank_append]
    · simp [isBlank]
    · simpa [isLineBreak] using hline
  | @block rest hclosed =>
    -- Whatever lines the comment spans, a slash is the last of it.
    have hbody : (blockBody rest).closed = true := congrArg Scan.closed hclosed
    have htaken : '/' :: '*' :: (blockBody rest).taken = '/' :: '*' :: rest :=
      congrArg Scan.taken hclosed
    obtain ⟨body, heq⟩ := blockBody_taken_concat hbody
    have htext : before ++ '/' :: '*' :: rest = before ++ '/' :: '*' :: body ++ ['/'] := by
      rw [← htaken, heq]
      simp
    rw [lineStartAfter_of_isComment (by simp), htext, Text.endsBlank_concat]
    simp [isBlank, isLineBreak]
  | @directive rest hline =>
    rw [Text.endsBlank_append]
    · simp [isBlank, Trivium.lineStartAfter]
    · simpa [isLineBreak] using hline
  | @disabled text f hne hoff hs hf hlines =>
    -- Skipped lines are whole lines: a directive comes next, at the start of a line of its own.
    obtain ⟨c, rest, hcons, _⟩ := cons_of_startsWithConditional hf
    have hends : EndsLine text := by
      have hlast := endsLine_disabledLines (t := text ++ f) (by rw [hlines, hcons]; simp)
      rwa [hlines] at hlast
    exact (hends.append before).endsBlank

/-- What goes on to the end of its line has the end of the line after it. -/
theorem lineEndsAt (h : x.Fits atEnd state next) (hx : x.runsToLineEnd = true) :
    LineEndsAt atEnd next := by
  cases h with
  | line _ _ hends => exact hends
  | directive _ _ _ hends => exact hends
  | block => simp [runsToLineEnd_blockCommentKind] at hx
  | blank | newline | disabledNewline | disabled => simp [Trivium.runsToLineEnd] at hx

end Trivium.Fits

/-- After a span that ends with a line break only white space stands on the line. -/
theorem Readable.endsBlank {atEnd : Bool} {state : LexState} {xs : Trivia}
    (h : Readable atEnd state xs) (hb : endsWithBreak xs = true) (before : Text) :
    Text.endsBlank (before ++ Trivia.text xs) = true := by
  obtain ⟨init, n, rfl, hkind⟩ := exists_concat_of_endsWithBreak hb
  obtain ⟨state, next, hn⟩ := h.fits_of_mem (x := n) (by simp)
  have hlast := hn.endsBlank_append (before ++ Trivia.text init)
  simpa [Trivium.lineStartAfter, hkind] using hlast

/-! ## Trivia with the text before them -/

/-- Each trivium of a span with all of the text before it. -/
def Trivia.placed (before : Text) : Trivia → List (Text × Trivium)
  | [] => []
  | x :: xs => (before, x) :: placed (before ++ x.text) xs

/-- Each trivium of the terminals with all of the text before it. -/
def placedFrom (before : Text) : List Terminal → List (Text × Trivium)
  | [] => []
  | a :: rest =>
    Trivia.placed before a.leading ++
      Trivia.placed (before ++ Trivia.text a.leading ++ a.text) a.trailing ++
      placedFrom (before ++ a.fullText) rest

/-- Each trivium of a file with all of the text before it. -/
def SourceFile.placedTrivia (file : SourceFile) : List (Text × Trivium) :=
  placedFrom [] file.terminals

theorem map_snd_placed (before : Text) (xs : Trivia) : (Trivia.placed before xs).map Prod.snd = xs := by
  induction xs generalizing before with
  | nil => rfl
  | cons x rest ih => simp [Trivia.placed, ih]

theorem mem_of_mem_placed {before : Text} {xs : Trivia} {p : Text × Trivium}
    (h : p ∈ Trivia.placed before xs) : p.2 ∈ xs := by
  rw [← map_snd_placed before xs]
  exact List.mem_map_of_mem h

theorem map_snd_placedFrom (before : Text) (terminals : List Terminal) :
    (placedFrom before terminals).map Prod.snd = terminals.flatMap Terminal.trivia := by
  induction terminals generalizing before with
  | nil => rfl
  | cons a rest ih => simp [placedFrom, map_snd_placed, ih, Terminal.trivia]

/-- What was placed is a part of the text. -/
theorem isPrefix_placed {before : Text} {xs : Trivia} {p : Text × Trivium}
    (h : p ∈ Trivia.placed before xs) : p.1 ++ p.2.text <+: before ++ Trivia.text xs := by
  induction xs generalizing before with
  | nil => simp [Trivia.placed] at h
  | cons x rest ih =>
    rw [Trivia.text_cons, ← List.append_assoc]
    rcases List.mem_cons.mp h with rfl | h
    · exact List.prefix_append _ _
    · exact ih h

theorem isPrefix_placedFrom {before : Text} {terminals : List Terminal} {p : Text × Trivium}
    (h : p ∈ placedFrom before terminals) : p.1 ++ p.2.text <+: before ++ textOf terminals := by
  induction terminals generalizing before with
  | nil => simp [placedFrom] at h
  | cons a rest ih =>
    have htext : before ++ textOf (a :: rest) = before ++ Trivia.text a.leading ++
        (a.text ++ (Trivia.text a.trailing ++ textOf rest)) := by
      simp [Terminal.fullText]
    rw [placedFrom, List.mem_append, List.mem_append] at h
    rcases h with (h | h) | h
    · rw [htext]
      exact (isPrefix_placed h).trans (List.prefix_append _ _)
    · rw [htext, ← List.append_assoc, ← List.append_assoc]
      exact (isPrefix_placed h).trans (List.prefix_append _ _)
    · rw [textOf_cons, ← List.append_assoc]
      exact ih h

/-- A trivium ends on the last line of a text. -/
def EndsOnLastLine (q : Text × Trivium) (t : Text) : Prop :=
  ∃ between, t = q.1 ++ q.2.text ++ between ∧ ∀ c ∈ between, isLineBreak c = false

/-! ## The directives of a span -/

section

variable {atEnd : Bool} {state : LexState} {xs : Trivia} {before : Text} {p : Text × Trivium}

/-- A directive that is first on its line in the sense of the lexer has only white space before it. -/
theorem Readable.endsBlank_of_directivesFirst {lineStart : Bool} (h : Readable atEnd state xs)
    (hfirst : directivesFirst lineStart xs = true)
    (hstart : xs ≠ [] → before.endsBlank = lineStart) (hp : p ∈ Trivia.placed before xs)
    (hk : p.2.kind = .directive) : p.1.endsBlank = true := by
  induction xs generalizing state before lineStart with
  | nil => simp [Trivia.placed] at hp
  | cons x rest ih =>
    obtain rfl := hstart (by simp)
    simp only [directivesFirst, Bool.and_eq_true, Bool.or_eq_true, bne_iff_ne] at hfirst
    rcases List.mem_cons.mp hp with rfl | hp
    · exact hfirst.1.resolve_left fun hne => hne hk
    · exact ih h.2 hfirst.2 (fun _ => h.1.endsBlank_append before) hp

/-- How the line before the next trivium looks: it is blank, a documentation comment stands on it, or it
ends right away. -/
inductive LineSoFar (Q : Text × Trivium → Prop) (atEnd : Bool) (before : Text) (next : Trivia) : Prop
  | blank (h : before.endsBlank = true)
  | behind {q : Text × Trivium} (hq : Q q) (h : EndsOnLastLine q before)
  | ends (h : LineEndsAt atEnd next)

/-- One trivium further on. -/
theorem LineSoFar.step {Q : Text × Trivium → Prop} {x : Trivium} {rest : Trivia}
    (h : LineSoFar Q atEnd before (x :: rest)) (hx : x.Fits atEnd state rest)
    (hblock : x.kind ≠ .blockComment) (hdoc : x.kind = .docBlockComment → Q (before, x)) :
    LineSoFar Q atEnd (before ++ x.text) rest := by
  have hline := hx.endsBlank_append before
  cases hkind : x.kind with
  | whitespace =>
    rcases h with hb | ⟨hq, between, hbefore, hbetween⟩ | hends
    · exact .blank (by rw [hline, Trivium.lineStartAfter, hkind]; exact hb)
    · refine .behind hq ⟨between ++ x.text, by rw [hbefore]; simp, fun c hc => ?_⟩
      rcases List.mem_append.mp hc with hc | hc
      · exact hbetween c hc
      · exact (hx.text_of_blank hkind c hc).2
    · -- No blanks can follow what runs to the end of its line.
      have hnewline : x.kind = .newline := hends
      simp [hkind] at hnewline
  | newline | disabledText => exact .blank (by rw [hline, Trivium.lineStartAfter, hkind])
  | lineComment | docLineComment | directive =>
    exact .ends (hx.lineEndsAt (by simp [Trivium.runsToLineEnd, hkind]))
  | blockComment => exact absurd hkind hblock
  | docBlockComment => exact .behind (hdoc hkind) ⟨[], by simp, by simp⟩

/-- A directive of a span has only white space or a documentation comment before it on its line. -/
theorem Readable.endsBlank_or_behind {Q : Text × Trivium → Prop} (h : Readable atEnd state xs)
    (hline : LineSoFar Q atEnd before xs) (hblock : ∀ x ∈ xs, x.kind ≠ .blockComment)
    (hdoc : ∀ q ∈ Trivia.placed before xs, q.2.kind = .docBlockComment → Q q)
    (hp : p ∈ Trivia.placed before xs) (hk : p.2.kind = .directive) :
    p.1.endsBlank = true ∨ ∃ q, Q q ∧ EndsOnLastLine q p.1 := by
  induction xs generalizing state before with
  | nil => simp [Trivia.placed] at hp
  | cons x rest ih =>
    rcases List.mem_cons.mp hp with rfl | hp
    · rcases hline with hb | ⟨hq, hbehind⟩ | hends
      · exact Or.inl hb
      · exact Or.inr ⟨_, hq, hbehind⟩
      · -- Where the line ends, a line break comes next and not the directive.
        have hnewline : x.kind = .newline := hends
        simp [hnewline] at hk
    · refine ih h.2 (hline.step h.1 (hblock x (by simp)) ?_) ?_ ?_ hp
      · exact hdoc (before, x) List.mem_cons_self
      · exact fun y hy => hblock y (List.mem_cons_of_mem _ hy)
      · exact fun q hq => hdoc q (List.mem_cons_of_mem _ hq)

end

/-! ## Stripped terminals -/

/-- How the trivia of a stripped terminal are laid out: they can be read again, the directives among them
stand before the token, and each of these is first on its line unless documentation is kept and no other
comment with an end of its own is left. -/
structure Laid (stripDocs : Bool) (a : Terminal) : Prop where
  leading : ∃ atEnd state, Readable atEnd state a.leading
  trailing : ∃ atEnd state, Readable atEnd state a.trailing
  tokenLine : OnTokenLine a.trailing
  directives : directivesFirst true a.leading = true ∨
    stripDocs = false ∧ ∀ x ∈ a.leading, x.kind ≠ .blockComment

/-- Terminals that are laid out, with the end of a line before each one that trivia lead. -/
def LaidOut (stripDocs : Bool) : List Terminal → Prop
  | [] => True
  | a :: rest =>
    Laid stripDocs a ∧ (∀ b ∈ rest.head?, b.leading ≠ [] → endsWithBreak a.trailing = true) ∧
      LaidOut stripDocs rest

theorem directives_strippedLeading {stripDocs keep : Bool} {state : LexState} {t : Text}
    (ha : state.compilation.isActive = true)
    (hclean : ∀ x ∈ (readTrivia true state t).items, x.fault = none)
    (hactive : (readTrivia true state t).state.compilation.isActive = true)
    (hkeep : keep = true → state.lineStart = true) {xs : Trivia}
    (hxs : xs = strippedLeading stripDocs keep (readTrivia true state t).rest.isEmpty
      (readTrivia true state t).trivia) :
    directivesFirst true xs = true ∨ stripDocs = false ∧ ∀ x ∈ xs, x.kind ≠ .blockComment := by
  subst hxs
  cases stripDocs with
  | true => exact Or.inl (directivesFirst_strippedLeading ha hclean hactive hkeep)
  | false =>
    cases keep with
    | true =>
      have hfirst := directivesFirst_readTrivia state t
      rw [hkeep rfl] at hfirst
      exact Or.inl hfirst
    | false =>
      refine Or.inr ⟨rfl, fun x hx hkind => ?_⟩
      have hleft := isRemovable_stripSpan (.leading _ false) (linesEnd_readTrivia true state t) x hx
      simp [Trivium.isRemovable, Trivium.classify, hkind] at hleft

theorem leading_of_mem_head? {stripDocs keepFirst : Bool} {state : LexState} {t : Text}
    {a : Terminal} (h : a ∈ (strippedFrom stripDocs keepFirst state t).head?) :
    a.leading = strippedLeading stripDocs keepFirst (readTrivia true state t).rest.isEmpty
      (readTrivia true state t).trivia := by
  cases htoken : readToken (readTrivia true state t).rest with
  | none =>
    rw [strippedFrom_of_end (readToken_eq_none_iff.mp htoken)] at h
    obtain rfl := Option.mem_some_iff.mp h
    rfl
  | some token =>
    rw [strippedFrom_of_token htoken rfl] at h
    obtain rfl := Option.mem_some_iff.mp h
    rfl

/-- **The stripped terminals of a text without a fault are laid out.** -/
theorem laidOut_strippedFrom {stripDocs keepFirst : Bool} {state : LexState} {t : Text}
    (ha : state.compilation.isActive = true) (hclean : ∀ l ∈ lexFrom state t, l.Clean)
    (hkeep : keepFirst = true → state.lineStart = true) :
    LaidOut stripDocs (strippedFrom stripDocs keepFirst state t) := by
  induction state, t using lexFrom.induct generalizing keepFirst with
  | case1 state t leading =>
    rename_i hnone
    have hend : (readTrivia true state t).rest = [] := readToken_eq_none_iff.mp hnone
    rw [lexFrom_of_end hend] at hclean
    have hlast := hclean _ (List.mem_singleton.mpr rfl)
    have hactive := isActive_of_not_inGroup (inGroup_of_clean hlast)
    have hleading := readable_readTrivia (Or.inl ha) hlast.leading hactive
    rw [strippedFrom_of_end hend]
    refine ⟨⟨⟨_, state, readable_strippedLeading hleading⟩, ⟨true, .initial, rfl⟩,
      by simp [OnTokenLine], ?_⟩, by simp, trivial⟩
    exact directives_strippedLeading ha hlast.leading hactive hkeep rfl
  | case2 state t leading token htoken =>
    rename_i trailing ih
    rw [lexFrom_of_token htoken] at hclean
    obtain ⟨hfirst, hrest⟩ := List.forall_mem_cons.mp hclean
    have hactive : leading.state.afterToken.compilation.isActive = true := isActive_leading ha htoken
    have hactive' := isActive_trailing hactive token.rest
    have hleading := readable_readTrivia (Or.inl ha) hfirst.leading hactive
    have htrailing := readable_readTrivia (Or.inl hactive) hfirst.trailing hactive'
    rw [strippedFrom_of_token htoken rfl]
    refine ⟨⟨⟨_, state, readable_strippedLeading hleading⟩, ⟨_, _, readable_stripSpan htrailing⟩,
      (onTokenLine_readTrivia _ _).stripSpan, ?_⟩, fun b hb hne => ?_, ih hactive' hrest (by simp)⟩
    · exact directives_strippedLeading ha hfirst.leading hactive hkeep rfl
    · -- What leads the next token was read at the start of a line, and the line break before it stays.
      refine endsWithBreak_stripSpan rfl (endsWithBreak_trailing rfl fun hnil => hne ?_)
      rw [leading_of_mem_head? hb, hnil, strippedLeading_nil]

/-- Every trivium of terminals that are laid out can be read again. -/
theorem LaidOut.fits {stripDocs : Bool} {terminals : List Terminal} {before : Text}
    {p : Text × Trivium} (h : LaidOut stripDocs terminals) (hp : p ∈ placedFrom before terminals) :
    ∃ atEnd state next, p.2.Fits atEnd state next := by
  induction terminals generalizing before with
  | nil => simp [placedFrom] at hp
  | cons a rest ih =>
    obtain ⟨hlaid, _, hrest⟩ := h
    rw [placedFrom, List.mem_append, List.mem_append] at hp
    rcases hp with (hp | hp) | hp
    · obtain ⟨atEnd, _, hread⟩ := hlaid.leading
      exact ⟨atEnd, hread.fits_of_mem (mem_of_mem_placed hp)⟩
    · obtain ⟨atEnd, _, hread⟩ := hlaid.trailing
      exact ⟨atEnd, hread.fits_of_mem (mem_of_mem_placed hp)⟩
    · exact ih hrest hp

/-- The line before a directive among the trivia that lead a token. -/
theorem Laid.directive_line {stripDocs : Bool} {a : Terminal} {before : Text} {p : Text × Trivium}
    (h : Laid stripDocs a) (hstart : a.leading ≠ [] → before.endsBlank = true)
    (hp : p ∈ Trivia.placed before a.leading) (hk : p.2.kind = .directive) :
    p.1.endsBlank = true ∨ stripDocs = false ∧ ∃ q ∈ Trivia.placed before a.leading,
      q.2.kind = .docBlockComment ∧ EndsOnLastLine q p.1 := by
  obtain ⟨atEnd, state, hread⟩ := h.leading
  have hne : a.leading ≠ [] := List.ne_nil_of_mem (mem_of_mem_placed hp)
  rcases h.directives with hfirst | ⟨hdocs, hblock⟩
  · exact Or.inl (hread.endsBlank_of_directivesFirst hfirst hstart hp hk)
  · rcases hread.endsBlank_or_behind (.blank (hstart hne)) hblock
        (fun q hq hkind => And.intro hq hkind) hp hk with hblank | ⟨q, ⟨hq, hkind⟩, hbehind⟩
    · exact Or.inl hblank
    · exact Or.inr ⟨hdocs, q, hq, hkind, hbehind⟩

/-- **The line before a directive**: white space only, or a documentation comment that is kept. -/
theorem LaidOut.directive_line {stripDocs : Bool} {terminals : List Terminal} {before : Text}
    {p : Text × Trivium} (h : LaidOut stripDocs terminals)
    (hstart : ∀ a ∈ terminals.head?, a.leading ≠ [] → before.endsBlank = true)
    (hp : p ∈ placedFrom before terminals) (hk : p.2.kind = .directive) :
    p.1.endsBlank = true ∨ stripDocs = false ∧ ∃ q ∈ placedFrom before terminals,
      q.2.kind = .docBlockComment ∧ EndsOnLastLine q p.1 := by
  induction terminals generalizing before with
  | nil => simp [placedFrom] at hp
  | cons a rest ih =>
    obtain ⟨hlaid, hbreak, hrest⟩ := h
    rw [placedFrom, List.mem_append, List.mem_append] at hp
    rw [placedFrom]
    rcases hp with (hp | hp) | hp
    · refine (hlaid.directive_line (hstart a rfl) hp hk).imp_right ?_
      rintro ⟨hdocs, q, hq, hbehind⟩
      exact ⟨hdocs, q, by simp [hq], hbehind⟩
    · exact absurd hk (hlaid.tokenLine _ (mem_of_mem_placed hp)).1
    · have hnext : ∀ b ∈ rest.head?, b.leading ≠ [] →
          Text.endsBlank (before ++ a.fullText) = true := by
        intro b hb hne
        obtain ⟨_, _, hread⟩ := hlaid.trailing
        rw [Terminal.fullText, ← List.append_assoc]
        exact hread.endsBlank (hbreak b hb hne) _
      refine (ih hrest hnext hp).imp_right ?_
      rintro ⟨hdocs, q, hq, hbehind⟩
      exact ⟨hdocs, q, by simp [hq], hbehind⟩

/-! ## The directives of a stripped file -/

/-- **When stripping leaves a directive one.** Each directive of a stripped file has nothing but white
space before it on its line exactly if no documentation comment with an end of its own stands there; and
where documentation is removed too, none does. -/
theorem strip_directive_line {settings : Settings} {t : Text} {file : SourceFile}
    (hparse : SourceFile.parse t = .ok file) :
    (file.strip settings).placedTrivia.map Prod.snd = (file.strip settings).trivia ∧
    ∀ p ∈ (file.strip settings).placedTrivia, p.2.kind = .directive →
      p.1 ++ p.2.text <+: (file.strip settings).text ∧
      ((∀ c ∈ p.1.lastLine, isBlank c = true) ↔
        ¬ ∃ q ∈ (file.strip settings).placedTrivia,
          q.2.kind = .docBlockComment ∧ EndsOnLastLine q p.1) ∧
      (settings.stripDocs = true → ∀ c ∈ p.1.lastLine, isBlank c = true) := by
  obtain ⟨rfl, hclean, _⟩ := parse_eq_ok_iff.mp hparse
  have hlaid : LaidOut settings.stripDocs ((SourceFile.ofText t).strip settings).terminals :=
    laidOut_strippedFrom rfl hclean fun _ => rfl
  refine ⟨map_snd_placedFrom [] _, fun p hp hk => ⟨isPrefix_placedFrom hp, ?_⟩⟩
  rw [← List.all_eq_true]
  have hline := hlaid.directive_line (fun _ _ _ => rfl) hp hk
  refine ⟨⟨?_, fun hnone => hline.resolve_right fun hdoc => hnone hdoc.2⟩, fun hdocs => ?_⟩
  · -- A comment ends with a character that is not white space.
    rintro hblank ⟨q, hq, hkind, between, hbefore, hbetween⟩
    obtain ⟨_, _, _, hfits⟩ := hlaid.fits hq
    have hnot : Text.endsBlank (q.1 ++ q.2.text) = false := by
      rw [hfits.endsBlank_append, Trivium.lineStartAfter, hkind]
    have hends : p.1.endsBlank = false := by
      rw [hbefore, Text.endsBlank_append _ hbetween, hnot, Bool.false_and]
    simp [Text.endsBlank, hblank] at hends
  · refine hline.resolve_right ?_
    rintro ⟨hkept, _⟩
    simp [hdocs] at hkept

/-- A directive after a removed comment and a documentation comment on lines of their own. -/
theorem strip_directive_line_of_documentation :
    ("x\n/// d\n  ".toList, ⟨.directive, "#region r".toList⟩) ∈
        ((SourceFile.ofText "x\n/// d\n// c\n  #region r\n".toList).strip
          { stripDocs := false }).placedTrivia ∧
      ∀ c ∈ Text.lastLine "x\n/// d\n  ".toList, isBlank c = true := by
  have hparse := parse_of_diagnostics (t := "x\n/// d\n// c\n  #region r\n".toList)
    (by decide +kernel)
  have hline := (@strip_directive_line { stripDocs := false } _ _ hparse).2
    ("x\n/// d\n  ".toList, ⟨.directive, "#region r".toList⟩) (by decide +kernel) rfl
  have hnone : ∀ q ∈ ((SourceFile.ofText "x\n/// d\n// c\n  #region r\n".toList).strip
      { stripDocs := false }).placedTrivia, q.2.kind ≠ .docBlockComment := by decide +kernel
  refine ⟨by decide +kernel, hline.2.1.mpr ?_⟩
  rintro ⟨q, hq, hkind, _⟩
  exact hnone q hq hkind

/-- **Stripping can spoil a directive.** The end of the line after a removed comment goes with it, though
a documentation comment stands on that line, and the directive of the next line comes to stand there. -/
theorem strip_spoils_directive :
    SourceFile.parse "x\n/** d */ // c\n#region r\n".toList =
        .ok (.ofText "x\n/** d */ // c\n#region r\n".toList) ∧
      ("x\n/** d */".toList, ⟨.directive, "#region r".toList⟩) ∈
        ((SourceFile.ofText "x\n/** d */ // c\n#region r\n".toList).strip
          { stripDocs := false }).placedTrivia ∧
      Text.lastLine "x\n/** d */".toList = "/** d */".toList ∧
      ¬ ∀ c ∈ Text.lastLine "x\n/** d */".toList, isBlank c = true := by
  refine ⟨parse_of_diagnostics (by decide +kernel), by decide +kernel, by decide +kernel, ?_⟩
  intro hblank
  exact absurd (hblank '/' (by decide +kernel)) (by decide)

end Uncomment
