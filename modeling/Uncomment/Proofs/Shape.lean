import Uncomment.Proofs.Removal

/-!
# The shape of trivia

Trivia that were read without a fault can be read again from their texts. Here it is said, without the
text around them, when a list of trivia is of that kind (`Readable`): each piece has to be one the
reader would take whole at its place, in view of the state and of the pieces that come next.

The only pieces that look at what comes next are those that run to the end of a line, and those in text
that is not compiled, which stands between a directive and the next conditional one. For the latter the
lines that are skipped have to stop at the same place again (`disabledLines_append`).
-/

namespace Uncomment

/-! ## Conditional directives -/

/-- A line is a conditional directive whatever follows it. -/
theorem startsWithConditional_append {line s : Text} (hline : ∀ c ∈ line, isLineBreak c = false)
    (hs : ∀ c ∈ s.head?, isLineBreak c = true) :
    startsWithConditional (line ++ s) = startsWithConditional line := by
  have hself := (currentLine_append (s := []) hline (by simp)).1
  rw [List.append_nil] at hself
  simp only [startsWithConditional]
  rw [(currentLine_append hline hs).1, hself]

/-- White space before a conditional directive does not matter. -/
theorem startsWithConditional_blank {blank s : Text}
    (hb : ∀ c ∈ blank, isBlank c = true ∧ isLineBreak c = false) :
    startsWithConditional (blank ++ s) = startsWithConditional s := by
  have hline : Text.currentLine (blank ++ s) = blank ++ s.currentLine :=
    List.takeWhile_append_of_pos fun c hc => by simp [(hb c hc).2]
  have htrim : Text.trimStart (blank ++ s.currentLine) = Text.trimStart s.currentLine :=
    List.dropWhile_append_of_pos fun c hc => (hb c hc).1
  simp only [startsWithConditional, Directive.parse]
  rw [hline, htrim]

/-- A conditional directive begins with a character of its line. -/
theorem cons_of_startsWithConditional {t : Text} (h : startsWithConditional t = true) :
    ∃ c rest, t = c :: rest ∧ isLineBreak c = false := by
  cases t with
  | nil => simp [startsWithConditional, Text.currentLine, Text.trimStart] at h
  | cons c rest =>
    refine ⟨c, rest, rfl, ?_⟩
    cases hb : isLineBreak c with
    | false => rfl
    | true => simp [startsWithConditional, Text.currentLine, Text.trimStart, hb] at h

/-! ## Lines that are not compiled -/

theorem lineBreak_cons_of_ne {c : Char} {rest : Text} (h : c = '\r' → rest.head? ≠ some '\n') :
    lineBreak (c :: rest) = ([c], rest) := by
  have hnot : ['\r', '\n'].isPrefixOf (c :: rest) = false := by
    cases rest with
    | nil => simp [List.isPrefixOf]
    | cons d more =>
      simp only [List.isPrefixOf_cons_cons, List.isPrefixOf_nil_left, Bool.and_true,
        Bool.and_eq_false_iff, beq_eq_false_iff_ne, ne_eq]
      by_cases hc : c = '\r'
      · exact Or.inr fun hd => h hc (by rw [hd]; rfl)
      · exact Or.inl fun he => hc he.symm
  simp [lineBreak, hnot, Reader.count]

theorem lineBreak_pair (rest : Text) : lineBreak ('\r' :: '\n' :: rest) = (['\r', '\n'], rest) := by
  simp [lineBreak, List.isPrefixOf, Reader.count]

/-- Lines that are not compiled stop at the end of the text or at a conditional directive. -/
theorem disabledLines_rest (t : Text) :
    (disabledLines t).2 = [] ∨ startsWithConditional (disabledLines t).2 = true := by
  fun_induction disabledLines t with
  | case1 t line ending taken h =>
    simp only [Bool.or_eq_true, List.isEmpty_iff] at h
    rcases h with (h | h) | h
    · left
      simp [ending, h, lineBreak, Reader.count]
    · exact Or.inl h
    · exact Or.inr h
  | case2 t line ending taken h lines rest heq ih =>
    rw [heq] at ih
    exact ih

theorem exists_afterLine {a : Text} (h : ∃ c ∈ a, isLineBreak c = true) :
    ∃ c rest, a.afterLine = c :: rest ∧ isLineBreak c = true := by
  obtain ⟨c, hc, hb⟩ := h
  have hne : a.afterLine ≠ [] := by
    intro hnil
    have hcat := a.currentLine_append_afterLine
    rw [hnil, List.append_nil] at hcat
    rw [← hcat] at hc
    rw [isLineBreak_of_mem_currentLine hc] at hb
    simp at hb
  obtain ⟨d, rest, hd⟩ := List.exists_cons_of_ne_nil hne
  exact ⟨d, rest, hd, isLineBreak_head_afterLine a d (by rw [hd]; rfl)⟩

/-- The first line of a text that has a line break ends inside the text, whatever follows. -/
theorem line_append {a : Text} (h : ∃ c ∈ a, isLineBreak c = true) (s : Text) :
    Text.currentLine (a ++ s) = a.currentLine ∧ Text.afterLine (a ++ s) = a.afterLine ++ s := by
  obtain ⟨c, rest, hafter, hb⟩ := exists_afterLine h
  have hcut := currentLine_append (s := a.afterLine ++ s)
    (fun d hd => isLineBreak_of_mem_currentLine (t := a) hd) (by rw [hafter]; simpa using hb)
  rwa [← List.append_assoc, a.currentLine_append_afterLine] at hcut

theorem startsWithConditional_of_break {a : Text} (h : ∃ c ∈ a, isLineBreak c = true) (s : Text) :
    startsWithConditional (a ++ s) = startsWithConditional a := by
  simp only [startsWithConditional, (line_append h s).1]

/-- The line break of a text that has one is taken inside the text. -/
theorem lineBreak_append {a : Text} (h : ∃ c ∈ a, isLineBreak c = true) :
    ∃ ending more, a = a.currentLine ++ ending ++ more ∧ ending ≠ [] ∧
      ∀ s, s.head? ≠ some '\n' → lineBreak (Text.afterLine (a ++ s)) = (ending, more ++ s) := by
  obtain ⟨c, rest, hafter, hb⟩ := exists_afterLine h
  have hcat := a.currentLine_append_afterLine
  rw [hafter] at hcat
  by_cases hpair : c = '\r' ∧ rest.head? = some '\n'
  · obtain ⟨rfl, hn⟩ := hpair
    obtain ⟨more, rfl⟩ := List.head?_eq_some_iff.mp hn
    refine ⟨['\r', '\n'], more, by simpa using hcat.symm, by simp, fun s _ => ?_⟩
    rw [(line_append h s).2, hafter]
    exact lineBreak_pair (more ++ s)
  · refine ⟨[c], rest, by simpa using hcat.symm, by simp, fun s hs => ?_⟩
    rw [(line_append h s).2, hafter, List.cons_append]
    refine lineBreak_cons_of_ne fun hc => ?_
    cases rest with
    | nil => exact hs
    | cons d more => exact fun hd => hpair ⟨hc, hd⟩

theorem length_currentLine_le (t : Text) : t.currentLine.length ≤ (disabledLines t).1.length := by
  rw [disabledLines]
  simp only
  split
  · simp only [List.length_append]
    omega
  · simp only [List.length_append]
    omega

/-- Lines that are not compiled have a line break before the directive they stop at. -/
theorem exists_break_of_disabledLines {a f : Text} (hf : startsWithConditional f = true)
    (h : disabledLines (a ++ f) = (a, f)) : ∃ c ∈ a, isLineBreak c = true := by
  obtain ⟨d, rest, rfl, hd⟩ := cons_of_startsWithConditional hf
  refine Decidable.byContradiction fun hnone => ?_
  have hnot : ∀ c ∈ a, (!isLineBreak c) = true := by
    intro c hc
    cases hb : isLineBreak c with
    | false => rfl
    | true => exact absurd ⟨c, hc, hb⟩ hnone
  -- Without a line break the line goes on into what follows.
  have hline : Text.currentLine (a ++ d :: rest) = a ++ Text.currentLine (d :: rest) :=
    List.takeWhile_append_of_pos hnot
  have hle := length_currentLine_le (a ++ d :: rest)
  rw [h, hline, List.length_append] at hle
  simp only [Text.currentLine, List.takeWhile_cons, hd, Bool.not_false, if_true,
    List.length_cons] at hle
  omega

/-- The first line is taken, and more lines unless a conditional directive is next. -/
theorem disabledLines_of_break {a : Text} (h : ∃ c ∈ a, isLineBreak c = true) :
    ∃ first more, a = first ++ more ∧ first ≠ [] ∧
      ∀ f, startsWithConditional f = true → disabledLines (a ++ f) =
        if startsWithConditional (more ++ f) then (first, more ++ f)
        else (first ++ (disabledLines (more ++ f)).1, (disabledLines (more ++ f)).2) := by
  obtain ⟨ending, more, ha, hne, hcut⟩ := lineBreak_append h
  refine ⟨a.currentLine ++ ending, more, ha, by simp [hne], fun f hf => ?_⟩
  obtain ⟨c, rest, rfl, hc⟩ := cons_of_startsWithConditional hf
  have hending := hcut (c :: rest) (by rintro ⟨⟩; simp [isLineBreak] at hc)
  obtain ⟨d, after, hafter, _⟩ := exists_afterLine h
  rw [disabledLines]
  simp only [hending, (line_append h _).1]
  rw [(line_append h _).2, hafter]
  simp

/-- **Lines that are not compiled stop at the same place before any conditional directive.** -/
theorem disabledLines_append {a f f' : Text} (hf : startsWithConditional f = true)
    (hf' : startsWithConditional f' = true) (h : disabledLines (a ++ f) = (a, f)) :
    disabledLines (a ++ f') = (a, f') := by
  -- Line by line: what is left of the lines is again a text that stops before the directive.
  induction hlen : a.length using Nat.strongRecOn generalizing a with
  | ind n ih =>
    obtain ⟨first, more, rfl, hne, hlines⟩ :=
      disabledLines_of_break (exists_break_of_disabledLines hf h)
    rw [hlines f hf] at h
    rw [hlines f' hf']
    split at h
    · obtain rfl : more = [] := by simpa using congrArg Prod.snd h
      rw [List.nil_append, if_pos hf', List.append_nil]
    · next hnot =>
      simp only [Prod.mk.injEq, List.append_cancel_left_eq] at h
      have hmore : disabledLines (more ++ f) = (more, f) := Prod.ext h.1 h.2
      have hbreak := exists_break_of_disabledLines hf hmore
      rw [startsWithConditional_of_break hbreak f] at hnot
      have hshort : more.length < n := by
        have := List.length_pos_iff.mpr hne
        rw [← hlen, List.length_append]
        omega
      rw [startsWithConditional_of_break hbreak f', if_neg hnot, ih more.length hshort hmore rfl]

/-! ## Pieces that can be read again -/

/-- The text of one line break. -/
def IsLineBreakText (t : Text) : Prop :=
  t = ['\r', '\n'] ∨ ∃ c, t = [c] ∧ isLineBreak c = true

/-- Whether a trivium starts or ends a conditional branch. -/
def Trivium.isBranch (x : Trivium) : Bool :=
  x.kind == .directive && startsWithConditional x.text

/-- A conditional directive comes next, with or without white space before it. -/
inductive StartsBranch : Trivia → Prop
  | directive {d : Trivium} {rest : Trivia} (hd : d.isBranch = true) : StartsBranch (d :: rest)
  | blank {b d : Trivium} {rest : Trivia} (hb : b.kind = .whitespace) (hd : d.isBranch = true) :
      StartsBranch (b :: d :: rest)

/-- Lines that are not compiled come next; a line feed they begin with is not taken by what is before
them. -/
def StartsDisabled (before : Text) : Trivia → Prop
  | [] => False
  | d :: _ => d.kind = .disabledText ∧ (before = ['\r'] → d.text.head? ≠ some '\n')

/-- The reader takes a trivium whole, without a fault, in a state and before other trivia. -/
inductive Trivium.Fits (atEnd : Bool) (state : LexState) (next : Trivia) : Trivium → Prop
  | blank {text : Text} (hne : text ≠ [])
      (hb : ∀ c ∈ text, isBlank c = true ∧ isLineBreak c = false)
      (hnext : state.compilation.isActive = true ∨ StartsBranch next) :
      Fits atEnd state next ⟨.whitespace, text⟩
  | newline {text : Text} (ht : IsLineBreakText text)
      (hactive : state.compilation.isActive = true) : Fits atEnd state next ⟨.newline, text⟩
  | disabledNewline {text : Text} (ht : IsLineBreakText text)
      (hoff : state.compilation.isActive = false) (hs : state.lineStart = false)
      (hnext : StartsBranch next ∨ StartsDisabled text next) :
      Fits atEnd state next ⟨.newline, text⟩
  | line {rest : Text} (hline : ∀ c ∈ rest, isLineBreak c = false)
      (hactive : state.compilation.isActive = true) (hends : LineEndsAt atEnd next) :
      Fits atEnd state next ⟨lineCommentKind ('/' :: '/' :: rest), '/' :: '/' :: rest⟩
  | block {rest : Text}
      (hclosed : blockComment ('/' :: '*' :: rest) = ⟨'/' :: '*' :: rest, [], true⟩)
      (hactive : state.compilation.isActive = true) :
      Fits atEnd state next ⟨blockCommentKind ('/' :: '*' :: rest), '/' :: '*' :: rest⟩
  | directive {rest : Text} (hline : ∀ c ∈ rest, isLineBreak c = false)
      (hok : (state.compilation.applyLine ('#' :: rest)).2 = none)
      (hplace : state.compilation.isActive = true ∨
        (state.lineStart = true ∧ startsWithConditional ('#' :: rest) = true))
      (hends : LineEndsAt atEnd next) : Fits atEnd state next ⟨.directive, '#' :: rest⟩
  | disabled {text f : Text} (hne : text ≠ []) (hoff : state.compilation.isActive = false)
      (hs : state.lineStart = true) (hf : startsWithConditional f = true)
      (hlines : disabledLines (text ++ f) = (text, f))
      (hfirst : startsWithConditional (text ++ f) = false) (hnext : StartsBranch next) :
      Fits atEnd state next ⟨.disabledText, text⟩

namespace Trivium.Fits

variable {atEnd : Bool} {state : LexState} {next : Trivia} {x : Trivium}

theorem text_ne_nil (h : x.Fits atEnd state next) : x.text ≠ [] := by
  cases h with
  | blank hne => exact hne
  | newline ht | disabledNewline ht => rcases ht with rfl | ⟨c, rfl, _⟩ <;> simp
  | line | block | directive => simp
  | disabled hne => exact hne

theorem text_of_newline (h : x.Fits atEnd state next) (hk : x.kind = .newline) :
    IsLineBreakText x.text := by
  cases h with
  | newline ht => exact ht
  | disabledNewline ht => exact ht
  | line => exact absurd hk (lineCommentKind_ne rfl)
  | block => exact absurd hk (blockCommentKind_ne rfl)
  | blank | directive | disabled => simp at hk

theorem text_of_blank (h : x.Fits atEnd state next) (hk : x.kind = .whitespace) :
    ∀ c ∈ x.text, isBlank c = true ∧ isLineBreak c = false := by
  cases h with
  | blank hne hb => exact hb
  | line => exact absurd hk (lineCommentKind_ne rfl)
  | block => exact absurd hk (blockCommentKind_ne rfl)
  | newline | disabledNewline | directive | disabled => simp at hk

theorem text_of_directive (h : x.Fits atEnd state next) (hk : x.kind = .directive) :
    (∀ c ∈ x.text, isLineBreak c = false) ∧ x.text.head? = some '#' ∧ LineEndsAt atEnd next := by
  cases h with
  | directive hline _ _ hends =>
    refine ⟨?_, rfl, hends⟩
    intro c hc
    rcases List.mem_cons.mp hc with rfl | hc
    · rfl
    · exact hline c hc
  | line => exact absurd hk (lineCommentKind_ne rfl)
  | block => exact absurd hk (blockCommentKind_ne rfl)
  | blank | newline | disabledNewline | disabled => simp at hk

end Trivium.Fits

/-- Trivia that can be read one after the other, and after which the text is compiled. -/
def Readable (atEnd : Bool) (state : LexState) : Trivia → Prop
  | [] => state.compilation.isActive = true
  | x :: xs => x.Fits atEnd state xs ∧ Readable atEnd (state.after x) xs

theorem Readable.fits_of_mem {atEnd : Bool} {state : LexState} {xs : Trivia} {x : Trivium}
    (h : Readable atEnd state xs) (hx : x ∈ xs) : ∃ state next, x.Fits atEnd state next := by
  induction xs generalizing state with
  | nil => simp at hx
  | cons y rest ih =>
    rcases List.mem_cons.mp hx with rfl | hx
    · exact ⟨state, rest, h.1⟩
    · exact ih h.2 hx

/-! ## What the lexer reads can be read again -/

theorem startsWithConditional_currentLine (t : Text) :
    startsWithConditional t.currentLine = startsWithConditional t := by
  have hline : ∀ c ∈ t.currentLine, isLineBreak c = false :=
    fun c hc => isLineBreak_of_mem_currentLine hc
  have h := startsWithConditional_append hline (isLineBreak_head_afterLine t)
  rw [t.currentLine_append_afterLine] at h
  exact h.symm

theorem not_skipsLine_of_conditional (state : LexState) {t : Text}
    (h : startsWithConditional t = true) : state.skipsLine true t = false := by
  simp [LexState.skipsLine, h]

theorem startsBranch_of_hash {state : LexState} (hs : state.lineStart = true) {rest : Text}
    (h : startsWithConditional ('#' :: rest) = true) :
    ∃ d more, (readTrivia true state ('#' :: rest)).trivia = d :: more ∧ d.isBranch = true := by
  obtain ⟨more, heq⟩ :=
    trivia_of_reading (.directive (not_skipsLine_of_conditional state h) rfl hs)
  refine ⟨_, more, heq, ?_⟩
  simp only [Trivium.isBranch, ReadTrivium.directive, beq_self_eq_true, Bool.true_and]
  rw [startsWithConditional_currentLine]
  exact h

/-- Where a conditional directive is next, it is read. -/
theorem startsBranch_readTrivia {state : LexState} (hs : state.lineStart = true) {t : Text}
    (h : startsWithConditional t = true) : StartsBranch (readTrivia true state t).trivia := by
  obtain ⟨c, rest, rfl, hb⟩ := cons_of_startsWithConditional h
  rcases head_of_startsWithConditional h with hw | rfl
  · have hskip := not_skipsLine_of_conditional state h
    have hrun : ∀ d ∈ (c :: rest).takeWhile (fun d => isBlank d && !isLineBreak d),
        isBlank d = true ∧ isLineBreak d = false := by
      intro d hd
      simpa using List.all_eq_true.mp List.all_takeWhile d hd
    have hcat := List.takeWhile_append_dropWhile (p := fun d => isBlank d && !isLineBreak d)
      (l := c :: rest)
    have hrest : startsWithConditional
        ((c :: rest).dropWhile fun d => isBlank d && !isLineBreak d) = true := by
      rw [← hcat, startsWithConditional_blank hrun] at h
      exact h
    -- The run of white space is the longest, so the directive itself is next.
    obtain ⟨d, more, hd, hdb⟩ := cons_of_startsWithConditional hrest
    have hhash : d = '#' := by
      rw [hd] at hrest
      have hnot := List.head?_dropWhile_not (fun d => isBlank d && !isLineBreak d) (c :: rest)
      rw [hd] at hnot
      rcases head_of_startsWithConditional hrest with hblank | hhash
      · simp [hblank, hdb] at hnot
      · exact hhash
    subst hhash
    rw [hd] at hrest
    obtain ⟨x, xs, heq, hx⟩ := startsBranch_of_hash hs hrest
    rw [← hd] at heq
    rw [trivia_readTrivia (.blank hskip hb hw)]
    simp only [ReadTrivium.plain, Reader.run]
    rw [heq]
    exact .blank rfl hx
  · obtain ⟨d, more, heq, hd⟩ := startsBranch_of_hash hs h
    rw [heq]
    exact .directive hd

/-- Whether a line begins with a word does not depend on what follows the line. -/
theorem isPrefixOf_append_of_break {word line s : Text} (hw : ∀ c ∈ word, isLineBreak c = false)
    (hs : ∀ c ∈ s.head?, isLineBreak c = true) :
    word.isPrefixOf (line ++ s) = word.isPrefixOf line := by
  induction word generalizing line with
  | nil => simp
  | cons d rest ih =>
    cases line with
    | nil =>
      cases s with
      | nil => rfl
      | cons c more =>
        have hne : (d == c) = false := by
          simp only [beq_eq_false_iff_ne, ne_eq]
          rintro rfl
          have hbreak := hs d rfl
          rw [hw d (by simp)] at hbreak
          simp at hbreak
        simp [List.isPrefixOf, hne]
    | cons c more =>
      simp only [List.cons_append, List.isPrefixOf_cons_cons]
      rw [ih fun x hx => hw x (by simp [hx])]

theorem isPrefixOf_append_of_length {word a s : Text} (h : word.length ≤ a.length) :
    word.isPrefixOf (a ++ s) = word.isPrefixOf a := by
  induction word generalizing a with
  | nil => simp
  | cons d rest ih =>
    cases a with
    | nil => simp at h
    | cons c more =>
      simp only [List.cons_append, List.isPrefixOf_cons_cons]
      rw [ih (by simpa using h)]

theorem lineCommentKind_append {line s : Text} (hs : ∀ c ∈ s.head?, isLineBreak c = true) :
    lineCommentKind (line ++ s) = lineCommentKind line := by
  unfold lineCommentKind
  rw [isPrefixOf_append_of_break (by simp [isLineBreak]) hs,
    isPrefixOf_append_of_break (by simp [isLineBreak]) hs]

theorem blockCommentKind_append {a s : Text} (h : 4 ≤ a.length) :
    blockCommentKind (a ++ s) = blockCommentKind a := by
  unfold blockCommentKind
  rw [isPrefixOf_append_of_length (Nat.le_trans (by decide) h),
    isPrefixOf_append_of_length (Nat.le_trans (by decide) h)]

theorem length_blockBody {t : Text} (h : (blockBody t).closed = true) :
    2 ≤ (blockBody t).taken.length := by
  induction t with
  | nil => simp [blockBody, Scan.stop] at h
  | cons c rest ih =>
    unfold blockBody at h ⊢
    split
    · simp
    · next hc =>
      rw [if_neg hc] at h
      have := ih h
      simp only [Scan.after_taken, List.length_append]
      omega

theorem length_blockComment {rest : Text}
    (h : (blockComment ('/' :: '*' :: rest)).closed = true) :
    4 ≤ (blockComment ('/' :: '*' :: rest)).taken.length := by
  have hbody : 2 ≤ (blockBody rest).taken.length := length_blockBody h
  simp only [blockComment, List.drop_succ_cons, List.drop_zero, List.take_succ_cons, List.take_zero,
    Scan.after_taken, List.length_append, List.length_cons, List.length_nil]
  omega

theorem isLineBreakText_lineBreak {c : Char} (hc : isLineBreak c = true) (rest : Text) :
    IsLineBreakText (lineBreak (c :: rest)).1 ∧
      ((lineBreak (c :: rest)).1 = ['\r'] → (lineBreak (c :: rest)).2.head? ≠ some '\n') := by
  by_cases hpair : c = '\r' ∧ rest.head? = some '\n'
  · obtain ⟨rfl, hn⟩ := hpair
    obtain ⟨more, rfl⟩ := List.head?_eq_some_iff.mp hn
    rw [lineBreak_pair]
    exact ⟨Or.inl rfl, by simp⟩
  · rw [lineBreak_cons_of_ne fun h hn => hpair ⟨h, hn⟩]
    refine ⟨Or.inr ⟨c, rfl, hc⟩, fun h hn => hpair ⟨?_, hn⟩⟩
    simpa using h

/-- Where lines are skipped, they come next. -/
theorem startsDisabled_readTrivia {state : LexState} {before t : Text}
    (hskip : state.skipsLine true t = true) (hne : t ≠ [])
    (ht : before = ['\r'] → t.head? ≠ some '\n') :
    StartsDisabled before (readTrivia true state t).trivia := by
  obtain ⟨more, heq⟩ := trivia_of_reading (.disabled hne hskip)
  rw [heq]
  refine ⟨rfl, fun hb hn => ht hb ?_⟩
  obtain ⟨rest, hrest⟩ := List.head?_eq_some_iff.mp hn
  have hcat := append_disabledLines t
  simp only [ReadTrivium.plain] at hrest
  rw [← hcat, hrest]
  rfl

theorem state_readTrivia_nil (leading : Bool) (state : LexState) :
    (readTrivia leading state []).state = state := by
  rw [readTrivia_of_none rfl]

/-- In text that is not compiled there is more to read. -/
theorem ne_nil_of_not_active {leading : Bool} {state : LexState} {t : Text}
    (hactive : (readTrivia leading state t).state.compilation.isActive = true)
    (hoff : state.compilation.isActive = false) : t ≠ [] := by
  rintro rfl
  rw [state_readTrivia_nil, hoff] at hactive
  simp at hactive

/-- At the start of a line that is not compiled, only a conditional directive is not skipped. -/
theorem startsWithConditional_of_not_skipsLine {state : LexState} {t : Text}
    (hskip : state.skipsLine true t = false) (hstart : state.lineStart = true)
    (hoff : state.compilation.isActive = false) : startsWithConditional t = true := by
  simpa [LexState.skipsLine, hstart, hoff] using hskip

theorem lineCommentKind_currentLine (t : Text) :
    lineCommentKind t.currentLine = lineCommentKind t := by
  rw [← lineCommentKind_append (isLineBreak_head_afterLine t), Text.currentLine_append_afterLine]

theorem blockCommentKind_taken {rest : Text}
    (h : (blockComment ('/' :: '*' :: rest)).closed = true) :
    blockCommentKind (blockComment ('/' :: '*' :: rest)).taken =
      blockCommentKind ('/' :: '*' :: rest) := by
  have happend := blockCommentKind_append (s := (blockComment ('/' :: '*' :: rest)).rest)
    (length_blockComment h)
  rw [covers_blockComment] at happend
  exact happend.symm

theorem blockComment_taken {t : Text} (h : (blockComment t).closed = true) :
    blockComment (blockComment t).taken = ⟨(blockComment t).taken, [], true⟩ := by
  have hagain := blockComment_append h []
  rwa [List.append_nil] at hagain

/-- A piece that is read without a fault fits in its place. -/
theorem Reading.fits {leading : Bool} {state : LexState} {t : Text} {r : ReadTrivium}
    (h : Reading leading state t r) (hs : state.Settled leading t) (hfault : r.item.fault = none)
    (hactive : (readTrivia leading r.state r.rest).state.compilation.isActive = true) :
    r.item.item.Fits (readTrivia leading r.state r.rest).rest.isEmpty state
      (readTrivia leading r.state r.rest).trivia := by
  cases h with
  | disabled hne hskip =>
    have hskip' := hskip
    simp only [LexState.skipsLine, Bool.and_eq_true, Bool.not_eq_true'] at hskip'
    obtain ⟨⟨⟨rfl, hls⟩, hoff⟩, hcond⟩ := hskip'
    have hf : startsWithConditional (disabledLines t).2 = true :=
      (disabledLines_rest t).resolve_left (ne_nil_of_not_active hactive hoff)
    have hcat := append_disabledLines t
    refine .disabled (disabledLines_ne_nil hne) hoff hls hf ?_ ?_ (startsBranch_readTrivia rfl hf)
    · rw [hcat]
    · rw [hcat]
      exact hcond
  | @newline c rest hskip hc =>
    obtain ⟨htext, hnext⟩ := isLineBreakText_lineBreak hc rest
    cases ha : state.compilation.isActive with
    | true => exact .newline htext ha
    | false =>
      obtain ⟨rfl, hplace⟩ := hs.resolve_left (by simp [ha])
      have hls : state.lineStart = false := by
        cases hls : state.lineStart with
        | false => rfl
        | true =>
          have hcond := startsWithConditional_of_not_skipsLine hskip hls ha
          obtain ⟨d, more, heq, hd⟩ := cons_of_startsWithConditional hcond
          cases heq
          rw [hc] at hd
          simp at hd
      refine .disabledNewline htext ha hls ?_
      cases hcond : startsWithConditional (lineBreak (c :: rest)).2 with
      | true => exact Or.inl (startsBranch_readTrivia rfl hcond)
      | false =>
        refine Or.inr (startsDisabled_readTrivia ?_ (ne_nil_of_not_active hactive ha) hnext)
        simp [LexState.skipsLine, ReadTrivium.plain, ha, hcond]
  | @blank c rest hskip hb hc =>
    have hrun : ∀ d ∈ (c :: rest).takeWhile (fun d => isBlank d && !isLineBreak d),
        isBlank d = true ∧ isLineBreak d = false := by
      intro d hd
      simpa using List.all_eq_true.mp List.all_takeWhile d hd
    refine .blank (by simp [Reader.run, hb, hc]) hrun ?_
    rcases hs with ha | ⟨rfl, hls | hbreak⟩
    · exact Or.inl ha
    · cases ha : state.compilation.isActive with
      | true => exact Or.inl rfl
      | false =>
        have hcond := startsWithConditional_of_not_skipsLine hskip hls ha
        rw [← List.takeWhile_append_dropWhile (p := fun d => isBlank d && !isLineBreak d)
          (l := c :: rest), startsWithConditional_blank hrun] at hcond
        exact Or.inr (startsBranch_readTrivia hls hcond)
    · rw [hbreak c rfl] at hb
      simp at hb
  | @line rest hskip =>
    have ha := hs.isActive hskip (by decide) (by decide)
    have hafter := isLineBreak_head_afterLine ('/' :: '/' :: rest)
    have hline : Text.currentLine ('/' :: '/' :: rest) = '/' :: '/' :: rest.currentLine := by
      simp [Text.currentLine, isLineBreak]
    simp only [ReadTrivium.plain]
    rw [← lineCommentKind_currentLine, hline]
    exact .line (fun c hc => isLineBreak_of_mem_currentLine hc) ha (lineEndsAt_readTrivia rfl hafter)
  | @block rest hskip =>
    have ha := hs.isActive hskip (by decide) (by decide)
    have hclosed : (blockComment ('/' :: '*' :: rest)).closed = true := by
      cases hc : (blockComment ('/' :: '*' :: rest)).closed with
      | true => rfl
      | false => simp [ReadTrivium.block, hc] at hfault
    have htext : (blockComment ('/' :: '*' :: rest)).taken = '/' :: '*' :: (blockBody rest).taken :=
      rfl
    have hagain := blockComment_taken hclosed
    simp only [ReadTrivium.block]
    rw [← blockCommentKind_taken hclosed]
    rw [htext] at hagain ⊢
    exact .block hagain ha
  | @directive rest hskip hl hls =>
    have hafter := isLineBreak_head_afterLine ('#' :: rest)
    have hline : Text.currentLine ('#' :: rest) = '#' :: rest.currentLine := by
      simp [Text.currentLine, isLineBreak]
    have hok : (state.compilation.applyLine (Text.currentLine ('#' :: rest))).2 = none := by
      simpa [ReadTrivium.directive] using hfault
    have hplace : state.compilation.isActive = true ∨ (state.lineStart = true ∧
        startsWithConditional (Text.currentLine ('#' :: rest)) = true) := by
      cases ha : state.compilation.isActive with
      | true => exact Or.inl rfl
      | false =>
        refine Or.inr ⟨hls, ?_⟩
        rw [startsWithConditional_currentLine]
        rw [hl] at hskip
        exact startsWithConditional_of_not_skipsLine hskip hls ha
    simp only [ReadTrivium.directive]
    rw [hline] at hok hplace ⊢
    exact .directive (fun c hc => isLineBreak_of_mem_currentLine hc) hok hplace
      (lineEndsAt_readTrivia rfl hafter)

theorem Reading.fits_of_newline {leading atEnd : Bool} {state : LexState} {t : Text}
    {r : ReadTrivium} {next : Trivia} (h : Reading leading state t r)
    (hk : r.item.item.kind = .newline) (ha : state.compilation.isActive = true) :
    r.item.item.Fits atEnd state next := by
  cases h with
  | disabled => simp [ReadTrivium.plain] at hk
  | newline hskip hc => exact .newline (isLineBreakText_lineBreak hc _).1 ha
  | blank => simp [ReadTrivium.plain] at hk
  | line => exact absurd hk (lineCommentKind_ne rfl)
  | block => exact absurd hk (blockCommentKind_ne rfl)
  | directive => simp [ReadTrivium.directive] at hk

/-- **Trivia that were read without a fault can be read again.** -/
theorem readable_readTrivia {leading : Bool} {state : LexState} {t : Text}
    (hs : state.Settled leading t) (hfault : ∀ x ∈ (readTrivia leading state t).items, x.fault = none)
    (hactive : (readTrivia leading state t).state.compilation.isActive = true) :
    Readable (readTrivia leading state t).rest.isEmpty state
      (readTrivia leading state t).trivia := by
  fun_induction readTrivia leading state t with
  | case1 => exact hactive
  | case2 state t r h hk =>
    have hr := reading_of_readTrivium h
    simp only [Bool.and_eq_true, Bool.not_eq_true', beq_iff_eq] at hk
    have ha : state.compilation.isActive = true := hs.resolve_right fun hl => by simp [hk.1] at hl
    refine ⟨hr.fits_of_newline hk.2 ha, ?_⟩
    show (state.after r.item.item).compilation.isActive = true
    rw [← hr.state_eq]
    exact hactive
  | case3 state t r h hk more ih =>
    have hr := reading_of_readTrivium h
    refine ⟨hr.fits hs (hfault _ (by simp)) hactive, ?_⟩
    rw [← hr.state_eq]
    exact ih (hr.settled hs) (fun x hx => hfault x (List.mem_cons_of_mem _ hx)) hactive

end Uncomment
