import Uncomment.Proofs.Lookahead
import Uncomment.Proofs.Replay

/-!
# The forms of string literals

What a string literal is, said apart from how it is read: a regular, a verbatim or a raw literal, each
with a language of its own between its quotes (`StringForm`). The reader of literals accepts exactly these
forms (`StringForm.stringLiteral_eq` and `form_of_closed`), so a text begins with at most one of them.

The body of a raw literal is cut at its runs of quotes (`ShortRuns`), because the reader takes a run of
quotes in one move; that the body has no run as long as the opening one is said of the whole of it.
-/

namespace Uncomment

/-! ## What stands between the quotes -/

/-- The body of a regular literal: no quote and no line break, and a backslash takes the character after
it along. -/
inductive RegularBody : Text → Prop
  | nil : RegularBody []
  | char {c : Char} {body : Text} (hq : c ≠ '"') (hs : c ≠ '\\') (hb : isLineBreak c = false)
      (h : RegularBody body) : RegularBody (c :: body)
  | escape {c : Char} {body : Text} (hb : isLineBreak c = false) (h : RegularBody body) :
      RegularBody ('\\' :: c :: body)

/-- The body of a verbatim literal: quotes come in pairs. -/
inductive VerbatimBody : Text → Prop
  | nil : VerbatimBody []
  | char {c : Char} {body : Text} (hq : c ≠ '"') (h : VerbatimBody body) : VerbatimBody (c :: body)
  | pair {body : Text} (h : VerbatimBody body) : VerbatimBody ('"' :: '"' :: body)

/-- The body of a raw literal that was opened by a number of quotes. It is not empty, since the run of
quotes that opens the literal ends before it. -/
structure RawBody (quotes : Nat) (body : Text) : Prop where
  ne_nil : body ≠ []
  head_ne : body.head? ≠ some '"'
  last_ne : body.getLast? ≠ some '"'
  no_run : ¬ List.replicate quotes '"' <:+: body

/-- A string literal and the text that follows it. -/
inductive StringForm : Text → Text → Prop
  /-- The text does not begin with three quotes, which would open a raw literal. -/
  | regular {body rest : Text} (hbody : RegularBody body)
      (hopen : ¬ List.replicate 3 '"' <+: '"' :: body ++ ['"'] ++ rest) :
      StringForm ('"' :: body ++ ['"']) rest
  /-- The closing quote is not the first one of a pair. -/
  | verbatim {body rest : Text} (hbody : VerbatimBody body) (hrest : rest.head? ≠ some '"') :
      StringForm ('@' :: '"' :: body ++ ['"']) rest
  /-- The closing run is at least as long as the opening one, and all of it is taken. -/
  | raw {opening closing : Nat} {body rest : Text} (hopen : 3 ≤ opening)
      (hbody : RawBody opening body) (hclose : opening ≤ closing) (hrest : rest.head? ≠ some '"') :
      StringForm (List.replicate opening '"' ++ body ++ List.replicate closing '"') rest

/-! ## Runs of quotes -/

theorem quoteRun_replicate {n : Nat} {s : Text} (hs : s.head? ≠ some '"') :
    quoteRun (List.replicate n '"' ++ s) = List.replicate n '"' := by
  unfold quoteRun
  rw [List.takeWhile_append_of_pos (fun c hc => by simp [List.eq_of_mem_replicate hc])]
  cases s with
  | nil => simp
  | cons c rest =>
    have hc : c ≠ '"' := by simpa using hs
    simp [hc]

theorem dropWhile_quote_replicate {n : Nat} {s : Text} (hs : s.head? ≠ some '"') :
    (List.replicate n '"' ++ s).dropWhile (· == '"') = s := by
  rw [List.dropWhile_append_of_pos (fun c hc => by simp [List.eq_of_mem_replicate hc])]
  cases s with
  | nil => rfl
  | cons c rest =>
    have hc : c ≠ '"' := by simpa using hs
    simp [hc]

/-- A text is its run of quotes and something that does not begin with a quote. -/
theorem exists_quoteRun (t : Text) :
    ∃ s, t = List.replicate (quoteRun t).length '"' ++ s ∧ s.head? ≠ some '"' := by
  refine ⟨t.dropWhile (· == '"'), ?_, ?_⟩
  · have hrun : quoteRun t = List.replicate (quoteRun t).length '"' :=
      List.eq_replicate_iff.mpr ⟨rfl, fun c hc => by
        simpa using List.all_eq_true.mp List.all_takeWhile c hc⟩
    rw [← hrun]
    exact List.takeWhile_append_dropWhile.symm
  · intro h
    have hnot := List.head?_dropWhile_not (· == '"') t
    rw [h] at hnot
    simp at hnot

theorem replicate_isPrefix_iff {n : Nat} {t : Text} :
    List.replicate n '"' <+: t ↔ n ≤ (quoteRun t).length := by
  obtain ⟨s, hcut, hs⟩ := exists_quoteRun t
  constructor
  · rintro ⟨more, rfl⟩
    unfold quoteRun
    rw [List.takeWhile_append_of_pos (fun c hc => by simp [List.eq_of_mem_replicate hc])]
    simp
  · intro h
    rw [hcut, ← Nat.add_sub_cancel' h, ← List.replicate_append_replicate, List.append_assoc]
    exact List.prefix_append _ _

/-! ## Regular bodies -/

theorem RegularBody.stringBody_eq {body : Text} (h : RegularBody body) (rest : Text) :
    stringBody .regular (body ++ '"' :: rest) = ⟨body ++ ['"'], rest, true⟩ := by
  induction h with
  | nil =>
    rw [List.nil_append, stringBody_quote]
    rfl
  | char hq hs hb _ ih =>
    rw [List.cons_append, stringBody_other (by simp [hb]) (by simp [hs]) hq, ih]
    rfl
  | escape hb _ ih =>
    rw [List.cons_append, List.cons_append, stringBody_escape hb, ih]
    rfl

theorem exists_regularBody {t : Text} (h : (stringBody .regular t).closed = true) :
    ∃ body, RegularBody body ∧ (stringBody .regular t).taken = body ++ ['"'] := by
  generalize hstyle : StringStyle.regular = style at h ⊢
  fun_induction stringBody style t with
  | case1 => cases h
  | case2 => cases h
  | case3 => cases h
  | case4 => cases h
  | case5 c _ hs d more hd ih =>
    obtain ⟨body, hbody, htaken⟩ := ih h
    obtain ⟨rfl, -⟩ := hs
    refine ⟨'\\' :: d :: body, .escape (by simpa using hd) hbody, ?_⟩
    rw [Scan.after_taken, htaken]
    rfl
  | case6 =>
    subst hstyle
    exact ⟨[], .nil, rfl⟩
  | case7 rest quotes hopen hb hs ih =>
    subst hstyle
    exact absurd rfl hopen
  | case8 c rest hb hs hq ih =>
    subst hstyle
    obtain ⟨body, hbody, htaken⟩ := ih h
    refine ⟨c :: body, .char hq (by simpa using hs) (by simpa using hb) hbody, ?_⟩
    rw [Scan.after_taken, htaken]
    rfl

/-! ## Verbatim bodies -/

theorem closingQuotes_pair (rest : Text) :
    closingQuotes .verbatim ('"' :: '"' :: rest) = ⟨['"', '"'], rest, false⟩ := rfl

theorem closingQuotes_single {rest : Text} (h : rest.head? ≠ some '"') :
    closingQuotes .verbatim ('"' :: rest) = ⟨['"'], rest, true⟩ := by
  simp [closingQuotes, h]

theorem VerbatimBody.stringBody_eq {body : Text} (h : VerbatimBody body) {rest : Text}
    (hrest : rest.head? ≠ some '"') :
    stringBody .verbatim (body ++ '"' :: rest) = ⟨body ++ ['"'], rest, true⟩ := by
  induction h with
  | nil =>
    rw [List.nil_append, stringBody_quote, closingQuotes_single hrest]
    rfl
  | char hq _ ih =>
    rw [List.cons_append, stringBody_other (by simp) (by simp) hq, ih]
    rfl
  | pair _ ih =>
    rw [List.cons_append, List.cons_append, stringBody_quote, closingQuotes_pair, ih]
    rfl

theorem exists_verbatimBody {t : Text} (h : (stringBody .verbatim t).closed = true) :
    ∃ body, VerbatimBody body ∧ (stringBody .verbatim t).taken = body ++ ['"'] ∧
      (stringBody .verbatim t).rest.head? ≠ some '"' := by
  generalize hstyle : StringStyle.verbatim = style at h ⊢
  fun_induction stringBody style t with
  | case1 => cases h
  | case2 => cases h
  | case3 => cases h
  | case4 => cases h
  | case5 c _ hs =>
    subst hstyle
    obtain ⟨-, hregular⟩ := hs
    cases hregular
  | case6 rest quotes hclosed hb hs =>
    subst hstyle
    by_cases hpair : rest.head? = some '"'
    · obtain ⟨more, rfl⟩ := List.head?_eq_some_iff.mp hpair
      cases hclosed
    · have hquotes : quotes = ⟨['"'], rest, true⟩ := closingQuotes_single hpair
      rw [hquotes]
      exact ⟨[], .nil, rfl, hpair⟩
  | case7 rest quotes hopen hb hs ih =>
    subst hstyle
    by_cases hpair : rest.head? = some '"'
    · obtain ⟨more, rfl⟩ := List.head?_eq_some_iff.mp hpair
      obtain ⟨body, hbody, htaken, hrest⟩ := ih h
      refine ⟨'"' :: '"' :: body, .pair hbody, ?_, hrest⟩
      rw [Scan.after_taken, htaken]
      rfl
    · have hquotes : quotes = ⟨['"'], rest, true⟩ := closingQuotes_single hpair
      rw [hquotes] at hopen
      exact absurd rfl hopen
  | case8 c rest hb hs hq ih =>
    subst hstyle
    obtain ⟨body, hbody, htaken, hrest⟩ := ih h
    refine ⟨c :: body, .char hq hbody, ?_, hrest⟩
    rw [Scan.after_taken, htaken]
    rfl

/-! ## Raw bodies -/

/-- A text cut at its runs of quotes: each of them is short, and another character follows it. -/
inductive ShortRuns (quotes : Nat) : Text → Prop
  | nil : ShortRuns quotes []
  | cons {run : Nat} {c : Char} {body : Text} (hrun : run < quotes) (hc : c ≠ '"')
      (h : ShortRuns quotes body) : ShortRuns quotes (List.replicate run '"' ++ c :: body)

/-- A stretch of a text that does not hold a character lies on one side of it. -/
theorem isInfix_of_notMem {l a b : Text} {c : Char} (h : l <:+: a ++ c :: b) (hc : c ∉ l) :
    l <:+: a ∨ l <:+: b := by
  obtain ⟨before, after, heq⟩ := h
  rw [List.append_assoc] at heq
  rcases List.append_eq_append_iff.mp heq with ⟨more, rfl, hcut⟩ | ⟨more, rfl, hcut⟩
  · -- The stretch begins before the character, so it has to end before it.
    rcases List.append_eq_append_iff.mp hcut with ⟨tail, rfl, -⟩ | ⟨tail, rfl, htail⟩
    · exact Or.inl ⟨before, tail, by simp⟩
    · cases tail with
      | nil => exact Or.inl ⟨before, [], by simp⟩
      | cons d tail =>
        obtain ⟨rfl, -⟩ := List.cons.inj htail
        simp at hc
  · cases more with
    | nil =>
      cases l with
      | nil => exact Or.inl (List.nil_infix)
      | cons d l =>
        obtain ⟨rfl, -⟩ := List.cons.inj hcut
        simp at hc
    | cons d more =>
      obtain ⟨rfl, rfl⟩ := List.cons.inj hcut
      exact Or.inr ⟨more, after, by simp⟩

theorem ShortRuns.last_ne {quotes : Nat} {body : Text} (h : ShortRuns quotes body) :
    body.getLast? ≠ some '"' := by
  induction h with
  | nil => nofun
  | @cons run c body _ hc _ ih =>
    cases body with
    | nil => simpa using hc
    | cons d body => simpa using ih

theorem ShortRuns.no_run {quotes : Nat} {body : Text} (h : ShortRuns quotes body)
    (hpos : 0 < quotes) : ¬ List.replicate quotes '"' <:+: body := by
  induction h with
  | nil =>
    intro hinside
    have hle := hinside.length_le
    rw [List.length_replicate, List.length_nil] at hle
    omega
  | cons hrun hc _ ih =>
    intro hinside
    have hnot : ∀ c, c ≠ '"' → c ∉ List.replicate quotes '"' :=
      fun c hc hmem => hc (List.eq_of_mem_replicate hmem)
    rcases isInfix_of_notMem hinside (hnot _ hc) with hinside | hinside
    · have hle := hinside.length_le
      rw [List.length_replicate, List.length_replicate] at hle
      omega
    · exact ih hinside

theorem shortRuns_of_no_run {quotes : Nat} {body : Text} (hlast : body.getLast? ≠ some '"')
    (hrun : ¬ List.replicate quotes '"' <:+: body) : ShortRuns quotes body := by
  obtain ⟨s, hcut, hs⟩ := exists_quoteRun body
  have hshort : (quoteRun body).length < quotes := by
    refine Nat.lt_of_not_le fun hle => hrun ?_
    exact (replicate_isPrefix_iff.mpr hle).isInfix
  cases s with
  | nil =>
    cases hlen : (quoteRun body).length with
    | zero =>
      rw [hlen] at hcut
      rw [hcut]
      exact .nil
    | succ n =>
      rw [hlen] at hcut
      rw [hcut] at hlast
      simp [List.getLast?_replicate] at hlast
  | cons c more =>
    have hmore : ShortRuns quotes more := by
      refine shortRuns_of_no_run (fun h => hlast ?_) fun h => hrun ?_
      · rw [hcut, List.getLast?_append, List.getLast?_cons, h]
        rfl
      · rw [hcut]
        exact h.trans ((List.suffix_cons c more).isInfix.trans (List.suffix_append _ _).isInfix)
    rw [hcut]
    exact .cons hshort (by simpa using hs) hmore
termination_by body.length
decreasing_by
  have hlen := congrArg List.length hcut
  simp only [List.length_append, List.length_cons] at hlen
  omega

/-- A run of quotes in the body of a raw literal closes it if it is long enough. -/
theorem stringBody_run {quotes run : Nat} {s : Text} (hrun : 0 < run) (hs : s.head? ≠ some '"') :
    stringBody (.raw quotes) (List.replicate run '"' ++ s) =
      if quotes ≤ run then ⟨List.replicate run '"', s, true⟩
      else (stringBody (.raw quotes) s).after (List.replicate run '"') := by
  obtain ⟨more, rfl⟩ : ∃ more, run = more + 1 := ⟨run - 1, by omega⟩
  have hclosing : closingQuotes (.raw quotes) ('"' :: (List.replicate more '"' ++ s)) =
      ⟨List.replicate (more + 1) '"', s, decide (quotes ≤ more + 1)⟩ := by
    have heq : '"' :: (List.replicate more '"' ++ s) = List.replicate (more + 1) '"' ++ s := rfl
    rw [heq, closingQuotes_raw, quoteRun_replicate hs, dropWhile_quote_replicate hs,
      List.length_replicate]
  show stringBody (.raw quotes) ('"' :: (List.replicate more '"' ++ s)) = _
  rw [stringBody_quote, hclosing]
  by_cases hle : quotes ≤ more + 1 <;> simp [hle]

theorem ShortRuns.stringBody_eq {quotes closing : Nat} {body rest : Text}
    (h : ShortRuns quotes body) (hpos : 0 < quotes) (hclose : quotes ≤ closing)
    (hrest : rest.head? ≠ some '"') :
    stringBody (.raw quotes) (body ++ (List.replicate closing '"' ++ rest)) =
      ⟨body ++ List.replicate closing '"', rest, true⟩ := by
  induction h with
  | nil =>
    rw [List.nil_append, stringBody_run (by omega) hrest, if_pos hclose]
    rfl
  | @cons run c body hrun hc _ ih =>
    have hother : stringBody (.raw quotes) (c :: (body ++ (List.replicate closing '"' ++ rest))) =
        ⟨c :: (body ++ List.replicate closing '"'), rest, true⟩ := by
      rw [stringBody_other (by simp) (by simp) hc, ih]
      rfl
    rw [List.append_assoc, List.cons_append, List.append_assoc, List.cons_append]
    cases run with
    | zero => exact hother
    | succ n =>
      rw [stringBody_run (by omega) (by simpa using hc), if_neg (by omega), hother]
      rfl

/-- What a closed raw literal consists of after its opening quotes. -/
theorem exists_shortRuns {quotes : Nat} {t : Text} (hpos : 0 < quotes)
    (h : (stringBody (.raw quotes) t).closed = true) :
    ∃ body closing, ShortRuns quotes body ∧ quotes ≤ closing ∧
      (stringBody (.raw quotes) t).taken = body ++ List.replicate closing '"' ∧
      (stringBody (.raw quotes) t).rest.head? ≠ some '"' := by
  obtain ⟨s, hcut, hs⟩ := exists_quoteRun t
  generalize (quoteRun t).length = run at hcut
  rw [hcut] at h ⊢
  by_cases hclose : 0 < run ∧ quotes ≤ run
  · rw [stringBody_run hclose.1 hs, if_pos hclose.2]
    exact ⟨[], run, .nil, hclose.2, rfl, hs⟩
  · have hshort : run < quotes := by omega
    have heq : stringBody (.raw quotes) (List.replicate run '"' ++ s) =
        (stringBody (.raw quotes) s).after (List.replicate run '"') := by
      cases run with
      | zero => rfl
      | succ n => rw [stringBody_run (by omega) hs, if_neg (by omega)]
    rw [heq] at h ⊢
    cases s with
    | nil =>
      rw [stringBody] at h
      cases h
    | cons c more =>
      have hc : c ≠ '"' := by simpa using hs
      rw [stringBody_other (by simp) (by simp) hc] at h ⊢
      obtain ⟨body, closing, hbody, hclosing, htaken, hrest⟩ := exists_shortRuns hpos h
      refine ⟨List.replicate run '"' ++ c :: body, closing, .cons hshort hc hbody, hclosing, ?_, hrest⟩
      simp only [Scan.after_taken, htaken, List.append_assoc, List.cons_append, List.nil_append]
termination_by t.length
decreasing_by
  have hlen := congrArg List.length hcut
  simp only [List.length_append, List.length_cons] at hlen
  omega

/-! ## Literals -/

theorem RawBody.head?_append {quotes : Nat} {body : Text} (h : RawBody quotes body) (s : Text) :
    (body ++ s).head? ≠ some '"' := by
  obtain ⟨c, more, rfl⟩ := List.exists_cons_of_ne_nil h.ne_nil
  exact h.head_ne

theorem RawBody.shortRuns {quotes : Nat} {body : Text} (h : RawBody quotes body) :
    ShortRuns quotes body :=
  shortRuns_of_no_run h.last_ne h.no_run

theorem openingQuotes_regular {t : Text} (h : ¬ List.replicate 3 '"' <+: t) :
    openingQuotes false t = (.regular, t.take 1, t.drop 1) := by
  rw [replicate_isPrefix_iff] at h
  simp [openingQuotes, h]

theorem openingQuotes_raw {quotes : Nat} {s : Text} (hquotes : 3 ≤ quotes)
    (hs : s.head? ≠ some '"') :
    openingQuotes false (List.replicate quotes '"' ++ s) =
      (.raw quotes, List.replicate quotes '"', s) := by
  simp [openingQuotes, quoteRun_replicate hs, hquotes]

theorem openingQuotes_verbatim (t : Text) :
    openingQuotes true t = (.verbatim, t.take 1, t.drop 1) := by
  simp [openingQuotes]

/-- **A literal of one of the forms is read as a whole.** -/
theorem StringForm.stringLiteral_eq {p rest : Text} (h : StringForm p rest) :
    stringLiteral (p ++ rest) = ⟨p, rest, true⟩ := by
  cases h with
  | @regular body rest hbody hopen =>
    simp only [List.cons_append, List.append_assoc, List.nil_append] at hopen
    show stringLiteral ('"' :: (body ++ ['"'] ++ rest)) = _
    rw [List.append_assoc, List.singleton_append, stringLiteral_other (by decide),
      openingQuotes_regular hopen]
    show (stringBody .regular (body ++ '"' :: rest)).after ['"'] = _
    rw [hbody.stringBody_eq rest]
    rfl
  | @verbatim body rest hbody hrest =>
    show stringLiteral ('@' :: '"' :: (body ++ ['"'] ++ rest)) = _
    rw [List.append_assoc, List.singleton_append, stringLiteral_verbatim, openingQuotes_verbatim]
    show ((stringBody .verbatim (body ++ '"' :: rest)).after ['"']).after ['@'] = _
    rw [hbody.stringBody_eq hrest]
    rfl
  | @raw opening closing body rest hopen hbody hclose hrest =>
    have hopening := openingQuotes_raw hopen
      (hbody.head?_append (List.replicate closing '"' ++ rest))
    obtain ⟨more, rfl⟩ : ∃ more, opening = more + 1 := ⟨opening - 1, by omega⟩
    rw [List.append_assoc, List.append_assoc]
    rw [List.replicate_succ, List.cons_append] at hopening ⊢
    rw [stringLiteral_other (by decide), hopening]
    show (stringBody (.raw (more + 1)) (body ++ (List.replicate closing '"' ++ rest))).after
      ('"' :: List.replicate more '"') = _
    rw [hbody.shortRuns.stringBody_eq (by omega) hclose hrest]
    simp [Scan.after]

theorem regularForm_of_closed {s : Text} (hopen : ¬ List.replicate 3 '"' <+: '"' :: s)
    (h : (stringLiteral ('"' :: s)).closed = true) :
    StringForm (stringLiteral ('"' :: s)).taken (stringLiteral ('"' :: s)).rest := by
  have hcovers : (stringLiteral ('"' :: s)).taken ++ (stringLiteral ('"' :: s)).rest = '"' :: s :=
    covers_stringLiteral _
  rw [stringLiteral_other (by decide), openingQuotes_regular hopen] at h hcovers ⊢
  simp only [Scan.after_taken, Scan.after_rest, Scan.after_closed] at h hcovers ⊢
  obtain ⟨body, hbody, htaken⟩ := exists_regularBody h
  rw [htaken] at hcovers ⊢
  refine .regular hbody ?_
  rw [← hcovers] at hopen
  exact hopen

/-- Three quotes open a raw literal, and so do all that follow them. -/
theorem rawForm_of_closed {s : Text} (hopen : List.replicate 3 '"' <+: '"' :: s)
    (h : (stringLiteral ('"' :: s)).closed = true) :
    StringForm (stringLiteral ('"' :: s)).taken (stringLiteral ('"' :: s)).rest := by
  have hquotes : 3 ≤ (quoteRun ('"' :: s)).length := replicate_isPrefix_iff.mp hopen
  obtain ⟨more, hcut, hmore⟩ := exists_quoteRun ('"' :: s)
  have hopening := openingQuotes_raw hquotes hmore
  rw [← hcut] at hopening
  rw [stringLiteral_other (by decide), hopening] at h ⊢
  simp only [Scan.after_taken, Scan.after_rest, Scan.after_closed] at h ⊢
  obtain ⟨body, closing, hbody, hclose, htaken, hrest⟩ := exists_shortRuns (by omega) h
  have hcovers := covers_stringBody (.raw (quoteRun ('"' :: s)).length) more
  rw [Scan.Covers, htaken, List.append_assoc] at hcovers
  -- The opening run has ended, so the body is not empty and begins with no quote.
  have hstart : body ≠ [] ∧ body.head? ≠ some '"' := by
    cases body with
    | nil =>
      obtain ⟨n, rfl⟩ : ∃ n, closing = n + 1 := ⟨closing - 1, by omega⟩
      rw [← hcovers] at hmore
      exact absurd rfl hmore
    | cons c body =>
      rw [← hcovers] at hmore
      exact ⟨by simp, hmore⟩
  rw [htaken, ← List.append_assoc]
  exact .raw hquotes ⟨hstart.1, hstart.2, hbody.last_ne, hbody.no_run (by omega)⟩ hclose hrest

theorem verbatimForm_of_closed {s : Text} (h : (stringLiteral ('@' :: '"' :: s)).closed = true) :
    StringForm (stringLiteral ('@' :: '"' :: s)).taken (stringLiteral ('@' :: '"' :: s)).rest := by
  rw [stringLiteral_verbatim, openingQuotes_verbatim] at h ⊢
  simp only [Scan.after_taken, Scan.after_rest, Scan.after_closed] at h ⊢
  obtain ⟨body, hbody, htaken, hrest⟩ := exists_verbatimBody h
  rw [htaken]
  exact .verbatim hbody hrest

/-- The text begins like a string literal: with a quote, or with `@` and a quote. -/
def BeginsString (t : Text) : Prop :=
  ['"'] <+: t ∨ ['@', '"'] <+: t

/-- **A literal that is read as a whole has one of the forms.** -/
theorem form_of_closed {t : Text} (ht : BeginsString t) (h : (stringLiteral t).closed = true) :
    StringForm (stringLiteral t).taken (stringLiteral t).rest := by
  rcases ht with ⟨s, rfl⟩ | ⟨s, rfl⟩
  · by_cases hopen : List.replicate 3 '"' <+: '"' :: s
    · exact rawForm_of_closed hopen h
    · exact regularForm_of_closed hopen h
  · exact verbatimForm_of_closed h

/-! ## Tokens -/

/-- The token at the front of a text that begins like a string literal. -/
theorem readToken_of_beginsString {t : Text} (ht : BeginsString t) :
    readToken t = some (.closed .stringLiteral .unterminatedString (stringLiteral t)) := by
  rcases ht with ⟨s, rfl⟩ | ⟨s, rfl⟩
  · rfl
  · rfl

/-- The reports of open strings in a terminal that was read as a string literal: one of the literal as a
whole if it is open. -/
theorem unterminatedString_diagnostics {leading trailing : Bool} {state state' : LexState}
    {text after : Text} (scan : Scan) (offset : Nat) :
    (LexedTerminal.diagnostics offset
        { leading := (readTrivia leading state text).items, kind := .stringLiteral,
          text := scan.taken, fault := if scan.closed then none else some .unterminatedString,
          trailing := (readTrivia trailing state' after).items }).filter
        (fun d => d.fault = .unterminatedString) =
      if scan.closed then []
      else
        [⟨⟨offset + (notedText (readTrivia leading state text).items).width,
          offset + (notedText (readTrivia leading state text).items).width + scan.taken.width⟩,
          .unterminatedString⟩] := by
  have hdirective : ∀ error, decide (Fault.ofDirectiveError error = .unterminatedString) = false := by
    intro error
    cases error <;> rfl
  have hquiet := filter_triviaDiagnostics (p := fun f => decide (f = .unterminatedString)) rfl hdirective
  rw [LexedTerminal.filter_diagnostics _ _ fun f => decide (f = .unterminatedString), hquiet, hquiet,
    List.nil_append, List.append_nil]
  cases scan.closed <;> rfl

/-- **String literals are recognised exactly.** A text that begins like a string literal has at most one
prefix of one of the forms. If it has one, this prefix is what the reader takes, and takes as complete;
if it has none, the literal is incomplete. In a file the literal is then a token that is reported as
unterminated, from its first character on, and a complete literal is not. -/
theorem string_literals_recognised {t : Text} (ht : BeginsString t) :
    (∀ p, (stringLiteral t).closed = true ∧ (stringLiteral t).taken = p ↔
      ∃ rest, p ++ rest = t ∧ StringForm p rest) ∧
    (∀ p q rest rest', p ++ rest = t → StringForm p rest → q ++ rest' = t → StringForm q rest' →
      p = q) ∧
    ((stringLiteral t).closed = false ↔ ∀ p rest, p ++ rest = t → ¬ StringForm p rest) ∧
    (∀ state text offset, (readTrivia true state text).rest = t →
      ∃ l later, lexFrom state text = l :: later ∧ l.kind = .stringLiteral ∧
        l.text = (stringLiteral t).taken ∧
        (l.diagnostics offset).filter (fun d => d.fault = .unterminatedString) =
          if (stringLiteral t).closed then []
          else
            [⟨⟨offset + (notedText l.leading).width,
              offset + (notedText l.leading).width + l.text.width⟩, .unterminatedString⟩]) := by
  have hread : ∀ {p rest}, p ++ rest = t → StringForm p rest →
      stringLiteral t = ⟨p, rest, true⟩ := by
    rintro p rest rfl hform
    exact hform.stringLiteral_eq
  refine ⟨fun p => ⟨?_, ?_⟩, ?_, ⟨?_, ?_⟩, ?_⟩
  · rintro ⟨hclosed, rfl⟩
    exact ⟨(stringLiteral t).rest, covers_stringLiteral t, form_of_closed ht hclosed⟩
  · rintro ⟨rest, hcut, hform⟩
    rw [hread hcut hform]
    exact ⟨rfl, rfl⟩
  · intro p q rest rest' hp hpform hq hqform
    have heq := (hread hp hpform).symm.trans (hread hq hqform)
    exact congrArg Scan.taken heq
  · intro hopen p rest hcut hform
    rw [hread hcut hform] at hopen
    cases hopen
  · intro hnone
    cases hclosed : (stringLiteral t).closed with
    | false => rfl
    | true => exact absurd (form_of_closed ht hclosed) (hnone _ _ (covers_stringLiteral t))
  · intro state text offset htext
    have htoken := readToken_of_beginsString ht
    rw [← htext] at htoken
    refine ⟨_, _, lexFrom_of_token htoken, rfl, by rw [← htext]; rfl, ?_⟩
    rw [← htext]
    exact unterminatedString_diagnostics (stringLiteral (readTrivia true state text).rest) offset

/-- A raw literal with a shorter run of quotes inside and a longer one at its end. -/
theorem string_literals_recognised_of_raw :
    BeginsString "\"\"\"a\"\"b\"\"\"\";".toList ∧
    (stringLiteral "\"\"\"a\"\"b\"\"\"\";".toList).closed = true ∧
    (stringLiteral "\"\"\"a\"\"b\"\"\"\";".toList).taken = "\"\"\"a\"\"b\"\"\"\"".toList ∧
    ∀ q rest, q ++ rest = "\"\"\"a\"\"b\"\"\"\";".toList → StringForm q rest →
      q = "\"\"\"a\"\"b\"\"\"\"".toList := by
  have hbegins : BeginsString "\"\"\"a\"\"b\"\"\"\";".toList := Or.inl (by decide)
  have hbody : RawBody 3 "a\"\"b".toList := ⟨by decide, by decide, by decide, by decide⟩
  have hform : StringForm (List.replicate 3 '"' ++ "a\"\"b".toList ++ List.replicate 4 '"') [';'] :=
    .raw (Nat.le_refl 3) hbody (by decide) (by decide)
  obtain ⟨hread, hunique, -, -⟩ := string_literals_recognised hbegins
  obtain ⟨hclosed, htaken⟩ := (hread _).mpr ⟨[';'], rfl, hform⟩
  exact ⟨hbegins, hclosed, htaken, fun q rest hq hqform => hunique q _ rest _ hq hqform rfl hform⟩

end Uncomment
