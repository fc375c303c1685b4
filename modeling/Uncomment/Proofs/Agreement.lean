import Uncomment.Lexer.Token

/-!
# Texts that agree

A token is read from the front of a text, and the reader looks a little further than the token goes:
at the next digit, at the next quote, at the longest punctuation. Two texts **agree** if they are the
same up to a place where, in both, white space or a slash stands or nothing follows. Words and numbers
are read by looking at characters that are neither, so they are read the same way from texts that
agree.
-/

namespace Uncomment

/-! ## Texts that agree -/

/-- Nothing follows, or white space, or a slash. -/
def Boundary (t : Text) : Prop :=
  ∀ c ∈ t.head?, isBlank c = true ∨ c = '/'

/-- The texts are the same up to a boundary. A slash there is one of the first text. -/
inductive Agree : Text → Text → Prop
  | apart {s t : Text} (hs : Boundary s) (ht : Boundary t)
      (hslash : t.head? = some '/' → s.head? = some '/') : Agree s t
  | step (c : Char) {s t : Text} (h : Agree s t) : Agree (c :: s) (c :: t)

theorem Agree.append (a : Text) {s t : Text} (h : Agree s t) : Agree (a ++ s) (a ++ t) := by
  induction a with
  | nil => exact h
  | cons c rest ih => exact .step c ih

/-- A class of characters without white space and the slash. -/
def Inner (p : Char → Bool) : Prop :=
  ∀ c, isBlank c = true ∨ c = '/' → p c = false

/-- The code points with the property White_Space. -/
def blankCodes : List Nat :=
  [0x09, 0x0A, 0x0B, 0x0C, 0x0D, 0x20, 0x85, 0xA0, 0x1680, 0x2000, 0x2001, 0x2002, 0x2003, 0x2004,
   0x2005, 0x2006, 0x2007, 0x2008, 0x2009, 0x200A, 0x2028, 0x2029, 0x202F, 0x205F, 0x3000]

theorem mem_blankCodes {c : Char} (h : isBlank c = true) : c.toNat ∈ blankCodes := by
  simp only [isBlank, Bool.or_eq_true, Bool.and_eq_true, decide_eq_true_eq, beq_iff_eq] at h
  simp only [blankCodes, List.mem_cons, List.not_mem_nil, or_false]
  omega

/-- A class is checked on the characters it must not have. -/
theorem inner_of_any {p : Char → Bool} (h : ('/' :: blankCodes.map Char.ofNat).any p = false) :
    Inner p := by
  have hall : ∀ c ∈ '/' :: blankCodes.map Char.ofNat, p c = false := by simpa using h
  rintro c (hc | rfl)
  · refine hall c (List.mem_cons_of_mem _ (List.mem_map.mpr ⟨c.toNat, mem_blankCodes hc, ?_⟩))
    exact Char.ofNat_toNat c
  · exact hall '/' (by simp)

theorem inner_isIdentifierPart : Inner isIdentifierPart := inner_of_any (by decide +kernel)

theorem inner_isIdentifierStart : Inner isIdentifierStart := by
  intro c hc
  cases hs : isIdentifierStart c with
  | false => rfl
  | true => rw [← inner_isIdentifierPart c hc, isIdentifierPart_of_isIdentifierStart hs]

theorem inner_isDigit : Inner Char.isDigit := inner_of_any (by decide)

theorem inner_isDigitOrSeparator : Inner isDigitOrSeparator := inner_of_any (by decide)

theorem inner_isHexDigitOrSeparator : Inner fun c => isHexDigit c || c == '_' :=
  inner_of_any (by decide)

theorem inner_isNumberSuffix : Inner isNumberSuffix := inner_of_any (by decide)

theorem inner_isMark : Inner fun c => c == '$' || c == '@' := inner_of_any (by decide)

theorem inner_beq {d : Char} (h : isBlank d = false) (hd : d ≠ '/') : Inner (· == d) := by
  rintro c (hc | rfl)
  · simp only [beq_eq_false_iff_ne, ne_eq]
    rintro rfl
    rw [hc] at h
    simp at h
  · simp only [beq_eq_false_iff_ne, ne_eq]
    exact fun h => hd h.symm

theorem Boundary.any_head? {t : Text} (ht : Boundary t) {p : Char → Bool} (hp : Inner p) :
    t.head?.any p = false := by
  cases t with
  | nil => rfl
  | cons c rest => exact hp c (ht c rfl)

theorem Boundary.takeWhile {t : Text} (ht : Boundary t) {p : Char → Bool} (hp : Inner p) :
    t.takeWhile p = [] := by
  cases t with
  | nil => rfl
  | cons c rest => simp [hp c (ht c rfl)]

theorem Boundary.dropWhile {t : Text} (ht : Boundary t) {p : Char → Bool} (hp : Inner p) :
    t.dropWhile p = t := by
  cases t with
  | nil => rfl
  | cons c rest => simp [hp c (ht c rfl)]

namespace Agree

variable {s t : Text} {p : Char → Bool}

theorem any_head? (h : Agree s t) (hp : Inner p) : s.head?.any p = t.head?.any p := by
  cases h with
  | apart hs ht => rw [hs.any_head? hp, ht.any_head? hp]
  | step c h => rfl

theorem takeWhile (h : Agree s t) (hp : Inner p) : s.takeWhile p = t.takeWhile p := by
  induction h with
  | apart hs ht => rw [hs.takeWhile hp, ht.takeWhile hp]
  | step c h ih => simp only [List.takeWhile_cons, ih]

theorem dropWhile (h : Agree s t) (hp : Inner p) : Agree (s.dropWhile p) (t.dropWhile p) := by
  induction h with
  | apart hs ht hslash =>
    rw [hs.dropWhile hp, ht.dropWhile hp]
    exact .apart hs ht hslash
  | step c h ih =>
    simp only [List.dropWhile_cons]
    split
    · exact ih
    · exact .step c h

theorem head?_eq_some_iff {d : Char} (h : Agree s t) (hb : isBlank d = false) (hd : d ≠ '/') :
    s.head? = some d ↔ t.head? = some d := by
  have hany := h.any_head? (inner_beq hb hd)
  rw [Bool.eq_iff_iff, Option.any_eq_true, Option.any_eq_true] at hany
  simpa using hany

/-- What agrees with a text that begins inside begins in the same way. -/
theorem eq_cons {c : Char} {rest : Text} (h : Agree (c :: rest) t) (hb : isBlank c = false)
    (hc : c ≠ '/') : ∃ rest', t = c :: rest' ∧ Agree rest rest' := by
  cases h with
  | apart hs =>
    rcases hs c rfl with h | h
    · rw [h] at hb
      simp at hb
    · exact absurd h hc
  | step _ h => exact ⟨_, rfl, h⟩

/-- A word of inside characters is found in both texts or in neither. -/
theorem isPrefixOf {word : Text} (h : Agree s t)
    (hw : ∀ c ∈ word, isBlank c = false ∧ c ≠ '/') : word.isPrefixOf s = word.isPrefixOf t := by
  induction h generalizing word with
  | @apart s t hs ht =>
    cases word with
    | nil => simp
    | cons c rest =>
      have hnot : ∀ {u : Text}, Boundary u → (c :: rest).isPrefixOf u = false := by
        intro u hu
        cases u with
        | nil => rfl
        | cons d more =>
          have hany := hu.any_head? (inner_beq (hw c (by simp)).1 (hw c (by simp)).2)
          have hne : (c == d) = false := by
            simp only [List.head?_cons, Option.any_some, beq_eq_false_iff_ne, ne_eq] at hany
            simpa using fun h => hany h.symm
          simp [List.isPrefixOf, hne]
      rw [hnot hs, hnot ht]
  | step c h ih =>
    cases word with
    | nil => simp
    | cons d rest =>
      simp only [List.isPrefixOf_cons_cons]
      rw [ih fun x hx => hw x (by simp [hx])]

/-- What agrees with a text that begins with inside characters begins with them too. -/
theorem eq_append {a b : Text} (h : Agree (a ++ b) t)
    (ha : ∀ c ∈ a, isBlank c = false ∧ c ≠ '/') : ∃ b', t = a ++ b' ∧ Agree b b' := by
  induction a generalizing t with
  | nil => exact ⟨t, rfl, h⟩
  | cons c rest ih =>
    obtain ⟨t', rfl, h'⟩ := h.eq_cons (ha c (by simp)).1 (ha c (by simp)).2
    obtain ⟨b', rfl, hb⟩ := ih h' fun x hx => ha x (by simp [hx])
    exact ⟨b', rfl, hb⟩

end Agree

/-! ## Words and numbers -/

/-- The reader takes the same piece off texts that agree, and leaves texts that agree. -/
def Reader.Local (r : Reader) : Prop :=
  ∀ s t : Text, Agree s t → (r s).1 = (r t).1 ∧ Agree (r s).2 (r t).2

theorem Reader.local_run {p : Char → Bool} (hp : Inner p) : (Reader.run p).Local :=
  fun _ _ h => ⟨h.takeWhile hp, h.dropWhile hp⟩

theorem Reader.Local.andThen {first second : Reader} (h : first.Local) (h' : second.Local) :
    (first.andThen second).Local := by
  intro s t hst
  obtain ⟨heq, hrest⟩ := h s t hst
  obtain ⟨heq', hrest'⟩ := h' _ _ hrest
  simp only [Reader.andThen]
  rw [heq, heq']
  exact ⟨rfl, hrest'⟩

/-- A number of characters that is told from the text, and that are all inside characters. -/
theorem Reader.local_count {n : Text → Nat} (hn : ∀ {s t : Text}, Agree s t → n s = n t)
    (hlen : ∀ t : Text, n t ≤ t.length)
    (hin : ∀ t : Text, ∀ c ∈ t.take (n t), isBlank c = false ∧ c ≠ '/') :
    Reader.Local fun t => Reader.count (n t) t := by
  intro s t hst
  have hlength : (s.take (n s)).length = n s := by simp [hlen s]
  have hagree : Agree (s.take (n s) ++ s.drop (n s)) t := by
    rw [List.take_append_drop]
    exact hst
  have heq := hn hst
  obtain ⟨b, rfl, hb⟩ := hagree.eq_append (hin s)
  simp only [Reader.count]
  rw [← heq, List.take_left' hlength, List.drop_left' hlength]
  exact ⟨rfl, hb⟩

/-- Whether an `@` stands in front. -/
theorem local_atSign :
    Reader.Local fun t => Reader.count (if t.head? = some '@' then 1 else 0) t := by
  refine Reader.local_count ?_ ?_ ?_
  · intro s t hst
    have hiff := hst.head?_eq_some_iff (d := '@') (by decide) (by decide)
    by_cases h : s.head? = some '@'
    · rw [if_pos h, if_pos (hiff.mp h)]
    · rw [if_neg h, if_neg fun h' => h (hiff.mpr h')]
  · intro t
    cases t with
    | nil => simp
    | cons c rest => simp only [List.length_cons]; split <;> omega
  · intro t c hc
    cases t with
    | nil => simp at hc
    | cons d rest =>
      split at hc
      · next h =>
        simp only [List.head?_cons, Option.some.injEq] at h
        simp only [List.take_succ_cons, List.take_zero, List.mem_singleton] at hc
        rw [hc, h]
        decide
      · simp at hc

theorem local_identifier : Reader.Local identifier :=
  fun s t h => local_atSign.andThen (Reader.local_run inner_isIdentifierPart) s t h

theorem startsWithRadix_cons (c : Char) (rest : Text) :
    startsWithRadix (c :: rest) = (c == '0' && rest.head?.any "xXbB".toList.contains) := by
  by_cases hc : c = '0'
  · subst hc
    cases rest <;> rfl
  · have hne : (c == '0') = false := by simpa using hc
    rw [hne, Bool.false_and, startsWithRadix]
    simp [hc]

theorem startsWithFraction_cons (c : Char) (rest : Text) :
    startsWithFraction (c :: rest) = (c == '.' && rest.head?.any Char.isDigit) := by
  by_cases hc : c = '.'
  · subst hc
    cases rest <;> rfl
  · have hne : (c == '.') = false := by simpa using hc
    rw [hne, Bool.false_and, startsWithFraction]
    simp [hc]

theorem exponentMark_cons (c : Char) (rest : Text) :
    exponentMark (c :: rest) =
      if c = 'e' ∨ c = 'E' then
        if rest.head?.any Char.isDigit then 1
        else if (rest.head? = some '+' ∨ rest.head? = some '-') ∧ rest.tail.head?.any Char.isDigit
          then 2
        else 0
      else 0 := by
  cases rest with
  | nil => simp [exponentMark]
  | cons d more => simp [exponentMark]

/-- A test of the first two characters, the first of which is a given one. -/
theorem head_and_next_of_agree {s t : Text} {f : Text → Bool} {d : Char} {p : Char → Bool}
    (hnil : f [] = false) (hf : ∀ c rest, f (c :: rest) = (c == d && rest.head?.any p))
    (hd : isBlank d = false) (hslash : d ≠ '/') (hp : Inner p) (h : Agree s t) : f s = f t := by
  have hboundary : ∀ {u : Text}, Boundary u → f u = false := by
    intro u hu
    cases u with
    | nil => exact hnil
    | cons c rest =>
      have hne : (c == d) = false := inner_beq hd hslash c (hu c rfl)
      rw [hf, hne, Bool.false_and]
  cases h with
  | apart hs ht => rw [hboundary hs, hboundary ht]
  | step c h => rw [hf, hf, h.any_head? hp]

theorem startsWithRadix_of_agree {s t : Text} (h : Agree s t) :
    startsWithRadix s = startsWithRadix t :=
  head_and_next_of_agree rfl startsWithRadix_cons (by decide) (by decide)
    (inner_of_any (by decide)) h

theorem startsWithFraction_of_agree {s t : Text} (h : Agree s t) :
    startsWithFraction s = startsWithFraction t :=
  head_and_next_of_agree rfl startsWithFraction_cons (by decide) (by decide) inner_isDigit h

theorem exponentMark_of_agree {s t : Text} (h : Agree s t) : exponentMark s = exponentMark t := by
  have hboundary : ∀ {u : Text}, Boundary u → exponentMark u = 0 := by
    intro u hu
    cases u with
    | nil => rfl
    | cons c rest =>
      rw [exponentMark_cons, if_neg]
      rintro (rfl | rfl)
      · exact absurd (hu _ rfl) (by decide)
      · exact absurd (hu _ rfl) (by decide)
  cases h with
  | apart hs ht => rw [hboundary hs, hboundary ht]
  | @step c s t h =>
    -- The sign is an inside character, so after a sign the texts still agree.
    have hsign : ∀ d, isBlank d = false → d ≠ '/' → s.head? = some d →
        s.tail.head?.any Char.isDigit = t.tail.head?.any Char.isDigit := by
      intro d hb hd hs
      obtain ⟨rest, rfl⟩ := List.head?_eq_some_iff.mp hs
      obtain ⟨rest', rfl, hrest⟩ := h.eq_cons hb hd
      exact hrest.any_head? inner_isDigit
    have hplus := h.head?_eq_some_iff (d := '+') (by decide) (by decide)
    have hminus := h.head?_eq_some_iff (d := '-') (by decide) (by decide)
    simp only [exponentMark_cons, h.any_head? inner_isDigit, hplus, hminus]
    by_cases hsigned : t.head? = some '+' ∨ t.head? = some '-'
    · have hdigit : s.tail.head?.any Char.isDigit = t.tail.head?.any Char.isDigit := by
        rcases hsigned with hp | hp
        · exact hsign '+' (by decide) (by decide) (hplus.mpr hp)
        · exact hsign '-' (by decide) (by decide) (hminus.mpr hp)
      rw [hdigit]
    · simp only [hsigned, false_and]

theorem exponentMark_inside (t : Text) :
    exponentMark t ≤ t.length ∧ ∀ c ∈ t.take (exponentMark t), isBlank c = false ∧ c ≠ '/' := by
  cases t with
  | nil => simp [exponentMark]
  | cons c rest =>
    rw [exponentMark_cons]
    split
    · next he =>
      have hc : isBlank c = false ∧ c ≠ '/' := by rcases he with rfl | rfl <;> decide
      split
      · exact ⟨by simp, by simpa using hc⟩
      · split
        · next hs =>
          obtain ⟨hs, hdigit⟩ := hs
          cases rest with
          | nil => simp at hdigit
          | cons d more =>
            have hd : isBlank d = false ∧ d ≠ '/' := by
              simp only [List.head?_cons, Option.some.injEq] at hs
              rcases hs with rfl | rfl <;> decide
            refine ⟨by simp, ?_⟩
            simp only [List.take_succ_cons, List.take_zero, List.mem_cons, List.not_mem_nil,
              or_false, forall_eq_or_imp, forall_eq]
            exact ⟨hc, hd⟩
        · simp
    · simp

theorem local_decimalDigits : decimalDigits.Local := by
  have hdigits := Reader.local_run inner_isDigitOrSeparator
  refine (hdigits.andThen ?_).andThen (Reader.Local.andThen (Reader.local_count
    exponentMark_of_agree (fun t => (exponentMark_inside t).1) fun t => (exponentMark_inside t).2)
    hdigits)
  intro s t h
  simp only [Reader.onlyIf]
  rw [← startsWithFraction_of_agree h]
  split
  · next hs =>
    cases s with
    | nil => simp [startsWithFraction] at hs
    | cons c rest =>
      rw [startsWithFraction_cons, Bool.and_eq_true, beq_iff_eq] at hs
      obtain ⟨rfl, _⟩ := hs
      obtain ⟨rest', rfl, hrest⟩ := h.eq_cons (by decide) (by decide)
      obtain ⟨heq, hagree⟩ := hdigits _ _ hrest
      simp only [Reader.andThen, Reader.count, List.take_succ_cons, List.take_zero,
        List.drop_succ_cons, List.drop_zero]
      rw [heq]
      exact ⟨rfl, hagree⟩
  · exact ⟨rfl, h⟩

theorem local_numericLiteral : Reader.Local numericLiteral := by
  have hsuffix := Reader.local_run inner_isNumberSuffix
  intro s t h
  simp only [numericLiteral]
  rw [← startsWithRadix_of_agree h]
  split
  · next hs =>
    cases s with
    | nil => simp [startsWithRadix] at hs
    | cons c rest =>
      rw [startsWithRadix_cons, Bool.and_eq_true, beq_iff_eq] at hs
      obtain ⟨rfl, hnext⟩ := hs
      cases rest with
      | nil => simp at hnext
      | cons d more =>
        have hd : isBlank d = false ∧ d ≠ '/' := by
          simp only [List.head?_cons, Option.any_some, List.contains_eq_mem,
            decide_eq_true_eq] at hnext
          have hall : "xXbB".toList.all (fun x => !isBlank x && x != '/') = true := by decide
          simpa using List.all_eq_true.mp hall d hnext
        obtain ⟨rest', rfl, hrest⟩ := h.eq_cons (by decide) (by decide)
        obtain ⟨more', rfl, hmore⟩ := hrest.eq_cons hd.1 hd.2
        obtain ⟨heq, hagree⟩ :=
          (Reader.local_run inner_isHexDigitOrSeparator).andThen hsuffix _ _ hmore
        simp only [Reader.andThen, Reader.count, List.take_succ_cons, List.take_zero,
          List.drop_succ_cons, List.drop_zero, List.append_assoc] at heq hagree ⊢
        rw [heq]
        exact ⟨rfl, hagree⟩
  · exact local_decimalDigits.andThen hsuffix s t h

end Uncomment
