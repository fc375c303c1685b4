import Mathlib.Data.List.Forall2
import Mathlib.Data.List.Induction
import Uncomment.Proofs.Acceptance

/-!
# Balanced brackets

The brackets of a file, in order, are a word over three pairs, and a file has no bracket fault exactly if
this word is **balanced** (`Balanced`): empty, or a pair around a balanced word followed by another one.
A word that has brackets to close already is balanced up to each of them (`Closes`); this is what one step
of the check preserves.

Where the word is not balanced, what is reported is said in terms of the brackets that are open at each
place (`openBrackets`): one fault for each closing bracket that finds none or one of another pair, and one
for each opening bracket that is still open at the end (`Offends`).
-/

namespace Uncomment

/-! ## The word of a file -/

/-- An opening or a closing bracket. -/
inductive Delimiter where
  | opening (bracket : Bracket)
  | closing (bracket : Bracket)
  deriving DecidableEq, Repr

namespace Delimiter

/-- How the delimiter is written. -/
def text : Delimiter → Text
  | opening bracket => bracket.opening
  | closing bracket => bracket.closing

/-- The delimiters of the three pairs. -/
def all : List Delimiter :=
  [.opening .round, .closing .round, .opening .square, .closing .square, .opening .curly,
   .closing .curly]

theorem mem_all (d : Delimiter) : d ∈ all := by
  cases d with
  | opening bracket => cases bracket <;> decide
  | closing bracket => cases bracket <;> decide

theorem text_injective : Function.Injective text := by
  intro d d' h
  have hall : ∀ d ∈ all, ∀ d' ∈ all, d.text = d'.text → d = d' := by decide
  exact hall d d.mem_all d' d'.mem_all h

end Delimiter

/-- The delimiter a terminal is, if it is one. -/
def Terminal.delimiter? (t : Terminal) : Option Delimiter :=
  if t.kind = .punctuation then Delimiter.all.find? fun d => d.text == t.text else none

theorem Terminal.delimiter?_eq_some_iff {t : Terminal} {d : Delimiter} :
    t.delimiter? = some d ↔ t.kind = .punctuation ∧ t.text = d.text := by
  unfold delimiter?
  by_cases hk : t.kind = .punctuation
  · rw [if_pos hk]
    constructor
    · intro h
      have htext := List.find?_some h
      exact ⟨hk, (beq_iff_eq.mp htext).symm⟩
    · rintro ⟨-, htext⟩
      cases hfind : Delimiter.all.find? fun d => d.text == t.text with
      | none => exact absurd htext.symm (by simpa using List.find?_eq_none.mp hfind d d.mem_all)
      | some d' =>
        have htext' := List.find?_some hfind
        rw [Delimiter.text_injective ((beq_iff_eq.mp htext').trans htext)]
  · simp [hk]

/-- Balanced words over the three pairs. -/
inductive Balanced : List Delimiter → Prop
  | nil : Balanced []
  | pair (b : Bracket) {inside after : List Delimiter} (hinside : Balanced inside)
      (hafter : Balanced after) : Balanced (.opening b :: inside ++ .closing b :: after)

/-! ## One step of the check -/

section Step

variable {stack : List OpenBracket} {t : Terminal} {span : Span} {rest : List (Terminal × Span)}

theorem ofOpening?_opening (b : Bracket) : Bracket.ofOpening? b.opening = some b := by
  cases b <;> rfl

theorem ofClosing?_closing (b : Bracket) :
    Bracket.ofOpening? b.closing = none ∧ Bracket.ofClosing? b.closing = some b := by
  cases b <;> exact ⟨rfl, rfl⟩

theorem delimiterDiagnosticsFrom_other (h : t.delimiter? = none) :
    delimiterDiagnosticsFrom stack ((t, span) :: rest) = delimiterDiagnosticsFrom stack rest := by
  rw [delimiterDiagnosticsFrom]
  by_cases hk : t.kind = .punctuation
  · have hne : ∀ d : Delimiter, d.text ≠ t.text := by
      intro d htext
      rw [Terminal.delimiter?_eq_some_iff.mpr ⟨hk, htext.symm⟩] at h
      cases h
    have hopening : Bracket.ofOpening? t.text = none :=
      List.find?_eq_none.mpr fun b _ => mt beq_iff_eq.mp (hne (.opening b))
    have hclosing : Bracket.ofClosing? t.text = none :=
      List.find?_eq_none.mpr fun b _ => mt beq_iff_eq.mp (hne (.closing b))
    rw [if_pos hk]
    simp only [hopening, hclosing]
  · rw [if_neg hk]

theorem delimiterDiagnosticsFrom_opening {b : Bracket} (h : t.delimiter? = some (.opening b)) :
    delimiterDiagnosticsFrom stack ((t, span) :: rest) =
      delimiterDiagnosticsFrom (⟨b, span⟩ :: stack) rest := by
  obtain ⟨hk, htext⟩ := Terminal.delimiter?_eq_some_iff.mp h
  have hopening : Bracket.ofOpening? t.text = some b := htext ▸ ofOpening?_opening b
  rw [delimiterDiagnosticsFrom, if_pos hk]
  simp only [hopening]

/-- What is wrong with a closing bracket, given the open ones. -/
def closingFault (c : Bracket) : List Bracket → Option Fault
  | [] => some (.unmatchedClosing c)
  | b :: _ => if b = c then none else some (.mismatched b c)

theorem delimiterDiagnosticsFrom_closing {c : Bracket} (h : t.delimiter? = some (.closing c)) :
    delimiterDiagnosticsFrom stack ((t, span) :: rest) =
      ((closingFault c (stack.map OpenBracket.bracket)).map (Diagnostic.mk span)).toList ++
        delimiterDiagnosticsFrom stack.tail rest := by
  obtain ⟨hk, htext⟩ := Terminal.delimiter?_eq_some_iff.mp h
  obtain ⟨hopening, hclosing⟩ := ofClosing?_closing c
  rw [delimiterDiagnosticsFrom, if_pos hk, htext]
  simp only [Delimiter.text, hopening, hclosing]
  cases stack with
  | nil => rfl
  | cons innermost outer =>
    by_cases hsame : innermost.bracket = c
    · simp [closingFault, hsame]
    · simp [closingFault, hsame]

end Step

/-! ## Balanced words have no fault, and no others -/

/-- The word closes the open brackets, the innermost first, and is balanced apart from that. -/
def Closes : List Bracket → List Delimiter → Prop
  | [], word => Balanced word
  | b :: outer, word => ∃ inside after, word = inside ++ .closing b :: after ∧ Balanced inside ∧
      Closes outer after

theorem Balanced.append {u v : List Delimiter} (hu : Balanced u) (hv : Balanced v) :
    Balanced (u ++ v) := by
  induction hu with
  | nil => exact hv
  | pair b hinside _ _ ih =>
    rw [List.append_assoc]
    exact .pair b hinside ih

theorem closes_nil {stack : List Bracket} : Closes stack [] ↔ stack = [] := by
  cases stack with
  | nil => exact ⟨fun _ => rfl, fun _ => .nil⟩
  | cons b outer => simp [Closes]

/-- An opening bracket is one more to close. -/
theorem closes_opening {b : Bracket} {stack : List Bracket} {word : List Delimiter} :
    Closes (b :: stack) word ↔ Closes stack (.opening b :: word) := by
  constructor
  · rintro ⟨inside, after, rfl, hinside, hafter⟩
    cases stack with
    | nil => exact .pair b hinside hafter
    | cons c outer =>
      obtain ⟨inside', after', rfl, hinside', hafter'⟩ := hafter
      refine ⟨.opening b :: inside ++ .closing b :: inside', after', ?_, .pair b hinside hinside', hafter'⟩
      simp
  · intro h
    cases stack with
    | nil =>
      cases h with
      | pair _ hinside hafter => exact ⟨_, _, rfl, hinside, hafter⟩
    | cons c outer =>
      obtain ⟨inside, after, heq, hinside, hafter⟩ := h
      cases hinside with
      | nil => cases heq
      | pair b' hinside' hafter' =>
        simp only [List.cons_append, List.append_assoc, List.cons.injEq,
          Delimiter.opening.injEq] at heq
        obtain ⟨rfl, rfl⟩ := heq
        exact ⟨_, _, rfl, hinside', _, after, rfl, hafter', hafter⟩

/-- A closing bracket has to be the innermost one to close. -/
theorem closes_closing {c : Bracket} {stack : List Bracket} {word : List Delimiter} :
    Closes stack (.closing c :: word) ↔ closingFault c stack = none ∧ Closes stack.tail word := by
  cases stack with
  | nil =>
    constructor
    · intro h
      cases h
    · rintro ⟨h, -⟩
      cases h
  | cons b outer =>
    by_cases hsame : b = c
    · subst hsame
      simp only [closingFault, if_true, true_and, List.tail_cons]
      constructor
      · rintro ⟨inside, after, heq, hinside, hafter⟩
        cases hinside with
        | nil =>
          obtain ⟨-, rfl⟩ := List.cons.inj heq
          exact hafter
        | pair => cases heq
      · intro h
        exact ⟨[], word, rfl, .nil, h⟩
    · simp only [closingFault, if_neg hsame, reduceCtorEq, false_and, iff_false]
      rintro ⟨inside, after, heq, hinside, -⟩
      cases hinside with
      | nil =>
        simp only [List.nil_append, List.cons.injEq, Delimiter.closing.injEq] at heq
        exact hsame heq.1.symm
      | pair => cases heq

theorem map_fst_tokenSpans (offset : Nat) (terminals : List Terminal) :
    (tokenSpans offset terminals).map Prod.fst = terminals := by
  induction terminals generalizing offset with
  | nil => rfl
  | cons t rest ih => rw [tokenSpans, List.map_cons, ih]

/-- **The check finds nothing exactly if what is left closes the open brackets.** -/
theorem delimiterDiagnosticsFrom_eq_nil_iff (xs : List (Terminal × Span)) :
    ∀ stack, delimiterDiagnosticsFrom stack xs = [] ↔
      Closes (stack.map OpenBracket.bracket) (xs.filterMap (·.1.delimiter?)) := by
  induction xs with
  | nil =>
    intro stack
    simp [delimiterDiagnosticsFrom, closes_nil]
  | cons x rest ih =>
    intro stack
    obtain ⟨t, span⟩ := x
    cases hd : t.delimiter? with
    | none =>
      simp only [List.filterMap_cons, hd]
      rw [delimiterDiagnosticsFrom_other hd, ih]
    | some d =>
      simp only [List.filterMap_cons, hd]
      cases d with
      | opening b => rw [delimiterDiagnosticsFrom_opening hd, ih, List.map_cons, closes_opening]
      | closing c =>
        rw [delimiterDiagnosticsFrom_closing hd, List.append_eq_nil_iff, ih, closes_closing,
          List.map_tail]
        simp

/-! ## What is open at a place -/

/-- The open brackets after one more terminal. A closing bracket takes the innermost open one away,
whatever its pair. -/
def openAfter (stack : List (Nat × Bracket)) (place : Nat) : Option Delimiter → List (Nat × Bracket)
  | some (.opening b) => (place, b) :: stack
  | some (.closing _) => stack.tail
  | none => stack

/-- The brackets that are open after some terminals, the innermost first, each with the place of its
terminal. -/
def openBrackets (ts : List Terminal) : List (Nat × Bracket) :=
  ts.zipIdx.foldl (fun stack x => openAfter stack x.2 x.1.delimiter?) []

theorem openBrackets_concat (ts : List Terminal) (t : Terminal) :
    openBrackets (ts ++ [t]) = openAfter (openBrackets ts) ts.length t.delimiter? := by
  simp [openBrackets, List.zipIdx_append]

/-- The terminals with a fault of their bracket. -/
inductive Offends (ts : List Terminal) : Nat → Fault → Prop
  /-- The bracket is still open at the end. -/
  | unclosed {i : Nat} {b : Bracket} (hopen : (i, b) ∈ openBrackets ts) :
      Offends ts i (.unclosed b)
  /-- No bracket is open before a closing one. -/
  | unmatched {i : Nat} {t : Terminal} {c : Bracket} (ht : ts[i]? = some t)
      (hd : t.delimiter? = some (.closing c)) (hopen : openBrackets (ts.take i) = []) :
      Offends ts i (.unmatchedClosing c)
  /-- The innermost open bracket before a closing one is of another pair. -/
  | mismatched {i j : Nat} {t : Terminal} {b c : Bracket} {outer : List (Nat × Bracket)}
      (ht : ts[i]? = some t) (hd : t.delimiter? = some (.closing c))
      (hopen : openBrackets (ts.take i) = (j, b) :: outer) (hne : b ≠ c) :
      Offends ts i (.mismatched b c)

/-- Each open bracket is where its place says, and the inner ones come later. -/
theorem openBrackets_places (ts : List Terminal) :
    (∀ x ∈ openBrackets ts, ∃ t, ts[x.1]? = some t ∧ t.delimiter? = some (.opening x.2)) ∧
      (openBrackets ts).Pairwise fun x y => y.1 < x.1 := by
  induction ts using List.reverseRecOn with
  | nil => simp [openBrackets]
  | append_singleton ts t ih =>
    obtain ⟨hplace, hlater⟩ := ih
    have hstays : ∀ x ∈ openBrackets ts,
        ∃ t', (ts ++ [t])[x.1]? = some t' ∧ t'.delimiter? = some (.opening x.2) := by
      intro x hx
      obtain ⟨t', ht', hd⟩ := hplace x hx
      exact ⟨t', List.getElem?_append_left (List.getElem?_eq_some_iff.mp ht').1 ▸ ht', hd⟩
    rw [openBrackets_concat]
    cases hd : t.delimiter? with
    | none => exact ⟨hstays, hlater⟩
    | some d =>
      cases d with
      | opening b =>
        refine ⟨?_, List.pairwise_cons.mpr ⟨fun y hy => ?_, hlater⟩⟩
        · intro x hx
          rcases List.mem_cons.mp hx with rfl | hx
          · exact ⟨t, by simp, hd⟩
          · exact hstays x hx
        · obtain ⟨t', ht', -⟩ := hplace y hy
          exact (List.getElem?_eq_some_iff.mp ht').1
      | closing c =>
        exact ⟨fun x hx => hstays x (List.mem_of_mem_tail hx), hlater.sublist (List.tail_sublist _)⟩

/-! ## What is reported -/

/-- What is reported of a closing bracket at a place. -/
def closingReport? (ts : List Terminal) (i : Nat) : Option (Nat × Fault) :=
  match ts[i]?.bind Terminal.delimiter? with
  | some (.closing c) => (closingFault c ((openBrackets (ts.take i)).map Prod.snd)).map fun f => (i, f)
  | _ => none

/-- What is reported of the brackets of some terminals, with the places. -/
def bracketReports (ts : List Terminal) : List (Nat × Fault) :=
  (List.range ts.length).filterMap (closingReport? ts) ++
    (openBrackets ts).reverse.map fun x => (x.1, .unclosed x.2)

theorem closingReport?_eq_some_iff {ts : List Terminal} {i : Nat} {r : Nat × Fault} :
    closingReport? ts i = some r ↔ r.1 = i ∧ ∃ t c, ts[i]? = some t ∧
      t.delimiter? = some (.closing c) ∧
      closingFault c ((openBrackets (ts.take i)).map Prod.snd) = some r.2 := by
  unfold closingReport?
  constructor
  · intro h
    split at h
    · next c hd =>
      obtain ⟨f, hf, rfl⟩ := Option.map_eq_some_iff.mp h
      obtain ⟨t, ht, hd⟩ := Option.bind_eq_some_iff.mp hd
      exact ⟨rfl, t, c, ht, hd, hf⟩
    · cases h
  · rintro ⟨rfl, t, c, ht, hd, hf⟩
    rw [ht, Option.bind_some, hd]
    simp only [hf, Option.map_some]

theorem closingFault_eq_some_iff {c : Bracket} {f : Fault} {stack : List (Nat × Bracket)} :
    closingFault c (stack.map Prod.snd) = some f ↔
      (stack = [] ∧ f = .unmatchedClosing c) ∨
        ∃ j b outer, stack = (j, b) :: outer ∧ b ≠ c ∧ f = .mismatched b c := by
  constructor
  · intro h
    cases stack with
    | nil =>
      cases h
      exact Or.inl ⟨rfl, rfl⟩
    | cons x outer =>
      simp only [List.map_cons, closingFault] at h
      split at h
      · cases h
      · next hne =>
        cases h
        exact Or.inr ⟨x.1, x.2, outer, rfl, hne, rfl⟩
  · rintro (⟨rfl, rfl⟩ | ⟨j, b, outer, rfl, hne, rfl⟩)
    · rfl
    · simp [closingFault, hne]

/-- **The reports are the faults of the brackets.** -/
theorem mem_bracketReports {ts : List Terminal} {i : Nat} {f : Fault} :
    (i, f) ∈ bracketReports ts ↔ Offends ts i f := by
  simp only [bracketReports, List.mem_append, List.mem_filterMap, List.mem_range, List.mem_map,
    List.mem_reverse, Prod.mk.injEq, closingReport?_eq_some_iff, closingFault_eq_some_iff]
  constructor
  · rintro (⟨j, -, rfl, t, c, ht, hd, ⟨hopen, rfl⟩ | ⟨j, b, outer, hopen, hne, rfl⟩⟩ |
      ⟨x, hx, rfl, rfl⟩)
    · exact .unmatched ht hd hopen
    · exact .mismatched ht hd hopen hne
    · exact .unclosed hx
  · intro h
    cases h with
    | unclosed hopen => exact Or.inr ⟨_, hopen, rfl, rfl⟩
    | unmatched ht hd hopen =>
      exact Or.inl ⟨i, (List.getElem?_eq_some_iff.mp ht).1, rfl, _, _, ht, hd, Or.inl ⟨hopen, rfl⟩⟩
    | mismatched ht hd hopen hne =>
      exact Or.inl ⟨i, (List.getElem?_eq_some_iff.mp ht).1, rfl, _, _, ht, hd,
        Or.inr ⟨_, _, _, hopen, hne, rfl⟩⟩

/-- No terminal is reported twice. -/
theorem nodup_bracketReports (ts : List Terminal) :
    ((bracketReports ts).map Prod.fst).Nodup := by
  obtain ⟨hplace, hlater⟩ := openBrackets_places ts
  rw [bracketReports, List.map_append, List.nodup_append]
  refine ⟨?_, ?_, ?_⟩
  · have hsorted : (List.range ts.length).Pairwise (· < ·) := List.pairwise_lt_range
    refine List.Pairwise.imp Nat.ne_of_lt (List.pairwise_map.mpr ?_)
    refine hsorted.filterMap _ ?_
    intro i j hij r hr r' hr'
    rw [(closingReport?_eq_some_iff.mp hr).1, (closingReport?_eq_some_iff.mp hr').1]
    exact hij
  · rw [List.map_map]
    refine List.Pairwise.imp Nat.ne_of_lt (List.pairwise_map.mpr ?_)
    exact List.pairwise_reverse.mpr hlater
  · -- A closing bracket is no opening one.
    intro i hi j hj hij
    subst hij
    obtain ⟨r, hr, rfl⟩ := List.mem_map.mp hi
    obtain ⟨i, -, hreport⟩ := List.mem_filterMap.mp hr
    obtain ⟨rfl, t, c, ht, hd, -⟩ := closingReport?_eq_some_iff.mp hreport
    obtain ⟨r', hr', hplaces⟩ := List.mem_map.mp hj
    obtain ⟨x, hx, rfl⟩ := List.mem_map.mp hr'
    obtain ⟨t', ht', hd'⟩ := hplace x (List.mem_reverse.mp hx)
    have hplaces : x.1 = r.1 := hplaces
    rw [hplaces, ht] at ht'
    obtain rfl := Option.some.inj ht'
    rw [hd] at hd'
    cases hd'

/-! ## The spans of the reports -/

/-- The span is that of the token at a place. -/
def SpanAt (ts : List Terminal) (i : Nat) (span : Span) : Prop :=
  ∃ t, ts[i]? = some t ∧
    span.start = (textOf (ts.take i)).width + (Trivia.text t.leading).width ∧
    span.stop = span.start + t.text.width

/-- The text of such a span is the token. -/
theorem SpanAt.text? {ts : List Terminal} {i : Nat} {span : Span} (h : SpanAt ts i span) :
    ∃ t, ts[i]? = some t ∧ span.text? (textOf ts) = some t.text := by
  obtain ⟨t, ht, hstart, hstop⟩ := h
  obtain ⟨hi, rfl⟩ := List.getElem?_eq_some_iff.mp ht
  have hcut : textOf ts = textOf (ts.take i) ++ Trivia.text ts[i].leading ++ ts[i].text ++
      (Trivia.text ts[i].trailing ++ textOf (ts.drop (i + 1))) := by
    calc textOf ts
      _ = textOf (ts.take i ++ ts[i] :: ts.drop (i + 1)) := by
        rw [List.getElem_cons_drop, List.take_append_drop]
      _ = _ := by
        simp only [textOf, List.flatMap_append, List.flatMap_cons, Terminal.fullText,
          List.append_assoc]
  refine ⟨_, ht, ?_⟩
  have hslice := Text.slice?_width (textOf (ts.take i) ++ Trivia.text ts[i].leading) ts[i].text
    (Trivia.text ts[i].trailing ++ textOf (ts.drop (i + 1)))
  rw [Span.text?, hstop, hstart, hcut, ← Text.width_append]
  exact hslice

/-- The token of a terminal, found after those before it. -/
theorem spanAt_append (before : List Terminal) (t : Terminal) (after : List Terminal) :
    SpanAt (before ++ t :: after) before.length
      ⟨(textOf before).width + (Trivia.text t.leading).width,
        (textOf before).width + (Trivia.text t.leading).width + t.text.width⟩ :=
  ⟨t, by simp, by rw [List.take_left], rfl⟩

theorem width_textOf_concat (before : List Terminal) (t : Terminal) :
    (textOf (before ++ [t])).width = (textOf before).width + (Trivia.text t.leading).width +
      t.text.width + (Trivia.text t.trailing).width := by
  simp [textOf, Terminal.fullText, Nat.add_assoc]

/-- The report and the diagnostic are of one fault, at one place. -/
def ReportedAs (ts : List Terminal) (r : Nat × Fault) (d : Diagnostic) : Prop :=
  d.fault = r.2 ∧ SpanAt ts r.1 d.span

/-- The open bracket of the check is the one at a place. -/
def HeldAs (ts : List Terminal) (x : Nat × Bracket) (o : OpenBracket) : Prop :=
  o.bracket = x.2 ∧ SpanAt ts x.1 o.span

theorem HeldAs.tail {ts : List Terminal} {xs : List (Nat × Bracket)} {stack : List OpenBracket}
    (h : List.Forall₂ (HeldAs ts) xs stack) : List.Forall₂ (HeldAs ts) xs.tail stack.tail := by
  cases h with
  | nil => exact .nil
  | cons _ h => exact h

theorem HeldAs.map_eq {ts : List Terminal} {xs : List (Nat × Bracket)} {stack : List OpenBracket}
    (h : List.Forall₂ (HeldAs ts) xs stack) :
    stack.map OpenBracket.bracket = xs.map Prod.snd := by
  induction h with
  | nil => rfl
  | cons hx _ ih => rw [List.map_cons, List.map_cons, hx.1, ih]

/-- **The check reports the faults of the brackets**, those that are still to come and those of the
brackets that stay open. The induction is on the terminals that are left; the open brackets of the check
are those of the terminals before. -/
theorem forall₂_delimiterDiagnosticsFrom {ts : List Terminal} (after : List Terminal) :
    ∀ before stack, ts = before ++ after → List.Forall₂ (HeldAs ts) (openBrackets before) stack →
      List.Forall₂ (ReportedAs ts)
        ((List.range' before.length after.length).filterMap (closingReport? ts) ++
          (openBrackets ts).reverse.map fun x => (x.1, .unclosed x.2))
        (delimiterDiagnosticsFrom stack (tokenSpans (textOf before).width after)) := by
  induction after with
  | nil =>
    intro before stack hts hstack
    rw [List.append_nil] at hts
    subst hts
    rw [tokenSpans, delimiterDiagnosticsFrom, List.length_nil, List.range'_zero, List.filterMap_nil,
      List.nil_append, List.forall₂_map_left_iff, List.forall₂_map_right_iff, List.forall₂_reverse_iff]
    exact hstack.imp fun x o hx => ⟨congrArg Fault.unclosed hx.1, hx.2⟩
  | cons t after ih =>
    intro before stack hts hstack
    have hnext : ts = (before ++ [t]) ++ after := by rw [hts, List.append_assoc]; rfl
    have hplace : ts[before.length]? = some t := by simp [hts]
    have hbefore : ts.take before.length = before := by simp [hts]
    have hspan := spanAt_append before t after
    rw [← hts] at hspan
    have hrest := ih (before ++ [t])
    rw [openBrackets_concat, List.length_append, List.length_singleton] at hrest
    rw [tokenSpans, ← width_textOf_concat, List.length_cons, List.range'_succ, List.filterMap_cons]
    cases hd : t.delimiter? with
    | none =>
      have hreport : closingReport? ts before.length = none := by
        simp [closingReport?, hplace, hd]
      rw [hd] at hrest
      simp only [hreport]
      rw [delimiterDiagnosticsFrom_other hd]
      exact hrest stack hnext hstack
    | some d =>
      rw [hd] at hrest
      cases d with
      | opening b =>
        have hreport : closingReport? ts before.length = none := by
          simp [closingReport?, hplace, hd]
        simp only [hreport]
        rw [delimiterDiagnosticsFrom_opening hd]
        exact hrest _ hnext (.cons ⟨rfl, hspan⟩ hstack)
      | closing c =>
        have hreport : closingReport? ts before.length =
            (closingFault c (stack.map OpenBracket.bracket)).map fun f => (before.length, f) := by
          simp [closingReport?, hplace, hd, hbefore, HeldAs.map_eq hstack]
        have htail := HeldAs.tail hstack
        rw [hreport, delimiterDiagnosticsFrom_closing hd]
        cases closingFault c (stack.map OpenBracket.bracket) with
        | none => exact hrest _ hnext htail
        | some f => exact .cons ⟨rfl, hspan⟩ (hrest _ hnext htail)

/-- **The delimiters of a file are checked exactly.** Nothing is reported if and only if the brackets of the
file are a balanced word. In general the diagnostics are, one for one, those of the terminals whose bracket
offends, no terminal has two of them, and the text at the span of each is the token of its terminal. -/
theorem delimiters_are_checked (file : SourceFile) :
    (file.delimiterDiagnostics = [] ↔
      Balanced (file.terminals.filterMap Terminal.delimiter?)) ∧
    ∃ reports : List (Nat × Fault),
      List.Forall₂ (fun r d => d.fault = r.2 ∧ SpanAt file.terminals r.1 d.span ∧
        ∃ t, file.terminals[r.1]? = some t ∧ d.span.text? file.text = some t.text)
        reports file.delimiterDiagnostics ∧
      (reports.map Prod.fst).Nodup ∧
      ∀ i f, (i, f) ∈ reports ↔ Offends file.terminals i f := by
  refine ⟨?_, bracketReports file.terminals, ?_, nodup_bracketReports _, fun i f => mem_bracketReports⟩
  · have hword : (tokenSpans 0 file.terminals).filterMap (·.1.delimiter?) =
        file.terminals.filterMap Terminal.delimiter? := by
      conv_rhs => rw [← map_fst_tokenSpans 0 file.terminals]
      rw [List.filterMap_map]
      rfl
    rw [SourceFile.delimiterDiagnostics, delimiterDiagnosticsFrom_eq_nil_iff, hword]
    rfl
  · have hall := forall₂_delimiterDiagnosticsFrom file.terminals [] [] rfl .nil
    rw [List.length_nil, ← List.range_eq_range'] at hall
    exact hall.imp fun r d h => ⟨h.1, h.2, h.2.text?⟩

end Uncomment
