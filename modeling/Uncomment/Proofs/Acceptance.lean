import Uncomment.Diagnostic.Analysis

/-!
# Texts that are accepted

A text is accepted if no piece of it has a fault and its brackets are balanced
(`parse_eq_ok_iff`). The second part is a matter of the tokens alone: where the spans of the tokens are
does not decide what is found wrong with the brackets (`fault_delimiterDiagnosticsFrom`).
-/

namespace Uncomment

/-! ## Faults -/

/-- No piece of the terminal has a fault. -/
structure LexedTerminal.Clean (l : LexedTerminal) : Prop where
  leading : ∀ x ∈ l.leading, x.fault = none
  fault : l.fault = none
  trailing : ∀ x ∈ l.trailing, x.fault = none

theorem faultAt_eq_nil_iff {offset : Nat} {text : Text} {fault : Option Fault} :
    faultAt offset text fault = [] ↔ fault = none := by
  cases fault <;> simp [faultAt]

theorem triviaDiagnostics_eq_nil_iff {xs : List (Noted Trivium)} {offset : Nat} :
    triviaDiagnostics offset xs = [] ↔ ∀ x ∈ xs, x.fault = none := by
  induction xs generalizing offset with
  | nil => simp [triviaDiagnostics]
  | cons x rest ih => simp [triviaDiagnostics, faultAt_eq_nil_iff, ih]

theorem LexedTerminal.diagnostics_eq_nil_iff {l : LexedTerminal} {offset : Nat} :
    l.diagnostics offset = [] ↔ l.Clean := by
  simp only [diagnostics, List.append_eq_nil_iff, triviaDiagnostics_eq_nil_iff, faultAt_eq_nil_iff]
  constructor
  · rintro ⟨⟨hleading, hfault⟩, htrailing⟩
    exact ⟨hleading, hfault, htrailing⟩
  · rintro ⟨hleading, hfault, htrailing⟩
    exact ⟨⟨hleading, hfault⟩, htrailing⟩

theorem lexDiagnosticsFrom_eq_nil_iff {ls : List LexedTerminal} {offset : Nat} :
    lexDiagnosticsFrom offset ls = [] ↔ ∀ l ∈ ls, l.Clean := by
  induction ls generalizing offset with
  | nil => simp [lexDiagnosticsFrom]
  | cons l rest ih =>
    simp [lexDiagnosticsFrom, LexedTerminal.diagnostics_eq_nil_iff, ih]

/-! ## Brackets -/

/-- What a terminal is, apart from its trivia. -/
def Terminal.token (t : Terminal) : TokenKind × Text := (t.kind, t.text)

/-- **What is wrong with the brackets depends on the tokens alone**, not on where they are. -/
theorem fault_delimiterDiagnosticsFrom {xs ys : List (Terminal × Span)}
    (h : xs.map (·.1.token) = ys.map (·.1.token)) {stack stack' : List OpenBracket}
    (hstack : stack.map OpenBracket.bracket = stack'.map OpenBracket.bracket) :
    (delimiterDiagnosticsFrom stack xs).map Diagnostic.fault =
      (delimiterDiagnosticsFrom stack' ys).map Diagnostic.fault := by
  induction xs generalizing ys stack stack' with
  | nil =>
    cases ys with
    | nil =>
      have hunclosed : ∀ s : List OpenBracket,
          (delimiterDiagnosticsFrom s []).map Diagnostic.fault =
            (s.map OpenBracket.bracket).reverse.map Fault.unclosed := by
        intro s
        simp [delimiterDiagnosticsFrom]
      rw [hunclosed, hunclosed, hstack]
    | cons y rest => simp at h
  | cons x xs ih =>
    cases ys with
    | nil => simp at h
    | cons y ys =>
      obtain ⟨t, span⟩ := x
      obtain ⟨t', span'⟩ := y
      simp only [List.map_cons, List.cons.injEq, Terminal.token, Prod.mk.injEq] at h
      obtain ⟨⟨hkind, htext⟩, hrest⟩ := h
      simp only [delimiterDiagnosticsFrom, ← hkind, ← htext]
      split
      · split
        · exact ih hrest (by simpa using hstack)
        · exact ih hrest hstack
        · -- A closing bracket is compared with the innermost open one, of which only the pair counts.
          cases stack with
          | nil =>
            obtain rfl : stack' = [] := by simpa using hstack.symm
            simp only [List.map_cons]
            rw [ih hrest rfl]
          | cons innermost outer =>
            cases stack' with
            | nil => simp at hstack
            | cons innermost' outer' =>
              simp only [List.map_cons, List.cons.injEq] at hstack
              obtain ⟨hbracket, houter⟩ := hstack
              simp only [hbracket]
              split
              · exact ih hrest houter
              · simp only [List.map_cons]
                rw [ih hrest houter]
      · exact ih hrest hstack

theorem token_tokenSpans (terminals : List Terminal) (offset : Nat) :
    (tokenSpans offset terminals).map (·.1.token) = terminals.map Terminal.token := by
  induction terminals generalizing offset with
  | nil => rfl
  | cons t rest ih => simp [tokenSpans, ih]

/-- Files with the same tokens are balanced or not balanced together. -/
theorem delimiterDiagnostics_eq_nil {file file' : SourceFile}
    (h : file'.terminals.map Terminal.token = file.terminals.map Terminal.token)
    (hbalanced : file.delimiterDiagnostics = []) : file'.delimiterDiagnostics = [] := by
  have htokens : (tokenSpans 0 file'.terminals).map (·.1.token) =
      (tokenSpans 0 file.terminals).map (·.1.token) := by
    rw [token_tokenSpans, token_tokenSpans, h]
  have hfaults : file'.delimiterDiagnostics.map Diagnostic.fault =
      file.delimiterDiagnostics.map Diagnostic.fault :=
    fault_delimiterDiagnosticsFrom htokens rfl
  rw [hbalanced] at hfaults
  exact List.map_eq_nil_iff.mp hfaults

/-! ## Acceptance -/

theorem sortDiagnostics_eq_nil_iff {diagnostics : List Diagnostic} :
    sortDiagnostics diagnostics = [] ↔ diagnostics = [] := by
  rw [← List.length_eq_zero_iff, sortDiagnostics, List.length_mergeSort, List.length_eq_zero_iff]

/-- **A text is accepted exactly if it has no fault and its brackets are balanced.** -/
theorem parse_eq_ok_iff {t : Text} {file : SourceFile} :
    SourceFile.parse t = .ok file ↔
      file = .ofText t ∧ (∀ l ∈ lex t, l.Clean) ∧ (SourceFile.ofText t).delimiterDiagnostics = [] := by
  have hempty : (Analysis.ofText t).diagnostics.isEmpty = true ↔
      (∀ l ∈ lex t, l.Clean) ∧ (SourceFile.ofText t).delimiterDiagnostics = [] := by
    rw [List.isEmpty_iff, Analysis.ofText, sortDiagnostics_eq_nil_iff, List.append_eq_nil_iff,
      lexDiagnostics, lexDiagnosticsFrom_eq_nil_iff]
  simp only [SourceFile.parse]
  split
  · next h =>
    have hclean := hempty.mp h
    constructor
    · intro heq
      cases heq
      exact ⟨rfl, hclean⟩
    · rintro ⟨rfl, _⟩
      rfl
  · next h =>
    constructor
    · intro heq
      cases heq
    · rintro ⟨_, hclean⟩
      exact absurd (hempty.mpr hclean) h

/-- A text about which nothing is reported is accepted. -/
theorem parse_of_diagnostics {t : Text} (h : (Analysis.ofText t).diagnostics = []) :
    SourceFile.parse t = .ok (.ofText t) := by
  simp only [SourceFile.parse, h]
  rfl

end Uncomment
