import Uncomment.Lexer.File

/-!
# The lexer reproduces its input

Whatever the text is, faulty or not, its terminals put together are the text, and the lexer stands at
the end of what it has read after each of them. All terminals but the last hold a token; the last one
is the end of the file, with nothing in it and nothing after it.

The steps are facts about one terminal, carried along `lexFrom`: what is left after some terminals is
read by the same lexer (`lexFrom_suffix`), and a list of terminals is tokens and an end
(`lexFrom_tokens`).
-/

namespace Uncomment

/-! ## Offsets -/

/-- The offset after a terminal is the width of everything up to it. -/
theorem endOffsetsFrom_getElem? (ls : List LexedTerminal) :
    ∀ (offset i : Nat), i < ls.length →
    (endOffsetsFrom offset ls)[i]? =
      some (offset + (textOf ((ls.take (i + 1)).map LexedTerminal.terminal)).width) := by
  induction ls with
  | nil => intro offset i hi; simp at hi
  | cons l rest ih =>
    intro offset i hi
    cases i with
    | zero => simp [endOffsetsFrom, LexedTerminal.width]
    | succ i =>
      have hrest := ih (offset + l.width) i (by simpa using hi)
      simp only [endOffsetsFrom, List.getElem?_cons_succ, List.take_succ_cons, List.map_cons,
        textOf_cons, Text.width_append]
      rw [hrest, LexedTerminal.width, Nat.add_assoc]

/-! ## What is left after some terminals -/

/-- **After some of its terminals the lexer goes on with the rest of the text.** -/
theorem lexFrom_suffix (state : LexState) (t : Text) :
    ∀ before after, lexFrom state t = before ++ after →
    ∃ state' rest, textOf (before.map LexedTerminal.terminal) ++ rest = t ∧
      (after ≠ [] → after = lexFrom state' rest) := by
  fun_induction lexFrom state t with
  | case1 state t leading h =>
    intro before after hcut
    cases before with
    | nil =>
      refine ⟨state, t, rfl, fun _ => ?_⟩
      rw [lexFrom]
      split
      · rw [← List.nil_append after, ← hcut]
      · next token hsome => rw [h] at hsome; simp at hsome
    | cons l before =>
      obtain ⟨rfl, hnil⟩ := List.cons.inj hcut
      obtain ⟨rfl, rfl⟩ := List.append_eq_nil_iff.mp hnil.symm
      refine ⟨state, [], ?_, fun hne => absurd rfl hne⟩
      have htext := text_lexFrom state t
      rw [lexFrom] at htext
      split at htext
      · simpa using htext
      · next token hsome => rw [h] at hsome; simp at hsome
  | case2 state t leading token h trailing ih =>
    intro before after hcut
    cases before with
    | nil =>
      refine ⟨state, t, rfl, fun _ => ?_⟩
      rw [lexFrom]
      split
      · next hnone => rw [h] at hnone; simp at hnone
      · next token' hsome =>
        rw [h] at hsome
        cases hsome
        rw [← List.nil_append after, ← hcut]
    | cons l before =>
      obtain ⟨rfl, htail⟩ := List.cons.inj hcut
      obtain ⟨state', rest, htext, hafter⟩ := ih before after htail
      refine ⟨state', rest, ?_, hafter⟩
      simp only [List.map_cons, textOf_cons, LexedTerminal.fullText_terminal, List.append_assoc]
      rw [htext, append_readTrivia, (sound_readToken h).1, append_readTrivia]

/-! ## Tokens and the end -/

theorem kind_readToken {t : Text} {token : ReadToken} (h : readToken t = some token) :
    token.kind ≠ .endOfFile := by
  cases t with
  | nil => simp [readToken] at h
  | cons c rest =>
    simp only [readToken, Option.some.injEq] at h
    subst h
    split
    · simp [ReadToken.plain]
    · split
      · simp [ReadToken.closed]
      · split
        · simp [ReadToken.closed]
        · split
          · simp [ReadToken.closed]
          · split
            · simp only [ReadToken.word, ReadToken.plain]
              split <;> simp
            · simp only [ReadToken.symbol]
              split <;> simp [ReadToken.plain]

/-- All terminals but the last hold a token, and the last is an empty end of the file. -/
theorem lexFrom_tokens (state : LexState) (t : Text) :
    ∃ tokens last, lexFrom state t = tokens ++ [last] ∧
      (∀ l ∈ tokens, l.text ≠ [] ∧ l.kind ≠ .endOfFile) ∧
      last.kind = .endOfFile ∧ last.text = [] ∧ last.trailing = [] := by
  fun_induction lexFrom state t with
  | case1 state t leading h =>
    exact ⟨[], .atEnd leading, rfl, by simp, rfl, rfl, rfl⟩
  | case2 state t leading token h trailing ih =>
    obtain ⟨tokens, last, heq, htokens, hlast⟩ := ih
    refine ⟨_ :: tokens, last, by rw [heq]; rfl, ?_, hlast⟩
    intro l hl
    rcases List.mem_cons.mp hl with rfl | hl
    · exact ⟨(sound_readToken h).2, kind_readToken h⟩
    · exact htokens l hl

/-! ## The whole reading -/

/-- The text of the first terminals of a reading. -/
def textBefore (ls : List LexedTerminal) (n : Nat) : Text :=
  textOf ((ls.take n).map LexedTerminal.terminal)

/-- **The lexer reads every text to its end and reproduces it.** After each terminal it stands where
the text of the terminals so far ends: the text can be cut at that offset, the part before is what was
read, and the part after is what the lexer reads next. No offset is beyond the text. -/
theorem lex_reproduces (t : Text) :
    textOf ((lex t).map LexedTerminal.terminal) = t ∧
    (∀ i < (lex t).length,
      (endOffsetsFrom 0 (lex t))[i]? = some (textBefore (lex t) (i + 1)).width ∧
      (textBefore (lex t) (i + 1)).width ≤ t.width ∧
      ∃ state rest,
        t.cutAt? (textBefore (lex t) (i + 1)).width = some (textBefore (lex t) (i + 1), rest) ∧
        (i + 1 < (lex t).length → (lex t).drop (i + 1) = lexFrom state rest)) ∧
    (∃ tokens last, (lex t).map LexedTerminal.terminal = tokens ++ [last] ∧
      (∀ x ∈ tokens, x.text ≠ [] ∧ x.kind ≠ .endOfFile) ∧
      last.kind = .endOfFile ∧ last.text = [] ∧ last.trailing = []) ∧
    SourceFile.ofTerminals ((lex t).map LexedTerminal.terminal) = .ok (SourceFile.ofText t) := by
  refine ⟨text_lexFrom .initial t, ?_, ?_, ?_⟩
  · intro i hi
    obtain ⟨state, rest, htext, hafter⟩ := lexFrom_suffix .initial t ((lex t).take (i + 1))
      ((lex t).drop (i + 1)) (List.take_append_drop _ _).symm
    have hcut := Text.cutAt?_width (textBefore (lex t) (i + 1)) rest
    have hwidth := Text.width_append (textBefore (lex t) (i + 1)) rest
    rw [textBefore, htext] at hcut hwidth
    refine ⟨?_, ?_, state, rest, hcut, ?_⟩
    · rw [endOffsetsFrom_getElem? (lex t) 0 i hi, Nat.zero_add]
      rfl
    · rw [hwidth]
      exact Nat.le_add_right _ _
    · intro hlt
      refine hafter ?_
      rw [ne_eq, List.drop_eq_nil_iff, Nat.not_le]
      exact hlt
  · obtain ⟨tokens, last, heq, htokens, hkind, htext, htrailing⟩ := lexFrom_tokens .initial t
    refine ⟨tokens.map LexedTerminal.terminal, last.terminal, ?_, ?_, hkind, htext, ?_⟩
    · rw [lex, heq, List.map_append]
      rfl
    · intro x hx
      obtain ⟨l, hl, rfl⟩ := List.mem_map.mp hx
      exact htokens l hl
    · rw [LexedTerminal.terminal, htrailing]
      rfl
  · exact dif_pos (ends_lexFrom .initial t)

end Uncomment
