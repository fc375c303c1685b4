import Uncomment.Directive.Condition
import Uncomment.Proofs.Agreement

/-!
# Tokens of a condition

How a condition is cut into tokens, said without an order in which the cuts are tried: a text is its tokens
written one after the other, with any white space between them, where a name runs as far as it can and a
negation is not the beginning of `!=` (`Tokenises`). A text has at most one such reading, and `tokenize`
finds it if there is one.
-/

namespace Uncomment

namespace Condition

namespace Token

/-- How a token is written. -/
def text : Token → Text
  | name text => text
  | not => ['!']
  | openParen => ['(']
  | closeParen => [')']
  | binary .or => ['|', '|']
  | binary .and => ['&', '&']
  | binary .equal => ['=', '=']
  | binary .notEqual => ['!', '=']

@[simp] theorem text_name (t : Text) : (name t).text = t := rfl

/-- A name is made of the characters of identifiers. -/
def Proper : Token → Prop
  | name text => text ≠ [] ∧ ∀ c ∈ text, isIdentifierPart c = true
  | _ => True

/-- The token ends where the text begins: a name does not go on, nor does `!` become `!=`. -/
def EndsBefore (t : Text) : Token → Prop
  | name _ => ∀ c ∈ t.head?, isIdentifierPart c = false
  | not => t.head? ≠ some '='
  | _ => True

end Token

/-- The tokens of a text, in order. -/
inductive Tokenises : Text → List Token → Prop where
  | done : Tokenises [] []
  | blank {c : Char} {t : Text} {tokens : List Token} (hc : isBlank c = true)
      (h : Tokenises t tokens) : Tokenises (c :: t) tokens
  | token {token : Token} {t : Text} {tokens : List Token} (hproper : token.Proper)
      (hends : token.EndsBefore t) (h : Tokenises t tokens) :
      Tokenises (token.text ++ t) (token :: tokens)

/-! ## Operators -/

/-- The operator or parenthesis a text begins with is a token there. -/
theorem token_of_operator? {t after : Text} {token : Token} (h : operator? t = some (token, after)) :
    t = token.text ++ after ∧ token.Proper ∧ token.EndsBefore after := by
  unfold operator? at h
  split at h <;> simp only [Option.some.injEq, Prod.mk.injEq, reduceCtorEq] at h <;>
    obtain ⟨rfl, rfl⟩ := h
  case h_5 rest hne =>
    refine ⟨rfl, trivial, fun hhead => ?_⟩
    obtain ⟨rest', rfl⟩ := List.head?_eq_some_iff.mp hhead
    exact hne rest' rfl
  all_goals exact ⟨rfl, trivial, trivial⟩

/-- A token that is no name is found. -/
theorem operator?_token {t : Text} {token : Token} (hname : ∀ text, token ≠ .name text)
    (hends : token.EndsBefore t) : operator? (token.text ++ t) = some (token, t) := by
  cases token with
  | name text => exact absurd rfl (hname text)
  | not =>
    cases t with
    | nil => rfl
    | cons c t =>
      have hc : c ≠ '=' := by simpa [Token.EndsBefore] using hends
      show operator? ('!' :: c :: t) = some (.not, c :: t)
      unfold operator?
      split <;> simp_all
  | openParen => rfl
  | closeParen => rfl
  | binary operator => cases operator <;> rfl

/-- No operator begins with a character of identifiers. -/
theorem operator?_of_isIdentifierPart {c : Char} (hc : isIdentifierPart c = true) (t : Text) :
    operator? (c :: t) = none := by
  have hnone : ['&', '|', '=', '!', '(', ')'].any isIdentifierPart = false := by
    decide +kernel
  have hne : c ∉ ['&', '|', '=', '!', '(', ')'] :=
    fun hmem => absurd hc (List.any_eq_false.mp hnone c hmem)
  unfold operator?
  split
  case h_8 => rfl
  all_goals
    next heq =>
      obtain ⟨rfl, -⟩ := List.cons.inj heq
      simp at hne

/-! ## One token at a time -/

theorem tokenize_blank {c : Char} (hc : isBlank c = true) (t : Text) :
    tokenize (c :: t) = tokenize t := by
  rw [tokenize, if_pos hc]

theorem tokenize_operator {c : Char} {t after : Text} {token : Token} (hc : isBlank c = false)
    (h : operator? (c :: t) = some (token, after)) :
    tokenize (c :: t) = (tokenize after).map (token :: ·) := by
  rw [tokenize, if_neg (by simp [hc])]
  split
  · next token' after' h' =>
    obtain ⟨rfl, rfl⟩ : token = token' ∧ after = after' := by simpa [h] using h'
    rfl
  · next h' => simp [h] at h'

theorem isBlank_of_isIdentifierPart {c : Char} (hc : isIdentifierPart c = true) :
    isBlank c = false := by
  cases hblank : isBlank c with
  | false => rfl
  | true => rw [← hc, inner_isIdentifierPart c (Or.inl hblank)]

theorem tokenize_name {name t : Text} (hname : (Token.name name).Proper)
    (hends : (Token.name name).EndsBefore t) :
    tokenize (name ++ t) = (tokenize t).map (Token.name name :: ·) := by
  obtain ⟨hne, hall⟩ := hname
  obtain ⟨htake, hdrop⟩ : (name ++ t).takeWhile isIdentifierPart = name ∧
      (name ++ t).dropWhile isIdentifierPart = t := by
    rw [List.takeWhile_append_of_pos hall, List.dropWhile_append_of_pos hall]
    cases t with
    | nil => exact ⟨List.append_nil name, rfl⟩
    | cons d t =>
      have hd : isIdentifierPart d = false := hends d rfl
      simp [hd]
  obtain ⟨c, rest, rfl⟩ := List.exists_cons_of_ne_nil hne
  have hpart : isIdentifierPart c = true := hall c (by simp)
  rw [List.cons_append] at htake hdrop ⊢
  rw [tokenize, if_neg (by simp [isBlank_of_isIdentifierPart hpart])]
  split
  · next h =>
    rw [operator?_of_isIdentifierPart hpart] at h
    cases h
  · simp only [htake, hdrop, List.isEmpty_cons, Bool.false_eq_true, dite_false]

/-- **A token is read as what it is** where it ends. -/
theorem tokenize_token {token : Token} {t : Text} (hproper : token.Proper)
    (hends : token.EndsBefore t) :
    tokenize (token.text ++ t) = (tokenize t).map (token :: ·) := by
  by_cases hname : ∃ name, token = .name name
  · obtain ⟨name, rfl⟩ := hname
    exact tokenize_name hproper hends
  · have hoperator := operator?_token (fun name heq => hname ⟨name, heq⟩) hends
    obtain ⟨c, rest, htext, hc⟩ : ∃ c rest, token.text = c :: rest ∧ isBlank c = false := by
      cases token with
      | name name => exact absurd ⟨name, rfl⟩ hname
      | not | openParen | closeParen => exact ⟨_, _, rfl, by decide⟩
      | binary operator => cases operator <;> exact ⟨_, _, rfl, by decide⟩
    rw [htext] at hoperator ⊢
    exact tokenize_operator hc hoperator

/-! ## The tokens of a text -/

/-- **A text that has tokens is cut into them.** -/
theorem Tokenises.tokenize_eq {t : Text} {tokens : List Token} (h : Tokenises t tokens) :
    tokenize t = some tokens := by
  induction h with
  | done => rw [tokenize]
  | blank hc _ ih => rw [tokenize_blank hc, ih]
  | token hproper hends _ ih => rw [tokenize_token hproper hends, ih, Option.map_some]

/-- **What a text is cut into are its tokens.** -/
theorem tokenises_of_tokenize {t : Text} {tokens : List Token} (h : tokenize t = some tokens) :
    Tokenises t tokens := by
  induction t using tokenize.induct generalizing tokens with
  | case1 =>
    rw [tokenize] at h
    obtain rfl := Option.some.inj h
    exact .done
  | case2 c rest hc ih =>
    rw [tokenize_blank hc] at h
    exact .blank hc (ih h)
  | case3 c rest hc token after hoperator ih =>
    rw [tokenize_operator (by simpa using hc) hoperator, Option.map_eq_some_iff] at h
    obtain ⟨tokens, h, rfl⟩ := h
    obtain ⟨heq, hproper, hends⟩ := token_of_operator? hoperator
    rw [heq]
    exact .token hproper hends (ih h)
  | @case4 c rest hc hoperator name hempty =>
    have hnone : (c :: rest).takeWhile isIdentifierPart = [] := List.isEmpty_iff.mp hempty
    rw [tokenize, if_neg hc] at h
    split at h
    · next heq => simp [hoperator] at heq
    · simp [hnone] at h
  | @case5 c rest hc hoperator name hempty ih =>
    -- The name runs as far as it can, and the text goes on behind it.
    have hproper : (Token.name ((c :: rest).takeWhile isIdentifierPart)).Proper := by
      refine ⟨fun hnone => hempty (List.isEmpty_iff.mpr hnone), fun d hd => ?_⟩
      exact (List.all_eq_true.mp List.all_takeWhile) d hd
    have hends : (Token.name ((c :: rest).takeWhile isIdentifierPart)).EndsBefore
        ((c :: rest).dropWhile isIdentifierPart) := by
      intro d hd
      have hnot := List.head?_dropWhile_not isIdentifierPart (c :: rest)
      rw [Option.mem_def.mp hd] at hnot
      simpa using hnot
    have hcut : (c :: rest).takeWhile isIdentifierPart ++ (c :: rest).dropWhile isIdentifierPart =
        c :: rest := List.takeWhile_append_dropWhile
    have hname := tokenize_name hproper hends
    rw [hcut] at hname
    rw [hname, Option.map_eq_some_iff] at h
    obtain ⟨tokens, h, rfl⟩ := h
    have hall := Tokenises.token hproper hends (ih h)
    rw [Token.text_name, hcut] at hall
    exact hall

/-- **A text has the tokens that `tokenize` finds**, and no others. -/
theorem tokenize_eq_some_iff {t : Text} {tokens : List Token} :
    tokenize t = some tokens ↔ Tokenises t tokens :=
  ⟨tokenises_of_tokenize, Tokenises.tokenize_eq⟩

end Condition

end Uncomment
