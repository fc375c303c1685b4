import Uncomment.Proofs.ConditionGrammar

/-!
# Printing conditions

A condition is printed with no more parentheses than the grammar asks for: around an operand that binds less
than the place it stands in. What is printed is a text of the condition, whatever its operands are, so it is
evaluated to the value of the condition.

What has to be said of a printed operand is that it can be followed by any text that ends a name: by a blank, a
closing parenthesis or the end.
-/

namespace Uncomment

namespace Condition

/-! ## Printing -/

/-- A text, in parentheses if need be. -/
def inParens (needed : Bool) (t : Text) : Text :=
  if needed then '(' :: t ++ [')'] else t

/-- A condition as a text, where an operand of a precedence may stand. Only what binds less is put in
parentheses. -/
def printAt (least : Nat) : Condition → Text
  | constant true => "true".toList
  | constant false => "false".toList
  | .symbol name => name
  | .negation operand => '!' :: printAt 4 operand
  | .binary operator left right =>
    inParens (operator.precedence < least)
      (printAt operator.precedence left ++
        ' ' :: ((Token.binary operator).text ++ ' ' :: printAt (operator.precedence + 1) right))

/-- A condition as a text, with the parentheses the grammar asks for. -/
def print (c : Condition) : Text :=
  printAt 0 c

/-- The symbols of a condition are names that can be defined. -/
def Named : Condition → Prop
  | constant _ => True
  | .symbol name => Compilation.isSymbol name = true
  | .negation operand => operand.Named
  | .binary _ left right => left.Named ∧ right.Named

/-- A unary stands at every layer. -/
theorem Derives.ofUnary (h : Derives .unary tokens c) (least : Nat) :
    Derives (layerAt least) tokens c := by
  have hunary : Derives (layerAt (least + 4)) tokens c := h
  exact hunary.loosen (Nat.le_add_right least 4)

/-- The text is read as the condition at a layer, in front of any text that ends a name. -/
def WrittenAt (least : Nat) (t : Text) (c : Condition) : Prop :=
  ∃ tokens, Derives (layerAt least) tokens c ∧
    ∀ more rest, (∀ d ∈ more.head?, isIdentifierPart d = false) → Tokenises more rest →
      Tokenises (t ++ more) (tokens ++ rest)

namespace WrittenAt

variable {t u : Text}

theorem loosen (h : WrittenAt most t c) (hle : least ≤ most) : WrittenAt least t c := by
  obtain ⟨tokens, hderives, hreads⟩ := h
  exact ⟨tokens, hderives.loosen hle, hreads⟩

theorem name {name : Text} (hproper : (Token.name name).Proper) (least : Nat) :
    WrittenAt least name (ofName name) := by
  refine ⟨[.name name], (Derives.name name).ofUnary least, fun more rest hends hmore => ?_⟩
  exact .token hproper hends hmore

theorem negation (h : WrittenAt 4 t c) (hhead : t ≠ [] ∧ t.head? ≠ some '=') (least : Nat) :
    WrittenAt least ('!' :: t) (.negation c) := by
  obtain ⟨tokens, hderives, hreads⟩ := h
  refine ⟨.not :: tokens, (Derives.negation hderives).ofUnary least, fun more rest hends hmore => ?_⟩
  have hnot : (t ++ more).head? ≠ some '=' := by
    rw [List.head?_append_of_ne_nil t hhead.1]
    exact hhead.2
  exact @Tokenises.token .not _ _ trivial hnot (hreads more rest hends hmore)

theorem binary {operator : BinaryOperator} (hleft : WrittenAt operator.precedence t c)
    (hright : WrittenAt (operator.precedence + 1) u d) :
    WrittenAt operator.precedence (t ++ ' ' :: ((Token.binary operator).text ++ ' ' :: u))
      (.binary operator c d) := by
  obtain ⟨left, hleft, htokens⟩ := hleft
  obtain ⟨right, hright, htokens'⟩ := hright
  refine ⟨left ++ .binary operator :: right, .binary hleft hright, fun more rest hends hmore => ?_⟩
  have hafter : Tokenises (' ' :: (u ++ more)) (right ++ rest) :=
    .blank (by decide) (htokens' more rest hends hmore)
  have hoperator : Tokenises (' ' :: ((Token.binary operator).text ++ ' ' :: (u ++ more)))
      (.binary operator :: (right ++ rest)) :=
    .blank (by decide) (.token trivial trivial hafter)
  have hblank : isIdentifierPart ' ' = false := by decide +kernel
  have hall := htokens _ _ (by simpa using hblank) hoperator
  simpa using hall

theorem parenthesised (h : WrittenAt 0 t c) (least : Nat) :
    WrittenAt least ('(' :: t ++ [')']) c := by
  obtain ⟨tokens, hderives, hreads⟩ := h
  refine ⟨.openParen :: tokens ++ [.closeParen], (Derives.parenthesised hderives).ofUnary least,
    fun more rest hends hmore => ?_⟩
  have hclose : Tokenises (')' :: more) (.closeParen :: rest) :=
    @Tokenises.token .closeParen _ _ trivial trivial hmore
  have hparen : isIdentifierPart ')' = false := by decide +kernel
  have hinner := hreads _ _ (by simpa using hparen) hclose
  have hall := @Tokenises.token .openParen _ _ trivial trivial hinner
  simpa [Token.text] using hall

theorem inParens {operator : BinaryOperator} (h : WrittenAt operator.precedence t c) (least : Nat) :
    WrittenAt least (Condition.inParens (operator.precedence < least) t) c := by
  by_cases hlt : operator.precedence < least
  · simp only [Condition.inParens, hlt, decide_true, if_true]
    exact (h.loosen (Nat.zero_le _)).parenthesised least
  · simp only [Condition.inParens, hlt, decide_false, Bool.false_eq_true, if_false]
    exact h.loosen (Nat.le_of_not_lt hlt)

end WrittenAt

/-- A name that can be defined is a symbol. -/
theorem isSymbol_eq_true_iff {name : Text} : Compilation.isSymbol name = true ↔
    (Token.name name).Proper ∧ name ≠ "true".toList ∧ name ≠ "false".toList := by
  simp [Compilation.isSymbol, Token.Proper, and_assoc]

theorem proper_constant : (Token.name "true".toList).Proper ∧ (Token.name "false".toList).Proper := by
  have hall : ("true".toList ++ "false".toList).all isIdentifierPart = true := by decide +kernel
  rw [List.all_append, Bool.and_eq_true, List.all_eq_true, List.all_eq_true] at hall
  exact ⟨⟨by decide, hall.1⟩, ⟨by decide, hall.2⟩⟩

/-- What is printed begins with something, which is no `=`. -/
theorem head?_printAt {c : Condition} (h : c.Named) (least : Nat) :
    printAt least c ≠ [] ∧ (printAt least c).head? ≠ some '=' := by
  induction c generalizing least with
  | constant value => cases value <;> exact ⟨by simp [printAt], by simp [printAt]⟩
  | symbol name =>
    obtain ⟨hne, hall⟩ := (isSymbol_eq_true_iff.mp h).1
    refine ⟨hne, fun hhead => ?_⟩
    have hpart := hall '=' (List.mem_of_mem_head? hhead)
    rw [show isIdentifierPart '=' = false by decide +kernel] at hpart
    cases hpart
  | negation operand => exact ⟨by simp [printAt], by simp [printAt]⟩
  | binary operator left right ihl _ =>
    unfold printAt Condition.inParens
    split
    · exact ⟨by simp, by simp⟩
    · obtain ⟨hne, hhead⟩ := ihl h.1 operator.precedence
      rw [List.head?_append_of_ne_nil _ hne]
      exact ⟨by simp, hhead⟩

/-- **What is printed is read.** -/
theorem writtenAt_printAt {c : Condition} (h : c.Named) (least : Nat) :
    WrittenAt least (printAt least c) c := by
  induction c generalizing least with
  | constant value =>
    cases value with
    | true => exact WrittenAt.name proper_constant.1 least
    | false => exact WrittenAt.name proper_constant.2 least
  | symbol name =>
    obtain ⟨hproper, htrue, hfalse⟩ := isSymbol_eq_true_iff.mp h
    have hname := WrittenAt.name hproper least
    rwa [ofName, if_neg htrue, if_neg hfalse] at hname
  | negation operand ih =>
    have hoperand : operand.Named := h
    exact (ih hoperand 4).negation (head?_printAt hoperand 4) least
  | binary operator left right ihl ihr =>
    exact ((ihl h.1 _).binary (ihr h.2 _)).inParens least

end Condition

/-! ## Evaluation -/

namespace Compilation

open Condition

/-- A text is evaluated to the value of its condition, if it is one. -/
theorem evaluate?_eq_some_iff {state : Compilation} {t : Text} {v : Bool} :
    state.evaluate? t = some v ↔
      ∃ c, parse? t = some c ∧ (v = true ↔ c.Holds state.symbols.toFinset) := by
  rw [evaluate?, Option.map_eq_some_iff]
  refine exists_congr fun c => and_congr_right fun _ => ?_
  rw [← eval_eq_true_iff]
  cases v <;> cases c.eval state.symbols <;> simp

/-- **Conditions are evaluated as the grammar says**, for every text and whatever symbols are defined.

* A text has a value exactly if it is cut into tokens that are derived from an or, and it is the value of the
  tree that is derived.
* Every other text is an invalid expression.
* A condition whose symbols are names that can be defined, printed with the parentheses the grammar asks for, has
  its own value. -/
theorem evaluate_follows_grammar (state : Compilation) (t : Text) :
    (∀ v, state.evaluate? t = some v ↔ ∃ tokens c, Tokenises t tokens ∧ Derives .or tokens c ∧
      (v = true ↔ c.Holds state.symbols.toFinset)) ∧
    (conditionError (state.evaluate? t) = some .invalidExpression ↔
      ¬∃ tokens c, Tokenises t tokens ∧ Derives .or tokens c) ∧
    (∀ c : Condition, c.Named →
      state.evaluate? c.print = some (decide (c.Holds state.symbols.toFinset))) := by
  refine ⟨fun v => ?_, ?_, fun c hnamed => ?_⟩
  · rw [evaluate?_eq_some_iff]
    constructor
    · rintro ⟨c, hparse, hvalue⟩
      obtain ⟨tokens, htokens, hderives⟩ := parse?_eq_some_iff.mp hparse
      exact ⟨tokens, c, htokens, hderives, hvalue⟩
    · rintro ⟨tokens, c, htokens, hderives, hvalue⟩
      exact ⟨c, parse?_eq_some_iff.mpr ⟨tokens, htokens, hderives⟩, hvalue⟩
  · have hinvalid : conditionError (state.evaluate? t) = some .invalidExpression ↔
        parse? t = none := by
      rw [evaluate?]
      cases parse? t with
      | none => exact ⟨fun _ => rfl, fun _ => rfl⟩
      | some c => simp [conditionError]
    rw [hinvalid, Option.eq_none_iff_forall_ne_some]
    constructor
    · rintro hnone ⟨tokens, c, htokens, hderives⟩
      exact hnone c (parse?_eq_some_iff.mpr ⟨tokens, htokens, hderives⟩)
    · intro hnone c hparse
      obtain ⟨tokens, htokens, hderives⟩ := parse?_eq_some_iff.mp hparse
      exact hnone ⟨tokens, c, htokens, hderives⟩
  · rw [evaluate?_eq_some_iff]
    obtain ⟨tokens, hderives, hreads⟩ := writtenAt_printAt hnamed 0
    have htokens : Tokenises c.print tokens := by
      simpa [print] using hreads [] [] (by simp) .done
    exact ⟨c, parse?_eq_some_iff.mpr ⟨tokens, htokens, hderives⟩, decide_eq_true_iff⟩

/-- Parentheses stand where an operand binds less, and nowhere else. -/
theorem evaluate_follows_grammar_of_parentheses :
    let state : Compilation := ⟨[['A']], []⟩
    let c : Condition := .binary .and (.binary .or (.symbol ['A']) (.symbol ['B']))
      (.negation (.symbol ['B']))
    c.print = "(A || B) && !B".toList ∧ state.evaluate? c.print = some true := by
  intro state c
  have hnamed : c.Named := by
    refine ⟨⟨?_, ?_⟩, ?_⟩ <;> show isSymbol _ = true <;> decide +kernel
  exact ⟨by decide, (evaluate_follows_grammar state []).2.2 c hnamed⟩

end Compilation

end Uncomment
