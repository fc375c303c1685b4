import Uncomment.Proofs.ConditionTokens
import Uncomment.Proofs.NestedBranches

/-!
# The grammar of conditions

Conditions are read with a stack of what is pending. What they mean is a grammar with a layer for every
precedence, in which binary operators associate to the left:

* an or is an and, or an or, `||` and an and;
* an and is an equality, or an and, `&&` and an equality;
* an equality is a unary, or an equality, `==` or `!=` and a unary;
* a unary is `!` and a unary, an or in parentheses, a constant or a symbol.

The two agree on every list of tokens. That what is derived is read takes a statement about every stack the
tokens may be read on, and every layer (`Reads`): after the tokens the parser may still have combined less than
the derivation, but combining what binds at least as tight as the layer gives its tree. That what is read is
derived takes what a stack has to do with the tokens before it (`Waiting`).
-/

namespace Uncomment

namespace Condition

/-! ## Layers -/

/-- The layers of the grammar. -/
inductive Layer where
  | or
  | and
  | equality
  | unary
  deriving DecidableEq, Repr

/-- The tokens that a layer derives, with their tree. -/
inductive Derives : Layer → List Token → Condition → Prop where
  | orOfAnd {tokens : List Token} {c : Condition} (h : Derives .and tokens c) :
    Derives .or tokens c
  | or {left right : List Token} {c d : Condition} (hleft : Derives .or left c)
      (hright : Derives .and right d) :
    Derives .or (left ++ .binary .or :: right) (.binary .or c d)
  | andOfEquality {tokens : List Token} {c : Condition} (h : Derives .equality tokens c) :
    Derives .and tokens c
  | and {left right : List Token} {c d : Condition} (hleft : Derives .and left c)
      (hright : Derives .equality right d) :
    Derives .and (left ++ .binary .and :: right) (.binary .and c d)
  | equalityOfUnary {tokens : List Token} {c : Condition} (h : Derives .unary tokens c) :
    Derives .equality tokens c
  | equal {left right : List Token} {c d : Condition} (hleft : Derives .equality left c)
      (hright : Derives .unary right d) :
    Derives .equality (left ++ .binary .equal :: right) (.binary .equal c d)
  | notEqual {left right : List Token} {c d : Condition} (hleft : Derives .equality left c)
      (hright : Derives .unary right d) :
    Derives .equality (left ++ .binary .notEqual :: right) (.binary .notEqual c d)
  | negation {tokens : List Token} {c : Condition} (h : Derives .unary tokens c) :
    Derives .unary (.not :: tokens) (.negation c)
  | parenthesised {tokens : List Token} {c : Condition} (h : Derives .or tokens c) :
    Derives .unary (.openParen :: tokens ++ [.closeParen]) c
  | constantTrue : Derives .unary [.name "true".toList] (.constant true)
  | constantFalse : Derives .unary [.name "false".toList] (.constant false)
  | symbol {name : Text} (htrue : name ≠ "true".toList) (hfalse : name ≠ "false".toList) :
    Derives .unary [.name name] (.symbol name)

/-- A name is a constant or a symbol. -/
theorem Derives.name (name : Text) : Derives .unary [.name name] (ofName name) := by
  unfold ofName
  split
  · next htrue =>
    rw [htrue]
    exact .constantTrue
  · next htrue =>
    split
    · next hfalse =>
      rw [hfalse]
      exact .constantFalse
    · next hfalse => exact .symbol htrue hfalse

/-- The layer of the operators of a precedence. -/
def layerAt : Nat → Layer
  | 0 | 1 => .or
  | 2 => .and
  | 3 => .equality
  | _ => .unary

/-- What a layer derives, the layers around it derive. -/
theorem Derives.loosen {least most : Nat} {tokens : List Token} {c : Condition}
    (h : Derives (layerAt most) tokens c) (hle : least ≤ most) :
    Derives (layerAt least) tokens c := by
  induction hle using Nat.decreasingInduction with
  | self => exact h
  | of_succ n _ ih =>
    match n with
    | 0 => exact ih
    | 1 => exact .orOfAnd ih
    | 2 => exact .andOfEquality ih
    | 3 => exact .equalityOfUnary ih
    | _ + 4 => exact ih

/-- An operator takes a left side of its own layer, and a right side of the next. -/
theorem Derives.binary {operator : BinaryOperator} {left right : List Token} {c d : Condition}
    (hleft : Derives (layerAt operator.precedence) left c)
    (hright : Derives (layerAt (operator.precedence + 1)) right d) :
    Derives (layerAt operator.precedence) (left ++ .binary operator :: right)
      (.binary operator c d) := by
  cases operator with
  | or => exact .or hleft hright
  | and => exact .and hleft hright
  | equal => exact .equal hleft hright
  | notEqual => exact .notEqual hleft hright

/-! ## What is pending -/

variable {stack : List Pending} {least most : Nat} {c d : Condition} {tokens : List Token}

/-- The stack can wait for an operand of a precedence: there is no negation on top of it, and an operator on
top binds less. -/
def Fits (least : Nat) : List Pending → Prop
  | .negation :: _ => False
  | .operand _ operator :: _ => operator.precedence < least
  | _ => True

theorem Fits.mono (h : Fits least stack) (hle : least ≤ most) : Fits most stack := by
  match stack with
  | [] => exact trivial
  | .negation :: _ => exact h
  | .group :: _ => exact trivial
  | .operand _ operator :: _ => exact Nat.lt_of_lt_of_le h hle

/-- Nothing is combined with an operand the stack can wait for. -/
theorem combined_of_fits (h : Fits least stack) (c : Condition) :
    combined least c stack = (c, stack) := by
  match stack with
  | [] => rfl
  | .negation :: _ => exact h.elim
  | .group :: _ => rfl
  | .operand _ operator :: _ => rw [combined, if_neg (Nat.not_le.mpr h)]

theorem negated_of_fits (h : Fits least stack) (c : Condition) : negated c stack = (c, stack) := by
  match stack with
  | [] => rfl
  | .negation :: _ => exact h.elim
  | .group :: _ => rfl
  | .operand _ _ :: _ => rfl

/-- Combining what binds tight and then what binds less is combining what binds less. -/
theorem combined_combined (hle : least ≤ most) (c : Condition) (stack : List Pending) :
    combined least (combined most c stack).1 (combined most c stack).2 = combined least c stack := by
  induction stack generalizing c with
  | nil => rfl
  | cons pending stack ih =>
    cases pending with
    | negation => rfl
    | group => rfl
    | operand left operator =>
      by_cases hmost : most ≤ operator.precedence
      · have hleast : least ≤ operator.precedence := Nat.le_trans hle hmost
        simp only [combined, if_pos hmost, if_pos hleast]
        exact ih _
      · simp only [combined, if_neg hmost]

/-! ## What is derived is read -/

/-- The tokens are read as a unary, whatever is pending. -/
def ReadsUnary (tokens : List Token) (c : Condition) : Prop :=
  ∀ stack rest, parseFrom stack none (tokens ++ rest) =
    parseFrom (negated c stack).2 (some (negated c stack).1) rest

/-- The tokens are read as an operand of a precedence, but for what is still to be combined. -/
def ReadsAt (least : Nat) (tokens : List Token) (c : Condition) : Prop :=
  ∀ stack, Fits least stack → ∀ rest, ∃ right pending,
    parseFrom stack none (tokens ++ rest) = parseFrom pending (some right) rest ∧
      combined least right pending = (c, stack)

theorem ReadsUnary.readsAt (h : ReadsUnary tokens c) (least : Nat) : ReadsAt least tokens c := by
  intro stack hfits rest
  refine ⟨c, stack, ?_, combined_of_fits hfits c⟩
  rw [h, negated_of_fits hfits]

theorem ReadsAt.loosen (h : ReadsAt most tokens c) (hle : least ≤ most) :
    ReadsAt least tokens c := by
  intro stack hfits rest
  obtain ⟨right, pending, hparse, hcombined⟩ := h stack (hfits.mono hle) rest
  refine ⟨right, pending, hparse, ?_⟩
  rw [← combined_combined hle, hcombined]
  exact combined_of_fits hfits c

theorem ReadsAt.binary (operator : BinaryOperator) {left right : List Token}
    (hleft : ReadsAt operator.precedence left c)
    (hright : ReadsAt (operator.precedence + 1) right d) :
    ReadsAt operator.precedence (left ++ .binary operator :: right) (.binary operator c d) := by
  intro stack hfits rest
  obtain ⟨inner, pending, hparse, hcombined⟩ := hleft stack hfits (.binary operator :: right ++ rest)
  have hwaits : Fits (operator.precedence + 1) (.operand c operator :: stack) :=
    Nat.lt_succ_self operator.precedence
  obtain ⟨inner', pending', hparse', hcombined'⟩ := hright _ hwaits rest
  refine ⟨inner', pending', ?_, ?_⟩
  · rw [List.append_assoc, hparse, List.cons_append, parseFrom, hcombined]
    exact hparse'
  · rw [← combined_combined (Nat.le_succ operator.precedence), hcombined']
    simp only [combined, Nat.le_refl, if_true]
    exact combined_of_fits hfits _

theorem ReadsAt.parenthesised (h : ReadsAt 1 tokens c) :
    ReadsUnary (.openParen :: tokens ++ [.closeParen]) c := by
  intro stack rest
  obtain ⟨right, pending, hparse, hcombined⟩ := h (.group :: stack) trivial (.closeParen :: rest)
  have hall : combined 0 right pending = (c, .group :: stack) := by
    rw [← combined_combined (Nat.zero_le 1), hcombined]
    rfl
  rw [List.cons_append, List.cons_append, parseFrom, List.append_assoc, List.singleton_append,
    hparse, parseFrom, hall]

/-- How the tokens of a layer are read. -/
def Reads : Layer → List Token → Condition → Prop
  | .or => ReadsAt 1
  | .and => ReadsAt 2
  | .equality => ReadsAt 3
  | .unary => ReadsUnary

/-- **What a layer derives is read on every stack that can wait for it.** -/
theorem Derives.reads {layer : Layer} (h : Derives layer tokens c) : Reads layer tokens c := by
  induction h with
  | orOfAnd _ ih => exact ReadsAt.loosen ih (by decide)
  | or _ _ ihl ihr => exact ReadsAt.binary .or ihl ihr
  | andOfEquality _ ih => exact ReadsAt.loosen ih (by decide)
  | and _ _ ihl ihr => exact ReadsAt.binary .and ihl ihr
  | equalityOfUnary _ ih => exact ReadsUnary.readsAt ih 3
  | equal _ _ ihl ihr => exact ReadsAt.binary .equal ihl (ReadsUnary.readsAt ihr 4)
  | notEqual _ _ ihl ihr => exact ReadsAt.binary .notEqual ihl (ReadsUnary.readsAt ihr 4)
  | negation _ ih =>
    intro stack rest
    rw [List.cons_append, parseFrom, ih]
    rfl
  | parenthesised _ ih => exact ReadsAt.parenthesised ih
  | constantTrue => exact fun stack rest => rfl
  | constantFalse => exact fun stack rest => rfl
  | @symbol name htrue hfalse =>
    intro stack rest
    have hname : ofName name = .symbol name := by rw [ofName, if_neg htrue, if_neg hfalse]
    rw [List.singleton_append, parseFrom, hname]

theorem Derives.parseFrom_eq (h : Derives .or tokens c) : parseFrom [] none tokens = some c := by
  have hreads : ReadsAt 1 tokens c := h.reads
  obtain ⟨right, pending, hparse, hcombined⟩ := hreads [] trivial []
  have hall : combined 0 right pending = (c, []) := by
    rw [← combined_combined (Nat.zero_le 1), hcombined]
    rfl
  rw [List.append_nil] at hparse
  rw [hparse, parseFrom, hall]

/-! ## What is read is derived -/

/-- The stack is what is pending after the tokens. -/
inductive Waiting : List Pending → List Token → Prop where
  | nil : Waiting [] []
  | negation {stack : List Pending} {before : List Token} (h : Waiting stack before) :
    Waiting (.negation :: stack) (before ++ [.not])
  | group {stack : List Pending} {before : List Token} (h : Waiting stack before) :
    Waiting (.group :: stack) (before ++ [.openParen])
  /-- The left side of an operator is combined as far as it can be. -/
  | operand {stack : List Pending} {before left : List Token} {c : Condition}
      {operator : BinaryOperator} (h : Waiting stack before) (hfits : Fits operator.precedence stack)
      (hleft : Derives (layerAt operator.precedence) left c) :
    Waiting (.operand c operator :: stack) (before ++ (left ++ [.binary operator]))

/-- After tokens an operand was read, of some precedence, and the rest of what was read is pending. -/
structure OperandRead (least : Nat) (read : List Token) (c : Condition) (stack : List Pending) :
    Prop where
  fits : Fits least stack
  split : ∃ before operand, read = before ++ operand ∧ Waiting stack before ∧
    Derives (layerAt least) operand c

/-- No operator binds as tight as a unary. -/
theorem precedence_lt (operator : BinaryOperator) : operator.precedence < 4 := by
  cases operator <;> decide

/-- A unary takes the negations before it. -/
theorem OperandRead.negated {before operand : List Token} (hwaiting : Waiting stack before)
    (h : Derives .unary operand c) :
    OperandRead 4 (before ++ operand) (negated c stack).1 (negated c stack).2 := by
  induction hwaiting generalizing operand c with
  | nil => exact ⟨trivial, [], operand, rfl, .nil, h⟩
  | negation _ ih =>
    rw [List.append_assoc, List.singleton_append]
    exact ih (.negation h)
  | @group stack before hwaiting =>
    exact ⟨trivial, _, operand, rfl, .group hwaiting, h⟩
  | @operand stack before left c' operator hwaiting hfits hleft =>
    exact ⟨precedence_lt operator, _, operand, rfl, .operand hwaiting hfits hleft, h⟩

/-- **Combining** gives an operand of the layer that is asked for. -/
theorem OperandRead.combined {read : List Token} (h : OperandRead most read c stack)
    (hle : least ≤ most) :
    OperandRead least read (combined least c stack).1 (combined least c stack).2 := by
  obtain ⟨hfits, before, operand, rfl, hwaiting, hderives⟩ := h
  induction hwaiting generalizing operand c most with
  | nil => exact ⟨trivial, [], operand, rfl, .nil, hderives.loosen hle⟩
  | negation => exact hfits.elim
  | @group stack before hwaiting =>
    exact ⟨trivial, _, operand, rfl, .group hwaiting, hderives.loosen hle⟩
  | @operand stack before left c' operator hwaiting hfits' hleft ih =>
    have hlt : operator.precedence < most := hfits
    by_cases hleast : least ≤ operator.precedence
    · have hbinary := Derives.binary hleft (hderives.loosen hlt)
      have hcombined := ih hleast hfits' _ hbinary
      simp only [Condition.combined, if_pos hleast]
      simpa using hcombined
    · simp only [Condition.combined, if_neg hleast]
      exact ⟨Nat.lt_of_not_le hleast, _, operand, rfl, .operand hwaiting hfits' hleft,
        hderives.loosen hle⟩

/-- With nothing pending, all that was read is one or. -/
theorem OperandRead.whole {read : List Token} (h : OperandRead 0 read c []) : Derives .or read c := by
  obtain ⟨_, before, operand, rfl, hwaiting, hderives⟩ := h
  cases hwaiting
  exact hderives

/-- A closing parenthesis makes an or in parentheses a unary, which takes the negations before it. -/
theorem OperandRead.closed {read : List Token} (h : OperandRead 0 read c (.group :: stack)) :
    OperandRead 4 (read ++ [.closeParen]) (c.negated stack).1 (c.negated stack).2 := by
  obtain ⟨_, before, operand, rfl, hwaiting, hderives⟩ := h
  cases hwaiting with
  | @group _ before hwaiting =>
    have hclosed := OperandRead.negated hwaiting (.parenthesised hderives)
    simpa using hclosed

/-- After an operator its right side is waited for. -/
theorem OperandRead.waiting {read : List Token} {operator : BinaryOperator}
    (h : OperandRead operator.precedence read c stack) :
    Waiting (.operand c operator :: stack) (read ++ [.binary operator]) := by
  obtain ⟨hfits, before, operand, rfl, hwaiting, hderives⟩ := h
  rw [List.append_assoc]
  exact .operand hwaiting hfits hderives

/-- What holds of the parser between two tokens. -/
def ReadSoFar (stack : List Pending) (read : List Token) : Option Condition → Prop
  | none => Waiting stack read
  | some c => OperandRead 4 read c stack

/-- **What is read is derived.** -/
theorem derives_of_parseFrom {operand : Option Condition} {read : List Token}
    (hread : ReadSoFar stack read operand) (h : parseFrom stack operand tokens = some c) :
    Derives .or (read ++ tokens) c := by
  induction tokens generalizing stack operand read with
  | nil =>
    cases operand with
    | none => simp [parseFrom] at h
    | some right =>
      have hall := OperandRead.combined hread (Nat.zero_le 4)
      rw [parseFrom] at h
      split at h
      · next heq =>
        rw [heq] at hall
        obtain rfl := Option.some.inj h
        rw [List.append_nil]
        exact hall.whole
      · cases h
  | cons token tokens ih =>
    rw [List.append_cons]
    cases operand with
    | none =>
      cases token with
      | name text =>
        rw [parseFrom] at h
        refine ih ?_ h
        exact OperandRead.negated hread (.name text)
      | not =>
        rw [parseFrom] at h
        refine ih ?_ h
        exact Waiting.negation hread
      | openParen =>
        rw [parseFrom] at h
        refine ih ?_ h
        exact Waiting.group hread
      | closeParen => simp [parseFrom] at h
      | binary operator => simp [parseFrom] at h
    | some right =>
      cases token with
      | name text => simp [parseFrom] at h
      | not => simp [parseFrom] at h
      | openParen => simp [parseFrom] at h
      | closeParen =>
        have hall := OperandRead.combined hread (Nat.zero_le 4)
        rw [parseFrom] at h
        split at h
        · next inner rest heq =>
          rw [heq] at hall
          refine ih ?_ h
          exact hall.closed
        · cases h
      | binary operator =>
        have hleft := OperandRead.combined hread (Nat.le_of_lt (precedence_lt operator))
        rw [parseFrom] at h
        refine ih ?_ h
        exact hleft.waiting

/-- **The tokens that are read are those of the grammar**, with its tree. -/
theorem parseFrom_eq_some_iff : parseFrom [] none tokens = some c ↔ Derives .or tokens c := by
  constructor
  · intro h
    have hread : ReadSoFar [] [] none := Waiting.nil
    exact derives_of_parseFrom hread h
  · intro h
    exact h.parseFrom_eq

/-- A list of tokens has one tree at most. -/
theorem Derives.unique (h : Derives .or tokens c) (h' : Derives .or tokens d) : c = d :=
  Option.some.inj (h.parseFrom_eq.symm.trans h'.parseFrom_eq)

/-- **A text is a condition** exactly if its tokens are derived from an or. -/
theorem parse?_eq_some_iff {t : Text} :
    parse? t = some c ↔ ∃ tokens, Tokenises t tokens ∧ Derives .or tokens c := by
  unfold parse?
  constructor
  · intro h
    cases htokens : tokenize t with
    | none => simp [htokens] at h
    | some tokens =>
      rw [htokens] at h
      exact ⟨tokens, tokenize_eq_some_iff.mp htokens, parseFrom_eq_some_iff.mp h⟩
  · rintro ⟨tokens, htokens, hderives⟩
    rw [tokenize_eq_some_iff.mpr htokens]
    exact parseFrom_eq_some_iff.mpr hderives

end Condition

end Uncomment
