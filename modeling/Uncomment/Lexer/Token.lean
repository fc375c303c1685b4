import Uncomment.Diagnostic.Fault
import Uncomment.Lexer.Interpolation
import Uncomment.Source.Terminal

/-!
# Tokens

The token at the front of a text. The first characters decide which kind it is, and the longest text
of that kind is taken. A literal that is not closed is still a token, with a fault; so is a character
that starts no token. **Every text but the empty one starts with a token** (`readToken_eq_none_iff`),
and a token is never empty.
-/

namespace Uncomment

/-! ## Words and punctuation -/

/-- The reserved words. Contextual ones (`var`, `async`, …) are identifiers. -/
def keywords : List Text :=
  ["abstract", "as", "base", "bool", "break", "byte", "case", "catch", "char", "checked", "class",
   "const", "continue", "decimal", "default", "delegate", "do", "double", "else", "enum", "event",
   "explicit", "extern", "false", "finally", "fixed", "float", "for", "foreach", "goto", "if",
   "implicit", "in", "int", "interface", "internal", "is", "lock", "long", "namespace", "new", "null",
   "object", "operator", "out", "override", "params", "private", "protected", "public", "readonly",
   "ref", "return", "sbyte", "sealed", "short", "sizeof", "stackalloc", "static", "string", "struct",
   "switch", "this", "throw", "true", "try", "typeof", "uint", "ulong", "unchecked", "unsafe",
   "ushort", "using", "virtual", "void", "volatile", "while"].map String.toList

/-- Punctuation, longest first. There is no `>>`, so that nested type arguments close one by one. -/
def punctuation : List Text :=
  ["??=", "<<=", "...", "->", "=>", "==", "!=", "<=", ">=", "&&", "||", "++", "--", "+=", "-=", "*=",
   "/=", "%=", "&=", "|=", "^=", "<<", "??", "?.", "::", "..", "\x7b", "\x7d", "[", "]", "(", ")", ".",
   ",", ":", ";", "+", "-", "*", "/", "%", "&", "|", "^", "!", "~", "=", "<", ">", "?"].map
    String.toList

/-- The longest punctuation at the front of the text. -/
def punctuation? (t : Text) : Option Text :=
  punctuation.find? (·.isPrefixOf t)

/-- Reads an identifier, with or without the `@` that keeps it from being a keyword. -/
def identifier (t : Text) : Text × Text :=
  (Reader.count (if t.head? = some '@' then 1 else 0)).andThen (Reader.run isIdentifierPart) t

/-! ## Numbers -/

/-- A digit or the separator of digits. -/
def isDigitOrSeparator (c : Char) : Bool :=
  c.isDigit || c == '_'

/-- A letter of a type suffix. -/
def isNumberSuffix (c : Char) : Bool :=
  "ulfdmULFDM".toList.contains c

/-- Whether a hexadecimal or binary number starts here. -/
def startsWithRadix : Text → Bool
  | '0' :: c :: _ => "xXbB".toList.contains c
  | _ => false

/-- Whether a fraction starts here: a point with a digit after it. -/
def startsWithFraction : Text → Bool
  | '.' :: c :: _ => c.isDigit
  | _ => false

/-- The length of the mark of an exponent with its sign, 0 if no digit follows. -/
def exponentMark : Text → Nat
  | e :: c :: rest =>
    if e = 'e' ∨ e = 'E' then
      if c.isDigit then 1
      else if (c = '+' ∨ c = '-') ∧ rest.head?.any Char.isDigit then 2
      else 0
    else 0
  | _ => 0

/-- Reads the digits of a decimal number with its fraction and exponent. -/
def decimalDigits : Reader :=
  let digits := Reader.run isDigitOrSeparator
  let fraction := Reader.onlyIf startsWithFraction ((Reader.count 1).andThen digits)
  let exponent := fun t => (Reader.count (exponentMark t)).andThen digits t
  (digits.andThen fraction).andThen exponent

/-- Reads a number with its type suffix. -/
def numericLiteral (t : Text) : Text × Text :=
  let digits :=
    if startsWithRadix t then
      (Reader.count 2).andThen (Reader.run fun c => isHexDigit c || c == '_')
    else decimalDigits
  digits.andThen (Reader.run isNumberSuffix) t

/-! ## Tokens -/

/-- A token that was read off the front of a text. -/
structure ReadToken where
  kind : TokenKind
  text : Text
  /-- What is wrong with the token. -/
  fault : Option Fault
  /-- What follows it. -/
  rest : Text
  deriving DecidableEq, Repr

namespace ReadToken

/-- A token that cannot be wrong. -/
def plain (kind : TokenKind) (piece : Text × Text) : ReadToken :=
  { kind, text := piece.1, fault := none, rest := piece.2 }

/-- A token that has to be closed. -/
def closed (kind : TokenKind) (fault : Fault) (scan : Scan) : ReadToken :=
  { kind, text := scan.taken, fault := if scan.closed then none else some fault, rest := scan.rest }

/-- A word: a keyword only if it is spelled like one, `@` included. -/
def word (piece : Text × Text) : ReadToken :=
  plain (if keywords.contains piece.1 then .keyword else .identifier) piece

/-- Punctuation, or a character that starts no token. -/
def symbol (c : Char) (rest : Text) : ReadToken :=
  match punctuation? (c :: rest) with
  | some p => plain .punctuation (Reader.count p.length (c :: rest))
  | none =>
    { kind := .badCharacter, text := [c], fault := some (.badCharacter c), rest }

end ReadToken

/-- The token at the front of a text, none at its end. -/
def readToken : Text → Option ReadToken
  | [] => none
  | c :: rest =>
    let t := c :: rest
    let next := rest.head?
    some <|
      if c.isDigit ∨ (c = '.' ∧ next.any Char.isDigit) then .plain .numericLiteral (numericLiteral t)
      else if c = '\'' then .closed .characterLiteral .unterminatedCharacter (characterLiteral t)
      else if c = '"' ∨ (c = '@' ∧ next = some '"') then
        .closed .stringLiteral .unterminatedString (stringLiteral t)
      else if (c = '$' ∨ c = '@') ∧ startsInterpolated t then
        .closed .interpolatedString .unterminatedString (interpolatedString t)
      else if isIdentifierStart c ∨ (c = '@' ∧ next.any isIdentifierStart) then .word (identifier t)
      else .symbol c rest

/-! ## Nothing is lost and no token is empty -/

theorem append_identifier (t : Text) : (identifier t).1 ++ (identifier t).2 = t :=
  (Reader.lossless_count _).andThen (Reader.lossless_run _) t

theorem lossless_decimalDigits : decimalDigits.Lossless := by
  have hd := Reader.lossless_run isDigitOrSeparator
  refine (hd.andThen ((Reader.lossless_count 1).andThen hd).onlyIf).andThen fun t => ?_
  exact (Reader.lossless_count (exponentMark t)).andThen hd t

theorem append_numericLiteral (t : Text) : (numericLiteral t).1 ++ (numericLiteral t).2 = t := by
  unfold numericLiteral
  simp only
  split
  · exact ((Reader.lossless_count 2).andThen (Reader.lossless_run _)).andThen
      (Reader.lossless_run _) t
  · exact lossless_decimalDigits.andThen (Reader.lossless_run _) t

theorem identifier_ne_nil {c : Char} {rest : Text}
    (h : isIdentifierStart c = true ∨ (c = '@' ∧ rest.head?.any isIdentifierStart = true)) :
    (identifier (c :: rest)).1 ≠ [] := by
  by_cases hc : c = '@'
  · simp [identifier, Reader.andThen, Reader.count, hc]
  · have hs : isIdentifierPart c = true := by
      rcases h with h | h
      · exact isIdentifierPart_of_isIdentifierStart h
      · exact absurd h.1 hc
    simp [identifier, Reader.andThen, Reader.count, Reader.run, hc, hs]

theorem numericLiteral_ne_nil {c : Char} {rest : Text}
    (h : c.isDigit = true ∨ (c = '.' ∧ rest.head?.any Char.isDigit = true)) :
    (numericLiteral (c :: rest)).1 ≠ [] := by
  unfold numericLiteral
  simp only
  split
  · simp [Reader.andThen, Reader.count]
  · rcases h with h | ⟨rfl, h⟩
    · have hd : isDigitOrSeparator c = true := by simp [isDigitOrSeparator, h]
      simp [decimalDigits, Reader.andThen, Reader.run, hd]
    · cases rest with
      | nil => simp at h
      | cons d more =>
        simp only [List.head?_cons, Option.any_some] at h
        simp [decimalDigits, Reader.andThen, Reader.run, Reader.onlyIf, Reader.count,
          startsWithFraction, isDigitOrSeparator, h]

/-- The token and what follows it are the text, and the token is not empty. -/
def ReadToken.Sound (token : ReadToken) (t : Text) : Prop :=
  token.text ++ token.rest = t ∧ token.text ≠ []

theorem punctuation_ne_nil : ∀ p ∈ punctuation, p ≠ [] := by decide

theorem ReadToken.sound_symbol (c : Char) (rest : Text) : (symbol c rest).Sound (c :: rest) := by
  unfold symbol
  split
  · next p h =>
    refine ⟨List.take_append_drop _ _, ?_⟩
    have hp := punctuation_ne_nil p (List.mem_of_find?_eq_some h)
    simp [plain, Reader.count, hp]
  · exact ⟨rfl, by simp⟩

theorem ReadToken.sound_closed {kind : TokenKind} {fault : Fault} {scan : Scan} {t : Text}
    (h : scan.Covers t) (hne : scan.taken ≠ []) : (closed kind fault scan).Sound t :=
  ⟨h, hne⟩

theorem sound_readToken {t : Text} {token : ReadToken} (h : readToken t = some token) :
    token.Sound t := by
  cases t with
  | nil => simp [readToken] at h
  | cons c rest =>
    simp only [readToken, Option.some.injEq] at h
    subst h
    split
    · next hn => exact ⟨append_numericLiteral _, numericLiteral_ne_nil hn⟩
    · split
      · exact ReadToken.sound_closed (covers_characterLiteral _) (characterLiteral_taken_ne_nil _ _)
      · split
        · exact ReadToken.sound_closed (covers_stringLiteral _) (stringLiteral_taken_ne_nil _ _)
        · split
          · next hi =>
            refine ReadToken.sound_closed (covers_interpolatedString _) ?_
            simp [interpolatedString, openingInterpolated_taken_ne_nil hi.2]
          · split
            · next hw => exact ⟨append_identifier _, identifier_ne_nil hw⟩
            · exact ReadToken.sound_symbol _ _

theorem readToken_eq_none_iff {t : Text} : readToken t = none ↔ t = [] := by
  cases t <;> simp [readToken]

/-- What follows a token is shorter than the text. -/
theorem length_readToken {t : Text} {token : ReadToken} (h : readToken t = some token) :
    token.rest.length < t.length := by
  obtain ⟨hcat, hne⟩ := sound_readToken h
  have := List.length_pos_iff.mpr hne
  rw [← hcat, List.length_append]
  omega

end Uncomment
