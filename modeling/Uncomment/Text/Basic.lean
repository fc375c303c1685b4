/-!
# Texts

A text is a list of characters. Everything the library reads is cut into pieces of such a list, so
"nothing is lost" is an equation between lists, and offsets are measured afterwards: the **width**
of a text is the number of bytes of its UTF-8 form.

The functions below cut a text at a byte offset, into lines, or at a separator. All of them recurse
on the list itself.
-/

namespace Uncomment

/-- A text, one character after the other. -/
abbrev Text := List Char

namespace Text

/-! ## Width -/

/-- The number of bytes of the text in UTF-8. -/
def width : Text → Nat
  | [] => 0
  | c :: rest => c.utf8Size + width rest

@[simp] theorem width_nil : width [] = 0 := rfl

@[simp] theorem width_cons (c : Char) (t : Text) : width (c :: t) = c.utf8Size + width t := rfl

@[simp] theorem width_append (s t : Text) : width (s ++ t) = width s + width t := by
  induction s with
  | nil => simp
  | cons c rest ih => simp [ih, Nat.add_assoc]

/-- Only the empty text has no bytes. -/
theorem width_eq_zero {t : Text} : width t = 0 ↔ t = [] := by
  cases t with
  | nil => simp
  | cons c rest =>
    have := c.utf8Size_pos
    simp only [width_cons, reduceCtorEq, iff_false]
    omega

/-! ## Byte offsets -/

/-- Cuts the text at a byte offset. There is no cut inside a character or after the end. -/
def cutAt? : Nat → Text → Option (Text × Text)
  | 0, t => some ([], t)
  | _ + 1, [] => none
  | n + 1, c :: rest =>
    if n + 1 < c.utf8Size then none
    else (cutAt? (n + 1 - c.utf8Size) rest).map fun (before, after) => (c :: before, after)

/-- The part of the text between two byte offsets, if both are character boundaries in order. -/
def slice? (start stop : Nat) (t : Text) : Option Text :=
  if start ≤ stop then do
    let (_, after) ← cutAt? start t
    let (inside, _) ← cutAt? (stop - start) after
    return inside
  else none

/-- Cutting at the width of a prefix gives that prefix back. -/
theorem cutAt?_width (s t : Text) : cutAt? (width s) (s ++ t) = some (s, t) := by
  induction s with
  | nil => simp [cutAt?]
  | cons c rest ih =>
    have hpos := c.utf8Size_pos
    obtain ⟨k, hk⟩ : ∃ k, c.utf8Size = k + 1 := ⟨c.utf8Size - 1, by omega⟩
    have hcut : width (c :: rest) = (k + width rest) + 1 := by simp [hk]; omega
    rw [hcut, List.cons_append, cutAt?, if_neg (by omega)]
    have hrest : k + width rest + 1 - c.utf8Size = width rest := by omega
    rw [hrest, ih]
    rfl

/-- A slice between two prefixes is what the longer one adds. -/
theorem slice?_width (a b c : Text) :
    slice? (width a) (width a + width b) (a ++ b ++ c) = some b := by
  unfold slice?
  rw [if_pos (Nat.le_add_right _ _), List.append_assoc, cutAt?_width]
  simp [cutAt?_width]

/-! ## Separators -/

/-- The pieces between the occurrences of a separator; one piece more than separators. -/
def splitAt (separator : Char) : Text → List Text
  | [] => [[]]
  | c :: rest =>
    match splitAt separator rest with
    | [] => [[c]]
    | piece :: pieces =>
      if c = separator then [] :: piece :: pieces else (c :: piece) :: pieces

/-- The pieces joined with a separator between them. -/
def join (separator : Text) : List Text → Text
  | [] => []
  | [piece] => piece
  | piece :: pieces => piece ++ separator ++ join separator pieces

theorem splitAt_ne_nil (separator : Char) (t : Text) : splitAt separator t ≠ [] := by
  cases t with
  | nil => simp [splitAt]
  | cons c rest =>
    unfold splitAt
    split
    · simp
    · split <;> simp

/-- Joining the pieces gives the text back. -/
theorem join_splitAt (separator : Char) (t : Text) : join [separator] (splitAt separator t) = t := by
  induction t with
  | nil => rfl
  | cons c rest ih =>
    unfold splitAt
    split
    · next h => exact absurd h (splitAt_ne_nil _ _)
    · next piece pieces h =>
      rw [h] at ih
      split
      · next hc => simp [join, ih, hc]
      · cases pieces with
        | nil => simpa [join] using ih
        | cons p ps => simpa [join] using ih

/-- Cuts the text at the first occurrence of a separator, which is dropped. -/
def cutOnce? (separator : Char) : Text → Option (Text × Text)
  | [] => none
  | c :: rest =>
    if c = separator then some ([], rest)
    else (cutOnce? separator rest).map fun (before, after) => (c :: before, after)

theorem length_of_cutOnce? {separator : Char} {t before after : Text}
    (h : cutOnce? separator t = some (before, after)) : after.length < t.length := by
  induction t generalizing before after with
  | nil => simp [cutOnce?] at h
  | cons c rest ih =>
    unfold cutOnce? at h
    split at h
    · simp only [Option.some.injEq, Prod.mk.injEq] at h
      simp [← h.2]
    · simp only [Option.map_eq_some_iff, Prod.exists, Prod.mk.injEq] at h
      obtain ⟨_, _, hrest, _, rfl⟩ := h
      exact Nat.lt_trans (ih hrest) (by simp)

/-- Cuts the text at the last occurrence of a separator, which is dropped. -/
def cutLast? (separator : Char) (t : Text) : Option (Text × Text) :=
  (cutOnce? separator t.reverse).map fun (after, before) => (before.reverse, after.reverse)

/-- The text up to the first occurrence of a pattern, all of it if there is none. -/
def upTo (pattern : Text) : Text → Text
  | [] => []
  | c :: rest => if pattern.isPrefixOf (c :: rest) then [] else c :: upTo pattern rest

/-- The text after a given beginning, if it begins so. -/
def dropStart? (beginning : Text) (t : Text) : Option Text :=
  if beginning.isPrefixOf t then some (t.drop beginning.length) else none

/-- The text before a given ending, if it ends so. -/
def dropEnd? (ending : Text) (t : Text) : Option Text :=
  if ending.isSuffixOf t then some (t.take (t.length - ending.length)) else none

/-- Whether a pattern occurs in the text. -/
def occursIn (pattern : Text) : Text → Bool
  | [] => pattern.isEmpty
  | c :: rest => pattern.isPrefixOf (c :: rest) || occursIn pattern rest

/-! ## Lines -/

/-- The lines of the text, each with the line feed that ends it. -/
def linesWithEnds : Text → List Text
  | [] => []
  | c :: rest =>
    if c = '\n' then [c] :: linesWithEnds rest
    else
      match linesWithEnds rest with
      | [] => [[c]]
      | line :: lines => (c :: line) :: lines

/-- No character is lost in cutting into lines. -/
theorem flatten_linesWithEnds (t : Text) : (linesWithEnds t).flatten = t := by
  induction t with
  | nil => rfl
  | cons c rest ih =>
    unfold linesWithEnds
    split
    · simp [ih]
    · split
      · next h => rw [h] at ih; simp at ih; simp [← ih]
      · next line lines h => rw [h] at ih; simpa using ih

/-- A line without its line feed, nor the carriage return right before that line feed. -/
def withoutEnd (line : Text) : Text :=
  match dropEnd? ['\n'] line with
  | none => line
  | some body => (dropEnd? ['\r'] body).getD body

/-- The lines of the text, cut after each line feed, without their ends. -/
def lines (t : Text) : List Text :=
  (linesWithEnds t).map withoutEnd

/-- The first line of the text, empty if the text is. -/
def firstLine (t : Text) : Text :=
  (lines t).headD []

/-! ## Letter case -/

/-- ASCII capitals as small letters, everything else unchanged. -/
def toLowerAscii (t : Text) : Text :=
  t.map Char.toLower

/-- Equality up to the case of ASCII letters. -/
def sameIgnoringCase (s t : Text) : Bool :=
  toLowerAscii s == toLowerAscii t

end Text

end Uncomment
