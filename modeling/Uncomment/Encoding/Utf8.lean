import Uncomment.Text.Basic

/-!
# UTF-8

Strict UTF-8 over lists of bytes. A character takes one to four bytes; reading refuses stray and
missing continuation bytes, forms longer than needed, surrogates, and numbers beyond U+10FFFF.
Arithmetic is done on natural numbers, so that a sequence and its character are tied by division with
remainder.

## Termination

`decodeFrom` calls itself on what `decodeChar?` left over, which is shorter by
`length_of_decodeChar?`.
-/

namespace Uncomment

/-- The content of a file. -/
abbrev Bytes := List UInt8

namespace Utf8

/-- A continuation byte with the given six bits. -/
def continuation (bits : Nat) : UInt8 :=
  (0x80 + bits % 0x40).toUInt8

/-- The bytes of a character. -/
def encodeChar (c : Char) : Bytes :=
  let n := c.toNat
  if n < 0x80 then [n.toUInt8]
  else if n < 0x800 then [(0xC0 + n / 0x40).toUInt8, continuation n]
  else if n < 0x10000 then
    [(0xE0 + n / 0x1000).toUInt8, continuation (n / 0x40), continuation n]
  else
    [(0xF0 + n / 0x40000).toUInt8, continuation (n / 0x1000), continuation (n / 0x40), continuation n]

/-- The bytes of a text. -/
def encode (t : Text) : Bytes :=
  t.flatMap encodeChar

/-- The six bits of a continuation byte. -/
def payload? (b : UInt8) : Option Nat :=
  if 0x80 ≤ b.toNat && b.toNat < 0xC0 then some (b.toNat - 0x80) else none

/-- The character with a number, if there is one and the number is not below the least one its form
is meant for. -/
def charFrom? (least n : Nat) : Option Char :=
  if least ≤ n && n.isValidChar then some (Char.ofNat n) else none

/-- Reads one character off the front. -/
def decodeChar? : Bytes → Option (Char × Bytes)
  | [] => none
  | b :: rest =>
    let n := b.toNat
    if n < 0x80 then some (Char.ofNat n, rest)
    else if n < 0xC0 then none
    else if n < 0xE0 then
      match rest with
      | b₁ :: rest => do
        let p₁ ← payload? b₁
        let c ← charFrom? 0x80 ((n - 0xC0) * 0x40 + p₁)
        return (c, rest)
      | _ => none
    else if n < 0xF0 then
      match rest with
      | b₁ :: b₂ :: rest => do
        let p₁ ← payload? b₁
        let p₂ ← payload? b₂
        let c ← charFrom? 0x800 ((n - 0xE0) * 0x1000 + p₁ * 0x40 + p₂)
        return (c, rest)
      | _ => none
    else if n < 0xF8 then
      match rest with
      | b₁ :: b₂ :: b₃ :: rest => do
        let p₁ ← payload? b₁
        let p₂ ← payload? b₂
        let p₃ ← payload? b₃
        let c ← charFrom? 0x10000 ((n - 0xF0) * 0x40000 + p₁ * 0x1000 + p₂ * 0x40 + p₃)
        return (c, rest)
      | _ => none
    else none

/-- Reading a character consumes at least one byte. -/
theorem length_of_decodeChar? {bytes rest : Bytes} {c : Char}
    (h : decodeChar? bytes = some (c, rest)) : rest.length < bytes.length := by
  unfold decodeChar? at h
  split at h
  · simp at h
  · next b tail =>
    simp only at h
    split at h
    · simp at h; simp [h.2]
    · split at h
      · simp at h
      · split at h
        · split at h
          · simp [Option.bind_eq_some_iff] at h; obtain ⟨_, _, _, _, _, rfl⟩ := h; simp only [List.length_cons]; omega
          · simp at h
        · split at h
          · split at h
            · simp [Option.bind_eq_some_iff] at h
              obtain ⟨_, _, _, _, _, _, _, rfl⟩ := h; simp only [List.length_cons]; omega
            · simp at h
          · split at h
            · split at h
              · simp [Option.bind_eq_some_iff] at h
                obtain ⟨_, _, _, _, _, _, _, _, _, rfl⟩ := h; simp only [List.length_cons]; omega
              · simp at h
            · simp at h

/-- Reads all bytes, found at the given offset of a file. Fails with the offset of the first byte
that does not belong to a complete character. -/
def decodeFrom (offset : Nat) (bytes : Bytes) : Except Nat Text :=
  if bytes.isEmpty then .ok []
  else
    match _h : decodeChar? bytes with
    | none => .error offset
    | some (c, rest) =>
      match decodeFrom (offset + c.utf8Size) rest with
      | .error bad => .error bad
      | .ok t => .ok (c :: t)
termination_by bytes.length
decreasing_by exact length_of_decodeChar? ‹_›

/-- Reads all bytes of a text. -/
def decode (bytes : Bytes) : Except Nat Text :=
  decodeFrom 0 bytes

/-- The lines before the first that is not UTF-8. -/
def lines (bytes : Bytes) : List Text :=
  match decode bytes with
  | .ok t => Text.lines t
  | .error bad =>
    match decode (bytes.take bad) with
    | .ok t => ((Text.linesWithEnds t).filter (·.getLast? == some '\n')).map Text.withoutEnd
    | .error _ => []

end Utf8

end Uncomment
