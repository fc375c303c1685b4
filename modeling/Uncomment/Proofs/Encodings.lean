import Uncomment.Encoding.Basic

/-!
# Writing a text and reading it back

The content of a file and the text it stores determine each other. This is proved from the inside out:
a character and its bytes or units, then a whole text, then the bytes of units, then the bytes after the
mark. At each level reading succeeds with a text **exactly if** the text is written as what was read, so
one statement holds both directions.

The mark comes last. A content is read in the encoding whose mark it begins with
(`DecodedText.ofBytes_eq_ok_iff`), and the only content that is taken for another encoding than it was
written in is UTF-8 without a mark whose text begins with U+FEFF: the bytes of that character are the
mark of UTF-8 (`Encoding.detect_encode`).
-/

namespace Uncomment

/-! ## Bytes, units and characters as numbers -/

theorem toNat_toUInt8 {n : Nat} (h : n < 0x100) : n.toUInt8.toNat = n :=
  Nat.mod_eq_of_lt h

theorem toNat_toUInt16 {n : Nat} (h : n < 0x10000) : n.toUInt16.toNat = n :=
  Nat.mod_eq_of_lt h

theorem eq_toUInt8 {b : UInt8} {n : Nat} (h : b.toNat = n) : b = n.toUInt8 := by
  rw [← h]
  exact UInt8.ofNat_toNat.symm

theorem eq_toUInt16 {u : UInt16} {n : Nat} (h : u.toNat = n) : u = n.toUInt16 := by
  rw [← h]
  exact UInt16.ofNat_toNat.symm

/-- The number of a character is no surrogate and not beyond U+10FFFF. -/
theorem toNat_char (c : Char) : c.toNat < 0xD800 ∨ (0xDFFF < c.toNat ∧ c.toNat < 0x110000) :=
  c.valid

theorem toNat_ofNat {n : Nat} (h : n < 0xD800 ∨ (0xDFFF < n ∧ n < 0x110000)) :
    (Char.ofNat n).toNat = n := by
  rw [Char.ofNat, dif_pos h]
  rfl

/-! ## UTF-8 -/

namespace Utf8

theorem toNat_continuation (bits : Nat) : (continuation bits).toNat = 0x80 + bits % 0x40 :=
  toNat_toUInt8 (by omega)

theorem continuation_congr {p n : Nat} (h : p = n % 0x40) : continuation p = continuation n := by
  simp [continuation, h]

theorem payload?_eq_some_iff {b : UInt8} {p : Nat} :
    payload? b = some p ↔ p < 0x40 ∧ b = continuation p := by
  rw [← UInt8.toNat_inj, toNat_continuation]
  unfold payload?
  split
  · next h =>
    simp only [Bool.and_eq_true, decide_eq_true_eq] at h
    rw [Option.some.injEq]
    omega
  · next h =>
    simp only [Bool.and_eq_true, decide_eq_true_eq] at h
    simp only [reduceCtorEq, false_iff]
    omega

theorem payload?_continuation (bits : Nat) : payload? (continuation bits) = some (bits % 0x40) :=
  payload?_eq_some_iff.mpr ⟨Nat.mod_lt _ (by decide), (continuation_congr rfl).symm⟩

theorem charFrom?_eq_some_iff {least n : Nat} {c : Char} :
    charFrom? least n = some c ↔ least ≤ c.toNat ∧ n = c.toNat := by
  unfold charFrom?
  split
  · next h =>
    simp only [Bool.and_eq_true, decide_eq_true_eq] at h
    rw [Option.some.injEq]
    constructor
    · rintro rfl
      rw [toNat_ofNat h.2]
      exact ⟨h.1, rfl⟩
    · rintro ⟨_, rfl⟩
      exact Char.ofNat_toNat c
  · next h =>
    simp only [Bool.and_eq_true, decide_eq_true_eq] at h
    simp only [reduceCtorEq, false_iff]
    rintro ⟨hle, rfl⟩
    exact h ⟨hle, c.valid⟩

/-- A character is read off the front of its bytes, whatever follows them. -/
theorem decodeChar?_encodeChar (c : Char) (rest : Bytes) :
    decodeChar? (encodeChar c ++ rest) = some (c, rest) := by
  have hc := toNat_char c
  have hchar : ∀ {least n : Nat}, least ≤ c.toNat → n = c.toNat → charFrom? least n = some c :=
    fun hle hn => charFrom?_eq_some_iff.mpr ⟨hle, hn⟩
  simp only [encodeChar]
  -- One case per number of bytes; the payloads put together are the number again.
  split
  · next h1 =>
    simp only [List.cons_append, List.nil_append, decodeChar?]
    rw [toNat_toUInt8 (by omega), if_pos h1, Char.ofNat_toNat]
  · split
    · simp only [List.cons_append, List.nil_append, decodeChar?]
      rw [toNat_toUInt8 (by omega), if_neg (by omega), if_neg (by omega), if_pos (by omega),
        payload?_continuation, Option.bind_eq_bind, Option.bind_some, hchar (by omega) (by omega)]
      rfl
    · split
      · simp only [List.cons_append, List.nil_append, decodeChar?]
        rw [toNat_toUInt8 (by omega), if_neg (by omega), if_neg (by omega), if_neg (by omega),
          if_pos (by omega), payload?_continuation, payload?_continuation, Option.bind_eq_bind,
          Option.bind_some, Option.bind_some, hchar (by omega) (by omega)]
        rfl
      · simp only [List.cons_append, List.nil_append, decodeChar?]
        rw [toNat_toUInt8 (by omega), if_neg (by omega), if_neg (by omega), if_neg (by omega),
          if_neg (by omega), if_pos (by omega), payload?_continuation, payload?_continuation,
          payload?_continuation, Option.bind_eq_bind, Option.bind_some, Option.bind_some,
          Option.bind_some, hchar (by omega) (by omega)]
        rfl

section

variable {b : UInt8} {p₁ p₂ p₃ : Nat} {c : Char}

/-- The bytes of a character whose number has two groups of bits. -/
theorem encodeChar_two (hb : 0xC0 ≤ b.toNat) (hb' : b.toNat < 0xE0) (h₁ : p₁ < 0x40)
    (hle : 0x80 ≤ c.toNat) (hc : (b.toNat - 0xC0) * 0x40 + p₁ = c.toNat) :
    encodeChar c = [b, continuation p₁] := by
  have hlast : continuation p₁ = continuation c.toNat := continuation_congr (by omega)
  simp only [encodeChar]
  rw [if_neg (by omega), if_pos (by omega), ← eq_toUInt8 (b := b) (by omega), hlast]

/-- The bytes of a character whose number has three groups of bits. -/
theorem encodeChar_three (hb : 0xE0 ≤ b.toNat) (hb' : b.toNat < 0xF0) (h₁ : p₁ < 0x40)
    (h₂ : p₂ < 0x40) (hle : 0x800 ≤ c.toNat)
    (hc : (b.toNat - 0xE0) * 0x1000 + p₁ * 0x40 + p₂ = c.toNat) :
    encodeChar c = [b, continuation p₁, continuation p₂] := by
  have hsecond : continuation p₁ = continuation (c.toNat / 0x40) := continuation_congr (by omega)
  have hlast : continuation p₂ = continuation c.toNat := continuation_congr (by omega)
  simp only [encodeChar]
  rw [if_neg (by omega), if_neg (by omega), if_pos (by omega), ← eq_toUInt8 (b := b) (by omega),
    hsecond, hlast]

/-- The bytes of a character whose number has four groups of bits. -/
theorem encodeChar_four (hb : 0xF0 ≤ b.toNat) (hb' : b.toNat < 0xF8) (h₁ : p₁ < 0x40)
    (h₂ : p₂ < 0x40) (h₃ : p₃ < 0x40) (hle : 0x10000 ≤ c.toNat)
    (hc : (b.toNat - 0xF0) * 0x40000 + p₁ * 0x1000 + p₂ * 0x40 + p₃ = c.toNat) :
    encodeChar c = [b, continuation p₁, continuation p₂, continuation p₃] := by
  have hsecond : continuation p₁ = continuation (c.toNat / 0x1000) := continuation_congr (by omega)
  have hthird : continuation p₂ = continuation (c.toNat / 0x40) := continuation_congr (by omega)
  have hlast : continuation p₃ = continuation c.toNat := continuation_congr (by omega)
  simp only [encodeChar]
  rw [if_neg (by omega), if_neg (by omega), if_neg (by omega), ← eq_toUInt8 (b := b) (by omega),
    hsecond, hthird, hlast]

end

/-- What is read as a character are the bytes of that character: no longer form is accepted. -/
theorem eq_encodeChar_of_decodeChar? {bytes rest : Bytes} {c : Char}
    (h : decodeChar? bytes = some (c, rest)) : bytes = encodeChar c ++ rest := by
  cases bytes with
  | nil => simp [decodeChar?] at h
  | cons b tail =>
    simp only [decodeChar?] at h
    split at h
    · next h1 =>
      simp only [Option.some.injEq, Prod.mk.injEq] at h
      obtain ⟨rfl, rfl⟩ := h
      have hn : (Char.ofNat b.toNat).toNat = b.toNat := toNat_ofNat (Or.inl (by omega))
      simp only [encodeChar, hn]
      rw [if_pos h1, ← eq_toUInt8 rfl]
      rfl
    · split at h
      · simp at h
      · split at h
        · split at h
          · simp only [Option.bind_eq_bind, Option.bind_eq_some_iff, payload?_eq_some_iff,
              charFrom?_eq_some_iff, Option.pure_def, Option.some.injEq, Prod.mk.injEq] at h
            obtain ⟨p₁, ⟨hp₁, rfl⟩, c, ⟨hle, hc⟩, rfl, rfl⟩ := h
            rw [encodeChar_two (by omega) (by omega) hp₁ hle hc]
            rfl
          · simp at h
        · split at h
          · split at h
            · simp only [Option.bind_eq_bind, Option.bind_eq_some_iff, payload?_eq_some_iff,
                charFrom?_eq_some_iff, Option.pure_def, Option.some.injEq, Prod.mk.injEq] at h
              obtain ⟨p₁, ⟨hp₁, rfl⟩, p₂, ⟨hp₂, rfl⟩, c, ⟨hle, hc⟩, rfl, rfl⟩ := h
              rw [encodeChar_three (by omega) (by omega) hp₁ hp₂ hle hc]
              rfl
            · simp at h
          · split at h
            · split at h
              · simp only [Option.bind_eq_bind, Option.bind_eq_some_iff, payload?_eq_some_iff,
                  charFrom?_eq_some_iff, Option.pure_def, Option.some.injEq, Prod.mk.injEq] at h
                obtain ⟨p₁, ⟨hp₁, rfl⟩, p₂, ⟨hp₂, rfl⟩, p₃, ⟨hp₃, rfl⟩, c, ⟨hle, hc⟩, rfl, rfl⟩ := h
                rw [encodeChar_four (by omega) (by omega) hp₁ hp₂ hp₃ hle hc]
                rfl
              · simp at h
            · simp at h

theorem encode_cons (c : Char) (t : Text) : encode (c :: t) = encodeChar c ++ encode t := rfl

theorem encodeChar_ne_nil (c : Char) : encodeChar c ≠ [] := by
  intro hnil
  have hread := decodeChar?_encodeChar c []
  rw [hnil] at hread
  simp [decodeChar?] at hread

theorem decodeFrom_encode (offset : Nat) (t : Text) : decodeFrom offset (encode t) = .ok t := by
  induction t generalizing offset with
  | nil =>
    rw [decodeFrom]
    rfl
  | cons c rest ih =>
    have hne : (encode (c :: rest)).isEmpty = false := by simp [encode_cons, encodeChar_ne_nil]
    rw [decodeFrom, hne, if_neg Bool.false_ne_true]
    split
    · next hnone =>
      rw [encode_cons, decodeChar?_encodeChar] at hnone
      cases hnone
    · next d more hsome =>
      rw [encode_cons, decodeChar?_encodeChar] at hsome
      cases hsome
      rw [ih]

theorem eq_encode_of_decodeFrom {offset : Nat} {bytes : Bytes} {t : Text}
    (h : decodeFrom offset bytes = .ok t) : bytes = encode t := by
  fun_induction decodeFrom offset bytes generalizing t with
  | case1 offset bytes hnil =>
    cases h
    exact List.isEmpty_iff.mp hnil
  | case2 => cases h
  | case3 => cases h
  | case4 offset bytes hne c rest hchar t' ht ih =>
    cases h
    rw [encode_cons, ← ih ht]
    exact eq_encodeChar_of_decodeChar? hchar

/-- **UTF-8 is read as a text exactly if the text is written so**, at any offset. -/
theorem decodeFrom_eq_ok_iff {offset : Nat} {bytes : Bytes} {t : Text} :
    decodeFrom offset bytes = .ok t ↔ bytes = encode t :=
  ⟨eq_encode_of_decodeFrom, fun h => h ▸ decodeFrom_encode offset t⟩

theorem encodeChar_eq_utf8EncodeChar (c : Char) : encodeChar c = String.utf8EncodeChar c := by
  have hc := toNat_char c
  have hval : c.val.toNat = c.toNat := rfl
  simp only [encodeChar, continuation, String.utf8EncodeChar, hval, Nat.add_comm (_ % 0x40)]
  by_cases h1 : c.toNat < 0x80
  · rw [if_pos h1, if_pos (by omega)]
  · by_cases h2 : c.toNat < 0x800
    · rw [if_neg h1, if_pos h2, if_neg (by omega), if_pos (by omega),
        show c.toNat / 64 % 32 + 192 = 0xC0 + c.toNat / 0x40 by omega]
    · by_cases h3 : c.toNat < 0x10000
      · rw [if_neg h1, if_neg h2, if_pos h3, if_neg (by omega), if_neg (by omega),
          if_pos (by omega), show c.toNat / 4096 % 16 + 224 = 0xE0 + c.toNat / 0x1000 by omega]
      · rw [if_neg h1, if_neg h2, if_neg h3, if_neg (by omega), if_neg (by omega),
          if_neg (by omega), show c.toNat / 262144 % 8 + 240 = 0xF0 + c.toNat / 0x40000 by omega]

/-- The bytes of a text are those of the string with the same characters. -/
theorem encode_eq_toUTF8 (t : Text) : encode t = (String.ofList t).toUTF8.data.toList := by
  have hchars : encodeChar = String.utf8EncodeChar := funext encodeChar_eq_utf8EncodeChar
  rw [encode, hchars, String.toUTF8, String.toByteArray_ofList, List.utf8Encode,
    List.data_toByteArray]

/-- The bytes of a text begin with those of a character only if the text begins with it. -/
theorem eq_cons_of_encode {c : Char} {t : Text} {rest : Bytes}
    (h : encode t = encodeChar c ++ rest) : ∃ t', t = c :: t' := by
  have hread := decodeChar?_encodeChar c rest
  rw [← h] at hread
  cases t with
  | nil => simp [encode, decodeChar?] at hread
  | cons d t' =>
    rw [encode_cons, decodeChar?_encodeChar, Option.some.injEq, Prod.mk.injEq] at hread
    exact ⟨t', by rw [hread.1]⟩

/-- No text begins with a byte beyond those of UTF-8. -/
theorem encode_ne_cons {b : UInt8} (hb : 0xF8 ≤ b.toNat) (t : Text) (rest : Bytes) :
    encode t ≠ b :: rest := by
  intro h
  cases t with
  | nil => simp [encode] at h
  | cons c t' =>
    have hread := decodeChar?_encodeChar c (encode t')
    rw [← encode_cons, h] at hread
    simp only [decodeChar?] at hread
    rw [if_neg (by omega), if_neg (by omega), if_neg (by omega), if_neg (by omega),
      if_neg (by omega)] at hread
    cases hread

end Utf8

/-! ## UTF-16 -/

namespace Utf16

theorem encode_cons (c : Char) (t : Text) : encode (c :: t) = encodeChar c ++ encode t := rfl

theorem encodeChar_joinPair {high low : UInt16} (hh : isHigh high = true) (hl : isLow low = true) :
    encodeChar (joinPair high low) = [high, low] := by
  simp only [isHigh, isLow, Bool.and_eq_true, decide_eq_true_eq] at hh hl
  have hn : (joinPair high low).toNat =
      0x10000 + (high.toNat - 0xD800) * 0x400 + (low.toNat - 0xDC00) :=
    toNat_ofNat (Or.inr ⟨by omega, by omega⟩)
  simp only [encodeChar]
  rw [if_neg (by omega), ← eq_toUInt16 (u := high) (by omega),
    ← eq_toUInt16 (u := low) (by omega)]

theorem encodeChar_single {unit : UInt16} (hh : isHigh unit = false) (hl : isLow unit = false) :
    encodeChar (Char.ofNat unit.toNat) = [unit] := by
  have hu := unit.toNat_lt
  simp only [isHigh, isLow, Bool.and_eq_false_iff, decide_eq_false_iff_not] at hh hl
  have hn : (Char.ofNat unit.toNat).toNat = unit.toNat := toNat_ofNat (by omega)
  simp only [encodeChar, hn]
  rw [if_pos (by omega), ← eq_toUInt16 rfl]

theorem decode_single {unit : UInt16} (hh : isHigh unit = false) (hl : isLow unit = false)
    (rest : List UInt16) :
    decode (unit :: rest) = (decode rest).map (Char.ofNat unit.toNat :: ·) := by
  rw [decode.eq_def]
  simp only [hh, hl, Bool.false_eq_true, if_false]
  cases decode rest <;> rfl

theorem decode_pair {high low : UInt16} (hh : isHigh high = true) (hl : isLow low = true)
    (rest : List UInt16) :
    decode (high :: low :: rest) = (decode rest).map (joinPair high low :: ·) := by
  rw [decode.eq_def]
  simp only [hh, hl, if_true]
  cases decode rest <;> rfl

/-- A character is read off the front of its units, whatever follows them. -/
theorem decode_encodeChar (c : Char) (rest : List UInt16) :
    decode (encodeChar c ++ rest) = (decode rest).map (c :: ·) := by
  have hc := toNat_char c
  simp only [encodeChar]
  split
  · next h =>
    have hn := toNat_toUInt16 h
    rw [List.singleton_append, decode_single, hn, Char.ofNat_toNat]
    · simp only [isHigh, hn, Bool.and_eq_false_iff, decide_eq_false_iff_not]
      omega
    · simp only [isLow, hn, Bool.and_eq_false_iff, decide_eq_false_iff_not]
      omega
  · next h =>
    have hhigh : (0xD800 + (c.toNat - 0x10000) / 0x400).toUInt16.toNat = _ :=
      toNat_toUInt16 (by omega)
    have hlow : (0xDC00 + (c.toNat - 0x10000) % 0x400).toUInt16.toNat = _ :=
      toNat_toUInt16 (by omega)
    have hn : 0x10000 + (0xD800 + (c.toNat - 0x10000) / 0x400 - 0xD800) * 0x400 +
        (0xDC00 + (c.toNat - 0x10000) % 0x400 - 0xDC00) = c.toNat := by omega
    rw [List.cons_append, List.cons_append, List.nil_append, decode_pair, joinPair, hhigh, hlow, hn,
      Char.ofNat_toNat]
    · simp only [isHigh, hhigh, Bool.and_eq_true, decide_eq_true_eq]
      omega
    · simp only [isLow, hlow, Bool.and_eq_true, decide_eq_true_eq]
      omega

theorem decode_encode (t : Text) : decode (encode t) = .ok t := by
  induction t with
  | nil => rfl
  | cons c rest ih =>
    rw [encode_cons, decode_encodeChar, ih]
    rfl

theorem eq_encode_of_decode {units : List UInt16} {t : Text} (h : decode units = .ok t) :
    units = encode t := by
  fun_induction decode units generalizing t with
  | case1 => cases h; rfl
  | case2 => cases h
  | case3 => cases h
  | case4 unit hhigh low rest hlow t' ht ih =>
    cases h
    rw [encode_cons, encodeChar_joinPair hhigh hlow, ← ih ht]
    rfl
  | case5 => cases h
  | case6 => cases h
  | case7 => cases h
  | case8 unit rest hhigh hlow t' ht ih =>
    cases h
    rw [encode_cons, encodeChar_single (by simpa using hhigh) (by simpa using hlow), ← ih ht]
    rfl

namespace ByteOrder

theorem combine_split (order : ByteOrder) (unit : UInt16) :
    ∃ first second, order.split unit = [first, second] ∧ order.combine first second = unit := by
  have hu := unit.toNat_lt
  have hhigh : (unit.toNat / 0x100).toUInt8.toNat = _ := toNat_toUInt8 (by omega)
  have hlow : (unit.toNat % 0x100).toUInt8.toNat = _ := toNat_toUInt8 (by omega)
  cases order <;>
  · refine ⟨_, _, rfl, ?_⟩
    simp only [combine, hhigh, hlow]
    exact (eq_toUInt16 (by omega)).symm

theorem split_combine (order : ByteOrder) (first second : UInt8) :
    order.split (order.combine first second) = [first, second] := by
  have hf := first.toNat_lt
  have hs := second.toNat_lt
  cases order with
  | littleEndian =>
    have hn : (combine .littleEndian first second).toNat = _ := toNat_toUInt16 (by omega)
    simp only [split, hn]
    rw [← eq_toUInt8 (b := first) (by omega), ← eq_toUInt8 (b := second) (by omega)]
  | bigEndian =>
    have hn : (combine .bigEndian first second).toNat = _ := toNat_toUInt16 (by omega)
    simp only [split, hn]
    rw [← eq_toUInt8 (b := first) (by omega), ← eq_toUInt8 (b := second) (by omega)]

theorem units?_split (order : ByteOrder) (units : List UInt16) :
    order.units? (units.flatMap order.split) = some units := by
  induction units with
  | nil => rfl
  | cons unit rest ih =>
    obtain ⟨first, second, hsplit, hcombine⟩ := order.combine_split unit
    rw [List.flatMap_cons, hsplit, List.cons_append, List.cons_append, List.nil_append, units?, ih,
      hcombine]
    rfl

/-- Only an even number of bytes is read as units, and it is the bytes of these units. -/
theorem eq_split_of_units? (order : ByteOrder) {bytes : Bytes} {units : List UInt16}
    (h : order.units? bytes = some units) : bytes = units.flatMap order.split := by
  fun_induction units? order bytes generalizing units with
  | case1 => cases h; rfl
  | case2 => cases h
  | case3 first second rest ih =>
    obtain ⟨more, hmore, rfl⟩ := Option.map_eq_some_iff.mp h
    rw [List.flatMap_cons, split_combine, ← ih hmore]
    rfl

end ByteOrder

end Utf16

/-! ## Marks -/

namespace Encoding

theorem decodeUnits_eq_ok_iff {order : Utf16.ByteOrder} {body : Bytes} {t : Text} :
    decodeUnits order body = .ok t ↔ body = (Utf16.encode t).flatMap order.split := by
  unfold decodeUnits
  constructor
  · intro h
    split at h
    · cases h
    · next units hunits =>
      split at h
      · cases h
      · next t' ht =>
        cases h
        rw [← Utf16.eq_encode_of_decode ht]
        exact order.eq_split_of_units? hunits
  · rintro rfl
    simp only [order.units?_split, Utf16.decode_encode]

/-- With or without a mark, UTF-8 is read in the same way. -/
theorem decodeBody_of_utf8 {encoding : Encoding} (h : encoding ∈ [utf8, utf8Marked]) {body : Bytes}
    {t : Text} :
    encoding.decodeBody body = .ok t ↔ Utf8.decodeFrom encoding.mark.length body = .ok t := by
  have hcases : encoding = utf8 ∨ encoding = utf8Marked := by simpa using h
  rcases hcases with rfl | rfl
  all_goals
    simp only [decodeBody]
    split
    · next hread => simp [hread]
    · next hread => simp [hread]

/-- **What follows the mark is read as a text exactly if the text is written so.** -/
theorem decodeBody_eq_ok_iff {encoding : Encoding} {body : Bytes} {t : Text} :
    encoding.decodeBody body = .ok t ↔ body = encoding.encodeBody t := by
  cases encoding with
  | utf8 | utf8Marked =>
    rw [decodeBody_of_utf8 (by simp)]
    exact Utf8.decodeFrom_eq_ok_iff
  | utf16le => exact decodeUnits_eq_ok_iff
  | utf16be => exact decodeUnits_eq_ok_iff

/-- A content begins with the mark of the encoding that is detected. -/
theorem mark_detect (bytes : Bytes) : (detect bytes).mark <+: bytes := by
  unfold detect
  cases hfind : [utf16le, utf16be, utf8Marked].find? fun e => e.mark.isPrefixOf bytes with
  | none => exact List.nil_prefix
  | some e =>
    exact List.isPrefixOf_iff_prefix.mp
      (List.find?_some (p := fun e : Encoding => e.mark.isPrefixOf bytes) hfind)

/-- The text begins with the character whose bytes are the mark of UTF-8. -/
def beginsWithMark (t : Text) : Bool :=
  t.head? == some '\uFEFF'

theorem mark_utf8Marked : utf8Marked.mark = Utf8.encodeChar '\uFEFF' := by decide

theorem isPrefixOf_encode (t : Text) :
    utf8Marked.mark.isPrefixOf (Utf8.encode t) = beginsWithMark t := by
  rw [mark_utf8Marked, Bool.eq_iff_iff, List.isPrefixOf_iff_prefix, beginsWithMark, beq_iff_eq]
  constructor
  · rintro ⟨rest, hrest⟩
    obtain ⟨t', rfl⟩ := Utf8.eq_cons_of_encode hrest.symm
    rfl
  · intro h
    obtain ⟨t', rfl⟩ := List.head?_eq_some_iff.mp h
    exact List.prefix_append _ _

theorem isPrefixOf_encode_eq_false {b : UInt8} {more : Bytes} (hb : 0xF8 ≤ b.toNat) (t : Text) :
    (b :: more).isPrefixOf (Utf8.encode t) = false := by
  rw [Bool.eq_false_iff, ne_eq, List.isPrefixOf_iff_prefix]
  rintro ⟨rest, hrest⟩
  exact Utf8.encode_ne_cons hb t _ hrest.symm

/-- **A content is detected to be in the encoding it was written in**, unless a text without a mark
begins with a character that looks like one. -/
theorem detect_encode (encoding : Encoding) (t : Text) :
    detect (encoding.encode t) =
      if encoding = .utf8 ∧ beginsWithMark t = true then .utf8Marked else encoding := by
  cases encoding with
  | utf8 =>
    have hcontent : utf8.encode t = Utf8.encode t := rfl
    have hle : utf16le.mark.isPrefixOf (Utf8.encode t) = false :=
      isPrefixOf_encode_eq_false (by decide) t
    have hbe : utf16be.mark.isPrefixOf (Utf8.encode t) = false :=
      isPrefixOf_encode_eq_false (by decide) t
    simp only [detect, hcontent, List.find?_cons, hle, hbe, isPrefixOf_encode, true_and]
    cases beginsWithMark t <;> rfl
  | utf8Marked => rfl
  | utf16le => rfl
  | utf16be => rfl

end Encoding

/-- **A content is read as a text in an encoding exactly if it is written so** and that encoding is the one
that is detected. -/
theorem DecodedText.ofBytes_eq_ok_iff {bytes : Bytes} {d : DecodedText} :
    ofBytes bytes = .ok d ↔ bytes = d.toBytes ∧ Encoding.detect bytes = d.encoding := by
  obtain ⟨text, encoding⟩ := d
  -- Before the body stands the mark that was detected.
  obtain ⟨body, hbody⟩ := Encoding.mark_detect bytes
  have hdrop : bytes.drop (Encoding.detect bytes).mark.length = body := by
    have hsplit : ((Encoding.detect bytes).mark ++ body).drop (Encoding.detect bytes).mark.length =
        body := List.drop_left
    rwa [hbody] at hsplit
  have hread : ofBytes bytes = .ok ⟨text, encoding⟩ ↔
      (Encoding.detect bytes).decodeBody body = .ok text ∧ Encoding.detect bytes = encoding := by
    simp only [ofBytes, hdrop]
    cases (Encoding.detect bytes).decodeBody body <;> simp
  rw [hread, Encoding.decodeBody_eq_ok_iff]
  simp only [toBytes, Encoding.encode]
  constructor
  · rintro ⟨rfl, rfl⟩
    exact ⟨hbody.symm, rfl⟩
  · rintro ⟨hbytes, rfl⟩
    exact ⟨List.append_cancel_left (hbody.trans hbytes), rfl⟩

/-- A text is read back as it was written, unless it only looks as if it had a mark. -/
theorem DecodedText.ofBytes_encode (encoding : Encoding) (t : Text) :
    ofBytes (encoding.encode t) =
      .ok (if encoding = .utf8 ∧ Encoding.beginsWithMark t = true then ⟨t.tail, .utf8Marked⟩
        else ⟨t, encoding⟩) := by
  rw [ofBytes_eq_ok_iff, Encoding.detect_encode]
  split
  · next h =>
    obtain ⟨rfl, hmark⟩ := h
    obtain ⟨t', rfl⟩ := List.head?_eq_some_iff.mp (beq_iff_eq.mp hmark)
    refine ⟨?_, rfl⟩
    show Utf8.encode ('\uFEFF' :: t') = Encoding.utf8Marked.mark ++ Utf8.encode t'
    rw [Utf8.encode_cons, Encoding.mark_utf8Marked]
  · exact ⟨rfl, rfl⟩

/-- **Reading and writing are inverse over the whole format.** A content that is read is written back
byte by byte; exactly those contents are read that some text is written as in some encoding; and a text
is read back as it was written in every encoding, except that U+FEFF at the start of a text without a
mark is taken for the mark. UTF-8 here is that of the strings of the language. -/
theorem read_write_inverse (data : Bytes) (t : Text) (encoding : Encoding) :
    (∀ d, DecodedText.ofBytes data = .ok d → d.encoding.encode d.text = data) ∧
    ((∃ d, DecodedText.ofBytes data = .ok d) ↔
      ∃ (text : Text) (e : Encoding), data = e.encode text) ∧
    DecodedText.ofBytes (encoding.encode t) =
      .ok (if encoding = .utf8 ∧ t.head? = some '\uFEFF' then ⟨t.tail, .utf8Marked⟩
        else ⟨t, encoding⟩) ∧
    Encoding.utf8.encode t = (String.ofList t).toUTF8.data.toList := by
  refine ⟨fun d hd => (DecodedText.ofBytes_eq_ok_iff.mp hd).1.symm, ⟨?_, ?_⟩, ?_,
    Utf8.encode_eq_toUTF8 t⟩
  · rintro ⟨d, hd⟩
    exact ⟨d.text, d.encoding, (DecodedText.ofBytes_eq_ok_iff.mp hd).1⟩
  · rintro ⟨text, e, rfl⟩
    exact ⟨_, DecodedText.ofBytes_encode e text⟩
  · rw [DecodedText.ofBytes_encode]
    simp only [Encoding.beginsWithMark, beq_iff_eq]

end Uncomment
