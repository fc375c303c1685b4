import Uncomment.Proofs.SafeReports

/-!
# Offsets and positions correspond

The lines of a text start at 0 and right after each line feed (`Text.mem_lineStarts_iff`), and the position
of an offset is counted from the text before it. So reading on from an offset leads to a later position
(`Text.before_endPosition_append`): either a line feed comes, and the line is a later one, or none does, and
the column grows. Two offsets therefore never share a position.
-/

namespace Uncomment

/-- The order of reading: by lines, then by columns. -/
def Position.Before (p q : Position) : Prop :=
  p.line < q.line ∨ p.line = q.line ∧ p.column < q.column

theorem Position.Before.ne {p q : Position} (h : p.Before q) : p ≠ q := by
  rintro rfl
  rcases h with h | ⟨-, h⟩ <;> exact Nat.lt_irrefl _ h

theorem Position.Before.asymm {p q : Position} (h : p.Before q) : ¬ q.Before p := by
  unfold Before at h ⊢
  omega

namespace Text

/-! ## Where lines start -/

theorem mem_lineStartsAfter_iff {offset start : Nat} {t : Text} :
    start ∈ lineStartsAfter offset t ↔
      ∃ before after : Text, before ++ '\n' :: after = t ∧ start = offset + before.width + 1 := by
  constructor
  · intro h
    induction t generalizing offset with
    | nil => cases h
    | cons c rest ih =>
      have hlater : start ∈ lineStartsAfter (offset + c.utf8Size) rest →
          ∃ before after : Text, before ++ '\n' :: after = c :: rest ∧ start = offset + before.width + 1 := by
        intro hmem
        obtain ⟨before, after, hsplit, hstart⟩ := ih hmem
        refine ⟨c :: before, after, by rw [List.cons_append, hsplit], ?_⟩
        rw [hstart, width_cons, Nat.add_assoc offset]
      rw [lineStartsAfter] at h
      by_cases hc : c = '\n'
      · rw [if_pos hc] at h
        rcases List.mem_cons.mp h with rfl | hmem
        · subst hc
          exact ⟨[], rest, rfl, rfl⟩
        · exact hlater hmem
      · rw [if_neg hc] at h
        exact hlater h
  · rintro ⟨before, after, rfl, rfl⟩
    rw [lineStartsAfter_append]
    exact List.mem_append_right _ List.mem_cons_self

/-- **Lines start at 0 and right after each line feed**, and nowhere else. -/
theorem mem_lineStarts_iff {start : Nat} {t : Text} :
    start ∈ t.lineStarts ↔
      start = 0 ∨ ∃ before after : Text, before ++ '\n' :: after = t ∧ start = before.width + 1 := by
  rw [lineStarts, List.mem_cons, mem_lineStartsAfter_iff]
  simp only [Nat.zero_add]

/-! ## Reading on -/

/-- The position at the end of a text: its line feeds and its characters after the last of them. -/
def endPosition (t : Text) : Position :=
  ⟨t.count '\n', t.openLine.length⟩

theorem openLine_append_of_notMem {a b : Text} (h : '\n' ∉ b) : (a ++ b).openLine = a.openLine ++ b := by
  have hall : ∀ c ∈ b.reverse, (c != '\n') = true := by
    intro c hc
    rw [bne_iff_ne]
    rintro rfl
    exact h (List.mem_reverse.mp hc)
  unfold openLine List.rtakeWhile
  rw [List.reverse_append, List.takeWhile_append_of_pos hall, List.reverse_append, List.reverse_reverse]

/-- **Reading on leads to a later position.** -/
theorem before_endPosition_append (a : Text) {b : Text} (hb : b ≠ []) :
    a.endPosition.Before (a ++ b).endPosition := by
  by_cases hfeed : '\n' ∈ b
  · left
    have hpos : 0 < b.count '\n' := List.count_pos_iff.mpr hfeed
    show a.count '\n' < (a ++ b).count '\n'
    rw [List.count_append]
    omega
  · right
    constructor
    · show a.count '\n' = (a ++ b).count '\n'
      rw [List.count_append, List.count_eq_zero_of_not_mem hfeed, Nat.add_zero]
    · have hpos : 0 < b.length := List.length_pos_iff.mpr hb
      show a.openLine.length < (a ++ b).openLine.length
      rw [openLine_append_of_notMem hfeed, List.length_append]
      omega

/-- Of two first parts of a text, the narrower one is the start of the other. -/
theorem exists_append_of_width_lt {a b a' b' : Text} (h : a ++ b = a' ++ b') (hlt : a.width < a'.width) :
    ∃ more, more ≠ [] ∧ a' = a ++ more := by
  rcases List.append_eq_append_iff.mp h with ⟨more, rfl, -⟩ | ⟨more, rfl, -⟩
  · refine ⟨more, ?_, rfl⟩
    rintro rfl
    rw [List.append_nil] at hlt
    exact Nat.lt_irrefl _ hlt
  · rw [width_append] at hlt
    omega

/-- **A smaller offset has an earlier position.** -/
theorem before_of_offset_lt {t : Text} {m n : Nat} {p q : Position} (hm : t.IsBoundary m)
    (hn : t.IsBoundary n) (hp : t.position? m = some p) (hq : t.position? n = some q) (h : m < n) :
    p.Before q := by
  obtain ⟨a, b, rfl, rfl⟩ := hm
  obtain ⟨a', b', hsplit, rfl⟩ := hn
  obtain ⟨more, hmore, rfl⟩ := exists_append_of_width_lt hsplit.symm h
  rw [position?_width] at hp
  rw [← hsplit, position?_width] at hq
  cases hp
  cases hq
  exact before_endPosition_append a hmore

end Text

/-- **Offsets and positions correspond one to one.** The line starts of a text of less than 2³² bytes are
found without an overflow; they ascend strictly from 0, and besides 0 they are the offsets right after its
line feeds. Every boundary has a position, found by a search among the line starts that never leaves them:
the number of line feeds before it, and the number of characters after the last of those. So the positions
of two boundaries are in the order of the boundaries, and equal only if these are. -/
theorem offsets_and_positions_correspond {t : Text} (ht : t.width < UInt32.size) :
    Checked.lineStarts? t = some t.lineStarts ∧
    t.lineStarts.Pairwise (· < ·) ∧ t.lineStarts.head? = some 0 ∧
    (∀ start, start ∈ t.lineStarts ↔
      start = 0 ∨ ∃ before after : Text, before ++ '\n' :: after = t ∧ start = before.width + 1) ∧
    (∀ before after : Text, before ++ after = t →
      Checked.position? t.lineStarts t before.width = some before.endPosition ∧
        t.position? before.width = some before.endPosition) ∧
    ∀ m n, t.IsBoundary m → t.IsBoundary n →
      ∃ p q, t.position? m = some p ∧ t.position? n = some q ∧
        (m < n ↔ p.Before q) ∧ (m = n ↔ p = q) := by
  refine ⟨Checked.lineStarts?_eq_some ht, t.pairwise_lineStarts, rfl, fun _ => Text.mem_lineStarts_iff,
    ?_, ?_⟩
  · rintro before after rfl
    exact ⟨Checked.position?_eq before after, Text.position?_width before after⟩
  · intro m n hm hn
    have hposition : ∀ {offset}, t.IsBoundary offset → ∃ p, t.position? offset = some p := by
      rintro _ ⟨a, b, rfl, rfl⟩
      exact ⟨_, Text.position?_width a b⟩
    obtain ⟨p, hp⟩ := hposition hm
    obtain ⟨q, hq⟩ := hposition hn
    refine ⟨p, q, hp, hq, ?_⟩
    rcases Nat.lt_trichotomy m n with hlt | rfl | hgt
    · have hbefore := Text.before_of_offset_lt hm hn hp hq hlt
      exact ⟨iff_of_true hlt hbefore, iff_of_false hlt.ne hbefore.ne⟩
    · obtain rfl : p = q := Option.some.inj (hp.symm.trans hq)
      exact ⟨iff_of_false (Nat.lt_irrefl m) fun h => h.ne rfl, iff_of_true rfl rfl⟩
    · have hbefore := Text.before_of_offset_lt hn hm hq hp hgt
      exact ⟨iff_of_false hgt.asymm hbefore.asymm, iff_of_false hgt.ne' hbefore.ne.symm⟩

/-- A text with a character of several bytes, a carriage return, an empty line and a last line that is not
ended. -/
theorem offsets_and_positions_correspond_of_wide_character :
    Text.width "01\n23ሰ\r\n\n4".toList < UInt32.size ∧
    Text.lineStarts "01\n23ሰ\r\n\n4".toList = [0, 3, 10, 11] ∧
    Text.position? "01\n23ሰ\r\n\n4".toList 8 = some ⟨1, 3⟩ ∧
    Text.IsBoundary "01\n23ሰ\r\n\n4".toList 8 ∧ Text.IsBoundary "01\n23ሰ\r\n\n4".toList 10 ∧
    Position.Before ⟨1, 3⟩ ⟨2, 0⟩ := by
  have hwidth : Text.width "01\n23ሰ\r\n\n4".toList < UInt32.size := by decide
  have hfirst : Text.IsBoundary "01\n23ሰ\r\n\n4".toList 8 :=
    ⟨"01\n23ሰ".toList, "\r\n\n4".toList, rfl, by decide⟩
  have hsecond : Text.IsBoundary "01\n23ሰ\r\n\n4".toList 10 :=
    ⟨"01\n23ሰ\r\n".toList, "\n4".toList, rfl, by decide⟩
  obtain ⟨-, -, -, -, hposition, horder⟩ := offsets_and_positions_correspond hwidth
  obtain ⟨p, q, hp, hq, hbefore, -⟩ := horder 8 10 hfirst hsecond
  obtain ⟨-, height⟩ := hposition "01\n23ሰ".toList "\r\n\n4".toList rfl
  obtain ⟨-, hten⟩ := hposition "01\n23ሰ\r\n".toList "\n4".toList rfl
  refine ⟨hwidth, by decide, height, hfirst, hsecond, ?_⟩
  obtain rfl : p = ⟨1, 3⟩ := Option.some.inj (hp.symm.trans height)
  obtain rfl : q = ⟨2, 0⟩ := Option.some.inj (hq.symm.trans hten)
  exact hbefore.mp (by decide)

end Uncomment
