import Mathlib.Data.List.DropRight
import Mathlib.Data.List.Induction
import Uncomment.Text.Position

/-!
# Line starts and positions

Offsets are resolved to lines and columns by looking them up among the line starts. Here the text before
an offset says what comes out: **the line is the number of its line feeds, the column the number of its
characters after the last of them** (`position?_width`). Everything rests on how line starts go along with
cutting a text in two: those of the first part are at most its width and those of the second are beyond it
(`lineStarts_append`, `mem_lineStarts`), so the line starts up to an offset are those of the text before
it.

An offset of which this can be said is a **boundary**, the width of some first part of the text.
-/

namespace Uncomment.Text

/-- The offset is between two characters, or at one end of the text. -/
def IsBoundary (t : Text) (offset : Nat) : Prop :=
  ∃ before after, before ++ after = t ∧ before.width = offset

theorem isBoundary_width (a b : Text) : IsBoundary (a ++ b) a.width :=
  ⟨a, b, rfl, rfl⟩

theorem IsBoundary.le {t : Text} {offset : Nat} (h : t.IsBoundary offset) : offset ≤ t.width := by
  obtain ⟨before, after, rfl, rfl⟩ := h
  rw [width_append]
  exact Nat.le_add_right _ _

/-! ## Line starts -/

theorem lineStartsAfter_append (offset : Nat) (a b : Text) :
    lineStartsAfter offset (a ++ b) =
      lineStartsAfter offset a ++ lineStartsAfter (offset + a.width) b := by
  induction a generalizing offset with
  | nil => rfl
  | cons c rest ih =>
    rw [List.cons_append, lineStartsAfter, lineStartsAfter, ih, width_cons, Nat.add_assoc]
    split <;> rfl

theorem lineStarts_append (a b : Text) :
    (a ++ b).lineStarts = a.lineStarts ++ lineStartsAfter a.width b := by
  rw [lineStarts, lineStartsAfter_append, Nat.zero_add]
  rfl

/-- The line starts of a piece are after its start and not after its end. -/
theorem mem_lineStartsAfter {offset start : Nat} {t : Text} (h : start ∈ lineStartsAfter offset t) :
    offset < start ∧ start ≤ offset + t.width := by
  induction t generalizing offset with
  | nil => cases h
  | cons c rest ih =>
    have hpos := c.utf8Size_pos
    have hrest : start ∈ lineStartsAfter (offset + c.utf8Size) rest →
        offset < start ∧ start ≤ offset + width (c :: rest) := by
      intro hmem
      obtain ⟨hlt, hle⟩ := ih hmem
      rw [width_cons]
      omega
    rw [lineStartsAfter] at h
    by_cases hc : c = '\n'
    · rw [if_pos hc] at h
      rcases List.mem_cons.mp h with rfl | hmem
      · rw [width_cons]
        omega
      · exact hrest hmem
    · rw [if_neg hc] at h
      exact hrest h

theorem mem_lineStarts {t : Text} {start : Nat} (h : start ∈ t.lineStarts) : start ≤ t.width := by
  rcases List.mem_cons.mp h with rfl | hmem
  · exact Nat.zero_le _
  · have hbounds := mem_lineStartsAfter hmem
    omega

theorem pairwise_lineStartsAfter (offset : Nat) (t : Text) :
    (lineStartsAfter offset t).Pairwise (· < ·) := by
  induction t generalizing offset with
  | nil => exact .nil
  | cons c rest ih =>
    rw [lineStartsAfter]
    by_cases hc : c = '\n'
    · rw [if_pos hc]
      exact .cons (fun _ h => (mem_lineStartsAfter h).1) (ih _)
    · rw [if_neg hc]
      exact ih _

/-- **The line starts ascend strictly.** -/
theorem pairwise_lineStarts (t : Text) : t.lineStarts.Pairwise (· < ·) :=
  .cons (fun _ h => (mem_lineStartsAfter h).1) (pairwise_lineStartsAfter 0 t)

theorem length_lineStartsAfter (offset : Nat) (t : Text) :
    (lineStartsAfter offset t).length = t.count '\n' := by
  induction t generalizing offset with
  | nil => rfl
  | cons c rest ih =>
    rw [lineStartsAfter]
    by_cases hc : c = '\n'
    · rw [if_pos hc, List.length_cons, ih, hc, List.count_cons_self]
    · rw [if_neg hc, ih, List.count_cons_of_ne hc]

theorem length_lineStarts (t : Text) : t.lineStarts.length = t.count '\n' + 1 := by
  rw [lineStarts, List.length_cons, length_lineStartsAfter]

/-! ## The last line of a text -/

/-- The text up to its last line feed, that included. -/
def fullLines (t : Text) : Text :=
  t.rdropWhile (· != '\n')

/-- The text after its last line feed. -/
def openLine (t : Text) : Text :=
  t.rtakeWhile (· != '\n')

theorem fullLines_append_openLine (t : Text) : t.fullLines ++ t.openLine = t :=
  List.rdropWhile_append_rtakeWhile

/-- **The last line start is where the text after the last line feed begins.** -/
theorem getLast?_lineStarts (t : Text) : t.lineStarts.getLast? = some t.fullLines.width := by
  induction t using List.reverseRecOn with
  | nil => rfl
  | append_singleton t c ih =>
    rw [lineStarts_append]
    by_cases hc : c = '\n'
    · have hfull : fullLines (t ++ [c]) = t ++ [c] :=
        List.rdropWhile_concat_neg _ _ _ (by simp [hc])
      rw [hfull, width_append]
      simp [lineStartsAfter, hc]
    · have hfull : fullLines (t ++ [c]) = fullLines t :=
        List.rdropWhile_concat_pos _ _ _ (by simp [hc])
      have hnone : lineStartsAfter (width t) [c] = [] := by simp [lineStartsAfter, hc]
      rw [hfull, hnone, List.append_nil, ih]

/-! ## Positions -/

/-- **The line starts up to a boundary are those of the text before it.** -/
theorem takeWhile_lineStarts (a b : Text) :
    (a ++ b).lineStarts.takeWhile (· ≤ a.width) = a.lineStarts := by
  have hbefore : ∀ start ∈ a.lineStarts, decide (start ≤ a.width) = true :=
    fun start h => decide_eq_true (mem_lineStarts h)
  have hafter : (lineStartsAfter a.width b).takeWhile (· ≤ a.width) = [] := by
    cases hstarts : lineStartsAfter a.width b with
    | nil => rfl
    | cons start rest =>
      have hlt := (mem_lineStartsAfter (hstarts ▸ List.mem_cons_self : start ∈ _)).1
      exact List.takeWhile_cons_of_neg (by simpa using hlt)
  rw [lineStarts_append, List.takeWhile_append_of_pos hbefore, hafter, List.append_nil]

theorem lineAt_width (a b : Text) : (a ++ b).lineAt a.width = a.count '\n' := by
  rw [lineAt, takeWhile_lineStarts, length_lineStarts, Nat.add_sub_cancel]

/-- The line of a boundary is one of the text, and it starts after the last line feed before. -/
theorem getElem?_lineStarts (a b : Text) :
    (a ++ b).lineStarts[a.count '\n']? = some a.fullLines.width := by
  have hlt : a.count '\n' < a.lineStarts.length := by
    rw [length_lineStarts]
    exact Nat.lt_succ_self _
  have hlast : a.lineStarts.length - 1 = a.count '\n' := by rw [length_lineStarts]; rfl
  rw [lineStarts_append, List.getElem?_append_left hlt, ← hlast, ← List.getLast?_eq_getElem?,
    getLast?_lineStarts]

theorem lineStart_count (a b : Text) : (a ++ b).lineStart (a.count '\n') = a.fullLines.width := by
  rw [lineStart, List.getD_eq_getElem?_getD, getElem?_lineStarts, Option.getD_some]

/-- What stands between the start of the line of a boundary and the boundary. -/
theorem slice?_openLine (a b : Text) :
    (a ++ b).slice? a.fullLines.width a.width = some a.openLine := by
  have hslice := slice?_width a.fullLines a.openLine b
  rwa [← width_append, fullLines_append_openLine] at hslice

/-- **The position of a boundary**: the line feeds before it and the characters after the last of them. -/
theorem position?_width (a b : Text) :
    (a ++ b).position? a.width = some ⟨a.count '\n', a.openLine.length⟩ := by
  simp only [position?, lineAt_width, lineStart_count, slice?_openLine]
  rfl

end Uncomment.Text
