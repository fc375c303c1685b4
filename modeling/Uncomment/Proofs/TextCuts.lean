import Mathlib.Data.List.Basic
import Uncomment.Text.CharClass

/-!
# Cutting texts

What the functions that cut texts give for a text that is put together of pieces: at a separator, at a
given beginning or ending, at line feeds, and at the white space around it.
-/

namespace Uncomment.Text

/-! ## Separators -/

section Separators

variable {separator : Char} {a b t : Text}

theorem splitAt_of_notMem (h : separator ∉ t) : splitAt separator t = [t] := by
  induction t with
  | nil => rfl
  | cons c rest ih =>
    rw [List.mem_cons, not_or] at h
    simp only [splitAt, ih h.2]
    rw [if_neg (Ne.symm h.1)]

/-- A separator between two texts cuts them apart. -/
theorem splitAt_append_cons (a b : Text) :
    splitAt separator (a ++ separator :: b) = splitAt separator a ++ splitAt separator b := by
  induction a with
  | nil =>
    obtain ⟨piece, pieces, hb⟩ := List.exists_cons_of_ne_nil (splitAt_ne_nil separator b)
    simp [splitAt, hb]
  | cons c rest ih =>
    obtain ⟨piece, pieces, hrest⟩ := List.exists_cons_of_ne_nil (splitAt_ne_nil separator rest)
    simp only [List.cons_append, splitAt, ih, hrest]
    split <;> rfl

theorem notMem_of_mem_splitAt {piece : Text} (h : piece ∈ splitAt separator t) :
    separator ∉ piece := by
  induction t generalizing piece with
  | nil => simp_all [splitAt]
  | cons c rest ih =>
    obtain ⟨first, pieces, hrest⟩ := List.exists_cons_of_ne_nil (splitAt_ne_nil separator rest)
    have hfirst : separator ∉ first := ih (by simp [hrest])
    simp only [splitAt, hrest] at h
    split at h
    · rcases List.mem_cons.mp h with rfl | h
      · exact List.not_mem_nil
      · exact ih (hrest ▸ h)
    · next hc =>
      rcases List.mem_cons.mp h with rfl | h
      · exact List.not_mem_cons_of_ne_of_not_mem (Ne.symm hc) hfirst
      · exact ih (hrest ▸ List.mem_cons_of_mem _ h)

/-- Pieces without the separator are found again in what they are joined to. -/
theorem splitAt_join {pieces : List Text} (hne : pieces ≠ [])
    (h : ∀ piece ∈ pieces, separator ∉ piece) : splitAt separator (join [separator] pieces) = pieces := by
  induction pieces with
  | nil => exact absurd rfl hne
  | cons piece rest ih =>
    have hpiece := splitAt_of_notMem (h piece List.mem_cons_self)
    cases rest with
    | nil => exact hpiece
    | cons next rest =>
      have hrest := ih (by simp) fun p hp => h p (List.mem_cons_of_mem _ hp)
      rw [join, List.append_assoc, List.singleton_append, splitAt_append_cons, hpiece, hrest]
      · rfl
      · simp

/-- The second piece begins right after the first separator and ends before the next one. -/
theorem getElem?_one_splitAt (h : separator ∉ a) :
    (splitAt separator (a ++ separator :: b))[1]? = some (b.takeWhile (· != separator)) := by
  rw [splitAt_append_cons, splitAt_of_notMem h, List.singleton_append, List.getElem?_cons_succ]
  clear h
  induction b with
  | nil => rfl
  | cons c rest ih =>
    obtain ⟨piece, pieces, hrest⟩ := List.exists_cons_of_ne_nil (splitAt_ne_nil separator rest)
    rw [hrest, List.getElem?_cons_zero, Option.some_inj] at ih
    rw [splitAt, hrest]
    by_cases hc : c = separator
    · simp [hc]
    · simp [hc, ih]

theorem cutOnce?_of_notMem (h : separator ∉ t) : cutOnce? separator t = none := by
  induction t with
  | nil => rfl
  | cons c rest ih =>
    rw [List.mem_cons, not_or] at h
    rw [cutOnce?, if_neg (Ne.symm h.1), ih h.2, Option.map_none]

theorem cutOnce?_append_cons (h : separator ∉ a) :
    cutOnce? separator (a ++ separator :: b) = some (a, b) := by
  induction a with
  | nil => rw [List.nil_append, cutOnce?, if_pos rfl]
  | cons c rest ih =>
    rw [List.mem_cons, not_or] at h
    rw [List.cons_append, cutOnce?, if_neg (Ne.symm h.1), ih h.2, Option.map_some]

theorem cutOnce?_eq_some (h : cutOnce? separator t = some (a, b)) : t = a ++ separator :: b := by
  by_cases hmem : separator ∈ t
  · obtain ⟨before, after, rfl, hnot⟩ := List.eq_append_cons_of_mem hmem
    rw [cutOnce?_append_cons hnot] at h
    cases h
    rfl
  · rw [cutOnce?_of_notMem hmem] at h
    cases h

theorem cutLast?_of_notMem (h : separator ∉ t) : cutLast? separator t = none := by
  rw [cutLast?, cutOnce?_of_notMem (by simpa using h), Option.map_none]

theorem cutLast?_append_cons (h : separator ∉ b) :
    cutLast? separator (a ++ separator :: b) = some (a, b) := by
  rw [cutLast?, List.reverse_append, List.reverse_cons, List.append_assoc, List.singleton_append,
    cutOnce?_append_cons (by simpa using h)]
  simp

theorem exists_last_cut (h : separator ∈ t) : ∃ a b, t = a ++ separator :: b ∧ separator ∉ b := by
  obtain ⟨after, before, hreverse, hnot⟩ := List.eq_append_cons_of_mem (List.mem_reverse.mpr h)
  refine ⟨before.reverse, after.reverse, ?_, by simpa using hnot⟩
  rw [← t.reverse_reverse, hreverse]
  simp

theorem takeWhile_append_cons_of_notMem (h : separator ∉ a) :
    (a ++ separator :: b).takeWhile (· != separator) = a := by
  have hall : ∀ c ∈ a, (c != separator) = true := by
    intro c hc
    rw [bne_iff_ne]
    rintro rfl
    exact h hc
  rw [List.takeWhile_append_of_pos hall, List.takeWhile_cons_of_neg (by simp), List.append_nil]

theorem takeWhile_append_cons_isPrefix (a b : Text) :
    (a ++ separator :: b).takeWhile (· != separator) <+: a := by
  induction a with
  | nil => simp
  | cons c rest ih =>
    by_cases hc : c = separator
    · simp [hc]
    · rw [List.cons_append, List.takeWhile_cons_of_pos (by simpa using hc), List.cons_prefix_cons]
      exact ⟨rfl, ih⟩

end Separators

/-! ## Beginnings and endings -/

theorem dropStart?_append (a b : Text) : dropStart? a (a ++ b) = some b := by
  rw [dropStart?, if_pos (List.isPrefixOf_iff_prefix.mpr (List.prefix_append a b)), List.drop_left]

theorem dropEnd?_append (a b : Text) : dropEnd? b (a ++ b) = some a := by
  rw [dropEnd?, if_pos (List.isSuffixOf_iff_suffix.mpr (List.suffix_append a b)), List.length_append,
    Nat.add_sub_cancel, List.take_left]

theorem dropStart?_eq_some {beginning rest t : Text} (h : dropStart? beginning t = some rest) :
    t = beginning ++ rest := by
  unfold dropStart? at h
  split at h
  · next hbeginning =>
    obtain ⟨more, rfl⟩ := List.isPrefixOf_iff_prefix.mp hbeginning
    rw [List.drop_left] at h
    rw [Option.some.inj h]
  · cases h

theorem dropEnd?_eq_some {ending start t : Text} (h : dropEnd? ending t = some start) :
    t = start ++ ending := by
  unfold dropEnd? at h
  split at h
  · next hending =>
    obtain ⟨more, rfl⟩ := List.isSuffixOf_iff_suffix.mp hending
    rw [List.length_append, Nat.add_sub_cancel, List.take_left] at h
    rw [Option.some.inj h]
  · cases h

/-! ## Lines -/

theorem linesWithEnds_append_feed {a : Text} (b : Text) (h : '\n' ∉ a) :
    linesWithEnds (a ++ '\n' :: b) = (a ++ ['\n']) :: linesWithEnds b := by
  induction a with
  | nil => rw [List.nil_append, linesWithEnds, if_pos rfl, List.nil_append]
  | cons c rest ih =>
    rw [List.mem_cons, not_or] at h
    rw [List.cons_append, linesWithEnds, if_neg (Ne.symm h.1), ih h.2]
    rfl

theorem linesWithEnds_of_notMem {t : Text} (h : '\n' ∉ t) :
    linesWithEnds t = if t = [] then [] else [t] := by
  induction t with
  | nil => rfl
  | cons c rest ih =>
    rw [List.mem_cons, not_or] at h
    rw [linesWithEnds, if_neg (Ne.symm h.1), ih h.2]
    cases rest <;> rfl

/-- A line is read without its line feed and without a carriage return before that. -/
theorem lines_append_feed {a : Text} (b : Text) (h : '\n' ∉ a) :
    lines (a ++ '\n' :: b) = (dropEnd? ['\r'] a).getD a :: lines b := by
  rw [lines, linesWithEnds_append_feed b h, List.map_cons, withoutEnd, dropEnd?_append]
  rfl

theorem lines_of_notMem {t : Text} (h : '\n' ∉ t) : lines t = if t = [] then [] else [t] := by
  rw [lines, linesWithEnds_of_notMem h]
  split
  · rfl
  · have hend : dropEnd? ['\n'] t = none := by
      cases hdrop : dropEnd? ['\n'] t with
      | none => rfl
      | some start =>
        rw [dropEnd?_eq_some hdrop] at h
        exact absurd (List.mem_append_right _ List.mem_cons_self) h
    rw [List.map_singleton, withoutEnd, hend]

/-! ## White space at the ends -/

theorem trimStart_append_of_blank {a : Text} (b : Text) (h : ∀ c ∈ a, isBlank c = true) :
    trimStart (a ++ b) = trimStart b :=
  List.dropWhile_append_of_pos h

theorem trimStart_cons_of_not_blank {c : Char} (rest : Text) (h : isBlank c = false) :
    trimStart (c :: rest) = c :: rest :=
  List.dropWhile_cons_of_neg (by simp [h])

/-- What a text begins with after its white space, a longer text begins with too. -/
theorem isPrefix_trimStart_append {a t : Text} (b : Text) (hne : a ≠ []) (h : a <+: trimStart t) :
    a <+: trimStart (t ++ b) := by
  have hstart : trimStart (t ++ b) = trimStart t ++ b := by
    rw [trimStart, List.dropWhile_append, if_neg]
    · rfl
    · rw [List.isEmpty_iff]
      intro hnil
      exact hne (List.prefix_nil.mp (hnil ▸ h))
  rw [hstart]
  exact h.trans (List.prefix_append _ _)

theorem trimEnd_concat_of_not_blank {c : Char} (t : Text) (h : isBlank c = false) :
    trimEnd (t ++ [c]) = t ++ [c] := by
  rw [trimEnd, List.reverse_append, List.reverse_singleton, List.singleton_append,
    List.dropWhile_cons_of_neg (by simp [h])]
  simp

theorem trimEnd_concat_of_blank {c : Char} (t : Text) (h : isBlank c = true) :
    trimEnd (t ++ [c]) = trimEnd t := by
  rw [trimEnd, List.reverse_append, List.reverse_singleton, List.singleton_append,
    List.dropWhile_cons_of_pos h]
  rfl

theorem trimEnd_isPrefix (t : Text) : trimEnd t <+: t := by
  rw [trimEnd, ← List.reverse_suffix, List.reverse_reverse]
  exact List.dropWhile_suffix _

/-- Only white space at the ends is taken away. -/
theorem trim_eq_self {t : Text} (hhead : ∀ c ∈ t.head?, isBlank c = false)
    (hlast : ∀ c ∈ t.getLast?, isBlank c = false) : trim t = t := by
  have hstart : trimStart t = t := by
    cases t with
    | nil => rfl
    | cons c rest => exact trimStart_cons_of_not_blank rest (hhead c rfl)
  rw [trim, hstart]
  rcases List.eq_nil_or_concat' t with rfl | ⟨front, c, rfl⟩
  · rfl
  · exact trimEnd_concat_of_not_blank front (hlast c (by simp))

theorem isBlank_head_trimStart {t : Text} : ∀ c ∈ (trimStart t).head?, isBlank c = false := by
  intro c hc
  have hnot := List.head?_dropWhile_not isBlank t
  rw [show (t.dropWhile isBlank).head? = some c from hc] at hnot
  exact hnot

theorem trim_trim (t : Text) : trim (trim t) = trim t := by
  refine trim_eq_self (fun c hc => ?_) (fun c hc => ?_)
  · obtain ⟨more, hmore⟩ := trimEnd_isPrefix (trimStart t)
    refine isBlank_head_trimStart (t := t) c ?_
    rw [← hmore, List.head?_append, show (trimEnd (trimStart t)).head? = some c from hc]
    rfl
  · rw [trim, trimEnd, List.getLast?_reverse] at hc
    exact isBlank_head_trimStart c hc

/-- Beside a character that is no white space, each side is trimmed for itself. -/
theorem trimStart_append_cons {c : Char} (a b : Text) (h : isBlank c = false) :
    trimStart (a ++ c :: b) = trimStart a ++ c :: b := by
  induction a with
  | nil => exact trimStart_cons_of_not_blank b h
  | cons x a ih =>
    unfold trimStart at ih ⊢
    rw [List.cons_append, List.dropWhile_cons, List.dropWhile_cons]
    split
    · exact ih
    · rfl

theorem trimEnd_append_cons {c : Char} (a b : Text) (h : isBlank c = false) :
    trimEnd (a ++ c :: b) = a ++ c :: trimEnd b := by
  have hstart := trimStart_append_cons b.reverse a.reverse h
  unfold trimStart at hstart
  rw [trimEnd, trimEnd, List.reverse_append, List.reverse_cons, List.append_assoc, List.singleton_append, hstart]
  simp

theorem trim_append_cons {c : Char} (a b : Text) (h : isBlank c = false) :
    trim (a ++ c :: b) = trimStart a ++ c :: trimEnd b := by
  rw [trim, trimStart_append_cons a b h, trimEnd_append_cons _ b h]

theorem trim_map {f : Char → Char} (hf : ∀ c, isBlank (f c) = isBlank c) (t : Text) :
    trim (t.map f) = (trim t).map f := by
  have hcomp : isBlank ∘ f = isBlank := funext hf
  simp only [trim, trimEnd, trimStart, List.dropWhile_map, ← List.map_reverse, hcomp]

theorem trim_sublist (t : Text) : (trim t).Sublist t :=
  (trimEnd_isPrefix _).sublist.trans (List.dropWhile_suffix _).sublist

end Uncomment.Text
