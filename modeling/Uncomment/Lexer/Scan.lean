import Uncomment.Text.CharClass

/-!
# Reading a piece off the front of a text

A reader takes a piece off the front of a text. Two shapes are used. A plain **reader** cannot fail
and gives the piece and what follows it. A **scan** reads something that has to be closed (a string, a
comment) and also tells whether it was.

Both lose nothing: the piece and what follows it, put together, are the text that was read.
-/

namespace Uncomment

/-- Takes a piece off the front of a text and gives it with what follows. -/
abbrev Reader := Text → Text × Text

namespace Reader

/-- The piece and what follows it are the whole text. -/
def Lossless (r : Reader) : Prop :=
  ∀ t, (r t).1 ++ (r t).2 = t

/-- Takes the longest run of characters of a class. -/
def run (p : Char → Bool) : Reader := fun t =>
  (t.takeWhile p, t.dropWhile p)

/-- Takes a number of characters, fewer at the end of the text. -/
def count (n : Nat) : Reader := fun t =>
  (t.take n, t.drop n)

/-- One reader after the other; the two pieces are one. -/
def andThen (first second : Reader) : Reader := fun t =>
  let (a, rest) := first t
  let (b, rest) := second rest
  (a ++ b, rest)

/-- Reads only where a condition on the text holds; otherwise the piece is empty. -/
def onlyIf (condition : Text → Bool) (r : Reader) : Reader := fun t =>
  if condition t then r t else ([], t)

theorem lossless_run (p : Char → Bool) : Lossless (run p) := fun _ =>
  List.takeWhile_append_dropWhile

theorem lossless_count (n : Nat) : Lossless (count n) := fun t =>
  List.take_append_drop n t

theorem Lossless.andThen {first second : Reader} (h : Lossless first) (h' : Lossless second) :
    Lossless (first.andThen second) := by
  intro t
  simp only [Reader.andThen, List.append_assoc]
  rw [h', h]

theorem Lossless.onlyIf {condition : Text → Bool} {r : Reader} (h : Lossless r) :
    Lossless (r.onlyIf condition) := by
  intro t
  unfold Reader.onlyIf
  split
  · exact h t
  · rfl

end Reader

/-- What was read of something that has to be closed. -/
structure Scan where
  /-- The piece that was read. -/
  taken : Text
  /-- What follows it. -/
  rest : Text
  /-- Whether the piece is complete. -/
  closed : Bool
  deriving DecidableEq, Repr

namespace Scan

/-- Nothing more is read, and the piece stays incomplete. -/
def stop (t : Text) : Scan := ⟨[], t, false⟩

/-- The scan of a piece that begins with the given text. -/
def after (beginning : Text) (s : Scan) : Scan :=
  { s with taken := beginning ++ s.taken }

@[simp] theorem after_taken (b : Text) (s : Scan) : (s.after b).taken = b ++ s.taken := rfl

@[simp] theorem after_rest (b : Text) (s : Scan) : (s.after b).rest = s.rest := rfl

@[simp] theorem after_closed (b : Text) (s : Scan) : (s.after b).closed = s.closed := rfl

/-- The piece and what follows it are the text that was read. -/
def Covers (s : Scan) (t : Text) : Prop :=
  s.taken ++ s.rest = t

theorem Covers.after {s : Scan} {t : Text} (h : s.Covers t) (b : Text) :
    (s.after b).Covers (b ++ t) := by
  simp only [Covers, after_taken, after_rest, List.append_assoc]
  rw [h]

theorem covers_stop (t : Text) : (stop t).Covers t := rfl

/-- What follows the piece is no longer than the text. -/
theorem Covers.length_rest_le {s : Scan} {t : Text} (h : s.Covers t) :
    s.rest.length ≤ t.length := by
  rw [← h, List.length_append]
  omega

end Scan

end Uncomment
