import Uncomment.Text.Basic

/-!
# Segments of a comparison

Comparing two sequences of lines cuts them into segments: lines both have, lines only the old one has,
and lines only the new one has. The cut is found by the divide and conquer form of the greedy algorithm
for shortest edit scripts: common lines at both ends are set aside, and the rest is divided where a
search from the front and one from the back meet.

## The search

A **diagonal** `k` holds the points with `x - y = k`, where `x` lines of the old and `y` lines of the new
sequence are behind. A frontier keeps, for each diagonal, the furthest `x` reached with a number of
edits. The two searches take turns, one more edit each time, until their frontiers overlap on a diagonal.

## Termination

The search tries at most half as many edits as there are lines. `segmentsOf` recurses on the two parts
of a division, each of which has fewer lines; a division that divides nothing is answered by replacing
all lines, but a search never gives one.
-/

namespace Uncomment.Patch

/-- A run of lines in a comparison, with where it starts and how long it is. -/
inductive Segment where
  /-- Lines of both sequences. -/
  | keep (old new length : Nat)
  /-- Lines of the old sequence only. -/
  | remove (old length : Nat)
  /-- Lines of the new sequence only. -/
  | add (new length : Nat)
  deriving DecidableEq, Repr

/-- The number of lines of a segment. -/
def Segment.length : Segment → Nat
  | keep _ _ length | remove _ length | add _ length => length

/-! ## Common lines -/

/-- How many lines, at most so many, are the same from two places on. -/
def commonStart (a b : Array Text) (i j : Nat) : Nat → Nat
  | 0 => 0
  | limit + 1 => if a[i]? == b[j]? then commonStart a b (i + 1) (j + 1) limit + 1 else 0

/-- How many lines, at most so many, are the same right before two places. -/
def commonEnd (a b : Array Text) (i j : Nat) : Nat → Nat
  | 0 => 0
  | limit + 1 => if a[i - 1]? == b[j - 1]? then commonEnd a b (i - 1) (j - 1) limit + 1 else 0

theorem commonStart_le (a b : Array Text) (i j limit : Nat) : commonStart a b i j limit ≤ limit := by
  induction limit generalizing i j with
  | zero => simp [commonStart]
  | succ limit ih => unfold commonStart; split <;> simp [ih]

theorem commonEnd_le (a b : Array Text) (i j limit : Nat) : commonEnd a b i j limit ≤ limit := by
  induction limit generalizing i j with
  | zero => simp [commonEnd]
  | succ limit ih => unfold commonEnd; split <;> simp [ih]

/-! ## Frontiers -/

/-- The furthest points reached, by diagonal. -/
structure Frontier where
  /-- No diagonal further from the middle one is stored. -/
  bound : Nat
  reach : Array Nat

namespace Frontier

/-- The frontier before any search. -/
def initial (bound : Nat) : Frontier := { bound, reach := Array.replicate (2 * bound + 1) 0 }

/-- The furthest point on a diagonal. -/
def get (f : Frontier) (k : Int) : Nat := f.reach.getD (k + f.bound).toNat 0

/-- The frontier with another furthest point on a diagonal. -/
def set (f : Frontier) (k : Int) (x : Nat) : Frontier :=
  { f with reach := f.reach.setIfInBounds (k + f.bound).toNat x }

/-- Where a search with `d` edits enters a diagonal: from whichever neighbour reached further. -/
def enter (f : Frontier) (d : Nat) (k : Int) : Nat :=
  if k = -(d : Int) ∨ (k ≠ d ∧ f.get (k - 1) < f.get (k + 1)) then f.get (k + 1)
  else f.get (k - 1) + 1

end Frontier

/-- The part of two sequences that is compared. -/
structure Region where
  old : Nat
  oldLength : Nat
  new : Nat
  newLength : Nat
  deriving DecidableEq, Repr

/-- A point where a region can be divided, relative to its start. -/
abbrev Division := Nat × Nat

/-- The diagonals a search with `d` edits can reach, the topmost first. -/
def diagonals (d : Nat) : List Int :=
  (List.range (d + 1)).map fun (i : Nat) => (d : Int) - 2 * (i : Int)

/-- One more edit of the search from the front. Stops at a division. -/
def searchForward (a b : Array Text) (r : Region) (d : Nat) (backward : Frontier)
    (forward : Frontier) (k : Int) : Except Division Frontier :=
  let delta : Int := r.oldLength - r.newLength
  let x₀ := forward.enter d k
  let y₀ := (x₀ - k).toNat
  let advance :=
    if x₀ ≤ r.oldLength ∧ y₀ ≤ r.newLength then
      commonStart a b (r.old + x₀) (r.new + y₀) (min (r.oldLength - x₀) (r.newLength - y₀))
    else 0
  let x := x₀ + advance
  let forward := forward.set k x
  if delta % 2 ≠ 0 ∧ (k - delta).natAbs + 1 ≤ d ∧ r.oldLength ≤ x + backward.get (delta - k) then
    .error (x₀, y₀)
  else .ok forward

/-- One more edit of the search from the back. Stops at a division. -/
def searchBackward (a b : Array Text) (r : Region) (d : Nat) (forward : Frontier)
    (backward : Frontier) (k : Int) : Except Division Frontier :=
  let delta : Int := r.oldLength - r.newLength
  let x₀ := backward.enter d k
  let y₀ := (x₀ - k).toNat
  let advance :=
    if x₀ < r.oldLength ∧ y₀ < r.newLength then
      commonEnd a b (r.old + r.oldLength - x₀) (r.new + r.newLength - y₀)
        (min (r.oldLength - x₀) (r.newLength - y₀))
    else 0
  let x := x₀ + advance
  let y := y₀ + advance
  let backward := backward.set k x
  if delta % 2 = 0 ∧ (k - delta).natAbs ≤ d ∧ r.oldLength ≤ x + forward.get (delta - k) then
    .error (r.oldLength - x, r.newLength - y)
  else .ok backward

/-- One more edit of both searches. -/
def searchStep (a b : Array Text) (r : Region) (frontiers : Frontier × Frontier) (d : Nat) :
    Except Division (Frontier × Frontier) := do
  let forward ← (diagonals d).foldlM (searchForward a b r d frontiers.2) frontiers.1
  let backward ← (diagonals d).foldlM (searchBackward a b r d forward) frontiers.2
  return (forward, backward)

/-- Where the two searches meet. -/
def division? (a b : Array Text) (r : Region) : Option Division :=
  let most := (r.oldLength + r.newLength + 1) / 2 + 1
  let start := Frontier.initial (most + 1)
  match (List.range most).foldlM (searchStep a b r) (start, start) with
  | .error point => some point
  | .ok _ => none

/-! ## The comparison -/

/-- The segments of a region, in order; lines to add come before lines to remove where the search says
so. -/
def segmentsOf (a b : Array Text) (r : Region) : List Segment :=
  let front := commonStart a b r.old r.new (min r.oldLength r.newLength)
  let back := commonEnd a b (r.old + r.oldLength) (r.new + r.newLength)
    (min (r.oldLength - front) (r.newLength - front))
  let inner : Region :=
    { old := r.old + front, oldLength := r.oldLength - front - back,
      new := r.new + front, newLength := r.newLength - front - back }
  let replaced :=
    (if inner.oldLength = 0 then [] else [Segment.remove inner.old inner.oldLength]) ++
      if inner.newLength = 0 then [] else [Segment.add inner.new inner.newLength]
  let middle :=
    if inner.oldLength = 0 ∨ inner.newLength = 0 then replaced
    else
      match division? a b inner with
      | none => replaced
      | some (x, y) =>
        if _h : x ≤ inner.oldLength ∧ y ≤ inner.newLength ∧ 0 < x + y ∧
            x + y < inner.oldLength + inner.newLength then
          segmentsOf a b { inner with oldLength := x, newLength := y } ++
            segmentsOf a b
              { old := inner.old + x, oldLength := inner.oldLength - x,
                new := inner.new + y, newLength := inner.newLength - y }
        else replaced
  (if front = 0 then [] else [.keep r.old r.new front]) ++ middle ++
    if back = 0 then []
    else [.keep (r.old + r.oldLength - back) (r.new + r.newLength - back) back]
termination_by r.oldLength + r.newLength
decreasing_by
  · simp only [inner] at _h ⊢; omega
  · simp only [inner] at _h ⊢; omega

end Uncomment.Patch
