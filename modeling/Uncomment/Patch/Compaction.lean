import Uncomment.Patch.Segment

/-!
# Compaction

A comparison can often be cut in more than one way: a removed run of lines can slide over the common
lines beside it as long as it takes in on one side what it gives up on the other. Each removed run, and
then each added one, is slid up as far as it goes and down again as far as it goes. On its way it merges
with runs of its own kind and passes those of the other kind.

## Termination

Sliding up uses up the segments before a run, line by line, and sliding down those after it. A pass over
all runs never goes back behind a run it has slid down, so it takes no more steps than there are lines
and segments; that number is its fuel.
-/

namespace Uncomment.Patch

/-- A place in a list of segments. -/
structure Zipper where
  /-- What comes before, the nearest first. -/
  before : List Segment
  focus : Segment
  after : List Segment
  deriving DecidableEq, Repr

/-- Lines and segments of a list. -/
def totalSize : List Segment → Nat
  | [] => 0
  | segment :: rest => segment.length + 1 + totalSize rest

/-- A common run in front of others, joined with the first of them if that is common too. -/
def consKeep (old new length : Nat) : List Segment → List Segment
  | .keep _ _ more :: rest => .keep old new (length + more) :: rest
  | segments => .keep old new length :: segments

/-- A common run right after the others, joined with the nearest of them if that is common too. -/
def snocKeep (old new length : Nat) : List Segment → List Segment
  | .keep old' new' more :: rest => .keep old' new' (more + length) :: rest
  | segments => .keep old new length :: segments

/-- Slides a run up as far as it goes. -/
def slideUp (a b : Array Text) : List Segment → Segment → List Segment → Zipper
  | [], run, after => ⟨[], run, after⟩
  | .keep old new length :: before, .remove place size, after =>
    let n := commonEnd a b (place + size) (new + length) (min size length)
    if length = 0 then slideUp a b before (.remove place size) after
    else if n = 0 then ⟨.keep old new length :: before, .remove place size, after⟩
    else
      let after := consKeep (place + size - n) (new + length - n) n after
      let run := Segment.remove (place - n) size
      if length ≤ n then slideUp a b before run after
      else slideUp a b (.keep old new (length - n) :: before) run after
  | .keep old new length :: before, .add place size, after =>
    let n := commonEnd b a (place + size) (old + length) (min size length)
    if length = 0 then slideUp a b before (.add place size) after
    else if n = 0 then ⟨.keep old new length :: before, .add place size, after⟩
    else
      let after := consKeep (old + length - n) (place + size - n) n after
      let run := Segment.add (place - n) size
      if length ≤ n then slideUp a b before run after
      else slideUp a b (.keep old new (length - n) :: before) run after
  | .remove place size :: before, .remove _ more, after =>
    slideUp a b before (.remove place (size + more)) after
  | .add place size :: before, .add _ more, after =>
    slideUp a b before (.add place (size + more)) after
  | other :: before, run, after => slideUp a b before run (other :: after)
termination_by before => totalSize before
decreasing_by
  all_goals simp only [totalSize, Segment.length]
  all_goals omega

/-- Slides a run down as far as it goes. -/
def slideDown (a b : Array Text) : List Segment → Segment → List Segment → Zipper
  | before, run, [] => ⟨before, run, []⟩
  | before, .remove place size, .keep old new length :: after =>
    let n := commonStart a b place new (min size length)
    if length = 0 then slideDown a b before (.remove place size) after
    else if n = 0 then ⟨before, .remove place size, .keep old new length :: after⟩
    else
      let before := snocKeep place new n before
      let run := Segment.remove (place + n) size
      if length ≤ n then slideDown a b before run after
      else slideDown a b before run (.keep (old + n) (new + n) (length - n) :: after)
  | before, .add place size, .keep old new length :: after =>
    let n := commonStart b a place old (min size length)
    if length = 0 then slideDown a b before (.add place size) after
    else if n = 0 then ⟨before, .add place size, .keep old new length :: after⟩
    else
      let before := snocKeep old place n before
      let run := Segment.add (place + n) size
      if length ≤ n then slideDown a b before run after
      else slideDown a b before run (.keep (old + n) (new + n) (length - n) :: after)
  | before, .remove place size, .remove _ more :: after =>
    slideDown a b before (.remove place (size + more)) after
  | before, .add place size, .add _ more :: after =>
    slideDown a b before (.add place (size + more)) after
  | before, run, other :: after => slideDown a b (other :: before) run after
termination_by _ _ after => totalSize after
decreasing_by
  all_goals simp only [totalSize, Segment.length]
  all_goals omega

/-- Slides every run that is meant, from the top down. -/
def slideAll (a b : Array Text) (isMeant : Segment → Bool) :
    Nat → List Segment → List Segment → List Segment
  | 0, before, after => before.reverse ++ after
  | _ + 1, before, [] => before.reverse
  | fuel + 1, before, segment :: after =>
    if isMeant segment then
      let up := slideUp a b before segment after
      let down := slideDown a b up.before up.focus up.after
      slideAll a b isMeant fuel (down.focus :: down.before) down.after
    else slideAll a b isMeant fuel (segment :: before) after

/-- Whether lines are removed. -/
def Segment.isRemove : Segment → Bool
  | remove .. => true
  | keep .. | add .. => false

/-- Whether lines are added. -/
def Segment.isAdd : Segment → Bool
  | add .. => true
  | keep .. | remove .. => false

/-- The segments with every run slid to its place: the removed ones first, then the added ones. -/
def compact (a b : Array Text) (segments : List Segment) : List Segment :=
  let fuel (segments : List Segment) := a.size + b.size + segments.length + 1
  let segments := slideAll a b Segment.isRemove (fuel segments) [] segments
  slideAll a b Segment.isAdd (fuel segments) [] segments

end Uncomment.Patch
