import Uncomment.Files.Glob

/-!
# Reading globs

The reader keeps a stack of the braces it is in. Inside each it collects the alternatives that are
complete and the one it is reading, the last token first.

A bracket that is never closed stands for itself, and so do all brackets after it. A range that runs
backwards is refused, even in brackets that are never closed.
-/

namespace Uncomment.Glob

/-! ## Brackets -/

/-- What follows an opening bracket. -/
inductive Bracketed where
  | closed (ranges : List (Char × Char)) (rest : Text)
  | unclosed
  | backwards

/-- Reads characters and ranges up to the closing bracket. `ranges` are those before, the last first;
the last is still open to a second end if it is followed by a hyphen. The first character never closes
the brackets. -/
def bracketed (ranges : List (Char × Char)) (hyphen : Bool) : Text → Bracketed
  | [] => .unclosed
  | c :: rest =>
    match ranges with
    | [] => bracketed [(c, c)] false rest
    | last :: before =>
      if c = ']' then .closed ((if hyphen then ('-', '-') :: ranges else ranges).reverse) rest
      else if hyphen then
        if c < last.1 then .backwards else bracketed ((last.1, c) :: before) false rest
      else if c = '-' then bracketed ranges true rest
      else bracketed ((c, c) :: ranges) false rest

/-- Whether brackets begin with a mark of negation, and what follows it. -/
def negation : Text → Bool × Text
  | '!' :: rest => (true, rest)
  | '^' :: rest => (true, rest)
  | t => (false, t)

/-- The bytes of a range of characters: a character of more than one byte stands for each of them. -/
def byteRanges (range : Char × Char) : List (UInt8 × UInt8) :=
  let single (b : UInt8) := (b, b)
  let low := Utf8.encodeChar range.1
  let high := Utf8.encodeChar range.2
  if range.1 = range.2 then low.map single
  else
    low.dropLast.map single ++ [(low.getLastD 0, high.headD 0)] ++ (high.drop 1).map single

theorem length_negation (t : Text) : (negation t).2.length ≤ t.length := by
  unfold negation
  split <;> simp

theorem length_of_bracketed {ranges found : List (Char × Char)} {hyphen : Bool} {t rest : Text}
    (h : bracketed ranges hyphen t = .closed found rest) : rest.length < t.length := by
  induction t generalizing ranges hyphen with
  | nil => simp [bracketed] at h
  | cons c t ih =>
    unfold bracketed at h
    simp only [List.length_cons]
    repeat' split at h
    all_goals first
      | exact Nat.lt_succ_of_lt (ih h)
      | cases h
    all_goals exact Nat.lt_succ_self _

/-! ## Braces -/

/-- The alternatives in a pair of braces, or outside of all. -/
structure Braces where
  /-- The alternatives that are complete. -/
  done : List (List GlobToken) := []
  /-- The alternative being read, the last token first. -/
  current : List GlobToken := []
  /-- Nothing of the alternative being read was seen yet. -/
  fresh : Bool := true

namespace Braces

/-- One more token of the current alternative. -/
def push (braces : Braces) (token : GlobToken) : Braces :=
  { braces with current := token :: braces.current, fresh := false }

/-- Several more tokens of the current alternative. -/
def pushAll (braces : Braces) (tokens : List GlobToken) : Braces :=
  tokens.foldl push braces

/-- A literal character. -/
def pushChar (braces : Braces) (c : Char) : Braces :=
  braces.pushAll ((Utf8.encodeChar c).map .byte)

/-- The last token of the current alternative replaced by another one; directories at the start, and
everything below a directory, already stand for more. -/
def replaceLast (braces : Braces) (token : GlobToken) : Braces :=
  { braces with
    current :=
      match braces.current with
      | .anyFolders :: _ | .inside :: _ => braces.current
      | _ :: before => token :: before
      | [] => [token] }

/-- The current alternative is complete. -/
def next (braces : Braces) : Braces :=
  { done := braces.done ++ [braces.current.reverse] }

/-- A pair of braces inside the current alternative is complete. Empty alternatives count for
nothing. -/
def close (outer inner : Braces) : Braces :=
  match inner.next.done.filter (!·.all GlobToken.isBlank) with
  | [] => outer.push .blank
  | alternatives => outer.push (.choice alternatives)

end Braces

/-! ## Stars -/

/-- What two stars stand for, given the character before them and the text after them, and what is left
of that text. -/
def doubleStar (outer : List Braces) (top : Braces) (previous : Option Char) (after : Text) :
    Braces × Text :=
  let parts := (top.pushAll [.anyPart, .anyPart], after)
  if top.fresh then
    match after with
    | [] => (top.push .anyFolders, [])
    | '/' :: rest => (top.push .anyFolders, rest)
    | _ => parts
  else if previous = some '/' ∨ (!outer.isEmpty ∧ (previous = some ',' ∨ previous = some '{')) then
    match after with
    | [] => (top.replaceLast .inside, [])
    | '/' :: rest => (top.replaceLast .between, rest)
    | c :: _ =>
      if !outer.isEmpty && (c == ',' || c == '}') then (top.replaceLast .inside, after) else parts
  else parts

theorem length_doubleStar (outer : List Braces) (top : Braces) (previous : Option Char)
    (after : Text) :
    (doubleStar outer top previous after).2.length < ('*' :: '*' :: after).length := by
  unfold doubleStar
  dsimp only
  repeat' split
  all_goals simp
  all_goals omega

/-- The character before the text that is left after two stars. -/
def lastAfterStars (after rest : Text) : Char :=
  if rest.length < after.length then '/' else '*'

/-! ## The whole glob -/

/-- Reads the rest of a glob. `top` are the braces it is in, `outer` those around them, and `previous`
is the character before. Brackets stand for themselves if they are not `closable`. -/
def readFrom (closable : Bool) (outer : List Braces) (top : Braces) (previous : Option Char)
    (t : Text) : Option Braces :=
  match t with
  | [] => if outer.isEmpty then some top else none
  | '?' :: rest => readFrom closable outer (top.push .anyByte) (some '?') rest
  | '*' :: '*' :: rest =>
    let after := doubleStar outer top previous rest
    readFrom closable outer after.1 (some (lastAfterStars rest after.2)) after.2
  | '*' :: rest => readFrom closable outer (top.push .anyPart) (some '*') rest
  | '[' :: rest =>
    if closable then
      match _h : bracketed [] false (negation rest).2 with
      | .closed ranges after =>
        readFrom closable outer
          (top.push (.oneOf (negation rest).1 (ranges.flatMap byteRanges))) (some ']') after
      | .unclosed => readFrom false outer (top.pushChar '[') (some '[') rest
      | .backwards => none
    else readFrom closable outer (top.pushChar '[') (some '[') rest
  | '{' :: rest => readFrom closable (top :: outer) {} (some '{') rest
  | '}' :: rest =>
    match outer with
    | [] => none
    | around :: outer => readFrom closable outer (around.close top) (some '}') rest
  | ',' :: rest =>
    if outer.isEmpty then readFrom closable outer (top.pushChar ',') (some ',') rest
    else readFrom closable outer top.next (some ',') rest
  | ['\\'] => none
  | '\\' :: c :: rest => readFrom closable outer (top.pushChar c) (some c) rest
  | c :: rest => readFrom closable outer (top.pushChar c) (some c) rest
termination_by t.length
decreasing_by
  all_goals first
    | (simp only [List.length_cons]; omega)
    | exact length_doubleStar _ _ _ _
    | exact Nat.lt_trans (length_of_bracketed ‹_›) (Nat.lt_succ_of_le (length_negation _))

/-- The glob written as a text, if it is one. -/
def ofText? (t : Text) : Option Glob :=
  (readFrom true [] {} none t).map fun braces => { tokens := braces.current.reverse }

end Uncomment.Glob
