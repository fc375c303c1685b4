import Uncomment.Encoding.Utf8

/-!
# Globs

A glob describes paths: `*` stands for any name or part of one, `?` for one byte of a name, `[…]` for one
of some characters, `{…,…}` for one of several globs, and `**` between slashes for any number of
directories. A backslash takes the character after it literally. Paths are compared byte by byte.

## Matching

Matching keeps the set of places in a path that the tokens so far can end at, as one mark for each place:
before every byte, and at the end. A token moves the marks, so a glob takes one pass over the path for
each of its tokens, however many ways there are to match it.

## Nesting

A glob that is nested too deeply cannot be used. What counts as a level is laid down here, by
`GlobToken.nesting`.
-/

namespace Uncomment

/-- A piece of a glob. -/
inductive GlobToken where
  | byte (b : UInt8)
  /-- One byte of a name. -/
  | anyByte
  /-- Any part of a name. -/
  | anyPart
  /-- One byte in, or outside of, some ranges. -/
  | oneOf (negated : Bool) (ranges : List (UInt8 × UInt8))
  /-- Any number of directories at the start of a path. -/
  | anyFolders
  /-- Any number of directories between two names. -/
  | between
  /-- Everything below a directory. -/
  | inside
  /-- Braces with nothing in them. -/
  | blank
  /-- One of several globs, none of them empty. -/
  | choice (alternatives : List (List GlobToken))
  deriving Repr

/-- A glob: its tokens in order. -/
structure Glob where
  tokens : List GlobToken
  deriving Repr

/-! ## Places in a path -/

/-- For each place in a path, before every byte and at the end, whether it is reached. -/
abbrev Places := List Bool

namespace Places

/-- Only the start of a path. -/
def start (path : Bytes) : Places :=
  true :: path.map fun _ => false

/-- The places after one byte with a property. -/
def advance (good : UInt8 → Bool) (path : Bytes) (places : Places) : Places :=
  false :: List.zipWith (fun b reached => good b && reached) path places

/-- The places after any number of bytes with a property. The first place is reached also if `carried`
says so. -/
def spread (good : UInt8 → Bool) (carried : Bool) : Bytes → Places → Places
  | b :: path, reached :: places =>
    (carried || reached) :: spread good (good b && (carried || reached)) path places
  | [], reached :: _ => [carried || reached]
  | _, [] => []

/-- The places in either of two sets. -/
def union : Places → Places → Places :=
  List.zipWith (· || ·)

/-- Whether the end of the path is reached. -/
def atEnd (places : Places) : Bool :=
  places.getLast? == some true

end Places

/-! ## Matching -/

namespace GlobToken

/-- The byte between the names of a path. -/
def slash : UInt8 := 0x2F

/-- The places after a slash, and after every later slash. -/
def afterSlashes (path : Bytes) (places : Places) : Places :=
  Places.advance (· == slash) path (Places.spread (fun _ => true) false path places)

mutual

/-- The places a token can end at when it starts at one of the given places. -/
def move (path : Bytes) : GlobToken → Places → Places
  | byte b, places => Places.advance (· == b) path places
  | anyByte, places => Places.advance (· != slash) path places
  | anyPart, places => Places.spread (· != slash) false path places
  | oneOf negated ranges, places =>
    Places.advance (fun b => ranges.any (fun (low, high) => low ≤ b && b ≤ high) != negated) path
      places
  | anyFolders, places => Places.union places (afterSlashes path places)
  | between, places =>
    let next := Places.advance (· == slash) path places
    Places.union next (afterSlashes path next)
  | inside, places =>
    Places.spread (fun _ => true) false path (Places.advance (· == slash) path places)
  | blank, places => places
  | choice alternatives, places => moveAny path alternatives places

/-- The places a sequence of tokens can end at. -/
def moveAll (path : Bytes) : List GlobToken → Places → Places
  | [], places => places
  | token :: rest, places => moveAll path rest (token.move path places)

/-- The places one of several sequences can end at. -/
def moveAny (path : Bytes) : List (List GlobToken) → Places → Places
  | [], places => places.map fun _ => false
  | tokens :: rest, places =>
    Places.union (moveAll path tokens places) (moveAny path rest places)

end

/-! ## Nesting -/

/-- How many items a token counts as in a sequence. -/
def size : GlobToken → Nat
  | blank => 0
  | inside => 2
  | _ => 1

/-- Whether a token is blank. -/
def isBlank : GlobToken → Bool
  | blank => true
  | _ => false

mutual

/-- The levels of a token: one for each repetition, each set of bytes and each set of more than one range
in it, one for a group of alternatives and one more if there are several, and those of a sequence. -/
def nesting : GlobToken → Nat
  | byte _ | blank => 0
  | anyByte | inside => 1
  | anyPart => 2
  | oneOf _ ranges => if 1 < ranges.length then 2 else 1
  | anyFolders | between => 4
  | choice alternatives => (if 1 < alternatives.length then 2 else 1) + nestingOfAny alternatives

/-- The most levels of a token in a sequence. -/
def nestingOfAll : List GlobToken → Nat
  | [] => 0
  | token :: rest => max token.nesting (nestingOfAll rest)

/-- The most levels of a sequence: those of its tokens, and one more if it has several items. -/
def nestingOfAny : List (List GlobToken) → Nat
  | [] => 0
  | tokens :: rest =>
    max ((if 1 < (tokens.map size).foldl (· + ·) 0 then 1 else 0) + nestingOfAll tokens)
      (nestingOfAny rest)

end

end GlobToken

namespace Glob

/-- Whether a glob describes a path. A glob that is nothing but `**` describes every path. -/
def describes (glob : Glob) (path : Bytes) : Bool :=
  match glob.tokens with
  | [.anyFolders] => true
  | tokens => (GlobToken.moveAll path tokens (Places.start path)).atEnd

/-- The most levels a glob may have. -/
def nestingLimit : Nat := 250

/-- Whether a glob is nested too deeply. Its tokens are one level down. -/
def isTooDeep (glob : Glob) : Bool :=
  nestingLimit < 1 + GlobToken.nestingOfAll glob.tokens

end Glob

end Uncomment
