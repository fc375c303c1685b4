import Uncomment.Lexer.Literal

/-!
# Interpolated strings

An interpolated string holds **holes** with expressions, which hold strings again, interpolated ones
included. It is one token all the same. The reader keeps a stack of where it is: in the body of a
string or in a hole, the innermost first. Each move takes at least one character and replaces the
stack; the token is complete when the stack is empty.

## Termination

`scanFrames` follows `Frame.move`, and `Frame.length_move` says that a move leaves less text.
-/

namespace Uncomment

/-- Where the reader of an interpolated string is. -/
inductive Frame where
  /-- In the body of a string that was marked with a number of dollars. -/
  | body (style : StringStyle) (dollars : Nat)
  /-- In a hole of such a string, inside a number of braces of the expression itself. -/
  | hole (dollars depth : Nat)
  deriving DecidableEq, Repr

/-! ## Openings -/

/-- The marks in front of the quotes. -/
def stringMarks (t : Text) : Text :=
  t.takeWhile fun c => c == '$' || c == '@'

/-- Whether an interpolated string starts here: dollars and at most one `@`, then a quote. -/
def startsInterpolated (t : Text) : Bool :=
  let marks := stringMarks t
  marks.contains '$' && marks.count '@' ≤ 1 && (t.drop marks.length).head? == some '"'

/-- Reads the marks and the opening quotes of an interpolated string. -/
def openingInterpolated (t : Text) : Frame × Text × Text :=
  let marks := stringMarks t
  let (style, quotes, rest) := openingQuotes (marks.contains '@') (t.drop marks.length)
  (.body style (marks.count '$'), marks ++ quotes, rest)

/-! ## Moves -/

/-- One move of the reader. -/
inductive Move where
  /-- The string ends here without being closed. -/
  | stop (scan : Scan)
  /-- A piece was taken, and these are the frames now. -/
  | go (taken rest : Text) (frames : List Frame)
  deriving DecidableEq, Repr

/-- The run of one character at the front of a text. -/
def runLength (c : Char) (t : Text) : Nat :=
  (t.takeWhile (· == c)).length

/-- A piece that has to be closed is taken whole, or the string ends with it. -/
def Move.nested (frames : List Frame) (scan : Scan) : Move :=
  if scan.closed then .go scan.taken scan.rest frames else .stop scan

/-- A move in the body of a string. Braces open a hole: one in a regular or verbatim string, where two
are an escaped brace, and at least as many as there are dollars in a raw one. -/
def Frame.moveInBody (style : StringStyle) (dollars : Nat) (outer : List Frame) (t : Text) : Move :=
  let stay := Frame.body style dollars :: outer
  let hole := Frame.hole dollars 0 :: stay
  match t with
  | [] => .stop (.stop [])
  | c :: rest =>
    if isLineBreak c ∧ style = .regular then .stop (.stop (c :: rest))
    else if c = '\\' ∧ style = .regular then
      match rest with
      | [] => .go [c] [] stay
      | d :: more => if isLineBreak d then .go [c] (d :: more) stay else .go [c, d] more stay
    else if c = '"' then
      let quotes := closingQuotes style (c :: rest)
      .go quotes.taken quotes.rest (if quotes.closed then outer else stay)
    else if c = '{' then
      let run := runLength '{' (c :: rest)
      match style with
      | .raw _ =>
        .go ((c :: rest).take run) ((c :: rest).drop run) (if dollars ≤ run then hole else stay)
      | .regular | .verbatim =>
        if 2 ≤ run then .go ((c :: rest).take 2) ((c :: rest).drop 2) stay
        else .go [c] rest hole
    else .go [c] rest stay

/-- A move in a hole. Strings, character literals and comments are taken whole, so their braces do not
count; the hole is closed by as many braces as there are dollars, fewer if fewer stand there. -/
def Frame.moveInHole (dollars depth : Nat) (outer : List Frame) (t : Text) : Move :=
  let stay := Frame.hole dollars depth :: outer
  match t with
  | [] => .stop (.stop [])
  | c :: rest =>
    if c = '{' then .go [c] rest (.hole dollars (depth + 1) :: outer)
    else if c = '}' then
      match depth with
      | 0 =>
        let closing := min (runLength '}' (c :: rest)) (max dollars 1)
        .go ((c :: rest).take closing) ((c :: rest).drop closing) outer
      | depth + 1 => .go [c] rest (.hole dollars depth :: outer)
    else if c = '"' ∨ (c = '@' ∧ rest.head? = some '"') then
      .nested stay (stringLiteral (c :: rest))
    else if c = '\'' then .nested stay (characterLiteral (c :: rest))
    else if (c = '$' ∨ c = '@') ∧ startsInterpolated (c :: rest) then
      let (frame, taken, rest) := openingInterpolated (c :: rest)
      .go taken rest (frame :: stay)
    else if c = '/' ∧ rest.head? = some '/' then
      .go (Text.currentLine (c :: rest)) (Text.afterLine (c :: rest)) stay
    else if c = '/' ∧ rest.head? = some '*' then .nested stay (blockComment (c :: rest))
    else .go [c] rest stay

/-- A move where the innermost frame is the given one. -/
def Frame.move (frame : Frame) (outer : List Frame) (t : Text) : Move :=
  match frame with
  | .body style dollars => moveInBody style dollars outer t
  | .hole dollars depth => moveInHole dollars depth outer t

/-! ## Every move takes something and loses nothing -/

/-- The piece is not empty, and with what follows it is the text. -/
def Move.Sound (m : Move) (t : Text) : Prop :=
  match m with
  | .stop scan => scan.Covers t
  | .go taken rest _ => taken ++ rest = t ∧ taken ≠ []

theorem runLength_pos (c : Char) (rest : Text) : 0 < runLength c (c :: rest) := by
  simp [runLength]

theorem sound_take {c : Char} {rest : Text} {n : Nat} (h : 0 < n) (frames : List Frame) :
    (Move.go ((c :: rest).take n) ((c :: rest).drop n) frames).Sound (c :: rest) := by
  refine ⟨List.take_append_drop _ _, ?_⟩
  simp only [ne_eq, List.take_eq_nil_iff, reduceCtorEq, or_false]
  omega

theorem sound_one (c : Char) (rest : Text) (frames : List Frame) :
    (Move.go [c] rest frames).Sound (c :: rest) := ⟨rfl, by simp⟩

theorem sound_nested {scan : Scan} {t : Text} (h : scan.Covers t) (hne : scan.taken ≠ [])
    (frames : List Frame) : (Move.nested frames scan).Sound t := by
  unfold Move.nested
  split
  · exact ⟨h, hne⟩
  · exact h

theorem closingQuotes_taken_ne_nil (style : StringStyle) (rest : Text) :
    (closingQuotes style ('"' :: rest)).taken ≠ [] := by
  intro h
  have hc := covers_closingQuotes style ('"' :: rest)
  have hl := length_closingQuotes style rest
  rw [Scan.Covers, h, List.nil_append] at hc
  rw [hc] at hl
  simp only [List.length_cons] at hl
  omega

theorem openingQuotes_taken_ne_nil (verbatim : Bool) {t : Text} (h : t ≠ []) :
    (openingQuotes verbatim t).2.1 ≠ [] := by
  unfold openingQuotes
  simp only
  split
  · next hq =>
    simp only [Bool.and_eq_true, decide_eq_true_eq] at hq
    simp only [ne_eq, List.take_eq_nil_iff, h, or_false]
    omega
  · simp [h]

theorem stringLiteral_taken_ne_nil (c : Char) (rest : Text) :
    (stringLiteral (c :: rest)).taken ≠ [] := by
  unfold stringLiteral
  by_cases h : c = '@'
  · simp [h]
  · have hne := openingQuotes_taken_ne_nil (c == '@') (List.cons_ne_nil c rest)
    simp [h, hne]

theorem characterLiteral_taken_ne_nil (c : Char) (rest : Text) :
    (characterLiteral (c :: rest)).taken ≠ [] := by
  simp [characterLiteral]

theorem blockComment_taken_ne_nil (c : Char) (rest : Text) :
    (blockComment (c :: rest)).taken ≠ [] := by
  simp [blockComment]

theorem append_openingInterpolated (t : Text) :
    (openingInterpolated t).2.1 ++ (openingInterpolated t).2.2 = t := by
  unfold openingInterpolated
  simp only
  rw [List.append_assoc, append_openingQuotes]
  have h : t.take (stringMarks t).length = stringMarks t := by
    have := List.takeWhile_append_dropWhile (p := fun c => c == '$' || c == '@') (l := t)
    conv => lhs; arg 2; rw [← this]
    exact List.take_left
  conv => rhs; rw [← List.take_append_drop (stringMarks t).length t, h]

/-- A string marked with dollars has marks. -/
theorem openingInterpolated_taken_ne_nil {t : Text} (h : startsInterpolated t = true) :
    (openingInterpolated t).2.1 ≠ [] := by
  unfold openingInterpolated
  simp only
  simp only [startsInterpolated, Bool.and_eq_true] at h
  intro hnil
  have hm : stringMarks t = [] := (List.append_eq_nil_iff.mp hnil).1
  rw [hm] at h
  simp at h

theorem Frame.sound_moveInBody (style : StringStyle) (dollars : Nat) (outer : List Frame)
    (t : Text) : (moveInBody style dollars outer t).Sound t := by
  unfold moveInBody
  simp only
  split
  · rfl
  · next c rest =>
    split
    · rfl
    · split
      · split
        · exact ⟨rfl, by simp⟩
        · split
          · exact ⟨rfl, by simp⟩
          · exact ⟨rfl, by simp⟩
      · split
        · next hc =>
          subst hc
          exact ⟨covers_closingQuotes _ _, closingQuotes_taken_ne_nil _ _⟩
        · split
          · next hc =>
            subst hc
            split
            · exact sound_take (runLength_pos _ _) _
            all_goals
              split
              · exact sound_take (by omega) _
              · exact sound_one _ _ _
          · exact sound_one _ _ _

theorem Frame.sound_moveInHole (dollars depth : Nat) (outer : List Frame) (t : Text) :
    (moveInHole dollars depth outer t).Sound t := by
  unfold moveInHole
  simp only
  split
  · rfl
  · next c rest =>
    split
    · exact sound_one _ _ _
    · split
      · next hc =>
        subst hc
        split
        · have := runLength_pos '}' rest
          exact sound_take (by omega) _
        · exact sound_one _ _ _
      · split
        · exact sound_nested (covers_stringLiteral _) (stringLiteral_taken_ne_nil _ _) _
        · split
          · exact sound_nested (covers_characterLiteral _) (characterLiteral_taken_ne_nil _ _) _
          · split
            · next h =>
              exact ⟨append_openingInterpolated _, openingInterpolated_taken_ne_nil h.2⟩
            · split
              · next h =>
                refine ⟨Text.currentLine_append_afterLine _, ?_⟩
                rw [h.1]
                simp [Text.currentLine, isLineBreak]
              · split
                · exact sound_nested (covers_blockComment _) (blockComment_taken_ne_nil _ _) _
                · exact sound_one _ _ _

theorem Frame.sound_move (frame : Frame) (outer : List Frame) (t : Text) :
    (frame.move outer t).Sound t := by
  cases frame with
  | body style dollars => exact sound_moveInBody style dollars outer t
  | hole dollars depth => exact sound_moveInHole dollars depth outer t

/-- A move leaves less text. -/
theorem Frame.length_move {frame : Frame} {outer frames : List Frame} {t taken rest : Text}
    (h : frame.move outer t = .go taken rest frames) : rest.length < t.length := by
  have hs := frame.sound_move outer t
  rw [h] at hs
  obtain ⟨rfl, hne⟩ := hs
  have := List.length_pos_iff.mpr hne
  rw [List.length_append]
  omega

/-! ## The whole string -/

/-- Moves until every frame is closed, or the string ends without being closed. -/
def scanFrames (frames : List Frame) (t : Text) : Scan :=
  match frames with
  | [] => ⟨[], t, true⟩
  | frame :: outer =>
    match _h : frame.move outer t with
    | .stop scan => scan
    | .go taken rest frames => (scanFrames frames rest).after taken
termination_by t.length
decreasing_by exact Frame.length_move ‹_›

/-- Reads an interpolated string; one starts at the front of the text. -/
def interpolatedString (t : Text) : Scan :=
  let (frame, taken, rest) := openingInterpolated t
  (scanFrames [frame] rest).after taken

theorem covers_scanFrames (frames : List Frame) (t : Text) : (scanFrames frames t).Covers t := by
  fun_induction scanFrames frames t with
  | case1 => rfl
  | case2 t frame outer scan h =>
    have hs := frame.sound_move outer t
    rw [h] at hs
    exact hs
  | case3 t frame outer taken rest frames h ih =>
    have hs := frame.sound_move outer t
    rw [h] at hs
    have := ih.after taken
    rwa [hs.1] at this

theorem covers_interpolatedString (t : Text) : (interpolatedString t).Covers t := by
  have h := (covers_scanFrames [(openingInterpolated t).1] (openingInterpolated t).2.2).after
    (openingInterpolated t).2.1
  rwa [append_openingInterpolated] at h

end Uncomment
