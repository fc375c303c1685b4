import Uncomment.Proofs.FaultyPieces
import Uncomment.Proofs.LineStarts

/-!
# Reports are safe

Offsets are numbers of 32 bits, and a report looks up lines and cuts texts at offsets that were counted
elsewhere. Here both are done once more with every step **checked**: a sum that does not fit, a place
outside of a list, a number below zero and a cut inside a character each give `none`. For a text of less
than 2³² bytes no check fails, and the result is what is reported without them (`reports_are_safe`).

That an offset of the lexer fits follows from the text alone, since each one is the width of a first part of
it. That a report can be made follows from where its diagnostic is: at a piece of the file
(`Diagnostic.PlacedIn`), so both ends of its span are boundaries and what they stand for is known
(`Text.position?_width`).
-/

namespace Uncomment

namespace Checked

/-! ## Offsets of 32 bits -/

/-- The sum of two offsets, if it fits. -/
def add? (a b : Nat) : Option Nat :=
  if a + b < UInt32.size then some (a + b) else none

/-- The width of a text as a number of 32 bits. -/
def width (t : Text) : Nat :=
  t.width % UInt32.size

/-- The offset after a text that is read one character after the other. -/
def advance? (offset : Nat) : Text → Option Nat
  | [] => some offset
  | c :: rest => do
    let next ← add? offset c.utf8Size
    advance? next rest

/-- The diagnostics of pieces that are read one after the other. -/
def pieceDiagnostics? (offset : Nat) : List (Noted SourcePiece) → Option (List Diagnostic)
  | [] => some []
  | p :: rest => do
    let stop ← advance? offset p.item.text
    let more ← pieceDiagnostics? stop rest
    return p.fault.toList.map (Diagnostic.mk ⟨offset, stop⟩) ++ more

/-- The terminals with the spans of their tokens. -/
def tokenSpans? (offset : Nat) : List Terminal → Option (List (Terminal × Span))
  | [] => some []
  | t :: rest => do
    let start ← add? offset (width (Trivia.text t.leading))
    let stop ← add? start (width t.text)
    let next ← add? stop (width (Trivia.text t.trailing))
    let more ← tokenSpans? next rest
    return (t, ⟨start, stop⟩) :: more

/-- The diagnostics of a text, those of the lexer and those of the brackets. -/
def diagnostics? (t : Text) : Option (List Diagnostic) := do
  let read ← pieceDiagnostics? 0 (lexPieces .initial t)
  let spans ← tokenSpans? 0 (SourceFile.ofText t).terminals
  return sortDiagnostics (read ++ delimiterDiagnosticsFrom [] spans)

/-- The offset right after each line feed, for a text found at a byte index. The index itself is not
limited, only the offset made of it. -/
def lineStartsAfter? (index : Nat) : Text → Option (List Nat)
  | [] => some []
  | c :: rest => do
    let more ← lineStartsAfter? (index + c.utf8Size) rest
    if c = '\n' then
      let next ← add? (index % UInt32.size) 1
      return next :: more
    else return more

/-- The offset of the start of each line. -/
def lineStarts? (t : Text) : Option (List Nat) := do
  let more ← lineStartsAfter? 0 t
  return 0 :: more

theorem add?_eq_some {a b : Nat} (h : a + b < UInt32.size) : add? a b = some (a + b) :=
  if_pos h

theorem width_eq {t : Text} (h : t.width < UInt32.size) : width t = t.width :=
  Nat.mod_eq_of_lt h

theorem advance?_eq_some {offset : Nat} {t : Text} (h : offset + t.width < UInt32.size) :
    advance? offset t = some (offset + t.width) := by
  induction t generalizing offset with
  | nil => rfl
  | cons c rest ih =>
    rw [Text.width_cons, ← Nat.add_assoc] at h
    have hnext : offset + c.utf8Size < UInt32.size := by omega
    rw [advance?, add?_eq_some hnext, Option.bind_eq_bind, Option.bind_some, ih h, Text.width_cons,
      Nat.add_assoc]

/-- **No addition of the lexer overflows.** -/
theorem pieceDiagnostics?_eq_some {offset : Nat} {ps : List (Noted SourcePiece)}
    (h : offset + (pieceText ps).width < UInt32.size) :
    pieceDiagnostics? offset ps = some (pieceDiagnostics offset ps) := by
  induction ps generalizing offset with
  | nil => rfl
  | cons p rest ih =>
    rw [pieceText_cons, Text.width_append, ← Nat.add_assoc] at h
    have hstop : offset + p.item.text.width < UInt32.size := by omega
    rw [pieceDiagnostics?, advance?_eq_some hstop, Option.bind_eq_bind, Option.bind_some, ih h]
    rfl

/-- **No addition of the check of the brackets overflows.** -/
theorem tokenSpans?_eq_some {offset : Nat} {ts : List Terminal}
    (h : offset + (textOf ts).width < UInt32.size) : tokenSpans? offset ts = some (tokenSpans offset ts) := by
  induction ts generalizing offset with
  | nil => rfl
  | cons t rest ih =>
    simp only [textOf_cons, Terminal.fullText, Text.width_append, ← Nat.add_assoc] at h
    have hleading : (Trivia.text t.leading).width < UInt32.size := by omega
    have htoken : t.text.width < UInt32.size := by omega
    have htrailing : (Trivia.text t.trailing).width < UInt32.size := by omega
    simp only [tokenSpans?, width_eq hleading, width_eq htoken, width_eq htrailing,
      Option.bind_eq_bind]
    rw [add?_eq_some (by omega), Option.bind_some, add?_eq_some (by omega), Option.bind_some,
      add?_eq_some (by omega), Option.bind_some, ih h]
    rfl

theorem lineStartsAfter?_eq_some {index : Nat} {t : Text} (h : index + t.width < UInt32.size) :
    lineStartsAfter? index t = some (Text.lineStartsAfter index t) := by
  induction t generalizing index with
  | nil => rfl
  | cons c rest ih =>
    have hpos := c.utf8Size_pos
    rw [Text.width_cons, ← Nat.add_assoc] at h
    rw [lineStartsAfter?, ih h, Text.lineStartsAfter, Option.bind_eq_bind, Option.bind_some]
    by_cases hc : c = '\n'
    · subst hc
      have hindex : index % UInt32.size = index := Nat.mod_eq_of_lt (by omega)
      have hsize : '\n'.utf8Size = 1 := rfl
      rw [if_pos rfl, if_pos rfl, hindex, hsize, add?_eq_some (by omega)]
      rfl
    · rw [if_neg hc, if_neg hc]
      rfl

theorem lineStarts?_eq_some {t : Text} (h : t.width < UInt32.size) :
    lineStarts? t = some t.lineStarts := by
  rw [lineStarts?, lineStartsAfter?_eq_some (by omega)]
  rfl

/-- **The diagnostics of a text do not depend on the limit of offsets.** -/
theorem diagnostics?_eq_some {t : Text} (h : t.width < UInt32.size) :
    diagnostics? t = some (Analysis.ofText t).diagnostics := by
  have hread : 0 + (pieceText (lexPieces .initial t)).width < UInt32.size := by
    rw [pieceText_lexPieces, Nat.zero_add]
    exact h
  have hspans : 0 + (textOf (SourceFile.ofText t).terminals).width < UInt32.size := by
    rw [Nat.zero_add]
    exact (congrArg Text.width (SourceFile.text_ofText t)).trans_lt h
  rw [diagnostics?, pieceDiagnostics?_eq_some hread, tokenSpans?_eq_some hspans]
  simp only [lexPieces, ← lexDiagnosticsFrom_eq]
  rfl

/-! ## Looking up a position -/

/-- Where a number is in an ascending list, or else the place where it would have to be put. -/
def search (xs : List Nat) (x : Nat) : Except Nat Nat :=
  let place := (xs.takeWhile (· < x)).length
  if xs[place]? = some x then .ok place else .error place

/-- The line of an offset: the one that starts there, or else the one before the place of the offset. -/
def line? (starts : List Nat) (offset : Nat) : Option Nat :=
  match search starts offset with
  | .ok line => some line
  | .error 0 => none
  | .error (line + 1) => some line

/-- The position of an offset, given the line starts of the text. -/
def position? (starts : List Nat) (t : Text) (offset : Nat) : Option Position := do
  let line ← line? starts offset
  let start ← starts[line]?
  let before ← t.slice? start offset
  return { line, column := before.length }

/-- Resolves a diagnostic, given the line starts of the text. -/
def resolve? (fileName : String) (starts : List Nat) (t : Text) (d : Diagnostic) :
    Option ReportEntry := do
  let position ← position? starts t d.span.start
  let start ← starts[position.line]?
  let (_, fromLine) ← t.cutAt? start
  let marked ← d.span.text? t
  let carets := max 1 (Text.firstLine marked).length
  return {
    location := fileName ++ ":" ++ toString (position.line + 1) ++ ":" ++
      toString (position.column + 1)
    message := d.fault.message
    marks := String.ofList (Text.firstLine fromLine ++ ['\n'] ++
      List.replicate position.column ' ' ++ List.replicate carets '^') }

/-- Resolves diagnostics; each of them has to be resolved. -/
def entries? (fileName : String) (t : Text) (diagnostics : List Diagnostic) :
    Option (List ReportEntry) := do
  let starts ← lineStarts? t
  diagnostics.mapM (resolve? fileName starts t)

section Search

variable {starts : List Nat} {offset line start : Nat}

/-- The place of an offset among the line starts, given the last one that is not after it. -/
theorem place_eq (hascending : starts.Pairwise (· < ·)) (hstart : starts[line]? = some start)
    (hnext : ∀ next ∈ starts[line + 1]?, offset < next) (hle : start ≤ offset) :
    (starts.takeWhile (· < offset)).length = if start < offset then line + 1 else line := by
  obtain ⟨hlt, hget⟩ := List.getElem?_eq_some_iff.mp hstart
  have hsplit : starts = starts.take line ++ start :: starts.drop (line + 1) := by
    rw [← hget, List.getElem_cons_drop, List.take_append_drop]
  have hlength : (starts.take line).length = line := List.length_take_of_le hlt.le
  have hbefore : ∀ s ∈ starts.take line, decide (s < offset) = true := by
    intro s hs
    rw [hsplit] at hascending
    have hs := (List.pairwise_append.mp hascending).2.2 s hs start List.mem_cons_self
    exact decide_eq_true (Nat.lt_of_lt_of_le hs hle)
  have hafter : (starts.drop (line + 1)).takeWhile (· < offset) = [] := by
    cases hdrop : starts.drop (line + 1) with
    | nil => rfl
    | cons next rest =>
      have hmem : starts[line + 1]? = some next := by
        rw [← List.head?_drop, hdrop, List.head?_cons]
      exact List.takeWhile_cons_of_neg (by simpa using (hnext next hmem).le)
  rw [hsplit, List.takeWhile_append_of_pos hbefore, List.length_append, hlength]
  by_cases hlater : start < offset
  · rw [if_pos hlater, List.takeWhile_cons_of_pos (by simpa using hlater), hafter,
      List.length_singleton]
  · rw [if_neg hlater, List.takeWhile_cons_of_neg (by simpa using hlater), List.length_nil,
      Nat.add_zero]

/-- **The search finds the last line that starts at an offset or before.** -/
theorem line?_eq_some (hascending : starts.Pairwise (· < ·)) (hstart : starts[line]? = some start)
    (hnext : ∀ next ∈ starts[line + 1]?, offset < next) (hle : start ≤ offset) :
    line? starts offset = some line := by
  unfold line? search
  rw [place_eq hascending hstart hnext hle]
  by_cases hlater : start < offset
  · have hmiss : starts[line + 1]? ≠ some offset :=
      fun h => absurd (hnext offset h) (Nat.lt_irrefl _)
    simp only [if_pos hlater, if_neg hmiss]
  · have hfound : starts[line]? = some offset := by
      rw [hstart, Nat.le_antisymm hle (Nat.le_of_not_lt hlater)]
    simp only [if_neg hlater, if_pos hfound]

end Search

theorem position?_eq (a b : Text) :
    position? (a ++ b).lineStarts (a ++ b) a.width = some ⟨a.count '\n', a.openLine.length⟩ := by
  have hle : a.fullLines.width ≤ a.width := by
    conv_rhs => rw [← a.fullLines_append_openLine, Text.width_append]
    exact Nat.le_add_right _ _
  have hnext : ∀ next ∈ (a ++ b).lineStarts[a.count '\n' + 1]?, a.width < next := by
    intro next hnext
    rw [Text.lineStarts_append, ← Text.length_lineStarts, List.getElem?_append_right le_rfl] at hnext
    exact (Text.mem_lineStartsAfter (List.mem_of_getElem? hnext)).1
  have hline := line?_eq_some (Text.pairwise_lineStarts _) (Text.getElem?_lineStarts a b) hnext hle
  simp only [position?, hline, Option.bind_eq_bind, Option.bind_some, Text.getElem?_lineStarts,
    Text.slice?_openLine]
  rfl

/-- **A diagnostic at a piece of a text can be resolved**, and the checks change nothing. -/
theorem resolve?_eq {a piece b : Text} {d : Diagnostic} (fileName : String)
    (hspan : d.span = ⟨a.width, a.width + piece.width⟩) :
    ∃ entry, resolve? fileName (a ++ piece ++ b).lineStarts (a ++ piece ++ b) d = some entry ∧
      d.entry? fileName (a ++ piece ++ b) = some entry := by
  have hstart : d.span.start = a.width := by rw [hspan]
  have hmarked : d.span.text? (a ++ piece ++ b) = some piece := by
    rw [hspan]
    exact Text.slice?_width a piece b
  have hposition := position?_eq a (piece ++ b)
  have hposition' := Text.position?_width a (piece ++ b)
  have hline := Text.getElem?_lineStarts a (piece ++ b)
  have hline' := Text.lineStart_count a (piece ++ b)
  have hcut := Text.cutAt?_width a.fullLines (a.openLine ++ (piece ++ b))
  rw [← List.append_assoc, a.fullLines_append_openLine] at hcut
  simp only [← List.append_assoc] at hposition hposition' hline hline' hcut
  simp only [resolve?, Diagnostic.entry?, hstart, hmarked, hposition, hposition', hline, hline', hcut,
    Option.bind_eq_bind, Option.bind_some]
  exact ⟨_, rfl, rfl⟩

end Checked

/-! ## Diagnostics at pieces -/

/-- The text around the span. -/
theorem Diagnostic.PlacedIn.split {d : Diagnostic} {file : SourceFile} (h : d.PlacedIn file) :
    ∃ a b p, file.text = a ++ p.text ++ b ∧ d.span = ⟨a.width, a.width + p.text.width⟩ ∧
      d.fault.FoundAt p b := by
  obtain ⟨before, p, after, hpieces, hspan, hfound⟩ := h
  refine ⟨_, _, p, ?_, hspan, hfound⟩
  calc file.text
    _ = SourcePiece.textOf file.pieces := (textOf_flatMap_pieces file.terminals).symm
    _ = _ := by
      rw [hpieces, SourcePiece.textOf_append, SourcePiece.textOf_cons, List.append_assoc]

/-- The span of such a diagnostic lies in the text, between two characters at each end. -/
theorem Diagnostic.PlacedIn.boundaries {d : Diagnostic} {file : SourceFile} (h : d.PlacedIn file) :
    d.span.start ≤ d.span.stop ∧ file.text.IsBoundary d.span.start ∧
      file.text.IsBoundary d.span.stop := by
  obtain ⟨a, b, p, htext, hspan, -⟩ := h.split
  rw [hspan, htext]
  refine ⟨Nat.le_add_right _ _, ?_, ?_⟩
  · rw [List.append_assoc]
    exact Text.isBoundary_width a (p.text ++ b)
  · show (a ++ p.text ++ b).IsBoundary (a.width + p.text.width)
    rw [← Text.width_append]
    exact Text.isBoundary_width (a ++ p.text) b

/-- A bad character is what stands at its span. -/
theorem Diagnostic.PlacedIn.badCharacter {d : Diagnostic} {file : SourceFile} (h : d.PlacedIn file)
    {c : Char} (hfault : d.fault = .badCharacter c) : d.span.text? file.text = some [c] := by
  obtain ⟨a, b, p, htext, hspan, hfound⟩ := h.split
  rw [hfault] at hfound
  have hpiece : p.text = [c] := by
    cases hfound with
    | badCharacter => rfl
    | directive hf => cases hf
  rw [hspan, htext, hpiece]
  exact Text.slice?_width a [c] b

/-- Diagnostics that can all be resolved are all reported. -/
theorem Checked.entries?_eq {fileName : String} {t : Text} {diagnostics : List Diagnostic}
    (ht : t.width < UInt32.size)
    (h : ∀ d ∈ diagnostics, ∃ entry, Checked.resolve? fileName t.lineStarts t d = some entry ∧
      d.entry? fileName t = some entry) :
    Checked.entries? fileName t diagnostics = some (reportEntries fileName t diagnostics) ∧
      (reportEntries fileName t diagnostics).length = diagnostics.length := by
  rw [entries?, lineStarts?_eq_some ht, Option.bind_eq_bind, Option.bind_some]
  induction diagnostics with
  | nil => exact ⟨rfl, rfl⟩
  | cons d rest ih =>
    obtain ⟨entry, hchecked, hentry⟩ := h d List.mem_cons_self
    obtain ⟨hmap, hlength⟩ := ih fun d hd => h d (List.mem_cons_of_mem _ hd)
    have hreport : reportEntries fileName t (d :: rest) = entry :: reportEntries fileName t rest :=
      List.filterMap_cons_some hentry
    rw [hreport, List.mapM_cons, hchecked, hmap, List.length_cons, List.length_cons, hlength]
    exact ⟨rfl, rfl⟩

/-- The order of diagnostics. -/
theorem Analysis.sorted (t : Text) :
    (Analysis.ofText t).diagnostics.Pairwise fun a b =>
      a.span.start < b.span.start ∨ a.span.start = b.span.start ∧ a.span.stop ≤ b.span.stop := by
  have hle : ∀ a b : Diagnostic, a.span.le b.span = true ↔
      a.span.start < b.span.start ∨ a.span.start = b.span.start ∧ a.span.stop ≤ b.span.stop := by
    intro a b
    simp [Span.le]
  have htrans : ∀ a b c : Diagnostic, a.span.le b.span = true → b.span.le c.span = true →
      a.span.le c.span = true := by
    simp only [hle]
    omega
  have htotal : ∀ a b : Diagnostic, (a.span.le b.span || b.span.le a.span) = true := by
    simp only [Bool.or_eq_true, hle]
    omega
  exact (List.pairwise_mergeSort htrans htotal _).imp fun h => (hle _ _).mp h

/-- **Reporting is safe.** Let a text have less than 2³² bytes. Then no offset that is counted for its
diagnostics overflows; the diagnostics are in the order of their spans; each span lies in the text, with
both ends between two characters, and is that of a piece of the file that has the fault (so the span of a
bad character is that character, and what is not closed is all of it at its span); and every diagnostic is
reported, with all places looked up inside the line starts and all cuts between characters. -/
theorem reports_are_safe {t : Text} (ht : t.width < UInt32.size) :
    Checked.diagnostics? t = some (Analysis.ofText t).diagnostics ∧
    ((Analysis.ofText t).diagnostics.Pairwise fun a b =>
      a.span.start < b.span.start ∨ a.span.start = b.span.start ∧ a.span.stop ≤ b.span.stop) ∧
    (∀ d ∈ (Analysis.ofText t).diagnostics,
      d.span.start ≤ d.span.stop ∧ d.span.stop ≤ t.width ∧
      t.IsBoundary d.span.start ∧ t.IsBoundary d.span.stop ∧
      d.PlacedIn (SourceFile.ofText t) ∧
      ∀ c, d.fault = .badCharacter c → d.span.text? t = some [c]) ∧
    ∀ fileName,
      Checked.entries? fileName t (Analysis.ofText t).diagnostics =
        some (reportEntries fileName t (Analysis.ofText t).diagnostics) ∧
      (reportEntries fileName t (Analysis.ofText t).diagnostics).length =
        (Analysis.ofText t).diagnostics.length := by
  refine ⟨Checked.diagnostics?_eq_some ht, Analysis.sorted t, ?_, ?_⟩
  · intro d hd
    have hplaced := Analysis.placedIn hd
    obtain ⟨hle, hstart, hstop⟩ := hplaced.boundaries
    rw [SourceFile.text_ofText] at hstart hstop
    refine ⟨hle, hstop.le, hstart, hstop, hplaced, fun c hfault => ?_⟩
    rw [← hplaced.badCharacter hfault, SourceFile.text_ofText]
  · intro fileName
    refine Checked.entries?_eq ht fun d hd => ?_
    obtain ⟨a, b, p, htext, hspan, -⟩ := (Analysis.placedIn hd).split
    rw [SourceFile.text_ofText] at htext
    rw [htext]
    exact Checked.resolve?_eq fileName hspan

/-- A character that starts no token, a string and a comment, each with a character of several bytes. -/
theorem reports_are_safe_of_wide_characters :
    Text.width "€ \"é\n/*ü".toList < UInt32.size ∧
    Checked.diagnostics? "€ \"é\n/*ü".toList =
      some [⟨⟨0, 3⟩, .badCharacter '€'⟩, ⟨⟨4, 7⟩, .unterminatedString⟩,
        ⟨⟨8, 12⟩, .unterminatedComment⟩] ∧
    Span.text? ⟨0, 3⟩ "€ \"é\n/*ü".toList = some ['€'] ∧
    (reportEntries "A.cs" "€ \"é\n/*ü".toList
      (Analysis.ofText "€ \"é\n/*ü".toList).diagnostics).length = 3 := by
  have hwidth : Text.width "€ \"é\n/*ü".toList < UInt32.size := by decide
  have hread : lexDiagnostics "€ \"é\n/*ü".toList =
      [⟨⟨0, 3⟩, .badCharacter '€'⟩, ⟨⟨4, 7⟩, .unterminatedString⟩,
        ⟨⟨8, 12⟩, .unterminatedComment⟩] := by decide +kernel
  have hbrackets : (SourceFile.ofText "€ \"é\n/*ü".toList).delimiterDiagnostics = [] := by
    decide +kernel
  have hall : (Analysis.ofText "€ \"é\n/*ü".toList).diagnostics =
      [⟨⟨0, 3⟩, .badCharacter '€'⟩, ⟨⟨4, 7⟩, .unterminatedString⟩,
        ⟨⟨8, 12⟩, .unterminatedComment⟩] := by
    show sortDiagnostics (_ ++ _) = _
    rw [hread, hbrackets]
    exact List.mergeSort_of_pairwise (by decide)
  obtain ⟨hchecked, -, hplaced, hreported⟩ := reports_are_safe hwidth
  rw [hall] at hchecked hplaced
  refine ⟨hwidth, hchecked, ?_, ?_⟩
  · exact (hplaced _ List.mem_cons_self).2.2.2.2.2 '€' rfl
  · rw [(hreported "A.cs").2, hall]
    rfl

end Uncomment
