import Uncomment.Proofs.BalancedBrackets
import Uncomment.Proofs.Lookahead
import Uncomment.Proofs.Replay

/-!
# Where the diagnostics of a text are

A file is cut into **pieces**: the trivia and the tokens, in order. Diagnostics are found by two passes, one
over the terminals as they were read and one over the brackets, each of which counts offsets for itself;
both report faults of pieces, each at the span of its piece (`Diagnostic.PlacedIn`).

Which fault a piece can have depends on what it is and on the text after it (`Fault.FoundAt`): the character
of a bad character, a string that its scan does not close, a comment without its end, and so on. For what
is read this is shown of a piece together with everything after it (`Faithful`), from the back to the front,
as the pieces are put together.
-/

namespace Uncomment

/-! ## The pieces of a file -/

/-- What a piece of a file is. -/
inductive PieceKind where
  | trivium (kind : TriviumKind)
  | token (kind : TokenKind)
  deriving DecidableEq, Repr

/-- A trivium or a token of a file. -/
structure SourcePiece where
  kind : PieceKind
  text : Text
  deriving DecidableEq, Repr

namespace SourcePiece

/-- The piece a trivium is. -/
def ofTrivium (x : Trivium) : SourcePiece :=
  ⟨.trivium x.kind, x.text⟩

/-- The text of all the pieces. -/
def textOf (ps : List SourcePiece) : Text :=
  ps.flatMap SourcePiece.text

@[simp] theorem textOf_nil : textOf [] = [] := rfl

@[simp] theorem textOf_cons (p : SourcePiece) (ps : List SourcePiece) :
    textOf (p :: ps) = p.text ++ textOf ps := rfl

@[simp] theorem textOf_append (ps qs : List SourcePiece) :
    textOf (ps ++ qs) = textOf ps ++ textOf qs :=
  List.flatMap_append

@[simp] theorem textOf_map_ofTrivium (xs : Trivia) : textOf (xs.map ofTrivium) = Trivia.text xs := by
  rw [textOf, List.flatMap_map]
  rfl

end SourcePiece

/-- The pieces of a terminal, in order. -/
def Terminal.pieces (t : Terminal) : List SourcePiece :=
  t.leading.map .ofTrivium ++ ⟨.token t.kind, t.text⟩ :: t.trailing.map .ofTrivium

@[simp] theorem Terminal.textOf_pieces (t : Terminal) :
    SourcePiece.textOf t.pieces = t.fullText := by
  simp [pieces, fullText]

/-- The pieces of a file, in order. -/
def SourceFile.pieces (file : SourceFile) : List SourcePiece :=
  file.terminals.flatMap Terminal.pieces

theorem textOf_flatMap_pieces (ts : List Terminal) :
    SourcePiece.textOf (ts.flatMap Terminal.pieces) = textOf ts := by
  induction ts with
  | nil => rfl
  | cons t rest ih =>
    rw [List.flatMap_cons, SourcePiece.textOf_append, ih, Terminal.textOf_pieces, textOf_cons]

/-! ## Pieces with their faults -/

/-- A trivium with its fault, as a piece. -/
def Noted.piece (x : Noted Trivium) : Noted SourcePiece :=
  ⟨.ofTrivium x.item, x.fault⟩

/-- The pieces of a terminal as it was read. -/
def LexedTerminal.pieces (l : LexedTerminal) : List (Noted SourcePiece) :=
  l.leading.map .piece ++ ⟨⟨.token l.kind, l.text⟩, l.fault⟩ :: l.trailing.map .piece

theorem LexedTerminal.map_item_pieces (l : LexedTerminal) :
    l.pieces.map Noted.item = l.terminal.pieces := by
  simp only [pieces, Terminal.pieces, terminal, List.map_append, List.map_cons, List.map_map]
  rfl

/-- The text of pieces with their faults. -/
def pieceText (ps : List (Noted SourcePiece)) : Text :=
  SourcePiece.textOf (ps.map Noted.item)

@[simp] theorem pieceText_cons (p : Noted SourcePiece) (ps : List (Noted SourcePiece)) :
    pieceText (p :: ps) = p.item.text ++ pieceText ps := rfl

@[simp] theorem pieceText_append (ps qs : List (Noted SourcePiece)) :
    pieceText (ps ++ qs) = pieceText ps ++ pieceText qs := by
  simp [pieceText]

@[simp] theorem pieceText_map_piece (xs : List (Noted Trivium)) :
    pieceText (xs.map .piece) = notedText xs := by
  rw [pieceText, List.map_map, notedText, ← SourcePiece.textOf_map_ofTrivium, List.map_map]
  rfl

@[simp] theorem LexedTerminal.pieceText_pieces (l : LexedTerminal) :
    pieceText l.pieces = l.terminal.fullText := by
  rw [pieceText, map_item_pieces, Terminal.textOf_pieces]

/-- The pieces of a text as they were read. -/
def lexPieces (state : LexState) (t : Text) : List (Noted SourcePiece) :=
  (lexFrom state t).flatMap LexedTerminal.pieces

theorem map_item_lexPieces (state : LexState) (t : Text) :
    (lexPieces state t).map Noted.item =
      ((lexFrom state t).map LexedTerminal.terminal).flatMap Terminal.pieces := by
  rw [lexPieces, List.map_flatMap, List.flatMap_map]
  exact List.flatMap_congr fun l _ => l.map_item_pieces

theorem pieceText_lexPieces (state : LexState) (t : Text) : pieceText (lexPieces state t) = t := by
  rw [pieceText, map_item_lexPieces, textOf_flatMap_pieces, text_lexFrom]

/-! ## The diagnostics of pieces -/

/-- The diagnostics of pieces found at an offset, in order. -/
def pieceDiagnostics (offset : Nat) : List (Noted SourcePiece) → List Diagnostic
  | [] => []
  | p :: rest =>
    faultAt offset p.item.text p.fault ++ pieceDiagnostics (offset + p.item.text.width) rest

theorem pieceDiagnostics_append (offset : Nat) (ps qs : List (Noted SourcePiece)) :
    pieceDiagnostics offset (ps ++ qs) =
      pieceDiagnostics offset ps ++ pieceDiagnostics (offset + (pieceText ps).width) qs := by
  induction ps generalizing offset with
  | nil => rfl
  | cons p rest ih =>
    rw [List.cons_append, pieceDiagnostics, pieceDiagnostics, ih, pieceText_cons, Text.width_append,
      Nat.add_assoc, List.append_assoc]

theorem pieceDiagnostics_map_piece (offset : Nat) (xs : List (Noted Trivium)) :
    pieceDiagnostics offset (xs.map .piece) = triviaDiagnostics offset xs := by
  induction xs generalizing offset with
  | nil => rfl
  | cons x rest ih =>
    rw [List.map_cons, pieceDiagnostics, ih]
    rfl

theorem LexedTerminal.pieceDiagnostics_pieces (offset : Nat) (l : LexedTerminal) :
    pieceDiagnostics offset l.pieces = l.diagnostics offset := by
  rw [pieces, pieceDiagnostics_append, pieceDiagnostics, pieceDiagnostics_map_piece,
    pieceDiagnostics_map_piece, pieceText_map_piece, diagnostics, List.append_assoc]

/-- **What is reported while reading are the faults of the pieces.** -/
theorem lexDiagnosticsFrom_eq (offset : Nat) (ls : List LexedTerminal) :
    lexDiagnosticsFrom offset ls = pieceDiagnostics offset (ls.flatMap LexedTerminal.pieces) := by
  induction ls generalizing offset with
  | nil => rfl
  | cons l rest ih =>
    rw [lexDiagnosticsFrom, List.flatMap_cons, pieceDiagnostics_append,
      LexedTerminal.pieceDiagnostics_pieces, ih, LexedTerminal.pieceText_pieces]
    rfl

theorem exists_piece_of_mem {offset : Nat} {ps : List (Noted SourcePiece)} {d : Diagnostic}
    (h : d ∈ pieceDiagnostics offset ps) :
    ∃ before p after, ps = before ++ p :: after ∧ p.fault = some d.fault ∧
      d.span = ⟨offset + (pieceText before).width,
        offset + (pieceText before).width + p.item.text.width⟩ := by
  induction ps generalizing offset with
  | nil => cases h
  | cons p rest ih =>
    rw [pieceDiagnostics, List.mem_append] at h
    rcases h with h | h
    · obtain ⟨f, hf, rfl⟩ := List.mem_map.mp h
      exact ⟨[], p, rest, rfl, Option.mem_toList.mp hf, rfl⟩
    · obtain ⟨before, q, after, rfl, hfault, hspan⟩ := ih h
      refine ⟨p :: before, q, after, rfl, hfault, ?_⟩
      rw [hspan, pieceText_cons, Text.width_append, Nat.add_assoc offset]

/-! ## What a fault is about -/

/-- The fault is that of a piece, given the text after the piece. -/
inductive Fault.FoundAt : Fault → SourcePiece → Text → Prop
  /-- The character starts no token. -/
  | badCharacter {c : Char} {rest : Text} (h : punctuation? (c :: rest) = none) :
      FoundAt (.badCharacter c) ⟨.token .badCharacter, [c]⟩ rest
  /-- A comment without its end goes on to the end of the text. -/
  | openComment {kind : TriviumKind} {body : Text}
      (hkind : kind = .blockComment ∨ kind = .docBlockComment)
      (hopen : Text.occursIn ['*', '/'] body = false) :
      FoundAt .unterminatedComment ⟨.trivium kind, '/' :: '*' :: body⟩ []
  /-- The scan of the string ends without closing it. -/
  | openString {text rest : Text} (h : stringLiteral (text ++ rest) = ⟨text, rest, false⟩) :
      FoundAt .unterminatedString ⟨.token .stringLiteral, text⟩ rest
  | openInterpolated {text rest : Text} (h : interpolatedString (text ++ rest) = ⟨text, rest, false⟩) :
      FoundAt .unterminatedString ⟨.token .interpolatedString, text⟩ rest
  | openCharacter {text rest : Text} (h : characterLiteral (text ++ rest) = ⟨text, rest, false⟩) :
      FoundAt .unterminatedCharacter ⟨.token .characterLiteral, text⟩ rest
  /-- A directive is its whole line. -/
  | directive {f : Fault} {line rest : Text} (hf : f.isDirective = true)
      (hline : Text.currentLine ('#' :: line ++ rest) = '#' :: line) :
      FoundAt f ⟨.trivium .directive, '#' :: line⟩ rest
  | openGroup : FoundAt .unterminatedConditional ⟨.token .endOfFile, []⟩ []
  | unmatchedClosing {found : Bracket} {rest : Text} :
      FoundAt (.unmatchedClosing found) ⟨.token .punctuation, found.closing⟩ rest
  | mismatched {opened found : Bracket} {rest : Text} :
      FoundAt (.mismatched opened found) ⟨.token .punctuation, found.closing⟩ rest
  | unclosed {opened : Bracket} {rest : Text} :
      FoundAt (.unclosed opened) ⟨.token .punctuation, opened.opening⟩ rest

/-- The diagnostic is at a piece of the file that has its fault. -/
def Diagnostic.PlacedIn (d : Diagnostic) (file : SourceFile) : Prop :=
  ∃ before p after, file.pieces = before ++ p :: after ∧
    d.span = ⟨(SourcePiece.textOf before).width, (SourcePiece.textOf before).width + p.text.width⟩ ∧
    d.fault.FoundAt p (SourcePiece.textOf after)

/-! ## The pieces that are read -/

/-- Each piece has only faults of its own, given the pieces after it. -/
def Faithful : List (Noted SourcePiece) → Prop
  | [] => True
  | p :: rest => (∀ f ∈ p.fault, f.FoundAt p.item (pieceText rest)) ∧ Faithful rest

theorem Faithful.foundAt {before after : List (Noted SourcePiece)} {p : Noted SourcePiece}
    (h : Faithful (before ++ p :: after)) : ∀ f ∈ p.fault, f.FoundAt p.item (pieceText after) := by
  induction before with
  | nil => exact h.1
  | cons q rest ih => exact ih h.2

theorem closed_blockBody (t : Text) : (blockBody t).closed = Text.occursIn ['*', '/'] t := by
  induction t with
  | nil => rfl
  | cons c rest ih =>
    have hfirst : ['*', '/'].isPrefixOf (c :: rest) = decide (c = '*' ∧ rest.head? = some '/') := by
      cases rest with
      | nil => simp [List.isPrefixOf]
      | cons d more => simp [List.isPrefixOf, eq_comm, Bool.beq_eq_decide_eq]
    rw [blockBody, Text.occursIn, hfirst]
    by_cases hc : c = '*' ∧ rest.head? = some '/'
    · simp [hc]
    · rw [if_neg hc, Scan.after_closed, ih]
      simp [hc]

/-- A comment that is not closed is a comment without its end. -/
theorem foundAt_block {state : LexState} {rest : Text} :
    ∀ f ∈ (ReadTrivium.block state ('/' :: '*' :: rest)).item.fault,
      f.FoundAt (.ofTrivium (ReadTrivium.block state ('/' :: '*' :: rest)).item.item)
        (ReadTrivium.block state ('/' :: '*' :: rest)).rest := by
  intro f hf
  have hcovers := covers_blockBody rest
  simp only [ReadTrivium.block, blockComment, Scan.after_closed, List.drop_succ_cons,
    List.drop_zero] at hf ⊢
  by_cases hclosed : (blockBody rest).closed = true
  · rw [if_pos hclosed] at hf
    cases hf
  · rw [if_neg hclosed] at hf
    cases hf
    have hend : (blockBody rest).rest = [] := blockBody_rest (by simpa using hclosed)
    rw [Scan.Covers, hend, List.append_nil] at hcovers
    have hopen : Text.occursIn ['*', '/'] rest = false := by
      rw [← closed_blockBody]
      simpa using hclosed
    simp only [Scan.after_rest, Scan.after_taken, hend, hcovers]
    exact .openComment (blockCommentKind_eq_or _) hopen

/-- **What is wrong with a trivium is found at it.** -/
theorem Reading.foundAt {leading : Bool} {state : LexState} {t : Text} {r : ReadTrivium}
    (h : Reading leading state t r) :
    ∀ f ∈ r.item.fault, f.FoundAt (.ofTrivium r.item.item) r.rest := by
  intro f hf
  cases h with
  | block => exact foundAt_block f hf
  | @directive rest =>
    have hline : Text.currentLine ('#' :: rest) = '#' :: rest.currentLine := rfl
    have hafter : Text.afterLine ('#' :: rest) = rest.afterLine := rfl
    simp only [ReadTrivium.directive, hline, hafter] at hf ⊢
    obtain ⟨error, -, rfl⟩ := Option.map_eq_some_iff.mp hf
    refine .directive (Fault.isDirective_ofDirectiveError error) ?_
    rw [List.cons_append, Text.currentLine_append_afterLine, hline]
  | disabled | newline | blank | line => cases hf

/-- What is wrong with the token is found at it. -/
def ReadToken.Found (token : ReadToken) : Prop :=
  ∀ f ∈ token.fault, f.FoundAt ⟨.token token.kind, token.text⟩ token.rest

theorem ReadToken.found_plain (kind : TokenKind) (piece : Text × Text) : (plain kind piece).Found := by
  intro f hf
  cases hf

/-- A token that has to be closed is found where its scan ends without closing it. -/
theorem ReadToken.found_closed {kind : TokenKind} {fault : Fault} {read : Text → Scan} {t : Text}
    (hcovers : (read t).Covers t)
    (hopen : ∀ {text rest : Text}, read (text ++ rest) = ⟨text, rest, false⟩ →
      fault.FoundAt ⟨.token kind, text⟩ rest) :
    (closed kind fault (read t)).Found := by
  intro f hf
  simp only [closed] at hf ⊢
  by_cases hclosed : (read t).closed = true
  · rw [if_pos hclosed] at hf
    cases hf
  · rw [if_neg hclosed] at hf
    obtain rfl := Option.some.inj hf
    refine hopen ?_
    rw [hcovers, ← Bool.eq_false_of_not_eq_true hclosed]

theorem ReadToken.found_symbol (c : Char) (rest : Text) : (symbol c rest).Found := by
  unfold symbol
  split
  · exact found_plain _ _
  · next hnone =>
    intro f hf
    cases hf
    exact .badCharacter hnone

/-- **What is wrong with a token is found at it.** -/
theorem found_readToken {t : Text} {token : ReadToken} (h : readToken t = some token) :
    token.Found := by
  cases t with
  | nil => cases h
  | cons c rest =>
    simp only [readToken, Option.some.injEq] at h
    subst h
    split
    · exact ReadToken.found_plain _ _
    · split
      · exact ReadToken.found_closed (covers_characterLiteral _) .openCharacter
      · split
        · exact ReadToken.found_closed (covers_stringLiteral _) .openString
        · split
          · exact ReadToken.found_closed (covers_interpolatedString _) .openInterpolated
          · split
            · exact ReadToken.found_plain _ _
            · exact ReadToken.found_symbol _ _

/-- Trivia in front of pieces that are what follows them in the text. -/
theorem faithful_readTrivia (leading : Bool) (state : LexState) (t : Text)
    {after : List (Noted SourcePiece)} (htext : pieceText after = (readTrivia leading state t).rest)
    (hafter : Faithful after) :
    Faithful ((readTrivia leading state t).items.map .piece ++ after) := by
  fun_induction readTrivia leading state t with
  | case1 => exact hafter
  | case2 state t r h =>
    have htext : pieceText after = r.rest := htext
    show Faithful (r.item.piece :: after)
    refine ⟨?_, hafter⟩
    rw [htext]
    exact (reading_of_readTrivium h).foundAt
  | case3 state t r h _ more ih =>
    have hrest : pieceText (more.items.map .piece ++ after) = r.rest := by
      rw [pieceText_append, pieceText_map_piece, htext]
      exact append_readTrivia leading r.state r.rest
    show Faithful (r.item.piece :: (more.items.map .piece ++ after))
    refine ⟨?_, ih htext⟩
    rw [hrest]
    exact (reading_of_readTrivium h).foundAt

/-- The end of the file has only the fault that a group is open. -/
theorem faithful_atEnd (r : ReadTrivia) :
    Faithful [⟨⟨.token .endOfFile, []⟩, (LexedTerminal.atEnd r).fault⟩] := by
  refine ⟨?_, trivial⟩
  intro f hf
  simp only [LexedTerminal.atEnd] at hf
  split at hf
  · cases hf
    exact .openGroup
  · cases hf

/-- **Each piece of a text has only faults of its own.** -/
theorem faithful_lexPieces (state : LexState) (t : Text) : Faithful (lexPieces state t) := by
  induction state, t using lexFrom.induct with
  | case1 state t leading =>
    rename_i hnone
    have hend := readToken_eq_none_iff.mp hnone
    rw [lexPieces, lexFrom_of_end hend, List.flatMap_singleton]
    exact faithful_readTrivia true state t hend.symm (faithful_atEnd leading)
  | case2 state t leading token htoken =>
    rename_i trailing ih
    have hrest : pieceText (trailing.items.map .piece ++ lexPieces trailing.state trailing.rest) =
        token.rest := by
      rw [pieceText_append, pieceText_map_piece, pieceText_lexPieces]
      exact append_readTrivia false leading.state.afterToken token.rest
    have htrailing := faithful_readTrivia false leading.state.afterToken token.rest
      (pieceText_lexPieces trailing.state trailing.rest) ih
    have hfrom : Faithful (⟨⟨.token token.kind, token.text⟩, token.fault⟩ ::
        (trailing.items.map .piece ++ lexPieces trailing.state trailing.rest)) :=
      ⟨hrest.symm ▸ found_readToken htoken, htrailing⟩
    have htext : pieceText (⟨⟨.token token.kind, token.text⟩, token.fault⟩ ::
        (trailing.items.map .piece ++ lexPieces trailing.state trailing.rest)) = leading.rest := by
      rw [pieceText_cons, hrest]
      exact (sound_readToken htoken).1
    rw [lexPieces, lexFrom_of_token htoken, List.flatMap_cons, LexedTerminal.pieces,
      List.append_assoc]
    exact faithful_readTrivia true state t htext hfrom

theorem placedIn_of_mem_lexDiagnostics {t : Text} {d : Diagnostic} (h : d ∈ lexDiagnostics t) :
    d.PlacedIn (SourceFile.ofText t) := by
  rw [lexDiagnostics, lexDiagnosticsFrom_eq] at h
  obtain ⟨before, p, after, hsplit, hfault, hspan⟩ := exists_piece_of_mem h
  have hfaithful : Faithful (before ++ p :: after) := hsplit ▸ faithful_lexPieces .initial t
  have hpieces : (SourceFile.ofText t).pieces = (before ++ p :: after).map Noted.item := by
    rw [← hsplit]
    exact (map_item_lexPieces .initial t).symm
  rw [Nat.zero_add] at hspan
  refine ⟨before.map Noted.item, p.item, after.map Noted.item, ?_, hspan, hfaithful.foundAt _ hfault⟩
  rw [hpieces, List.map_append, List.map_cons]

/-! ## The brackets -/

theorem Offends.foundAt {ts : List Terminal} {i : Nat} {f : Fault} (h : Offends ts i f) :
    ∃ t, ts[i]? = some t ∧ ∀ rest, f.FoundAt ⟨.token t.kind, t.text⟩ rest := by
  have hdelimiter : ∀ {t : Terminal} {d : Delimiter}, t.delimiter? = some d →
      (⟨.token t.kind, t.text⟩ : SourcePiece) = ⟨.token .punctuation, d.text⟩ := by
    intro t d hd
    obtain ⟨hkind, htext⟩ := Terminal.delimiter?_eq_some_iff.mp hd
    rw [hkind, htext]
  cases h with
  | unclosed hopen =>
    obtain ⟨t, ht, hd⟩ := (openBrackets_places ts).1 _ hopen
    exact ⟨t, ht, fun rest => hdelimiter hd ▸ .unclosed⟩
  | unmatched ht hd _ => exact ⟨_, ht, fun rest => hdelimiter hd ▸ .unmatchedClosing⟩
  | mismatched ht hd _ _ => exact ⟨_, ht, fun rest => hdelimiter hd ▸ .mismatched⟩

/-- The token of a terminal is one of the pieces of the file. -/
theorem pieces_split {ts : List Terminal} {i : Nat} {t : Terminal} (h : ts[i]? = some t) :
    ts.flatMap Terminal.pieces =
      ((ts.take i).flatMap Terminal.pieces ++ t.leading.map .ofTrivium) ++
        ⟨.token t.kind, t.text⟩ ::
          (t.trailing.map .ofTrivium ++ (ts.drop (i + 1)).flatMap Terminal.pieces) := by
  obtain ⟨hi, rfl⟩ := List.getElem?_eq_some_iff.mp h
  calc ts.flatMap Terminal.pieces
    _ = (ts.take i ++ ts[i] :: ts.drop (i + 1)).flatMap Terminal.pieces := by
      rw [List.getElem_cons_drop, List.take_append_drop]
    _ = _ := by
      simp only [List.flatMap_append, List.flatMap_cons, Terminal.pieces, List.append_assoc,
        List.cons_append]

/-- A fault of a token, reported at the span of its terminal. -/
theorem SpanAt.placedIn {file : SourceFile} {i : Nat} {t : Terminal} {d : Diagnostic}
    (hspan : SpanAt file.terminals i d.span) (ht : file.terminals[i]? = some t)
    (hfound : ∀ rest, d.fault.FoundAt ⟨.token t.kind, t.text⟩ rest) : d.PlacedIn file := by
  obtain ⟨t', ht', hstart, hstop⟩ := hspan
  obtain rfl := Option.some.inj (ht.symm.trans ht')
  refine ⟨_, _, _, pieces_split ht, ?_, hfound _⟩
  rw [SourcePiece.textOf_append, textOf_flatMap_pieces, SourcePiece.textOf_map_ofTrivium,
    Text.width_append, ← hstart, ← hstop]

theorem placedIn_of_mem_delimiterDiagnostics {file : SourceFile} {d : Diagnostic}
    (h : d ∈ file.delimiterDiagnostics) : d.PlacedIn file := by
  have hreported := forall₂_delimiterDiagnosticsFrom file.terminals [] [] rfl .nil
  rw [List.length_nil, ← List.range_eq_range'] at hreported
  have hreports : ∀ r ∈ bracketReports file.terminals, Offends file.terminals r.1 r.2 :=
    fun r hr => mem_bracketReports.mp hr
  have hall := ((List.forall₂_and_left _ _).mpr ⟨hreports, hreported⟩).flip
  have hplaced : List.Forall₂ (fun d _ => d.PlacedIn file ∧ True) file.delimiterDiagnostics
      (bracketReports file.terminals) := by
    refine hall.imp fun d r hr => ⟨?_, trivial⟩
    obtain ⟨hoffends, hfault, hspan⟩ := hr
    obtain ⟨t, ht, hfound⟩ := hoffends.foundAt
    exact hspan.placedIn ht (hfault ▸ hfound)
  exact ((List.forall₂_and_left _ _).mp hplaced).1 d h

/-- **Every diagnostic of a text is at a piece of the file that has its fault.** -/
theorem Analysis.placedIn {t : Text} {d : Diagnostic} (h : d ∈ (Analysis.ofText t).diagnostics) :
    d.PlacedIn (SourceFile.ofText t) := by
  have hmem : d ∈ lexDiagnostics t ++ (SourceFile.ofText t).delimiterDiagnostics :=
    (List.mergeSort_perm _ _).mem_iff.mp h
  rcases List.mem_append.mp hmem with hread | hbracket
  · exact placedIn_of_mem_lexDiagnostics hread
  · exact placedIn_of_mem_delimiterDiagnostics hbracket

end Uncomment
