import Uncomment.Proofs.DirectiveLines

/-!
# What is compiled, read off the directives

The lexer decides what is compiled while it reads. Afterwards the same can be read off the directives it
found, without the text around them: **their replay**, from the start of the file. Here it is proved that
the two never differ.

A piece of trivia changes what is compiled only if it is a directive, and then as the replay does
(`Reading.compilation_eq`); so both go along with each other piece by piece and terminal by terminal. What
is wrong with a directive is noted where it was read, so the errors of the replay are the diagnostics, in
order and each at its directive (`directive_diagnostics`).
-/

namespace Uncomment

/-! ## The replay -/

/-- What is compiled after the directives among trivia. -/
def Compilation.replay (c : Compilation) (xs : Trivia) : Compilation :=
  (xs.filter (·.kind == .directive)).foldl (fun c x => (c.applyLine x.text).1) c

/-- The errors of the directives among trivia, each at the span of its directive. -/
def Compilation.replayErrors (c : Compilation) : List (Text × Trivium) → List Diagnostic
  | [] => []
  | (before, x) :: rest =>
    if x.kind = .directive then
      faultAt before.width x.text ((c.applyLine x.text).2.map Fault.ofDirectiveError) ++
        replayErrors (c.applyLine x.text).1 rest
    else replayErrors c rest

/-- Text that is not compiled stands only where the replay says so. -/
def Compilation.SkipsOnlyInactive (c : Compilation) : Trivia → Prop
  | [] => True
  | x :: xs => (x.kind = .disabledText → c.isActive = false) ∧ SkipsOnlyInactive (c.replay [x]) xs

/-- Whether a fault is the error of a directive. -/
def Fault.isDirective : Fault → Bool
  | unexpectedDirective _ | invalidDirective => true
  | _ => false

/-- Whether a fault is that of a group that is never closed. -/
def Fault.isOpenGroup : Fault → Bool
  | unterminatedConditional => true
  | _ => false

namespace Compilation

@[simp] theorem replay_nil (c : Compilation) : c.replay [] = c := rfl

@[simp] theorem replay_append (c : Compilation) (xs ys : Trivia) :
    c.replay (xs ++ ys) = (c.replay xs).replay ys := by
  simp [replay]

theorem replay_singleton (c : Compilation) (x : Trivium) :
    c.replay [x] = if x.kind = .directive then (c.applyLine x.text).1 else c := by
  by_cases hk : x.kind = .directive <;> simp [replay, hk]

theorem replayErrors_cons (c : Compilation) (before : Text) (x : Trivium)
    (rest : List (Text × Trivium)) :
    c.replayErrors ((before, x) :: rest) =
      (if x.kind = .directive then
        faultAt before.width x.text ((c.applyLine x.text).2.map Fault.ofDirectiveError) else []) ++
        (c.replay [x]).replayErrors rest := by
  rw [replayErrors, replay_singleton]
  split <;> rfl

theorem replayErrors_append (c : Compilation) (ps qs : List (Text × Trivium)) :
    c.replayErrors (ps ++ qs) = c.replayErrors ps ++ (c.replay (ps.map Prod.snd)).replayErrors qs := by
  induction ps generalizing c with
  | nil => rfl
  | cons p rest ih =>
    obtain ⟨before, x⟩ := p
    rw [List.cons_append, replayErrors_cons, replayErrors_cons, ih, List.append_assoc,
      ← replay_append]
    rfl

theorem skipsOnlyInactive_append {c : Compilation} {xs ys : Trivia} :
    c.SkipsOnlyInactive (xs ++ ys) ↔
      c.SkipsOnlyInactive xs ∧ (c.replay xs).SkipsOnlyInactive ys := by
  induction xs generalizing c with
  | nil => simp [SkipsOnlyInactive]
  | cons x rest ih =>
    rw [List.cons_append, SkipsOnlyInactive, SkipsOnlyInactive, ih, ← replay_append, and_assoc]
    rfl

end Compilation

/-! ## Piece by piece -/

theorem compilation_readTrivia (leading : Bool) (state : LexState) (t : Text) :
    (readTrivia leading state t).state.compilation =
      state.compilation.replay (readTrivia leading state t).trivia := by
  rw [state_readTrivia]
  exact compilation_afterAll _ _

/-- After a piece the lexer is where the replay of the piece is. -/
theorem Reading.compilation_eq {leading : Bool} {state : LexState} {t : Text} {r : ReadTrivium}
    (h : Reading leading state t r) :
    r.state.compilation = state.compilation.replay [r.item.item] := by
  rw [h.state_eq]
  exact compilation_afterAll state [r.item.item]

theorem Reading.isActive_of_disabledText {leading : Bool} {state : LexState} {t : Text}
    {r : ReadTrivium} (h : Reading leading state t r) (hk : r.item.item.kind = .disabledText) :
    state.compilation.isActive = false := by
  obtain ⟨_, hskip, _⟩ := h.eq_of_disabledText hk
  simp only [LexState.skipsLine, Bool.and_eq_true, Bool.not_eq_true'] at hskip
  exact hskip.1.2

theorem skipsOnlyInactive_readTrivia (leading : Bool) (state : LexState) (t : Text) :
    state.compilation.SkipsOnlyInactive (readTrivia leading state t).trivia := by
  fun_induction readTrivia leading state t with
  | case1 => trivial
  | case2 state t r h => exact ⟨(reading_of_readTrivium h).isActive_of_disabledText, trivial⟩
  | case3 state t r h _ more ih =>
    have hr := reading_of_readTrivium h
    rw [hr.compilation_eq] at ih
    exact ⟨hr.isActive_of_disabledText, ih⟩

/-- The fault of a directive is the error of the replay. -/
theorem Reading.fault_of_directive {leading : Bool} {state : LexState} {t : Text} {r : ReadTrivium}
    (h : Reading leading state t r) (hk : r.item.item.kind = .directive) :
    r.item.fault =
      (state.compilation.applyLine r.item.item.text).2.map Fault.ofDirectiveError := by
  cases h with
  | directive => rfl
  | line => exact absurd hk (lineCommentKind_ne rfl)
  | block => exact absurd hk (blockCommentKind_ne rfl)
  | disabled | newline | blank => cases hk

/-- The only fault of another piece is that a comment is not closed. -/
theorem Reading.fault_of_other {leading : Bool} {state : LexState} {t : Text} {r : ReadTrivium}
    (h : Reading leading state t r) (hk : r.item.item.kind ≠ .directive) :
    ∀ f ∈ r.item.fault, f = .unterminatedComment := by
  intro f hf
  cases h with
  | directive => exact absurd rfl hk
  | block =>
    simp only [ReadTrivium.block] at hf
    split at hf
    · cases hf
    · exact (Option.some.inj hf).symm
  | disabled | newline | blank | line => cases hf

theorem Fault.isDirective_ofDirectiveError (error : DirectiveError) :
    (Fault.ofDirectiveError error).isDirective = true := by
  cases error <;> rfl

/-! ## The diagnostics of a kind -/

theorem filter_faultAt_of_pos {p : Fault → Bool} {fault : Option Fault}
    (h : ∀ f ∈ fault, p f = true) (offset : Nat) (text : Text) :
    (faultAt offset text fault).filter (fun d => p d.fault) = faultAt offset text fault := by
  cases fault with
  | none => rfl
  | some f => simp [faultAt, h f rfl]

theorem filter_faultAt_of_neg {p : Fault → Bool} {fault : Option Fault}
    (h : ∀ f ∈ fault, p f = false) (offset : Nat) (text : Text) :
    (faultAt offset text fault).filter (fun d => p d.fault) = [] := by
  cases fault with
  | none => rfl
  | some f => simp [faultAt, h f rfl]

/-- **The errors noted beside a piece are those of the replay.** -/
theorem Reading.filter_fault {leading : Bool} {state : LexState} {t : Text} {r : ReadTrivium}
    (h : Reading leading state t r) (offset : Nat) (text : Text) :
    (faultAt offset text r.item.fault).filter (fun d => d.fault.isDirective) =
      if r.item.item.kind = .directive then
        faultAt offset text
          ((state.compilation.applyLine r.item.item.text).2.map Fault.ofDirectiveError)
      else [] := by
  by_cases hk : r.item.item.kind = .directive
  · rw [if_pos hk, h.fault_of_directive hk]
    refine filter_faultAt_of_pos (fun f hf => ?_) offset text
    obtain ⟨error, _, rfl⟩ := Option.map_eq_some_iff.mp hf
    exact Fault.isDirective_ofDirectiveError error
  · rw [if_neg hk]
    refine filter_faultAt_of_neg (fun f hf => ?_) offset text
    rw [h.fault_of_other hk f hf]
    rfl

/-- What is wrong with a piece is an open comment or a matter of a directive. -/
theorem Reading.fault_eq_false {p : Fault → Bool} (hcomment : p .unterminatedComment = false)
    (hdirective : ∀ error, p (.ofDirectiveError error) = false) {leading : Bool} {state : LexState}
    {t : Text} {r : ReadTrivium} (h : Reading leading state t r) :
    ∀ f ∈ r.item.fault, p f = false := by
  intro f hf
  by_cases hk : r.item.item.kind = .directive
  · rw [h.fault_of_directive hk] at hf
    obtain ⟨error, _, rfl⟩ := Option.map_eq_some_iff.mp hf
    exact hdirective error
  · rw [h.fault_of_other hk f hf]
    exact hcomment

/-- What is wrong with a token is neither a matter of directives nor of the end of the file. -/
theorem fault_readToken {t : Text} {token : ReadToken} (h : readToken t = some token) :
    ∀ f ∈ token.fault, f.isDirective = false ∧ f.isOpenGroup = false := by
  have hclosed : ∀ (kind : TokenKind) (scan : Scan),
      ∀ fault ∈ [Fault.unterminatedCharacter, .unterminatedString],
      ∀ f ∈ (ReadToken.closed kind fault scan).fault,
        f.isDirective = false ∧ f.isOpenGroup = false := by
    intro kind scan fault hfault f hf
    simp only [ReadToken.closed] at hf
    split at hf
    · cases hf
    · cases hf
      simp only [List.mem_cons, List.not_mem_nil, or_false] at hfault
      rcases hfault with rfl | rfl <;> exact ⟨rfl, rfl⟩
  cases t with
  | nil => cases h
  | cons c rest =>
    simp only [readToken, Option.some.injEq] at h
    subst h
    intro f hf
    split at hf
    · cases hf
    · split at hf
      · exact hclosed _ _ _ (by simp) f hf
      · split at hf
        · exact hclosed _ _ _ (by simp) f hf
        · split at hf
          · exact hclosed _ _ _ (by simp) f hf
          · split at hf
            · cases hf
            · simp only [ReadToken.symbol] at hf
              split at hf
              · cases hf
              · cases hf
                exact ⟨rfl, rfl⟩

theorem directive_triviaDiagnostics (leading : Bool) (state : LexState) (t before : Text) :
    (triviaDiagnostics before.width (readTrivia leading state t).items).filter
        (fun d => d.fault.isDirective) =
      state.compilation.replayErrors
        (Trivia.placed before (readTrivia leading state t).trivia) := by
  fun_induction readTrivia leading state t generalizing before with
  | case1 => rfl
  | case2 state t r h =>
    have hr := reading_of_readTrivium h
    simp only [triviaDiagnostics, ReadTrivia.trivia, List.map_cons, List.map_nil, Trivia.placed,
      Compilation.replayErrors_cons, List.filter_append, hr.filter_fault]
    rfl
  | case3 state t r h _ more ih =>
    have hr := reading_of_readTrivium h
    have hrest := ih (before ++ r.item.item.text)
    rw [hr.compilation_eq, Text.width_append] at hrest
    simp only [triviaDiagnostics, ReadTrivia.trivia, List.map_cons, Trivia.placed,
      Compilation.replayErrors_cons, List.filter_append, hr.filter_fault]
    rw [hrest]
    rfl

/-- So the trivia around a token have no diagnostics of another kind. -/
theorem filter_triviaDiagnostics {p : Fault → Bool} (hcomment : p .unterminatedComment = false)
    (hdirective : ∀ error, p (.ofDirectiveError error) = false) (leading : Bool) (state : LexState)
    (t : Text) (offset : Nat) :
    (triviaDiagnostics offset (readTrivia leading state t).items).filter
      (fun d => p d.fault) = [] := by
  fun_induction readTrivia leading state t generalizing offset with
  | case1 => rfl
  | case2 state t r h =>
    have hr := reading_of_readTrivium h
    simp only [triviaDiagnostics, List.filter_append,
      filter_faultAt_of_neg (hr.fault_eq_false hcomment hdirective)]
    rfl
  | case3 state t r h _ more ih =>
    have hr := reading_of_readTrivium h
    simp only [triviaDiagnostics, List.filter_append,
      filter_faultAt_of_neg (hr.fault_eq_false hcomment hdirective)]
    exact ih _

theorem Fault.isOpenGroup_ofDirectiveError (error : DirectiveError) :
    (Fault.ofDirectiveError error).isOpenGroup = false := by
  cases error <;> rfl

/-! ## Terminal by terminal -/

theorem terminals_of_end {state : LexState} {t : Text} (hend : (readTrivia true state t).rest = []) :
    (lexFrom state t).map LexedTerminal.terminal =
      [{ kind := .endOfFile, text := [], leading := (readTrivia true state t).trivia,
         trailing := [] }] := by
  rw [lexFrom_of_end hend]
  rfl

theorem terminals_of_token {state : LexState} {t : Text} {token : ReadToken} {r : ReadTrivia}
    (htoken : readToken (readTrivia true state t).rest = some token)
    (hr : readTrivia false (readTrivia true state t).state.afterToken token.rest = r) :
    (lexFrom state t).map LexedTerminal.terminal =
      { kind := token.kind, text := token.text, leading := (readTrivia true state t).trivia,
        trailing := r.trivia } :: (lexFrom r.state r.rest).map LexedTerminal.terminal := by
  rw [lexFrom_of_token htoken, hr]
  rfl

/-- A token changes nothing, so after a terminal the lexer is where the replay of its trivia is. -/
theorem compilation_trailing (state : LexState) (t s : Text) :
    (readTrivia false (readTrivia true state t).state.afterToken s).state.compilation =
      state.compilation.replay ((readTrivia true state t).trivia ++
        (readTrivia false (readTrivia true state t).state.afterToken s).trivia) := by
  rw [Compilation.replay_append, ← compilation_readTrivia]
  exact compilation_readTrivia false _ s

/-- **Before every token the replay says that the text is compiled.** -/
theorem isActive_replay {state : LexState} {t : Text} (ha : state.compilation.isActive = true)
    {before after : List Terminal} {x : Terminal}
    (hsplit : (lexFrom state t).map LexedTerminal.terminal = before ++ x :: after)
    (hx : x.kind ≠ .endOfFile) :
    (state.compilation.replay (before.flatMap Terminal.trivia ++ x.leading)).isActive = true := by
  induction state, t using lexFrom.induct generalizing before with
  | case1 state t leading =>
    rename_i hnone
    rw [terminals_of_end (readToken_eq_none_iff.mp hnone)] at hsplit
    cases before with
    | nil =>
      cases hsplit
      exact absurd rfl hx
    | cons first more => simp at hsplit
  | case2 state t leading token htoken =>
    rename_i trailing ih
    have hactive : leading.state.afterToken.compilation.isActive = true :=
      isActive_leading ha htoken
    rw [terminals_of_token htoken rfl] at hsplit
    cases before with
    | nil =>
      cases hsplit
      rw [List.flatMap_nil, List.nil_append, ← compilation_readTrivia]
      exact hactive
    | cons first more =>
      obtain ⟨rfl, hmore⟩ := List.cons.inj hsplit
      have hnext := ih (isActive_trailing hactive _) hmore
      rw [compilation_trailing, ← Compilation.replay_append] at hnext
      rw [List.flatMap_cons, List.append_assoc]
      exact hnext

/-- **Text that is not compiled stands only where the replay says so.** -/
theorem skipsOnlyInactive_lexFrom (state : LexState) (t : Text) :
    state.compilation.SkipsOnlyInactive
      (((lexFrom state t).map LexedTerminal.terminal).flatMap Terminal.trivia) := by
  induction state, t using lexFrom.induct with
  | case1 state t leading =>
    rename_i hnone
    rw [terminals_of_end (readToken_eq_none_iff.mp hnone)]
    simpa [Terminal.trivia] using skipsOnlyInactive_readTrivia true state t
  | case2 state t leading token htoken =>
    rename_i trailing ih
    rw [terminals_of_token htoken rfl, List.flatMap_cons, Compilation.skipsOnlyInactive_append,
      Terminal.trivia, ← compilation_trailing, Compilation.skipsOnlyInactive_append,
      ← compilation_readTrivia]
    exact ⟨⟨skipsOnlyInactive_readTrivia true state t,
      skipsOnlyInactive_readTrivia false leading.state.afterToken token.rest⟩, ih⟩

/-- The diagnostics of a kind, of one terminal. -/
theorem LexedTerminal.filter_diagnostics (l : LexedTerminal) (offset : Nat) (p : Fault → Bool) :
    (l.diagnostics offset).filter (fun d => p d.fault) =
      (triviaDiagnostics offset l.leading).filter (fun d => p d.fault) ++
        (faultAt (offset + (notedText l.leading).width) l.text l.fault).filter
          (fun d => p d.fault) ++
        (triviaDiagnostics (offset + (notedText l.leading).width + l.text.width) l.trailing).filter
          (fun d => p d.fault) := by
  simp only [diagnostics, List.filter_append]

/-- What is wrong at the end of the file is not a directive. -/
theorem isDirective_atEnd (r : ReadTrivia) :
    ∀ f ∈ (LexedTerminal.atEnd r).fault, f.isDirective = false := by
  intro f hf
  simp only [LexedTerminal.atEnd] at hf
  split at hf
  · cases hf
    rfl
  · cases hf

/-- **The diagnostics of directives are the errors of the replay.** -/
theorem directive_diagnostics (state : LexState) (t before : Text) :
    (lexDiagnosticsFrom before.width (lexFrom state t)).filter (fun d => d.fault.isDirective) =
      state.compilation.replayErrors
        (placedFrom before ((lexFrom state t).map LexedTerminal.terminal)) := by
  induction state, t using lexFrom.induct generalizing before with
  | case1 state t leading =>
    rename_i hnone
    have hend := readToken_eq_none_iff.mp hnone
    rw [terminals_of_end hend, lexFrom_of_end hend]
    simp only [lexDiagnosticsFrom, List.append_nil, LexedTerminal.filter_diagnostics,
      filter_faultAt_of_neg (isDirective_atEnd _)]
    simp only [LexedTerminal.atEnd, triviaDiagnostics, List.filter_nil, List.append_nil, placedFrom,
      Trivia.placed]
    exact directive_triviaDiagnostics true state t before
  | case2 state t leading token htoken =>
    rename_i trailing ih
    have hleading := directive_triviaDiagnostics true state t before
    have htrailing := directive_triviaDiagnostics false leading.state.afterToken token.rest
      (before ++ Trivia.text leading.trivia ++ token.text)
    have hnext := ih (before ++ (Trivia.text leading.trivia ++ token.text ++
      Trivia.text trailing.trivia))
    rw [Text.width_append, Text.width_append] at htrailing
    rw [compilation_trailing, Text.width_append before] at hnext
    rw [terminals_of_token htoken rfl, lexFrom_of_token htoken]
    simp only [lexDiagnosticsFrom, List.filter_append, LexedTerminal.filter_diagnostics,
      filter_faultAt_of_neg fun f hf => (fault_readToken htoken f hf).1, List.append_nil, placedFrom,
      Compilation.replayErrors_append, List.map_append, map_snd_placed, hleading,
      ← compilation_readTrivia]
    exact congr (congrArg _ (congrArg _ htrailing)) hnext

/-- **An open group is reported once, at the end of the text, if the replay ends in one.** -/
theorem unterminated_diagnostics (state : LexState) (t : Text) (offset : Nat) :
    (lexDiagnosticsFrom offset (lexFrom state t)).filter
        (fun d => d.fault.isOpenGroup) =
      if (state.compilation.replay
          (((lexFrom state t).map LexedTerminal.terminal).flatMap Terminal.trivia)).inGroup then
        [⟨⟨offset + t.width, offset + t.width⟩, .unterminatedConditional⟩]
      else [] := by
  induction state, t using lexFrom.induct generalizing offset with
  | case1 state t leading =>
    rename_i hnone
    have hend := readToken_eq_none_iff.mp hnone
    have hcat : notedText (readTrivia true state t).items = t := by
      have hcat := append_readTrivia true state t
      rwa [hend, List.append_nil] at hcat
    rw [terminals_of_end hend, lexFrom_of_end hend]
    simp only [lexDiagnosticsFrom, List.append_nil, LexedTerminal.filter_diagnostics,
      LexedTerminal.atEnd,
      filter_triviaDiagnostics (p := Fault.isOpenGroup) rfl Fault.isOpenGroup_ofDirectiveError, hcat,
      triviaDiagnostics, List.filter_nil,
      List.nil_append, List.flatMap_cons, List.flatMap_nil, Terminal.trivia,
      ← compilation_readTrivia]
    split <;> rfl
  | case2 state t leading token htoken =>
    rename_i trailing ih
    have hcat : t = Trivia.text leading.trivia ++ token.text ++ Trivia.text trailing.trivia ++
        trailing.rest := by
      have hleading : Trivia.text leading.trivia ++ leading.rest = t := append_readTrivia true state t
      have htrailing : Trivia.text trailing.trivia ++ trailing.rest = token.rest :=
        append_readTrivia false leading.state.afterToken token.rest
      rw [List.append_assoc, htrailing, List.append_assoc, (sound_readToken htoken).1, hleading]
    have hnext := ih (offset +
      (Trivia.text leading.trivia ++ token.text ++ Trivia.text trailing.trivia).width)
    rw [compilation_trailing, Nat.add_assoc, ← Text.width_append, ← hcat] at hnext
    rw [terminals_of_token htoken rfl, lexFrom_of_token htoken]
    simp only [lexDiagnosticsFrom, List.filter_append, LexedTerminal.filter_diagnostics,
      filter_faultAt_of_neg fun f hf => (fault_readToken htoken f hf).2,
      filter_triviaDiagnostics (p := Fault.isOpenGroup) rfl Fault.isOpenGroup_ofDirectiveError,
      List.nil_append, List.flatMap_cons, Terminal.trivia,
      Compilation.replay_append _ (_ ++ _)]
    exact hnext

/-- **What the lexer compiles is the replay of its directives.** For every text, apply the directives that
were found, in order, to the state at the start of a file. Then the replay says before every token that
the text is compiled, and before every trivium of text that is not compiled that it is not; the
diagnostics about directives are exactly the errors of the replay, in order, each at the span of its
directive; and an open group is reported once, at the end of the text, if and only if the replay ends
inside a group. -/
theorem compilation_is_replay (t : Text) :
    (∀ before x after, (SourceFile.ofText t).terminals = before ++ x :: after →
      x.kind ≠ .endOfFile →
      (Compilation.initial.replay (before.flatMap Terminal.trivia ++ x.leading)).isActive = true) ∧
    (∀ before d after, (SourceFile.ofText t).trivia = before ++ d :: after →
      d.kind = .disabledText → (Compilation.initial.replay before).isActive = false) ∧
    (lexDiagnostics t).filter (fun d => d.fault.isDirective) =
      Compilation.initial.replayErrors (SourceFile.ofText t).placedTrivia ∧
    (lexDiagnostics t).filter (fun d => d.fault.isOpenGroup) =
      if (Compilation.initial.replay (SourceFile.ofText t).trivia).inGroup then
        [⟨⟨t.width, t.width⟩, .unterminatedConditional⟩]
      else [] := by
  refine ⟨fun before x after hsplit hx => ?_, fun before d after hsplit hd => ?_, ?_, ?_⟩
  · have hactive : LexState.initial.compilation.isActive = true := rfl
    exact isActive_replay hactive hsplit hx
  · have hskips : Compilation.initial.SkipsOnlyInactive (SourceFile.ofText t).trivia :=
      skipsOnlyInactive_lexFrom .initial t
    rw [hsplit, Compilation.skipsOnlyInactive_append] at hskips
    exact hskips.2.1 hd
  · exact directive_diagnostics .initial t []
  · have hopen := unterminated_diagnostics .initial t 0
    rw [Nat.zero_add] at hopen
    exact hopen

end Uncomment
