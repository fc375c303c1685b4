import Uncomment.Proofs.SameCode
import Uncomment.Proofs.Shrinking

/-!
# Stripping a stripped text

A second pass reads another text than the first, so it need not leave the text alone. It does exactly if
the stripped text is accepted and no comment to remove is found in it (`stripText_eq_self_iff`): a pass
that removes a comment makes the text shorter, so it cannot give back the text it was given.

Where no two tokens are glued, one thing is left that can go wrong: a directive that is no longer first
on its line, because the line break before it went with a removed comment while a documentation comment
before that one stayed. Then the stripped text is not accepted (`Resumes.not_clean`).
-/

namespace Uncomment

/-! ## A directive that is not first on its line -/

/-- A reading that comes to a directive which is not first on its line has a fault. -/
theorem not_clean_of_leads {P : Trivium → Prop} {atEnd : Bool} {state start : LexState} {u s : Text}
    {ys : Trivia} (h : Leads P state u start (Trivia.text ys ++ s)) (hread : Readable atEnd start ys)
    (hs : Follows atEnd s) (hfirst : directivesFirst start.lineStart ys = false) :
    ∃ l ∈ lexFrom state u, ¬ l.Clean := by
  have hhash := stops_at_hash hread hs hfirst
  rw [← h.rest_eq] at hhash
  obtain ⟨more, hmore⟩ := List.head?_eq_some_iff.mp hhash
  obtain ⟨token, htoken⟩ : ∃ token, readToken (readTrivia true state u).rest = some token := by
    cases htoken : readToken (readTrivia true state u).rest with
    | none =>
      rw [readToken_eq_none_iff.mp htoken] at hmore
      simp at hmore
    | some token => exact ⟨token, rfl⟩
  have hfault : token.fault = some (.badCharacter '#') := by
    rw [hmore] at htoken
    exact fault_readToken_hash htoken
  rw [lexFrom_of_token htoken]
  refine ⟨_, List.mem_cons_self, fun hclean => ?_⟩
  have hnone : token.fault = none := hclean.fault
  rw [hfault] at hnone
  simp at hnone

namespace Resumes

variable {stripDocs keepFirst : Bool} {state state' : LexState} {t u : Text}

/-- If a directive before the next token is not first on its line, the reading has a fault. -/
theorem not_clean_leading {a : Terminal} {rest : List Terminal}
    (h : Resumes stripDocs keepFirst state t state' u)
    (hclean : ∀ x ∈ (readTrivia true state t).items, x.fault = none)
    (hactive : (readTrivia true state t).state.compilation.isActive = true)
    (hstripped : strippedFrom stripDocs keepFirst state t = a :: rest)
    (hleading : a.leading = strippedLeading stripDocs keepFirst
      (readTrivia true state t).rest.isEmpty (readTrivia true state t).trivia)
    (hs : Follows (readTrivia true state t).rest.isEmpty (fromToken (a :: rest)))
    (hfirst : directivesFirst true a.leading = false) : ∃ l ∈ lexFrom state' u, ¬ l.Clean := by
  obtain ⟨start, hc, hstart, hleads⟩ := h.leads
  have hread := (readable_readTrivia (Or.inl h.active) hclean hactive).of_active h.active hc
  have hne : (readTrivia true state t).trivia ≠ [] := by
    intro hnil
    rw [hleading, hnil, strippedLeading_nil] at hfirst
    simp [directivesFirst] at hfirst
  rw [hstripped, textOf_eq_fromToken] at hleads
  refine not_clean_of_leads hleads ?_ hs ?_
  · rw [hleading]
    exact readable_strippedLeading hread
  · rw [hstart hne]
    exact hfirst

/-- **If a directive is not first on its line, the reading of the stripped text has a fault.** -/
theorem not_clean (h : Resumes stripDocs keepFirst state t state' u)
    (hfirst : ∃ a ∈ strippedFrom stripDocs keepFirst state t,
      directivesFirst true a.leading = false) : ∃ l ∈ lexFrom state' u, ¬ l.Clean := by
  have hall := h.clean
  induction state, t using lexFrom.induct generalizing keepFirst state' u with
  | case1 state t leading =>
    rename_i hnone
    have hend : (readTrivia true state t).rest = [] := readToken_eq_none_iff.mp hnone
    rw [lexFrom_of_end hend] at hall
    have hlast := hall _ (List.mem_singleton.mpr rfl)
    rw [strippedFrom_of_end hend] at hfirst
    obtain ⟨a, hmem, ha⟩ := hfirst
    obtain rfl := List.mem_singleton.mp hmem
    exact h.not_clean_leading hlast.leading (isActive_of_not_inGroup (inGroup_of_clean hlast))
      (strippedFrom_of_end hend) rfl (fun _ => rfl) ha
  | case2 state t leading token htoken =>
    rename_i trailing ih
    rw [lexFrom_of_token htoken] at hall
    obtain ⟨hhead, hrest⟩ := List.forall_mem_cons.mp hall
    rw [strippedFrom_of_token htoken rfl] at hfirst
    by_cases hok : directivesFirst true (strippedLeading stripDocs keepFirst
        (readTrivia true state t).rest.isEmpty (readTrivia true state t).trivia) = true
    · -- The directive comes later, and the reading comes past this token.
      obtain ⟨items, next, s, hs, heq, _, hnext⟩ := h.token htoken rfl hok
      obtain ⟨a, hmem, ha⟩ := hfirst
      have hlater : a ∈ strippedFrom stripDocs false trailing.state trailing.rest := by
        rcases List.mem_cons.mp hmem with rfl | hmem
        · rw [hok] at ha
          simp at ha
        · exact hmem
      obtain ⟨l, hl, hfault⟩ := ih (hnext.after_token hs) ⟨a, hlater, ha⟩ hrest
      rw [heq]
      exact ⟨l, List.mem_cons_of_mem _ hl, hfault⟩
    · refine h.not_clean_leading hhead.leading (isActive_leading h.active htoken)
        (strippedFrom_of_token htoken rfl) rfl ?_ (by simpa using hok)
      exact fun hempty => absurd (List.isEmpty_iff.mp hempty) (ne_nil_of_readToken htoken)

end Resumes

/-! ## A second pass over a stripped text -/

/-- Every directive of a file is the first on its line. -/
def SourceFile.DirectivesFirst (file : SourceFile) : Prop :=
  ∀ a ∈ file.terminals, directivesFirst true a.leading = true

instance (file : SourceFile) : Decidable file.DirectivesFirst :=
  inferInstanceAs (Decidable (∀ a ∈ _, _))

/-- If no two tokens are glued, a second pass changes nothing exactly if every directive is still first
on its line. -/
theorem stripText_stripped_iff {settings : Settings} {t : Text} {file : SourceFile}
    (hparse : SourceFile.parse t = .ok file)
    (hapart : KeepsApart file.terminals (file.strip settings).terminals) :
    stripText settings (file.strip settings).text = .ok (file.strip settings).text ↔
      (file.strip settings).DirectivesFirst := by
  obtain ⟨rfl, hclean, _⟩ := parse_eq_ok_iff.mp hparse
  have hresumes := resumes_initial hclean hapart
  constructor
  · intro h
    obtain ⟨again, hagain, _⟩ := stripText_eq_self_iff.mp h
    obtain ⟨_, hclean', _⟩ := parse_eq_ok_iff.mp hagain
    intro a ha
    refine Decidable.byContradiction fun hfirst => ?_
    obtain ⟨l, hl, hfault⟩ := hresumes.not_clean ⟨a, ha, by simpa using hfirst⟩
    exact hfault (hclean' l hl)
  · intro hfirst
    obtain ⟨htokens, hclean', hbody⟩ := hresumes.same_code hfirst
    exact stripText_eq_self_iff.mpr ⟨_, parse_of_same_tokens hparse hclean' htokens, hbody⟩

/-- **When a second pass changes nothing.** Exactly if the stripped text is accepted and no comment to
remove is found in it; if no two tokens are glued, exactly if every directive is still first on its
line; and every directive is if documentation is removed too. -/
theorem stripText_twice {settings : Settings} {t once : Text} {file : SourceFile}
    (hparse : SourceFile.parse t = .ok file) (hstrip : stripText settings t = .ok once) :
    (stripText settings once = .ok once ↔ ∃ again, SourceFile.parse once = .ok again ∧
      ∀ x ∈ again.bodyTrivia settings.keepHeader, x.isRemovable settings.stripDocs = false) ∧
    (KeepsApart file.terminals (file.strip settings).terminals →
      (stripText settings once = .ok once ↔ (file.strip settings).DirectivesFirst)) ∧
    (settings.stripDocs = true → (file.strip settings).DirectivesFirst) := by
  obtain rfl : (file.strip settings).text = once :=
    Except.ok.inj ((stripText_of_parse hparse).symm.trans hstrip)
  refine ⟨stripText_eq_self_iff, stripText_stripped_iff hparse, fun hdocs => ?_⟩
  obtain ⟨rfl, hclean, _⟩ := parse_eq_ok_iff.mp hparse
  rw [SourceFile.DirectivesFirst, strip_terminals, hdocs]
  exact directivesFirst_strippedFrom rfl hclean fun _ => rfl

/-- A removed comment at the end of a line, a documentation comment that is kept, and a directive. -/
theorem stripText_twice_of_documentation :
    stripText { stripDocs := false } "x; // c\n/// d\n#region r\n".toList =
        .ok "x;\n/// d\n#region r\n".toList ∧
      stripText { stripDocs := false } "x;\n/// d\n#region r\n".toList =
        .ok "x;\n/// d\n#region r\n".toList := by
  have hparse := parse_of_diagnostics (t := "x; // c\n/// d\n#region r\n".toList)
    (by decide +kernel)
  have hstrip : stripText { stripDocs := false } "x; // c\n/// d\n#region r\n".toList =
      .ok "x;\n/// d\n#region r\n".toList :=
    (stripText_of_parse hparse).trans (congrArg Except.ok (by decide +kernel))
  exact ⟨hstrip, ((stripText_twice hparse hstrip).2.1 (by decide +kernel)).mpr (by decide +kernel)⟩

/-- **A second pass need not give back the text.** Two empty strings that come together open another
literal; and a directive after a documentation comment is no directive. -/
theorem stripText_not_idempotent :
    (stripText {} "\"\"/**/\"\"".toList = .ok "\"\"\"\"".toList ∧
      stripText {} "\"\"\"\"".toList ≠ .ok "\"\"\"\"".toList) ∧
    (stripText { stripDocs := false } "x\n/** d */ // c\n#region r\n".toList =
        .ok "x\n/** d */#region r\n".toList ∧
      stripText { stripDocs := false } "x\n/** d */#region r\n".toList ≠
        .ok "x\n/** d */#region r\n".toList) := by
  have hrejected : ∀ {settings : Settings} {t once : Text},
      (stripText settings t).toOption = none → stripText settings t ≠ .ok once := by
    intro settings t once hnone h
    rw [h] at hnone
    cases hnone
  refine ⟨⟨?_, hrejected (by decide +kernel)⟩, ?_, hrejected (by decide +kernel)⟩
  · exact (stripText_of_parse (parse_of_diagnostics (by decide +kernel))).trans
      (congrArg Except.ok (by decide +kernel))
  · exact (stripText_of_parse (parse_of_diagnostics (by decide +kernel))).trans
      (congrArg Except.ok (by decide +kernel))

end Uncomment
