import Uncomment.Proofs.Encodings
import Uncomment.Proofs.SameCode
import Uncomment.Proofs.Shrinking

/-!
# Stripping a stored file never corrupts it

Stripping a stored file reads it, and may write it back. Three things make that safe.

* Writing a file changes this file alone (`FileTree.file?_put`), and paths lead where they led before
  (`FileTree.locate_put`), so what is read afterwards is what was written (`FileTree.read_of_write`).
* Writing what was read changes nothing, because a content that was decoded is encoded again byte by
  byte.
* What is written is read back as the stripped text **in the same encoding**. The one text for which this
  could fail begins with U+FEFF, and no stripped text does (`head?_strip_ne_mark`): the trivia that stay
  begin with other characters, and no token of an accepted text begins with this one.
-/

namespace Uncomment

/-! ## Files that are written -/

namespace FileTree

variable {tree : FileTree} {location : Location} {file : StoredFile} {path : Text}

theorem put_of_file? (h : tree.file? location = some file) (content : Bytes) :
    tree.put location content =
      { tree with files := tree.files.map fun (place, file) =>
          (place, if place == location then { file with content } else file) } := by
  rw [put, if_pos (by rw [h]; rfl)]

/-- **Writing a file changes this file alone**, and only its content. -/
theorem file?_put (h : tree.file? location = some file) (content : Bytes) (place : Location) :
    (tree.put location content).file? place =
      if place = location then some { file with content } else tree.file? place := by
  rw [put_of_file? h]
  simp only [file?, List.find?_map] at h ⊢
  by_cases hplace : place = location
  · subst hplace
    obtain ⟨entry, hentry, rfl⟩ := Option.map_eq_some_iff.mp h
    have hat := List.find?_some hentry
    rw [if_pos rfl]
    simp only [Function.comp_def, hentry, Option.map_some, hat, if_true]
  · rw [if_neg hplace]
    simp only [Function.comp_def, Option.map_map]
    cases hentry : tree.files.find? (·.1 == place) with
    | none => rfl
    | some entry =>
      have hat := List.find?_some hentry
      simp [beq_iff_eq.mp hat, hplace]

/-- Writing the content that a file has changes no file. -/
theorem file?_put_content (h : tree.file? location = some file) (place : Location) :
    (tree.put location file.content).file? place = tree.file? place := by
  rw [file?_put h]
  split
  · next hplace => rw [hplace, h]
  · rfl

theorem isFolder_put (h : tree.file? location = some file) (content : Bytes) (place : Location) :
    (tree.put location content).isFolder place = tree.isFolder place := by
  rw [put_of_file? h]
  simp only [isFolder, List.any_map]
  rfl

theorem isPresent_put (h : tree.file? location = some file) (content : Bytes) (place : Location) :
    (tree.put location content).isPresent place = tree.isPresent place := by
  rw [isPresent, isPresent, isFolder_put h, file?_put h]
  split
  · next hplace => rw [hplace, h]; rfl
  · rfl

/-- Paths lead where they led before a file was written. -/
theorem resolve_put (h : tree.file? location = some file) (content : Bytes) (path : Text) :
    (tree.put location content).resolve path = tree.resolve path := by
  have hfollow : (tree.put location content).follow = tree.follow := by
    funext place piece
    rw [follow, follow, isFolder_put h, isPresent_put h]
  have hhome : (tree.put location content).home = tree.home := by rw [put_of_file? h]
  unfold resolve
  rw [hfollow, hhome]

theorem locate_eq_ok_iff :
    tree.locate path = .ok (location, file) ↔
      tree.resolve path = .ok location ∧ tree.file? location = some file := by
  unfold locate
  cases hresolve : tree.resolve path with
  | error cause => simp
  | ok place =>
    cases hfile : tree.file? place with
    | none =>
      simp only [hfile, reduceCtorEq, Except.ok.injEq, false_iff, not_and]
      rintro rfl
      simp [hfile]
    | some found =>
      simp only [hfile, Except.ok.injEq, Prod.mk.injEq]
      constructor
      · rintro ⟨rfl, rfl⟩
        exact ⟨rfl, hfile⟩
      · rintro ⟨rfl, h⟩
        exact ⟨rfl, Option.some.inj (hfile.symm.trans h)⟩

/-- What is read after a write is what was written. -/
theorem read_put (h : tree.locate path = .ok (location, file)) (hreadable : file.readable = true)
    (content : Bytes) : (tree.put location content).read path = .ok content := by
  obtain ⟨hresolve, hfile⟩ := locate_eq_ok_iff.mp h
  have hlocate : (tree.put location content).locate path = .ok (location, { file with content }) := by
    rw [locate_eq_ok_iff, resolve_put hfile, file?_put hfile, if_pos rfl]
    exact ⟨hresolve, rfl⟩
  rw [read, hlocate]
  simp [hreadable]

theorem read_eq_ok_iff {content : Bytes} :
    tree.read path = .ok content ↔ ∃ location file, tree.locate path = .ok (location, file) ∧
      file.readable = true ∧ file.content = content := by
  constructor
  · intro h
    unfold read at h
    split at h
    · cases h
    · next location file hlocate =>
      split at h
      · next hreadable => exact ⟨location, file, hlocate, hreadable, Except.ok.inj h⟩
      · cases h
  · rintro ⟨location, file, hlocate, hreadable, rfl⟩
    simp only [read, hlocate, hreadable, if_true]

end FileTree

/-! ## No stripped text begins with a mark -/

/-- Trivia in text that is compiled begin with white space, a slash or `#`. -/
theorem Readable.head?_ne_mark {atEnd : Bool} {state : LexState} {xs : Trivia} {s : Text}
    (h : Readable atEnd state xs) (ha : state.compilation.isActive = true)
    (hs : s.head? ≠ some '\uFEFF') : (Trivia.text xs ++ s).head? ≠ some '\uFEFF' := by
  cases xs with
  | nil => exact hs
  | cons x rest =>
    rw [Trivia.text_cons, List.append_assoc]
    by_cases hk : x.kind ≠ .directive ∧ x.kind ≠ .disabledText
    · obtain ⟨c, hc, hclass⟩ := h.1.head? hk (Trivia.text rest ++ s)
      rw [hc]
      rintro ⟨⟩
      split at hclass
      · exact absurd hclass (by decide)
      · exact absurd hclass (by decide +kernel)
    · cases h.1 with
      | directive => simp
      | disabled hne hoff =>
        rw [ha] at hoff
        cases hoff
      | blank | newline | disabledNewline => simp at hk
      | line => exact absurd ⟨lineCommentKind_ne rfl, lineCommentKind_ne rfl⟩ hk
      | block => exact absurd ⟨blockCommentKind_ne rfl, blockCommentKind_ne rfl⟩ hk

/-- A token without a fault does not begin with the mark. -/
theorem head?_readToken_ne_mark {t s : Text} {token : ReadToken} (h : readToken t = some token)
    (hfault : token.fault = none) : (token.text ++ s).head? ≠ some '\uFEFF' := by
  obtain ⟨rfl, hne⟩ := sound_readToken h
  obtain ⟨c, more, hc⟩ := List.exists_cons_of_ne_nil hne
  rw [hc] at h ⊢
  rintro ⟨⟩
  rw [fault_readToken_of_startsNoToken (by decide +kernel) h] at hfault
  cases hfault

/-- **The stripped text of an accepted text does not begin with U+FEFF.** -/
theorem head?_strip_ne_mark {t : Text} {file : SourceFile} (h : SourceFile.parse t = .ok file)
    (settings : Settings) : (file.strip settings).text.head? ≠ some '\uFEFF' := by
  obtain ⟨rfl, hclean, _⟩ := parse_eq_ok_iff.mp h
  show (textOf (strippedFrom settings.stripDocs settings.keepHeader .initial t)).head? ≠ _
  have hactive : LexState.initial.compilation.isActive = true := rfl
  rw [lex] at hclean
  cases htoken : readToken (readTrivia true .initial t).rest with
  | none =>
    have hend := readToken_eq_none_iff.mp htoken
    rw [lexFrom_of_end hend] at hclean
    have hlast := hclean _ (List.mem_singleton.mpr rfl)
    have hread := readable_readTrivia (Or.inl hactive) hlast.leading
      (isActive_of_not_inGroup (inGroup_of_clean hlast))
    rw [strippedFrom_of_end hend, textOf_eq_fromToken]
    exact (readable_strippedLeading hread).head?_ne_mark hactive (by simp [fromToken])
  | some token =>
    rw [lexFrom_of_token htoken] at hclean
    have hfirst := hclean _ List.mem_cons_self
    have hread := readable_readTrivia (Or.inl hactive) hfirst.leading
      (isActive_leading hactive htoken)
    rw [strippedFrom_of_token htoken rfl, textOf_eq_fromToken]
    exact (readable_strippedLeading hread).head?_ne_mark hactive
      (head?_readToken_ne_mark htoken hfirst.fault)

theorem stripText_eq_ok_iff {settings : Settings} {t stripped : Text} :
    stripText settings t = .ok stripped ↔
      ∃ file, SourceFile.parse t = .ok file ∧ (file.strip settings).text = stripped := by
  unfold stripText
  cases SourceFile.parse t <;> simp

/-- **A stripped text is read back in the encoding it is written in.** -/
theorem ofBytes_stripped {settings : Settings} {t stripped : Text}
    (h : stripText settings t = .ok stripped) (encoding : Encoding) :
    DecodedText.ofBytes (encoding.encode stripped) = .ok ⟨stripped, encoding⟩ := by
  obtain ⟨file, hparse, rfl⟩ := stripText_eq_ok_iff.mp h
  have hmark := head?_strip_ne_mark hparse settings
  rw [DecodedText.ofBytes_encode, if_neg]
  rintro ⟨_, hbegins⟩
  exact hmark (beq_iff_eq.mp hbegins)

theorem Outcome.of_eq_identical_iff {before after t : Text} :
    Outcome.of before after = .identical t ↔ after = t ∧ before = t := by
  unfold Outcome.of
  split
  · next h =>
    rw [Outcome.identical.injEq, h]
    simp
  · next h =>
    simp only [reduceCtorEq, false_iff, not_and]
    rintro rfl rfl
    exact h rfl

theorem Outcome.of_eq_changed_iff {before after t stripped : Text} :
    Outcome.of before after = .changed t stripped ↔
      before = t ∧ after = stripped ∧ after ≠ before := by
  unfold Outcome.of
  split
  · next h => simp [h]
  · next h => simp [h]

/-! ## What stripping a file does -/

namespace FileTree

/-- A path leads to a file that can be read and stripped: where it is, the text it stores, and the
stripped text. -/
structure Strippable (tree : FileTree) (settings : Settings) (path : Text) (location : Location)
    (file : StoredFile) (d : DecodedText) (stripped : Text) : Prop where
  located : tree.locate path = .ok (location, file)
  readable : file.readable = true
  decoded : DecodedText.ofBytes file.content = .ok d
  accepted : stripText settings d.text = .ok stripped

variable {tree : FileTree} {settings : Settings} {path : Text} {location : Location}
  {file : StoredFile} {d : DecodedText} {stripped : Text}

/-- The outcome, and the encoding it is written in. -/
def outcomeOf (d : DecodedText) (stripped : Text) : EncodedOutcome :=
  { outcome := .of d.text stripped, encoding := d.encoding }

theorem stripped_eq_ok_iff {result : EncodedOutcome} :
    tree.stripped settings path = .ok result ↔
      ∃ location file d stripped, tree.Strippable settings path location file d stripped ∧
        result = outcomeOf d stripped := by
  constructor
  · intro h
    simp only [FileTree.stripped] at h
    split at h
    · cases h
    · next content hread =>
      obtain ⟨location, file, hlocate, hreadable, rfl⟩ := read_eq_ok_iff.mp hread
      simp only [stripBytes] at h
      split at h
      · cases h
      · next d hdecode =>
        simp only [stripNamed] at h
        cases hstrip : stripText settings d.text with
        | error diagnostics =>
          rw [hstrip] at h
          cases h
        | ok stripped =>
          rw [hstrip] at h
          cases h
          exact ⟨location, file, d, stripped, ⟨hlocate, hreadable, hdecode, hstrip⟩, rfl⟩
  · rintro ⟨location, file, d, stripped, h, rfl⟩
    have hread : tree.read path = .ok file.content :=
      read_eq_ok_iff.mpr ⟨location, file, h.located, h.readable, rfl⟩
    simp only [FileTree.stripped, hread, stripBytes, h.decoded, stripNamed, h.accepted]
    rfl

/-- What stripping does to a file that can be stripped, by what has to be written back. -/
theorem Strippable.strip_eq (h : tree.Strippable settings path location file d stripped) (mode : WriteBack) :
    tree.strip mode settings path =
      match (outcomeOf d stripped).writeBack? mode with
      | none => (tree, .ok (.of d.text stripped))
      | some content =>
        if file.writable then (tree.put location content, .ok (.of d.text stripped))
        else (tree, .error (.unwritable (String.ofList path) .denied)) := by
  rw [strip, stripped_eq_ok_iff.mpr ⟨location, file, d, stripped, h, rfl⟩]
  simp only [store]
  cases (outcomeOf d stripped).writeBack? mode with
  | none => rfl
  | some content =>
    simp only [write, h.located]
    cases file.writable <;> rfl

/-- A failure leaves everything as it is. -/
theorem eq_of_strip_error {mode : WriteBack} {after : FileTree} {cause : StripError}
    (h : tree.strip mode settings path = (after, .error cause)) : after = tree := by
  unfold strip at h
  split at h
  · exact (congrArg Prod.fst h).symm
  · unfold store at h
    split at h
    · exact (congrArg Prod.fst h).symm
    · split at h
      · exact (congrArg Prod.fst h).symm
      · cases h

/-- What is written back, if anything is, is the stripped text in the encoding of the input. -/
theorem writeBack?_eq {mode : WriteBack} {result : EncodedOutcome} {content : Bytes}
    (h : result.writeBack? mode = some content) : content = result.toBytes ∧ mode ≠ .never := by
  cases mode with
  | never => cases h
  | always => exact ⟨(Option.some.inj h).symm, by simp⟩
  | whenChanged =>
    simp only [EncodedOutcome.writeBack?] at h
    split at h
    · cases h
    · exact ⟨(Option.some.inj h).symm, by simp⟩

/-- A success: the file could be stripped, and it was left alone or written. -/
theorem strip_eq_ok {mode : WriteBack} {after : FileTree} {outcome : Outcome}
    (h : tree.strip mode settings path = (after, .ok outcome)) :
    ∃ location file d stripped, tree.Strippable settings path location file d stripped ∧
      outcome = .of d.text stripped ∧
      (((outcomeOf d stripped).writeBack? mode = none ∧ after = tree) ∨
        (mode ≠ .never ∧ after = tree.put location (d.encoding.encode stripped))) := by
  cases hresult : tree.stripped settings path with
  | error cause =>
    rw [strip, hresult] at h
    cases h
  | ok result =>
    obtain ⟨location, file, d, stripped, hfile, rfl⟩ := stripped_eq_ok_iff.mp hresult
    refine ⟨location, file, d, stripped, hfile, ?_⟩
    rw [hfile.strip_eq] at h
    cases hwrite : (outcomeOf d stripped).writeBack? mode with
    | none =>
      rw [hwrite] at h
      cases h
      exact ⟨rfl, Or.inl ⟨rfl, rfl⟩⟩
    | some content =>
      obtain ⟨rfl, hmode⟩ := writeBack?_eq hwrite
      rw [hwrite] at h
      simp only at h
      split at h
      · cases h
        refine ⟨rfl, Or.inr ⟨hmode, ?_⟩⟩
        simp [EncodedOutcome.toBytes, outcomeOf]
      · cases h

/-- Where nothing may be written, the outcome is the same and everything stays as it is. -/
theorem Strippable.strip_never (h : tree.Strippable settings path location file d stripped) :
    tree.strip .never settings path = (tree, .ok (.of d.text stripped)) :=
  h.strip_eq .never

/-- A changed text is written back unless nothing may be. -/
theorem writeBack?_of_changed {mode : WriteBack} (hmode : mode ≠ .never) {before after : Text}
    (encoding : Encoding) :
    EncodedOutcome.writeBack? ⟨.changed before after, encoding⟩ mode =
      some (encoding.encode after) := by
  cases mode with
  | never => exact absurd rfl hmode
  | whenChanged | always => rfl

/-- After an outcome without a change every file is as it was. -/
theorem Strippable.file?_put (h : tree.Strippable settings path location file d d.text)
    (place : Location) :
    (tree.put location (d.encoding.encode d.text)).file? place = tree.file? place := by
  have hcontent : d.encoding.encode d.text = file.content :=
    (DecodedText.ofBytes_eq_ok_iff.mp h.decoded).1.symm
  rw [hcontent]
  exact file?_put_content (locate_eq_ok_iff.mp h.located).2 place

end FileTree

/-- **Writing back never corrupts a file.** Whatever is written back and whenever, for all files, paths
and settings:

* after a failure everything is as it was;
* if the text had nothing to remove, every file has the bytes it had, also where they were written again;
* if the text was changed, the file holds the stripped text in the encoding that was detected in the
  bytes before, no other file changed, and reading the new content gives back the stripped text and that
  encoding; where nothing may be written, everything is as it was and the outcome is the same;
* a file that can be read, is decoded and accepted, and can be written where it has to be, is stripped. -/
theorem writing_back_never_corrupts (tree : FileTree) (mode : WriteBack) (settings : Settings)
    (path : Text) :
    (∀ after cause, tree.strip mode settings path = (after, .error cause) → after = tree) ∧
    (∀ after t, tree.strip mode settings path = (after, .ok (.identical t)) →
      ∃ content encoding, tree.read path = .ok content ∧
        DecodedText.ofBytes content = .ok ⟨t, encoding⟩ ∧ stripText settings t = .ok t ∧
        encoding.encode t = content ∧ after.read path = .ok content ∧
        (∀ place, after.file? place = tree.file? place) ∧
        tree.strip .never settings path = (tree, .ok (.identical t))) ∧
    (∀ after t stripped, tree.strip mode settings path = (after, .ok (.changed t stripped)) →
      ∃ location file encoding, tree.locate path = .ok (location, file) ∧
        DecodedText.ofBytes file.content = .ok ⟨t, encoding⟩ ∧
        stripText settings t = .ok stripped ∧
        (mode = .never → after = tree) ∧
        (mode ≠ .never → after.read path = .ok (encoding.encode stripped) ∧
          ∀ place, after.file? place =
            if place = location then some { file with content := encoding.encode stripped }
            else tree.file? place) ∧
        DecodedText.ofBytes (encoding.encode stripped) = .ok ⟨stripped, encoding⟩ ∧
        tree.strip .never settings path = (tree, .ok (.changed t stripped))) ∧
    (∀ location file d stripped, tree.locate path = .ok (location, file) →
      file.readable = true → DecodedText.ofBytes file.content = .ok d →
      stripText settings d.text = .ok stripped → (mode ≠ .never → file.writable = true) →
      ∃ after, tree.strip mode settings path = (after, .ok (.of d.text stripped))) := by
  refine ⟨fun after cause => FileTree.eq_of_strip_error, ?_, ?_, ?_⟩
  · intro after t h
    obtain ⟨location, file, d, stripped, hfile, houtcome, hafter⟩ := FileTree.strip_eq_ok h
    obtain ⟨rfl, rfl⟩ := Outcome.of_eq_identical_iff.mp houtcome.symm
    obtain ⟨t, encoding⟩ := d
    have hcontent : encoding.encode t = file.content :=
      (DecodedText.ofBytes_eq_ok_iff.mp hfile.decoded).1.symm
    have hread : tree.read path = .ok file.content :=
      FileTree.read_eq_ok_iff.mpr ⟨location, file, hfile.located, hfile.readable, rfl⟩
    refine ⟨file.content, encoding, hread, hfile.decoded, hfile.accepted, hcontent, ?_, ?_, ?_⟩
    · rcases hafter with ⟨_, rfl⟩ | ⟨_, rfl⟩
      · exact hread
      · rw [← hcontent]
        exact FileTree.read_put hfile.located hfile.readable _
    · intro place
      rcases hafter with ⟨_, rfl⟩ | ⟨_, rfl⟩
      · rfl
      · exact hfile.file?_put place
    · rw [hfile.strip_never, houtcome]
  · intro after t stripped h
    obtain ⟨location, file, d, _, hfile, houtcome, hafter⟩ := FileTree.strip_eq_ok h
    obtain ⟨rfl, rfl, hne⟩ := Outcome.of_eq_changed_iff.mp houtcome.symm
    refine ⟨location, file, d.encoding, hfile.located, hfile.decoded, hfile.accepted, ?_, ?_,
      ofBytes_stripped hfile.accepted d.encoding, by rw [hfile.strip_never, houtcome]⟩
    · rintro rfl
      exact hafter.elim And.right fun hmode => absurd rfl hmode.1
    · intro hmode
      rcases hafter with ⟨hnone, _⟩ | ⟨_, rfl⟩
      · rw [FileTree.outcomeOf, ← houtcome, FileTree.writeBack?_of_changed hmode] at hnone
        cases hnone
      · refine ⟨FileTree.read_put hfile.located hfile.readable _, fun place => ?_⟩
        exact FileTree.file?_put (FileTree.locate_eq_ok_iff.mp hfile.located).2 _ place
  · intro location file d stripped hlocate hreadable hdecode hstrip hwritable
    have hfile : tree.Strippable settings path location file d stripped :=
      ⟨hlocate, hreadable, hdecode, hstrip⟩
    rw [hfile.strip_eq]
    cases hwrite : (FileTree.outcomeOf d stripped).writeBack? mode with
    | none => exact ⟨tree, rfl⟩
    | some content =>
      rw [hwritable (FileTree.writeBack?_eq hwrite).2]
      exact ⟨_, rfl⟩

/-- A file in UTF-16 is changed in place and stays in UTF-16. -/
theorem writing_back_never_corrupts_of_utf16 :
    ∃ after encoding,
      FileTree.strip (.ofList [] [(['a'], Encoding.utf16le.encode "x; // é\n".toList)])
        .whenChanged {} ['a'] = (after, .ok (.changed "x; // é\n".toList "x;\n".toList)) ∧
      after.read ['a'] = .ok (encoding.encode "x;\n".toList) ∧
      DecodedText.ofBytes (encoding.encode "x;\n".toList) = .ok ⟨"x;\n".toList, encoding⟩ := by
  generalize htree : FileTree.ofList [] [(['a'], Encoding.utf16le.encode "x; // é\n".toList)] = tree
  have houtcome : (tree.strip .whenChanged {} ['a']).2 =
      .ok (.changed "x; // é\n".toList "x;\n".toList) := by
    rw [← htree]
    decide +kernel
  generalize hafter : tree.strip .whenChanged {} ['a'] = result at houtcome
  obtain ⟨after, outcome⟩ := result
  obtain rfl : outcome = _ := houtcome
  obtain ⟨_, _, encoding, _, _, _, _, hwritten, hread, _⟩ :=
    (writing_back_never_corrupts tree .whenChanged {} ['a']).2.2.1 _ _ _ hafter
  exact ⟨after, encoding, rfl, (hwritten (by decide)).1, hread⟩

end Uncomment
