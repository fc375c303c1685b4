import Uncomment.Proofs.Scheduling

/-!
# Check mode predicts the run

A run in check mode writes nothing, so it sees every file as it was at first. A run that writes sees what it
wrote itself: a file may be named by several jobs, and then it is stripped again. Still the two agree on
whether anything has to be done, for two reasons.

* As long as nothing is changed, both runs see the same files (`allUnchanged_runJobs`).
* What is changed stays changed: a file that was stripped holds a shorter text, and no file ever comes to
  hold a longer one (`Shrinks`), so stripping it again cannot bring the first content back.
-/

namespace Uncomment

variable {options : Options} {settings : Settings} {tree : FileTree} {jobs : List Job}

/-! ## Runs in which nothing changes -/

/-- A file is accepted and has nothing to remove. -/
def FileTree.HasNothingToRemove (tree : FileTree) (settings : Settings) (path : Text) : Prop :=
  ∃ t encoding, tree.stripped settings path = .ok ⟨.identical t, encoding⟩

theorem writeBack?_identical (options : Options) (t : Text) (encoding : Encoding) :
    EncodedOutcome.writeBack? ⟨.identical t, encoding⟩ options.writeBack = none := by
  unfold Options.writeBack
  split <;> rfl

/-- In check mode or not, a file is reported as unchanged exactly if it has nothing to remove. -/
theorem statusOf_eq_unchanged_iff {path : Text} :
    statusOf options settings tree path = .unchanged ↔ tree.HasNothingToRemove settings path := by
  unfold FileTree.HasNothingToRemove
  rw [statusOf, runFile_eq]
  cases tree.stripped settings path with
  | error cause => simp [FileTree.finish, fileEffect]
  | ok result =>
    obtain ⟨outcome, encoding⟩ := result
    cases outcome with
    | identical t =>
      rw [FileTree.finish, FileTree.store_of_none (writeBack?_identical options t encoding)]
      simp [fileEffect]
    | changed before after =>
      refine iff_of_false ?_ (by simp)
      simp only [FileTree.finish, FileTree.store]
      split
      · simp [fileEffect]
      · split <;> simp [fileEffect]

/-- A file that has nothing to remove is not written. -/
theorem runFile_of_nothingToRemove {path : Text} (h : tree.HasNothingToRemove settings path) :
    (runFile options settings tree path).1 = tree := by
  obtain ⟨t, encoding, hstripped⟩ := h
  rw [runFile_eq, hstripped, FileTree.finish,
    FileTree.store_of_none (writeBack?_identical options t encoding)]

/-- Every effect is that nothing changed. -/
def AllUnchanged (effects : List Effect) : Prop :=
  ∀ effect ∈ effects, effect.status = .unchanged

theorem runFiles_of_nothingToRemove {paths : List Text}
    (h : ∀ path ∈ paths, tree.HasNothingToRemove settings path) :
    (runFiles options settings tree paths).1 = tree := by
  induction paths with
  | nil => rfl
  | cons path rest ih =>
    obtain ⟨hpath, hrest⟩ := List.forall_mem_cons.mp h
    show (runFiles options settings (runFile options settings tree path).1 rest).1 = tree
    rw [runFile_of_nothingToRemove hpath]
    exact ih hrest

theorem allUnchanged_runFiles {paths : List Text} :
    AllUnchanged (runFiles options settings tree paths).2 ↔
      ∀ path ∈ paths, tree.HasNothingToRemove settings path := by
  induction paths with
  | nil => simp [AllUnchanged, runFiles]
  | cons path rest ih =>
    rw [List.forall_mem_cons]
    show AllUnchanged ((runFile options settings tree path).2 ::
      (runFiles options settings (runFile options settings tree path).1 rest).2) ↔ _
    rw [AllUnchanged, List.forall_mem_cons]
    refine (and_congr_left' statusOf_eq_unchanged_iff).trans (and_congr_right fun hpath => ?_)
    rw [runFile_of_nothingToRemove hpath]
    exact ih

/-- **Nothing changes in a run exactly if no file of a job has anything to remove**, as the files are at
first. -/
theorem allUnchanged_runJobs (hinput : Job.input ∉ jobs) (input : Bytes) :
    AllUnchanged (runJobs options settings tree input jobs).2 ↔
      ∀ job ∈ jobs, ∀ path ∈ job.paths options tree, tree.HasNothingToRemove settings path := by
  induction jobs with
  | nil => simp [AllUnchanged, runJobs]
  | cons job rest ih =>
    obtain ⟨hfirst, hnone⟩ := input_notMem_cons hinput
    rw [runJobs_cons hfirst, List.forall_mem_cons]
    simp only [AllUnchanged, List.forall_mem_append]
    refine (and_congr_left' allUnchanged_runFiles).trans (and_congr_right fun hjob => ?_)
    rw [runFiles_of_nothingToRemove hjob]
    exact ih hnone

/-! ## Files only get shorter -/

theorem width_stripText_lt {t stripped : Text} (h : stripText settings t = .ok stripped)
    (hne : stripped ≠ t) : stripped.width < t.width := by
  obtain ⟨file, hparse, rfl⟩ := stripText_eq_ok_iff.mp h
  obtain ⟨rfl, _⟩ := parse_eq_ok_iff.mp hparse
  have hle := width_strip settings t
  have hpos : 0 < ((SourceFile.ofText t).bodyTrivia settings.keepHeader).countP
      (Trivium.isRemovable settings.stripDocs) := by
    by_contra hzero
    refine hne (text_strip_eq_iff.mpr fun x hx => ?_)
    simpa using List.countP_eq_zero.mp (Nat.eq_zero_of_not_pos hzero) x hx
  omega

/-- The width of the text that a content stores; none if it stores no text. -/
def contentWidth (content : Bytes) : Nat :=
  match DecodedText.ofBytes content with
  | .ok d => d.text.width
  | .error _ => 0

/-- The width of the text in a file. -/
def FileTree.textWidth (tree : FileTree) (place : Location) : Nat :=
  ((tree.content? place).map contentWidth).getD 0

/-- Files were stripped with these effects: no file holds a longer text than before, some file holds a
shorter one if an effect is a change, and otherwise all is as it was. -/
structure Shrinks (before after : FileTree) (effects : List Effect) : Prop where
  le : ∀ place, after.textWidth place ≤ before.textWidth place
  lt : (∃ effect ∈ effects, effect.status = .changed) →
    ∃ place, after.textWidth place < before.textWidth place
  eq : (∀ effect ∈ effects, effect.status ≠ .changed) → after = before

namespace Shrinks

/-- Nothing was done, or nothing came of it. -/
theorem stay {effects : List Effect} (h : ∀ effect ∈ effects, effect.status ≠ .changed)
    (tree : FileTree) : Shrinks tree tree effects where
  le := fun _ => Nat.le_refl _
  lt := fun ⟨effect, hmem, hchanged⟩ => absurd hchanged (h effect hmem)
  eq := fun _ => rfl

theorem append {a b c : FileTree} {first second : List Effect} (h : Shrinks a b first)
    (h' : Shrinks b c second) : Shrinks a c (first ++ second) where
  le := fun place => (h'.le place).trans (h.le place)
  lt := by
    rintro ⟨effect, hmem, hchanged⟩
    rcases List.mem_append.mp hmem with hmem | hmem
    · obtain ⟨place, hplace⟩ := h.lt ⟨effect, hmem, hchanged⟩
      exact ⟨place, Nat.lt_of_le_of_lt (h'.le place) hplace⟩
    · obtain ⟨place, hplace⟩ := h'.lt ⟨effect, hmem, hchanged⟩
      exact ⟨place, Nat.lt_of_lt_of_le hplace (h.le place)⟩
  eq := by
    intro hnone
    obtain ⟨hfirst, hsecond⟩ := List.forall_mem_append.mp hnone
    exact (h'.eq hsecond).trans (h.eq hfirst)

/-- A content that was changed is not brought back. -/
theorem forall_ne_changed {before after : FileTree} {effects : List Effect}
    (h : Shrinks before after effects)
    (hsame : ∀ place, after.content? place = before.content? place) :
    ∀ effect ∈ effects, effect.status ≠ .changed := by
  intro effect hmem hchanged
  obtain ⟨place, hplace⟩ := h.lt ⟨effect, hmem, hchanged⟩
  rw [FileTree.textWidth, FileTree.textWidth, hsame place] at hplace
  exact Nat.lt_irrefl _ hplace

end Shrinks

/-- Writing a stripped text makes the file shorter. -/
theorem textWidth_put {path : Text} {location : Location} {file : StoredFile} {d : DecodedText}
    {stripped : Text} (h : tree.Strippable settings path location file d stripped)
    (hne : stripped ≠ d.text) (place : Location) :
    (tree.put location (d.encoding.encode stripped)).textWidth place ≤ tree.textWidth place ∧
      (place = location →
        (tree.put location (d.encoding.encode stripped)).textWidth place < tree.textWidth place) := by
  have hfile := (FileTree.locate_eq_ok_iff.mp h.located).2
  have hlt : contentWidth (d.encoding.encode stripped) < contentWidth file.content := by
    rw [contentWidth, contentWidth, ofBytes_stripped h.accepted, h.decoded]
    exact width_stripText_lt h.accepted hne
  unfold FileTree.textWidth FileTree.content?
  rw [FileTree.file?_put hfile]
  by_cases hplace : place = location
  · subst hplace
    rw [if_pos rfl, hfile]
    exact ⟨Nat.le_of_lt hlt, fun _ => hlt⟩
  · rw [if_neg hplace]
    exact ⟨Nat.le_refl _, fun heq => absurd heq hplace⟩

/-- One file: it is written with a shorter text, or nothing is written. -/
theorem shrinks_runFile (hmode : options.writeBack = .whenChanged) (tree : FileTree) (path : Text) :
    Shrinks tree (runFile options settings tree path).1 [(runFile options settings tree path).2] := by
  have hstay : ∀ effect : Effect, effect.status ≠ .changed → Shrinks tree tree [effect] :=
    fun effect hstatus => .stay (by simpa using hstatus) tree
  cases hstripped : tree.stripped settings path with
  | error cause =>
    rw [runFile_eq, hstripped]
    exact hstay _ (by simp [FileTree.finish, fileEffect])
  | ok result =>
    obtain ⟨location, file, d, stripped, h, rfl⟩ := FileTree.stripped_eq_ok_iff.mp hstripped
    rw [runFile, h.strip_eq, hmode]
    by_cases hsame : stripped = d.text
    · have hnone : (FileTree.outcomeOf d stripped).writeBack? .whenChanged = none := by
        simp [FileTree.outcomeOf, Outcome.of, hsame, EncodedOutcome.writeBack?]
      rw [hnone]
      exact hstay _ (by simp [fileEffect, Outcome.of, hsame])
    · have hwrite : (FileTree.outcomeOf d stripped).writeBack? .whenChanged =
          some (d.encoding.encode stripped) := by
        simp [FileTree.outcomeOf, Outcome.of, hsame, EncodedOutcome.writeBack?, EncodedOutcome.toBytes,
          Outcome.text]
      rw [hwrite]
      simp only
      split
      · have hput := textWidth_put h hsame
        refine ⟨fun place => (hput place).1, fun _ => ⟨location, (hput location).2 rfl⟩, fun hnone => ?_⟩
        exact absurd (by simp [fileEffect, Outcome.of, hsame]) (hnone _ List.mem_cons_self)
      · exact hstay _ (by simp [fileEffect])

theorem shrinks_runFiles (hmode : options.writeBack = .whenChanged) (tree : FileTree)
    (paths : List Text) :
    Shrinks tree (runFiles options settings tree paths).1 (runFiles options settings tree paths).2 := by
  induction paths generalizing tree with
  | nil => exact .stay (by simp [runFiles]) tree
  | cons path rest ih => exact (shrinks_runFile hmode tree path).append (ih _)

/-- **In a run files only get shorter**, and some file does if anything is changed. -/
theorem shrinks_runJobs (hmode : options.writeBack = .whenChanged) (hinput : Job.input ∉ jobs)
    (settings : Settings) (tree : FileTree) (input : Bytes) :
    Shrinks tree (runJobs options settings tree input jobs).1
      (runJobs options settings tree input jobs).2 := by
  induction jobs generalizing tree with
  | nil => exact .stay (by simp [runJobs]) tree
  | cons job rest ih =>
    obtain ⟨hjob, hnone⟩ := input_notMem_cons hinput
    rw [runJobs_cons hjob]
    exact (shrinks_runFiles hmode tree _).append (ih hnone _)

/-! ## The two runs -/

section

variable {checked : Options}

/-- A flag can be added once. -/
theorem addFlag_eq_ok_iff {flag : Flag} :
    options.addFlag flag = .ok checked ↔
      options.has flag = false ∧ checked = { options with flags := flag :: options.flags } := by
  unfold Options.addFlag
  split
  · next hhas => simp [hhas]
  · next hnew =>
    simp only [Bool.not_eq_true] at hnew
    simp [hnew, eq_comm]

theorem has_checked (h : options.addFlag .check = .ok checked) {flag : Flag} (hne : flag ≠ .check) :
    checked.has flag = options.has flag := by
  obtain ⟨_, rfl⟩ := addFlag_eq_ok_iff.mp h
  simp [Options.has, hne]

/-- Check mode finds the same settings and the same jobs. -/
theorem prepare_checked (h : options.addFlag .check = .ok checked) (tree : FileTree) :
    prepare checked tree = prepare options tree := by
  have hheader := has_checked h (show Flag.stripHeader ≠ .check by decide)
  have hdocs := has_checked h (show Flag.keepDocs ≠ .check by decide)
  obtain ⟨_, rfl⟩ := addFlag_eq_ok_iff.mp h
  unfold prepare Options.settings
  rw [hheader, hdocs]
  rfl

/-- Check mode finds the same files of a job. -/
theorem paths_checked (h : options.addFlag .check = .ok checked) (job : Job) (tree : FileTree) :
    job.paths checked tree = job.paths options tree := by
  cases job with
  | input | files => rfl
  | folder path => rw [Job.paths, Job.paths, has_checked h (by decide)]

/-- As long as nothing is changed, check mode sees the files that the run sees. -/
theorem allUnchanged_checked (h : options.addFlag .check = .ok checked) (hinput : Job.input ∉ jobs)
    (settings : Settings) (tree : FileTree) (input : Bytes) :
    AllUnchanged (runJobs checked settings tree input jobs).2 ↔
      AllUnchanged (runJobs options settings tree input jobs).2 := by
  rw [allUnchanged_runJobs hinput, allUnchanged_runJobs hinput]
  simp only [paths_checked h]

end

theorem succeeds_check {effects : List Effect} : succeeds true effects = true ↔ AllUnchanged effects := by
  unfold succeeds AllUnchanged
  simp only [Bool.true_and, Bool.and_eq_true, Bool.not_eq_true', List.any_eq_false, beq_iff_eq]
  constructor
  · rintro ⟨hfailed, hchanged⟩ effect hmem
    cases hstatus : effect.status with
    | unchanged => rfl
    | changed => exact absurd hstatus (hchanged effect hmem)
    | failed => exact absurd hstatus (hfailed effect hmem)
  · intro h
    exact ⟨fun effect hmem => by simp [h effect hmem], fun effect hmem => by simp [h effect hmem]⟩

theorem succeeds_write {effects : List Effect} :
    succeeds false effects = true ↔ ∀ effect ∈ effects, effect.status ≠ .failed := by
  simp [succeeds]

/-- **Check mode predicts the run.** For every command line that does not ask for the input and all files:
with the flag for check mode added, the run succeeds if and only if the run without the flag succeeds and
leaves every file byte by byte as it was. -/
theorem check_predicts_run (options checked : Options) (tree : FileTree) (input : Bytes)
    (hinput : ['-'] ∉ options.paths) (hcheck : options.addFlag .check = .ok checked) :
    (run checked tree input).success = true ↔
      (run options tree input).success = true ∧
        ∀ place, (run options tree input).tree.content? place = tree.content? place := by
  obtain ⟨hwrites, hchecked⟩ := addFlag_eq_ok_iff.mp hcheck
  have hchecks : checked.has .check = true := by
    rw [hchecked]
    simp [Options.has]
  have hmode : options.writeBack = .whenChanged := by
    rw [Options.writeBack, hwrites]
    rfl
  have hprepare := prepare_checked hcheck tree
  cases hprepared : prepare options tree with
  | error cause =>
    rw [(run_of_prepare_error (hprepare.trans hprepared) input).2,
      (run_of_prepare_error hprepared input).2]
    simp
  | ok prepared =>
    obtain ⟨settings, jobs⟩ := prepared
    obtain ⟨_, hjobs⟩ := prepare_eq_ok_iff.mp hprepared
    have hnone := input_notMem_of_mapM hinput hjobs
    have hshrinks := shrinks_runJobs hmode hnone settings tree input
    obtain ⟨htree, hsuccess⟩ := run_of_prepare_ok hprepared input
    rw [(run_of_prepare_ok (hprepare.trans hprepared) input).2, hchecks, succeeds_check,
      allUnchanged_checked hcheck hnone, htree, hsuccess, hwrites, succeeds_write]
    constructor
    · intro hunchanged
      have hsame := hshrinks.eq fun effect hmem => by rw [hunchanged effect hmem]; simp
      refine ⟨fun effect hmem => by rw [hunchanged effect hmem]; simp, fun place => by rw [hsame]⟩
    · rintro ⟨hfailed, hsame⟩ effect hmem
      cases hstatus : effect.status with
      | unchanged => rfl
      | changed => exact absurd hstatus (hshrinks.forall_ne_changed hsame effect hmem)
      | failed => exact absurd hstatus (hfailed effect hmem)

/-- A file that is named twice is stripped twice, and stays changed. -/
theorem check_predicts_run_of_named_twice :
    (run { flags := [.check], paths := ["a.cs".toList, "a.cs".toList] }
        (.ofList [] [("a.cs".toList, Utf8.encode "x; // y\n".toList)]) []).success = false ∧
      (run { paths := ["a.cs".toList, "a.cs".toList] }
        (.ofList [] [("a.cs".toList, Utf8.encode "x; // y\n".toList)]) []).success = true ∧
      ¬ ∀ place, (run { paths := ["a.cs".toList, "a.cs".toList] }
          (.ofList [] [("a.cs".toList, Utf8.encode "x; // y\n".toList)]) []).tree.content? place =
        (FileTree.ofList [] [("a.cs".toList, Utf8.encode "x; // y\n".toList)]).content? place := by
  have hcheck : (run { flags := [.check], paths := ["a.cs".toList, "a.cs".toList] }
      (.ofList [] [("a.cs".toList, Utf8.encode "x; // y\n".toList)]) []).success = false := by
    decide +kernel
  have hwrite : (run { paths := ["a.cs".toList, "a.cs".toList] }
      (.ofList [] [("a.cs".toList, Utf8.encode "x; // y\n".toList)]) []).success = true := by
    decide +kernel
  refine ⟨hcheck, hwrite, fun hsame => ?_⟩
  have hiff := check_predicts_run { paths := ["a.cs".toList, "a.cs".toList] } _
    (.ofList [] [("a.cs".toList, Utf8.encode "x; // y\n".toList)]) [] (by decide) rfl
  exact absurd (hiff.mpr ⟨hwrite, hsame⟩) (by rw [hcheck]; decide)

end Uncomment
