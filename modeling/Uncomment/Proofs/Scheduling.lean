import Uncomment.Proofs.Interleaving

/-!
# A run does not depend on its schedule

A run does its jobs one after the other, and the files of each job side by side; which files these are is
settled when the job begins. A **schedule** says for each job in which order its files are given to workers
and how their steps are interleaved; stripping the files of each job one after the other, in any order, is a
special case. All schedules of a run end with the same files and the same success (`Schedule.eq`), those of
the run itself.

Before the first file everything is decided: if the settings or a job cannot be found, nothing is stripped.
-/

namespace Uncomment

variable {options : Options} {settings : Settings} {tree : FileTree} {jobs : List Job}

/-! ## Preparing a run -/

/-- The settings cannot be loaded, or a path does not stand for anything. -/
def PreparationFails (options : Options) (tree : FileTree) : Prop :=
  (∃ cause, options.settings tree = .error cause) ∨
    ∃ target ∈ options.targets, ∃ cause, Job.ofPath tree target = .error cause

theorem preparationFails_iff (options : Options) (tree : FileTree) :
    PreparationFails options tree ↔ ∃ cause, prepare options tree = .error cause := by
  unfold PreparationFails prepare
  rw [← mapM_eq_error_iff]
  cases options.settings tree with
  | error cause => exact iff_of_true (Or.inl ⟨cause, rfl⟩) ⟨cause, rfl⟩
  | ok settings =>
    cases options.targets.mapM (Job.ofPath tree) with
    | error cause => exact iff_of_true (Or.inr ⟨cause, rfl⟩) ⟨cause, rfl⟩
    | ok jobs =>
      refine iff_of_false ?_ ?_
      · rintro (⟨_, h⟩ | ⟨_, h⟩) <;> cases h
      · rintro ⟨_, h⟩
        cases h

theorem prepare_eq_ok_iff :
    prepare options tree = .ok (settings, jobs) ↔
      options.settings tree = .ok settings ∧ options.targets.mapM (Job.ofPath tree) = .ok jobs := by
  unfold prepare
  constructor
  · intro h
    obtain ⟨found, hfound, h⟩ := bind_eq_ok_iff.mp h
    obtain ⟨all, hall, h⟩ := bind_eq_ok_iff.mp h
    cases h
    exact ⟨hfound, hall⟩
  · rintro ⟨hsettings, hjobs⟩
    rw [hsettings, hjobs]
    rfl

theorem run_of_prepare_error {cause : RunError} (h : prepare options tree = .error cause)
    (input : Bytes) : (run options tree input).tree = tree ∧ (run options tree input).success = false := by
  unfold run
  rw [h]
  exact ⟨rfl, rfl⟩

theorem run_of_prepare_ok (h : prepare options tree = .ok (settings, jobs)) (input : Bytes) :
    (run options tree input).tree = (runJobs options settings tree input jobs).1 ∧
      (run options tree input).success =
        succeeds (options.has .check) (runJobs options settings tree input jobs).2 := by
  unfold run
  rw [h]
  exact ⟨rfl, rfl⟩

/-! ## Jobs whose files are apart -/

/-- Different paths lead to different places. -/
def FileTree.Unaliased (tree : FileTree) (paths : List Text) : Prop :=
  ∀ a ∈ paths, ∀ b ∈ paths, ∀ place, tree.resolve a = .ok place → tree.resolve b = .ok place → a = b

/-- The files of every job are different ones. Those of a search always are. -/
structure FileTree.Separates (tree : FileTree) (jobs : List Job) : Prop where
  proper : tree.Proper
  files : ∀ paths, Job.files paths ∈ jobs → paths.Pairwise tree.LeadApart

theorem FileTree.SameShape.proper {a b : FileTree} (hshape : a.SameShape b) (h : a.Proper) :
    b.Proper where
  names := by
    intro entry hentry
    have hplace : entry.1 ∈ a.files.map Prod.fst := hshape.places ▸ List.mem_map_of_mem hentry
    obtain ⟨other, hother, heq⟩ := List.mem_map.mp hplace
    exact heq ▸ h.names other hother
  nodup := hshape.places ▸ h.nodup

theorem FileTree.SameShape.separates {a b : FileTree} (hshape : a.SameShape b) {job : Job}
    (h : a.Separates (job :: jobs)) : b.Separates jobs where
  proper := hshape.proper h.proper
  files := by
    intro paths hpaths
    refine (h.files paths (List.mem_cons_of_mem _ hpaths)).imp fun hab place => ?_
    rw [← hshape.resolve, ← hshape.resolve]
    exact hab place

theorem FileTree.Separates.pairwise {job : Job} (h : tree.Separates (job :: jobs)) (options : Options) :
    (job.paths options tree).Pairwise tree.LeadApart := by
  cases job with
  | input => exact List.Pairwise.nil
  | folder path => exact h.proper.pairwise_search path _
  | files paths => exact h.files paths List.mem_cons_self

/-- What a path stands for if it is not the input. -/
theorem Job.ofPath_eq_ok {path : Text} {job : Job} (hpath : path ≠ ['-'])
    (h : Job.ofPath tree path = .ok job) :
    job = .folder path ∨ ∃ paths, job = .files paths ∧ tree.selectSources path = .ok paths := by
  unfold Job.ofPath at h
  rw [if_neg hpath] at h
  split at h
  · cases h
    exact Or.inl rfl
  · split at h
    · next paths hpaths =>
      cases h
      exact Or.inr ⟨paths, rfl, hpaths⟩
    · cases h

theorem ne_input_of_mem_targets (h : ['-'] ∉ options.paths) {target : Text}
    (htarget : target ∈ options.targets) : target ≠ ['-'] := by
  rintro rfl
  unfold Options.targets at htarget
  split at htarget
  · simp at htarget
  · exact h htarget

theorem input_notMem_of_mapM (hinput : ['-'] ∉ options.paths)
    (h : options.targets.mapM (Job.ofPath tree) = .ok jobs) : Job.input ∉ jobs := by
  intro hmem
  obtain ⟨target, htarget, hjob⟩ := (mem_iff_of_mapM h).mp hmem
  rcases Job.ofPath_eq_ok (ne_input_of_mem_targets hinput htarget) hjob with hjob | ⟨_, hjob, _⟩
  · cases hjob
  · cases hjob

/-- Where different paths lead to different places, the jobs of a run are separated. -/
theorem separates_of_mapM (hinput : ['-'] ∉ options.paths) (hproper : tree.Proper)
    (halias : ∀ target ∈ options.targets, ∀ paths, tree.selectSources target = .ok paths →
      tree.Unaliased paths)
    (h : options.targets.mapM (Job.ofPath tree) = .ok jobs) : tree.Separates jobs where
  proper := hproper
  files := by
    intro paths hpaths
    obtain ⟨target, htarget, hjob⟩ := (mem_iff_of_mapM h).mp hpaths
    rcases Job.ofPath_eq_ok (ne_input_of_mem_targets hinput htarget) hjob with hjob | ⟨_, hjob, hselect⟩
    · cases hjob
    · cases hjob
      refine (hproper.nodup_selectSources hselect).imp_of_mem fun ha hb hne place hplace hother => ?_
      exact hne (halias target htarget _ hselect _ ha _ hb place hplace hother)

/-! ## Schedules -/

/-- Jobs can take the files and flags to others: each job is done before the next begins, and its files
are given to workers in any order. -/
inductive Schedule (options : Options) (settings : Settings) :
    FileTree × RunFlags → List Job → FileTree × RunFlags → Prop
  | finished (state : FileTree × RunFlags) : Schedule options settings state [] state
  | job {state middle final : FileTree × RunFlags} {job : Job} {rest : List Job} {order : List Text}
      (horder : (job.paths options state.1).Perm order)
      (hjob : JobRun options settings state order middle)
      (hrest : Schedule options settings middle rest final) :
      Schedule options settings state (job :: rest) final

/-- The same with one worker: the files of each job are stripped one after the other, in any order. -/
inductive SequentialRun (options : Options) (settings : Settings) :
    FileTree × RunFlags → List Job → FileTree × RunFlags → Prop
  | finished (state : FileTree × RunFlags) : SequentialRun options settings state [] state
  | job {state final : FileTree × RunFlags} {job : Job} {rest : List Job} {order : List Text}
      (horder : (job.paths options state.1).Perm order)
      (hrest : SequentialRun options settings (afterFiles options settings state order) rest final) :
      SequentialRun options settings state (job :: rest) final

theorem SequentialRun.schedule {state final : FileTree × RunFlags}
    (h : SequentialRun options settings state jobs final) : Schedule options settings state jobs final := by
  induction h with
  | finished state => exact .finished state
  | job horder _ ih => exact .job horder (jobRun_afterFiles ..) ih

/-- **All schedules end with the same files and flags.** -/
theorem Schedule.eq {state a b : FileTree × RunFlags} (hjobs : state.1.Separates jobs)
    (ha : Schedule options settings state jobs a) (hb : Schedule options settings state jobs b) : a = b := by
  induction ha generalizing b with
  | finished state =>
    cases hb
    rfl
  | job horder hjob _ ih =>
    cases hb with
    | job horder' hjob' hrest' =>
      have hapart := (horder.pairwise_iff fun hab => hab.symm).mp (hjobs.pairwise options)
      obtain rfl := hjob.eq_of_perm hjobs.proper.nodup hapart (horder.symm.trans horder') hjob'
      exact ih ((hjob.sameShape hapart).separates hjobs) hrest'

/-! ## The run itself -/

theorem input_notMem_cons {job : Job} {rest : List Job} (h : Job.input ∉ job :: rest) :
    job ≠ .input ∧ Job.input ∉ rest := by
  rw [List.mem_cons, not_or] at h
  exact ⟨Ne.symm h.1, h.2⟩

theorem runJobs_cons {job : Job} (hjob : job ≠ .input) (tree : FileTree) (input : Bytes)
    (rest : List Job) :
    runJobs options settings tree input (job :: rest) =
      let first := runFiles options settings tree (job.paths options tree)
      ((runJobs options settings first.1 input rest).1,
        first.2 ++ (runJobs options settings first.1 input rest).2) := by
  cases job with
  | input => exact absurd rfl hjob
  | folder path => rfl
  | files paths => rfl

/-- A run strips the files of each job one after the other. -/
theorem sequentialRun_runJobs (options : Options) (settings : Settings) (hinput : Job.input ∉ jobs)
    (state : FileTree × RunFlags) (input : Bytes) :
    SequentialRun options settings state jobs
      ((runJobs options settings state.1 input jobs).1,
        state.2.recordAll ((runJobs options settings state.1 input jobs).2.map Effect.status)) := by
  induction jobs generalizing state with
  | nil => exact .finished state
  | cons job rest ih =>
    obtain ⟨hjob, hnone⟩ := input_notMem_cons hinput
    have hrest := ih hnone (afterFiles options settings state (job.paths options state.1))
    refine .job (List.Perm.refl _) ?_
    rw [runJobs_cons hjob]
    simp only [List.map_append, RunFlags.recordAll_append]
    exact hrest

/-- The files at the start of each job, and the paths of the job. -/
def jobStarts (options : Options) (settings : Settings) (tree : FileTree) :
    List Job → List (FileTree × List Text)
  | [] => []
  | job :: rest =>
    let paths := job.paths options tree
    (tree, paths) :: jobStarts options settings (runFiles options settings tree paths).1 rest

/-- In a run every file counts as it would if it were stripped alone at the start of its job. -/
theorem recordAll_runJobs (hinput : Job.input ∉ jobs) (hjobs : tree.Separates jobs) (flags : RunFlags)
    (input : Bytes) :
    flags.recordAll ((runJobs options settings tree input jobs).2.map Effect.status) =
      flags.recordAll ((jobStarts options settings tree jobs).flatMap fun start =>
        start.2.map (statusOf options settings start.1)) := by
  induction jobs generalizing tree flags with
  | nil => rfl
  | cons job rest ih =>
    obtain ⟨hjob, hnone⟩ := input_notMem_cons hinput
    have hrun := jobRun_afterFiles options settings (tree, flags) (job.paths options tree)
    have hapart := hjobs.pairwise options
    have hfirst : flags.recordAll
        ((runFiles options settings tree (job.paths options tree)).2.map Effect.status) =
          flags.recordAll ((job.paths options tree).map (statusOf options settings tree)) :=
      hrun.flags_eq hapart
    have hrest := ih hnone ((hrun.sameShape hapart).separates hjobs)
      (flags.recordAll ((job.paths options tree).map (statusOf options settings tree)))
    rw [runJobs_cons hjob]
    simp only [List.map_append, RunFlags.recordAll_append, jobStarts, List.flatMap_cons]
    rw [hfirst]
    exact hrest

theorem runFiles_of_check (hcheck : options.has .check = true) (tree : FileTree) (paths : List Text) :
    (runFiles options settings tree paths).1 = tree := by
  induction paths with
  | nil => rfl
  | cons path rest ih =>
    have hfile : (runFile options settings tree path).1 = tree := by
      rw [runFile_eq, Options.writeBack, if_pos hcheck]
      exact FileTree.finish_never ..
    show (runFiles options settings (runFile options settings tree path).1 rest).1 = tree
    rw [hfile]
    exact ih

/-- In check mode nothing is written. -/
theorem runJobs_of_check (hcheck : options.has .check = true) (hinput : Job.input ∉ jobs)
    (tree : FileTree) (input : Bytes) : (runJobs options settings tree input jobs).1 = tree := by
  induction jobs with
  | nil => rfl
  | cons job rest ih =>
    obtain ⟨hjob, hnone⟩ := input_notMem_cons hinput
    rw [runJobs_cons hjob]
    show (runJobs options settings (runFiles options settings tree (job.paths options tree)).1 input
      rest).1 = tree
    rw [runFiles_of_check hcheck]
    exact ih hnone

theorem file?_runFiles_of_ne {place : Location} {paths : List Text}
    (h : ∀ path ∈ paths, tree.resolve path ≠ .ok place) :
    (runFiles options settings tree paths).1.file? place = tree.file? place := by
  induction paths generalizing tree with
  | nil => rfl
  | cons path rest ih =>
    have hfile : (runFile options settings tree path).1.file? place = tree.file? place := by
      rw [runFile_eq]
      exact FileTree.file?_finish_of_ne (h path List.mem_cons_self)
    have hrest : ∀ other ∈ rest, (runFile options settings tree path).1.resolve other ≠ .ok place := by
      intro other hother
      rw [(sameShape_runFile tree path).resolve]
      exact h other (List.mem_cons_of_mem _ hother)
    exact (ih hrest).trans hfile

/-- A run changes no file that no job selects. -/
theorem file?_runJobs_of_ne (hinput : Job.input ∉ jobs) {place : Location}
    (h : ∀ start ∈ jobStarts options settings tree jobs, ∀ path ∈ start.2,
      start.1.resolve path ≠ .ok place) (input : Bytes) :
    (runJobs options settings tree input jobs).1.file? place = tree.file? place := by
  induction jobs generalizing tree with
  | nil => rfl
  | cons job rest ih =>
    obtain ⟨hjob, hnone⟩ := input_notMem_cons hinput
    obtain ⟨hfirst, hrest⟩ := List.forall_mem_cons.mp h
    rw [runJobs_cons hjob]
    exact (ih hnone hrest).trans (file?_runFiles_of_ne hfirst)

/-! ## What the status of a file says -/

theorem statusOf_eq_failed_iff {path : Text} :
    statusOf options settings tree path = .failed ↔
      ∃ cause, (tree.strip options.writeBack settings path).2 = .error cause := by
  simp only [statusOf, runFile, fileEffect]
  cases (tree.strip options.writeBack settings path).2 with
  | error cause => simp
  | ok outcome => cases outcome <;> simp

theorem statusOf_eq_changed_iff {path : Text} :
    statusOf options settings tree path = .changed ↔
      ∃ before after, (tree.strip options.writeBack settings path).2 = .ok (.changed before after) := by
  simp only [statusOf, runFile, fileEffect]
  cases (tree.strip options.writeBack settings path).2 with
  | error cause => simp
  | ok outcome => cases outcome <;> simp

theorem success_recordAll_eq_false_iff {check : Bool} {statuses : List Status} :
    (RunFlags.recordAll {} statuses).success check = false ↔
      .failed ∈ statuses ∨ check = true ∧ .changed ∈ statuses := by
  rw [RunFlags.success, RunFlags.anyFailed_recordAll, RunFlags.anyChanged_recordAll,
    Bool.and_eq_false_iff]
  simp

/-- **The effect of a run does not depend on scheduling, and is all or nothing before the first file.** For
every command line that does not ask for the input, and for all files as a file system has them, where
different paths of a manifest lead to different files:

* if the settings or a job cannot be found, every file stays as it is and the run fails;
* otherwise every interleaving of the steps of the workers, and every order in which the files of each job
  are stripped one after the other, ends with the files and the success of the run, and there are such
  interleavings and orders;
* in check mode every file stays as it is;
* a file that no path of a job leads to stays as it is;
* the run fails exactly if stripping some file fails or, in check mode, would change it, each file taken as
  it is at the start of its job. -/
theorem run_is_schedule_independent (options : Options) (tree : FileTree) (input : Bytes)
    (hinput : ['-'] ∉ options.paths) (hproper : tree.Proper)
    (halias : ∀ target ∈ options.targets, ∀ paths, tree.selectSources target = .ok paths →
      tree.Unaliased paths) :
    (PreparationFails options tree →
      (run options tree input).tree = tree ∧ (run options tree input).success = false) ∧
    (¬ PreparationFails options tree → ∃ settings jobs,
      options.settings tree = .ok settings ∧ options.targets.mapM (Job.ofPath tree) = .ok jobs ∧
      (∃ final, Schedule options settings (tree, {}) jobs final) ∧
      (∀ final, Schedule options settings (tree, {}) jobs final →
        final.1 = (run options tree input).tree ∧
          final.2.success (options.has .check) = (run options tree input).success) ∧
      (∃ final, SequentialRun options settings (tree, {}) jobs final) ∧
      (∀ final, SequentialRun options settings (tree, {}) jobs final →
        final.1 = (run options tree input).tree ∧
          final.2.success (options.has .check) = (run options tree input).success) ∧
      (options.has .check = true → (run options tree input).tree = tree) ∧
      (∀ place, (∀ start ∈ jobStarts options settings tree jobs, ∀ path ∈ start.2,
          start.1.resolve path ≠ .ok place) →
        (run options tree input).tree.file? place = tree.file? place) ∧
      ((run options tree input).success = false ↔
        ∃ start ∈ jobStarts options settings tree jobs, ∃ path ∈ start.2,
          (∃ cause, (start.1.strip options.writeBack settings path).2 = .error cause) ∨
          (options.has .check = true ∧ ∃ before after,
            (start.1.strip options.writeBack settings path).2 = .ok (.changed before after)))) := by
  constructor
  · intro hfails
    obtain ⟨cause, hprepare⟩ := (preparationFails_iff options tree).mp hfails
    exact run_of_prepare_error hprepare input
  · intro hprepares
    cases hprepare : prepare options tree with
    | error cause => exact absurd ((preparationFails_iff options tree).mpr ⟨cause, hprepare⟩) hprepares
    | ok prepared =>
      obtain ⟨settings, jobs⟩ := prepared
      obtain ⟨hsettings, hjobs⟩ := prepare_eq_ok_iff.mp hprepare
      obtain ⟨htree, hsuccess⟩ := run_of_prepare_ok hprepare input
      have hnone := input_notMem_of_mapM hinput hjobs
      have hseparates := separates_of_mapM hinput hproper halias hjobs
      have hsequential := sequentialRun_runJobs options settings hnone (tree, {}) input
      have hall : ∀ final, Schedule options settings (tree, {}) jobs final →
          final.1 = (run options tree input).tree ∧
            final.2.success (options.has .check) = (run options tree input).success := by
        intro final hfinal
        rw [hfinal.eq hseparates hsequential.schedule, htree, hsuccess, RunFlags.success_recordAll]
        exact ⟨rfl, rfl⟩
      refine ⟨settings, jobs, hsettings, hjobs, ⟨_, hsequential.schedule⟩, hall, ⟨_, hsequential⟩,
        fun final hfinal => hall final hfinal.schedule, ?_, ?_, ?_⟩
      · intro hcheck
        rw [htree]
        exact runJobs_of_check hcheck hnone tree input
      · intro place hplace
        rw [htree]
        exact file?_runJobs_of_ne hnone hplace input
      · rw [hsuccess, ← RunFlags.success_recordAll, recordAll_runJobs hnone hseparates,
          success_recordAll_eq_false_iff]
        simp only [List.mem_flatMap, List.mem_map, statusOf_eq_failed_iff, statusOf_eq_changed_iff]
        constructor
        · rintro (⟨start, hstart, path, hpath, hfailed⟩ | ⟨hcheck, start, hstart, path, hpath, hchanged⟩)
          · exact ⟨start, hstart, path, hpath, Or.inl hfailed⟩
          · exact ⟨start, hstart, path, hpath, Or.inr ⟨hcheck, hchanged⟩⟩
        · rintro ⟨start, hstart, path, hpath, hfailed | ⟨hcheck, hchanged⟩⟩
          · exact Or.inl ⟨start, hstart, path, hpath, hfailed⟩
          · exact Or.inr ⟨hcheck, start, hstart, path, hpath, hchanged⟩

/-- A project of two files; one of them is not accepted. -/
def projectOfTwo : FileTree :=
  .ofList [] [("p.csproj".toList, Utf8.encode "<P><Compile Include='a.cs;b.cs'/></P>".toList),
    ("a.cs".toList, Utf8.encode "x; // y\n".toList), ("b.cs".toList, Utf8.encode "/*".toList)]

/-- Whatever comes first when the two files are stripped, one is stripped and the run fails. -/
theorem run_is_schedule_independent_of_project :
    projectOfTwo.selectSources "p.csproj".toList = .ok ["a.cs".toList, "b.cs".toList] ∧
    ∀ final, Schedule { paths := ["p.csproj".toList] } {} (projectOfTwo, {})
        [.files ["a.cs".toList, "b.cs".toList]] final →
      final.1.content? ["a.cs".toList] = some (Utf8.encode "x;\n".toList) ∧
        final.2.success false = false := by
  have hselect : projectOfTwo.selectSources "p.csproj".toList = .ok ["a.cs".toList, "b.cs".toList] := by
    have hkind : SourceKind.ofPath? "p.csproj".toList = some .project := by decide +kernel
    have hfiles : projectOfTwo.projectFiles "p.csproj".toList =
        .ok [[.name "a.cs".toList], [.name "b.cs".toList]] := by decide +kernel
    have hsorted : Path.sortedSet [[.name "a.cs".toList], [.name "b.cs".toList]] =
        [[.name "a.cs".toList], [.name "b.cs".toList]] := by
      rw [Path.sortedSet, List.mergeSort_of_pairwise (by decide)]
      decide
    rw [FileTree.selectSources, hkind]
    simp only [FileTree.projectSources, hfiles, Except.map, hsorted]
    decide
  refine ⟨hselect, fun final hfinal => ?_⟩
  generalize hoptions : ({ paths := ["p.csproj".toList] } : Options) = options at hfinal
  have hprepare : prepare options projectOfTwo = .ok ({}, [.files ["a.cs".toList, "b.cs".toList]]) := by
    subst hoptions
    rw [prepare_eq_ok_iff]
    refine ⟨by decide +kernel, ?_⟩
    have hfile : projectOfTwo.isDirectory "p.csproj".toList = false := by decide +kernel
    show [("p.csproj".toList : Text)].mapM (Job.ofPath projectOfTwo) = _
    rw [List.mapM_cons, Job.ofPath, if_neg (by decide), if_neg (by rw [hfile]; decide), hselect]
    rfl
  have halias : ∀ target ∈ options.targets, ∀ paths, projectOfTwo.selectSources target = .ok paths →
      projectOfTwo.Unaliased paths := by
    have ha : projectOfTwo.resolve "a.cs".toList = .ok ["a.cs".toList] := by decide +kernel
    have hb : projectOfTwo.resolve "b.cs".toList = .ok ["b.cs".toList] := by decide +kernel
    subst hoptions
    intro target htarget paths hpaths
    obtain rfl : target = "p.csproj".toList := List.mem_singleton.mp htarget
    rw [hselect] at hpaths
    cases hpaths
    simp only [FileTree.Unaliased, List.forall_mem_cons, ha, hb]
    simp
  obtain ⟨settings, jobs, hsettings, hjobs, _, hall, _⟩ :=
    (run_is_schedule_independent options projectOfTwo [] (by subst hoptions; decide)
      ⟨by decide +kernel, by decide +kernel⟩ halias).2
      (by rw [preparationFails_iff, hprepare]; rintro ⟨_, ⟨⟩⟩)
  obtain ⟨hsettings', hjobs'⟩ := prepare_eq_ok_iff.mp hprepare
  cases hsettings.symm.trans hsettings'
  cases hjobs.symm.trans hjobs'
  obtain ⟨htree, hsuccess⟩ := hall final hfinal
  obtain ⟨hruntree, hrunsuccess⟩ := run_of_prepare_ok hprepare []
  rw [htree, hruntree]
  subst hoptions
  refine ⟨by decide +kernel, ?_⟩
  exact hsuccess.trans (hrunsuccess.trans (by decide +kernel))

end Uncomment
