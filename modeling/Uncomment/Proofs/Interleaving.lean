import Mathlib.Data.List.Perm.Basic
import Mathlib.Logic.Relation
import Uncomment.Command.Run
import Uncomment.Proofs.FileIsolation
import Uncomment.Proofs.SelectedPaths

/-!
# Files that are stripped side by side

The files of a job are given to workers. Each reads its file, writes the result, and notes down what
happened in two flags that all share; between two steps of one worker any number of steps of others may
come.

A worker finds its file as it was before the job, whatever the others did, because no two paths of a job
lead to the same file. So `Progress` describes every state of the workers by the files before the job and
by how far each worker is. A step keeps it (`Progress.step`), hence every run does, and where all are done
nothing is left open: the files and the flags are the same whatever the order of the steps was
(`JobRun.eq_of_perm`).
-/

namespace Uncomment

/-! ## Flags -/

/-- What workers note down together: whether any file changed, and whether any failed. -/
structure RunFlags where
  anyChanged : Bool := false
  anyFailed : Bool := false
  deriving DecidableEq, Repr

namespace RunFlags

/-- Notes down what happened to a file. A flag is never taken back. -/
def record (flags : RunFlags) : Status → RunFlags
  | .unchanged => flags
  | .changed => { flags with anyChanged := true }
  | .failed => { flags with anyFailed := true }

/-- Notes down what happened to files. -/
def recordAll (flags : RunFlags) (statuses : List Status) : RunFlags :=
  statuses.foldl record flags

/-- Whether a run succeeded, by its flags. -/
def success (flags : RunFlags) (check : Bool) : Bool :=
  !flags.anyFailed && !(check && flags.anyChanged)

instance : RightCommutative record :=
  ⟨fun _ a b => by cases a <;> cases b <;> rfl⟩

/-- The order in which things are noted down does not matter. -/
theorem recordAll_perm {a b : List Status} (h : a.Perm b) (flags : RunFlags) :
    flags.recordAll a = flags.recordAll b :=
  h.foldl_eq flags

theorem recordAll_append (flags : RunFlags) (a b : List Status) :
    flags.recordAll (a ++ b) = (flags.recordAll a).recordAll b :=
  List.foldl_append

theorem recordAll_middle (flags : RunFlags) (a b : List Status) (status : Status) :
    flags.recordAll (a ++ status :: b) = (flags.recordAll (a ++ b)).record status := by
  have hperm : (a ++ status :: b).Perm (a ++ b ++ [status]) :=
    List.perm_middle.trans (List.perm_append_singleton status (a ++ b)).symm
  rw [recordAll_perm hperm, recordAll_append]
  rfl

theorem anyChanged_recordAll (flags : RunFlags) (statuses : List Status) :
    (flags.recordAll statuses).anyChanged = (flags.anyChanged || statuses.any (· == .changed)) := by
  induction statuses generalizing flags with
  | nil => simp [recordAll]
  | cons status rest ih =>
    refine (ih (flags.record status)).trans ?_
    cases status with
    | changed => simp [record]
    | unchanged | failed => rfl

theorem anyFailed_recordAll (flags : RunFlags) (statuses : List Status) :
    (flags.recordAll statuses).anyFailed = (flags.anyFailed || statuses.any (· == .failed)) := by
  induction statuses generalizing flags with
  | nil => simp [recordAll]
  | cons status rest ih =>
    refine (ih (flags.record status)).trans ?_
    cases status with
    | failed => simp [record]
    | unchanged | changed => rfl

/-- The flags tell whether a run succeeded. -/
theorem success_recordAll (check : Bool) (effects : List Effect) :
    (recordAll {} (effects.map Effect.status)).success check = succeeds check effects := by
  rw [success, anyFailed_recordAll, anyChanged_recordAll, List.any_map, List.any_map]
  simp only [Bool.false_or]
  rfl

end RunFlags

/-! ## Workers -/

/-- How far the work on a file is. -/
inductive Stage where
  | waiting
  /-- The file was read: what it holds is stripped, or why it is not. -/
  | read (result : Except StripError EncodedOutcome)
  /-- The result was written, as far as it has to be. -/
  | written (status : Status)
  /-- What happened was noted down. -/
  | done

/-- Whether the work on a file is done. -/
def Stage.isDone : Stage → Bool
  | .done => true
  | _ => false

/-- The work on a file. -/
structure Task where
  path : Text
  stage : Stage

/-- The workers of a job: the files, the tasks, and the flags they share. -/
structure Workers where
  tree : FileTree
  tasks : List Task
  flags : RunFlags

/-- One step of one worker. -/
inductive Workers.Step (options : Options) (settings : Settings) : Workers → Workers → Prop
  | read {tree : FileTree} {flags : RunFlags} {before after : List Task} {path : Text} :
    Step options settings ⟨tree, before ++ ⟨path, .waiting⟩ :: after, flags⟩
      ⟨tree, before ++ ⟨path, .read (tree.stripped settings path)⟩ :: after, flags⟩
  | write {tree : FileTree} {flags : RunFlags} {before after : List Task} {path : Text}
      {result : Except StripError EncodedOutcome} :
    Step options settings ⟨tree, before ++ ⟨path, .read result⟩ :: after, flags⟩
      ⟨(tree.finish options.writeBack path result).1,
        before ++ ⟨path, .written
          (fileEffect options path (tree.finish options.writeBack path result).2).status⟩ :: after,
        flags⟩
  | record {tree : FileTree} {flags : RunFlags} {before after : List Task} {path : Text}
      {status : Status} :
    Step options settings ⟨tree, before ++ ⟨path, .written status⟩ :: after, flags⟩
      ⟨tree, before ++ ⟨path, .done⟩ :: after, flags.record status⟩

/-- The workers of a job, all equally far. -/
def Workers.allAt (stage : Stage) (state : FileTree × RunFlags) (paths : List Text) : Workers :=
  ⟨state.1, paths.map (⟨·, stage⟩), state.2⟩

/-- A job can take the files and flags to others: its workers, in any interleaving of their steps, get
there. -/
def JobRun (options : Options) (settings : Settings) (start : FileTree × RunFlags) (paths : List Text)
    (final : FileTree × RunFlags) : Prop :=
  Relation.ReflTransGen (Workers.Step options settings) (.allAt .waiting start paths)
    (.allAt .done final paths)

variable {options : Options} {settings : Settings}

/-! ## What a worker finds and leaves behind -/

theorem runFile_eq (options : Options) (settings : Settings) (tree : FileTree) (path : Text) :
    runFile options settings tree path =
      ((tree.finish options.writeBack path (tree.stripped settings path)).1,
        fileEffect options path
          (tree.finish options.writeBack path (tree.stripped settings path)).2) := by
  rw [runFile, FileTree.strip_eq_finish]

theorem sameShape_runFile (tree : FileTree) (path : Text) :
    (runFile options settings tree path).1.SameShape tree := by
  rw [runFile_eq]
  exact FileTree.sameShape_finish ..

/-- What happens to a file that is stripped. -/
def statusOf (options : Options) (settings : Settings) (tree : FileTree) (path : Text) : Status :=
  (runFile options settings tree path).2.status

/-- A task seen from the files before the job: up to the write its file is as it was then, and after it
as if nothing else had been done. -/
def Task.Holds (options : Options) (settings : Settings) (start now : FileTree) (task : Task) : Prop :=
  match task.stage with
  | .waiting => start.SameAt now task.path
  | .read result => start.SameAt now task.path ∧ result = start.stripped settings task.path
  | .written status =>
    (runFile options settings start task.path).1.SameAt now task.path ∧
      status = statusOf options settings start task.path
  | .done => (runFile options settings start task.path).1.SameAt now task.path

namespace Task

variable {start now : FileTree} {path : Text}

theorem Holds.read (hshape : start.SameShape now)
    (h : Holds options settings start now ⟨path, .waiting⟩) :
    Holds options settings start now ⟨path, .read (now.stripped settings path)⟩ :=
  ⟨h, FileTree.stripped_congr hshape h settings⟩

theorem Holds.write {result : Except StripError EncodedOutcome} (hshape : start.SameShape now)
    (h : Holds options settings start now ⟨path, .read result⟩) :
    Holds options settings start (now.finish options.writeBack path result).1 ⟨path, .written
      (fileEffect options path (now.finish options.writeBack path result).2).status⟩ := by
  obtain ⟨hsame, hresult⟩ := h
  obtain rfl : result = start.stripped settings path := hresult
  obtain ⟨houtcome, hfile⟩ := FileTree.finish_congr hshape hsame
  constructor
  · rw [runFile_eq]
    exact hfile
  · rw [statusOf, runFile_eq, houtcome]

/-- A task does not notice a change elsewhere. -/
theorem Holds.frame {task : Task} {after : FileTree} (h : task.Holds options settings start now)
    (hsame : ∀ place, start.resolve task.path = .ok place → after.file? place = now.file? place) :
    task.Holds options settings start after := by
  have hstart : start.SameAt now task.path → start.SameAt after task.path :=
    fun hat place hplace => (hsame place hplace).trans (hat place hplace)
  have hran : (runFile options settings start task.path).1.SameAt now task.path →
      (runFile options settings start task.path).1.SameAt after task.path := by
    intro hat place hplace
    refine (hsame place ?_).trans (hat place hplace)
    rw [← (sameShape_runFile start task.path).resolve]
    exact hplace
  obtain ⟨path, stage⟩ := task
  cases stage with
  | waiting => exact hstart h
  | read result => exact ⟨hstart h.1, h.2⟩
  | written status => exact ⟨hran h.1, h.2⟩
  | done => exact hran h

end Task

/-! ## The invariant -/

/-- What happened to the files that are done. -/
def recorded (options : Options) (settings : Settings) (start : FileTree) (tasks : List Task) :
    List Status :=
  (tasks.filter (·.stage.isDone)).map (statusOf options settings start ·.path)

/-- Every state of the workers of a job, seen from the files and flags before it. -/
structure Progress (options : Options) (settings : Settings) (start : FileTree × RunFlags)
    (paths : List Text) (workers : Workers) : Prop where
  pathsOfTasks : workers.tasks.map Task.path = paths
  shape : start.1.SameShape workers.tree
  tasks : ∀ task ∈ workers.tasks, task.Holds options settings start.1 workers.tree
  others : ∀ place, (∀ path ∈ paths, start.1.resolve path ≠ .ok place) →
    workers.tree.file? place = start.1.file? place
  flags : workers.flags = start.2.recordAll (recorded options settings start.1 workers.tasks)

variable {start final : FileTree × RunFlags} {paths : List Text}

theorem forall_mem_middle {α : Type} {p : α → Prop} {before after : List α} {x : α} :
    (∀ y ∈ before ++ x :: after, p y) ↔ p x ∧ ∀ y ∈ before ++ after, p y := by
  constructor
  · intro h
    exact ⟨h x (by simp), fun y hy => h y (by grind)⟩
  · rintro ⟨hx, h⟩ y hy
    grind

/-- Nothing was done yet. -/
theorem progress_waiting (start : FileTree × RunFlags) (paths : List Text) :
    Progress options settings start paths (.allAt .waiting start paths) where
  pathsOfTasks := by simp [Workers.allAt, Function.comp_def]
  shape := FileTree.SameShape.refl start.1
  tasks := by
    intro task htask
    obtain ⟨path, _, rfl⟩ := List.mem_map.mp htask
    exact fun place _ => rfl
  others := fun _ _ => rfl
  flags := by
    have hnone : recorded options settings start.1 (paths.map (⟨·, .waiting⟩)) = [] := by
      simp [recorded, Stage.isDone, List.filter_map, Function.comp_def]
    show start.2 = start.2.recordAll (recorded options settings start.1 (paths.map (⟨·, .waiting⟩)))
    rw [hnone]
    rfl

/-- **One step keeps the invariant.** Only a write touches the files, and it touches the file of its own
task alone. -/
theorem Progress.step (hapart : paths.Pairwise start.1.LeadApart) {workers next : Workers}
    (h : Progress options settings start paths workers)
    (hstep : Workers.Step options settings workers next) :
    Progress options settings start paths next := by
  obtain ⟨hpaths, hshape, htasks, hothers, hflags⟩ := h
  cases hstep with
  | read =>
    obtain ⟨htask, hrest⟩ := forall_mem_middle.mp htasks
    refine ⟨by simpa using hpaths, hshape, ?_, hothers, ?_⟩
    · exact forall_mem_middle.mpr ⟨htask.read hshape, hrest⟩
    · simpa [recorded, Stage.isDone] using hflags
  | @write tree flags before after path result =>
    obtain ⟨htask, hrest⟩ := forall_mem_middle.mp htasks
    have hsame : ∀ place, start.1.resolve path ≠ .ok place →
        (tree.finish options.writeBack path result).1.file? place = tree.file? place := by
      intro place hplace
      rw [hshape.resolve] at hplace
      exact FileTree.file?_finish_of_ne hplace
    refine ⟨by simpa using hpaths, hshape.trans (FileTree.sameShape_finish ..).symm, ?_, ?_, ?_⟩
    · refine forall_mem_middle.mpr ⟨htask.write hshape, fun task hmem => ?_⟩
      have hne : start.1.LeadApart task.path path := by
        rw [← hpaths, List.pairwise_map, List.pairwise_middle fun hab => hab.symm] at hapart
        exact (List.rel_of_pairwise_cons hapart hmem).symm
      exact (hrest task hmem).frame fun place hplace => hsame place (hne place hplace)
    · intro place hplace
      rw [hsame place (hplace path (by simp [← hpaths]))]
      exact hothers place hplace
    · simpa [recorded, Stage.isDone] using hflags
  | @record tree flags before after path status =>
    obtain ⟨htask, hrest⟩ := forall_mem_middle.mp htasks
    refine ⟨by simpa using hpaths, hshape, ?_, hothers, ?_⟩
    · exact forall_mem_middle.mpr ⟨htask.1, hrest⟩
    · have hbefore : flags = start.2.recordAll (recorded options settings start.1 before ++
          recorded options settings start.1 after) := by
        simpa [recorded, Stage.isDone] using hflags
      have hafter : recorded options settings start.1 (before ++ ⟨path, .done⟩ :: after) =
          recorded options settings start.1 before ++
            statusOf options settings start.1 path :: recorded options settings start.1 after := by
        simp [recorded, Stage.isDone]
      show flags.record status = _
      rw [hafter, RunFlags.recordAll_middle, ← hbefore, htask.2]

/-- Every run of the workers keeps the invariant. -/
theorem JobRun.progress (hapart : paths.Pairwise start.1.LeadApart)
    (h : JobRun options settings start paths final) :
    Progress options settings start paths (.allAt .done final paths) := by
  unfold JobRun at h
  generalize Workers.allAt .done final paths = workers at h ⊢
  induction h with
  | refl => exact progress_waiting start paths
  | tail _ hstep ih => exact ih.step hapart hstep

/-! ## What a whole job does -/

theorem JobRun.sameShape (hapart : paths.Pairwise start.1.LeadApart)
    (h : JobRun options settings start paths final) : start.1.SameShape final.1 :=
  (h.progress hapart).shape

/-- The flags after a job: every file counts as if it were stripped alone. -/
theorem JobRun.flags_eq (hapart : paths.Pairwise start.1.LeadApart)
    (h : JobRun options settings start paths final) :
    final.2 = start.2.recordAll (paths.map (statusOf options settings start.1)) := by
  have hflags := (h.progress hapart).flags
  have hall : recorded options settings start.1 (paths.map (⟨·, .done⟩)) =
      paths.map (statusOf options settings start.1) := by
    simp [recorded, Stage.isDone, List.filter_map, Function.comp_def]
  rw [← hall]
  exact hflags

/-- The files after a job: the file a path leads to is as if it were stripped alone. -/
theorem JobRun.file?_of_mem (hapart : paths.Pairwise start.1.LeadApart)
    (h : JobRun options settings start paths final) {path : Text} (hpath : path ∈ paths)
    {place : Location} (hplace : start.1.resolve path = .ok place) :
    final.1.file? place = (runFile options settings start.1 path).1.file? place := by
  have htask : Task.Holds options settings start.1 final.1 ⟨path, .done⟩ :=
    (h.progress hapart).tasks _ (List.mem_map.mpr ⟨path, hpath, rfl⟩)
  refine htask place ?_
  rw [(sameShape_runFile start.1 path).resolve]
  exact hplace

/-- **A job does the same in every order.** Whatever the order in which the files of a job are given to
workers, and whatever the order of their steps, the files and flags afterwards are the same. -/
theorem JobRun.eq_of_perm (hnodup : (start.1.files.map Prod.fst).Nodup)
    (hapart : paths.Pairwise start.1.LeadApart) {order : List Text} (hperm : paths.Perm order)
    {other : FileTree × RunFlags} (h : JobRun options settings start paths final)
    (h' : JobRun options settings start order other) : final = other := by
  have hapart' : order.Pairwise start.1.LeadApart :=
    (hperm.pairwise_iff fun hab => hab.symm).mp hapart
  refine Prod.ext ?_ ?_
  · have hshape := (h.sameShape hapart).symm.trans (h'.sameShape hapart')
    refine hshape.eq_of_file? ((h.sameShape hapart).places ▸ hnodup) fun place => ?_
    by_cases hplace : ∃ path ∈ paths, start.1.resolve path = .ok place
    · obtain ⟨path, hpath, hresolve⟩ := hplace
      rw [h.file?_of_mem hapart hpath hresolve,
        h'.file?_of_mem hapart' (hperm.mem_iff.mp hpath) hresolve]
    · have hnone : ∀ path ∈ paths, start.1.resolve path ≠ .ok place :=
        fun path hpath hresolve => hplace ⟨path, hpath, hresolve⟩
      have hfile := (h.progress hapart).others place hnone
      have hother := (h'.progress hapart').others place
        fun path hpath => hnone path (hperm.mem_iff.mpr hpath)
      exact hfile.trans hother.symm
  · rw [h.flags_eq hapart, h'.flags_eq hapart']
    exact RunFlags.recordAll_perm (hperm.map _) _

/-! ## One file after the other -/

/-- The files and flags after files were stripped one after the other. -/
def afterFiles (options : Options) (settings : Settings) (state : FileTree × RunFlags)
    (paths : List Text) : FileTree × RunFlags :=
  ((runFiles options settings state.1 paths).1,
    state.2.recordAll ((runFiles options settings state.1 paths).2.map Effect.status))

theorem afterFiles_cons (state : FileTree × RunFlags) (path : Text) (rest : List Text) :
    afterFiles options settings state (path :: rest) =
      afterFiles options settings ((runFile options settings state.1 path).1,
        state.2.record (statusOf options settings state.1 path)) rest :=
  rfl

/-- Stripping one file after the other is one of the ways to interleave the steps. -/
theorem jobRun_afterFiles (options : Options) (settings : Settings) (state : FileTree × RunFlags)
    (paths : List Text) :
    JobRun options settings state paths (afterFiles options settings state paths) := by
  -- the tasks that are done stand before those that wait
  have hreach : ∀ (paths : List Text) (state : FileTree × RunFlags) (before : List Task),
      Relation.ReflTransGen (Workers.Step options settings)
        ⟨state.1, before ++ paths.map (⟨·, .waiting⟩), state.2⟩
        ⟨(afterFiles options settings state paths).1, before ++ paths.map (⟨·, .done⟩),
          (afterFiles options settings state paths).2⟩ := by
    intro paths
    induction paths with
    | nil => exact fun state before => .refl
    | cons path rest ih =>
      intro state before
      have hrest := ih ((runFile options settings state.1 path).1,
        state.2.record (statusOf options settings state.1 path)) (before ++ [⟨path, .done⟩])
      rw [← afterFiles_cons, List.append_assoc, List.append_assoc] at hrest
      refine .head .read (.head .write (.head .record ?_))
      rw [statusOf, runFile_eq] at hrest
      exact hrest
  exact hreach paths state []

end Uncomment
