/-
# `Urb.RunnerLaunch` — the LaunchTasks message at the executor runner

`ExecutorHandler.launch_tasks` goes over the tasks of the message.  Each is added to
the task tracker and needs an executor: its own, or one made of its command, with
the task's id.  What happens then:

    the executor is in the tracker      `return`
    it has no command                   `return`
    otherwise                           it is put into the tracker, its URIs are fetched,
                                        the environment is set, and a process is forked

Both returns leave the function, not the iteration.  `os.environ` is changed in place, so
`environ` is part of the state.

**Proved here.**  After a message every task is tracked and every executor that was not
running has got one process exactly if nothing was left to do where the loop ended
(`launchTasks_launchesAll_iff`).  The trackers of `Urb.SlaveMemory` are those of this handler
(`toProcess_launchTasks`).
-/
import Urb.SlaveMemory

namespace Urb

open Block AList

/-! ## Messages -/

structure CommandUri where
  value : Option String
  executable : Bool := false
  extract : Option Bool := none
  deriving Repr, DecidableEq

structure EnvVariable where
  name : Option String
  value : Option String
  deriving Repr, DecidableEq

structure CommandInfo where
  value : Option String := none
  uris : Option (List CommandUri) := none
  environment : Option (Option (List EnvVariable)) := none
  otherKeys : List String := []
  deriving Repr, DecidableEq

structure RunnerTask where
  info : TaskInfo
  command : Option CommandInfo := none
  executorCommand : Option CommandInfo := none
  executorData : Option String := none
  pid : ℕ := 0
  deriving DecidableEq

/-- The executor that a task is to run in. -/
structure RunnerExecutor where
  executorId : String
  command : Option CommandInfo
  data : Option String := none
  deriving Repr, DecidableEq

/-! ## The handler -/

/-- An item for the fetcher. -/
structure FetchItem where
  value : String
  executable : Bool
  extract : Bool
  deriving Repr, DecidableEq

/-- A value of the executor tracker. -/
structure TrackedExecutor where
  executorId : String
  frameworkId : String
  command : CommandInfo
  data : Option String := none
  deriving Repr, DecidableEq

structure Child where
  pid : ℕ
  executorId : String
  command : String
  environ : Dict String String

/-- The configuration, and the ids of the runner. -/
structure HandlerConfig where
  commandExecutorPath : String := "urb-command-executor"
  urbLibPath : String := "liburb.so"
  ldLibraryPath : String := "lib"
  mesosWorkDir : String := "work"
  frameworkId : String
  slaveId : String
  user : String

structure ExecutorHandler where
  tasks : Dict String RunnerTask := ∅
  executors : Dict String TrackedExecutor := ∅
  environ : Dict String String := ∅
  executorPids : List ℕ := []
  children : List Child := []
  fetched : List (List FetchItem) := []
  shutdown : Bool := false

def CommandInfo.isTrue (c : CommandInfo) : Bool := c ≠ {}

def buildCommandExecutor (cfg : HandlerConfig) (taskId : String) (c : CommandInfo) : RunnerExecutor :=
  { executorId := taskId, command := some { c with value := some cfg.commandExecutorPath } }

namespace RunnerTask

def ownCommand (t : RunnerTask) : Option CommandInfo := t.command.filter CommandInfo.isTrue

def executor (cfg : HandlerConfig) (t : RunnerTask) : Option RunnerExecutor :=
  match t.ownCommand with
  | some c => some (buildCommandExecutor cfg t.info.taskId c)
  | none => t.info.executor.map (fun e =>
    { executorId := e.executorId, command := t.executorCommand, data := t.executorData })

def tracked (cfg : HandlerConfig) (t : RunnerTask) : RunnerTask :=
  match t.ownCommand with
  | some c => { t with command := some { c with value := some cfg.commandExecutorPath } }
  | none => t

end RunnerTask

/-! ### The environment -/

def setDefault (key value : String) (env : Dict String String) : Dict String String :=
  if key ∈ env then env else env.put key value

def setLibraryPath (cfg : HandlerConfig) (env : Dict String String) : Dict String String :=
  match env.lookup "LD_LIBRARY_PATH" with
  | some path =>
    env.put "LD_LIBRARY_PATH"
      (if path ≠ cfg.ldLibraryPath then path ++ ":" ++ cfg.ldLibraryPath else cfg.ldLibraryPath)
  | none => env.put "LD_LIBRARY_PATH" cfg.ldLibraryPath

def setSlavePid (env : Dict String String) : Dict String String :=
  match env.lookup "MESOS_AGENT_ENDPOINT" with
  | some endpoint => env.put "MESOS_SLAVE_PID" ("@" ++ endpoint)
  | none => env

def environmentUpdates (cfg : HandlerConfig) (executorId : String) :
    List (Dict String String → Dict String String) :=
  [AList.erase "_", AList.erase "SHLVL", AList.erase "PWD", AList.erase "LS_COLORS",
    AList.put "URB_SLAVE_ID" cfg.slaveId,
    AList.put "URB_FRAMEWORK_ID" cfg.frameworkId,
    AList.put "URB_EXECUTOR_ID" executorId,
    setDefault "MESOS_NATIVE_LIBRARY" cfg.urbLibPath,
    setDefault "MESOS_NATIVE_JAVA_LIBRARY" cfg.urbLibPath,
    AList.put "MESOS_DIRECTORY" cfg.mesosWorkDir,
    AList.put "MESOS_FRAMEWORK_ID" cfg.frameworkId,
    AList.put "MESOS_EXECUTOR_ID" executorId,
    setSlavePid,
    setDefault "MESOS_EXECUTOR_SHUTDOWN_GRACE_PERIOD" "60secs",
    AList.put "MESOS_SLAVE_ID" cfg.slaveId,
    setLibraryPath cfg,
    AList.put "USER" cfg.user,
    setDefault "GLOG_log_dir" cfg.mesosWorkDir]

def executorEnvironment (cfg : HandlerConfig) (executorId : String) (env : Dict String String) :
    Dict String String :=
  (environmentUpdates cfg executorId).foldl (fun env update => update env) env

namespace ExecutorHandler

def setVariable (v : EnvVariable) : Block ExecutorHandler := fun h =>
  match v.name, v.value with
  | some name, some value => ({ h with environ := h.environ.put name value }, .next)
  | _, _ => (h, .raise)

def setVariables (c : CommandInfo) : Block ExecutorHandler := fun h =>
  match c.environment with
  | none => (h, .next)
  | some none => (h, .raise)
  | some (some vars) => forEach setVariable vars h

/-! ### Starting an executor -/

def fetchItem (u : CommandUri) : Option FetchItem :=
  u.value.map (fun value =>
    { value := value, executable := u.executable, extract := u.extract.getD true })

def fetchUris (c : CommandInfo) : Block ExecutorHandler := fun h =>
  match c.uris with
  | none => (h, .next)
  | some uris =>
    match uris.mapM fetchItem with
    | some items => ({ h with fetched := h.fetched ++ [items] }, .next)
    | none => (h, .raise)

def prepareEnvironment (cfg : HandlerConfig) (executorId : String) : Block ExecutorHandler := fun h =>
  ({ h with environ := executorEnvironment cfg executorId h.environ }, .next)

def forkExecutor (pid : ℕ) (executorId command : String) : Block ExecutorHandler := fun h =>
  ({ h with
     executorPids := h.executorPids ++ [pid]
     children := h.children ++
      [{ pid := pid, executorId := executorId, command := command, environ := h.environ }] }, .next)

def startExecutor (cfg : HandlerConfig) (pid : ℕ) (executorId : String) (c : CommandInfo) :
    Block ExecutorHandler :=
  seq (fetchUris c) fun h =>
    match c.value with
    | none => (h, .raise)
    | some command =>
      seq (prepareEnvironment cfg executorId)
        (seq (setVariables c) (forkExecutor pid executorId command)) h

def track (cfg : HandlerConfig) (t : RunnerTask) (h : ExecutorHandler) : ExecutorHandler :=
  { h with tasks := h.tasks.put t.info.taskId (t.tracked cfg) }

def addExecutor (cfg : HandlerConfig) (e : RunnerExecutor) (c : CommandInfo) (h : ExecutorHandler) :
    ExecutorHandler :=
  { h with executors := h.executors.insert e.executorId
             { executorId := e.executorId, frameworkId := cfg.frameworkId, command := c, data := e.data } }

def launchTask (cfg : HandlerConfig) (t : RunnerTask) : Block ExecutorHandler := fun h =>
  let h := h.track cfg t
  match t.executor cfg with
  | none => (h, .raise)
  | some e =>
    if e.executorId ∈ h.executors then (h, .ret)
    else
      match e.command with
      | none => (h, .ret)
      | some c => startExecutor cfg t.pid e.executorId c (h.addExecutor cfg e c)

def launchTasks (cfg : HandlerConfig) (tasks : Option (List RunnerTask)) : Block ExecutorHandler := fun h =>
  match tasks with
  | none => ({ h with shutdown := true }, .raise)
  | some tasks => forEach (launchTask cfg) tasks h

/-! ## What starting an executor does -/

def startedFor (id : String) (h : ExecutorHandler) : ℕ := (h.children.map (·.executorId)).count id

def trackers (h : ExecutorHandler) : Dict String RunnerTask × Dict String TrackedExecutor :=
  (h.tasks, h.executors)

end ExecutorHandler

structure CommandInfo.WellFormed (c : CommandInfo) : Prop where
  uris : ∀ u ∈ c.uris.getD [], u.value ≠ none
  value : c.value ≠ none
  environment : c.environment ≠ some none
  setting : ∀ v ∈ (c.environment.getD none).getD [], v.name ≠ none ∧ v.value ≠ none

namespace ExecutorHandler

section Start

variable (cfg : HandlerConfig) {c : CommandInfo} (pid : ℕ) (id : String) (h : ExecutorHandler)

lemma setVariable_spec (v : EnvVariable) :
    ((setVariable v h).2 = .next ↔ v.name ≠ none ∧ v.value ≠ none) ∧
      (setVariable v h).1.trackers = h.trackers ∧ (setVariable v h).1.children = h.children := by
  obtain ⟨name, value⟩ := v
  cases name <;> cases value <;> simp [setVariable, trackers]

lemma forEach_setVariable_next_iff : ∀ (vs : List EnvVariable) (h : ExecutorHandler),
    (forEach setVariable vs h).2 = .next ↔ ∀ v ∈ vs, v.name ≠ none ∧ v.value ≠ none
  | [], _ => iff_of_true rfl fun _ hv => absurd hv List.not_mem_nil
  | v :: vs, h => by
    rw [forEach_cons, seq_next_iff, (setVariable_spec h v).1, forEach_setVariable_next_iff vs,
      List.forall_mem_cons]

lemma setVariables_spec (c : CommandInfo) : ((setVariables c h).2 = .next ↔ c.environment ≠ some none ∧
        ∀ v ∈ (c.environment.getD none).getD [], v.name ≠ none ∧ v.value ≠ none) ∧
      (setVariables c h).1.trackers = h.trackers ∧ (setVariables c h).1.children = h.children := by
  unfold setVariables
  match hc : c.environment with
  | none => simp
  | some none => simp
  | some (some vs) =>
    refine ⟨?_, ?_⟩
    · rw [forEach_setVariable_next_iff]
      simp
    · refine forEach_inv (I := fun h' : ExecutorHandler => h'.trackers = h.trackers ∧
        h'.children = h.children) (fun v _ h' hh => ?_) ⟨rfl, rfl⟩
      obtain ⟨-, ht, hch⟩ := setVariable_spec h' v
      exact ⟨ht.trans hh.1, hch.trans hh.2⟩

lemma mapM_fetchItem_isSome_iff : ∀ us : List CommandUri,
    (us.mapM fetchItem).isSome ↔ ∀ u ∈ us, u.value ≠ none
  | [] => by simp
  | u :: us => by
    rw [List.mapM_cons, List.forall_mem_cons, ← mapM_fetchItem_isSome_iff us, fetchItem]
    cases u.value with
    | none => simp
    | some value =>
      cases us.mapM fetchItem with
      | none => simp
      | some items => simp

lemma fetchUris_spec (c : CommandInfo) :
    ((fetchUris c h).2 = .next ↔ ∀ u ∈ c.uris.getD [], u.value ≠ none) ∧
      (fetchUris c h).1.trackers = h.trackers ∧ (fetchUris c h).1.children = h.children := by
  unfold fetchUris
  cases c.uris with
  | none => simp
  | some us =>
    dsimp only
    rw [getD_some, ← mapM_fetchItem_isSome_iff]
    cases us.mapM fetchItem with
    | none => simp
    | some items => simp [trackers]

lemma prepareEnvironment_next : (prepareEnvironment cfg id h).2 = .next := by
  simp only [prepareEnvironment]

lemma prepareEnvironment_trackers : (prepareEnvironment cfg id h).1.trackers = h.trackers := by
  simp only [prepareEnvironment, trackers]

lemma prepareEnvironment_children : (prepareEnvironment cfg id h).1.children = h.children := by
  simp only [prepareEnvironment]

lemma startExecutor_trackers (c : CommandInfo) :
    (startExecutor cfg pid id c h).1.trackers = h.trackers := by
  refine seq_inv (I := fun h' : ExecutorHandler => h'.trackers = h.trackers) (fetchUris_spec h c).2.1
    fun hf => ?_
  split
  · exact hf
  · refine seq_inv (I := fun h' : ExecutorHandler => h'.trackers = h.trackers)
      ((prepareEnvironment_trackers _ _ _).trans hf) fun hp => ?_
    refine seq_inv (I := fun h' : ExecutorHandler => h'.trackers = h.trackers) ?_ fun hs => hs
    exact (setVariables_spec _ c).2.1.trans hp

lemma startExecutor_of_wellFormed (hc : c.WellFormed) : (startExecutor cfg pid id c h).2 = .next ∧
      (startExecutor cfg pid id c h).1.children.map (·.executorId) =
        h.children.map (·.executorId) ++ [id] := by
  obtain ⟨hfetch, -, hfc⟩ := fetchUris_spec h c
  obtain ⟨command, hv⟩ := ne_none_iff_exists'.mp hc.value
  obtain ⟨hset, -, hsc⟩ := setVariables_spec (prepareEnvironment cfg id (fetchUris c h).1).1 c
  rw [startExecutor, seq_of_next (hfetch.mpr hc.uris), hv]
  dsimp only
  rw [seq_of_next (prepareEnvironment_next _ _ _), seq_of_next (hset.mpr ⟨hc.environment, hc.setting⟩)]
  refine ⟨rfl, ?_⟩
  simp only [forkExecutor, List.map_append, hsc, List.map_cons, List.map_nil]
  rw [prepareEnvironment_children, hfc]

lemma startExecutor_of_not_wellFormed (hc : ¬ c.WellFormed) :
    (startExecutor cfg pid id c h).2 ≠ .next ∧ (startExecutor cfg pid id c h).1.children = h.children := by
  obtain ⟨hfetch, -, hfc⟩ := fetchUris_spec h c
  rw [startExecutor]
  by_cases hf : (fetchUris c h).2 = .next
  · rw [seq_of_next hf]
    cases hv : c.value with
    | none => exact ⟨Ending.noConfusion, hfc⟩
    | some command =>
      obtain ⟨hset, -, hsc⟩ := setVariables_spec (prepareEnvironment cfg id (fetchUris c h).1).1 c
      have hs : (setVariables c (prepareEnvironment cfg id (fetchUris c h).1).1).2 ≠ .next := by
        intro hs
        exact hc ⟨hfetch.mp hf, by simp [hv], (hset.mp hs).1, (hset.mp hs).2⟩
      dsimp only
      rw [seq_of_next (prepareEnvironment_next _ _ _), seq_of_ne hs]
      exact ⟨hs, hsc.trans ((prepareEnvironment_children _ _ _).trans hfc)⟩
  · rw [seq_of_ne hf]
    exact ⟨hf, hfc⟩

end Start

/-! ## One task -/

section Task

variable {cfg : HandlerConfig} {t : RunnerTask} {e : RunnerExecutor} {c : CommandInfo}
  {h : ExecutorHandler}

lemma launchTask_starts (he : t.executor cfg = some e) (hnew : e.executorId ∉ h.executors)
    (hc : e.command = some c) (hw : c.WellFormed) : (launchTask cfg t h).2 = .next ∧
      (launchTask cfg t h).1.tasks = h.tasks.put t.info.taskId (t.tracked cfg) ∧
      (launchTask cfg t h).1.executors.keys = e.executorId :: h.executors.keys ∧
      (launchTask cfg t h).1.children.map (·.executorId) =
        h.children.map (·.executorId) ++ [e.executorId] := by
  have hrun : launchTask cfg t h =
      startExecutor cfg t.pid e.executorId c ((h.track cfg t).addExecutor cfg e c) := by
    have hnew' : e.executorId ∉ (h.track cfg t).executors := hnew
    simp only [launchTask, he, if_neg hnew', hc]
  obtain ⟨hnext, hchildren⟩ := startExecutor_of_wellFormed cfg t.pid e.executorId
    ((h.track cfg t).addExecutor cfg e c) hw
  have htrackers := startExecutor_trackers cfg t.pid e.executorId ((h.track cfg t).addExecutor cfg e c) c
  rw [hrun]
  refine ⟨hnext, congrArg Prod.fst htrackers, ?_, hchildren⟩
  have hexecutors := congrArg (fun p => keys p.2) htrackers
  refine hexecutors.trans ?_
  show (insert _ _ h.executors).keys = _
  rw [keys_insert, List.erase_of_not_mem fun hk => hnew (mem_keys.mpr hk)]

lemma launchTask_stops (hstop : ∀ e c, t.executor cfg = some e → e.command = some c → c.WellFormed →
      e.executorId ∈ h.executors) : (launchTask cfg t h).2 ≠ .next ∧
      (launchTask cfg t h).1.tasks = h.tasks.put t.info.taskId (t.tracked cfg) ∧
      (launchTask cfg t h).1.children = h.children := by
  unfold launchTask
  dsimp only
  cases he : t.executor cfg with
  | none => exact ⟨Ending.noConfusion, rfl, rfl⟩
  | some e =>
    dsimp only
    split_ifs with hmem
    · exact ⟨Ending.noConfusion, rfl, rfl⟩
    · cases hc : e.command with
      | none => exact ⟨Ending.noConfusion, rfl, rfl⟩
      | some c =>
        have hw : ¬ c.WellFormed := fun hw => hmem (hstop e c he hc hw)
        obtain ⟨hnext, hchildren⟩ := startExecutor_of_not_wellFormed cfg t.pid e.executorId
          ((h.track cfg t).addExecutor cfg e c) hw
        have htrackers := startExecutor_trackers cfg t.pid e.executorId
          ((h.track cfg t).addExecutor cfg e c) c
        exact ⟨hnext, congrArg Prod.fst htrackers, hchildren⟩

end Task

/-! ## The message -/

def trackAll (cfg : HandlerConfig) (ts : List RunnerTask) (d : Dict String RunnerTask) :
    Dict String RunnerTask :=
  ts.foldl (fun d t => d.put t.info.taskId (t.tracked cfg)) d

def executorIds (cfg : HandlerConfig) (ts : List RunnerTask) : List String :=
  ts.filterMap (fun t => (t.executor cfg).map (·.executorId))

structure LaunchedAll (cfg : HandlerConfig) (ts : List RunnerTask) (h h' : ExecutorHandler) : Prop where
  tracked : ∀ tid, h'.tasks.lookup tid = (trackAll cfg ts h.tasks).lookup tid
  started : ∀ id, h'.startedFor id = h.startedFor id +
    if id ∈ executorIds cfg ts ∧ id ∉ h.executors.keys then 1 else 0

def AddNothing (cfg : HandlerConfig) (ts : List RunnerTask) (running : List String)
    (tracked : Dict String RunnerTask) : Prop :=
  (∀ tid, (trackAll cfg ts tracked).lookup tid = tracked.lookup tid) ∧
    ∀ id ∈ executorIds cfg ts, id ∈ running

def LaunchesAll (cfg : HandlerConfig) : List RunnerTask → List String → Dict String RunnerTask → Prop
  | [], _, _ => True
  | t :: ts, running, tracked =>
    match t.executor cfg with
    | none => AddNothing cfg ts running (tracked.put t.info.taskId (t.tracked cfg))
    | some e =>
      if e.executorId ∈ running then
        AddNothing cfg ts running (tracked.put t.info.taskId (t.tracked cfg))
      else
        (∃ c, e.command = some c ∧ c.WellFormed) ∧
          LaunchesAll cfg ts (e.executorId :: running) (tracked.put t.info.taskId (t.tracked cfg))

section Message

variable {cfg : HandlerConfig} {t : RunnerTask} {ts : List RunnerTask} {e : RunnerExecutor}
  {h h' : ExecutorHandler}

lemma launchedAll_of_stop (htasks : h'.tasks = h.tasks.put t.info.taskId (t.tracked cfg))
    (hchildren : h'.children = h.children) : LaunchedAll cfg (t :: ts) h h' ↔
      (∀ tid, (trackAll cfg ts h'.tasks).lookup tid = h'.tasks.lookup tid) ∧
        ∀ id ∈ executorIds cfg (t :: ts), id ∈ h.executors.keys := by
  have hnone : ∀ id, h'.startedFor id = h.startedFor id := fun id => by
    rw [startedFor, startedFor, hchildren]
  constructor
  · intro hall
    refine ⟨fun tid => ?_, fun id hid => ?_⟩
    · rw [hall.tracked tid, htasks]
      rfl
    · by_contra hnot
      have hone := hall.started id
      rw [hnone, if_pos ⟨hid, hnot⟩] at hone
      exact absurd hone (Nat.ne_of_lt (Nat.lt_succ_self _))
  · rintro ⟨htracked, hrunning⟩
    refine ⟨fun tid => ?_, fun id => ?_⟩
    · rw [← htracked tid, htasks]
      rfl
    · rw [hnone, if_neg fun hid => hid.2 (hrunning id hid.1), Nat.add_zero]

lemma launchedAll_of_start (he : t.executor cfg = some e) (hnew : e.executorId ∉ h.executors.keys)
    {h₁ : ExecutorHandler} (htasks : h₁.tasks = h.tasks.put t.info.taskId (t.tracked cfg))
    (hkeys : h₁.executors.keys = e.executorId :: h.executors.keys)
    (hchildren : h₁.children.map (·.executorId) = h.children.map (·.executorId) ++ [e.executorId]) :
    LaunchedAll cfg (t :: ts) h h' ↔ LaunchedAll cfg ts h₁ h' := by
  have hids : executorIds cfg (t :: ts) = e.executorId :: executorIds cfg ts := by
    simp [executorIds, he]
  have hcount : ∀ id, h.startedFor id +
      (if id ∈ executorIds cfg (t :: ts) ∧ id ∉ h.executors.keys then 1 else 0) =
      h₁.startedFor id + if id ∈ executorIds cfg ts ∧ id ∉ h₁.executors.keys then 1 else 0 := by
    intro id
    rw [startedFor, startedFor, hchildren, hids, hkeys, List.count_append]
    by_cases hid : id = e.executorId
    · subst hid
      simp [hnew]
    · simp [hid, Ne.symm hid]
  have htrack : trackAll cfg (t :: ts) h.tasks = trackAll cfg ts h₁.tasks := by
    rw [htasks]
    rfl
  constructor
  · intro hall
    exact ⟨fun tid => by rw [hall.tracked, htrack], fun id => by rw [hall.started, hcount]⟩
  · intro hall
    exact ⟨fun tid => by rw [hall.tracked, htrack], fun id => by rw [hall.started, hcount]⟩

end Message

theorem launchTasks_launchesAll_iff (cfg : HandlerConfig) (ts : List RunnerTask) (h : ExecutorHandler) :
    LaunchedAll cfg ts h (launchTasks cfg (some ts) h).1 ↔ LaunchesAll cfg ts h.executors.keys h.tasks := by
  show LaunchedAll cfg ts h (forEach (launchTask cfg) ts h).1 ↔ _
  induction ts generalizing h with
  | nil =>
    refine iff_of_true ⟨fun _ => rfl, fun id => ?_⟩ trivial
    simp [executorIds]
  | cons t ts ih =>
    rw [forEach_cons]
    by_cases hstart : ∃ e c, t.executor cfg = some e ∧ e.executorId ∉ h.executors.keys ∧
        e.command = some c ∧ c.WellFormed
    · obtain ⟨e, c, he, hnew, hc, hw⟩ := hstart
      obtain ⟨hnext, htasks, hkeys, hchildren⟩ :=
        launchTask_starts he (fun hmem => hnew (AList.mem_keys.mp hmem)) hc hw
      rw [seq_of_next hnext, launchedAll_of_start he hnew htasks hkeys hchildren, ih, hkeys, htasks,
        LaunchesAll, he]
      dsimp only
      rw [if_neg hnew]
      exact ⟨fun hrest => ⟨⟨c, hc, hw⟩, hrest⟩, fun hboth => hboth.2⟩
    · have hstop : ∀ e c, t.executor cfg = some e → e.command = some c → c.WellFormed →
          e.executorId ∈ h.executors := by
        intro e c he hc hw
        by_contra hnew
        exact hstart ⟨e, c, he, fun hmem => hnew (AList.mem_keys.mpr hmem), hc, hw⟩
      obtain ⟨hend, htasks, hchildren⟩ := launchTask_stops hstop
      rw [seq_of_ne hend, launchedAll_of_stop htasks hchildren, htasks, LaunchesAll]
      cases he : t.executor cfg with
      | none =>
        have hids : executorIds cfg (t :: ts) = executorIds cfg ts := by simp [executorIds, he]
        rw [hids]
        rfl
      | some e =>
        have hids : executorIds cfg (t :: ts) = e.executorId :: executorIds cfg ts := by
          simp [executorIds, he]
        rw [hids, List.forall_mem_cons]
        dsimp only
        split_ifs with hrunning
        · exact ⟨fun hall => ⟨hall.1, hall.2.2⟩, fun hall => ⟨hall.1, hrunning, hall.2⟩⟩
        · -- its executor was not running, and has not been started
          refine iff_of_false (fun hall => hrunning hall.2.1) ?_
          rintro ⟨⟨c, hc, hw⟩, -⟩
          exact hrunning (AList.mem_keys.mp (hstop e c he hc hw))

def smallRunner : HandlerConfig := { frameworkId := "fw", slaveId := "slave", user := "user" }

def taskOf (executorId taskId : String) : RunnerTask :=
  { info := { taskId := taskId, executor := some { executorId := executorId } }
    executorCommand := some { value := some "run" } }

theorem launchTasks_forgets_task :
    ¬ LaunchedAll smallRunner [taskOf "e" "a", taskOf "e" "b", taskOf "f" "c"] {}
        (launchTasks smallRunner (some [taskOf "e" "a", taskOf "e" "b", taskOf "f" "c"]) {}).1 ∧
      (launchTasks smallRunner (some [taskOf "e" "a", taskOf "e" "b", taskOf "f" "c"]) {}).1.tasks.keys =
        ["a", "b"] ∧
      (launchTasks smallRunner (some [taskOf "e" "a", taskOf "e" "b", taskOf "f" "c"])
        {}).1.startedFor "f" = 0 := by
  have hnone : (launchTasks smallRunner (some [taskOf "e" "a", taskOf "e" "b", taskOf "f" "c"])
      {}).1.startedFor "f" = 0 := by decide +kernel
  refine ⟨fun hall => ?_, by decide +kernel, hnone⟩
  have hone := hall.started "f"
  rw [hnone, if_pos ⟨by decide +kernel, by decide +kernel⟩] at hone
  exact absurd hone (by decide +kernel)

/-! ## The runner of `Urb.SlaveMemory` -/

def toProcess (h : ExecutorHandler) : RunnerProcess :=
  { tasks := h.tasks.mapVals (fun _ t => t.info), executors := h.executors.keys }

end ExecutorHandler

def RunnerTask.Launchable (cfg : HandlerConfig) (t : RunnerTask) : Prop :=
  ∃ e c, t.executor cfg = some e ∧ e.executorId = RunnerProcess.executorIdOf t.info ∧
    e.command = some c ∧ c.WellFormed

lemma RunnerTask.tracked_info (cfg : HandlerConfig) (t : RunnerTask) : (t.tracked cfg).info = t.info := by
  unfold RunnerTask.tracked
  split <;> rfl

namespace ExecutorHandler

lemma toProcess_launchTask {cfg : HandlerConfig} {t : RunnerTask} (ht : t.Launchable cfg)
    (h : ExecutorHandler) : (RunnerProcess.launchTask t.info h.toProcess).2 = (launchTask cfg t h).2 ∧
      (RunnerProcess.launchTask t.info h.toProcess).1 = (launchTask cfg t h).1.toProcess := by
  obtain ⟨e, c, he, hid, hc, hw⟩ := ht
  have htasks : (h.tasks.mapVals (fun _ t => t.info)).put t.info.taskId t.info =
      (h.tasks.put t.info.taskId (t.tracked cfg)).mapVals (fun _ t => t.info) := by
    rw [mapVals_put, RunnerTask.tracked_info]
  by_cases hmem : e.executorId ∈ h.executors
  · have hmem' : e.executorId ∈ (h.track cfg t).executors := hmem
    rw [RunnerProcess.launchTask, ← hid, toProcess, if_pos (mem_keys.mp hmem)]
    simp only [launchTask, he, if_pos hmem', htasks, true_and]
    rfl
  · obtain ⟨hnext, htask, hkeys, -⟩ := launchTask_starts he hmem hc hw
    rw [RunnerProcess.launchTask, ← hid, toProcess, if_neg fun hk => hmem (mem_keys.mpr hk), hnext,
      toProcess, htask, hkeys, htasks]
    exact ⟨rfl, rfl⟩

theorem toProcess_launchTasks {cfg : HandlerConfig} {ts : List RunnerTask}
    (hts : ∀ t ∈ ts, t.Launchable cfg) (h : ExecutorHandler) :
    (launchTasks cfg (some ts) h).1.toProcess = h.toProcess.launchTasks (ts.map (·.info)) := by
  rw [RunnerProcess.launchTasks, forEach_map]
  refine (forEach_rel (R := fun (h : ExecutorHandler) (p : RunnerProcess) => p = h.toProcess)
    (fun t ht h p hp => ?_) rfl).symm
  rw [hp]
  exact toProcess_launchTask (hts t ht) h

theorem toProcess_launchTasks_merged :
    (launchTasks smallRunner (some [taskOf "e" "a", taskOf "e" "b"]) {}).1.toProcess =
      RunnerProcess.launchTasks [(taskOf "e" "a").info, (taskOf "e" "b").info] {} := by
  have h : ∀ tid, (taskOf "e" tid).Launchable smallRunner := fun tid =>
    ⟨_, { value := some "run" }, rfl, rfl, rfl, ⟨by simp, by simp, by simp, by simp⟩⟩
  exact toProcess_launchTasks (by simp [h]) {}

end ExecutorHandler

end Urb
