/-
# `Urb.Registration` — executor runners and executors report in

An executor runner is the job the service has submitted.  When it starts it
registers (`register_executor_runner`) and becomes a slave of the framework;
the tasks that were launched on the job's placeholder and are still STAGING
are debited and handed to it in one LaunchTasks message.  A runner that
outlived the service carries the tasks it is running instead.

The runner starts executors, and each of those registers in its turn
(`register_executor`): it is sent every STAGING task of the slave's job, or,
a command executor, the one task it was made for.  An executor that outlived
the service re-registers (`reregister_executor`) with the tasks it runs and
the updates it has not seen acknowledged, which are replayed.

-/
import Urb.Tasks

namespace Urb

open Block

/-! ## Shared pieces -/

def debitSlave (sid : String) (t : TaskInfo) : Block Service := fun s =>
  match s.slaveDict.lookup sid with
  | none => (s, .raise)
  | some slave => (s.modifySlave sid (fun _ => (debitResources t slave).1), (debitResources t slave).2)

def raiseIfForeign : Block Service := fun s => (s, if s.foreign = [] then .next else .raise)

def Service.slaveByChannel (s : Service) (replyTo : String) : Option (String × Slave) :=
  (s.slaveDict.entries.find? (fun e => e.2.channel = replyTo)).map (fun e => (e.1, e.2))

/-! ## Executor runners -/

structure RunnerRegistration where
  jobId : String
  arrayTask : String := "undefined"
  channel : String
  host : String
  tasks : List TaskInfo := []
  jobTuple : JobTuple
  submitted : List JobTuple := []

def RunnerRegistration.slaveId (reg : RunnerRegistration) : String :=
  createSlaveId reg.jobId reg.arrayTask reg.channel

def noteJob (reg : RunnerRegistration) (ids : List JobTuple) : List JobTuple :=
  if ids.any (·.id = reg.jobId) then ids else ids ++ [reg.jobTuple]

def enterSlave (reg : RunnerRegistration) (s : Service) : Service :=
  let slave := initializeSlaveResources s.config reg.host reg.channel
  { s.send (.executorRunnerReceived reg.jobId reg.slaveId) with
      slaveDict := s.slaveDict.insert reg.slaveId slave
      slaveDictSet := true
      jobIds := some (noteJob reg (s.jobIds.getD [])) }

def adoptTask (reg : RunnerRegistration) (t : TaskInfo) : Block Service := fun s =>
  debitSlave reg.slaveId t
    (s.putTask t.taskId { taskInfo := t, state := .running, jobId := some reg.jobId })

def adoptTasks (reg : RunnerRegistration) : Block Service := fun s =>
  forEach (adoptTask reg) reg.tasks
    (s.modifySlave reg.slaveId (fun sl => { sl with executor := reg.tasks.head?.bind (·.executor) }))

/-- The locals of the loop over the staged tasks. -/
structure Staging where
  service : Service
  tasks : List String := []
  inDocker : Bool := false

def Slave.takePlaceholder (ref : String) (t : TaskInfo) (slave : Slave) : Slave :=
  match t.executor with
  | some e => { slave with placeholder := some ref, executor := some e }
  | none => { slave with placeholder := some ref
                         commandExecutors := slave.commandExecutors.insert t.taskId {} }

def bindPlaceholder (sid ref : String) (t : TaskInfo) (st : Staging) : Staging :=
  { service :=
      { st.service.modifySlave sid (Slave.takePlaceholder ref t) with
          placeholderToSlave := st.service.placeholderToSlave.insert ref sid }
    tasks := st.tasks ++ [t.taskId]
    inDocker := st.inDocker || t.docker || (t.executor.map (·.docker)).getD false }

def stageTask (reg : RunnerRegistration) (tid : String) : Block Staging := fun st =>
  match st.service.taskDict.lookup tid with
  | none => (st, .next)
  | some task =>
    if task.state = .staging ∧ task.jobId = some reg.jobId then
      match task.taskInfo.slaveRef with
      | none => (st, .raise)
      | some ref =>
        let st := if isPlaceholder ref then bindPlaceholder reg.slaveId ref task.taskInfo st
                  else st
        let d := debitSlave reg.slaveId task.taskInfo st.service
        ({ st with service := d.1 }, d.2)
    else (st, .next)

def launchStaged (reg : RunnerRegistration) (st : Staging) : Service :=
  if st.tasks = [] then st.service
  else
    let s := st.service.send (.stagedLaunch reg.slaveId reg.channel st.tasks)
    if st.inDocker then s else (scaleUp 0 reg.submitted s).1

def stageTasks (reg : RunnerRegistration) : Block Service := fun s =>
  let r := forEach (stageTask reg) s.taskDict.keys { service := s }
  if r.2 = .next ∧ r.1.service.foreign = [] then
    ((launchStaged reg r.1).modifySlave reg.slaveId (fun sl => { sl with offerable := true }), .next)
  else (r.1.service, .raise)

def registerExecutorRunner (reg : RunnerRegistration) : Block Service := fun s =>
  if reg.tasks = [] then stageTasks reg (enterSlave reg s) else adoptTasks reg (enterSlave reg s)

/-! ## Executors -/

structure ExecutorRegistration where
  replyTo : String
  channel : String
  executorId : String
  submitted : List JobTuple := []

def runStaged (reg : ExecutorRegistration) (sid job : String) (command : Bool) (tid : String) :
    Block Service := fun s =>
  match s.taskDict.lookup tid with
  | none => (s, .next)
  | some task =>
    if task.state = .staging ∧ task.jobId.getD "0" = job then
      if task.notValid then (s, .raise)
      else if !command then (runTask sid reg.channel tid s, .next)
      else if reg.executorId = tid then
        (runTask sid reg.channel tid (s.modifySlave sid (fun sl =>
          { sl with commandExecutors := sl.commandExecutors.modify tid
                      (fun e => { e with channel := some reg.channel }) })), .next)
      else (s, .next)
    else (s, .next)

def runStagedTasks (reg : ExecutorRegistration) (sid : String) (command : Bool) : Block Service :=
  fun s =>
    match getJobIdFromSlaveId sid with
    | none => (s, .next)
    | some job => seq (forEach (runStaged reg sid job command) s.taskDict.keys) raiseIfForeign s

def dockerCheckRaises (s : Service) : Bool :=
  !s.foreign.isEmpty ||
    s.taskDict.values.any (fun r => r.taskInfo.docker && r.taskInfo.slaveId.isNone)

def taskInDocker (sid : String) (s : Service) : Bool :=
  s.taskDict.values.any (fun r => r.taskInfo.docker && r.taskInfo.slaveId == some sid)

def scaleForExecutor (reg : ExecutorRegistration) (sid : String) (slave : Slave) : Block Service :=
  fun s =>
    if dockerCheckRaises s then (s, .raise)
    else
      let executorInDocker := (slave.executor.map (·.docker)).getD false
      if executorInDocker || taskInDocker sid s || slave.isCommandExecutor then (s, .next)
      else ((scaleUp 0 reg.submitted s).1, .next)

def registerExecutor (reg : ExecutorRegistration) : Block Service := fun s =>
  if !s.slaveDictSet then (s, .raise)
  else
    match s.slaveByChannel reg.replyTo with
    | none => (s.send .retry, .ret)
    | some (sid, slave) =>
      if slave.isCommandExecutor && decide (reg.executorId ∉ slave.commandExecutors) then
        (s.send .retry, .ret)
      else
        let s := (s.modifySlave sid (fun sl => { sl with executorChannel := some reg.channel })).send
          (.executorRegistered reg.channel)
        if !s.taskDictSet then (s, .raise)
        else seq (runStagedTasks reg sid slave.isCommandExecutor) (scaleForExecutor reg sid slave) s

/-! ## Executors that outlived the service -/

structure ExecutorReregistration where
  replyTo : String
  channel : String
  tasks : List TaskInfo := []
  updates : List (ℚ × StatusUpdate) := []

def TaskState.nameRank : TaskState → ℕ
  | .dropped => 0 | .error => 1 | .failed => 2 | .finished => 3 | .gone => 4
  | .goneByOperator => 5 | .killed => 6 | .killing => 7 | .lost => 8 | .running => 9
  | .staging => 10 | .starting => 11 | .unknown => 12 | .unreachable => 13

def replayBefore (a b : ℚ × StatusUpdate) : Bool :=
  decide (toInt a.1 < toInt b.1) ||
    (decide (toInt a.1 = toInt b.1) && decide (b.2.state.nameRank ≤ a.2.state.nameRank))

def Slave.takeRunning (channel : String) (t : TaskInfo) (slave : Slave) : Slave :=
  match t.executor with
  | some e => { slave with executor := some e }
  | none =>
    { slave with commandExecutors :=
        slave.commandExecutors.insert t.taskId { channel := some channel } }

def readoptTask (channel sid job : String) (t : TaskInfo) : Block Service := fun s =>
  debitSlave sid t ((s.modifySlave sid (Slave.takeRunning channel t)).putTask t.taskId
    { taskInfo := t, state := .running, jobId := some job })

def reregisterExecutor (reg : ExecutorReregistration) : Block Service := fun s =>
  match s.slaveByChannel reg.replyTo with
  | none => (s, .ret)
  | some (sid, _) =>
    let s := s.modifySlave sid (fun sl => { sl with executorChannel := some reg.channel })
    match getJobIdFromSlaveId sid with
    | none => (s, .ret)
    | some job =>
      seq (forEach (readoptTask reg.channel sid job) reg.tasks)
        (seq (forEach handleStatusUpdate ((reg.updates.mergeSort replayBefore).map (·.2)))
          (fun s => ((s.send (.executorReregistered reg.channel)).modifySlave sid
            (fun sl => { sl with offerable := true }), .next))) s

end Urb
