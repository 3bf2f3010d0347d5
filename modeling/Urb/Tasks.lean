/-
# `Urb.Tasks` — launching tasks, killing them and handling their status updates

`launch_tasks` walks over the tasks of a LaunchTasks message.  Each gets a
record in state STAGING.  What happens next depends on the slave it names:

    a placeholder       a job is submitted, or the one submitted for the same
                        placeholder earlier in the message is taken; TASK_LOST goes
                        out when none could be, and, unless configured otherwise,
                        also when one was
    no known slave      nothing more: the loop continues
    a registered slave  the WHOLE message is forwarded to the slave's runner, the
                        task is debited, the slave becomes offerable, and the task
                        is run if its executor has registered

The loop can be left early, by an exception and by a `return`; the offers of the
message are then not processed.
-/
import Urb.Offers

namespace Urb

open Block

/-! ## Jobs -/

def firstJobId : List JobTuple → Option String
  | [] => none
  | j :: js => some (js.foldl (fun least k => if k.id < least then k.id else least) j.id)

def scaleUp (scaleCount : ℤ) (submitted : List JobTuple) (s : Service) :
    Service × List JobTuple :=
  let count := if scaleCount = 0 then s.config.scaleCount else scaleCount
  if count = 0 ∨ s.config.maxTasks ≤ 0 then (s, [])
  else ({ s with jobIds := some (s.jobIds.getD [] ++ submitted).dedup }, submitted)

/-! ## Lost tasks -/

def processTaskLostStatusUpdate (tid : String) (slaveId : Option String) (s : Service) : Service :=
  ((s.send (.statusUpdate tid .lost slaveId)).setTaskState tid .lost).queueTask tid

def runTask (sid channel tid : String) (s : Service) : Service :=
  (s.send (.runTask sid channel tid)).modifyTask tid
    (fun r => { r with taskInfo := { r.taskInfo with agentId := none } })

/-! ## Launching -/

structure LaunchedTask where
  info : TaskInfo
  submitted : List JobTuple := []

structure LaunchTasksRequest where
  offerIds : List String
  tasks : List LaunchedTask := []
  refuseSeconds : Option ℚ := none

def LaunchTasksRequest.infos (req : LaunchTasksRequest) : List TaskInfo := req.tasks.map (·.info)

structure LaunchState where
  service : Service
  used : List String := []
  placeholderToJobid : Dict String String := ∅

def setJobId (tid job : String) (s : Service) : Service :=
  s.modifyTask tid (fun r => { r with jobId := some job })

def sendTaskLost (tid sid : String) (s : Service) : Service :=
  if s.config.sendTaskLost then processTaskLostStatusUpdate tid (some sid) s else s

def launchOnPlaceholder (l : LaunchedTask) (sid : String) : Block LaunchState := fun st =>
  let tid := l.info.taskId
  match st.placeholderToJobid.lookup sid with
  | some job => ({ st with service := sendTaskLost tid sid (setJobId tid job st.service) }, .next)
  | none =>
    let (s, ids) := scaleUp st.service.config.concurrentTasks l.submitted st.service
    match firstJobId ids with
    | none => ({ st with service := processTaskLostStatusUpdate tid (some sid) s }, .next)
    | some job =>
      ({ st with service := sendTaskLost tid sid (setJobId tid job s)
                 placeholderToJobid := st.placeholderToJobid.insert sid job }, .next)

def Slave.placeExecutor (t : TaskInfo) (slave : Slave) : Slave :=
  if slave.executor.isNone && !slave.isCommandExecutor then
    match t.executor with
    | some e => { slave with executor := some e }
    | none => { slave with commandExecutors := slave.commandExecutors.insert t.taskId {} }
  else if slave.isCommandExecutor && decide (t.taskId ∉ slave.commandExecutors) then
    { slave with commandExecutors := slave.commandExecutors.insert t.taskId {} }
  else slave

def Slave.launch (t : TaskInfo) : Block Slave := fun slave => debitResources t (slave.placeExecutor t)

def Slave.channelFor (tid : String) (slave : Slave) : Option String :=
  if slave.isCommandExecutor then (slave.commandExecutors.lookup tid).bind (·.channel)
  else slave.executorChannel

def Slave.usedOffer (offerIds : List String) (slave : Slave) : List String :=
  match slave.offer with
  | some o => if o.id ∈ offerIds then [o.id] else []
  | none => []

def forwardLaunch (req : LaunchTasksRequest) (t : TaskInfo) (sid job : String) (slave : Slave)
    (s : Service) : Service :=
  (setJobId t.taskId job s).send
    (.forwardedLaunch sid slave.channel (req.infos.map (·.taskId)))

def runIfRegistered (sid tid : String) (slave : Slave) (s : Service) : Service :=
  match slave.channelFor tid with
  | some channel => runTask sid channel tid s
  | none => s

def launchOnSlave (req : LaunchTasksRequest) (t : TaskInfo) (sid : String) (slave : Slave) :
    Block LaunchState := fun st =>
  match getJobIdFromSlaveId sid with
  | none => (st, .ret)
  | some job =>
    let s := forwardLaunch req t sid job slave st.service
    let launched := Slave.launch t slave
    let st := { st with used := slave.usedOffer req.offerIds ++ st.used }
    if launched.2 = .next then
      let s := s.modifySlave sid (fun _ => { launched.1 with offerable := true })
      ({ st with service := runIfRegistered sid t.taskId launched.1 s }, .next)
    else ({ st with service := s.modifySlave sid (fun _ => launched.1) }, .raise)

def LaunchedTask.record (now : ℚ) (l : LaunchedTask) : TaskRecord :=
  { taskInfo := l.info, state := .staging, queueTime := some now }

def enterTask (now : ℚ) (l : LaunchedTask) (s : Service) : Service :=
  s.putTask l.info.taskId (l.record now)

def launchTask (now : ℚ) (req : LaunchTasksRequest) (l : LaunchedTask) : Block LaunchState :=
  fun st =>
    match l.info.slaveRef with
    | none => (st, .raise)
    | some sid =>
      let st := { st with service := enterTask now l st.service }
      if isPlaceholder sid then launchOnPlaceholder l sid st
      else
        match st.service.slaveDict.lookup sid with
        | none => (st, .next)
        | some slave => launchOnSlave req l.info sid slave st

def LaunchTasksRequest.remaining (req : LaunchTasksRequest) (used : List String) : List String :=
  req.offerIds.dedup.filter (· ∉ used)

def launchStart (req : LaunchTasksRequest) (s : Service) : LaunchState :=
  { service := { s.send (.launchTasksReceived req.offerIds req.infos) with taskDictSet := true } }

def launchTasks (now : ℚ) (req : LaunchTasksRequest) : Block Service := fun s =>
  let r := forEach (launchTask now req) req.tasks (launchStart req s)
  if r.2 = .next then
    (processRemainingOffers now req.refuseSeconds (req.remaining r.1.used) r.1.service, .next)
  else (r.1.service, r.2)

/-! ## Killing -/

def Service.resolveSlave (s : Service) (sid : String) : Option (String × Slave) :=
  match s.slaveDict.lookup sid with
  | some slave => some (sid, slave)
  | none =>
    if isPlaceholder sid then
      (s.placeholderToSlave.lookup sid).bind
        (fun key => (s.slaveDict.lookup key).map (fun slave => (key, slave)))
    else none

def sendKillTask (slave : Slave) (tid : String) (s : Service) : Service :=
  match slave.channelFor tid with
  | some channel => s.send (.killTask channel tid)
  | none => s.send .retry

def deleteJobOf (task : TaskRecord) (s : Service) : Service :=
  match task.jobId with
  | some job => s.send (.deleteJobs [job])
  | none => s

def TaskInfo.killRef (t : TaskInfo) : Option String := t.agentId <|> t.slaveId

def markKilled (tid : String) (task : TaskRecord) (s : Service) : Service :=
  ((s.setTaskState tid .killed).queueTask tid).send
    (.statusUpdate tid .killed task.taskInfo.killRef)

def killOnSlave (tid key : String) (slave : Slave) (task : TaskRecord) : Block Service := fun s =>
  if slave.isCommandExecutor then (sendKillTask slave tid s, .next)
  else
    let credited := creditResources task.taskInfo slave
    let s := s.modifySlave key (fun _ => credited.1)
    if credited.2 = .next then (sendKillTask credited.1 tid s, .next) else (s, .raise)

def killTask (tid : String) : Block Service := fun s =>
  if tid ∈ s.foreign then (s, .raise)
  else
    match s.taskDict.lookup tid with
    | none => (s, .next)
    | some task =>
      let marked := markKilled tid task s
      match task.taskInfo.killRef.bind s.resolveSlave with
      | some (key, slave) => killOnSlave tid key slave task marked
      | none => (deleteJobOf task marked, .next)

/-! ## Status updates -/

structure StatusUpdate where
  taskId : String
  state : TaskState
  slaveId : Option String := none
  agentId : Option String := none
  deriving Repr, DecidableEq

def StatusUpdate.slaveRef (u : StatusUpdate) (t : TaskInfo) : Option String :=
  u.slaveId <|> u.agentId <|> t.slaveId <|> t.agentId

def Slave.finishEntry (tid : String) (slave : Slave) : Dict String CommandExecutor :=
  slave.commandExecutors.modify tid (fun e => { e with active := false })

def finishCommand (tid sid : String) (slave : Slave) : Block Service := fun s =>
  match (slave.commandExecutors.lookup tid).bind (·.channel) with
  | none => (s, .raise)
  | some _ =>
    let s := s.modifySlave sid (fun sl => { sl with commandExecutors := slave.finishEntry tid })
    if (slave.finishEntry tid).values.any (·.active) then (s, .next)
    else (s.addDeleteElement (.slave sid), .next)

def finishOnSlave (tid sid : String) (slave : Slave) (task : TaskRecord) : Block Service :=
  fun s =>
    if slave.isCommandExecutor then finishCommand tid sid slave s
    else
      let credited := creditResources task.taskInfo slave
      (s.modifySlave sid (fun _ => credited.1), credited.2)

def settleUpdate (u : StatusUpdate) (task : TaskRecord) : Block Service := fun s =>
  match u.slaveRef task.taskInfo with
  | none => (s, .next)
  | some sid =>
    if !s.slaveDictSet then (s, .raise)
    else
      match s.slaveDict.lookup sid with
      | none => (s, .next)
      | some slave =>
        if u.state = .finished ∨ u.state = .failed then
          seq (finishOnSlave u.taskId sid slave task)
            (fun s => (s.queueTask u.taskId, .next)) s
        else (s, .next)

def handleStatusUpdate (u : StatusUpdate) : Block Service := fun s =>
  let s := s.send (.statusUpdateReceived u.taskId u.state)
  if u.taskId ∈ s.foreign then (s, .raise)
  else
    match s.taskDict.lookup u.taskId with
    | none => (s.send (.statusUpdate u.taskId u.state (u.slaveId <|> u.agentId)), .next)
    | some task =>
      settleUpdate u task ((s.setTaskState u.taskId u.state).send
        (.statusUpdate u.taskId u.state (u.slaveRef task.taskInfo)))

end Urb
