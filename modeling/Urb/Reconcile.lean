/-
# `Urb.Reconcile` — reconciliation of task states

A framework that asks about particular tasks gets a status update for each: the
recorded state, or, where there is none or the task has been STAGING for long
enough, what the batch system says about the job.  A task with neither a record
nor a slave is reported LOST once it has been asked about for longer than the
grace period.

In that last branch the source builds a record for the lost task and writes

    t[task_id] = task_record
    framework['task_dict'] = t

where `t` is the record of the task that was asked about, or an empty
dictionary for a task without one.  The framework's task dictionary is
REPLACED by it: all other records are gone, and with a known `t` the fields of
the record stand where task records should (`rebindTaskDict`).
-/
import Urb.Removal

namespace Urb

open Block

/-! ## Requests -/

inductive JobStatus where
  | running
  | unknownJob
  | completedJob
  | pendingJob
  | otherError
  deriving Repr, DecidableEq

def JobStatus.taskState : JobStatus → TaskState
  | .running => .running
  | .unknownJob => .lost
  | .completedJob => .finished
  | .pendingJob => .staging
  | .otherError => .lost

structure TaskStatus where
  taskId : String
  slaveId : Option String := none
  answer : JobStatus := .unknownJob
  deriving Repr, DecidableEq

structure ReconcileRequest where
  statuses : List TaskStatus
  smartAdapter : Bool := true
  statusUpdateTime : ℚ := 2

def ReconcileRequest.named (req : ReconcileRequest) : List String := req.statuses.map (·.taskId)

/-! ## One status -/

def slaveGracePeriod : ℚ := 120

def pastGracePeriod (now since : ℚ) : Bool := decide (now - since > slaveGracePeriod)

def TaskRecord.keys (r : TaskRecord) : List String :=
  ["task_info", "state", "queue_time", "start_time", "end_time", "lost_time", "offer_ids"] ++
    (if r.jobId.isSome then ["job_id"] else [])

def lostRecord (http : Bool) (tid : String) : TaskRecord :=
  { taskInfo :=
      if http then { taskId := tid, agentId := some "NotValid" }
      else { taskId := tid, slaveId := some "NotValid" }
    state := .lost
    notValid := true }

def rebindTaskDict (http : Bool) (tid : String) (t : Option TaskRecord) (s : Service) : Service :=
  { s with taskDict := AList.singleton tid (lostRecord http tid)
           foreign := ((t.map (·.keys)).getD []).filter (· ≠ tid)
           taskDictSet := true
           taskDictId := s.taskDictId + 1
           lostCandidate := s.lostCandidate.erase tid }

def TaskInfo.resolvePlaceholder (map : Dict String String) (t : TaskInfo) : TaskInfo :=
  let resolve := fun v => if isPlaceholder v then (map.lookup v).getD v else v
  match t.slaveId with
  | some v => { t with slaveId := some (resolve v) }
  | none => { t with agentId := t.agentId.map resolve }

def resolveStatus (q : TaskStatus) (s : Service) : Service :=
  if q.slaveId.isSome then s
  else s.modifyTask q.taskId
    (fun r => { r with taskInfo := r.taskInfo.resolvePlaceholder s.placeholderToSlave })

def statusSlave (q : TaskStatus) (t : Option TaskRecord) (s : Service) : Option String :=
  match q.slaveId with
  | some v => some (if isPlaceholder v then (s.placeholderToSlave.lookup v).getD v else v)
  | none => t.bind (fun r => (r.taskInfo.resolvePlaceholder s.placeholderToSlave).slaveRef)

inductive StagingCheck where
  | skip
  | fail
  | answer (state : TaskState)
  | determine
  deriving Repr, DecidableEq

def stagingCheck (now : ℚ) (req : ReconcileRequest) (slave : Option String) :
    Option TaskRecord → StagingCheck
  | none => .determine
  | some r =>
    if r.state = .staging ∧ req.smartAdapter then
      if 0 < req.statusUpdateTime then
        match r.queueTime with
        | none => if slave.isNone then .skip else .fail
        | some t =>
          if now - t < req.statusUpdateTime then
            if slave.isNone then .skip else .answer .staging
          else .determine
      else .determine
    else .answer r.state

def determineState (q : TaskStatus) (t : Option TaskRecord) (sid : String) : TaskState :=
  match getJobIdFromSlaveId sid <|> t.bind (·.jobId) with
  | some _ => q.answer.taskState
  | none => .lost

inductive LostCheck where
  | skip
  | candidate
  | expired
  deriving Repr, DecidableEq

def lostCheck (now : ℚ) (q : TaskStatus) (t : Option TaskRecord) (s : Service) : LostCheck :=
  match t with
  | none =>
    match s.lostCandidate.lookup q.taskId with
    | none => .candidate
    | some since => if pastGracePeriod now since then .expired else .skip
  | some r =>
    match r.queueTime with
    | none => .skip
    | some since => if pastGracePeriod now since then .expired else .skip

def reconcileLost (now : ℚ) (http : Bool) (q : TaskStatus) (t : Option TaskRecord) (s : Service) :
    Service :=
  match lostCheck now q t s with
  | .skip => s
  | .candidate => { s with lostCandidate := s.lostCandidate.insert q.taskId now }
  | .expired =>
    (rebindTaskDict http q.taskId t s).send (.statusUpdate q.taskId .lost (some "NotValid"))

def reconcileTask (now : ℚ) (http : Bool) (req : ReconcileRequest) (q : TaskStatus) :
    Block Service := fun s =>
  if q.taskId ∈ s.foreign then (s, .raise)
  else
    let t := s.taskDict.lookup q.taskId
    let slave := statusSlave q t s
    let s := resolveStatus q s
    match stagingCheck now req slave t with
    | .skip => (s, .next)
    | .fail => (s, .raise)
    | .answer state => (s.send (.statusUpdate q.taskId state slave), .next)
    | .determine =>
      match slave with
      | some sid => (s.send (.statusUpdate q.taskId (determineState q t sid) (some sid)), .next)
      | none => (reconcileLost now http q t s, .next)

/-! ## The handler -/

def reportTask (tid : String) : Block Service := fun s =>
  match s.taskDict.lookup tid with
  | none => (s, .next)
  | some task =>
    if task.state = .running ∨ task.state = .staging then
      if task.notValid then (s, .raise)
      else (s.send (.statusUpdate tid task.state none), .next)
    else (s, .next)

def reconcileTasks (now : ℚ) (http : Bool) (req : ReconcileRequest) : Block Service := fun s =>
  if req.statuses = [] then seq (forEach reportTask s.taskDict.keys) raiseIfForeign s
  else forEach (reconcileTask now http req) req.statuses s

end Urb
