/-
# `Urb.Service` — the state the Mesos handler keeps for one framework

`MesosHandler` keeps, for every registered framework, a dictionary of
dictionaries that its handlers read and change in place.  `Service` is that
record for ONE framework, with the pieces of the handler object that its
requests share: the list of queued deletions and the offer counter.

    slave_dict             slaveDict            the executor runners that have registered
    task_dict              taskDict, foreign    the task records, and the keys that hold none
    offers                 offers               every offer built and not deleted
    placeholder_to_slave   placeholderToSlave
    job_ids                jobIds
    __delete_elements      deleteElements

A slave's `id` is the key it is stored under.  `is_command_executor` is set exactly
where an entry is put into `command_executors`, and no entry is ever taken out, so
the flag is the test `Slave.isCommandExecutor` here.

`reconcile_tasks` can make a task RECORD the task dictionary (see
`Urb.Reconcile`).  The values under such a record's own keys are no records,
and any handler that touches one raises.  These keys are kept apart in
`foreign`, so that `taskDict` holds records only; `taskDictId` tells the
dictionary objects apart, because a queued deletion holds the object it was
queued for.

`wire` is what has gone over the channels, newest first: the requests that
matter for what follows, and everything the service has written.
-/
import Mathlib.Data.Rat.Defs
import Urb.Basis.Dict
import Urb.Basis.Exec
import Urb.ChoppyRange
import Urb.Naming

namespace Urb

export Option (isSome_iff_exists bind_eq_some_iff map_eq_some_iff some_ne_none map_some
  not_mem_none ne_none_iff_exists' getD_some some_inj)

/-! ## Tasks -/

/-- `TaskState` of `mesos.proto`. -/
inductive TaskState where
  | staging | starting | running | killing
  | finished | failed | killed | error | lost
  | dropped | unreachable | gone | goneByOperator | unknown
  deriving Repr, DecidableEq

def TaskState.isTerminal : TaskState → Bool
  | .finished | .failed | .killed | .lost | .error => true
  | _ => false

inductive ResourceType where
  | scalar | ranges | set | text
  deriving Repr, DecidableEq

structure Resource where
  name : String
  type : ResourceType
  scalar : Option ℚ := none
  ranges : Option (List PortRange) := none
  deriving DecidableEq

structure Executor where
  executorId : String
  docker : Bool := false
  deriving Repr, DecidableEq

structure TaskInfo where
  taskId : String
  slaveId : Option String := none
  agentId : Option String := none
  resources : Option (List Resource) := none
  executor : Option Executor := none
  docker : Bool := false
  deriving DecidableEq

def TaskInfo.slaveRef (t : TaskInfo) : Option String := t.slaveId <|> t.agentId

structure TaskRecord where
  taskInfo : TaskInfo
  state : TaskState
  queueTime : Option ℚ := none
  jobId : Option String := none
  notValid : Bool := false
  deriving DecidableEq

structure JobTuple where
  id : String
  array : Option ((ℤ × ℤ) × ℤ) := none
  deriving Repr, DecidableEq

/-! ## Slaves and offers -/

inductive CustomResource where
  | scalar (amount : ℚ)
  | ranges (l : List (ℤ × ℤ))
  deriving DecidableEq

structure Offer where
  id : String
  slaveId : String
  hostname : String
  resources : List Resource
  deriving DecidableEq

/-- An entry of `command_executors`. -/
structure CommandExecutor where
  active : Bool := true
  channel : Option String := none
  deriving Repr, DecidableEq

structure Slave where
  hostname : String
  channel : String
  offerable : Bool := false
  offerableAfter : ℚ := 0
  cpus : ℚ
  mem : ℚ
  disk : ℚ
  gpus : Option ℚ
  ports : List (ℤ × ℤ)
  customResources : Dict String CustomResource
  taskCount : ℤ := 0
  refusedCount : ℤ := 0
  executor : Option Executor := none
  executorChannel : Option String := none
  commandExecutors : Dict String CommandExecutor := ∅
  placeholder : Option String := none
  offer : Option Offer := none

def Slave.isCommandExecutor (slave : Slave) : Bool := !slave.commandExecutors.keys.isEmpty

structure Config where
  maxTasks : ℤ
  initialTasks : ℤ := 1
  concurrentTasks : ℤ := 1
  scaleCount : ℤ := 1
  maxRejectedOffers : ℤ
  sendTaskLost : Bool := true
  cpus : ℤ
  mem : ℤ
  disk : ℤ
  gpus : Option ℤ := none
  ports : List (ℤ × ℤ)
  customResources : Dict String CustomResource := ∅

/-! ## Messages -/

inductive Message where
  | launchTasksReceived (offerIds : List String) (tasks : List TaskInfo)
  | statusUpdateReceived (taskId : String) (state : TaskState)
  | executorRunnerReceived (jobId slaveId : String)
  | resourceOffers (offers : List Offer)
  | statusUpdate (taskId : String) (state : TaskState) (slaveId : Option String)
  | forwardedLaunch (slaveId channel : String) (tasks : List String)
  | stagedLaunch (slaveId channel : String) (tasks : List String)
  | runTask (slaveId channel taskId : String)
  | executorRegistered (channel : String)
  | executorReregistered (channel : String)
  | killTask (channel taskId : String)
  | shutdownExecutor (channel : String)
  | slaveShutdown (channel : String)
  | deleteJobs (jobIds : List String)
  | retry
  deriving DecidableEq

inductive DeleteElement where
  | slave (key : String)
  | task (dict : ℕ) (key : String)
  | offer (key : String)
  deriving Repr, DecidableEq

/-! ## The framework record -/

structure Service where
  config : Config
  frameworkId : String
  http : Bool := false
  serviceHostname : String
  active : Bool := true
  slaveDict : Dict String Slave := ∅
  slaveDictSet : Bool := false
  taskDict : Dict String TaskRecord := ∅
  taskDictSet : Bool := false
  foreign : List String := []
  taskDictId : ℕ := 0
  offers : Dict String Offer := ∅
  placeholderToSlave : Dict String String := ∅
  jobIds : Option (List JobTuple) := none
  placeholderOfferableAfter : ℚ := 0
  nextOfferTime : ℚ := 0
  lostCandidate : Dict String ℚ := ∅
  lastOfferId : ℕ := 0
  deleteElements : List DeleteElement := []
  wire : List Message := []

namespace Service

def fresh (config : Config) (frameworkId serviceHostname : String) (http : Bool) : Service :=
  { config := config, frameworkId := frameworkId, serviceHostname := serviceHostname, http := http }

@[simps] def send (m : Message) (s : Service) : Service := { s with wire := m :: s.wire }

@[simps] def addDeleteElement (e : DeleteElement) (s : Service) : Service :=
  { s with deleteElements := s.deleteElements ++ [e] }

@[simps] def modifySlave (sid : String) (f : Slave → Slave) (s : Service) : Service :=
  { s with slaveDict := s.slaveDict.modify sid f }

@[simps] def modifyTask (tid : String) (f : TaskRecord → TaskRecord) (s : Service) : Service :=
  { s with taskDict := s.taskDict.modify tid f }

@[simps] def putTask (tid : String) (r : TaskRecord) (s : Service) : Service :=
  { s with taskDict := s.taskDict.insert tid r
           taskDictSet := true
           foreign := s.foreign.filter (· ≠ tid) }

@[simps] def setTaskState (tid : String) (state : TaskState) (s : Service) : Service :=
  { s with taskDict := s.taskDict.modify tid (fun r => { r with state := state }) }

@[simps] def queueTask (tid : String) (s : Service) : Service :=
  { s with deleteElements := s.deleteElements ++ [.task s.taskDictId tid] }

end Service

end Urb
