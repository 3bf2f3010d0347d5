/-
# `Urb.Step` — the service as a state machine

An `Event` is one thing the service handles for the framework: a request,
native or over HTTP, a round of the offer loop, or a callback of the job
monitor.  `step` handles it to its end and, for a native request, runs the
post-processor.  The post-processor also runs after the requests of OTHER
frameworks; to this framework such a request is `otherRequest`.

A handler that raises keeps what it has done up to then, so `step` takes the
state a block leaves and drops the way it ended.

A framework that has been removed from the tracker is not `active`: requests
for it are given to the retry manager, a runner that registers for it is shut
down, and only the job monitor's callback still finds it.
-/
import Urb.Reconcile

namespace Urb

open Block

inductive Event where
  | generateOffers (now : ℚ)
  | launchTasks (native : Bool) (now : ℚ) (req : LaunchTasksRequest)
  | killTask (native : Bool) (taskId : String)
  | statusUpdate (native : Bool) (update : StatusUpdate)
  | reconcileTasks (native : Bool) (now : ℚ) (req : ReconcileRequest)
  | reviveOffers
  | registerExecutorRunner (reg : RunnerRegistration)
  | registerExecutor (reg : ExecutorRegistration)
  | reregisterExecutor (reg : ExecutorReregistration)
  | deleteJob (jobId : String)
  | unregisterFramework (native : Bool)
  | otherRequest

def finish (native : Bool) (s : Service) : Service := if native then postprocess s else s

def whenActive (handler : Block Service) (s : Service) : Service :=
  if s.active then (handler s).1 else s.send .retry

def step (s : Service) : Event → Service
  | .generateOffers now => if s.active then generateOffers now s else s
  | .launchTasks native now req => finish native (whenActive (launchTasks now req) s)
  | .killTask native tid => finish native (whenActive (killTask tid) s)
  | .statusUpdate native u => finish native (whenActive (handleStatusUpdate u) s)
  | .reconcileTasks native now req =>
    finish native (whenActive (reconcileTasks now (!native) req) s)
  | .reviveOffers => postprocess (if s.active then reviveOffers s else s)
  | .registerExecutorRunner reg =>
    postprocess (if s.active then (registerExecutorRunner reg s).1
      else s.send (.slaveShutdown reg.channel))
  | .registerExecutor reg => postprocess (if s.active then (registerExecutor reg s).1 else s)
  | .reregisterExecutor reg => postprocess (if s.active then (reregisterExecutor reg s).1 else s)
  | .deleteJob job => (deleteJob job s).1
  | .unregisterFramework native =>
    finish native (if s.active then (deleteFramework s).1 else s)
  | .otherRequest => postprocess s

abbrev runFrom (s : Service) (es : List Event) : Service := Machine.run step s es

/-! ## A small framework

The framework that the concrete runs of the later modules start from, with one slave's worth of
every resource. -/

def smallConfig : Config :=
  { maxTasks := 10, maxRejectedOffers := 3, sendTaskLost := false,
    cpus := 4, mem := 4, disk := 4, ports := [(1, 1)] }

def smallService : Service := .fresh smallConfig "fw" "host" false

def runnerUp (job channel : String) : Event :=
  .registerExecutorRunner
    { jobId := job, channel := channel, host := "host", jobTuple := { id := job } }

def executorUp (runner channel : String) : Event :=
  .registerExecutor { replyTo := runner, channel := channel, executorId := "e" }

def slaveOf (job channel : String) : String := createSlaveId job "undefined" channel

def oneCpuTask (tid sid : String) : TaskInfo :=
  { taskId := tid, slaveId := some sid, executor := some { executorId := "e" }
    resources := some [{ name := "cpus", type := .scalar, scalar := some 1 }] }

def launchOf (offerIds : List String) (tasks : List TaskInfo) : Event :=
  .launchTasks true 0 { offerIds := offerIds, tasks := tasks.map (fun t => { info := t }) }

def oneSlave : Service := runFrom smallService [runnerUp "7" "c7"]

def runningOnSlave : Service := step oneSlave (launchOf [] [oneCpuTask "a" (slaveOf "7" "c7")])

end Urb
