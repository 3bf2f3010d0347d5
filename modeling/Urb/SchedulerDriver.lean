/-
# `Urb.SchedulerDriver` — the driver beside a native scheduler, and what `abort` silences

`MesosSchedulerDriver` has a status and hands the scheduler's calls to a
`UrbSchedulerProcess`, which has the flags `connected_` and `aborted_` and calls the
scheduler back.  The two are changed by different things:

    status       start, stop, abort
    connected_   a registered message (true), abort, stop and a lost broker (false)
    aborted_     an abort that finds the process connected (true), a registration
                 timer (false)

A callback may call the driver again: the mutex is recursive.  What is left to do of a
call that is under way is a stack of frames, each step of which is an event of its own
(`resume`), so any other call or message may come in between.  A failed `CHECK` ends
the program (`crashed`).

**Proved here.**  If every `abort()` at status RUNNING finds the process connected or
already aborted, and no registration timer fires while the driver is silenced, then
no callback but `error` is invoked while it is (`abort_silences`).
-/
import Urb.FrameworkIdentity

namespace Urb

open Bool

inductive DriverStatus where
  | notStarted | running | aborted | stopped
  deriving DecidableEq

/-- What the driver looks at in a task. -/
structure DriverTask where
  taskId : String
  hasExecutor : Bool := false
  hasCommand : Bool := true
  executorFrameworkId : Option String := none

inductive Uuid where
  | service (text : String)
  | driver (n : ℕ)
  deriving DecidableEq, Repr

structure DriverUpdate where
  frameworkId : Option String
  taskId : String
  state : TaskState
  slaveId : Option String := none
  statusSlaveId : Option String := none
  uuid : Uuid := .service ""

structure DriverTaskStatus where
  taskId : String
  slaveId : Option String := none
  uuid : Option Uuid := none

/-- The callbacks of `Scheduler`. -/
inductive Callback where
  | registered (frameworkId : String)
  | reregistered
  | resourceOffers (offerIds : List String)
  | offerRescinded (offerId : String)
  | statusUpdate (taskId : String) (state : TaskState)
  | slaveLost (slaveId : String)
  | frameworkMessage (data : String)
  | error (message : String)
  deriving DecidableEq

/-- The messages to the master. -/
inductive ToMaster where
  | registration (call : RegistrationCall)
  | unregister
  | deactivate
  | killTask (taskId : String)
  | requestResources
  | launchTasks (offerIds : List String) (taskIds : List String)
  | reviveOffers
  | frameworkMessage (data : String)
  | reconcileTasks (taskIds : List String)
  | acknowledge (taskId slaveId : String) (uuid : Uuid)

inductive FromMaster where
  | registered (frameworkId : String)
  | reregistered (frameworkId : String)
  | resourceOffers (offerIds : List String)
  | rescindOffer (offerId : String)
  | statusUpdate (update : DriverUpdate)
  | lostSlave (slaveId : String)
  | executorToFramework (data : String)
  | error (message : String)
  | serviceDisconnected
  | unknown

inductive DriverFrame where
  | accept (offerIds : List String) (operations : List (Option (List DriverTask)))
  | lost (tasks : List DriverTask)
  | launch (offerIds : List String) (tasks result : List DriverTask)
  | acknowledge (update : DriverUpdate)

def DriverFrame.update : DriverFrame → Option DriverUpdate
  | .acknowledge update => some update
  | _ => none

structure SchedulerDriver where
  endpointId : String
  master : String
  framework : FrameworkInfo
  failover : Bool
  status : DriverStatus := .notStarted
  connected : Bool := false
  aborted : Bool := false
  activeTasks : Dict String TaskState := ∅
  registrationTimers : ℕ := 0
  reconcileTimers : ℕ := 0
  uuids : ℕ := 0
  frames : List DriverFrame := []
  sent : List ToMaster := []
  callbacks : List (Callback × Bool) := []
  crashed : Bool := false
  silenced : Bool := false

namespace SchedulerDriver

def new (endpointId master : String) (framework : FrameworkInfo) : SchedulerDriver :=
  { endpointId := endpointId, master := master, framework := framework
    failover := failoverAtStart framework }

def send (m : ToMaster) (s : SchedulerDriver) : SchedulerDriver := { s with sent := m :: s.sent }

def invoke (c : Callback) (s : SchedulerDriver) : SchedulerDriver :=
  { s with callbacks := (c, s.silenced) :: s.callbacks }

def push (f : DriverFrame) (s : SchedulerDriver) : SchedulerDriver := { s with frames := f :: s.frames }

def check (p : Prop) [Decidable p] (next : SchedulerDriver → SchedulerDriver) (s : SchedulerDriver) :
    SchedulerDriver :=
  if p then next s else { s with crashed := true }

def request (s : SchedulerDriver) : RegistrationRequest :=
  { sourceId := some ("urb.endpoint." ++ s.endpointId), framework := s.framework }

/-! ## Registration -/

def startRegistration (s : SchedulerDriver) : SchedulerDriver :=
  { s with registrationTimers := s.registrationTimers + 1 }

def doReliableRegistration (fails : Bool) (s : SchedulerDriver) : SchedulerDriver :=
  if s.connected || s.master = "" then s
  else if s.aborted then { s with aborted := false, connected := true }
  else if fails then s.startRegistration
  else s.send (.registration (driverCall s.failover s.request))

def registered (frameworkId : String) (s : SchedulerDriver) : SchedulerDriver :=
  if s.aborted then s
  else if s.connected then s
  else
    { s with
      framework := { s.framework with id := some frameworkId }
      connected := true
      failover := false }.invoke (.registered frameworkId)

def reregistered (frameworkId : String) (s : SchedulerDriver) : SchedulerDriver :=
  if s.aborted then s
  else if s.connected then s
  else
    s.check (s.framework.id.getD "" = frameworkId) fun s =>
      { s with connected := true, failover := false }.invoke .reregistered

/-! ## Messages -/

def notify (c : Callback) (s : SchedulerDriver) : SchedulerDriver :=
  if s.aborted then s
  else if !s.connected then s
  else s.check (s.master ≠ "") (·.invoke c)

def resourceOffers (offerIds : List String) : SchedulerDriver → SchedulerDriver :=
  notify (.resourceOffers offerIds)

def rescindOffer (offerId : String) : SchedulerDriver → SchedulerDriver :=
  notify (.offerRescinded offerId)

def lostSlave (slaveId : String) : SchedulerDriver → SchedulerDriver :=
  notify (.slaveLost slaveId)

def frameworkMessage (data : String) (s : SchedulerDriver) : SchedulerDriver :=
  if s.aborted then s else s.invoke (.frameworkMessage data)

def statusUpdate (from' : String) (update : DriverUpdate) (s : SchedulerDriver) : SchedulerDriver :=
  if s.aborted then s
  else if from' ≠ "" ∧ !s.connected then s
  else
    s.check (update.frameworkId.getD "" = s.framework.id.getD "") fun s =>
      (s.push (.acknowledge update)).invoke (.statusUpdate update.taskId update.state)

def acknowledge (update : DriverUpdate) (s : SchedulerDriver) : SchedulerDriver :=
  let slaveId := (update.slaveId <|> update.statusSlaveId).getD ""
  let s := if s.aborted then s else s.send (.acknowledge update.taskId slaveId update.uuid)
  { s with activeTasks :=
      match update.state with
      | .finished | .failed | .killed | .lost => s.activeTasks.erase update.taskId
      | state => s.activeTasks.insert update.taskId state }

/-! ## Calls -/

def start (s : SchedulerDriver) : SchedulerDriver :=
  match s.status with
  | .notStarted =>
    { s with reconcileTimers := 1, status := .running, silenced := false }.startRegistration
  | .stopped => { s with status := .running, silenced := false }.startRegistration
  | _ => { s with status := .running, silenced := false }

def stopProcess (failover : Bool) (s : SchedulerDriver) : SchedulerDriver :=
  if s.connected && !failover then
    s.check (s.master ≠ "") fun s => { s.send .unregister with connected := false }
  else s

def stop (failover : Bool) (s : SchedulerDriver) : SchedulerDriver :=
  if s.status = .running ∨ s.status = .aborted then
    { s.stopProcess failover with status := .stopped }
  else s

def abortProcess (s : SchedulerDriver) : SchedulerDriver :=
  if !s.connected then s
  else s.check (s.master ≠ "") fun s =>
    { s.send .deactivate with connected := false, aborted := true }

def abort (s : SchedulerDriver) : SchedulerDriver :=
  if s.status = .running then { s.abortProcess with status := .aborted, silenced := true } else s

def error (message : String) (s : SchedulerDriver) : SchedulerDriver :=
  if s.aborted then s
  else if s.abort.crashed then s.abort
  else s.abort.invoke (.error message)

def forward (m : ToMaster) (s : SchedulerDriver) : SchedulerDriver :=
  if !s.connected then s else s.check (s.master ≠ "") (·.send m)

def acknowledgeStatusUpdate (status : DriverTaskStatus) (s : SchedulerDriver) : SchedulerDriver :=
  if !s.connected then s
  else s.check (s.master ≠ "") fun s =>
    match status.uuid, status.slaveId with
    | some uuid, some slaveId => s.send (.acknowledge status.taskId slaveId uuid)
    | _, _ => s

def launchTasks (offerIds : List String) (tasks : List DriverTask) (s : SchedulerDriver) :
    SchedulerDriver :=
  if !s.connected then s.push (.lost tasks) else s.push (.launch offerIds tasks [])

def checkReconcile (s : SchedulerDriver) : SchedulerDriver :=
  let staging := (s.activeTasks.entries.filter (fun e => e.2 = .staging)).map (·.1)
  let s := if staging = [] then s else s.forward (.reconcileTasks staging)
  { s with reconcileTimers := s.reconcileTimers + 1 }

def refuses (t : DriverTask) (s : SchedulerDriver) : Bool :=
  t.hasExecutor = t.hasCommand ||
    (t.hasExecutor && t.executorFrameworkId.isSome && t.executorFrameworkId.getD "" ≠ s.framework.id.getD "")

def lose (t : DriverTask) (s : SchedulerDriver) : SchedulerDriver :=
  { s with uuids := s.uuids + 1 }.statusUpdate ""
    { frameworkId := s.framework.id, taskId := t.taskId, state := .lost, uuid := .driver s.uuids }

def runFrame (s : SchedulerDriver) : DriverFrame → SchedulerDriver
  | .accept _ [] => s
  | .accept offerIds (operation :: operations) =>
    let s := s.push (.accept offerIds operations)
    -- only LAUNCH operations are supported
    operation.elim s (fun tasks => s.launchTasks offerIds tasks)
  | .lost [] => s
  | .lost (t :: tasks) => (s.push (.lost tasks)).lose t
  | .launch offerIds [] result =>
    s.check (s.master ≠ "") (·.send (.launchTasks offerIds (result.map (·.taskId))))
  | .launch offerIds (t :: tasks) result =>
    if s.refuses t then (s.push (.launch offerIds tasks result)).lose t
    else
      { s with activeTasks := s.activeTasks.insert t.taskId .staging }.push
        (.launch offerIds tasks (result ++ [t]))
  | .acknowledge update => s.acknowledge update

def resume (s : SchedulerDriver) : SchedulerDriver :=
  match s.frames with
  | [] => s
  | f :: frames => { s with frames := frames }.runFrame f

def onInput (s : SchedulerDriver) : FromMaster → SchedulerDriver
  | .registered frameworkId => s.registered frameworkId
  | .reregistered frameworkId => s.reregistered frameworkId
  | .resourceOffers offerIds => s.resourceOffers offerIds
  | .rescindOffer offerId => s.rescindOffer offerId
  | .statusUpdate update => s.statusUpdate s.master update
  | .lostSlave slaveId => s.lostSlave slaveId
  | .executorToFramework data => s.frameworkMessage data
  | .error message => s.error message
  | .serviceDisconnected => s.send (.registration (.reregister s.request))
  | .unknown => s

def brokerError (s : SchedulerDriver) : SchedulerDriver :=
  { s with connected := false }.startRegistration

/-! ## The system -/

inductive Event where
  | start
  | stop (failover : Bool)
  | abort
  | launchTasks (offerIds : List String) (tasks : List DriverTask)
  | acceptOffers (offerIds : List String) (operations : List (Option (List DriverTask)))
  | killTask (taskId : String)
  | requestResources
  | reviveOffers
  | suppressOffers
  | acknowledgeStatusUpdate (status : DriverTaskStatus)
  | sendFrameworkMessage (data : String)
  | reconcileTasks (taskIds : List String)
  | resume
  | input (m : FromMaster)
  | brokerError
  | registrationTimer (fails : Bool)
  | reconcileTimer

def whenRunning (f : SchedulerDriver → SchedulerDriver) (s : SchedulerDriver) : SchedulerDriver :=
  if s.status = .running then f s else s

def whenStarted (f : SchedulerDriver → SchedulerDriver) (s : SchedulerDriver) : SchedulerDriver :=
  if s.status = .notStarted then s else f s

def act (s : SchedulerDriver) : Event → SchedulerDriver
  | .start => s.start
  | .stop failover => s.stop failover
  | .abort => s.abort
  | .launchTasks offerIds tasks => s.whenRunning (launchTasks offerIds tasks)
  | .acceptOffers offerIds operations => s.whenRunning (push (.accept offerIds operations))
  | .killTask taskId => s.whenRunning (forward (.killTask taskId))
  | .requestResources => s.whenRunning (forward .requestResources)
  | .reviveOffers => s.whenRunning (forward .reviveOffers)
  | .suppressOffers => s
  | .acknowledgeStatusUpdate status => s.whenRunning (acknowledgeStatusUpdate status)
  | .sendFrameworkMessage data => s.whenRunning (forward (.frameworkMessage data))
  | .reconcileTasks taskIds => s.whenRunning (forward (.reconcileTasks taskIds))
  | .resume => s.resume
  | .input m => s.whenStarted (·.onInput m)
  | .brokerError => s.whenStarted brokerError
  | .registrationTimer fails =>
    if s.registrationTimers = 0 then s
    else { s with registrationTimers := s.registrationTimers - 1 }.doReliableRegistration fails
  | .reconcileTimer =>
    if s.reconcileTimers = 0 then s
    else { s with reconcileTimers := s.reconcileTimers - 1 }.checkReconcile

def step (s : SchedulerDriver) (e : Event) : SchedulerDriver := if s.crashed then s else s.act e

/-! ## What a step can do -/

def inCallback (s : SchedulerDriver) : List DriverUpdate := s.frames.filterMap DriverFrame.update

def ToMaster.acknowledged : ToMaster → Option Uuid
  | .acknowledge _ _ uuid => some uuid
  | _ => none

def acks (s : SchedulerDriver) : List Uuid := s.sent.filterMap ToMaster.acknowledged

def ends (s : SchedulerDriver) : Option DriverUpdate :=
  match s.frames with
  | .acknowledge update :: _ => if s.aborted then none else some update
  | _ => none

def passes (s : SchedulerDriver) (status : DriverTaskStatus) : Option Uuid :=
  if s.status = .running ∧ s.connected = true ∧ s.master ≠ "" ∧ status.slaveId.isSome = true then
    status.uuid
  else none

def written (s : SchedulerDriver) (e : Event) : Option Uuid :=
  if s.crashed then none
  else match e with
    | .resume => s.ends.map (·.uuid)
    | .acknowledgeStatusUpdate status => s.passes status
    | _ => none

def accepts (s : SchedulerDriver) : Event → Option String
  | .resume =>
    match s.frames with
    | .launch _ (t :: _) _ :: _ => if s.refuses t then none else some t.taskId
    | _ => none
  | _ => none

def subject (s : SchedulerDriver) : Event → Option String
  | .resume =>
    match s.frames with
    | .launch _ (t :: _) _ :: _ => some t.taskId
    | .lost (t :: _) :: _ => some t.taskId
    | _ => none
  | .input (.statusUpdate update) => some update.taskId
  | _ => none

def Event.writesFlags : Event → Bool
  | .start | .stop _ | .abort | .brokerError | .registrationTimer _ => true
  | .input (.registered _) | .input (.reregistered _) | .input (.error _) => true
  | _ => false

/-- What the results about the driver speak of. -/
structure DriverView where
  status : DriverStatus
  connected : Bool
  aborted : Bool
  registrationTimers : ℕ
  master : String
  silenced : Bool
  activeTasks : Dict String TaskState
  inCallback : List DriverUpdate
  sent : List ToMaster
  callbacks : List (Callback × Bool)

def view (s : SchedulerDriver) : DriverView :=
  ⟨s.status, s.connected, s.aborted, s.registrationTimers, s.master, s.silenced, s.activeTasks,
    s.inCallback, s.sent, s.callbacks⟩

inductive Effect (s s' : SchedulerDriver) : Prop where
  | quiet (h : s'.view = s.view)
  | sent {m : ToMaster} (hm : ToMaster.acknowledged m = none) (h : s'.view = (s.send m).view)
  | called {c : Callback} (ha : s.aborted = false) (hc : ∀ taskId state, c ≠ .statusUpdate taskId state)
      (h : s'.view = (s.invoke c).view)

/-- No task is accepted, reported or acknowledged. -/
structure Untold (s s' : SchedulerDriver) : Prop where
  activeTasks : s'.activeTasks = s.activeTasks
  inCallback : s'.inCallback = s.inCallback
  acks : s'.acks = s.acks
  callbacks : s'.callbacks = s.callbacks ∨
    ∃ c, s'.callbacks = c :: s.callbacks ∧ ∀ taskId state, c.1 ≠ .statusUpdate taskId state

/-- The kinds of steps. -/
inductive Move (s : SchedulerDriver) (e : Event) (s' : SchedulerDriver) : Prop where
  | plain (ha : s.accepts e = none) (hw : s.written e = none) (h : Effect s s')
  | flags (he : e.writesFlags = true) (ha : s.accepts e = none) (hw : s.written e = none)
      (h : Untold s s')
  | reported {u : DriverUpdate} (ha : s.accepts e = none) (hw : s.written e = none)
      (hs : s.subject e = some u.taskId) (hl : s.aborted = false)
      (h : s'.view = ((s.push (.acknowledge u)).invoke (.statusUpdate u.taskId u.state)).view)
  | accepted {taskId : String} (ha : s.accepts e = some taskId) (hw : s.written e = none)
      (hs : s.subject e = some taskId)
      (h : s'.view = { s with activeTasks := s.activeTasks.insert taskId .staging }.view)
  | returned {u : DriverUpdate} {frames : List DriverFrame} (ha : s.accepts e = none)
      (he : e = .resume) (hf : s.frames = .acknowledge u :: frames)
      (h : s'.view = ({ s with frames := frames }.acknowledge u).view)
  | acknowledged {status : DriverTaskStatus} {slaveId : String} {uuid : Uuid}
      (ha : s.accepts e = none) (he : e = .acknowledgeStatusUpdate status)
      (hp : s.passes status = some uuid)
      (h : s'.view = (s.send (.acknowledge status.taskId slaveId uuid)).view)

variable {s t s' : SchedulerDriver} {e : Event}

lemma effect_ite {p : Prop} [Decidable p] {a b : SchedulerDriver} (ha : p → Effect s a)
    (hb : ¬p → Effect s b) : Effect s (if p then a else b) :=
  iteInduction (motive := Effect s) ha hb

lemma effect_check {p : Prop} [Decidable p] {next : SchedulerDriver → SchedulerDriver}
    (ht : t.view = s.view) (h : Effect s (next t)) : Effect s (t.check p next) :=
  effect_ite (fun _ => h) fun _ => .quiet ht

lemma effect_whenRunning {f : SchedulerDriver → SchedulerDriver} (h : Effect s (f s)) :
    Effect s (s.whenRunning f) :=
  effect_ite (fun _ => h) fun _ => .quiet rfl

lemma effect_unlessAborted {a : SchedulerDriver} (h : s.aborted = false → Effect s a) :
    Effect s (if s.aborted then s else a) :=
  effect_ite (fun _ => .quiet rfl) fun ha => h (eq_false_iff.mpr ha)

lemma effect_notify {c : Callback} (hc : ∀ taskId state, c ≠ .statusUpdate taskId state) :
    Effect s (s.notify c) :=
  effect_unlessAborted fun ha => effect_ite (fun _ => .quiet rfl) fun _ =>
    effect_check rfl (.called ha hc rfl)

lemma effect_forward {m : ToMaster} (hm : ToMaster.acknowledged m = none) : Effect s (s.forward m) :=
  effect_ite (fun _ => .quiet rfl) fun _ => effect_check rfl (.sent hm rfl)

lemma effect_launchTasks (ht : t.view = s.view) (offerIds : List String) (tasks : List DriverTask) :
    Effect s (t.launchTasks offerIds tasks) :=
  effect_ite (fun _ => .quiet ht) fun _ => .quiet ht

lemma effect_checkReconcile : Effect s s.checkReconcile := by
  unfold checkReconcile
  have hasked (staging : List String) :
      Effect s (if staging = [] then s else s.forward (.reconcileTasks staging)) :=
    effect_ite (fun _ => .quiet rfl) fun _ => effect_forward rfl
  -- the timer that is set again is not in the view
  cases hasked ((s.activeTasks.entries.filter (fun e => e.2 = .staging)).map (·.1)) with
  | quiet h => exact .quiet h
  | sent hm h => exact .sent hm h
  | called ha hc h => exact .called ha hc h

lemma written_none (h : (match e with
      | .resume => s.ends.map (·.uuid)
      | .acknowledgeStatusUpdate status => s.passes status
      | _ => none) = none) : s.written e = none := by
  simp [written, h]

lemma move_statusUpdate {u : DriverUpdate} (ht : t.view = s.view) (ha : s.accepts e = none)
    (hw : s.written e = none) (hs : s.subject e = some u.taskId) (from' : String) :
    Move s e (t.statusUpdate from' u) := by
  have haborted : t.aborted = s.aborted := congrArg DriverView.aborted ht
  unfold statusUpdate check
  split_ifs with h
  · exact .plain ha hw (.quiet ht)
  · exact .plain ha hw (.quiet ht)
  · exact .reported ha hw hs (eq_false_iff.mpr (haborted ▸ h)) (congrArg (fun v : DriverView =>
      { v with
        inCallback := u :: v.inCallback
        callbacks := (.statusUpdate u.taskId u.state, v.silenced) :: v.callbacks }) ht)
  · exact .plain ha hw (.quiet ht)

lemma move_lose {task : DriverTask} (ht : t.view = s.view) (ha : s.accepts e = none)
    (hw : s.written e = none) (hs : s.subject e = some task.taskId) : Move s e (t.lose task) :=
  move_statusUpdate (t := { t with uuids := t.uuids + 1 })
    (u := { frameworkId := t.framework.id, taskId := task.taskId, state := .lost, uuid := .driver t.uuids })
    ht ha hw hs ""

lemma view_send (ht : t.view = s.view) (m : ToMaster) : (t.send m).view = (s.send m).view :=
  congrArg (fun v : DriverView => { v with sent := m :: v.sent }) ht

lemma view_pop {f : DriverFrame} {frames : List DriverFrame} (hframes : s.frames = f :: frames)
    (hf : f.update = none) : { s with frames := frames }.view = s.view := by
  simp [view, inCallback, hframes, hf]

lemma move_launch {offerIds : List String} {tasks result : List DriverTask}
    {frames : List DriverFrame} (hframes : s.frames = .launch offerIds tasks result :: frames) :
    Move s .resume ({ s with frames := frames }.runFrame (.launch offerIds tasks result)) := by
  have hview := view_pop hframes rfl
  have hw : s.written .resume = none := written_none (by simp [ends, hframes])
  cases tasks with
  | nil =>
    exact .plain (by simp [accepts, hframes]) hw (effect_check hview (.sent rfl (view_send hview _)))
  | cons t tasks =>
    have hs : s.subject .resume = some t.taskId := by simp [subject, hframes]
    by_cases hrefused : s.refuses t
    · have hrun : { s with frames := frames }.runFrame (.launch offerIds (t :: tasks) result) = _ :=
        if_pos hrefused
      rw [hrun]
      exact move_lose hview (by simp [accepts, hframes, hrefused]) hw hs
    · have hrun : { s with frames := frames }.runFrame (.launch offerIds (t :: tasks) result) = _ :=
        if_neg hrefused
      rw [hrun]
      exact .accepted (by simp [accepts, hframes, hrefused]) hw hs (congrArg (fun v : DriverView =>
        { v with activeTasks := v.activeTasks.insert t.taskId .staging }) hview)

lemma move_resume : Move s .resume s.resume := by
  cases hframes : s.frames with
  | nil =>
    rw [resume, hframes]
    exact .plain (by simp [accepts, hframes]) (written_none (by simp [ends, hframes])) (.quiet rfl)
  | cons f frames =>
    rw [resume, hframes]
    cases f with
    | accept offerIds operations =>
      have hview := view_pop hframes rfl
      refine .plain (by simp [accepts, hframes]) (written_none (by simp [ends, hframes])) ?_
      cases operations with
      | nil => exact .quiet hview
      | cons operation operations =>
        cases operation with
        | none => exact .quiet hview
        | some tasks => 
            exact effect_launchTasks (t := { s with frames := .accept offerIds operations :: frames })
              hview offerIds tasks
    | lost tasks =>
      have hview := view_pop hframes rfl
      have ha : s.accepts .resume = none := by simp [accepts, hframes]
      have hw : s.written .resume = none := written_none (by simp [ends, hframes])
      cases tasks with
      | nil => exact .plain ha hw (.quiet hview)
      | cons t tasks => exact move_lose hview ha hw (by simp [subject, hframes])
    | launch offerIds tasks result => exact move_launch hframes
    | acknowledge u => exact .returned (by simp [accepts, hframes]) rfl hframes rfl

lemma move_acknowledgeStatusUpdate (status : DriverTaskStatus) :
    Move s (.acknowledgeStatusUpdate status) (s.whenRunning (acknowledgeStatusUpdate status)) := by
  by_cases h : s.status = .running ∧ s.connected ∧ s.master ≠ ""
  · obtain ⟨hr, hc, hm⟩ := h
    rw [whenRunning, if_pos hr, acknowledgeStatusUpdate, if_neg (by simp [hc]), check, if_pos hm]
    split
    · rename_i uuid slaveId hu hs
      exact .acknowledged rfl rfl (by simp [passes, hr, hc, hm, hs, hu]) rfl
    · refine .plain rfl (written_none ?_) (.quiet rfl)
      cases hu : status.uuid <;> cases hs : status.slaveId <;> simp_all [passes]
  · refine .plain rfl (written_none (if_neg fun hp => h ⟨hp.1, hp.2.1, hp.2.2.1⟩)) ?_
    refine effect_ite (fun hr => effect_ite (fun _ => .quiet rfl) fun hc => ?_) fun _ => .quiet rfl
    rw [check, if_neg fun hm => h ⟨hr, by simpa using hc, hm⟩]
    exact .quiet rfl

lemma Untold.refl (s : SchedulerDriver) : Untold s s := ⟨rfl, rfl, rfl, .inl rfl⟩

lemma untold_ite {p : Prop} [Decidable p] {a b : SchedulerDriver} (ha : p → Untold s a)
    (hb : ¬p → Untold s b) : Untold s (if p then a else b) :=
  iteInduction (motive := Untold s) ha hb

lemma callbacks_abort (s : SchedulerDriver) : s.abort.callbacks = s.callbacks := by
  unfold abort abortProcess check
  split_ifs <;> rfl

lemma untold_abort : Untold s s.abort := by
  unfold abort abortProcess check
  split_ifs <;> exact ⟨rfl, rfl, rfl, .inl rfl⟩

lemma untold_stop (failover : Bool) : Untold s (s.stop failover) := by
  unfold stop stopProcess check
  split_ifs <;> exact ⟨rfl, rfl, rfl, .inl rfl⟩

lemma untold_error (message : String) : Untold s (s.error message) := by
  have habort : Untold s s.abort := untold_abort
  refine untold_ite (fun _ => .refl s) fun _ => untold_ite (fun _ => habort) fun _ => ?_
  exact ⟨habort.activeTasks, habort.inCallback, habort.acks,
    .inr ⟨_, congrArg (_ :: ·) (callbacks_abort s), nofun⟩⟩

lemma untold_onInput {m : FromMaster} (hm : (Event.input m).writesFlags) : Untold s (s.onInput m) := by
  cases m with
  | registered frameworkId =>
    exact untold_ite (fun _ => .refl s) fun _ => untold_ite (fun _ => .refl s) fun _ =>
      ⟨rfl, rfl, rfl, .inr ⟨_, rfl, nofun⟩⟩
  | reregistered frameworkId =>
    exact untold_ite (fun _ => .refl s) fun _ => untold_ite (fun _ => .refl s) fun _ =>
      untold_ite (fun _ => ⟨rfl, rfl, rfl, .inr ⟨_, rfl, nofun⟩⟩) fun _ => ⟨rfl, rfl, rfl, .inl rfl⟩
  | error message => exact untold_error message
  | _ => cases hm

lemma untold_act (he : e.writesFlags) : Untold s (s.act e) := by
  cases e with
  | start =>
    show Untold s s.start
    unfold start
    split <;> exact ⟨rfl, rfl, rfl, .inl rfl⟩
  | stop failover => exact untold_stop failover
  | abort => exact untold_abort
  | input m => exact untold_ite (fun _ => .refl s) fun _ => untold_onInput he
  | brokerError => exact untold_ite (fun _ => .refl s) fun _ => ⟨rfl, rfl, rfl, .inl rfl⟩
  | registrationTimer fails =>
    refine untold_ite (fun _ => .refl s) fun _ => ?_
    unfold doReliableRegistration
    split_ifs <;> exact ⟨rfl, rfl, rfl, .inl rfl⟩
  | _ => cases he

lemma effect_onInput {m : FromMaster} (hm : (Event.input m).writesFlags = false)
    (hu : ∀ u, m ≠ .statusUpdate u) : Effect s (s.onInput m) := by
  cases m with
  | resourceOffers offerIds => exact effect_notify nofun
  | rescindOffer offerId => exact effect_notify nofun
  | lostSlave slaveId => exact effect_notify nofun
  | executorToFramework data => exact effect_unlessAborted fun ha => .called (c := .frameworkMessage data) ha nofun rfl
  | serviceDisconnected => exact .sent rfl rfl
  | unknown => exact .quiet rfl
  | statusUpdate u => exact absurd rfl (hu u)
  | _ => cases hm

lemma move_input (m : FromMaster) : Move s (.input m) (s.act (.input m)) := by
  have hw : s.written (.input m) = none := written_none rfl
  cases hflags : (Event.input m).writesFlags with
  | true => exact .flags hflags rfl hw (untold_act hflags)
  | false =>
    by_cases hstarted : s.status = .notStarted
    · rw [act, whenStarted, if_pos hstarted]
      exact .plain rfl hw (.quiet rfl)
    rw [act, whenStarted, if_neg hstarted]
    cases m with
    | statusUpdate u => exact move_statusUpdate rfl rfl hw rfl s.master
    | _ => exact .plain rfl hw (effect_onInput hflags nofun)

lemma move_act (e : Event) : Move s e (s.act e) := by
  have plain {e : Event} (ha : s.accepts e = none) (hw : s.written e = none)
      {f : SchedulerDriver → SchedulerDriver} (h : Effect s (f s)) : Move s e (s.whenRunning f) :=
    .plain ha hw (effect_whenRunning h)
  cases e with
  | launchTasks offerIds tasks =>
    exact plain rfl (written_none rfl) (effect_launchTasks rfl offerIds tasks)
  | acceptOffers offerIds operations => exact plain rfl (written_none rfl) (.quiet rfl)
  | killTask taskId => exact plain rfl (written_none rfl) (effect_forward rfl)
  | requestResources => exact plain rfl (written_none rfl) (effect_forward rfl)
  | reviveOffers => exact plain rfl (written_none rfl) (effect_forward rfl)
  | suppressOffers => exact .plain rfl (written_none rfl) (.quiet rfl)
  | acknowledgeStatusUpdate status => exact move_acknowledgeStatusUpdate status
  | sendFrameworkMessage data => exact plain rfl (written_none rfl) (effect_forward rfl)
  | reconcileTasks taskIds => exact plain rfl (written_none rfl) (effect_forward rfl)
  | resume => exact move_resume
  | input m => exact move_input m
  | reconcileTimer =>
    refine .plain rfl (written_none rfl) (effect_ite (fun _ => .quiet rfl) fun _ => ?_)
    cases effect_checkReconcile (s := { s with reconcileTimers := s.reconcileTimers - 1 }) with
    | quiet h => exact .quiet h
    | sent hm h => exact .sent hm h
    | called ha hc h => exact .called ha hc h
  | _ => exact .flags rfl rfl (written_none rfl) (untold_act rfl)

/-! ## Silence -/

structure Calm (s s' : SchedulerDriver) : Prop where
  silenced : s'.silenced = s.silenced
  aborted : s'.aborted = s.aborted
  callbacks : s'.callbacks = s.callbacks ∨
    s.aborted = false ∧ ∃ c, s'.callbacks = (c, s.silenced) :: s.callbacks

lemma Calm.of_eq (hs : s'.silenced = s.silenced) (ha : s'.aborted = s.aborted)
    (hc : s'.callbacks = s.callbacks) : Calm s s' := ⟨hs, ha, .inl hc⟩

lemma Calm.of_view (h : s'.view = t.view) (hc : Calm s t) : Calm s s' := by
  have hcallbacks : s'.callbacks = t.callbacks := congrArg DriverView.callbacks h
  exact ⟨(congrArg DriverView.silenced h).trans hc.silenced,
    (congrArg DriverView.aborted h).trans hc.aborted, hcallbacks ▸ hc.callbacks⟩

lemma Effect.calm (h : Effect s s') : Calm s s' := by
  cases h with
  | quiet h => exact .of_view h (.of_eq rfl rfl rfl)
  | sent hm h => exact .of_view h (.of_eq rfl rfl rfl)
  | called ha hc h => exact .of_view h ⟨rfl, rfl, .inr ⟨ha, _, rfl⟩⟩

lemma calm_acknowledge (u : DriverUpdate) : Calm s (s.acknowledge u) := by
  unfold acknowledge
  split_ifs <;> exact .of_eq rfl rfl rfl

lemma calm_stop (failover : Bool) : Calm s (s.stop failover) := by
  unfold stop stopProcess check
  split_ifs <;> exact .of_eq rfl rfl rfl

lemma calm_registered (frameworkId : String) : Calm s (s.registered frameworkId) := by
  unfold registered
  split_ifs with ha
  · exact .of_eq rfl rfl rfl
  · exact .of_eq rfl rfl rfl
  · exact ⟨rfl, rfl, .inr ⟨eq_false_iff.mpr ha, _, rfl⟩⟩

lemma calm_reregistered (frameworkId : String) : Calm s (s.reregistered frameworkId) := by
  unfold reregistered check
  split_ifs with ha
  · exact .of_eq rfl rfl rfl
  · exact .of_eq rfl rfl rfl
  · exact ⟨rfl, rfl, .inr ⟨eq_false_iff.mpr ha, _, rfl⟩⟩
  · exact .of_eq rfl rfl rfl

structure Quiet (s : SchedulerDriver) : Prop where
  aborted : s.crashed = false → s.silenced = true → s.aborted = true
  callbacks : ∀ c ∈ s.callbacks, c.2 = true → ∃ message, c.1 = .error message

def Event.aborts : Event → Bool
  | .abort => true
  | .input (.error _) => true
  | _ => false

def Event.isRegistrationTimer : Event → Bool
  | .registrationTimer _ => true
  | _ => false

def Silencing (s : SchedulerDriver) (e : Event) : Prop :=
  (e.aborts = true → s.status = .running → s.connected = true ∨ s.aborted = true) ∧
    (e.isRegistrationTimer = true → s.silenced = true → s.registrationTimers = 0)

instance (s : SchedulerDriver) (e : Event) : Decidable (s.Silencing e) :=
  inferInstanceAs (Decidable (_ ∧ _))

section

variable (h : s.Quiet)
include h

lemma Quiet.calm (hlive : s.crashed = false) (hs : Calm s s') : s'.Quiet := by
  refine ⟨fun _ hsilenced => ?_, ?_⟩
  · rw [hs.aborted]
    exact h.aborted hlive (hs.silenced ▸ hsilenced)
  · intro c hc hsilenced
    rcases hs.callbacks with heq | ⟨ha, d, heq⟩
    · rw [heq] at hc
      exact h.callbacks c hc hsilenced
    · rw [heq] at hc
      rcases List.mem_cons.mp hc with rfl | hc
      · rw [h.aborted hlive hsilenced] at ha
        cases ha
      · exact h.callbacks c hc hsilenced

lemma Quiet.abort (hs : s.status = .running → s.connected ∨ s.aborted) : s.abort.Quiet := by
  refine ⟨?_, fun c hc => h.callbacks c (callbacks_abort s ▸ hc)⟩
  by_cases hrunning : s.status = .running
  · intro hcrashed _
    rw [SchedulerDriver.abort, if_pos hrunning] at hcrashed ⊢
    cases hc : s.connected with
    | true =>
      by_cases hm : s.master ≠ ""
      · simp [abortProcess, hc, check, hm]
      · simp [abortProcess, hc, check, hm] at hcrashed
    | false =>
      have ha : s.aborted := (hs hrunning).resolve_left (by simp [hc])
      simp [abortProcess, hc, ha]
  · rw [SchedulerDriver.abort, if_neg hrunning]
    exact h.aborted

lemma Quiet.start : s.start.Quiet := by
  refine ⟨fun _ hs => ?_, fun c hc => h.callbacks c ?_⟩
  · unfold SchedulerDriver.start at hs
    split at hs <;> cases hs
  · unfold SchedulerDriver.start at hc
    split at hc <;> exact hc

lemma Quiet.error (hs : s.status = .running → s.connected ∨ s.aborted)
    (message : String) : (s.error message).Quiet := by
  have habort := h.abort hs
  rw [SchedulerDriver.error]
  split_ifs with ha hcrashed
  · exact h
  · exact habort
  · refine ⟨habort.aborted, ?_⟩
    intro c hc hsilenced
    rcases List.mem_cons.mp hc with rfl | hc
    · exact ⟨message, rfl⟩
    · exact habort.callbacks c hc hsilenced

lemma Quiet.registrationTimer (hs : s.silenced → s.registrationTimers = 0) (fails : Bool) :
    (s.act (.registrationTimer fails)).Quiet := by
  by_cases htimers : s.registrationTimers = 0
  · rw [act, if_pos htimers]
    exact h
  · have hloud : s.silenced = false := eq_false_iff.mpr fun hsilenced => htimers (hs hsilenced)
    rw [act, if_neg htimers]
    refine ⟨fun _ hsilenced => ?_, fun c hc => h.callbacks c ?_⟩
    · have hkept : (doReliableRegistration fails
          { s with registrationTimers := s.registrationTimers - 1 }).silenced = s.silenced := by
        unfold doReliableRegistration
        split_ifs <;> rfl
      rw [hkept, hloud] at hsilenced
      cases hsilenced
    · unfold doReliableRegistration at hc
      split_ifs at hc <;> exact hc

lemma Quiet.flags (hlive : s.crashed = false) (he : s.Silencing e) (hflags : e.writesFlags) :
    (s.act e).Quiet := by
  cases e with
  | start => exact h.start
  | abort => exact h.abort (he.1 rfl)
  | stop failover => exact h.calm hlive (calm_stop failover)
  | registrationTimer fails => exact h.registrationTimer (he.2 rfl) fails
  | brokerError =>
    show (if s.status = .notStarted then s else s.brokerError).Quiet
    split_ifs
    · exact h
    · exact h.calm hlive (.of_eq rfl rfl rfl)
  | input m =>
    by_cases hstarted : s.status = .notStarted
    · rw [SchedulerDriver.act, whenStarted, if_pos hstarted]
      exact h
    rw [SchedulerDriver.act, whenStarted, if_neg hstarted]
    cases m with
    | registered frameworkId => exact h.calm hlive (calm_registered frameworkId)
    | reregistered frameworkId => exact h.calm hlive (calm_reregistered frameworkId)
    | error message => exact h.error (he.1 rfl) message
    | _ => cases hflags
  | _ => cases hflags

lemma Quiet.act (hlive : s.crashed = false) (he : s.Silencing e) : (s.act e).Quiet := by
  cases move_act (s := s) e with
  | plain ha hw heffect => exact h.calm hlive heffect.calm
  | flags hflags ha hw htold => exact h.flags hlive he hflags
  | reported ha hw hs hl hview => exact h.calm hlive (.of_view hview ⟨rfl, rfl, .inr ⟨hl, _, rfl⟩⟩)
  | accepted ha hw hs hview => exact h.calm hlive (.of_view hview (.of_eq rfl rfl rfl))
  | returned ha hr hf hview =>
    have hcalm := Calm.of_view hview (calm_acknowledge _)
    exact h.calm hlive ⟨hcalm.silenced, hcalm.aborted, hcalm.callbacks⟩
  | acknowledged ha hr hp hview => exact h.calm hlive (.of_view hview (.of_eq rfl rfl rfl))

lemma Quiet.step (he : s.Silencing e) : (s.step e).Quiet := by
  cases hcrashed : s.crashed with
  | true =>
    rw [SchedulerDriver.step, if_pos hcrashed]
    exact h
  | false =>
    rw [SchedulerDriver.step, if_neg (by simp [hcrashed])]
    exact h.act hcrashed he

end

theorem abort_silences (endpointId master : String) (framework : FrameworkInfo) (es : List Event)
    (hes : Machine.Guarded step Silencing (new endpointId master framework) es) :
    ∀ c ∈ (Machine.run step (new endpointId master framework) es).callbacks,
      c.2 = true → ∃ message, c.1 = .error message := by
  have hinit : (new endpointId master framework).Quiet :=
    ⟨fun _ hsilenced => absurd hsilenced Bool.false_ne_true, fun c hc => absurd hc List.not_mem_nil⟩
  exact (Machine.run_inv (I := Quiet) (fun _ _ h he => h.step he) hinit hes).callbacks

def sleeper : SchedulerDriver := new "9" "urb://localhost" { name := "sleep" }

theorem abort_silences_registered :
    ∃ es, Machine.Guarded step Silencing sleeper es ∧
      (Machine.run step sleeper es).callbacks =
        [(.resourceOffers ["offer-1"], false), (.registered "framework-9", false)] ∧
      ∀ c ∈ (Machine.run step sleeper es).callbacks, c.2 = true → ∃ message, c.1 = .error message :=
  ⟨[.start, .registrationTimer false, .input (.registered "framework-9"),
      .input (.resourceOffers ["offer-1"]), .abort, .input (.resourceOffers ["offer-2"]),
      .brokerError, .input (.lostSlave "slave-1")],
    by decide +kernel, by decide +kernel,
    abort_silences "9" "urb://localhost" { name := "sleep" } _ (by decide +kernel)⟩

theorem called_back_afterAbort :
    (Machine.run step sleeper
        [.start, .registrationTimer false, .abort, .input (.registered "framework-9")]).callbacks =
      [(.registered "framework-9", true)] ∧
    (Machine.run step sleeper
        [.start, .registrationTimer false, .input (.registered "framework-9"), .abort, .brokerError,
          .registrationTimer false, .input (.resourceOffers ["offer-1"])]).callbacks =
      [(.resourceOffers ["offer-1"], true), (.registered "framework-9", false)] := by
  decide +kernel

end SchedulerDriver

end Urb
