/-
# `Urb.ExecutorDriver` — the driver beside an executor: what it calls back, and when it dies

`MesosExecutorDriver` has a status; the `UrbExecutorProcess` that it makes when it is started
calls the executor back, and looks at its own flags only:

    registered, killTask, shutdown     unless `aborted_`
    launchTask, frameworkMessage       unless `aborted_` or not `connected_`
    error                              a STAGING update, at status RUNNING

A `shutdown` message does not touch the status: after the callback the broker is shut down and
`aborted_` is set (`endShutdown`), and a forked child kills the program a moment later.  The
program also ends (`crashed`) with a failed `CHECK`, and where it writes to a channel that it
has not made yet.

**Proved here.**  An aborted process is silent for good, but for one `error` (`aborted_silent`);
the program dies of nothing but a second start, a message sent before the channel is there,
a task it already has, and its own child (`driver_survives_iff`).
-/
import Urb.ExecutorProcess
import Urb.SchedulerDriver

namespace Urb

inductive ExecutorCallback where
  | registered | reregistered
  | launchTask (taskId : String)
  | killTask (taskId : String)
  | frameworkMessage (data : String)
  | shutdown | error
  deriving DecidableEq

/-- The messages of the executor to the service. -/
inductive ToService where
  | register
  | reregister (message : Reregistration)
  | statusUpdate (taskId : String) (state : TaskState)
  | frameworkMessage (data : String)

/-- The messages of the service to the executor. -/
inductive ToExecutor where
  | registered | reregistered | reconnect
  | runTask (t : TaskInfo)
  | killTask (taskId : String)
  | acknowledgement (taskId : String) (uuid : List UInt8)
  | frameworkMessage (data : String)
  | shutdown | unknown

/-- What becomes of a registration: a bad URL is logged, an exception is tried again. -/
inductive Connects where
  | ok | badUrl | throws
  deriving DecidableEq

structure ExecutorDriver where
  master : Bool := true
  status : DriverStatus := .notStarted
  created : Bool := false
  process : ExecutorProcess := { connected := false }
  timers : ℕ := 0
  channel : Bool := false
  broker : Bool := false
  ending : Bool := false
  forked : Bool := false
  callbacks : List ExecutorCallback := []
  sent : List ToService := []
  crashed : Bool := false

namespace ExecutorDriver

def invoke (c : ExecutorCallback) (d : ExecutorDriver) : ExecutorDriver :=
  { d with callbacks := c :: d.callbacks }

def crash (d : ExecutorDriver) : ExecutorDriver := { d with crashed := true }

/-- `pNotifyChannel_->write`, with no pointer to follow before `createChannels`. -/
def send (m : ToService) (d : ExecutorDriver) : ExecutorDriver :=
  if ¬d.channel then d.crash else if d.broker then { d with sent := m :: d.sent } else d

/-! ## Calls -/

def start (d : ExecutorDriver) : ExecutorDriver :=
  if d.created then d.crash
  else
    { d with
      created := true
      timers := d.timers + 1
      status := if d.status = .notStarted then .running else d.status }

def stop (d : ExecutorDriver) : ExecutorDriver :=
  if d.status ≠ .running ∧ d.status ≠ .aborted then d
  else if ¬d.created then d.crash
  else { d with status := .stopped }

def abort (d : ExecutorDriver) : ExecutorDriver :=
  if d.status ≠ .running then d
  else if ¬d.created then d.crash
  else { d with status := .aborted, process := { d.process with aborted := true } }

def sendStatusUpdate (uuid : List UInt8) (taskId : String) (state : TaskState) (now : ℕ)
    (d : ExecutorDriver) : ExecutorDriver :=
  if d.status ≠ .running then d
  else if ¬d.created then d.crash
  else if state = .staging then d.abort.invoke .error
  else { d with process := d.process.sendStatusUpdate uuid taskId state now }.send
    (.statusUpdate taskId state)

def sendFrameworkMessage (data : String) (d : ExecutorDriver) : ExecutorDriver :=
  if d.status ≠ .running then d
  else if ¬d.created then d.crash
  else d.send (.frameworkMessage data)

/-! ## The process -/

def doReliableRegistration (c : Connects) (d : ExecutorDriver) : ExecutorDriver :=
  if ¬d.master then d
  else match c with
    | .ok => { d with channel := true, broker := true }.send .register
    | .badUrl => { d with channel := true }.send .register
    | .throws => { d with timers := d.timers + 1 }

/-- `registered` and `reregistered`. -/
def connect (c : ExecutorCallback) (d : ExecutorDriver) : ExecutorDriver :=
  if d.process.aborted then d
  else { d with process := { d.process with connected := true } }.invoke c

def reconnect (d : ExecutorDriver) : ExecutorDriver :=
  match d.process.reconnect with
  | none => d
  | some message => d.send (.reregister message)

def runTask (t : TaskInfo) (d : ExecutorDriver) : ExecutorDriver :=
  if d.process.aborted ∨ ¬d.process.connected then d
  else if t.taskId ∈ d.process.tasks then d.crash
  else { d with process := d.process.runTask t }.invoke (.launchTask t.taskId)

def killTask (taskId : String) (d : ExecutorDriver) : ExecutorDriver :=
  if d.process.aborted then d else d.invoke (.killTask taskId)

def frameworkMessage (data : String) (d : ExecutorDriver) : ExecutorDriver :=
  if d.process.aborted ∨ ¬d.process.connected then d else d.invoke (.frameworkMessage data)

def shutdown (d : ExecutorDriver) : ExecutorDriver :=
  if d.process.aborted then d else { d with forked := true, ending := true }.invoke .shutdown

/-- What is left of `shutdown` when the callback has returned. -/
def endShutdown (d : ExecutorDriver) : ExecutorDriver :=
  { d with broker := false, ending := false, process := { d.process with aborted := true } }

def onInput (d : ExecutorDriver) : ToExecutor → ExecutorDriver
  | .registered => d.connect .registered
  | .reregistered => d.connect .reregistered
  | .reconnect => d.reconnect
  | .runTask t => d.runTask t
  | .killTask taskId => d.killTask taskId
  | .acknowledgement taskId uuid =>
    { d with process := d.process.statusUpdateAcknowledgement taskId uuid }
  | .frameworkMessage data => d.frameworkMessage data
  | .shutdown => d.shutdown
  | .unknown => d

/-! ## The system -/

inductive Event where
  | start | stop | abort
  | sendStatusUpdate (uuid : List UInt8) (taskId : String) (state : TaskState) (now : ℕ)
  | sendFrameworkMessage (data : String)
  | registrationTimer (c : Connects)
  | input (m : ToExecutor)
  | endShutdown | kill

def act (d : ExecutorDriver) : Event → ExecutorDriver
  | .start => d.start
  | .stop => d.stop
  | .abort => d.abort
  | .sendStatusUpdate uuid taskId state now => d.sendStatusUpdate uuid taskId state now
  | .sendFrameworkMessage data => d.sendFrameworkMessage data
  -- timers and messages wait for the callback that the event loop is in
  | .registrationTimer c =>
    if d.timers = 0 ∨ d.ending then d else { d with timers := d.timers - 1 }.doReliableRegistration c
  | .input m => if d.broker ∧ ¬d.ending then d.onInput m else d
  | .endShutdown => if d.ending then d.endShutdown else d
  | .kill => if d.forked then d.crash else d

def step (d : ExecutorDriver) (e : Event) : ExecutorDriver := if d.crashed then d else d.act e

/-! ## When the program dies -/

def Fatal (d : ExecutorDriver) : Event → Prop
  | .start => d.created
  | .sendStatusUpdate _ _ state _ => d.status = .running ∧ state ≠ .staging ∧ ¬d.channel
  | .sendFrameworkMessage _ => d.status = .running ∧ ¬d.channel
  | .input (.runTask t) =>
    d.broker ∧ ¬d.ending ∧ d.process.connected ∧ ¬d.process.aborted ∧ t.taskId ∈ d.process.tasks
  | .kill => d.forked
  | _ => False

structure Sound (d : ExecutorDriver) : Prop where
  created : d.status ≠ .notStarted → d.created
  channel : d.broker → d.channel

/-- What is left to come of the callbacks of an aborted process: nothing, or one `error`. -/
structure Silent (d₀ d : ExecutorDriver) : Prop where
  created : d.created
  aborted : d.process.aborted
  running : d.status = .running → d₀.status = .running ∧ d.callbacks = d₀.callbacks
  callbacks : d.callbacks = d₀.callbacks ∨
    d₀.status = .running ∧ d.callbacks = .error :: d₀.callbacks

section

attribute [local grind =] onInput connect reconnect runTask killTask frameworkMessage shutdown
  doReliableRegistration start stop abort sendStatusUpdate sendFrameworkMessage endShutdown
  invoke send crash act Fatal

lemma Sound.act {d : ExecutorDriver} (h : d.Sound) (e : Event) :
    (d.act e).Sound ∧ (d.crashed = false → ((d.act e).crashed = false ↔ ¬d.Fatal e)) := by
  obtain ⟨h₁, h₂⟩ := h
  cases e with
  | registrationTimer c => cases c <;> grind [Sound]
  | input m => cases m <;> grind [Sound]
  | _ => grind [Sound]

lemma onInput_of_aborted {d : ExecutorDriver} (h : d.process.aborted) (m : ToExecutor) :
    d.onInput m = d := by
  cases m with
  | acknowledgement => simp [onInput, ExecutorProcess.statusUpdateAcknowledgement, h]
  | _ => grind [ExecutorProcess.reconnect]

lemma Silent.act {d₀ d : ExecutorDriver} (h : Silent d₀ d) (e : Event) : Silent d₀ (d.act e) := by
  obtain ⟨h₁, h₂, h₃, h₄⟩ := h
  cases e with
  | registrationTimer c => cases c <;> constructor <;> grind
  | input m => constructor <;> grind [onInput_of_aborted h₂ m]
  | sendStatusUpdate => constructor <;> grind [ExecutorProcess.sendStatusUpdate]
  | _ => constructor <;> grind

end

/-! ## Whole runs -/

theorem driver_survives_iff {master : Bool} (es : List Event) :
    (∀ fs, fs <+: es → (Machine.run step { master } fs).crashed = false) ↔
      Machine.Guarded step (fun d e => ¬d.Fatal e) { master } es := by
  have hact : ∀ {d : ExecutorDriver} (e : Event), d.crashed = false → d.step e = d.act e := by
    intro d e hd
    simp [step, hd]
  have hstart : Sound { master } := ⟨by simp, by simp⟩
  refine Machine.prefixes_iff (I := Sound) (Q := (·.crashed = false)) (P := fun _ _ => True) ?_ ?_
    hstart rfl (Machine.guarded_of_forall (fun _ _ => trivial) _ _)
  · intro d e h hd _
    rw [hact e hd]
    exact (h.act e).1
  · intro d e h hd _
    rw [hact e hd]
    exact (h.act e).2 hd

theorem aborted_silent {d : ExecutorDriver} (hc : d.created) (ha : d.process.aborted) (es : List Event) :
    (Machine.run step d es).callbacks = d.callbacks ∨
      d.status = .running ∧ (Machine.run step d es).callbacks = .error :: d.callbacks := by
  have hstep : ∀ d' e, Silent d d' → True → Silent d (d'.step e) := by
    intro d' e h _
    unfold step
    split_ifs
    · exact h
    · exact h.act e
  have h : Silent d d := ⟨hc, ha, fun h => ⟨h, rfl⟩, .inl rfl⟩
  exact (Machine.run_inv hstep h (Machine.guarded_of_forall (fun _ _ => trivial) _ _)).callbacks

theorem aborted_silent_afterAbort :
    (Machine.run step (Machine.run step {} [.start, .abort])
      [.registrationTimer .ok, .input .shutdown, .sendStatusUpdate [1] "t" .staging 0]).callbacks = [] :=
  (aborted_silent rfl rfl _).resolve_right fun h => absurd h.1 (by decide)

end ExecutorDriver

end Urb
