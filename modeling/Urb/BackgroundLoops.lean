/-
# `Urb.BackgroundLoops` — the threads of the service, and errors in them

Five loops run beside the handlers.  Each protects a part of its body:

    JobMonitor.monitor       the body, but not the handler of its own exceptions, which
                             asks for the accounting and calls back
    ChannelMonitor.monitor   the body
    RetryManager.manage      the write of a message, but not the read of the due ones
    MasterElector.elect      every call
    Channel.listen           the read of a message, but not the recovery of lost ones

Each is a `BackgroundLoop`: its calls are the ones to Redis, the adapter and the callbacks, its
data the trackers.

**Proved here.**  For each loop in exactly which runs it ends only when it has been
stopped, and reaches all jobs, channels or messages of every round
(`backgroundLoops_survive_iff`).  The models of the retry manager and of the elector
that have the data of Redis do what these loops do (`Retrying.toLoop_run`,
`Instance.elector_refines_loop`).
-/
import Urb.Basis.Background
import Urb.Election
import Urb.Retries
import Urb.Tracker

namespace Urb

open Machine Nat BackgroundLoop

/-! ## The job monitor -/

structure MonitoredJob extends JobInfo where
  accountingRetrievalCount : ℕ := 0
  statusRetrievalErrorCount : ℕ := 0
  serial : ℕ := 0
  deriving DecidableEq, Repr

/-- `PendingJob` is caught on its own. -/
inductive MonitorException where
  | pendingJob
  | other
  deriving DecidableEq, Repr

inductive MonitorCall where
  | getJobStatus (job : String) (info : MonitoredJob)
  | jobStatusUpdate (job : String) (info : MonitoredJob)
  | getJobAccounting (onError : Bool) (job : String) (info : MonitoredJob) (cnt : ℕ)
  | jobAccountingUpdate (onError : Bool) (job : String) (info : MonitoredJob) (cnt : ℕ)
      (size : Option ℕ)
  | jobDelete (job : String)
  deriving DecidableEq, Repr

def MonitorCall.rank : MonitorCall → ℕ
  | .getJobStatus _ _ => 5
  | .jobStatusUpdate _ _ => 4
  | .getJobAccounting false _ _ _ => 4
  | .jobAccountingUpdate false _ _ _ _ => 3
  | .getJobAccounting true _ _ _ => 2
  | .jobAccountingUpdate true _ _ _ _ => 1
  | .jobDelete _ => 0

namespace JobMonitor

abbrev Jobs := Dict String MonitoredJob

def retrieveJobAccounting (job : String) (info : MonitoredJob) (jobs : Jobs) :
    Jobs × LoopNext String MonitorCall :=
  let cnt := info.accountingRetrievalCount + 1
  (jobs.modify job (fun entry =>
      if entry.serial = info.serial then { entry with accountingRetrievalCount := cnt } else entry),
    .call (.getJobAccounting false job { info with accountingRetrievalCount := cnt } cnt))

def handleJobStatusRetrievalError (job : String) (info : MonitoredJob) (jobs : Jobs) :
    Jobs × LoopNext String MonitorCall :=
  let cnt := info.statusRetrievalErrorCount + 1
  (jobs.modify job (fun entry =>
      if entry.serial = info.serial then { entry with statusRetrievalErrorCount := cnt } else entry),
    .call (.getJobAccounting true job { info with statusRetrievalErrorCount := cnt } cnt))

def afterAccounting (maxCount : ℕ) (job : String) (cnt size : ℕ) (jobs : Jobs) :
    Jobs × LoopNext String MonitorCall :=
  if size > 0 ∨ cnt > maxCount then (jobs.erase job, .call (.jobDelete job)) else (jobs, .done)

def caught (job : String) (info : MonitoredJob) (exception : MonitorException) (jobs : Jobs) :
    Jobs × LoopNext String MonitorCall :=
  match exception with
  | .pendingJob => (jobs, .done)
  | .other => handleJobStatusRetrievalError job info jobs

def continued (r : Jobs × LoopNext String MonitorCall) : Jobs × Option (LoopNext String MonitorCall) :=
  (r.1, some r.2)

def returned (maxCount : ℕ) :
    MonitorCall → Option ℕ → Jobs → Jobs × Option (LoopNext String MonitorCall)
  | .getJobStatus job info, _, jobs => (jobs, some (.call (.jobStatusUpdate job info)))
  | .jobStatusUpdate _ _, _, jobs => (jobs, some .done)
  | .getJobAccounting onError job info cnt, size, jobs =>
    (jobs, some (.call (.jobAccountingUpdate onError job info cnt size)))
  | .jobAccountingUpdate _ job _ cnt (some size), _, jobs =>
    continued (afterAccounting maxCount job cnt size jobs)
  | .jobAccountingUpdate false job info _ none, _, jobs => continued (caught job info .other jobs)
  | .jobAccountingUpdate true _ _ _ none, _, jobs => (jobs, none)
  | .jobDelete _, _, jobs => (jobs, some .done)

def raised : MonitorCall → MonitorException → Jobs → Jobs × Option (LoopNext String MonitorCall)
  | .getJobStatus job info, exception, jobs => continued (caught job info exception jobs)
  | .jobStatusUpdate job info, exception, jobs => continued (caught job info exception jobs)
  | .getJobAccounting false job info _, exception, jobs => continued (caught job info exception jobs)
  | .jobAccountingUpdate false job info _ _, exception, jobs =>
    continued (caught job info exception jobs)
  | .getJobAccounting true _ _ _, _, jobs => (jobs, none)
  | .jobAccountingUpdate true _ _ _ _, _, jobs => (jobs, none)
  | .jobDelete _, _, jobs => (jobs, some .done)

section Rank

variable {maxCount : ℕ} {job : String} {info : MonitoredJob} {jobs : Jobs} {c c' : MonitorCall}

lemma rank_caught {e : MonitorException}
    (h : (continued (caught job info e jobs)).2 = some (.call c')) : c'.rank = 2 := by
  cases e with
  | pendingJob => cases h
  | other =>
    cases h
    rfl

lemma rank_afterAccounting {cnt size : ℕ}
    (h : (continued (afterAccounting maxCount job cnt size jobs)).2 = some (.call c')) :
    c'.rank = 0 := by
  unfold afterAccounting at h
  split_ifs at h
  · cases h
    rfl
  · cases h

lemma rank_returned {r : Option ℕ} (h : (returned maxCount c r jobs).2 = some (.call c')) :
    c'.rank < c.rank := by
  match c with
  | .getJobStatus _ _ =>
    cases h
    exact lt_succ_self _
  | .jobStatusUpdate _ _ => cases h
  | .getJobAccounting onError _ _ _ =>
    cases h
    cases onError <;> exact lt_succ_self _
  | .jobAccountingUpdate onError _ _ _ (some _) =>
    rw [rank_afterAccounting h]
    cases onError <;> exact succ_pos _
  | .jobAccountingUpdate false _ _ _ none =>
    rw [rank_caught h]
    exact lt_succ_self _
  | .jobAccountingUpdate true _ _ _ none => cases h
  | .jobDelete _ => cases h

lemma rank_raised {e : MonitorException} (h : (raised c e jobs).2 = some (.call c')) :
    c'.rank < c.rank := by
  match c with
  | .getJobStatus _ _ => exact (rank_caught h).trans_lt (by simp [MonitorCall.rank])
  | .jobStatusUpdate _ _ => exact (rank_caught h).trans_lt (by simp [MonitorCall.rank])
  | .getJobAccounting false _ _ _ => exact (rank_caught h).trans_lt (by simp [MonitorCall.rank])
  | .jobAccountingUpdate false _ _ _ _ => exact (rank_caught h).trans_lt (by simp [MonitorCall.rank])
  | .getJobAccounting true _ _ _ => cases h
  | .jobAccountingUpdate true _ _ _ _ => cases h
  | .jobDelete _ => cases h

end Rank

/-- `monitor`. -/
def monitor (maxCount : ℕ) :
    BackgroundLoop String MonitorCall (Option ℕ) MonitorException Jobs where
  start jobs := (jobs, .items jobs.keys)
  body job jobs :=
    match jobs.lookup job with
    | none => (jobs, .done)
    | some info =>
      if info.monitorJob then (jobs, .call (.getJobStatus job info))
      else retrieveJobAccounting job info jobs
  returns := returned maxCount
  raises := raised
  rank := MonitorCall.rank
  rank_returns _ _ _ _ h := rank_returned h
  rank_raises _ _ _ _ h := rank_raised h

def InHandler : MonitorCall → MonitorException → Prop
  | .getJobAccounting true _ _ _, _ => True
  | .jobAccountingUpdate true _ _ _ _, _ => True
  | _, _ => False

def WithoutLength : MonitorCall → Option ℕ → Prop
  | .jobAccountingUpdate true _ _ _ none, _ => True
  | _, _ => False

lemma returns_eq_none_iff (maxCount : ℕ) (c : MonitorCall) (r : Option ℕ) (jobs : Jobs) :
    ((monitor maxCount).returns c r jobs).2 = none ↔ WithoutLength c r := by
  match c with
  | .getJobStatus _ _ => simp [monitor, returned, WithoutLength]
  | .jobStatusUpdate _ _ => simp [monitor, returned, WithoutLength]
  | .getJobAccounting _ _ _ _ => simp [monitor, returned, WithoutLength]
  | .jobAccountingUpdate _ _ _ _ (some _) => simp [monitor, returned, WithoutLength, continued]
  | .jobAccountingUpdate false _ _ _ none => simp [monitor, returned, WithoutLength, continued]
  | .jobAccountingUpdate true _ _ _ none => simp [monitor, returned, WithoutLength]
  | .jobDelete _ => simp [monitor, returned, WithoutLength]

lemma raises_eq_none_iff (maxCount : ℕ) (c : MonitorCall) (e : MonitorException) (jobs : Jobs) :
    ((monitor maxCount).raises c e jobs).2 = none ↔ InHandler c e := by
  match c with
  | .getJobStatus _ _ => simp [monitor, raised, InHandler, continued]
  | .jobStatusUpdate _ _ => simp [monitor, raised, InHandler, continued]
  | .getJobAccounting false _ _ _ => simp [monitor, raised, InHandler, continued]
  | .jobAccountingUpdate false _ _ _ _ => simp [monitor, raised, InHandler, continued]
  | .getJobAccounting true _ _ _ => simp [monitor, raised, InHandler]
  | .jobAccountingUpdate true _ _ _ _ => simp [monitor, raised, InHandler]
  | .jobDelete _ => simp [monitor, raised, InHandler]

end JobMonitor

/-! ## The channel monitor -/

namespace ChannelMonitor

def channelTtlGracePeriod : ℚ := 180

inductive Call where
  | channelDelete (channel : String)
  | channelValidate (channel : String)
  deriving DecidableEq, Repr

structure Channels where
  now : ℚ := 0
  timeToLive : Dict String ℚ := ∅

/-- `monitor`.  Both callbacks are protected where they are called. -/
def monitor : BackgroundLoop String Call Unit Unit Channels where
  start d := (d, .items d.timeToLive.keys)
  body channel d :=
    match d.timeToLive.lookup channel with
    | none => ({ d with timeToLive := d.timeToLive.erase channel }, .done)
    | some ttl =>
      if d.now > ttl + channelTtlGracePeriod then
        ({ d with timeToLive := d.timeToLive.erase channel }, .call (.channelDelete channel))
      else (d, .call (.channelValidate channel))
  returns _ _ d := (d, some .done)
  raises _ _ d := (d, some .done)
  rank _ := 0
  rank_returns _ _ _ _ h := by cases h
  rank_raises _ _ _ _ h := by cases h

end ChannelMonitor

/-! ## The retry manager -/

namespace RetryManager

/-- The two commands of `pop_score_range`, and the write of a message. -/
inductive Call where
  | zrangebyscore
  | zremrangebyscore (messages : List (Option RetryMessage))
  | write
  deriving DecidableEq

def manage (maxRetryCount : ℕ) :
    BackgroundLoop (Option RetryMessage) Call (List (Option RetryMessage)) Unit Unit where
  start d := (d, .call .zrangebyscore)
  body message d :=
    match message with
    | none => (d, .done)
    | some m => if m.retryCount.getD 0 > maxRetryCount then (d, .done) else (d, .call .write)
  returns
    | .zrangebyscore, messages, d => (d, some (.call (.zremrangebyscore messages)))
    | .zremrangebyscore messages, _, d => (d, some (.items messages))
    | .write, _, d => (d, some .done)
  raises
    | .write, _, d => (d, some .done)
    | _, _, d => (d, none)
  rank
    | .zrangebyscore => 1
    | _ => 0
  rank_returns c r d c' h := by
    cases c with
    | zrangebyscore =>
      cases h
      exact Nat.zero_lt_one
    | zremrangebyscore messages => cases h
    | write => cases h
  rank_raises c e d c' h := by cases c <;> cases h

def Reads : Call → Unit → Prop
  | .write, _ => False
  | _, _ => True

lemma raises_eq_none_iff (maxRetryCount : ℕ) (c : Call) (e : Unit) (d : Unit) :
    ((manage maxRetryCount).raises c e d).2 = none ↔ Reads c e := by
  cases c <;> simp [manage, Reads]

end RetryManager

/-! ## The master elector -/

namespace MasterElector

/-- `were` is whether the service was the master at the start of the round. -/
inductive Call where
  | determineMaster (were : Bool)
  | refreshMaster (were : Bool)
  | elected
  | demoted
  deriving DecidableEq, Repr

structure Config where
  serverId : String
  hasElectedCallback : Bool := true
  hasDemotedCallback : Bool := true

def afterDetermine (cfg : Config) (were : Bool) (master : Option String) : LoopNext Empty Call :=
  if master = some cfg.serverId then .call (.refreshMaster were)
  else if were && cfg.hasDemotedCallback then .call .demoted
  else .done

def afterRefresh (cfg : Config) (were : Bool) : LoopNext Empty Call :=
  if !were && cfg.hasElectedCallback then .call .elected else .done

def Call.rank : Call → ℕ
  | .determineMaster _ => 2
  | .refreshMaster _ => 1
  | _ => 0

lemma rank_afterRefresh {cfg : Config} {were : Bool} {c : Call} (h : afterRefresh cfg were = .call c) :
    c.rank = 0 := by
  unfold afterRefresh at h
  split_ifs at h
  cases h
  rfl

lemma rank_afterDetermine {cfg : Config} {were : Bool} {master : Option String} {c : Call}
    (h : afterDetermine cfg were master = .call c) : c.rank < 2 := by
  unfold afterDetermine at h
  split_ifs at h
  · cases h
    exact lt_succ_self _
  · cases h
    exact succ_pos _

def elect (cfg : Config) : BackgroundLoop Empty Call (Option String) Unit (Option String) where
  start master := (master, .call (.determineMaster (decide (master = some cfg.serverId))))
  body i _ := i.elim
  returns
    | .determineMaster were, master, _ => (master, some (afterDetermine cfg were master))
    | .refreshMaster were, _, master => (master, some (afterRefresh cfg were))
    | _, _, master => (master, some .done)
  raises
    | .refreshMaster were, _, master => (master, some (afterRefresh cfg were))
    | _, _, master => (master, some .done)
  rank := Call.rank
  rank_returns c r d c' h := by
    cases c with
    | determineMaster were => exact rank_afterDetermine (Option.some.inj h)
    | refreshMaster were => exact (rank_afterRefresh (Option.some.inj h)).trans_lt Nat.zero_lt_one
    | elected => cases h
    | demoted => cases h
  rank_raises c e d c' h := by
    cases c with
    | determineMaster were => cases h
    | refreshMaster were => exact (rank_afterRefresh (Option.some.inj h)).trans_lt Nat.zero_lt_one
    | elected => cases h
    | demoted => cases h

end MasterElector

/-! ## The listener of a channel -/

namespace Channel

inductive Call where
  | restoreLostMessages
  | readBlocking
  deriving DecidableEq, Repr

def listen : BackgroundLoop Empty Call Unit Unit Bool where
  start check := (check, .call (if check then .restoreLostMessages else .readBlocking))
  body i _ := i.elim
  returns
    | .restoreLostMessages, _, _ => (false, some (.call .readBlocking))
    | .readBlocking, _, check => (check, some .done)
  raises
    | .restoreLostMessages, _, check => (check, none)
    | .readBlocking, _, check => (check, some .done)
  rank
    | .restoreLostMessages => 1
    | .readBlocking => 0
  rank_returns c r d c' h := by
    cases c with
    | restoreLostMessages =>
      cases h
      exact Nat.zero_lt_one
    | readBlocking => cases h
  rank_raises c e d c' h := by cases c <;> cases h

def Restores (c : Call) (_ : Unit) : Prop := c = .restoreLostMessages

lemma raises_eq_none_iff (c : Call) (e : Unit) (check : Bool) :
    (listen.raises c e check).2 = none ↔ Restores c e := by
  cases c <;> simp [listen, Restores]

end Channel

/-! ## The loops with their data

`Retrying` and `Instance` are the loops of the retry manager and of the elector together with what
they keep in Redis.  What they do the background loops do: the manager in runs in which no call raises,
the elector whatever becomes of its commands. -/

namespace Retrying

/-- The manager as a background loop: the call it is in, and the messages it has not come to. -/
def toLoop (s : Retrying) : LoopState (Option RetryMessage) RetryManager.Call Unit :=
  match s.manager with
  | .top => { data := () }
  | .read _ => { pc := .inCall .zrangebyscore, data := () }
  | .remove _ messages => { pc := .inCall (.zremrangebyscore (messages.map some)), data := () }
  | .write messages => { pc := .between, left := messages.map some, data := () }

lemma toLoop_manage (maxRetryCount : ℕ) (s : Retrying) : ∃ es, (∀ e ∈ es, ∀ x, e ≠ .raises x) ∧
      run (RetryManager.manage maxRetryCount).step s.toLoop es = (s.manage maxRetryCount).toLoop := by
  unfold manage toLoop
  cases s.manager with
  | top => exact ⟨[.go], by simp, rfl⟩
  | read maxTimestamp =>
    exact ⟨[.returns ((Redis.zrangebyscore 0 maxTimestamp s.retryChannel).map some)], by simp, rfl⟩
  | remove maxTimestamp messages => exact ⟨[.returns []], by simp, rfl⟩
  | write messages =>
    cases messages with
    | nil => exact ⟨[.go], by simp, rfl⟩
    | cons m rest =>
      dsimp only [redeliver]
      by_cases hcount : m.retryCount.getD 0 > maxRetryCount
      · refine ⟨[.go], by simp, ?_⟩
        simp [hcount, BackgroundLoop.step, BackgroundLoop.goOn, RetryManager.manage,
          LoopState.continueWith]
      · refine ⟨[.go, .returns []], by simp, ?_⟩
        simp [hcount, BackgroundLoop.step, BackgroundLoop.goOn, RetryManager.manage,
          LoopState.continueWith, LoopState.resume]

end Retrying

def ElectorPc.toLoop (were : Bool) : ElectorPc → LoopPc MasterElector.Call
  | .top => .top
  | .get => .inCall (.determineMaster were)
  | .set => .inCall (.determineMaster were)
  | .reget => .inCall (.determineMaster were)
  | .reply _ => .inCall (.determineMaster were)
  | .refresh => .inCall (.refreshMaster were)
  | .wait => .between
  | .exited => .exited

namespace Instance

/-- The elector of the instance as a background loop. -/
def toLoop (x : Instance) : LoopState Empty MasterElector.Call (Option String) :=
  { flag := x.run, pc := x.pc.toLoop x.wereMaster, data := x.masterBroker }

variable {x : Instance}

lemma toLoop_learn (master : Option String)
    (hpc : x.pc.toLoop x.wereMaster = .inCall (.determineMaster x.wereMaster)) :
    ∃ es, Machine.run (MasterElector.elect { serverId := x.serverId }).step x.toLoop es =
      (x.learn master).toLoop := by
  rw [toLoop, hpc]
  by_cases hmaster : master = some x.serverId
  · refine ⟨[.returns master], ?_⟩
    simp [toLoop, learn, isMaster, hmaster, BackgroundLoop.step, LoopState.resume,
      LoopState.continueWith, MasterElector.elect, MasterElector.afterDetermine, ElectorPc.toLoop]
  · refine ⟨if x.wereMaster then [.returns master, .returns none] else [.returns master], ?_⟩
    cases hwere : x.wereMaster <;>
      simp [toLoop, learn, isMaster, hmaster, hwere, BackgroundLoop.step, LoopState.resume,
        LoopState.continueWith, MasterElector.elect, MasterElector.afterDetermine, ElectorPc.toLoop]

lemma toLoop_command {o : CommandOutcome} {p : ElectorPc}
    (hpc : x.pc.toLoop x.wereMaster = .inCall (.determineMaster x.wereMaster))
    (hp : p.toLoop x.wereMaster = .inCall (.determineMaster x.wereMaster)) :
    ∃ es, Machine.run (MasterElector.elect { serverId := x.serverId }).step x.toLoop es =
      ({ x with pc := if o = .ok then p else .wait } : Instance).toLoop := by
  by_cases ho : o = .ok
  · refine ⟨[], ?_⟩
    rw [Machine.run_nil, if_pos ho, toLoop, toLoop, hpc, hp]
  · refine ⟨[.raises ()], ?_⟩
    rw [if_neg ho, toLoop, hpc]
    rfl

lemma toLoop_elect (now : ℚ) (o : CommandOutcome) (key : Redis.Key String) (x : Instance) :
    ∃ es, Machine.run (MasterElector.elect { serverId := x.serverId }).step x.toLoop es =
      (x.elect now o key).2.toLoop := by
  unfold elect
  cases hpc : x.pc with
  | top =>
    refine ⟨[.go], ?_⟩
    cases hrun : x.run <;>
      simp [toLoop, hpc, hrun, BackgroundLoop.step, goOn, LoopState.continueWith,
        MasterElector.elect, isMaster, ElectorPc.toLoop]
  | get =>
    refine toLoop_command (by rw [hpc]; rfl) ?_
    cases Redis.get key <;> rfl
  | set =>
    refine toLoop_command (by rw [hpc]; rfl) ?_
    split_ifs <;> rfl
  | reget => exact toLoop_command (by rw [hpc]; rfl) rfl
  | reply master => exact toLoop_learn master (by rw [hpc]; rfl)
  | refresh =>
    refine ⟨if x.wereMaster then [.returns none] else [.returns none, .returns none], ?_⟩
    cases hwere : x.wereMaster <;>
      simp [toLoop, hpc, hwere, BackgroundLoop.step, LoopState.resume, LoopState.continueWith,
        MasterElector.elect, MasterElector.afterRefresh, ElectorPc.toLoop]
  | wait =>
    refine ⟨[.go], ?_⟩
    rw [toLoop, hpc]
    rfl
  | exited =>
    refine ⟨[], ?_⟩
    rw [Machine.run_nil]

lemma elect_serverId (now : ℚ) (o : CommandOutcome) (key : Redis.Key String) (x : Instance) :
    (x.elect now o key).2.serverId = x.serverId := by
  unfold elect
  cases x.pc <;> simp only [learn] <;> split_ifs <;> rfl

end Instance

/-! ## Survival -/

theorem backgroundLoops_survive_iff (maxCount maxRetryCount : ℕ) (cfg : MasterElector.Config) :
    (∀ jobs es, (JobMonitor.monitor maxCount).Survives jobs es ↔
      Machine.Guarded (JobMonitor.monitor maxCount).step
        (LoopState.Contained JobMonitor.WithoutLength JobMonitor.InHandler)
        (BackgroundLoop.started jobs) es) ∧
    (∀ es, (RetryManager.manage maxRetryCount).Survives () es ↔
      Machine.Guarded (RetryManager.manage maxRetryCount).step
        (LoopState.Contained (fun _ _ => False) RetryManager.Reads) (BackgroundLoop.started ()) es) ∧
    (∀ es, Channel.listen.Survives true es ↔
      Machine.Guarded Channel.listen.step
        (LoopState.Contained (fun _ _ => False) Channel.Restores) (BackgroundLoop.started true) es) ∧
    (∀ channels es, ChannelMonitor.monitor.Survives channels es) ∧
    (∀ master es, (MasterElector.elect cfg).Survives master es) := by
  refine ⟨?_, ?_, ?_, ?_, ?_⟩
  · exact BackgroundLoop.survives_iff (JobMonitor.returns_eq_none_iff maxCount)
      (JobMonitor.raises_eq_none_iff maxCount)
  · have hreads := RetryManager.raises_eq_none_iff maxRetryCount
    refine BackgroundLoop.survives_iff (fun c r d => ?_) hreads ()
    cases c <;> simp [RetryManager.manage]
  · refine BackgroundLoop.survives_iff (fun c r check => ?_) Channel.raises_eq_none_iff true
    cases c <;> simp [Channel.listen]
  · exact BackgroundLoop.survives_of_caught (fun _ _ _ => Option.some_ne_none _)
      fun _ _ _ => Option.some_ne_none _
  · refine BackgroundLoop.survives_of_caught (fun c r d => ?_) fun c e d => ?_
    · cases c <;> exact Option.some_ne_none _
    · cases c <;> exact Option.some_ne_none _

def twoJobs : JobMonitor.Jobs :=
  AList.insert "1" { frameworkId := "fw", monitorJob := true }
    (AList.insert "2" { frameworkId := "fw", monitorJob := true } ∅)

def accountingFails : List (LoopEvent (Option ℕ) MonitorException JobMonitor.Jobs) :=
  [.go, .go, .raises .other, .raises .other]

theorem jobMonitor_dies :
    ¬ (JobMonitor.monitor 3).Survives twoJobs accountingFails ∧
      let s := Machine.run (JobMonitor.monitor 3).step (BackgroundLoop.started twoJobs) accountingFails
      s.pc = .died ∧ s.flag = true ∧ s.left = ["2"] := by
  have hdied : (Machine.run (JobMonitor.monitor 3).step (BackgroundLoop.started twoJobs)
      accountingFails).pc = .died := by decide +kernel
  have hflag : (Machine.run (JobMonitor.monitor 3).step (BackgroundLoop.started twoJobs)
      accountingFails).flag = true := by decide +kernel
  refine ⟨fun h => ?_, hdied, hflag, by decide +kernel⟩
  have hcleared := (h.kept accountingFails (List.prefix_refl _)).flag (.inr hdied)
  exact absurd (hflag.symm.trans hcleared) (by decide)

end Urb
