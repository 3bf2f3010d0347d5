/-
# `Urb.Rebuild` — the reports of a slave to a service that has been restarted

A service that has been restarted knows none of the slaves.  The slave of
`Urb.SlaveMemory` is made known by the reports of its two processes:

    runner      a fresh slave record; every task it carries gets a RUNNING record
                and is debited
    executor    without a slave record nothing; else every task it carries gets a
                RUNNING record and is debited, and then its updates are replayed: a
                FINISHED or FAILED one credits the slave, and the record goes

So a task that both report is debited twice, and one that the executor reports
again is debited again.

**Proved here.**  What one report makes of the amounts and the records, for
payable tasks (`Awaits.runner`, `Rebuilds.executor`).
-/
import Mathlib.Algebra.BigOperators.Group.List.Lemmas
import Urb.Payable
import Urb.SlaveMemory

namespace Urb

open Block List AList Memory

/-! ## Reports -/

inductive Report where
  | runner
  | executor
  deriving Repr, DecidableEq

def ExecutorUpdate.toStatus (sid : String) (u : ExecutorUpdate) : ℚ × StatusUpdate :=
  (u.timestamp, { taskId := u.taskId, state := u.state, slaveId := some sid })

structure SlavePlace where
  reg : RunnerRegistration
  executorChannel : String

def Memory.event (m : Memory) (place : SlavePlace) : Report → Event
  | .runner => .registerExecutorRunner { place.reg with tasks := m.tracked }
  | .executor => .reregisterExecutor
      { replyTo := place.reg.channel, channel := place.executorChannel, tasks := m.tasks
        updates := m.updates.map (·.toStatus place.reg.slaveId) }

/-! ## The state while the reports come in -/

section Reports

variable {m : Memory} {config : Config} {reg : RunnerRegistration} {owed : String → ℚ}
  {known : String → Prop} {queue : List String} {s : Service}

structure Awaits (m : Memory) (config : Config) (reg : RunnerRegistration) (known : String → Prop)
    (queue : List String) (s : Service) : Prop where
  configured : s.config = config
  active : s.active = true
  foreign : s.foreign = []
  only : ∀ k, k ∈ s.slaveDict → k = reg.slaveId
  records : ∀ tid, tid ∈ s.taskDict ↔ known tid
  infos : ∀ tid r, s.taskDict.lookup tid = some r →
    r.taskInfo ∈ m.received ∧ r.taskInfo.taskId = tid ∧ r.state ≠ .staging
  queued : s.deleteElements = queue.map (.task s.taskDictId)

structure Rebuilds (m : Memory) (config : Config) (reg : RunnerRegistration) (owed : String → ℚ)
    (known : String → Prop) (queue : List String) (s : Service) : Prop
    extends Awaits m config reg known queue s where
  slavesSet : s.slaveDictSet = true
  slave : ∃ slave, s.slaveDict.lookup reg.slaveId = some slave ∧ slave.channel = reg.channel ∧
    slave.isCommandExecutor = false ∧ slave.Stocked config ∧
    ∀ name, slave.amount name = (config.initial name).map (· - owed name)

lemma Rebuilds.congr {owed' : String → ℚ} {known' : String → Prop}
    (h : Rebuilds m config reg owed known queue s) (howed : ∀ name, owed' name = owed name)
    (hknown : ∀ tid, known' tid ↔ known tid) : Rebuilds m config reg owed' known' queue s := by
  obtain rfl : owed' = owed := funext howed
  obtain rfl : known' = known := funext fun tid => propext (hknown tid)
  exact h

namespace Rebuilds

variable (h : Rebuilds m config reg owed known queue s)
include h

lemma send (x : Message) : Rebuilds m config reg owed known queue (s.send x) :=
  ⟨⟨h.configured, h.active, h.foreign, h.only, h.records, h.infos, h.queued⟩, h.slavesSet, h.slave⟩

lemma modifySlave {f : Slave → Slave} (hchannel : ∀ sl, (f sl).channel = sl.channel)
    (hcommand : ∀ sl, (f sl).isCommandExecutor = sl.isCommandExecutor)
    (hports : ∀ sl, (f sl).ports = sl.ports)
    (hamount : ∀ sl name, (f sl).amount name = sl.amount name) :
    Rebuilds m config reg owed known queue (s.modifySlave reg.slaveId f) := by
  obtain ⟨slave, hs, hchan, hcmd, hstock, ham⟩ := h.slave
  refine ⟨⟨h.configured, h.active, h.foreign, fun k hk => h.only k (mem_modify.mp hk), h.records,
    h.infos, h.queued⟩, h.slavesSet, f slave, ?_, ?_, ?_, ⟨?_, fun name => ?_⟩, fun name => ?_⟩
  · exact lookup_modify_of_some hs _
  · rw [hchannel, hchan]
  · rw [hcommand, hcmd]
  · rw [hports]
    exact hstock.ports
  · rw [hamount, hstock.amounts]
  · rw [hamount, ham]

lemma offer : Rebuilds m config reg owed known queue
    (s.modifySlave reg.slaveId (fun sl => { sl with offerable := true })) :=
  h.modifySlave (fun _ => rfl) (fun _ => rfl) (fun _ => rfl) fun _ _ => rfl

lemma slaveByChannel : ∃ slave, s.slaveByChannel reg.channel = some (reg.slaveId, slave) := by
  obtain ⟨slave, hs, hchan, -⟩ := h.slave
  have hmem : (⟨reg.slaveId, slave⟩ : Sigma fun _ : String => Slave) ∈ s.slaveDict.entries :=
    mem_lookup_iff.mp hs
  cases hfind : s.slaveDict.entries.find? (fun e => decide (e.2.channel = reg.channel)) with
  | none =>
    exact absurd (decide_eq_true hchan) (List.find?_eq_none.mp hfind _ hmem)
  | some e =>
    have hkey : e.1 = reg.slaveId := h.only e.1
      (mem_of_lookup (mem_lookup_iff.mpr (mem_of_find?_eq_some hfind)))
    refine ⟨e.2, ?_⟩
    rw [Service.slaveByChannel, hfind, Option.map_some, hkey]

lemma take {t : TaskInfo} (ht : t ∈ m.received) (hpay : t.Payable config) (job : String) :
    let r := debitSlave reg.slaveId t
      (s.putTask t.taskId { taskInfo := t, state := .running, jobId := some job })
    r.2 = .next ∧ Rebuilds m config reg (fun name => owed name + t.need name)
      (fun tid => known tid ∨ tid = t.taskId) queue r.1 := by
  obtain ⟨slave, hs, hchan, hcmd, hstock, ham⟩ := h.slave
  obtain ⟨hnext, hstock'⟩ := debitResources_next hpay hstock
  have hs' : (s.putTask t.taskId { taskInfo := t, state := .running, jobId := some job }
      ).slaveDict.lookup reg.slaveId = some slave := hs
  have hctl := debitResources_sameControl t slave
  simp only [debitSlave, hs']
  refine ⟨hnext, ⟨h.configured, h.active, ?_, fun k hk => h.only k (mem_modify.mp hk),
    fun tid => ?_, fun tid r hr => ?_, h.queued⟩, h.slavesSet, _, ?_, hctl.channel.trans hchan,
    hctl.isCommandExecutor.trans hcmd, hstock', fun name => ?_⟩
  · show s.foreign.filter _ = []
    rw [h.foreign]
    rfl
  · show tid ∈ s.taskDict.insert t.taskId _ ↔ _
    rw [mem_insert, h.records, or_comm]
  · have hr' : (s.taskDict.insert t.taskId { taskInfo := t, state := .running, jobId := some job }
        ).lookup tid = some r := hr
    rcases lookup_insert_cases hr' with ⟨htid, rfl⟩ | ⟨-, hr'⟩
    · exact ⟨ht, htid.symm, by simp⟩
    · exact h.infos tid r hr'
  · exact lookup_modify_of_some hs' _
  · rw [debitResources_amount hnext, ham, Option.map_map]
    congr 1
    funext x
    simp only [Function.comp_apply]
    ring

lemma setState {tid : String} {state : TaskState} (hstate : state ≠ .staging) :
    Rebuilds m config reg owed known queue (s.setTaskState tid state) := by
  refine ⟨⟨h.configured, h.active, h.foreign, h.only, fun x => ?_, fun x r hr => ?_, h.queued⟩,
    h.slavesSet, h.slave⟩
  · exact mem_modify.trans (h.records x)
  · rcases lookup_modify_cases hr with ⟨-, r', hr', rfl⟩ | ⟨-, hr⟩
    · exact ⟨(h.infos x r' hr').1, (h.infos x r' hr').2.1, hstate⟩
    · exact h.infos x r hr

lemma credit {t : TaskInfo} {slave : Slave} (hs : s.slaveDict.lookup reg.slaveId = some slave)
    (hpay : t.Payable config) : (creditResources t slave).2 = .next ∧
      Rebuilds m config reg (fun name => owed name - t.need name) known queue
        (s.modifySlave reg.slaveId (fun _ => (creditResources t slave).1)) := by
  obtain ⟨slave', hs', hchan, hcmd, hstock, ham⟩ := h.slave
  cases hs.symm.trans hs'
  obtain ⟨hnext, hstock'⟩ := creditResources_next hpay hstock
  have hctl := creditResources_sameControl t slave
  refine ⟨hnext, ⟨h.configured, h.active, h.foreign, fun k hk => h.only k (mem_modify.mp hk),
    h.records, h.infos, h.queued⟩, h.slavesSet, _, ?_, hctl.channel.trans hchan,
    hctl.isCommandExecutor.trans hcmd, hstock', fun name => ?_⟩
  · exact lookup_modify_of_some hs _
  · rw [creditResources_amount hnext, ham, Option.map_map]
    congr 1
    funext x
    simp only [Function.comp_apply]
    ring

lemma queueTask (tid : String) :
    Rebuilds m config reg owed known (queue ++ [tid]) (s.queueTask tid) := by
  refine ⟨⟨h.configured, h.active, h.foreign, h.only, h.records, h.infos, ?_⟩, h.slavesSet, h.slave⟩
  rw [Service.queueTask_deleteElements, h.queued, map_append]
  rfl

end Rebuilds

end Reports

def Memory.needOf (m : Memory) (tid name : String) : ℚ :=
  ((m.received.find? (·.taskId = tid)).map (·.need name)).getD 0

lemma Memory.needOf_eq {m : Memory} {t : TaskInfo} (ht : t ∈ m.received) (name : String) :
    m.needOf t.taskId name = t.need name := by
  unfold needOf
  cases hfind : m.received.find? (fun x => decide (x.taskId = t.taskId)) with
  | none => exact absurd (decide_eq_true rfl) (List.find?_eq_none.mp hfind t ht)
  | some x =>
    have hid : x.taskId = t.taskId := by simpa using List.find?_some hfind
    have hx : x = t := inj_on_of_nodup_map m.received_nodup (mem_of_find?_eq_some hfind) ht hid
    rw [hx]
    rfl

def needs (ts : List TaskInfo) (name : String) : ℚ := (ts.map (·.need name)).sum

def creditedIds (us : List StatusUpdate) : List String :=
  (us.filter (fun u => u.state = .finished ∨ u.state = .failed)).map (·.taskId)

section Handlers

variable {m : Memory} {config : Config} {reg : RunnerRegistration} {owed : String → ℚ}
  {known : String → Prop} {queue : List String} {s : Service}

namespace Rebuilds

lemma takeAll {body : TaskInfo → Block Service}
    (hbody : ∀ {owed known s} (t : TaskInfo), t ∈ m.received →
      Rebuilds m config reg owed known queue s → (body t s).2 = .next ∧
      Rebuilds m config reg (fun name => owed name + t.need name)
        (fun tid => known tid ∨ tid = t.taskId) queue (body t s).1) :
    ∀ {ts : List TaskInfo} {owed : String → ℚ} {known : String → Prop} {s : Service},
      (∀ t ∈ ts, t ∈ m.received) → Rebuilds m config reg owed known queue s →
      (forEach body ts s).2 = .next ∧ Rebuilds m config reg (fun name => owed name + needs ts name)
        (fun tid => known tid ∨ tid ∈ ts.map (·.taskId)) queue (forEach body ts s).1
  | [], owed, known, s, _, h =>
    ⟨rfl, h.congr (fun name => by simp [needs]) fun tid => by simp⟩
  | t :: ts, owed, known, s, hts, h => by
    obtain ⟨hnext, hone⟩ := hbody t (hts t mem_cons_self) h
    obtain ⟨hnext', hall⟩ := takeAll hbody (fun x hx => hts x (mem_cons_of_mem t hx)) hone
    rw [forEach_cons, seq_of_next hnext]
    refine ⟨hnext', hall.congr (fun name => ?_) fun tid => ?_⟩
    · simp only [needs, map_cons, sum_cons]
      ring
    · simp only [map_cons, mem_cons, or_assoc]

lemma creditUpdate {u : StatusUpdate} (h : Rebuilds m config reg owed known queue s)
    (hpay : ∀ t ∈ m.received, t.Payable config) (href : u.slaveId = some reg.slaveId)
    (hcredits : u.state = .finished ∨ u.state = .failed) (hknown : known u.taskId) :
    (handleStatusUpdate u s).2 = .next ∧
      Rebuilds m config reg (fun name => owed name - m.needOf u.taskId name) known
        (queue ++ [u.taskId]) (handleStatusUpdate u s).1 := by
  have hstate : u.state ≠ .staging := by
    rcases hcredits with he | he <;> rw [he] <;> simp
  obtain ⟨task, ht⟩ := exists_lookup_of_mem ((h.records u.taskId).mpr hknown)
  obtain ⟨hreceived, hid, -⟩ := h.infos u.taskId task ht
  have hforward : Rebuilds m config reg owed known queue (forwardUpdate u task s) :=
    ((h.send _).setState hstate).send _
  obtain ⟨slave, hs, -, hcmd, -⟩ := hforward.slave
  obtain ⟨hnext, hcredit⟩ := hforward.credit hs (hpay _ hreceived)
  have hfinish : finishOnSlave u.taskId reg.slaveId slave task (forwardUpdate u task s) =
      ((forwardUpdate u task s).modifySlave reg.slaveId
        (fun _ => (creditResources task.taskInfo slave).1), .next) := by
    simp only [finishOnSlave, hcmd, Bool.false_eq_true, if_false, hnext]
  have hsettle : settleUpdate u task (forwardUpdate u task s) =
      seq (finishOnSlave u.taskId reg.slaveId slave task)
        (fun s => (s.queueTask u.taskId, .next)) (forwardUpdate u task s) := by
    have hslave : u.slaveRef task.taskInfo = some reg.slaveId := by rw [StatusUpdate.slaveRef, href]; rfl
    simp only [settleUpdate, hslave, hforward.slavesSet, hs, if_pos hcredits, Bool.not_true,
      Bool.false_eq_true, if_false]
  rw [handleStatusUpdate_known (by rw [h.foreign]; exact not_mem_nil) ht, hsettle,
    seq_of_next (by rw [hfinish]), hfinish]
  refine ⟨rfl, (hcredit.queueTask u.taskId).congr (fun name => ?_) fun _ => .rfl⟩
  rw [← hid, needOf_eq hreceived]

lemma otherUpdate {u : StatusUpdate} (h : Rebuilds m config reg owed known queue s)
    (hstate : u.state ≠ .staging) (hcredits : ¬ (u.state = .finished ∨ u.state = .failed)) :
    (handleStatusUpdate u s).2 = .next ∧
      Rebuilds m config reg owed known queue (handleStatusUpdate u s).1 := by
  have hf : u.taskId ∉ s.foreign := by
    rw [h.foreign]
    exact not_mem_nil
  cases ht : s.taskDict.lookup u.taskId with
  | none =>
    rw [handleStatusUpdate_unknown hf ht]
    exact ⟨rfl, (h.send _).send _⟩
  | some task =>
    have hforward : Rebuilds m config reg owed known queue (forwardUpdate u task s) :=
      ((h.send _).setState hstate).send _
    have hsettle : settleUpdate u task (forwardUpdate u task s) = (forwardUpdate u task s, .next) := by
      simp only [settleUpdate, hforward.slavesSet, if_neg hcredits, Bool.not_true, Bool.false_eq_true,
        if_false]
      split
      · rfl
      · split <;> rfl
    rw [handleStatusUpdate_known hf ht, hsettle]
    exact ⟨rfl, hforward⟩

lemma replay (hpay : ∀ t ∈ m.received, t.Payable config) :
    ∀ {us : List StatusUpdate} {owed : String → ℚ} {queue : List String} {s : Service},
    (∀ u ∈ us, u.slaveId = some reg.slaveId ∧ u.state ≠ .staging ∧
      (u.state = .finished ∨ u.state = .failed → known u.taskId)) →
    Rebuilds m config reg owed known queue s → (forEach handleStatusUpdate us s).2 = .next ∧
    Rebuilds m config reg (fun name => owed name - ((creditedIds us).map (m.needOf · name)).sum) known
      (queue ++ creditedIds us) (forEach handleStatusUpdate us s).1
  | [], owed, queue, s, _, h => by
    rw [show creditedIds [] = [] from rfl, append_nil]
    exact ⟨rfl, h.congr (fun name => by simp) fun _ => .rfl⟩
  | u :: us, owed, queue, s, hus, h => by
    obtain ⟨href, hstate, hknown⟩ := hus u mem_cons_self
    have hrest := fun x hx => hus x (mem_cons_of_mem u hx)
    by_cases hcredits : u.state = .finished ∨ u.state = .failed
    · have hids : creditedIds (u :: us) = u.taskId :: creditedIds us := by
        rw [creditedIds, filter_cons_of_pos (by simpa using hcredits), map_cons]
        rfl
      obtain ⟨hnext, hone⟩ := h.creditUpdate hpay href hcredits (hknown hcredits)
      obtain ⟨hnext', hall⟩ := replay hpay hrest hone
      rw [append_assoc] at hall
      rw [forEach_cons, seq_of_next hnext, hids]
      refine ⟨hnext', hall.congr (fun name => ?_) fun _ => .rfl⟩
      simp only [map_cons, sum_cons]
      ring
    · have hids : creditedIds (u :: us) = creditedIds us := by
        rw [creditedIds, filter_cons_of_neg (by simpa using hcredits)]
        rfl
      obtain ⟨hnext, hone⟩ := h.otherUpdate hstate hcredits
      rw [forEach_cons, seq_of_next hnext, hids]
      exact replay hpay hrest hone

lemma postprocess (h : Rebuilds m config reg owed known queue s) :
    Rebuilds m config reg owed (fun tid => known tid ∧ tid ∉ queue) [] (Urb.postprocess s) := by
  have hkeep : ∀ {β : Type} {f : Service → β},
      (∀ slaves tasks keys offers s, f (Service.setDicts slaves tasks keys offers s) = f s) →
      (∀ s q, f { s with deleteElements := q } = f s) → f (Urb.postprocess s) = f s :=
    fun hdicts hq => postprocess_frame hdicts hq s
  have hslave : ∀ k, (Urb.postprocess s).slaveDict.lookup k = s.slaveDict.lookup k := by
    intro k
    rw [lookup_slaveDict_postprocess, if_neg]
    rw [h.queued]
    simp
  have htask : ∀ k, (Urb.postprocess s).taskDict.lookup k =
      if k ∈ queue then none else s.taskDict.lookup k := by
    intro k
    rw [lookup_taskDict_postprocess, h.queued]
    simp
  obtain ⟨slave, hs, hrest⟩ := h.slave
  refine ⟨⟨(hkeep (fun _ _ _ _ _ => rfl) (fun _ _ => rfl)).trans h.configured,
    (hkeep (fun _ _ _ _ _ => rfl) (fun _ _ => rfl)).trans h.active, ?_, fun k hk => ?_, fun tid => ?_,
    fun tid r hr => ?_, rfl⟩, (hkeep (fun _ _ _ _ _ => rfl) (fun _ _ => rfl)).trans h.slavesSet,
    slave, (hslave _).trans hs, hrest⟩
  · exact eq_nil_of_subset_nil (h.foreign ▸ foreign_postprocess_subset s)
  · obtain ⟨sl, hsl⟩ := exists_lookup_of_mem hk
    exact h.only k (mem_of_lookup ((hslave k).symm.trans hsl))
  · rw [← lookup_isSome, htask, ← h.records, ← lookup_isSome]
    split_ifs with hq
    · simp [hq]
    · simp [hq]
  · rw [htask] at hr
    split_ifs at hr
    exact h.infos tid r hr

end Rebuilds

/-! ## The two reports -/

lemma Awaits.enter (h : Awaits m config reg known queue s)
    (hports : PortRangeUtility.Apart config.ports) (ts : List TaskInfo) :
    Rebuilds m config reg (fun _ => 0) known queue (enterSlave { reg with tasks := ts } s) := by
  refine ⟨⟨h.configured, h.active, h.foreign, fun k hk => ?_, h.records, h.infos, h.queued⟩, rfl,
    initializeSlaveResources s.config reg.host reg.channel, lookup_insert _, rfl, ?_,
    ⟨?_, fun name => ?_⟩, fun name => ?_⟩
  · rcases mem_insert _ |>.mp hk with rfl | hk
    · rfl
    · exact h.only k hk
  · rfl
  · show PortRangeUtility.Apart s.config.ports
    rw [h.configured]
    exact hports
  · rw [h.configured]
    rfl
  · rw [h.configured]
    simp only [sub_zero, Option.map_id']
    rfl

lemma stageTasks_idle (hf : s.foreign = [])
    (hidle : ∀ tid r, s.taskDict.lookup tid = some r → r.state ≠ .staging) (reg : RunnerRegistration) :
    stageTasks reg s = (s.modifySlave reg.slaveId (fun sl => { sl with offerable := true }), .next) := by
  have hloop : ∀ keys : List String,
      forEach (stageTask reg) keys { service := s } = ({ service := s }, .next) := by
    intro keys
    induction keys with
    | nil => rfl
    | cons tid keys ih =>
      have hone : stageTask reg tid { service := s } = ({ service := s }, .next) := by
        unfold stageTask
        dsimp only
        cases htask : s.taskDict.lookup tid with
        | none => rfl
        | some task => exact if_neg fun hst => hidle tid task htask hst.1
      rw [forEach_cons, seq_of_next (by rw [hone]), hone, ih]
  simp only [stageTasks, hloop, hf, launchStaged, and_self, if_true]

lemma Awaits.runner (h : Awaits m config reg known [] s)
    (hports : PortRangeUtility.Apart config.ports) (hpay : ∀ t ∈ m.received, t.Payable config)
    (channel : String) :
    Rebuilds m config reg (needs m.tracked) (fun tid => known tid ∨ tid ∈ m.tracked.map (·.taskId)) []
      (step s (m.event ⟨reg, channel⟩ .runner)) := by
  have hentered := h.enter hports m.tracked
  have hreg : Rebuilds m config reg (needs m.tracked)
      (fun tid => known tid ∨ tid ∈ m.tracked.map (·.taskId)) []
      (registerExecutorRunner { reg with tasks := m.tracked } s).1 := by
    unfold registerExecutorRunner
    split_ifs with hempty
    · have hempty' : m.tracked = [] := hempty
      rw [stageTasks_idle hentered.foreign fun tid r hr => (hentered.infos tid r hr).2.2]
      exact hentered.offer.congr (fun name => by rw [hempty']; rfl) fun tid => by rw [hempty']; simp
    · have hfirst := hentered.modifySlave
        (f := fun sl => { sl with executor := m.tracked.head?.bind (·.executor) })
        (fun _ => rfl) (fun _ => rfl) (fun _ => rfl) fun _ _ => rfl
      have hbody : ∀ {owed : String → ℚ} {known : String → Prop} {s : Service} (t : TaskInfo),
          t ∈ m.received → Rebuilds m config reg owed known [] s →
          (adoptTask { reg with tasks := m.tracked } t s).2 = .next ∧
          Rebuilds m config reg (fun name => owed name + t.need name)
            (fun tid => known tid ∨ tid = t.taskId) [] (adoptTask { reg with tasks := m.tracked } t s).1 :=
        fun t ht hr => hr.take ht (hpay t ht) reg.jobId
      exact (Rebuilds.takeAll hbody m.tracked_received hfirst).2.congr
        (fun name => (zero_add _).symm) fun _ => .rfl
  have hstep : step s (m.event ⟨reg, channel⟩ .runner) =
      Urb.postprocess (registerExecutorRunner { reg with tasks := m.tracked } s).1 :=
    congrArg Urb.postprocess (if_pos h.active)
  rw [hstep]
  exact hreg.postprocess.congr (fun _ => rfl) fun tid => by simp

def Memory.replayed (m : Memory) (sid : String) : List StatusUpdate :=
  ((m.updates.map (·.toStatus sid)).mergeSort replayBefore).map (·.2)

def Memory.credited (m : Memory) : List String := (m.updates.filter (·.credits)).map (·.taskId)

lemma creditedIds_replayed (m : Memory) (sid : String) :
    (creditedIds (m.replayed sid)).Perm m.credited := by
  have hperm : (m.replayed sid).Perm ((m.updates.map (·.toStatus sid)).map (·.2)) :=
    (mergeSort_perm _ _).map _
  refine ((hperm.filter _).map _).trans ?_
  rw [map_map, filter_map, map_map]
  exact .refl _

lemma mem_replayed {sid : String} {u : StatusUpdate} (hu : u ∈ m.replayed sid) :
    ∃ v ∈ m.updates, u = (v.toStatus sid).2 := by
  obtain ⟨x, hx, rfl⟩ := mem_map.mp hu
  obtain ⟨v, hv, rfl⟩ := mem_map.mp (mem_mergeSort.mp hx)
  exact ⟨v, hv, rfl⟩

lemma Rebuilds.executor (h : Rebuilds m config reg owed known [] s)
    (hpay : ∀ t ∈ m.received, t.Payable config) (channel : String) : Rebuilds m config reg
      (fun name => owed name + (needs m.tasks name - (m.credited.map (m.needOf · name)).sum))
      (fun tid => (known tid ∨ tid ∈ m.tasks.map (·.taskId)) ∧ tid ∉ m.credited) []
      (step s (m.event ⟨reg, channel⟩ .executor)) := by
  obtain ⟨slave, hslave⟩ := h.slaveByChannel
  obtain ⟨job, hjob⟩ := exists_getJobIdFromSlaveId reg.jobId reg.arrayTask reg.channel
  have hfirst := h.modifySlave (f := fun sl => { sl with executorChannel := some channel })
    (fun _ => rfl) (fun _ => rfl) (fun _ => rfl) fun _ _ => rfl
  -- the tasks
  have hbody : ∀ {owed : String → ℚ} {known : String → Prop} {s : Service} (t : TaskInfo),
      t ∈ m.received → Rebuilds m config reg owed known [] s →
      (readoptTask channel reg.slaveId job t s).2 = .next ∧
      Rebuilds m config reg (fun name => owed name + t.need name) (fun tid => known tid ∨ tid = t.taskId)
        [] (readoptTask channel reg.slaveId job t s).1 := by
    intro owed known s t ht hr
    obtain ⟨e, he⟩ := Option.isSome_iff_exists.mp (m.custom t ht)
    have htake : ∀ sl, Slave.takeRunning channel t sl = { sl with executor := some e } := by
      intro sl
      rw [Slave.takeRunning, he]
    refine (hr.modifySlave (f := Slave.takeRunning channel t) (fun sl => ?_) (fun sl => ?_) (fun sl => ?_)
      fun sl name => ?_).take ht (hpay t ht) job
    · rw [htake]
    · rw [htake]; rfl
    · rw [htake]
    · rw [htake]; rfl
  obtain ⟨hnext, htasks⟩ := Rebuilds.takeAll hbody m.tasks_received hfirst
  -- the updates
  have hupdates : ∀ u ∈ m.replayed reg.slaveId, u.slaveId = some reg.slaveId ∧ u.state ≠ .staging ∧
      (u.state = .finished ∨ u.state = .failed →
        known u.taskId ∨ u.taskId ∈ m.tasks.map (·.taskId)) := by
    intro u hu
    obtain ⟨v, hv, rfl⟩ := mem_replayed hu
    exact ⟨rfl, m.not_staging v hv, fun hc => .inr (m.ended_of_credits v hv (decide_eq_true hc)).1⟩
  obtain ⟨hnext', hreplay⟩ := htasks.replay hpay hupdates
  have hreg : (reregisterExecutor
      { replyTo := reg.channel, channel := channel, tasks := m.tasks,
        updates := m.updates.map (·.toStatus reg.slaveId) } s).1 =
      ((forEach handleStatusUpdate (m.replayed reg.slaveId)
        (forEach (readoptTask channel reg.slaveId job) m.tasks (s.modifySlave reg.slaveId
          (fun sl => { sl with executorChannel := some channel }))).1).1.send
        (.executorReregistered channel)).modifySlave reg.slaveId
          (fun sl => { sl with offerable := true }) := by
    unfold reregisterExecutor
    have hjob' : getJobIdFromSlaveId reg.slaveId = some job := hjob
    simp only [hslave, hjob']
    rw [seq_of_next hnext, ← replayed, seq_of_next hnext']
  have hstep : step s (m.event ⟨reg, channel⟩ .executor) = Urb.postprocess (reregisterExecutor
      { replyTo := reg.channel, channel := channel, tasks := m.tasks,
        updates := m.updates.map (·.toStatus reg.slaveId) } s).1 :=
    congrArg Urb.postprocess (if_pos h.active)
  rw [hstep, hreg]
  have hperm := creditedIds_replayed m reg.slaveId
  refine (hreplay.send _).offer.postprocess.congr (fun name => ?_) fun tid => ?_
  · rw [(hperm.map (m.needOf · name)).sum_eq]
    ring
  · rw [nil_append, hperm.mem_iff]

end Handlers

end Urb
