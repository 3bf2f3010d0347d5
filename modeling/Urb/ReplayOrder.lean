/-
# `Urb.ReplayOrder` — the replay of the updates that an executor brings along

A re-registering executor sends the status updates that have not been
acknowledged.  `reregister_executor` sorts them and hands them to
`handle_status_update` one by one:

    first key      the whole seconds of the timestamp, ascending
    second key     the NAME of the state, from the end of the alphabet, which puts
                   STARTING and RUNNING before the states a task ends in

The loop is left by the first update that raises, and it is not come to when the slave
is unknown or the debit of a reported task raises.  So the updates are received in this
order, each once (`reregisterExecutor_replays`), exactly if every update but the last
can be handled; the last may raise, since the record has its state by then.
-/
import Mathlib.Data.List.Induction
import Urb.CleanUp
import Urb.DebitCredit

namespace Urb

open Block List AList Service Slave

/-! ## The order -/

def TaskState.isLive : TaskState → Bool
  | .starting | .running => true
  | _ => false

def Precedes (a b : ℚ × StatusUpdate) : Prop :=
  toInt a.1 ≤ toInt b.1 ∧
    (toInt a.1 = toInt b.1 → b.2.state.isLive = true → a.2.state.isLive = true)

lemma pairwise_replayBefore (updates : List (ℚ × StatusUpdate)) :
    (updates.mergeSort replayBefore).Pairwise fun a b => replayBefore a b := by
  refine pairwise_mergeSort (fun a b c hab hbc => ?_) (fun a b => ?_) updates
  · simp only [replayBefore, Bool.or_eq_true, Bool.and_eq_true, decide_eq_true_eq] at hab hbc ⊢
    omega
  · simp only [replayBefore, Bool.or_eq_true, Bool.and_eq_true, decide_eq_true_eq]
    omega

lemma TaskState.isLive_of_nameRank {a b : TaskState} (ha : a.isLive ∨ a.isTerminal)
    (hb : b.isLive) (h : b.nameRank ≤ a.nameRank) : a.isLive := by
  refine ha.resolve_right fun hend => ?_
  have hlow : a.nameRank < 9 := by cases a <;> simp_all [isTerminal, nameRank]
  have hhigh : 9 ≤ b.nameRank := by cases b <;> simp_all [isLive, nameRank]
  omega

lemma precedes_of_replayBefore {a b : ℚ × StatusUpdate}
    (ha : a.2.state.isLive ∨ a.2.state.isTerminal) (h : replayBefore a b) : Precedes a b := by
  simp only [replayBefore, Bool.or_eq_true, Bool.and_eq_true, decide_eq_true_eq] at h
  refine ⟨by omega, fun heq hb => TaskState.isLive_of_nameRank ha hb ?_⟩
  omega

/-! ## Updates that can be handled -/

def Slave.Finishes (slave : Slave) (tid : String) (t : TaskInfo) : Prop :=
  if slave.isCommandExecutor = true then
    ((slave.commandExecutors.lookup tid).bind (·.channel)).isSome = true
  else ∀ r ∈ t.resources.getD [], ¬slave.Rejects r

def Handles (s : Service) (u : StatusUpdate) : Prop :=
  u.taskId ∉ s.foreign ∧
    ∀ t ∈ (s.taskDict.lookup u.taskId).map (·.taskInfo), ∀ sid ∈ u.slaveRef t,
      s.slaveDictSet = true ∧ (u.state = .finished ∨ u.state = .failed →
        ∀ slave ∈ s.slaveDict.lookup sid, slave.Finishes u.taskId t)

def Service.received (s : Service) : List (String × TaskState) :=
  (s.wire.filterMap fun
    | .statusUpdateReceived tid state => some (tid, state)
    | _ => none).reverse

def StatusUpdate.report (u : StatusUpdate) : String × TaskState := (u.taskId, u.state)

section Credit

variable {portOp : List (ℤ × ℤ) → List PortRange → Except RangeError (List (ℤ × ℤ))}
  {op : Prop → Prop → Prop}

lemma walk_rejects_iff (hop : PortOperation portOp op) (sign : ℚ) (rs : List Resource)
    (slave : Slave) (r : Resource) :
    (forEach (moveResource portOp sign) rs slave).1.Rejects r ↔ slave.Rejects r := by
  refine forEach_inv (I := fun sl => Slave.Rejects sl r ↔ slave.Rejects r) (fun r' _ sl h => ?_) .rfl
  by_cases hr : sl.Rejects r'
  · rw [moveResource_rejected hop sign hr]
    exact h
  · exact (moveResource_rejects_iff hop sign hr r).trans h

lemma walk_next_iff (hop : PortOperation portOp op) (sign : ℚ) (rs : List Resource) (slave : Slave) :
    (forEach (moveResource portOp sign) rs slave).2 = .next ↔ ∀ r ∈ rs, ¬slave.Rejects r := by
  refine ⟨fun h r hr hrej => ?_, forEach_moveResource_accepted hop sign⟩
  rw [forEach_moveResource_rejected hop sign ⟨r, hr, hrej⟩] at h
  cases h

end Credit

lemma creditResources_rejects_iff (t : TaskInfo) (slave : Slave) (r : Resource) :
    (creditResources t slave).1.Rejects r ↔ slave.Rejects r :=
  seq_inv (I := fun sl => Slave.Rejects sl r ↔ slave.Rejects r) (walk_rejects_iff add_operation 1 _ slave r) id

lemma creditResources_next_iff (t : TaskInfo) (slave : Slave) :
    (creditResources t slave).2 = .next ↔ ∀ r ∈ t.resources.getD [], ¬slave.Rejects r := by
  rw [creditResources, seq_next_iff]
  exact ⟨fun h => (walk_next_iff add_operation 1 _ slave).mp h.1,
    fun h => ⟨(walk_next_iff add_operation 1 _ slave).mpr h, rfl⟩⟩

structure SameHandling (s s' : Service) : Prop where
  foreign : s'.foreign = s.foreign
  slaveDictSet : s'.slaveDictSet = s.slaveDictSet
  infos : ∀ tid, (s'.taskDict.lookup tid).map (·.taskInfo) = (s.taskDict.lookup tid).map (·.taskInfo)
  slaves : SlavesRel (fun sl sl' => ∀ tid t, sl'.Finishes tid t ↔ sl.Finishes tid t) s s'

section Update

variable {s s' : Service} {u : StatusUpdate}

lemma finishes_finishEntry (slave : Slave) (k tid : String) (t : TaskInfo) :
    Slave.Finishes { slave with commandExecutors := slave.finishEntry k } tid t ↔
      slave.Finishes tid t := by
  have hc : isCommandExecutor { slave with commandExecutors := slave.finishEntry k } =
      slave.isCommandExecutor := by
    simp [isCommandExecutor, finishEntry]
  have hchannel : ((slave.finishEntry k).lookup tid).bind (·.channel) =
      (slave.commandExecutors.lookup tid).bind (·.channel) := by
    rw [finishEntry, lookup_modify]
    split_ifs
    · cases slave.commandExecutors.lookup tid <;> rfl
    · rfl
  unfold Slave.Finishes
  rw [hc, hchannel]
  exact .rfl

lemma finishes_creditResources (t' : TaskInfo) (slave : Slave) (tid : String) (t : TaskInfo) :
    (creditResources t' slave).1.Finishes tid t ↔ slave.Finishes tid t := by
  have hctl := creditResources_sameControl t' slave
  unfold Slave.Finishes isCommandExecutor
  simp only [hctl.commandExecutors, creditResources_rejects_iff]

lemma settleUpdate_finishes {task : TaskRecord} :
    SlavesRel (fun sl sl' => ∀ tid t, sl'.Finishes tid t ↔ sl.Finishes tid t) s
      (settleUpdate u task s).1 := by
  have hrefl : ∀ sl : Slave, ∀ tid t, sl.Finishes tid t ↔ sl.Finishes tid t := fun _ _ _ => .rfl
  refine settleUpdate_rule (fun sid slave hs _ => ?_) (fun sid slave hs _ => ?_) (fun _ _ h => h)
    (fun _ h => h) (.of_eq hrefl rfl)
  · refine SlavesRel.modifySlave hrefl fun sl hl => ?_
    cases hs.symm.trans hl
    exact finishes_finishEntry slave _
  · refine SlavesRel.modifySlave hrefl fun sl hl => ?_
    cases hs.symm.trans hl
    exact finishes_creditResources _ slave

lemma handleStatusUpdate_same : SameHandling s (handleStatusUpdate u s).1 := by
  have hrefl : ∀ sl : Slave, ∀ tid t, sl.Finishes tid t ↔ sl.Finishes tid t := fun _ _ _ => .rfl
  refine handleStatusUpdate_rule ⟨rfl, rfl, fun _ => rfl, .of_eq hrefl rfl⟩
    ⟨rfl, rfl, fun _ => rfl, .of_eq hrefl rfl⟩ fun task ht => ⟨?_, ?_, fun tid => ?_, ?_⟩
  · exact settleUpdate_frame (·.foreign) (fun _ _ _ => rfl) (fun _ _ => rfl)
  · exact settleUpdate_frame (·.slaveDictSet) (fun _ _ _ => rfl) (fun _ _ => rfl)
  · have hdict : (settleUpdate u task (forwardUpdate u task s)).1.taskDict =
        s.taskDict.modify u.taskId (fun r => { r with state := u.state }) :=
      settleUpdate_frame (·.taskDict) (fun _ _ _ => rfl) (fun _ _ => rfl)
    rw [hdict, lookup_modify]
    split_ifs
    · rw [Option.map_map]
      rfl
    · rfl
  · exact settleUpdate_finishes (s := forwardUpdate u task s)

lemma SameHandling.handles_iff (h : SameHandling s s') (u : StatusUpdate) :
    Handles s' u ↔ Handles s u := by
  have hslaves : ∀ sid t, (∀ slave ∈ s'.slaveDict.lookup sid, slave.Finishes u.taskId t) ↔
      ∀ slave ∈ s.slaveDict.lookup sid, slave.Finishes u.taskId t := by
    intro sid t
    have hrel := h.slaves sid
    revert hrel
    generalize s.slaveDict.lookup sid = a
    generalize s'.slaveDict.lookup sid = b
    rintro (⟨hab⟩ | _)
    · simp [hab]
    · simp
  simp only [Handles, h.foreign, h.infos, h.slaveDictSet, hslaves]

lemma completesOn_iff {tid : String} {slave : Slave} {task : TaskRecord} :
    CompletesOn tid task slave ↔ slave.Finishes tid task.taskInfo := by
  unfold CompletesOn Slave.Finishes
  split_ifs
  · exact .rfl
  · exact creditResources_next_iff task.taskInfo slave

lemma settleUpdate_next_iff {task : TaskRecord} : (settleUpdate u task s).2 = .next ↔
    ∀ sid ∈ u.slaveRef task.taskInfo, s.slaveDictSet ∧ (u.state = .finished ∨ u.state = .failed →
        ∀ slave ∈ s.slaveDict.lookup sid, slave.Finishes u.taskId task.taskInfo) := by
  unfold settleUpdate
  cases u.slaveRef task.taskInfo with
  | none => simp
  | some sid =>
    cases s.slaveDictSet with
    | false => simp
    | true =>
      cases hl : s.slaveDict.lookup sid with
      | none => simp [hl]
      | some slave =>
        by_cases h : u.state = .finished ∨ u.state = .failed
        · simp [hl, h, seq_next_iff, finishOnSlave_next_iff, completesOn_iff]
        · simp [hl, h]

lemma handleStatusUpdate_next_iff : (handleStatusUpdate u s).2 = .next ↔ Handles s u := by
  by_cases hf : u.taskId ∈ s.foreign
  · have hraise : (handleStatusUpdate u s).2 = .raise := congrArg Prod.snd (if_pos hf)
    exact iff_of_false (by simp [hraise]) fun h => h.1 hf
  · cases ht : s.taskDict.lookup u.taskId with
    | none =>
      rw [handleStatusUpdate_unknown hf ht]
      exact iff_of_true rfl ⟨hf, by simp [ht]⟩
    | some task =>
      rw [handleStatusUpdate_known hf ht, settleUpdate_next_iff]
      simp only [Handles, hf, ht, map_some, Option.mem_some_iff, forall_eq', not_false_eq_true,
        true_and]
      exact .rfl

lemma handleStatusUpdate_received : (handleStatusUpdate u s).1.received = s.received ++ [u.report] := by
  refine handleStatusUpdate_rule (I := fun s' => s'.received = s.received ++ [u.report]) ?_ ?_
    fun task _ => ?_
  · simp [received, StatusUpdate.report]
  · simp [received, StatusUpdate.report]
  · rw [settleUpdate_frame received (fun _ _ _ => rfl) (fun _ _ => rfl)]
    simp [received, StatusUpdate.report]

lemma handleStatusUpdate_state {tid : String} (hf : tid ∉ s.foreign) :
    ((handleStatusUpdate u s).1.taskDict.lookup tid).map (·.state) =
      (s.taskDict.lookup tid).map fun r => if u.taskId = tid then u.state else r.state := by
  by_cases hu : u.taskId = tid
  · subst hu
    cases ht : s.taskDict.lookup u.taskId with
    | none =>
      rw [handleStatusUpdate_unknown hf ht]
      simp [ht]
    | some task =>
      have hdict : (settleUpdate u task (forwardUpdate u task s)).1.taskDict =
          s.taskDict.modify u.taskId (fun r => { r with state := u.state }) :=
        settleUpdate_frame (·.taskDict) (fun _ _ _ => rfl) (fun _ _ => rfl)
      rw [handleStatusUpdate_known hf ht, hdict]
      simp [ht]
  · simp only [if_neg hu]
    refine handleStatusUpdate_rule
      (I := fun s' => (s'.taskDict.lookup tid).map (·.state) = (s.taskDict.lookup tid).map (·.state))
      rfl rfl fun task _ => congrArg _ ?_
    rw [settleUpdate_frame (·.taskDict) (fun _ _ _ => rfl) (fun _ _ => rfl)]
    exact lookup_modify_ne (Ne.symm hu) _ _

/-! ## The replay -/

lemma replay_received_iff (us : List StatusUpdate) (s : Service) :
    (forEach handleStatusUpdate us s).1.received = s.received ++ us.map (·.report) ↔
      ∀ u ∈ us.dropLast, Handles s u := by
  induction us generalizing s with
  | nil => simp
  | cons u us ih =>
    by_cases hu : Handles s u
    · rw [forEach_cons, seq_of_next (handleStatusUpdate_next_iff.mpr hu), map_cons,
        ← singleton_append, ← append_assoc, ← handleStatusUpdate_received, ih]
      simp only [handleStatusUpdate_same.handles_iff]
      cases us with
      | nil => simp
      | cons v us => simp [hu]
    · rw [forEach_cons, seq_of_ne (mt handleStatusUpdate_next_iff.mp hu), handleStatusUpdate_received]
      cases us with
      | nil => simp
      | cons v us => simp [hu]

def lastState (tid : String) (us : List StatusUpdate) (state : TaskState) : TaskState :=
  us.foldl (fun state u => if u.taskId = tid then u.state else state) state

lemma replay_state {tid : String} {us : List StatusUpdate} (h : ∀ u ∈ us.dropLast, Handles s u)
    (hf : tid ∉ s.foreign) : ((forEach handleStatusUpdate us s).1.taskDict.lookup tid).map (·.state) =
      (s.taskDict.lookup tid).map fun r => lastState tid us r.state := by
  induction us generalizing s with
  | nil => rfl
  | cons u us ih =>
    cases us with
    | nil =>
      have hone : (forEach handleStatusUpdate [u] s).1 = (handleStatusUpdate u s).1 := by
        unfold forEach seq
        split_ifs <;> rfl
      rw [hone, handleStatusUpdate_state hf]
      rfl
    | cons v us =>
      obtain ⟨hu, hrest⟩ := forall_mem_cons.mp h
      have hsame : SameHandling s (handleStatusUpdate u s).1 := handleStatusUpdate_same
      rw [forEach_cons, seq_of_next (handleStatusUpdate_next_iff.mpr hu),
        ih (fun w hw => (hsame.handles_iff w).mpr (hrest w hw)) (by rw [hsame.foreign]; exact hf)]
      have hstate := handleStatusUpdate_state (u := u) hf
      have hcomp := congrArg (Option.map (lastState tid (v :: us))) hstate
      rw [Option.map_map, Option.map_map] at hcomp
      exact hcomp

end Update

lemma lastState_terminal {l : List (ℚ × StatusUpdate)} (hl : l.Pairwise Precedes)
    (hstates : ∀ v ∈ l, v.2.state.isLive ∨ v.2.state.isTerminal)
    {u : ℚ × StatusUpdate} (hu : u ∈ l) (hend : u.2.state.isTerminal)
    (hlatest : ∀ v ∈ l, v.2.taskId = u.2.taskId → toInt v.1 ≤ toInt u.1) (state : TaskState) :
    (lastState u.2.taskId (l.map (·.2)) state).isTerminal := by
  induction l using List.reverseRecOn with
  | nil => exact absurd hu not_mem_nil
  | append_singleton l w ih =>
    obtain ⟨hpre, -, hw⟩ := pairwise_append.mp hl
    simp only [lastState, map_append, foldl_append, map_cons, map_nil, foldl_cons, foldl_nil]
    split_ifs with htid
    · rcases mem_append.mp hu with hu | hu
      · -- a live update would be before `u`
        have hbefore := hw u hu w mem_cons_self
        have hsecond : toInt u.1 = toInt w.1 := le_antisymm hbefore.1 (hlatest w (by simp) htid)
        refine (hstates w (by simp)).resolve_left fun hlive => ?_
        have hboth := hbefore.2 hsecond hlive
        revert hboth hend
        cases u.2.state <;> simp [TaskState.isLive, TaskState.isTerminal]
      · rw [← mem_singleton.mp hu]
        exact hend
    · refine ih hpre (fun v hv => hstates v (by simp [hv])) ?_ fun v hv => hlatest v (by simp [hv])
      rcases mem_append.mp hu with hu | hu
      · exact hu
      · exact absurd (congrArg (·.2.taskId) (mem_singleton.mp hu).symm) htid

/-! ## The tasks that the executor reports -/

def Slave.Debits (slave : Slave) (t : TaskInfo) : Prop :=
  ∃ rs, t.resources = some rs ∧ ∀ r ∈ rs, ¬slave.Rejects r

def Service.HasRecord (s : Service) (tid : String) : Prop :=
  (s.taskDict.lookup tid).isSome = true ∧ tid ∉ s.foreign

lemma debitResources_next_iff (t : TaskInfo) (slave : Slave) :
    (debitResources t slave).2 = .next ↔ slave.Debits t := by
  unfold debitResources Slave.Debits
  cases t.resources with
  | none => simp
  | some rs =>
    simp only [seq_next_iff, debitResource, walk_next_iff subtract_operation, Option.some.injEq,
      exists_eq_left']
    exact and_iff_left rfl

lemma debitResources_rejects_iff (t : TaskInfo) (slave : Slave) (r : Resource) :
    (debitResources t slave).1.Rejects r ↔ slave.Rejects r := by
  unfold debitResources
  cases t.resources with
  | none => exact .rfl
  | some rs =>
    exact seq_inv (I := fun sl => Slave.Rejects sl r ↔ slave.Rejects r)
      (walk_rejects_iff subtract_operation (-1) rs slave r) id

section Readopt

variable {s : Service} {channel sid job : String} {slave : Slave} {tid : String}

lemma readoptTask_slave (hs : s.slaveDict.lookup sid = some slave) (t : TaskInfo) :
    ((readoptTask channel sid job t s).2 = .next ↔ slave.Debits t) ∧
      ∃ slave', (readoptTask channel sid job t s).1.slaveDict.lookup sid = some slave' ∧
        ∀ r, slave'.Rejects r ↔ slave.Rejects r := by
  have htake : ∀ r, (slave.takeRunning channel t).Rejects r ↔ slave.Rejects r := by
    intro r
    unfold takeRunning
    split <;> exact .rfl
  have hl : ((s.modifySlave sid (takeRunning channel t)).putTask t.taskId
      { taskInfo := t, state := .running, jobId := some job }).slaveDict.lookup sid =
      some (slave.takeRunning channel t) := by
    simp [hs]
  unfold readoptTask debitSlave
  simp only [hl]
  refine ⟨(debitResources_next_iff t _).trans ?_,
    (debitResources t (slave.takeRunning channel t)).1, by simp [hs], fun r => ?_⟩
  · simp only [Slave.Debits, htake]
  · exact (debitResources_rejects_iff t _ r).trans (htake r)

lemma readopt_next_iff (hs : s.slaveDict.lookup sid = some slave) (ts : List TaskInfo) :
    (forEach (readoptTask channel sid job) ts s).2 = .next ↔ ∀ t ∈ ts, slave.Debits t := by
  induction ts generalizing s slave with
  | nil => simp
  | cons t ts ih =>
    obtain ⟨hnext, slave', hs', hrejects⟩ :
        ((readoptTask channel sid job t s).2 = .next ↔ _) ∧ _ := readoptTask_slave hs t
    rw [forEach_cons, seq_next_iff, ih hs', hnext, forall_mem_cons]
    simp only [Slave.Debits, hrejects]

lemma readoptTask_received (t : TaskInfo) :
    (readoptTask channel sid job t s).1.received = s.received := by
  unfold readoptTask debitSlave
  split <;> rfl

lemma readoptTask_hasRecord (t : TaskInfo) (h : s.HasRecord tid ∨ t.taskId = tid) :
    (readoptTask channel sid job t s).1.HasRecord tid := by
  have hput : ((s.modifySlave sid (takeRunning channel t)).putTask t.taskId
      { taskInfo := t, state := .running, jobId := some job }).HasRecord tid := by
    by_cases ht : tid = t.taskId
    · subst ht
      simp [Service.HasRecord]
    · obtain ⟨hrecord, hforeign⟩ := h.resolve_right (Ne.symm ht)
      exact ⟨by simpa [lookup_insert_ne ht] using hrecord, by simp [hforeign]⟩
  unfold readoptTask debitSlave
  split
  · exact hput
  · exact hput

lemma readopt_hasRecord {ts : List TaskInfo}
    (hnext : (forEach (readoptTask channel sid job) ts s).2 = .next)
    (h : s.HasRecord tid ∨ ∃ t ∈ ts, t.taskId = tid) :
    (forEach (readoptTask channel sid job) ts s).1.HasRecord tid := by
  induction ts generalizing s with
  | nil => exact h.resolve_right (by simp)
  | cons t ts ih =>
    obtain ⟨hfirst, hrest⟩ := seq_next_iff.mp hnext
    rw [forEach_cons, seq_of_next hfirst]
    refine ih hrest ?_
    rcases h with h | ⟨t', ht', htid⟩
    · exact .inl (readoptTask_hasRecord t (.inl h))
    · rcases mem_cons.mp ht' with rfl | ht'
      · exact .inl (readoptTask_hasRecord t' (.inr htid))
      · exact .inr ⟨t', ht', htid⟩

end Readopt

/-! ## The re-registration -/

section Reregistration

variable (reg : ExecutorReregistration) (s : Service)

def ExecutorReregistration.replayOrder : List (ℚ × StatusUpdate) := reg.updates.mergeSort replayBefore

def readopted (sid job : String) : Service :=
  (forEach (readoptTask reg.channel sid job) reg.tasks
    (s.modifySlave sid (fun sl => { sl with executorChannel := some reg.channel }))).1

def Readopts (sid job : String) : Prop :=
  ∃ slave, s.slaveByChannel reg.replyTo = some (sid, slave) ∧ getJobIdFromSlaveId sid = some job ∧
    ∀ t ∈ reg.tasks, slave.Debits t

structure Replays (s' : Service) : Prop where
  received : s'.received = s.received ++ reg.replayOrder.map (·.2.report)
  ended : ∀ u ∈ reg.updates, u.2.state.isTerminal = true →
    (∀ v ∈ reg.updates, v.2.taskId = u.2.taskId → toInt v.1 ≤ toInt u.1) →
    (s.HasRecord u.2.taskId ∨ ∃ t ∈ reg.tasks, t.taskId = u.2.taskId) →
    ∃ r, s'.taskDict.lookup u.2.taskId = some r ∧ r.state.isTerminal = true

variable {reg s} {sid job : String}

lemma readopted_next_iff {slave : Slave} (job : String)
    (h : s.slaveByChannel reg.replyTo = some (sid, slave)) :
    (forEach (readoptTask reg.channel sid job) reg.tasks
      (s.modifySlave sid (fun sl => { sl with executorChannel := some reg.channel }))).2 = .next ↔
      ∀ t ∈ reg.tasks, slave.Debits t := by
  have hs : (s.modifySlave sid (fun sl => { sl with executorChannel := some reg.channel })).slaveDict.lookup
      sid = some { slave with executorChannel := some reg.channel } := by
    simp [lookup_of_slaveByChannel h]
  exact readopt_next_iff hs reg.tasks

lemma readopted_received : (readopted reg s sid job).received = s.received :=
  forEach_inv (I := fun s' => received s' = s.received)
    (fun t _ _ h => (readoptTask_received t).trans h) rfl

lemma reregisterExecutor_replay (h : Readopts reg s sid job) :
    let replay := forEach handleStatusUpdate (reg.replayOrder.map (·.2)) (readopted reg s sid job)
    (reregisterExecutor reg s).1.received = replay.1.received ∧
      (reregisterExecutor reg s).1.taskDict = replay.1.taskDict := by
  intro replay
  obtain ⟨slave, hslave, hjob, hdebits⟩ := h
  unfold reregisterExecutor
  simp only [hslave, hjob]
  rw [seq_of_next ((readopted_next_iff job hslave).mpr hdebits)]
  exact seq_inv (I := fun s' => received s' = replay.1.received ∧
    taskDict s' = replay.1.taskDict) ⟨rfl, rfl⟩ id

lemma reregisterExecutor_stops (h : ∀ sid job, ¬Readopts reg s sid job) :
    (reregisterExecutor reg s).1.received = s.received := by
  unfold reregisterExecutor
  split
  · rfl
  · next sid slave hslave =>
      dsimp only
      split
      · rfl
      · next job hjob =>
          have hraise := mt (readopted_next_iff job hslave).mp
            fun hdebits => h sid job ⟨slave, hslave, hjob, hdebits⟩
          rw [seq_of_ne hraise]
          exact readopted_received

lemma replayOrder_pairwise (h : ∀ u ∈ reg.updates, u.2.state.isLive ∨ u.2.state.isTerminal) :
    reg.replayOrder.Pairwise Precedes := by
  refine (pairwise_replayBefore reg.updates).imp_of_mem fun ha _ hab => ?_
  exact precedes_of_replayBefore (h _ (mem_mergeSort.mp ha)) hab

lemma received_replay_iff (h : Readopts reg s sid job) :
    (reregisterExecutor reg s).1.received = s.received ++ reg.replayOrder.map (·.2.report) ↔
      ∀ u ∈ (reg.replayOrder.map (·.2)).dropLast, Handles (readopted reg s sid job) u := by
  have hiff := replay_received_iff (reg.replayOrder.map (·.2)) (readopted reg s sid job)
  rw [readopted_received, map_map] at hiff
  rw [(reregisterExecutor_replay h).1]
  exact hiff

lemma ended_of_handles (h : Readopts reg s sid job)
    (hstates : ∀ u ∈ reg.updates, u.2.state.isLive ∨ u.2.state.isTerminal)
    (hhandles : ∀ u ∈ (reg.replayOrder.map (·.2)).dropLast, Handles (readopted reg s sid job) u)
    {u : ℚ × StatusUpdate} (hu : u ∈ reg.updates) (hend : u.2.state.isTerminal)
    (hlatest : ∀ v ∈ reg.updates, v.2.taskId = u.2.taskId → toInt v.1 ≤ toInt u.1)
    (hknown : s.HasRecord u.2.taskId ∨ ∃ t ∈ reg.tasks, t.taskId = u.2.taskId) :
    ∃ r, (reregisterExecutor reg s).1.taskDict.lookup u.2.taskId = some r ∧ r.state.isTerminal := by
  have hmem : ∀ v, v ∈ reg.replayOrder ↔ v ∈ reg.updates := fun v => mem_mergeSort
  have hdict := (reregisterExecutor_replay h).2
  obtain ⟨slave, hslave, -, hdebits⟩ := h
  obtain ⟨hsome, hforeign⟩ : (readopted reg s sid job).HasRecord u.2.taskId :=
    readopt_hasRecord ((readopted_next_iff job hslave).mpr hdebits) hknown
  obtain ⟨before, hbefore⟩ := isSome_iff_exists.mp hsome
  have hstate := replay_state hhandles hforeign
  rw [← hdict, hbefore, map_some] at hstate
  obtain ⟨r, hr, hlast⟩ := map_eq_some_iff.mp hstate
  refine ⟨r, hr, ?_⟩
  rw [hlast]
  exact lastState_terminal (replayOrder_pairwise hstates) (fun v hv => hstates v ((hmem v).mp hv))
    ((hmem u).mpr hu) hend (fun v hv => hlatest v ((hmem v).mp hv)) before.state

theorem reregisterExecutor_replays (reg : ExecutorReregistration) (s : Service)
    (h : ∀ u ∈ reg.updates, u.2.state.isLive = true ∨ u.2.state.isTerminal = true) :
    reg.replayOrder.Perm reg.updates ∧ reg.replayOrder.Pairwise Precedes ∧
      (Replays reg s (reregisterExecutor reg s).1 ↔
        reg.updates = [] ∨ ∃ sid job, Readopts reg s sid job ∧
          ∀ u ∈ (reg.replayOrder.map (·.2)).dropLast, Handles (readopted reg s sid job) u) := by
  have hperm : reg.replayOrder.Perm reg.updates := mergeSort_perm _ _
  refine ⟨hperm, replayOrder_pairwise h, ⟨fun hrep => ?_, ?_⟩⟩
  · by_cases hreach : ∃ sid job, Readopts reg s sid job
    · obtain ⟨sid, job, hr⟩ := hreach
      exact .inr ⟨sid, job, hr, (received_replay_iff hr).mp hrep.received⟩
    · -- nothing is received, so there was nothing to receive
      have hnil := hrep.received
      rw [reregisterExecutor_stops fun sid job hr => hreach ⟨sid, job, hr⟩, self_eq_append_right,
        map_eq_nil_iff] at hnil
      rw [hnil] at hperm
      exact .inl hperm.symm.eq_nil
  · rintro (hnil | ⟨sid, job, hr, hhandles⟩)
    · have horder : reg.replayOrder = [] := by
        rw [hnil] at hperm
        exact hperm.eq_nil
      refine ⟨?_, fun u hu => absurd (hnil ▸ hu) not_mem_nil⟩
      by_cases hreach : ∃ sid job, Readopts reg s sid job
      · obtain ⟨sid, job, hr⟩ := hreach
        refine (received_replay_iff hr).mpr ?_
        simp [horder]
      · rw [reregisterExecutor_stops fun sid job hr => hreach ⟨sid, job, hr⟩, horder]
        simp
    · exact ⟨(received_replay_iff hr).mpr hhandles, fun u => ended_of_handles hr h hhandles⟩

end Reregistration

def twoFinished (executor : Option Executor) : ExecutorReregistration where
  replyTo := "c7"
  channel := "e7"
  tasks := [{ oneCpuTask "a" (slaveOf "7" "c7") with executor := executor },
    { oneCpuTask "b" (slaveOf "7" "c7") with executor := none }]
  updates := [(11, { taskId := "a", state := .finished }), (23 / 2, { taskId := "b", state := .finished })]

lemma mergeSort_twoFinished (executor : Option Executor) :
    (twoFinished executor).updates.mergeSort replayBefore = (twoFinished executor).updates := by
  have hsorted : (twoFinished none).updates.Pairwise fun a b => replayBefore a b := by
    decide +kernel
  exact mergeSort_of_pairwise hsorted

theorem reregisterExecutor_replays_commands :
    let s := runFrom smallService [runnerUp "7" "c7"]
    let reg := twoFinished none
    (reregisterExecutor reg s).1.received = [("a", .finished), ("b", .finished)] ∧
    reg.replayOrder.Perm reg.updates ∧ reg.replayOrder.Pairwise Precedes ∧
      (Replays reg s (reregisterExecutor reg s).1 ↔
        reg.updates = [] ∨ ∃ sid job, Readopts reg s sid job ∧
          ∀ u ∈ (reg.replayOrder.map (·.2)).dropLast, Handles (readopted reg s sid job) u) := by
  refine ⟨?_, reregisterExecutor_replays _ _ (by decide +kernel)⟩
  simp only [reregisterExecutor, mergeSort_twoFinished]
  decide +kernel

theorem replay_interrupted :
    let s := runFrom smallService [runnerUp "7" "c7"]
    let reg := twoFinished (some { executorId := "x" })
    (reregisterExecutor reg s).2 = .raise ∧
      (reregisterExecutor reg s).1.received = [("a", .finished)] ∧
      ((reregisterExecutor reg s).1.taskDict.lookup "b").map (·.state) = some .running ∧
      ¬Replays reg s (reregisterExecutor reg s).1 := by
  intro s reg
  have hrun : (reregisterExecutor reg s).2 = .raise ∧
      (reregisterExecutor reg s).1.received = [("a", .finished)] ∧
      ((reregisterExecutor reg s).1.taskDict.lookup "b").map (·.state) = some .running := by
    simp only [reg, reregisterExecutor, mergeSort_twoFinished]
    decide +kernel
  refine ⟨hrun.1, hrun.2.1, hrun.2.2, fun h => ?_⟩
  have hlength := congrArg List.length h.received
  rw [hrun.2.1, ExecutorReregistration.replayOrder, mergeSort_twoFinished] at hlength
  revert hlength
  decide +kernel

end Urb
