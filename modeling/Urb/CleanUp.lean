/-
# `Urb.CleanUp` — what is left of a task that has become terminal

When a native kill or status update makes a task terminal, its record should
go, the command executor that was made for it should be inactive, and a slave
that runs command executors should stay only for another task (`CleanedUp`).

The source does part of this on part of the paths:

    kill            the record goes; the command executor's entry is not touched
    FINISHED,       on a slave that is known the record goes, the entry becomes
    FAILED          inactive, and the slave goes with its last active entry
    KILLED, LOST,   nothing but the recorded state
    ERROR

The theorem says exactly when the clean-up is complete, in terms of the state before
the message with the removals already queued applied to it (`postprocess s`).
-/
import Urb.Frames

namespace Urb

open Block AList Iff

variable {s : Service} {slave : Slave} {sid : String}

/-! ## The property -/

def HasOtherTask (tid : String) (s : Service) (slave : Slave) : Prop :=
  ∃ other r, other ≠ tid ∧ other ∈ slave.commandExecutors ∧
    s.taskDict.lookup other = some r ∧ r.state.isTerminal = false

def Retired (tid : String) (s : Service) : Prop :=
  ∀ sid slave e, s.slaveDict.lookup sid = some slave → slave.commandExecutors.lookup tid = some e →
    e.active = false ∧ HasOtherTask tid s slave

structure CleanedUp (tid : String) (s : Service) : Prop where
  removed : tid ∉ s.taskDict
  retired : Retired tid s

/-- A task the service has a record of. -/
structure Service.Knows (s : Service) (tid : String) (task : TaskRecord) : Prop where
  record : s.taskDict.lookup tid = some task
  notForeign : tid ∉ s.foreign

/-! ## The condition -/

def Queued (tid : String) (s : Service) : Prop := .task s.taskDictId tid ∈ s.deleteElements

def CompletesOn (tid : String) (task : TaskRecord) (slave : Slave) : Prop :=
  if slave.isCommandExecutor = true then
    ((slave.commandExecutors.lookup tid).bind (·.channel)).isSome = true
  else (creditResources task.taskInfo slave).2 = .next

def FinishesOn (u : StatusUpdate) (task : TaskRecord) (s : Service) (sid : String) : Prop :=
  ∃ slave, finishTarget u task s = some (sid, slave) ∧ CompletesOn u.taskId task slave

def OthersInactive (tid : String) (slave : Slave) : Prop :=
  ∀ other e, other ≠ tid → slave.commandExecutors.lookup other = some e → e.active = false

structure UpdateCleansUp (u : StatusUpdate) (task : TaskRecord) (s : Service) : Prop where
  removes : Queued u.taskId s ∨ ∃ sid, FinishesOn u task s sid
  retires : ∀ sid slave e, (postprocess s).slaveDict.lookup sid = some slave →
    slave.commandExecutors.lookup u.taskId = some e →
      (FinishesOn u task s sid ∧
        (OthersInactive u.taskId slave ∨ HasOtherTask u.taskId (postprocess s) slave)) ∨
      (e.active = false ∧ HasOtherTask u.taskId (postprocess s) slave)

/-! ## Two states with the same entries -/

lemma hasOtherTask_congr {tid : String} {s' : Service} {slave' : Slave}
    (hs : ∀ k, k ∈ slave'.commandExecutors ↔ k ∈ slave.commandExecutors)
    (ht : ∀ other, other ≠ tid → s'.taskDict.lookup other = s.taskDict.lookup other) :
    HasOtherTask tid s' slave' ↔ HasOtherTask tid s slave := by
  constructor
  · rintro ⟨other, r, hne, hmem, hr, hterm⟩
    exact ⟨other, r, hne, (hs other).mp hmem, (ht other hne) ▸ hr, hterm⟩
  · rintro ⟨other, r, hne, hmem, hr, hterm⟩
    exact ⟨other, r, hne, (hs other).mpr hmem, (ht other hne).trans hr, hterm⟩

lemma Retired.congr {tid : String} {s' : Service}
    (hs : ∀ sid, (s'.slaveDict.lookup sid).map (·.commandExecutors) =
      (s.slaveDict.lookup sid).map (·.commandExecutors))
    (ht : ∀ other, other ≠ tid → s'.taskDict.lookup other = s.taskDict.lookup other)
    (h : Retired tid s) : Retired tid s' := by
  intro sid slave' e hl he
  have hmap := hs sid
  rw [hl, map_some, eq_comm, map_eq_some_iff] at hmap
  obtain ⟨slave, hl₀, hce⟩ := hmap
  obtain ⟨hact, hother⟩ := h sid slave e hl₀ (hce ▸ he)
  exact ⟨hact, (hasOtherTask_congr (fun k => by rw [hce]) ht).mpr hother⟩

lemma lookup_slaveDict_postprocess_congr {s' : Service}
    (hq : .slave sid ∈ s'.deleteElements ↔ .slave sid ∈ s.deleteElements)
    (hs : (s'.slaveDict.lookup sid).map (·.commandExecutors) =
      (s.slaveDict.lookup sid).map (·.commandExecutors)) :
    ((postprocess s').slaveDict.lookup sid).map (·.commandExecutors) =
      ((postprocess s).slaveDict.lookup sid).map (·.commandExecutors) := by
  rw [lookup_slaveDict_postprocess, lookup_slaveDict_postprocess]
  by_cases h : .slave sid ∈ s.deleteElements
  · rw [if_pos h, if_pos (hq.mpr h)]
  · rw [if_neg h, if_neg (fun h' => h (hq.mp h')), hs]

lemma retired_postprocess_iff {tid : String} {s' : Service}
    (hq : ∀ sid, .slave sid ∈ s'.deleteElements ↔ .slave sid ∈ s.deleteElements)
    (hs : ∀ sid, (s'.slaveDict.lookup sid).map (·.commandExecutors) =
      (s.slaveDict.lookup sid).map (·.commandExecutors)) (ht : ∀ other, other ≠ tid →
      (postprocess s').taskDict.lookup other = (postprocess s).taskDict.lookup other) :
    Retired tid (postprocess s') ↔ Retired tid (postprocess s) := by
  have hslaves := fun sid => lookup_slaveDict_postprocess_congr (hq sid) (hs sid)
  constructor
  · exact Retired.congr (fun sid => (hslaves sid).symm) fun other hne => (ht other hne).symm
  · exact Retired.congr hslaves ht

lemma lookup_taskDict_other {tid : String} {s' : Service} {f : TaskRecord → TaskRecord}
    (hdict : s'.taskDict = s.taskDict.modify tid f) (hid : s'.taskDictId = s.taskDictId)
    (hq : ∀ other, other ≠ tid →
      (.task s.taskDictId other ∈ s'.deleteElements ↔ .task s.taskDictId other ∈ s.deleteElements))
    {other : String} (hne : other ≠ tid) :
    (postprocess s').taskDict.lookup other = (postprocess s).taskDict.lookup other := by
  rw [lookup_taskDict_postprocess, lookup_taskDict_postprocess, hid, hdict, lookup_modify_ne hne]
  simp only [hq other hne]

/-! ## Kills -/

lemma killTask_cleanedUp_iff {tid : String} {task : TaskRecord} (ha : s.active)
    (hk : s.Knows tid task) :
    CleanedUp tid (step s (.killTask true tid)) ↔ Retired tid (postprocess s) := by
  have hstep : step s (.killTask true tid) = postprocess (killTask tid s).1 := by
    simp [step, finish, whenActive, ha]
  have hdict : (killTask tid s).1.taskDict =
      s.taskDict.modify tid (fun r => { r with state := .killed }) :=
    killTask_frame (·.taskDict) (fun _ _ => rfl) (fun _ _ _ => rfl) hk.notForeign hk.record
  have hid : (killTask tid s).1.taskDictId = s.taskDictId :=
    killTask_frame (·.taskDictId) (fun _ _ => rfl) (fun _ _ _ => rfl) hk.notForeign hk.record
  have hdel : (killTask tid s).1.deleteElements = s.deleteElements ++ [.task s.taskDictId tid] :=
    killTask_frame (·.deleteElements) (fun _ _ => rfl) (fun _ _ _ => rfl) hk.notForeign hk.record
  have hgone : tid ∉ (postprocess (killTask tid s).1).taskDict := by
    rw [← lookup_eq_none, lookup_taskDict_postprocess, hid, hdel]
    simp
  have hretired : Retired tid (postprocess (killTask tid s).1) ↔ Retired tid (postprocess s) := by
    refine retired_postprocess_iff (fun sid => by rw [hdel]; simp) ?_ fun other hne => ?_
    · exact fun sid => killTask_slaves.map_eq (fun _ _ h => h.commandExecutors) sid
    · refine lookup_taskDict_other hdict hid (fun other hne => ?_) hne
      rw [hdel]
      simp [hne]
  rw [hstep]
  exact ⟨fun h => hretired.mp h.retired, fun h => ⟨hgone, hretired.mpr h⟩⟩

/-! ## Finishing on a slave -/

section Finish

variable {tid sid : String} {slave : Slave} {task : TaskRecord} {s : Service}

lemma finishOnSlave_next_iff :
    (finishOnSlave tid sid slave task s).2 = .next ↔ CompletesOn tid task slave := by
  unfold finishOnSlave CompletesOn
  split_ifs with hc
  · unfold finishCommand
    cases (slave.commandExecutors.lookup tid).bind (·.channel) with
    | none => simp
    | some c =>
      dsimp only
      split_ifs <;> simp
  · exact .rfl

lemma any_active_finishEntry :
    (slave.finishEntry tid).values.any (·.active) = false ↔ OthersInactive tid slave := by
  rw [List.any_eq_false]
  constructor
  · intro h other e hne he
    have hmem : e ∈ (slave.finishEntry tid).values :=
      mem_values_iff.mpr ⟨other, (lookup_modify_ne hne _ _).trans he⟩
    simpa using h e hmem
  · intro h e hmem
    obtain ⟨k, hk⟩ := mem_values_iff.mp hmem
    rcases lookup_modify_cases hk with ⟨-, e', -, rfl⟩ | ⟨hne, hk⟩
    · simp
    · simpa using h k e hne hk

lemma finishOnSlave_plain (hs : s.slaveDict.lookup sid = some slave)
    (h : slave.isCommandExecutor = false ∨ ¬ CompletesOn tid task slave) :
    (finishOnSlave tid sid slave task s).1.deleteElements = s.deleteElements ∧
      ∀ x, ((finishOnSlave tid sid slave task s).1.slaveDict.lookup x).map (·.commandExecutors) =
        (s.slaveDict.lookup x).map (·.commandExecutors) := by
  unfold finishOnSlave
  by_cases hc : slave.isCommandExecutor
  · rw [if_pos hc]
    have hnone : (slave.commandExecutors.lookup tid).bind (·.channel) = none := by
      have hcomp := h.resolve_left (by simp [hc])
      rw [CompletesOn, if_pos hc] at hcomp
      simpa using hcomp
    simp only [finishCommand, hnone, and_self, implies_true]
  · rw [if_neg hc]
    have hrel : SlavesRel Slave.SameControl s
        (s.modifySlave sid (fun _ => (creditResources task.taskInfo slave).1)) := by
      refine SlavesRel.modifySlave .refl fun sl hl => ?_
      rw [hs] at hl
      cases hl
      exact creditResources_sameControl task.taskInfo slave
    exact ⟨rfl, hrel.map_eq fun _ _ h => h.commandExecutors⟩

lemma finishOnSlave_command (hc : slave.isCommandExecutor) (h : CompletesOn tid task slave) :
    (finishOnSlave tid sid slave task s).1.slaveDict =
        s.slaveDict.modify sid (fun sl => { sl with commandExecutors := slave.finishEntry tid }) ∧
      (finishOnSlave tid sid slave task s).1.deleteElements = s.deleteElements ++
        (if (slave.finishEntry tid).values.any (·.active) then [] else [.slave sid]) := by
  rw [CompletesOn, if_pos hc] at h
  obtain ⟨c, hchan⟩ := isSome_iff_exists.mp h
  unfold finishOnSlave
  rw [if_pos hc, finishCommand, hchan]
  dsimp only
  split_ifs
  · exact ⟨rfl, (List.append_nil _).symm⟩
  · exact ⟨rfl, rfl⟩

end Finish

/-! ## Status updates -/

section Update

variable {u : StatusUpdate} {task : TaskRecord} {s k : Service}

structure Settled (u : StatusUpdate) (s k : Service) : Prop where
  taskDict : k.taskDict = s.taskDict.modify u.taskId (fun r => { r with state := u.state })
  taskDictId : k.taskDictId = s.taskDictId
  queued : ∀ other, other ≠ u.taskId →
    (.task s.taskDictId other ∈ k.deleteElements ↔ .task s.taskDictId other ∈ s.deleteElements)

lemma Settled.lookup_other (h : Settled u s k) {other : String} (hne : other ≠ u.taskId) :
    (postprocess k).taskDict.lookup other = (postprocess s).taskDict.lookup other :=
  lookup_taskDict_other h.taskDict h.taskDictId h.queued hne

lemma Settled.removed_iff (h : Settled u s k) (hk : s.Knows u.taskId task) :
    u.taskId ∉ (postprocess k).taskDict ↔ .task s.taskDictId u.taskId ∈ k.deleteElements := by
  rw [← lookup_eq_none, lookup_taskDict_postprocess, h.taskDictId, h.taskDict,
    lookup_modify_self, hk.record]
  split_ifs with hq
  · simp [hq]
  · simp [hq]

lemma Settled.cleanedUp_iff (h : Settled u s k) (hk : s.Knows u.taskId task)
    (hq : ∀ sid, .slave sid ∈ k.deleteElements ↔ .slave sid ∈ s.deleteElements)
    (hce : ∀ sid, (k.slaveDict.lookup sid).map (·.commandExecutors) =
      (s.slaveDict.lookup sid).map (·.commandExecutors)) : CleanedUp u.taskId (postprocess k) ↔
      .task s.taskDictId u.taskId ∈ k.deleteElements ∧ Retired u.taskId (postprocess s) := by
  have hret := retired_postprocess_iff hq hce fun _ hne => h.lookup_other hne
  exact ⟨fun hc => ⟨(h.removed_iff hk).mp hc.removed, hret.mp hc.retired⟩,
    fun hc => ⟨(h.removed_iff hk).mpr hc.1, hret.mpr hc.2⟩⟩

lemma updateCleansUp_iff (hfin : ∀ sid slave, (postprocess s).slaveDict.lookup sid = some slave →
      u.taskId ∈ slave.commandExecutors → ¬ FinishesOn u task s sid) : UpdateCleansUp u task s ↔
      (Queued u.taskId s ∨ ∃ sid, FinishesOn u task s sid) ∧ Retired u.taskId (postprocess s) := by
  constructor
  · rintro ⟨hrem, hret⟩
    refine ⟨hrem, fun sid slave e hl he => ?_⟩
    exact (hret sid slave e hl he).resolve_left fun h => hfin sid slave hl (mem_of_lookup he) h.1
  · rintro ⟨hrem, hret⟩
    exact ⟨hrem, fun sid slave e hl he => .inr (hret sid slave e hl he)⟩

lemma lookup_of_postprocess (h : (postprocess s).slaveDict.lookup sid = some slave) :
    s.slaveDict.lookup sid = some slave := by
  rw [lookup_slaveDict_postprocess] at h
  split_ifs at h
  exact h

lemma not_mem_of_not_command (h : slave.isCommandExecutor = false) (tid : String) :
    tid ∉ slave.commandExecutors := by
  rw [mem_keys]
  simp only [Slave.isCommandExecutor, Bool.not_eq_false', List.isEmpty_iff] at h
  rw [h]
  exact List.not_mem_nil

lemma retired_command_iff (hset : Settled u s k)
    (htarget : finishTarget u task s = some (sid, slave)) (hcomp : CompletesOn u.taskId task slave)
    (hslaves : k.slaveDict = s.slaveDict.modify sid
      (fun sl => { sl with commandExecutors := slave.finishEntry u.taskId }))
    (hq : ∀ x, .slave x ∈ k.deleteElements ↔ .slave x ∈ s.deleteElements ∨
      (x = sid ∧ OthersInactive u.taskId slave)) :
    Retired u.taskId (postprocess k) ↔ ∀ x sl e, (postprocess s).slaveDict.lookup x = some sl →
        sl.commandExecutors.lookup u.taskId = some e → (FinishesOn u task s x ∧
            (OthersInactive u.taskId sl ∨ HasOtherTask u.taskId (postprocess s) sl)) ∨
          (e.active = false ∧ HasOtherTask u.taskId (postprocess s) sl) := by
  have hs := lookup_of_finishTarget htarget
  have hfinish : FinishesOn u task s sid := ⟨slave, htarget, hcomp⟩
  have hother : ∀ x, x ≠ sid →
      (postprocess k).slaveDict.lookup x = (postprocess s).slaveDict.lookup x := by
    intro x hx
    rw [lookup_slaveDict_postprocess, lookup_slaveDict_postprocess, hslaves, lookup_modify_ne hx]
    simp only [hq x, hx, false_and, or_false]
  have htask : ∀ sl sl', (∀ o, o ∈ sl'.commandExecutors ↔ o ∈ sl.commandExecutors) →
      (HasOtherTask u.taskId (postprocess k) sl' ↔ HasOtherTask u.taskId (postprocess s) sl) :=
    fun _ _ hmem => hasOtherTask_congr hmem fun _ hne => hset.lookup_other hne
  have hkeys : ∀ o, o ∈ slave.finishEntry u.taskId ↔ o ∈ slave.commandExecutors := fun _ => mem_modify
  constructor
  · intro hret x sl e hl he
    by_cases hx : x = sid
    · subst hx
      have : sl = slave := Option.some.inj ((lookup_of_postprocess hl).symm.trans hs)
      subst this
      refine .inl ⟨hfinish, or_iff_not_imp_left.mpr fun hact => ?_⟩
      -- an entry is still active, so the slave stays and its entry for the task is inactive
      have hnq : DeleteElement.slave x ∉ s.deleteElements := by
        intro hmem
        rw [lookup_slaveDict_postprocess, if_pos hmem] at hl
        cases hl
      have hl' : (postprocess k).slaveDict.lookup x =
          some { sl with commandExecutors := sl.finishEntry u.taskId } := by
        rw [lookup_slaveDict_postprocess, if_neg, hslaves, lookup_modify_self, hs]
        · rfl
        · rw [hq x]
          exact not_or.mpr ⟨hnq, fun h => hact h.2⟩
      have he' : (sl.finishEntry u.taskId).lookup u.taskId = some { e with active := false } := by
        rw [Slave.finishEntry, lookup_modify_self, he]
        rfl
      exact (htask sl _ hkeys).mp (hret x _ _ hl' he').2
    · have hl' := (hother x hx).trans hl
      obtain ⟨hact, hot⟩ := hret x sl e hl' he
      exact .inr ⟨hact, (htask sl sl fun _ => .rfl).mp hot⟩
  · intro h x sl' e' hl' he'
    by_cases hx : x = sid
    · subst hx
      rw [lookup_slaveDict_postprocess] at hl'
      split_ifs at hl' with hmem
      rw [hq x, not_or] at hmem
      rw [hslaves, lookup_modify_self, hs] at hl'
      cases hl'
      obtain ⟨e, he, rfl⟩ := of_lookup_modify_self he'
      have hl : (postprocess s).slaveDict.lookup x = some slave := by
        rw [lookup_slaveDict_postprocess, if_neg hmem.1, hs]
      refine ⟨rfl, (htask slave _ hkeys).mpr ?_⟩
      rcases h x slave e hl he with ⟨-, hin | hot⟩ | ⟨-, hot⟩
      · exact absurd ⟨rfl, hin⟩ hmem.2
      · exact hot
      · exact hot
    · rw [hother x hx] at hl'
      rcases h x sl' e' hl' he' with ⟨⟨_, ht, -⟩, -⟩ | ⟨hact, hot⟩
      · rw [htarget] at ht
        cases ht
        exact absurd rfl hx
      · exact ⟨hact, (htask sl' sl' fun _ => .rfl).mpr hot⟩

lemma finishesOn_iff (htarget : finishTarget u task s = some (sid, slave)) {x : String} :
    FinishesOn u task s x ↔ x = sid ∧ CompletesOn u.taskId task slave := by
  constructor
  · rintro ⟨sl, ht, hc⟩
    rw [htarget] at ht
    cases ht
    exact ⟨rfl, hc⟩
  · rintro ⟨rfl, hc⟩
    exact ⟨slave, htarget, hc⟩

section

variable (hk : s.Knows u.taskId task) (hset : Settled u s k)
include hk hset

lemma cleanedUp_unfinished (hq : k.deleteElements = s.deleteElements)
    (hce : ∀ sid, (k.slaveDict.lookup sid).map (·.commandExecutors) =
      (s.slaveDict.lookup sid).map (·.commandExecutors))
    (hnot : ∀ sid, ¬ FinishesOn u task s sid) :
    CleanedUp u.taskId (postprocess k) ↔ UpdateCleansUp u task s := by
  rw [hset.cleanedUp_iff hk (fun _ => by rw [hq]) hce, updateCleansUp_iff fun sid _ _ _ => hnot sid, hq]
  simp only [hnot, exists_false, or_false]
  exact .rfl

lemma cleanedUp_plain (htarget : finishTarget u task s = some (sid, slave))
    (hcomp : CompletesOn u.taskId task slave) (hc : slave.isCommandExecutor = false)
    (hq : k.deleteElements = s.deleteElements ++ [.task s.taskDictId u.taskId])
    (hce : ∀ sid, (k.slaveDict.lookup sid).map (·.commandExecutors) =
      (s.slaveDict.lookup sid).map (·.commandExecutors)) :
    CleanedUp u.taskId (postprocess k) ↔ UpdateCleansUp u task s := by
  have hfin : ∀ x sl, (postprocess s).slaveDict.lookup x = some sl →
      u.taskId ∈ sl.commandExecutors → ¬ FinishesOn u task s x := by
    intro x sl hl hmem hf
    obtain ⟨rfl, -⟩ := (finishesOn_iff htarget).mp hf
    have hs := lookup_of_finishTarget htarget
    rw [lookup_of_postprocess hl] at hs
    cases hs
    exact not_mem_of_not_command hc _ hmem
  rw [hset.cleanedUp_iff hk (fun _ => by rw [hq]; simp) hce, updateCleansUp_iff hfin, hq]
  have hex : ∃ x, FinishesOn u task s x := ⟨sid, (finishesOn_iff htarget).mpr ⟨rfl, hcomp⟩⟩
  simp [hex]

lemma cleanedUp_command (htarget : finishTarget u task s = some (sid, slave))
    (hcomp : CompletesOn u.taskId task slave)
    (hslaves : k.slaveDict = s.slaveDict.modify sid
      (fun sl => { sl with commandExecutors := slave.finishEntry u.taskId }))
    (hq : k.deleteElements = s.deleteElements ++
      (if (slave.finishEntry u.taskId).values.any (·.active) then [] else [.slave sid]) ++
      [.task s.taskDictId u.taskId]) :
    CleanedUp u.taskId (postprocess k) ↔ UpdateCleansUp u task s := by
  have hslave : ∀ x, .slave x ∈ k.deleteElements ↔
      .slave x ∈ s.deleteElements ∨ (x = sid ∧ OthersInactive u.taskId slave) := by
    intro x
    rw [hq, ← any_active_finishEntry]
    cases (slave.finishEntry u.taskId).values.any (·.active) <;> simp
  have hret := retired_command_iff hset htarget hcomp hslaves hslave
  have hrem : u.taskId ∉ (postprocess k).taskDict := (hset.removed_iff hk).mpr (by rw [hq]; simp)
  constructor
  · exact fun h => ⟨.inr ⟨sid, (finishesOn_iff htarget).mpr ⟨rfl, hcomp⟩⟩, hret.mp h.retired⟩
  · exact fun h => ⟨hrem, hret.mpr h.retires⟩

end

lemma statusUpdate_cleanedUp_iff (ha : s.active) (hk : s.Knows u.taskId task) :
    CleanedUp u.taskId (step s (.statusUpdate true u)) ↔ UpdateCleansUp u task s := by
  have hstep : step s (.statusUpdate true u) =
      postprocess (settleUpdate u task (forwardUpdate u task s)).1 := by
    simp only [step, finish, whenActive, ha, if_true, handleStatusUpdate_known hk.notForeign hk.record]
  have hdict : (settleUpdate u task (forwardUpdate u task s)).1.taskDict =
      (forwardUpdate u task s).taskDict :=
    settleUpdate_frame (·.taskDict) (fun _ _ _ => rfl) (fun _ _ => rfl)
  have hid : (settleUpdate u task (forwardUpdate u task s)).1.taskDictId =
      (forwardUpdate u task s).taskDictId :=
    settleUpdate_frame (·.taskDictId) (fun _ _ _ => rfl) (fun _ _ => rfl)
  rw [hstep]
  have heq := settleUpdate_eq u task (forwardUpdate u task s)
  rw [show finishTarget u task (forwardUpdate u task s) = finishTarget u task s from rfl] at heq
  cases htarget : finishTarget u task s with
  | none =>
    rw [htarget] at heq
    refine cleanedUp_unfinished hk ⟨hdict, hid, fun _ _ => by rw [heq]; exact .rfl⟩
      (by rw [heq]; rfl) (fun _ => by rw [heq]; rfl) ?_
    rintro sid ⟨slave, h, -⟩
    rw [htarget] at h
    cases h
  | some target =>
    obtain ⟨sid, slave⟩ := target
    rw [htarget] at heq
    have hs : (forwardUpdate u task s).slaveDict.lookup sid = some slave :=
      lookup_of_finishTarget htarget
    by_cases hcomp : CompletesOn u.taskId task slave
    · dsimp only at heq
      rw [seq_of_next (finishOnSlave_next_iff.mpr hcomp)] at heq
      have hfid : (finishOnSlave u.taskId sid slave task (forwardUpdate u task s)).1.taskDictId =
          s.taskDictId :=
        finishOnSlave_rule (I := fun s' => s'.taskDictId = s.taskDictId) (fun _ => rfl) (fun _ => rfl)
          (fun _ _ h => h) rfl
      cases hc : slave.isCommandExecutor with
      | false =>
        obtain ⟨hq, hce⟩ := finishOnSlave_plain hs (.inl hc)
        have hq' : (settleUpdate u task (forwardUpdate u task s)).1.deleteElements =
            s.deleteElements ++ [.task s.taskDictId u.taskId] := by
          rw [heq, Service.queueTask_deleteElements, hq, hfid]
          rfl
        refine cleanedUp_plain hk ⟨hdict, hid, fun _ hne => ?_⟩ htarget hcomp hc hq' ?_
        · rw [hq']
          simp [hne]
        · exact fun x => by rw [heq]; exact hce x
      | true =>
        obtain ⟨hslaves, hq⟩ := finishOnSlave_command hc hcomp
        have hq' : (settleUpdate u task (forwardUpdate u task s)).1.deleteElements = s.deleteElements ++
              (if (slave.finishEntry u.taskId).values.any (·.active) then [] else [.slave sid]) ++
                [.task s.taskDictId u.taskId] := by
          rw [heq, Service.queueTask_deleteElements, hq, hfid]
          rfl
        refine cleanedUp_command hk ⟨hdict, hid, fun _ hne => ?_⟩ htarget hcomp ?_ hq'
        · rw [hq']
          cases (slave.finishEntry u.taskId).values.any (·.active) <;> simp [hne]
        · rw [heq]
          exact hslaves
    · have hne : (finishOnSlave u.taskId sid slave task (forwardUpdate u task s)).2 ≠ .next :=
        fun h => hcomp (finishOnSlave_next_iff.mp h)
      dsimp only at heq
      rw [seq_of_ne hne] at heq
      obtain ⟨hq, hce⟩ := finishOnSlave_plain hs (.inr hcomp)
      rw [← heq] at hq hce
      refine cleanedUp_unfinished hk ⟨hdict, hid, fun _ _ => by rw [hq]; exact .rfl⟩ hq hce ?_
      exact fun x hx => hcomp ((finishesOn_iff htarget).mp hx).2

end Update

/-! ## The messages that make a task terminal -/

theorem terminal_cleanedUp_iff {s : Service} {tid : String} {task : TaskRecord}
    (ha : s.active = true) (hk : s.Knows tid task) :
    (CleanedUp tid (step s (.killTask true tid)) ↔ Retired tid (postprocess s)) ∧
      ∀ u : StatusUpdate, u.taskId = tid → u.state.isTerminal = true →
        (CleanedUp tid (step s (.statusUpdate true u)) ↔ UpdateCleansUp u task s) := by
  refine ⟨killTask_cleanedUp_iff ha hk, ?_⟩
  rintro u rfl -
  exact statusUpdate_cleanedUp_iff ha hk

def waitingForJob : Service :=
  runFrom smallService [.launchTasks true 0
    { offerIds := [], tasks := [⟨oneCpuTask "a" "place-holder-1", [{ id := "7" }]⟩] }]

def waitingRecord : TaskRecord :=
  { taskInfo := oneCpuTask "a" "place-holder-1"
    state := .staging
    queueTime := some 0
    jobId := some "7" }

theorem cleanedUp_waitingForJob :
    waitingForJob.active = true ∧ CleanedUp "a" (step waitingForJob (.killTask true "a")) := by
  have ha : waitingForJob.active = true := by decide +kernel
  have hk : waitingForJob.Knows "a" waitingRecord := ⟨by decide +kernel, by decide +kernel⟩
  refine ⟨ha, (terminal_cleanedUp_iff ha hk).1.mpr fun sid slave e hl he => ?_⟩
  have hempty : (postprocess waitingForJob).slaveDict = ∅ := rfl
  rw [hempty] at hl
  cases hl

theorem not_cleanedUp_lost :
    runningOnSlave.active = true ∧ "a" ∈ runningOnSlave.taskDict ∧ runningOnSlave.foreign = [] ∧
      ¬ CleanedUp "a" (step runningOnSlave (.statusUpdate true
        { taskId := "a", state := .lost, slaveId := some (slaveOf "7" "c7") })) := by
  refine ⟨by decide +kernel, by decide +kernel, by decide +kernel, fun h => ?_⟩
  exact h.removed (by decide +kernel)

end Urb
