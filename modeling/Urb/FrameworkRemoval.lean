/-
# `Urb.FrameworkRemoval` — when a framework can be removed

`__delete_framework` takes for granted that the framework has been built up in
full, and an exception on the way leaves it in the tracker:

    framework['task_dict']          there is none before the first LaunchTasks message
    task_info['name']               read for the debug line of every record that is not
                                    FINISHED; a record made by reconciliation has none
    task_dict[key]['state']         reconciliation can put fields of a record where the
                                    records should be
    finished_framework_dict         the oldest finished id may have no record left, or be
                                    the id of this very framework

**Proved here.**  In every other state the removal completes, and does all it should
(`deleteFramework_removed_iff`).
-/
import Urb.Step
import Urb.Tracker

namespace Urb

open Block AList Service List

/-! ## The service with all its frameworks -/

/-- The frameworks and the monitored jobs. -/
structure Master where
  frameworks : FrameworkTracker Service
  jobs : JobTracker

namespace Master

def update (id : String) (s : Service) (m : Master) : Master :=
  { m with frameworks := m.frameworks.add id s }

def retire (id : String) (s : Service) : Block Master := fun m =>
  let jobs := ((s.jobIds.getD []).map (·.id)).foldl stopJobMonitoring m.jobs
  let r := FrameworkTracker.remove id m.frameworks
  ({ frameworks := r.1, jobs := jobs }, r.2)

def deleteFramework (id : String) : Block Master := fun m =>
  match m.frameworks.get id with
  | none => (m, .ret)
  | some s =>
    let r := Urb.deleteFramework s
    if r.2 = .next then retire id r.1 (m.update id r.1)
    else (m.update id r.1, r.2)

end Master

/-! ## Forcing the records -/

def TaskRecord.CanBeForced (r : TaskRecord) : Prop := r.state = .finished ∨ r.notValid = false

lemma forced_isTerminal (state : TaskState) : state.forced.isTerminal := by
  cases state <;> rfl

section Force

variable {s : Service} {tid k : String} {r : TaskRecord}

lemma forceTask_of_none (h : s.taskDict.lookup tid = none) : forceTask tid s = (s, .next) := by
  rw [forceTask, h]

lemma forceTask_of_some (h : s.taskDict.lookup tid = some r) :
    forceTask tid s = if r.state = .finished then (s, .next) else if r.notValid then (s, .raise)
      else (s.setTaskState tid r.state.forced, .next) := by
  rw [forceTask, h]

lemma forceTask_next_iff :
    (forceTask tid s).2 = .next ↔ ∀ r, s.taskDict.lookup tid = some r → r.CanBeForced := by
  cases hr : s.taskDict.lookup tid with
  | none =>
    rw [forceTask_of_none hr]
    exact iff_of_true rfl fun r h => by cases h
  | some r =>
    simp only [forceTask_of_some hr, TaskRecord.CanBeForced, Option.some.injEq, forall_eq']
    split_ifs with hfin hn
    · simp [hfin]
    · simp [hfin, hn]
    · simp [hn]

lemma forceTask_ne (h : k ≠ tid) : (forceTask tid s).1.taskDict.lookup k = s.taskDict.lookup k := by
  cases hr : s.taskDict.lookup tid with
  | none => rw [forceTask_of_none hr]
  | some r =>
    rw [forceTask_of_some hr]
    split_ifs
    · rfl
    · rfl
    · exact lookup_modify_ne h _ _

lemma forceTask_self (hnext : (forceTask tid s).2 = .next)
    (h : (forceTask tid s).1.taskDict.lookup tid = some r) : r.state.isTerminal := by
  cases hr : s.taskDict.lookup tid with
  | none =>
    rw [forceTask_of_none hr, hr] at h
    cases h
  | some r₀ =>
    rw [forceTask_of_some hr] at hnext h
    split_ifs at hnext h with hfin
    · rw [hr] at h
      cases h
      rw [hfin]
      rfl
    · rw [setTaskState_taskDict, lookup_modify_self, hr] at h
      cases h
      exact forced_isTerminal _

lemma canBeForced_forceTask (hnext : (forceTask tid s).2 = .next) :
    (∀ r, (forceTask tid s).1.taskDict.lookup k = some r → r.CanBeForced) ↔
      ∀ r, s.taskDict.lookup k = some r → r.CanBeForced := by
  by_cases hk : k = tid
  · subst hk
    refine iff_of_true (fun r h => ?_) (forceTask_next_iff.mp hnext)
    cases hr : s.taskDict.lookup k with
    | none =>
      rw [forceTask_of_none hr, hr] at h
      cases h
    | some r₀ =>
      rw [forceTask_of_some hr] at hnext h
      split_ifs at hnext h with hfin hn
      · rw [hr] at h
        cases h
        exact .inl hfin
      · rw [setTaskState_taskDict, lookup_modify_self, hr] at h
        cases h
        exact .inr (Bool.eq_false_iff.mpr hn)
  · rw [forceTask_ne hk]

lemma forEach_forceTask : ∀ (l : List String) (s : Service), ((forEach forceTask l s).2 = .next ↔
        ∀ tid ∈ l, ∀ r, s.taskDict.lookup tid = some r → r.CanBeForced) ∧
      ((forEach forceTask l s).2 = .next →
        (∀ k r, s.taskDict.lookup k = some r → k ∈ l ∨ r.state.isTerminal) →
        ∀ k r, (forEach forceTask l s).1.taskDict.lookup k = some r → r.state.isTerminal)
  | [], s => ⟨iff_of_true rfl fun _ h => absurd h not_mem_nil,
      fun _ h k r hr => (h k r hr).resolve_left not_mem_nil⟩
  | tid :: l, s => by
    by_cases hnext : (forceTask tid s).2 = .next
    · obtain ⟨hiff, hterm⟩ := forEach_forceTask l (forceTask tid s).1
      rw [forEach_cons, seq_of_next hnext]
      refine ⟨?_, fun hend h => hterm hend fun k r hr => ?_⟩
      · simp only [hiff, canBeForced_forceTask hnext, forall_mem_cons]
        exact (and_iff_right (forceTask_next_iff.mp hnext)).symm
      · by_cases hk : k = tid
        · subst hk
          exact .inr (forceTask_self hnext hr)
        · rw [forceTask_ne hk] at hr
          exact (h k r hr).imp_left fun hmem => (mem_cons.mp hmem).resolve_left hk
    · rw [forEach_cons, seq_of_ne hnext]
      refine ⟨iff_of_false hnext fun h => hnext (forceTask_next_iff.mpr (h tid mem_cons_self)), ?_⟩
      exact fun hend => absurd hend hnext

lemma forEach_forceTask_frame {β : Type} (f : Service → β)
    (hf : ∀ tid state s, f (s.setTaskState tid state) = f s) (l : List String) (s : Service) :
    f (forEach forceTask l s).1 = f s := by
  refine forEach_inv (I := fun s' => f s' = f s) (fun tid _ s' h => ?_) rfl
  cases hr : s'.taskDict.lookup tid with
  | none => rw [forceTask_of_none hr, h]
  | some r =>
    rw [forceTask_of_some hr]
    split_ifs
    · exact h
    · exact h
    · exact (hf _ _ _).trans h

end Force

/-! ## The removal of the record -/

section Remove

variable {s : Service}

def shutDown (s : Service) : Service :=
  (s.slaveDict.values.foldl shutdownExecutor s).send
    (.deleteJobs (((s.slaveDict.values.foldl shutdownExecutor s).jobIds.getD []).map (·.id)))

lemma shutDown_frame {β : Type} (f : Service → β) (hf : ∀ m s, f (s.send m) = f s) (s : Service) :
    f (shutDown s) = f s := by
  have hchannels : ∀ (l : List String) (s : Service),
      f (l.foldl (fun s c => s.send (.shutdownExecutor c)) s) = f s := by
    intro l
    induction l with
    | nil => exact fun _ => rfl
    | cons c l ih => exact fun s => (ih _).trans (hf _ s)
  have hslave : ∀ (slave : Slave) (s : Service), f (shutdownExecutor s slave) = f s := by
    intro slave s
    unfold shutdownExecutor
    split
    · exact hf _ s
    · exact hchannels _ s
  have hslaves : ∀ (l : List Slave) (s : Service), f (l.foldl shutdownExecutor s) = f s := by
    intro l
    induction l with
    | nil => exact fun _ => rfl
    | cons slave l ih => exact fun s => (ih _).trans (hslave slave s)
  exact (hf _ _).trans (hslaves _ s)

lemma deleteFramework_eq (s : Service) :
    deleteFramework s = if !(shutDown s).taskDictSet then (shutDown s, .raise)
      else seq (forEach forceTask (shutDown s).taskDict.keys) (seq raiseIfForeign
        (fun s => ({ s with active := false }, .next))) (shutDown s) := rfl

/-- The record of the framework can be taken down. -/
structure Removable (s : Service) : Prop where
  taskDictSet : s.taskDictSet = true
  noForeign : s.foreign = []
  named : ∀ tid r, s.taskDict.lookup tid = some r → r.CanBeForced

lemma deleteFramework_next_iff : (deleteFramework s).2 = .next ↔ Removable s := by
  have hset : (shutDown s).taskDictSet = s.taskDictSet := shutDown_frame _ (fun _ _ => rfl) s
  have htasks : (shutDown s).taskDict = s.taskDict := shutDown_frame _ (fun _ _ => rfl) s
  have hforeign : (forEach forceTask s.taskDict.keys (shutDown s)).1.foreign = s.foreign :=
    (forEach_forceTask_frame foreign (fun _ _ _ => rfl) _ _).trans (shutDown_frame _ (fun _ _ => rfl) s)
  have hraise : (raiseIfForeign (forEach forceTask s.taskDict.keys (shutDown s)).1).2 = .next ↔
      s.foreign = [] := by
    rw [raiseIfForeign, hforeign]
    split_ifs with h
    · exact iff_of_true rfl h
    · exact iff_of_false (fun hn => by cases hn) h
  have hkeys : (∀ tid ∈ s.taskDict.keys, ∀ r, s.taskDict.lookup tid = some r → r.CanBeForced) ↔
      ∀ tid r, s.taskDict.lookup tid = some r → r.CanBeForced :=
    ⟨fun h tid r hr => h tid (mem_of_lookup hr) r hr, fun h tid _ r hr => h tid r hr⟩
  rw [deleteFramework_eq, hset, htasks]
  cases hts : s.taskDictSet with
  | false => exact iff_of_false (fun h => by cases h) fun h => by cases h.taskDictSet.symm.trans hts
  | true =>
    rw [if_neg (by simp), seq_next_iff, seq_next_iff, hraise, (forEach_forceTask _ _).1, htasks, hkeys]
    exact ⟨fun h => ⟨hts, h.2.1, h.1⟩, fun h => ⟨h.named, h.noForeign, rfl⟩⟩

lemma deleteFramework_jobIds (s : Service) : (deleteFramework s).1.jobIds = s.jobIds := by
  have hshut : (shutDown s).jobIds = s.jobIds := shutDown_frame _ (fun _ _ => rfl) s
  rw [deleteFramework_eq]
  split_ifs
  · exact hshut
  · refine seq_inv (I := fun s' : Service => s'.jobIds = s.jobIds) ?_ fun h => ?_
    · exact (forEach_forceTask_frame jobIds (fun _ _ _ => rfl) _ _).trans hshut
    · exact seq_inv (I := fun s' : Service => s'.jobIds = s.jobIds) h fun h => h

lemma deleteFramework_terminal (h : Removable s) {k : String} {r : TaskRecord}
    (hr : (deleteFramework s).1.taskDict.lookup k = some r) : r.state.isTerminal := by
  have hnext := deleteFramework_next_iff.mpr h
  rw [deleteFramework_eq] at hnext hr
  split_ifs at hnext hr
  obtain ⟨hloop, hrest⟩ := seq_next_iff.mp hnext
  rw [seq_of_next hloop, seq_of_next (seq_next_iff.mp hrest).1] at hr
  exact (forEach_forceTask _ _).2 hloop (fun _ _ hk => .inl (mem_of_lookup hk)) k r hr

end Remove

/-! ## The removal from the tracker -/

structure Removed (id : String) (s : Service) (m : Master) : Prop where
  left : id ∉ m.frameworks.active
  finished : ∃ s', m.frameworks.finished.lookup id = some s' ∧
    ∀ k r, s'.taskDict.lookup k = some r → r.state.isTerminal = true
  unmonitored : ∀ j ∈ s.jobIds.getD [], ¬ m.jobs.Monitored j.id

section Master

variable {m : Master} {id : String} {s : Service}

theorem deleteFramework_removed_iff (hs : m.frameworks.get id = some s) :
    ((m.deleteFramework id).2 = .next ∧ Removed id s (m.deleteFramework id).1) ↔
      Removable s ∧ m.frameworks.HasRoomFor id := by
  have hself : (m.update id (deleteFramework s).1).frameworks.get id = some (deleteFramework s).1 :=
    AList.lookup_insert _
  simp only [Master.deleteFramework, hs]
  constructor
  · rintro ⟨hflow, hremoved⟩
    split_ifs at hflow hremoved with hnext
    · obtain ⟨s', hs', -⟩ := hremoved.finished
      have hroom : (m.update id (deleteFramework s).1).frameworks.HasRoomFor id :=
        FrameworkTracker.room_of_remove hself hflow (AList.mem_of_lookup hs')
      exact ⟨deleteFramework_next_iff.mp hnext, hroom⟩
    · exact absurd hflow hnext
  · rintro ⟨hrecord, hroom⟩
    rw [if_pos (deleteFramework_next_iff.mpr hrecord)]
    obtain ⟨hflow, hfin⟩ := FrameworkTracker.remove_of_room hself hroom
    refine ⟨hflow, FrameworkTracker.remove_active, ⟨_, hfin, fun k r hr => ?_⟩, fun j hj => ?_⟩
    · exact deleteFramework_terminal hrecord hr
    · refine not_monitored_stopAll _ _ j.id (List.mem_map_of_mem ?_)
      rw [deleteFramework_jobIds]
      exact hj

end Master

/-! ## Two frameworks -/

def masterOf (s : Service) : Master :=
  { frameworks := { active := AList.singleton "fw" s }
    jobs := startJobMonitoring "7" "fw" ∅ }

theorem deleteFramework_removed_running :
    (masterOf runningOnSlave).jobs.Monitored "7" ∧
      ((masterOf runningOnSlave).deleteFramework "fw").2 = .next ∧
      Removed "fw" runningOnSlave ((masterOf runningOnSlave).deleteFramework "fw").1 := by
  have hnamed : ∀ r ∈ runningOnSlave.taskDict.values, r.notValid = false := by decide +kernel
  refine ⟨⟨_, rfl, rfl⟩, (deleteFramework_removed_iff rfl).mpr ⟨⟨?_, ?_, fun tid r hr => ?_⟩, ?_⟩⟩
  · decide +kernel
  · decide +kernel
  · exact Or.inr (hnamed r (AList.mem_values_iff.mpr ⟨tid, hr⟩))
  · intro hfull
    cases hfull

theorem deleteFramework_raises_fresh :
    ((masterOf smallService).deleteFramework "fw").2 = .raise ∧
      "fw" ∈ ((masterOf smallService).deleteFramework "fw").1.frameworks.active := by
  constructor
  · decide +kernel
  · decide +kernel

end Urb
