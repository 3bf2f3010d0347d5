/-
# `Urb.SlaveMemory` — what a slave can tell a service that has been restarted

A slave is two processes, and each has its own memory of the tasks.  The
executor RUNNER tracks the tasks of the LaunchTasks messages it gets and forgets
none; a message that finds the executor running is given up after its first
task.  The EXECUTOR has the two maps of `Urb.ExecutorProcess`.  When the service
has been away each of the two reports what it remembers:

    runner      every task it has tracked                    (service_disconnected)
    executor    the tasks without an acknowledged FINISHED   (reconnect)
                update, and the updates that wait for an
                acknowledgement

`Memory` is what the two report, together with what is true; `SlaveSide.memory` reads
it off a history.
-/
import Urb.ExecutorProcess

namespace Urb

open Block List

/-! ## The executor runner -/

structure RunnerProcess where
  tasks : Dict String TaskInfo := ∅
  executors : List String := []

namespace RunnerProcess

def executorIdOf (t : TaskInfo) : String := (t.executor.map (·.executorId)).getD t.taskId

def launchTask (t : TaskInfo) : Block RunnerProcess := fun p =>
  let p := { p with tasks := p.tasks.put t.taskId t }
  if executorIdOf t ∈ p.executors then (p, .ret)
  else ({ p with executors := executorIdOf t :: p.executors }, .next)

def launchTasks (ts : List TaskInfo) (p : RunnerProcess) : RunnerProcess :=
  (forEach launchTask ts p).1

def serviceDisconnected (p : RunnerProcess) : List TaskInfo := p.tasks.values

end RunnerProcess

/-! ## The slave -/

structure SlaveSide where
  runner : RunnerProcess := {}
  executor : ExecutorRun := {}
  received : List TaskInfo := []

inductive SlaveCall where
  | launchTasks (ts : List TaskInfo)
  | executor (c : ExecutorCall)

def noteTask (received : List TaskInfo) (t : TaskInfo) : List TaskInfo :=
  if t.taskId ∈ received.map (·.taskId) then received else received ++ [t]

def noteTasks (received ts : List TaskInfo) : List TaskInfo := ts.foldl noteTask received

namespace SlaveSide

def step (p : SlaveSide) : SlaveCall → SlaveSide
  | .launchTasks ts =>
    { p with runner := p.runner.launchTasks ts, received := noteTasks p.received ts }
  | .executor (.runTask t) =>
    { p with executor := p.executor.step (.runTask t), received := noteTasks p.received [t] }
  | .executor c => { p with executor := p.executor.step c }

def Fits (p : SlaveSide) (t : TaskInfo) : Prop :=
  t.executor.isSome = true ∧ ∀ t' ∈ p.received, t'.taskId = t.taskId → t' = t

def Protocol (p : SlaveSide) : SlaveCall → Prop
  | .launchTasks ts => ∀ t ∈ ts, p.Fits t ∧ ∀ t' ∈ ts, t'.taskId = t.taskId → t' = t
  | .executor (.runTask t) => p.executor.Protocol (.runTask t) ∧ p.Fits t
  | .executor (.sendStatusUpdate uuid taskId state now) =>
    p.executor.Protocol (.sendStatusUpdate uuid taskId state now) ∧
      (∀ v ∈ p.executor.sent, v.update.uuid ≠ cString uuid) ∧
      (state.isTerminal = true → taskId ∈ p.executor.ran.map (·.taskId) ∧
        ∀ v ∈ p.executor.sent, v.update.taskId = taskId → v.update.state.isTerminal = false)
  | .executor c => p.executor.Protocol c

instance (p : SlaveSide) (t : TaskInfo) : Decidable (p.Fits t) := inferInstanceAs (Decidable (_ ∧ _))

instance (p : SlaveSide) : ∀ c, Decidable (p.Protocol c)
  | .launchTasks _ => inferInstanceAs (Decidable (∀ t ∈ _, _))
  | .executor (.runTask _) => inferInstanceAs (Decidable (_ ∧ _))
  | .executor (.sendStatusUpdate _ _ _ _) => inferInstanceAs (Decidable (_ ∧ _))
  | .executor (.statusUpdateAcknowledgement u) =>
    inferInstanceAs (Decidable (p.executor.Protocol (.statusUpdateAcknowledgement u)))
  | .executor .reconnect => inferInstanceAs (Decidable True)

end SlaveSide

/-! ## What a slave reports -/

def ExecutorUpdate.credits (u : ExecutorUpdate) : Bool :=
  decide (u.state = .finished ∨ u.state = .failed)

structure Memory where
  received : List TaskInfo
  tracked : List TaskInfo
  tasks : List TaskInfo
  updates : List ExecutorUpdate
  ended : List String
  received_nodup : (received.map (·.taskId)).Nodup
  custom : ∀ t ∈ received, t.executor.isSome = true
  tracked_nodup : (tracked.map (·.taskId)).Nodup
  tracked_received : ∀ t ∈ tracked, t ∈ received
  tasks_nodup : (tasks.map (·.taskId)).Nodup
  tasks_received : ∀ t ∈ tasks, t ∈ received
  not_staging : ∀ u ∈ updates, u.state ≠ .staging
  ended_of_credits : ∀ u ∈ updates, u.credits = true →
    u.taskId ∈ tasks.map (·.taskId) ∧ u.taskId ∈ ended
  credits_once : ((updates.filter (·.credits)).map (·.taskId)).Nodup

/-! ## The executor's memory -/

namespace ExecutorRun

variable {r : ExecutorRun}

def FinishedAcked (r : ExecutorRun) (taskId : String) : Prop :=
  ∃ u ∈ r.sent, u.uuid ∈ r.acked ∧ u.update.taskId = taskId ∧ u.update.state = .finished

instance (r : ExecutorRun) (taskId : String) : Decidable (r.FinishedAcked taskId) :=
  inferInstanceAs (Decidable (∃ u ∈ r.sent, _))

structure Remembers (r : ExecutorRun) : Prop extends Sound r where
  keys : (r.sent.map (·.update.uuid)).Nodup
  updates_eq : r.process.updates.values = r.unacked.map (·.update)
  tasks_eq : r.process.tasks.values = r.ran.filter (fun t => ¬ r.FinishedAcked t.taskId)
  ran_nodup : (r.ran.map (·.taskId)).Nodup
  states : ∀ v ∈ r.sent, v.update.state ≠ .staging
  ran_of_end : ∀ v ∈ r.sent, v.update.state.isTerminal = true → v.update.taskId ∈ r.ran.map (·.taskId)
  once : ∀ v ∈ r.sent, ∀ w ∈ r.sent, v.update.state.isTerminal = true →
    w.update.state.isTerminal = true → v.update.taskId = w.update.taskId → v = w

namespace Remembers

lemma start : Remembers {} :=
  ⟨sound_start, nodup_nil, rfl, rfl, nodup_nil, fun _ h => absurd h not_mem_nil,
    fun _ h => absurd h not_mem_nil, fun _ h => absurd h not_mem_nil⟩

lemma mem_ran (h : Remembers r) : ∀ t ∈ r.process.tasks.values, t ∈ r.ran := by
  rw [h.tasks_eq]
  exact fun t ht => (mem_filter.mp ht).1

lemma runTask {t : TaskInfo} (h : Remembers r) (hp : r.Protocol (.runTask t)) :
    Remembers (r.step (.runTask t)) := by
  obtain ⟨hnew, hproc⟩ := process_runTask h.toSound h.mem_ran hp
  -- no update ends a task that was not run
  have hfinished : ¬ r.FinishedAcked t.taskId := by
    rintro ⟨u, hu, -, htask, hstate⟩
    exact hp (htask ▸ h.ran_of_end u hu (by rw [hstate]; rfl))
  refine ⟨h.toSound.step h.mem_ran hp, h.keys, ?_, ?_, ?_, h.states, fun v hv hend => ?_, h.once⟩
  · rw [hproc]
    exact h.updates_eq
  · rw [hproc, AList.values_put_of_not_mem hnew, h.tasks_eq]
    show _ = (r.ran ++ [t]).filter (fun t => ¬ r.FinishedAcked t.taskId)
    rw [filter_append, filter_cons_of_pos (by simpa using hfinished), filter_nil]
  · exact nodup_map_concat h.ran_nodup hp
  · show v.update.taskId ∈ List.map TaskInfo.taskId (r.ran ++ [t])
    rw [map_append]
    exact mem_append_left _ (h.ran_of_end v hv hend)

lemma send {uuid : List UInt8} {taskId : String} {state : TaskState} {now : ℕ} (h : Remembers r)
    (hp : r.Protocol (.sendStatusUpdate uuid taskId state now))
    (hkey : ∀ v ∈ r.sent, v.update.uuid ≠ cString uuid)
    (hend : state.isTerminal → taskId ∈ r.ran.map (·.taskId) ∧
      ∀ v ∈ r.sent, v.update.taskId = taskId → v.update.state.isTerminal = false) :
    Remembers (r.step (.sendStatusUpdate uuid taskId state now)) := by
  have hproc := process_send hp
  have hnew : cString uuid ∉ r.process.updates := by
    rw [h.updates.mem_iff, h.updates_eq]
    rintro ⟨x, hx, hid⟩
    obtain ⟨v, hv, rfl⟩ := mem_map.mp hx
    exact hkey v (mem_filter.mp hv).1 hid
  have hsent : ∀ {v}, v ∈ (r.step (.sendStatusUpdate uuid taskId state now)).sent →
      v ∈ r.sent ∨ v = { uuid := uuid, update := stored uuid taskId state now } := fun hv =>
    (mem_append.mp hv).imp_right mem_singleton.mp
  have hfinished : ∀ x, (r.step (.sendStatusUpdate uuid taskId state now)).FinishedAcked x ↔
      r.FinishedAcked x := by
    intro x
    constructor
    · rintro ⟨u, hu, hacked, htask⟩
      rcases hsent hu with hu | rfl
      · exact ⟨u, hu, hacked, htask⟩
      · exact absurd (show uuid ∈ r.acked from hacked) (not_mem_acked h.toSound hp)
    · rintro ⟨u, hu, hacked, htask⟩
      exact ⟨u, mem_append_left _ hu, hacked, htask⟩
  refine ⟨h.toSound.step h.mem_ran hp, ?_, ?_, ?_, h.ran_nodup, fun v hv => ?_, fun v hv ht => ?_,
    fun v hv w hw htv htw hid => ?_⟩
  · refine nodup_map_concat h.keys fun hmem => ?_
    obtain ⟨v, hv, hid⟩ := mem_map.mp hmem
    exact hkey v hv hid
  · rw [hproc, unacked_send h.toSound hp, map_append]
    dsimp only
    rw [AList.values_put_of_not_mem hnew, h.updates_eq]
    rfl
  · rw [hproc]
    refine h.tasks_eq.trans (filter_congr fun t _ => ?_)
    simp only [hfinished]
  · rcases hsent hv with hv | rfl
    · exact h.states v hv
    · exact hp.2.2
  · rcases hsent hv with hv | rfl
    · exact h.ran_of_end v hv ht
    · exact (hend ht).1
  · rcases hsent hv with hv | rfl
    · rcases hsent hw with hw | rfl
      · exact h.once v hv w hw htv htw hid
      · exact absurd htv (Bool.eq_false_iff.mp ((hend htw).2 v hv hid))
    · rcases hsent hw with hw | rfl
      · exact absurd htw (Bool.eq_false_iff.mp ((hend htv).2 w hw hid.symm))
      · rfl

lemma acknowledge {u : SentUpdate} (h : Remembers r) (hu : u ∈ r.sent) :
    Remembers (r.step (.statusUpdateAcknowledgement u)) := by
  have hproc := process_acknowledge h.toSound u
  have hfinished : ∀ x, (r.step (.statusUpdateAcknowledgement u)).FinishedAcked x ↔
      r.FinishedAcked x ∨ (u.update.taskId = x ∧ u.update.state = .finished) := by
    intro x
    constructor
    · rintro ⟨v, hv, hacked, htask⟩
      rcases mem_cons.mp hacked with hself | hacked
      · exact .inr (h.eq_of_uuid hv hu hself ▸ htask)
      · exact .inl ⟨v, hv, hacked, htask⟩
    · rintro (⟨v, hv, hacked, htask⟩ | htask)
      · exact ⟨v, hv, mem_cons_of_mem _ hacked, htask⟩
      · exact ⟨u, hu, mem_cons_self, htask⟩
  -- an acknowledgement that comes again finds no update under its key
  have hother : u.uuid ∈ r.acked → ∀ v ∈ r.unacked, v.update.uuid ≠ u.update.uuid := by
    intro hagain v hv hid
    obtain rfl := inj_on_of_nodup_map h.keys (mem_filter.mp hv).1 hu hid
    exact of_decide_eq_true (mem_filter.mp hv).2 hagain
  refine ⟨h.toSound.step h.mem_ran hu, h.keys, ?_, ?_, h.ran_nodup, h.states, h.ran_of_end, h.once⟩
  · rw [hproc]
    by_cases hagain : u.uuid ∈ r.acked
    · exact (acknowledge_again h.toSound h.updates_eq hagain (hother hagain)).2
    · exact (acknowledge_first h.toSound h.updates_eq hu hagain).2
  · rw [hproc]
    dsimp only
    by_cases hagain : u.uuid ∈ r.acked
    · rw [(acknowledge_again h.toSound h.updates_eq hagain (hother hagain)).1, if_neg (by simp),
        h.tasks_eq]
      refine filter_congr fun t _ => ?_
      have hsame : (r.FinishedAcked t.taskId ∨ (u.update.taskId = t.taskId ∧
          u.update.state = .finished)) ↔ r.FinishedAcked t.taskId :=
        or_iff_left_of_imp fun htask => ⟨u, hu, hagain, htask⟩
      simp only [hfinished, hsame]
    · rw [(acknowledge_first h.toSound h.updates_eq hu hagain).1]
      by_cases hfin : u.update.state = .finished
      · rw [if_pos (by rw [map_some, hfin]), h.tasks.values_erase, h.tasks_eq, filter_filter]
        refine filter_congr fun t _ => ?_
        simp only [hfinished, hfin, and_true, not_or, Bool.decide_and, Bool.and_comm, ne_eq, eq_comm]
      · rw [if_neg (by simpa using hfin), h.tasks_eq]
        refine filter_congr fun t _ => ?_
        simp only [hfinished, hfin, and_false, or_false]

end Remembers

end ExecutorRun

/-! ## The runner's memory -/

namespace RunnerProcess

lemma launchTasks_tasks {f : TaskInfo → Prop} {ts : List TaskInfo} {p : RunnerProcess}
    (hk : AList.Keyed (·.taskId) p.tasks) (hp : ∀ t ∈ p.tasks.values, f t) (hts : ∀ t ∈ ts, f t) :
    AList.Keyed (·.taskId) (p.launchTasks ts).tasks ∧ ∀ t ∈ (p.launchTasks ts).tasks.values, f t := by
  refine forEach_inv (I := fun p : RunnerProcess => AList.Keyed (·.taskId) p.tasks ∧
    ∀ t ∈ p.tasks.values, f t) (fun t ht p h => ?_) ⟨hk, hp⟩
  have hput : AList.Keyed (·.taskId) (p.tasks.put t.taskId t) ∧
      ∀ x ∈ (p.tasks.put t.taskId t).values, f x := by
    refine ⟨h.1.put t, fun x hx => ?_⟩
    rcases AList.mem_values_put hx with rfl | hx
    · exact hts x ht
    · exact h.2 x hx
  unfold launchTask
  dsimp only
  split_ifs
  · exact hput
  · exact hput

end RunnerProcess

/-! ## The tasks received -/

section Note

variable {received ts : List TaskInfo}

lemma subset_noteTasks (received ts : List TaskInfo) : received ⊆ noteTasks received ts := by
  induction ts generalizing received with
  | nil => exact fun _ h => h
  | cons t ts ih =>
    refine List.Subset.trans ?_ (ih (noteTask received t))
    unfold noteTask
    split_ifs
    · exact fun _ h => h
    · exact subset_append_left _ _

lemma mem_noteTasks {x : TaskInfo} (h : x ∈ noteTasks received ts) : x ∈ received ∨ x ∈ ts := by
  induction ts generalizing received with
  | nil => exact .inl h
  | cons t ts ih =>
    rcases ih h with h | h
    · unfold noteTask at h
      split_ifs at h
      · exact .inl h
      · rcases mem_append.mp h with h | h
        · exact .inl h
        · exact .inr (mem_singleton.mp h ▸ mem_cons_self)
    · exact .inr (mem_cons_of_mem t h)

lemma nodup_noteTasks (h : (received.map (·.taskId)).Nodup) :
    ((noteTasks received ts).map (·.taskId)).Nodup := by
  induction ts generalizing received with
  | nil => exact h
  | cons t ts ih =>
    refine ih ?_
    unfold noteTask
    split_ifs with ht
    · exact h
    · exact nodup_map_concat h ht

lemma exists_noteTasks {t : TaskInfo} (ht : t ∈ ts) : ∃ x ∈ noteTasks received ts, x.taskId = t.taskId := by
  induction ts generalizing received with
  | nil => cases ht
  | cons t' ts ih =>
    rcases mem_cons.mp ht with rfl | ht
    · by_cases hmem : t.taskId ∈ received.map (·.taskId)
      · obtain ⟨x, hx, hid⟩ := mem_map.mp hmem
        exact ⟨x, subset_noteTasks _ _ hx, hid⟩
      · refine ⟨t, ?_, rfl⟩
        show t ∈ noteTasks (noteTask received t) ts
        rw [noteTask, if_neg hmem]
        exact subset_noteTasks _ _ (mem_append_right _ (mem_singleton.mpr rfl))
    · exact ih ht

end Note

/-! ## Histories -/

namespace SlaveSide

variable {p : SlaveSide}

/-- What holds in every history of a slave. -/
structure Sound (p : SlaveSide) : Prop where
  executor : p.executor.Remembers
  tracked : AList.Keyed (·.taskId) p.runner.tasks
  tracked_received : ∀ t ∈ p.runner.tasks.values, t ∈ p.received
  nodup : (p.received.map (·.taskId)).Nodup
  custom : ∀ t ∈ p.received, t.executor.isSome = true
  ran_received : ∀ t ∈ p.executor.ran, t ∈ p.received

lemma sound_start : Sound {} :=
  ⟨.start, AList.Keyed.empty _, fun _ h => absurd h not_mem_nil, nodup_nil,
    fun _ h => absurd h not_mem_nil, fun _ h => absurd h not_mem_nil⟩

lemma mem_received {ts : List TaskInfo} {t : TaskInfo}
    (hfits : ∀ t ∈ ts, p.Fits t ∧ ∀ t' ∈ ts, t'.taskId = t.taskId → t' = t) (ht : t ∈ ts) :
    t ∈ noteTasks p.received ts := by
  obtain ⟨x, hx, hid⟩ : ∃ x ∈ noteTasks p.received ts, x.taskId = t.taskId := exists_noteTasks ht
  have heq : x = t := by
    rcases mem_noteTasks hx with h | h
    · exact (hfits t ht).1.2 x h hid
    · exact (hfits t ht).2 x h hid
  exact heq ▸ hx

lemma Sound.step {e : SlaveCall} (h : Sound p) (hp : p.Protocol e) : Sound (p.step e) := by
  cases e with
  | launchTasks ts =>
    have hsub := subset_noteTasks p.received ts
    obtain ⟨hkeyed, hmem⟩ := RunnerProcess.launchTasks_tasks
      (f := fun t => t ∈ noteTasks p.received ts) h.tracked
      (fun t ht => hsub (h.tracked_received t ht)) fun t ht => mem_received hp ht
    refine ⟨h.executor, hkeyed, hmem, nodup_noteTasks h.nodup, fun t ht => ?_, fun t ht => ?_⟩
    · rcases mem_noteTasks ht with ht | ht
      · exact h.custom t ht
      · exact (hp t ht).1.1
    · exact hsub (h.ran_received t ht)
  | executor c =>
    cases c with
    | runTask t =>
      have hsub := subset_noteTasks p.received [t]
      have hfits : ∀ x ∈ [t], p.Fits x ∧ ∀ x' ∈ [t], x'.taskId = x.taskId → x' = x := by
        intro x hx
        rw [mem_singleton.mp hx]
        exact ⟨hp.2, fun x' hx' _ => mem_singleton.mp hx'⟩
      refine ⟨h.executor.runTask hp.1, h.tracked, fun t ht => hsub (h.tracked_received t ht),
        nodup_noteTasks h.nodup, fun x hx => ?_, fun x hx => ?_⟩
      · rcases mem_noteTasks hx with hx | hx
        · exact h.custom x hx
        · exact (hfits x hx).1.1
      · rcases mem_append.mp hx with hx | hx
        · exact hsub (h.ran_received x hx)
        · exact mem_received hfits hx
    | sendStatusUpdate uuid taskId state now =>
      exact ⟨h.executor.send hp.1 hp.2.1 hp.2.2, h.tracked, h.tracked_received, h.nodup, h.custom,
        h.ran_received⟩
    | statusUpdateAcknowledgement u =>
      exact ⟨h.executor.acknowledge hp, h.tracked, h.tracked_received, h.nodup, h.custom,
        h.ran_received⟩
    | reconnect => exact h

lemma sound_run {es : List SlaveCall} (hp : Machine.Guarded step Protocol {} es) :
    Sound (Machine.run step {} es) :=
  Machine.run_inv (I := Sound) (fun _ _ h hg => h.step hg) sound_start hp

lemma Sound.credits (h : Sound p) {u : ExecutorUpdate} (hu : u ∈ p.executor.process.updates.values)
    (hc : u.credits) : ∃ v ∈ p.executor.sent, v.update = u ∧ v.uuid ∉ p.executor.acked ∧
      v.update.state.isTerminal := by
  rw [h.executor.updates_eq] at hu
  obtain ⟨v, hv, rfl⟩ := mem_map.mp hu
  refine ⟨v, (mem_filter.mp hv).1, rfl, of_decide_eq_true (mem_filter.mp hv).2, ?_⟩
  rcases of_decide_eq_true hc with hs | hs
  · rw [hs]; rfl
  · rw [hs]; rfl

def memory (p : SlaveSide) (h : Sound p) : Memory where
  received := p.received
  tracked := p.runner.serviceDisconnected
  tasks := p.executor.process.tasks.values
  updates := p.executor.process.updates.values
  ended := (p.executor.sent.filter (·.update.state.isTerminal)).map (·.update.taskId)
  received_nodup := h.nodup
  custom := h.custom
  tracked_nodup := h.tracked.nodup
  tracked_received := h.tracked_received
  tasks_nodup := h.executor.tasks.nodup
  tasks_received := fun t ht => h.ran_received t (h.executor.mem_ran t ht)
  not_staging := by
    intro u hu
    rw [h.executor.updates_eq] at hu
    obtain ⟨v, hv, rfl⟩ := mem_map.mp hu
    exact h.executor.states v (mem_filter.mp hv).1
  ended_of_credits := by
    intro u hu hc
    obtain ⟨v, hv, rfl, hwaits, hend⟩ := h.credits hu hc
    refine ⟨?_, mem_map.mpr ⟨v, mem_filter.mpr ⟨hv, hend⟩, rfl⟩⟩
    obtain ⟨t, ht, hid⟩ := mem_map.mp (h.executor.ran_of_end v hv hend)
    rw [h.executor.tasks_eq]
    refine mem_map.mpr ⟨t, mem_filter.mpr ⟨ht, decide_eq_true ?_⟩, hid⟩
    -- the task has no second end that could have been acknowledged
    rintro ⟨w, hw, hacked, htask, hstate⟩
    have hwend : w.update.state.isTerminal = true := by rw [hstate]; rfl
    have heq := h.executor.once w hw v hv hwend hend (htask.trans hid)
    exact hwaits (heq ▸ hacked)
  credits_once := by
    have hnodup : p.executor.process.updates.values.Nodup := .of_map _ h.executor.updates.nodup
    refine List.Nodup.map_on (fun x hx y hy hid => ?_) (hnodup.filter _)
    obtain ⟨v, hv, rfl, -, hvend⟩ := h.credits (mem_filter.mp hx).1 (mem_filter.mp hx).2
    obtain ⟨w, hw, rfl, -, hwend⟩ := h.credits (mem_filter.mp hy).1 (mem_filter.mp hy).2
    exact congrArg _ (h.executor.once v hv w hw hvend hwend hid)

end SlaveSide

end Urb
