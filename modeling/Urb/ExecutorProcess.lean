/-
# `Urb.ExecutorProcess` — what an executor remembers for a re-registration

`UrbExecutorProcess` runs beside the framework's executor.  It keeps two linked
hash maps, and a reconnect sends the values of both in a ReregisterExecutor
message:

    updates    uuid ↦ status update     set by sendStatusUpdate,
                                        erased by statusUpdateAcknowledgement
    tasks_     task id ↦ task           set by runTask, erased by the
                                        acknowledgement of a FINISHED update

The uuid has 16 bytes and is copied through a `char*`: the update, and with it
the key, has the bytes before the first zero byte only (`cString`).

`ExecutorRun` keeps the books beside the process, from which follows what a
re-registration should report (`ExecutorRun.expected`).

**Proved here.**  In a history of calls every message is right exactly when every call
is `Traceable` (`reregistrations_correct_iff`).  What is not traceable: two updates with
one key, the acknowledgement of a terminal state other than FINISHED, and a task whose
end has been acknowledged before it was run.
-/
import Urb.Basis.LinkedMap
import Urb.Service

namespace Urb

open List AList

/-! ## The process -/

def cString (bytes : List UInt8) : List UInt8 := bytes.takeWhile (· ≠ 0)

structure ExecutorUpdate where
  uuid : List UInt8
  taskId : String
  state : TaskState
  timestamp : ℕ
  deriving Repr, DecidableEq

structure ExecutorProcess where
  aborted : Bool := false
  connected : Bool := true
  updates : Dict (List UInt8) ExecutorUpdate := ∅
  tasks : Dict String TaskInfo := ∅

/-- The ReregisterExecutor message. -/
structure Reregistration where
  updates : List ExecutorUpdate
  tasks : List TaskInfo
  deriving DecidableEq

namespace ExecutorProcess

def reconnect (p : ExecutorProcess) : Option Reregistration :=
  if p.aborted then none else some { updates := p.updates.values, tasks := p.tasks.values }

def runTask (t : TaskInfo) (p : ExecutorProcess) : ExecutorProcess :=
  if p.aborted || !p.connected then p
  else if t.taskId ∈ p.tasks then { p with aborted := true }
  else { p with tasks := p.tasks.put t.taskId t }

def sendStatusUpdate (uuid : List UInt8) (taskId : String) (state : TaskState) (now : ℕ)
    (p : ExecutorProcess) : ExecutorProcess :=
  if state = .staging then { p with aborted := true }
  else
    let update : ExecutorUpdate :=
      { uuid := cString uuid, taskId := taskId, state := state, timestamp := now }
    { p with updates := p.updates.put update.uuid update }

def statusUpdateAcknowledgement (taskId : String) (uuid : List UInt8) (p : ExecutorProcess) :
    ExecutorProcess :=
  if p.aborted || !p.connected then p
  else
    let eraseTasks := (p.updates.lookup uuid).map (·.state) = some .finished
    { p with updates := p.updates.erase uuid
             tasks := if eraseTasks then p.tasks.erase taskId else p.tasks }

end ExecutorProcess

/-! ## The books -/

structure SentUpdate where
  uuid : List UInt8
  update : ExecutorUpdate
  deriving Repr, DecidableEq

structure ExecutorRun where
  process : ExecutorProcess := {}
  ran : List TaskInfo := []
  sent : List SentUpdate := []
  acked : List (List UInt8) := []

inductive ExecutorCall where
  | runTask (t : TaskInfo)
  | sendStatusUpdate (uuid : List UInt8) (taskId : String) (state : TaskState) (now : ℕ)
  | statusUpdateAcknowledgement (u : SentUpdate)
  | reconnect

namespace ExecutorRun

def step (r : ExecutorRun) : ExecutorCall → ExecutorRun
  | .runTask t => { r with process := r.process.runTask t, ran := r.ran ++ [t] }
  | .sendStatusUpdate uuid taskId state now =>
    { r with process := r.process.sendStatusUpdate uuid taskId state now
             sent := r.sent ++ [{ uuid := uuid
                                  update := { uuid := cString uuid, taskId := taskId
                                              state := state, timestamp := now } }] }
  | .statusUpdateAcknowledgement u =>
    { r with process := r.process.statusUpdateAcknowledgement u.update.taskId u.update.uuid
             acked := u.uuid :: r.acked }
  | .reconnect => r

def unacked (r : ExecutorRun) : List SentUpdate := r.sent.filter (·.uuid ∉ r.acked)

def Ended (r : ExecutorRun) (taskId : String) : Prop :=
  ∃ u ∈ r.sent, u.uuid ∈ r.acked ∧ u.update.taskId = taskId ∧ u.update.state.isTerminal = true

instance (r : ExecutorRun) (taskId : String) : Decidable (r.Ended taskId) :=
  inferInstanceAs (Decidable (∃ u ∈ r.sent, _))

def openTasks (r : ExecutorRun) : List TaskInfo := r.ran.filter (fun t => ¬ r.Ended t.taskId)

def expected (r : ExecutorRun) : Reregistration :=
  { updates := r.unacked.map (·.update), tasks := r.openTasks }

def Correct (r : ExecutorRun) : Prop := r.process.reconnect = some r.expected

def Protocol (r : ExecutorRun) : ExecutorCall → Prop
  | .runTask t => t.taskId ∉ r.ran.map (·.taskId)
  | .sendStatusUpdate uuid _ state _ =>
    uuid.length = 16 ∧ uuid ∉ r.sent.map (·.uuid) ∧ state ≠ .staging
  | .statusUpdateAcknowledgement u => u ∈ r.sent
  | .reconnect => True

def Traceable (r : ExecutorRun) : ExecutorCall → Prop
  | .runTask t => ¬ r.Ended t.taskId
  | .sendStatusUpdate uuid _ _ _ => ∀ v ∈ r.unacked, v.update.uuid ≠ cString uuid
  | .statusUpdateAcknowledgement u =>
    if u.uuid ∈ r.acked then ∀ v ∈ r.unacked, v.update.uuid ≠ u.update.uuid
    else u.update.state.isTerminal = true → u.update.state = .finished ∨
      ∀ t ∈ r.openTasks, t.taskId ≠ u.update.taskId
  | .reconnect => True

/-! ## One call -/

structure Sound (r : ExecutorRun) : Prop where
  alive : r.process.aborted = false
  connected : r.process.connected = true
  updates : AList.Keyed (·.uuid) r.process.updates
  tasks : AList.Keyed (·.taskId) r.process.tasks
  uuids : (r.sent.map (·.uuid)).Nodup
  acked : ∀ x ∈ r.acked, x ∈ r.sent.map (·.uuid)

variable {r : ExecutorRun}

lemma correct_iff (ha : r.process.aborted = false) :
    r.Correct ↔ r.process.updates.values = r.unacked.map (·.update) ∧
      r.process.tasks.values = r.openTasks := by
  simp only [Correct, ExecutorProcess.reconnect, ha, Bool.false_eq_true, if_false, expected,
    Option.some.injEq, Reregistration.mk.injEq]

lemma Sound.eq_of_uuid (h : Sound r) {u v : SentUpdate} (hu : u ∈ r.sent) (hv : v ∈ r.sent)
    (huv : u.uuid = v.uuid) : u = v :=
  inj_on_of_nodup_map h.uuids hu hv huv

section RunTask

variable {t : TaskInfo}

lemma openTasks_runTask (r : ExecutorRun) (t : TaskInfo) :
    (r.step (.runTask t)).openTasks = r.openTasks ++ if r.Ended t.taskId then [] else [t] := by
  show (r.ran ++ [t]).filter (fun t => ¬ r.Ended t.taskId) = _
  rw [filter_append, filter_singleton]
  by_cases h : r.Ended t.taskId
  · simp [openTasks, h]
  · simp [openTasks, h]

lemma process_runTask (h : Sound r) (hran : ∀ t ∈ r.process.tasks.values, t ∈ r.ran)
    (hp : r.Protocol (.runTask t)) : t.taskId ∉ r.process.tasks ∧ (r.step (.runTask t)).process =
      { r.process with tasks := r.process.tasks.put t.taskId t } := by
  have hnew : t.taskId ∉ r.process.tasks := by
    rw [h.tasks.mem_iff]
    rintro ⟨t', ht', hid⟩
    exact hp (mem_map.mpr ⟨t', hran t' ht', hid⟩)
  refine ⟨hnew, ?_⟩
  show r.process.runTask t = _
  simp only [ExecutorProcess.runTask, h.alive, h.connected, Bool.not_true, Bool.or_self,
    Bool.false_eq_true, if_false, if_neg hnew]

lemma Correct.mem_ran (ha : r.process.aborted = false) (hc : r.Correct) :
    ∀ t ∈ r.process.tasks.values, t ∈ r.ran := by
  rw [((correct_iff ha).mp hc).2]
  exact fun t ht => (mem_filter.mp ht).1

lemma correct_runTask_iff (h : Sound r) (hc : r.Correct) (hp : r.Protocol (.runTask t)) :
    (r.step (.runTask t)).Correct ↔ r.Traceable (.runTask t) := by
  obtain ⟨hnew, hproc⟩ := process_runTask h (hc.mem_ran h.alive) hp
  obtain ⟨hupdates, htasks⟩ := (correct_iff h.alive).mp hc
  have halive : (r.step (.runTask t)).process.aborted = false := by rw [hproc]; exact h.alive
  rw [correct_iff halive, hproc, openTasks_runTask, values_put_of_not_mem hnew, htasks,
    append_cancel_left_eq]
  simp only [Traceable]
  constructor
  · rintro ⟨-, heq⟩ hended
    rw [if_pos hended] at heq
    cases heq
  · intro hended
    exact ⟨hupdates, (if_neg hended).symm⟩

end RunTask

section Send

variable {uuid : List UInt8} {taskId : String} {state : TaskState} {now : ℕ}

def stored (uuid : List UInt8) (taskId : String) (state : TaskState) (now : ℕ) : ExecutorUpdate :=
  { uuid := cString uuid, taskId := taskId, state := state, timestamp := now }

section

variable (h : Sound r) (hp : r.Protocol (.sendStatusUpdate uuid taskId state now))
include h hp

lemma not_mem_acked : uuid ∉ r.acked := fun hmem => hp.2.1 (h.acked uuid hmem)

lemma unacked_send : (r.step (.sendStatusUpdate uuid taskId state now)).unacked =
      r.unacked ++ [{ uuid := uuid, update := stored uuid taskId state now }] := by
  show List.filter (fun u : SentUpdate => u.uuid ∉ r.acked) (r.sent ++ [_]) = _
  rw [filter_append, filter_singleton]
  simp only [not_mem_acked h hp, not_false_eq_true, decide_true]
  rfl

lemma openTasks_send : (r.step (.sendStatusUpdate uuid taskId state now)).openTasks = r.openTasks := by
  refine filter_congr fun t _ => ?_
  have hended : (r.step (.sendStatusUpdate uuid taskId state now)).Ended t.taskId ↔
      r.Ended t.taskId := by
    constructor
    · rintro ⟨u, hu, hacked, htask⟩
      rcases mem_append.mp hu with hu | hu
      · exact ⟨u, hu, hacked, htask⟩
      · rw [mem_singleton.mp hu] at hacked
        exact absurd (show uuid ∈ r.acked from hacked) (not_mem_acked h hp)
    · rintro ⟨u, hu, hacked, htask⟩
      exact ⟨u, mem_append_left _ hu, hacked, htask⟩
  simp only [hended]

end

lemma process_send (hp : r.Protocol (.sendStatusUpdate uuid taskId state now)) :
    (r.step (.sendStatusUpdate uuid taskId state now)).process =
      { r.process with updates := r.process.updates.put (cString uuid)
                                    (stored uuid taskId state now) } := by
  show r.process.sendStatusUpdate uuid taskId state now = _
  rw [ExecutorProcess.sendStatusUpdate, if_neg hp.2.2]
  rfl

lemma correct_send_iff (h : Sound r) (hc : r.Correct)
    (hp : r.Protocol (.sendStatusUpdate uuid taskId state now)) :
    (r.step (.sendStatusUpdate uuid taskId state now)).Correct ↔
      r.Traceable (.sendStatusUpdate uuid taskId state now) := by
  obtain ⟨hupdates, htasks⟩ := (correct_iff h.alive).mp hc
  have halive : (r.step (.sendStatusUpdate uuid taskId state now)).process.aborted = false := by
    rw [process_send hp]
    exact h.alive
  have hmem : cString uuid ∈ r.process.updates ↔ ∃ v ∈ r.unacked, v.update.uuid = cString uuid := by
    rw [h.updates.mem_iff, hupdates]
    simp only [mem_map, exists_exists_and_eq_and]
  rw [correct_iff halive, process_send hp, unacked_send h hp, openTasks_send h hp, map_append]
  constructor
  · -- an assignment to a key that is there loses an update
    rintro ⟨heq, -⟩ v hv hkey
    have hlen := length_values_put_of_mem (v := stored uuid taskId state now) (hmem.mpr ⟨v, hv, hkey⟩)
    rw [heq, hupdates, length_append, length_map] at hlen
    simp at hlen
  · intro htrace
    have hnew : cString uuid ∉ r.process.updates := by
      rw [hmem]
      rintro ⟨v, hv, hkey⟩
      exact htrace v hv hkey
    rw [values_put_of_not_mem hnew, hupdates]
    exact ⟨rfl, htasks⟩

end Send

section Acknowledge

variable {u : SentUpdate}

lemma unacked_acknowledge (r : ExecutorRun) (u : SentUpdate) :
    (r.step (.statusUpdateAcknowledgement u)).unacked = r.unacked.filter (·.uuid ≠ u.uuid) := by
  show List.filter (fun v : SentUpdate => v.uuid ∉ u.uuid :: r.acked) r.sent = _
  rw [unacked, filter_filter]
  refine filter_congr fun v _ => ?_
  simp only [mem_cons, not_or, Bool.decide_and]

lemma ended_acknowledge (h : Sound r) (hu : u ∈ r.sent) (x : String) :
    (r.step (.statusUpdateAcknowledgement u)).Ended x ↔
      r.Ended x ∨ (u.update.taskId = x ∧ u.update.state.isTerminal) := by
  constructor
  · rintro ⟨v, hv, hacked, htask⟩
    rcases mem_cons.mp hacked with hself | hacked
    · exact .inr (h.eq_of_uuid hv hu hself ▸ htask)
    · exact .inl ⟨v, hv, hacked, htask⟩
  · rintro (⟨v, hv, hacked, htask⟩ | htask)
    · exact ⟨v, hv, mem_cons_of_mem _ hacked, htask⟩
    · exact ⟨u, hu, mem_cons_self, htask⟩

lemma openTasks_acknowledge (h : Sound r) (hu : u ∈ r.sent) :
    (r.step (.statusUpdateAcknowledgement u)).openTasks =
      if u.update.state.isTerminal then r.openTasks.filter (·.taskId ≠ u.update.taskId)
      else r.openTasks := by
  have hfilter : (r.step (.statusUpdateAcknowledgement u)).openTasks = r.ran.filter (fun t =>
      ¬ (r.Ended t.taskId ∨ (u.update.taskId = t.taskId ∧ u.update.state.isTerminal))) := by
    refine filter_congr fun t _ => ?_
    simp only [ended_acknowledge h hu]
  rw [hfilter, openTasks]
  split_ifs with hterm
  · rw [filter_filter]
    refine filter_congr fun t _ => ?_
    simp only [hterm, and_true, not_or, Bool.decide_and, Bool.and_comm, ne_eq, eq_comm]
  · simp only [hterm, Bool.false_eq_true, and_false, or_false]

lemma process_acknowledge (h : Sound r) (u : SentUpdate) :
    (r.step (.statusUpdateAcknowledgement u)).process = { r.process with
        updates := r.process.updates.erase u.update.uuid
        tasks := if (r.process.updates.lookup u.update.uuid).map (·.state) = some .finished then
            r.process.tasks.erase u.update.taskId else r.process.tasks } := by
  show r.process.statusUpdateAcknowledgement u.update.taskId u.update.uuid = _
  simp only [ExecutorProcess.statusUpdateAcknowledgement, h.alive, h.connected, Bool.not_true,
    Bool.or_self, Bool.false_eq_true, if_false]

lemma updates_acknowledge (h : Sound r)
    (hupdates : r.process.updates.values = r.unacked.map (·.update)) (u : SentUpdate) :
    (r.process.updates.erase u.update.uuid).values =
      (r.unacked.filter (·.update.uuid ≠ u.update.uuid)).map (·.update) := by
  rw [h.updates.values_erase, hupdates, filter_map]
  rfl

lemma unacked_again (hagain : u.uuid ∈ r.acked) : r.unacked.filter (·.uuid ≠ u.uuid) = r.unacked := by
  refine filter_eq_self.mpr fun v hv => decide_eq_true fun he => ?_
  exact absurd (he ▸ hagain) (of_decide_eq_true (mem_filter.mp hv).2)

section

variable (h : Sound r) (hupdates : r.process.updates.values = r.unacked.map (·.update))
include h hupdates

lemma eq_of_key {v w : SentUpdate} (hv : v ∈ r.unacked) (hw : w ∈ r.unacked)
    (hkey : v.update.uuid = w.update.uuid) : v = w := by
  have hnodup : (r.unacked.map (fun v => v.update.uuid)).Nodup := by
    have := h.updates.nodup
    rwa [hupdates, map_map] at this
  exact inj_on_of_nodup_map hnodup hv hw hkey

lemma acknowledge_first (hu : u ∈ r.sent) (hfirst : u.uuid ∉ r.acked) :
    r.process.updates.lookup u.update.uuid = some u.update ∧
      (r.process.updates.erase u.update.uuid).values =
        (r.step (.statusUpdateAcknowledgement u)).unacked.map (·.update) := by
  have hun : u ∈ r.unacked := mem_filter.mpr ⟨hu, decide_eq_true hfirst⟩
  refine ⟨h.updates.lookup (hupdates ▸ mem_map_of_mem hun), ?_⟩
  rw [updates_acknowledge h hupdates, unacked_acknowledge]
  -- the key tells the update from the others that are waiting
  refine congrArg _ (filter_congr fun v hv => ?_)
  have hiff : v.update.uuid = u.update.uuid ↔ v.uuid = u.uuid :=
    ⟨fun he => congrArg SentUpdate.uuid (eq_of_key h hupdates hv hun he),
      fun he => congrArg (·.update.uuid) (h.eq_of_uuid (mem_filter.mp hv).1 hu he)⟩
  simp only [ne_eq, hiff]

lemma acknowledge_again (hagain : u.uuid ∈ r.acked)
    (hkey : ∀ v ∈ r.unacked, v.update.uuid ≠ u.update.uuid) :
    r.process.updates.lookup u.update.uuid = none ∧ (r.process.updates.erase u.update.uuid).values =
        (r.step (.statusUpdateAcknowledgement u)).unacked.map (·.update) := by
  constructor
  · rw [lookup_eq_none, h.updates.mem_iff, hupdates]
    rintro ⟨x, hx, hid⟩
    obtain ⟨v, hv, rfl⟩ := mem_map.mp hx
    exact hkey v hv hid
  · rw [updates_acknowledge h hupdates, unacked_acknowledge, unacked_again hagain,
      filter_eq_self.mpr fun v hv => decide_eq_true (hkey v hv)]

end

lemma correct_first_iff (h : Sound r) (hc : r.Correct) (hu : u ∈ r.sent) (hfirst : u.uuid ∉ r.acked) :
    (r.step (.statusUpdateAcknowledgement u)).Correct ↔
      (u.update.state.isTerminal → u.update.state = .finished ∨
        ∀ t ∈ r.openTasks, t.taskId ≠ u.update.taskId) := by
  obtain ⟨hupdates, htasks⟩ := (correct_iff h.alive).mp hc
  have halive : (r.step (.statusUpdateAcknowledgement u)).process.aborted = false := by
    rw [process_acknowledge h u]
    exact h.alive
  obtain ⟨hfound, herase⟩ := acknowledge_first h hupdates hu hfirst
  rw [correct_iff halive, process_acknowledge h u, openTasks_acknowledge h hu]
  dsimp only
  rw [herase, hfound]
  simp only [map_some, Option.some.injEq, true_and]
  by_cases hfin : u.update.state = .finished
  · rw [if_pos hfin, h.tasks.values_erase, htasks, if_pos (by rw [hfin]; rfl)]
    exact iff_of_true rfl fun _ => .inl hfin
  · rw [if_neg hfin, htasks]
    split_ifs with hterm
    · rw [eq_comm, filter_eq_self]
      simp only [decide_eq_true_eq, hterm, hfin, false_or, forall_true_left]
    · exact iff_of_true rfl fun ht => absurd ht hterm

lemma correct_again_iff (h : Sound r) (hc : r.Correct) (hu : u ∈ r.sent) (hagain : u.uuid ∈ r.acked) :
    (r.step (.statusUpdateAcknowledgement u)).Correct ↔
      ∀ v ∈ r.unacked, v.update.uuid ≠ u.update.uuid := by
  obtain ⟨hupdates, htasks⟩ := (correct_iff h.alive).mp hc
  have halive : (r.step (.statusUpdateAcknowledgement u)).process.aborted = false := by
    rw [process_acknowledge h u]
    exact h.alive
  have hopen : (r.step (.statusUpdateAcknowledgement u)).openTasks = r.openTasks := by
    rw [openTasks_acknowledge h hu]
    split_ifs with hterm
    · refine filter_eq_self.mpr fun t ht => decide_eq_true fun he => ?_
      exact of_decide_eq_true (mem_filter.mp ht).2 ⟨u, hu, hagain, he.symm, hterm⟩
    · rfl
  rw [correct_iff halive, process_acknowledge h u, hopen]
  dsimp only
  constructor
  · -- the acknowledgement has taken another update with it
    rintro ⟨heq, -⟩
    rw [updates_acknowledge h hupdates, unacked_acknowledge, unacked_again hagain] at heq
    have hlen := congrArg List.length heq
    rw [length_map, length_map, length_filter_eq_length_iff] at hlen
    exact fun v hv => of_decide_eq_true (hlen v hv)
  · intro hkey
    obtain ⟨hnone, herase⟩ := acknowledge_again h hupdates hagain hkey
    rw [hnone, if_neg (by simp)]
    exact ⟨herase, htasks⟩

end Acknowledge

lemma correct_step_iff (h : Sound r) (hc : r.Correct) {e : ExecutorCall} (hp : r.Protocol e) :
    (r.step e).Correct ↔ r.Traceable e := by
  cases e with
  | runTask t => exact correct_runTask_iff h hc hp
  | sendStatusUpdate uuid taskId state now => exact correct_send_iff h hc hp
  | statusUpdateAcknowledgement u =>
    simp only [Traceable]
    split_ifs with hacked
    · exact correct_again_iff h hc hp hacked
    · exact correct_first_iff h hc hp hacked
  | reconnect => exact iff_of_true hc trivial

lemma Sound.step (h : Sound r) (hran : ∀ t ∈ r.process.tasks.values, t ∈ r.ran)
    {e : ExecutorCall} (hp : r.Protocol e) : Sound (r.step e) := by
  cases e with
  | runTask t =>
    have hproc := (process_runTask h hran hp).2
    refine ⟨?_, ?_, ?_, ?_, h.uuids, h.acked⟩ <;> rw [hproc]
    · exact h.alive
    · exact h.connected
    · exact h.updates
    · exact h.tasks.put t
  | sendStatusUpdate uuid taskId state now =>
    have hproc := process_send hp
    refine ⟨?_, ?_, ?_, ?_, ?_, fun x hx => ?_⟩
    · rw [hproc]; exact h.alive
    · rw [hproc]; exact h.connected
    · rw [hproc]; exact h.updates.put (stored uuid taskId state now)
    · rw [hproc]; exact h.tasks
    · exact nodup_map_concat h.uuids hp.2.1
    · show x ∈ List.map SentUpdate.uuid (r.sent ++ [_])
      rw [map_append]
      exact mem_append_left _ (h.acked x hx)
  | statusUpdateAcknowledgement u =>
    have hproc := process_acknowledge h u
    refine ⟨?_, ?_, ?_, ?_, h.uuids, fun x hx => ?_⟩
    · rw [hproc]; exact h.alive
    · rw [hproc]; exact h.connected
    · rw [hproc]; exact h.updates.erase _
    · rw [hproc]
      dsimp only
      split_ifs
      · exact h.tasks.erase _
      · exact h.tasks
    · rcases mem_cons.mp hx with rfl | hx
      · exact mem_map_of_mem hp
      · exact h.acked x hx
  | reconnect => exact h

/-! ## Whole histories -/

lemma sound_start : Sound {} :=
  ⟨rfl, rfl, AList.Keyed.empty _, AList.Keyed.empty _, nodup_nil, fun _ hx => absurd hx not_mem_nil⟩

theorem reregistrations_correct_iff {es : List ExecutorCall} (hp : Machine.Guarded step Protocol {} es) :
    (∀ fs, fs <+: es → (Machine.run step {} fs).Correct) ↔ Machine.Guarded step Traceable {} es :=
  Machine.prefixes_iff (I := Sound) (Q := Correct) (fun _ _ h hc hp => h.step (hc.mem_ran h.alive) hp)
    (fun _ _ h hc hp => correct_step_iff h hc hp) sound_start rfl hp

instance (r : ExecutorRun) (e : ExecutorCall) : Decidable (r.Protocol e) := by
  cases e <;> unfold Protocol <;> infer_instance

instance (r : ExecutorRun) (e : ExecutorCall) : Decidable (r.Traceable e) := by
  cases e <;> unfold Traceable <;> infer_instance

instance (r : ExecutorRun) : Decidable r.Correct := inferInstanceAs (Decidable (_ = _))

def uuidOf (bytes : List UInt8) : List UInt8 := bytes ++ List.replicate (16 - bytes.length) 1

def sentOf (uuid : List UInt8) (taskId : String) (state : TaskState) : SentUpdate :=
  { uuid := uuid, update := stored uuid taskId state 0 }

def oneFinished : List ExecutorCall :=
  [.runTask { taskId := "a" }, .sendStatusUpdate (uuidOf [1]) "a" .running 0,
   .runTask { taskId := "b" }, .sendStatusUpdate (uuidOf [2]) "a" .finished 0,
   .statusUpdateAcknowledgement (sentOf (uuidOf [1]) "a" .running),
   .sendStatusUpdate (uuidOf [3]) "b" .running 0,
   .statusUpdateAcknowledgement (sentOf (uuidOf [2]) "a" .finished), .reconnect]

theorem reregistrations_correct_oneFinished :
    (Machine.run step {} oneFinished).expected =
        { updates := [stored (uuidOf [3]) "b" .running 0], tasks := [{ taskId := "b" }] } ∧
      ∀ fs, fs <+: oneFinished → (Machine.run step {} fs).Correct :=
  ⟨by decide +kernel, (reregistrations_correct_iff (by decide +kernel)).mpr (by decide +kernel)⟩

theorem not_correct_failed_zeroByte :
    let failed : List ExecutorCall :=
      [.runTask { taskId := "a" }, .sendStatusUpdate (uuidOf [1]) "a" .failed 0,
       .statusUpdateAcknowledgement (sentOf (uuidOf [1]) "a" .failed)]
    let collide : List ExecutorCall :=
      [.runTask { taskId := "a" }, .sendStatusUpdate (uuidOf [0, 1]) "a" .running 0,
       .sendStatusUpdate (uuidOf [0, 2]) "a" .finished 0]
    (Machine.Guarded step Protocol {} failed ∧ ¬ (Machine.run step {} failed).Correct) ∧
      Machine.Guarded step Protocol {} collide ∧ ¬ (Machine.run step {} collide).Correct := by
  decide +kernel

end ExecutorRun

end Urb
