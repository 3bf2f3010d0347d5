/-
# `Urb.Accounting` — what becomes of the tasks of a LaunchTasks message

Every task of a message should be accounted for: the framework is told once
that it is LOST, or it has a record with a job, its slave's or one submitted
for its placeholder by the same message; and no record may be STAGING with no
job behind it (`Accounted`).

A task on a placeholder always is; one on a registered slave is when the loop
gets to it.  A task is dropped when it names no slave that the service knows,
and when the loop has been left before it.

    Launchable      the task names a placeholder, or a registered slave whose id
                    holds a job id
    DebitsThrough   no debit raises before the last task

The theorem says that these two together are exactly what it takes.
-/
import Urb.LaunchLoop

namespace Urb

open Block List AList Service

variable {req : LaunchTasksRequest}

/-! ## The property -/

def Message.isLost (tid : String) : Message → Bool
  | .statusUpdate t .lost _ => t == tid
  | _ => false

def lostCount (tid : String) (wire : List Message) : ℕ := wire.countP (Message.isLost tid)

def OwnJob (req : LaunchTasksRequest) (t : TaskInfo) (job : String) : Prop :=
  ∃ sid, t.slaveRef = some sid ∧
    ((isPlaceholder sid = false ∧ getJobIdFromSlaveId sid = some job) ∨
      ∃ l ∈ req.tasks, l.info.slaveRef = some sid ∧ ∃ j ∈ l.submitted, j.id = job)

structure Accounted (req : LaunchTasksRequest) (s s' : Service) (t : TaskInfo) : Prop where
  told : lostCount t.taskId s'.wire = lostCount t.taskId s.wire + 1 ∨
    ∃ r job, s'.taskDict.lookup t.taskId = some r ∧ r.jobId = some job ∧ OwnJob req t job
  noOrphan : ∀ r, s'.taskDict.lookup t.taskId = some r → r.state = .staging → r.jobId ≠ none

/-! ## The condition -/

def Launchable (d : Dict String Slave) (t : TaskInfo) : Prop :=
  ∃ sid, t.slaveRef = some sid ∧
    (isPlaceholder sid = true ∨ sid ∈ d ∧ getJobIdFromSlaveId sid ≠ none)

def Debits (d : Dict String Slave) (t : TaskInfo) : Prop :=
  ∀ sid slave, t.slaveRef = some sid → isPlaceholder sid = false → d.lookup sid = some slave →
    (slave.launch t).2 = .next

def DebitsThrough : List TaskInfo → Dict String Slave → Prop
  | [], _ => True
  | t :: ts, d => ts = [] ∨ (Debits d t ∧ DebitsThrough ts (launchedSlaves t d))

structure NewTasks (req : LaunchTasksRequest) (s : Service) : Prop where
  distinct : (req.infos.map (·.taskId)).Nodup
  unknown : ∀ t ∈ req.infos, t.taskId ∉ s.taskDict
  unqueued : ∀ t ∈ req.infos, .task s.taskDictId t.taskId ∉ s.deleteElements

/-! ## What the service holds about one task -/

def taskView (tid : String) (s : Service) : Option TaskRecord × ℕ × Bool :=
  (s.taskDict.lookup tid, lostCount tid s.wire, decide (.task s.taskDictId tid ∈ s.deleteElements))

section Frame

variable {tid x : String} {s : Service}

lemma taskView_send {m : Message} (hm : m.isLost tid = false) :
    taskView tid (s.send m) = taskView tid s := by
  simp only [taskView, send_taskDict, send_wire, send_taskDictId,
    send_deleteElements, lostCount, countP_cons, hm, Bool.false_eq_true, if_false,
    Nat.add_zero]

lemma taskView_modifyTask (hne : tid ≠ x) (f : TaskRecord → TaskRecord) :
    taskView tid (s.modifyTask x f) = taskView tid s := by
  simp only [taskView, modifyTask_taskDict, lookup_modify_ne hne]
  rfl

lemma taskView_putTask (hne : tid ≠ x) (r : TaskRecord) :
    taskView tid (s.putTask x r) = taskView tid s := by
  simp only [taskView, putTask_taskDict, lookup_insert_ne hne]
  rfl

lemma taskView_queueTask (hne : tid ≠ x) : taskView tid (s.queueTask x) = taskView tid s := by
  simp [taskView, hne]

lemma taskView_scaleUp (count : ℤ) (submitted : List JobTuple) :
    taskView tid (scaleUp count submitted s).1 = taskView tid s :=
  scaleUp_keeps (I := fun s' => taskView tid s' = taskView tid s) (fun _ _ h => h) _ _ rfl

lemma taskView_launchTask {now : ℚ} {l : LaunchedTask} {st : LaunchState} (hne : tid ≠ l.info.taskId) :
    taskView tid (launchTask now req l st).1.service = taskView tid st.service := by
  have hupdate : ∀ state k, (Message.statusUpdate l.info.taskId state k).isLost tid = false := by
    intro state k
    cases state <;> first | rfl | exact beq_eq_false_iff_ne.mpr hne.symm
  exact launchTask_rule (I := fun s => taskView tid s = taskView tid st.service)
    (fun r _ _ h => (taskView_putTask hne r).trans h) (fun g _ _ h => (taskView_modifyTask hne g).trans h)
    (fun _ _ _ _ _ h => h) (fun _ h => (taskView_queueTask hne).trans h) (fun _ _ h => h)
    (fun state k _ h => (taskView_send (hupdate state k)).trans h)
    (fun _ _ _ _ h => (taskView_send rfl).trans h) (fun _ _ _ h => (taskView_send rfl).trans h) rfl

lemma taskView_forEach {now : ℚ} {ls : List LaunchedTask} {st : LaunchState}
    (hne : ∀ l ∈ ls, tid ≠ l.info.taskId) :
    taskView tid (forEach (launchTask now req) ls st).1.service = taskView tid st.service :=
  forEach_inv (I := fun st' : LaunchState => taskView tid st'.service = taskView tid st.service)
    (fun l hl _ h => (taskView_launchTask (hne l hl)).trans h) rfl

end Frame

/-! ## The task's own iteration -/

section Own

variable {x : String} {s : Service}

lemma taskView_modifyTask_self (f : TaskRecord → TaskRecord) :
    taskView x (s.modifyTask x f) = ((taskView x s).1.map f, (taskView x s).2) := by
  simp only [taskView, modifyTask_taskDict, lookup_modify_self]
  rfl

lemma taskView_enterTask_self (now : ℚ) (l : LaunchedTask) :
    taskView l.info.taskId (enterTask now l s) =
      (some (l.record now), (taskView l.info.taskId s).2) := by
  simp only [taskView, enterTask, putTask_taskDict, lookup_insert]
  rfl

lemma taskView_lost_self (slaveId : Option String) :
    taskView x (processTaskLostStatusUpdate x slaveId s) =
      ((taskView x s).1.map (fun r => { r with state := .lost }), (taskView x s).2.1 + 1, true) := by
  simp [taskView, processTaskLostStatusUpdate, lostCount, Message.isLost]

end Own

def Covered (req : LaunchTasksRequest) (t : TaskInfo) (sent : ℕ)
    (v : Option TaskRecord × ℕ × Bool) : Prop :=
  (∃ r, v.1 = some r ∧ r.state = .lost ∧ v.2.1 = sent + 1) ∨
    ∃ r job, v.1 = some r ∧ r.jobId = some job ∧ OwnJob req t job ∧ v.2.2 = false

def Dropped (sent : ℕ) (v : Option TaskRecord × ℕ × Bool) : Prop :=
  v.2.1 = sent ∧ ∀ r, v.1 = some r → r.jobId = none

section Iteration

variable {now : ℚ} {req : LaunchTasksRequest} {l : LaunchedTask} {st : LaunchState} {sent : ℕ}

lemma covered_sendTaskLost {s : Service} {t : TaskInfo} {sid job : String} {r : TaskRecord}
    (hv : taskView t.taskId s = (some r, sent, false)) (hjob : OwnJob req t job) : Covered req t sent
      (taskView t.taskId (sendTaskLost t.taskId sid (setJobId t.taskId job s))) := by
  have hset : taskView t.taskId (setJobId t.taskId job s) =
      (some { r with jobId := some job }, sent, false) := by
    rw [setJobId, taskView_modifyTask_self, hv]
    rfl
  unfold sendTaskLost
  split_ifs
  · rw [taskView_lost_self, hset]
    exact .inl ⟨_, rfl, rfl, rfl⟩
  · rw [hset]
    exact .inr ⟨_, job, rfl, rfl, hjob, rfl⟩

lemma covered_runIfRegistered {s : Service} {t : TaskInfo} {sid job : String} {slave : Slave}
    {r : TaskRecord} (hv : taskView t.taskId s = (some r, sent, false)) (hr : r.jobId = some job)
    (hjob : OwnJob req t job) :
    Covered req t sent (taskView t.taskId (runIfRegistered sid t.taskId slave s)) := by
  unfold runIfRegistered
  split
  · next channel _ =>
      have hrun : taskView t.taskId (s.send (.runTask sid channel t.taskId)) = (some r, sent, false) :=
        (taskView_send rfl).trans hv
      rw [runTask, taskView_modifyTask_self, hrun]
      exact .inr ⟨_, job, rfl, hr, hjob, rfl⟩
  · rw [hv]
    exact .inr ⟨r, job, rfl, hr, hjob, rfl⟩

lemma covered_launchTask (hv : taskView l.info.taskId st.service = (none, sent, false))
    (hl : Launchable st.service.slaveDict l.info) (hjobs : JobsSubmitted req st)
    (hmem : l ∈ req.tasks) :
    Covered req l.info sent (taskView l.info.taskId (launchTask now req l st).1.service) := by
  have henter : taskView l.info.taskId (enterTask now l st.service) =
      (some (l.record now), sent, false) := by
    rw [taskView_enterTask_self, hv]
  have hsub : taskView l.info.taskId (submission now l st.service).1 =
      (some (l.record now), sent, false) := (taskView_scaleUp _ _).trans henter
  have hforward : ∀ sid job slave, taskView l.info.taskId
      (forwardLaunch req l.info sid job slave (enterTask now l st.service)) =
        (some { l.record now with jobId := some job }, sent, false) := by
    intro sid job slave
    refine (taskView_send rfl).trans ?_
    rw [setJobId, taskView_modifyTask_self, henter]
    rfl
  obtain ⟨sid, href, hsid⟩ := hl
  have hstep := launchTask_launches now req l st
  generalize launchTask now req l st = r at hstep ⊢
  cases hstep with
  | noSlave h => rw [href] at h; cases h
  | waiting h _ hj =>
    rw [href] at h
    cases h
    exact covered_sendTaskLost henter ⟨sid, href, .inr (hjobs _ _ hj)⟩
  | unsubmitted _ _ _ _ =>
    rw [taskView_lost_self, hsub]
    exact .inl ⟨_, rfl, rfl, rfl⟩
  | submitted h _ _ hj =>
    rw [href] at h
    cases h
    obtain ⟨j, hmemj, hid⟩ := exists_of_firstJobId hj
    exact covered_sendTaskLost hsub
      ⟨sid, href, .inr ⟨l, hmem, href, j, mem_submitted_of_submission hmemj, hid⟩⟩
  | unknown h hp hs =>
    rw [href] at h
    cases h
    rcases hsid with h' | ⟨h', -⟩
    · rw [hp] at h'
      cases h'
    · exact absurd h' (lookup_eq_none.mp hs)
  | noJob h hp _ hj =>
    rw [href] at h
    cases h
    rcases hsid with h' | ⟨-, h'⟩
    · rw [hp] at h'
      cases h'
    · exact absurd hj h'
  | overdrawn h hp _ hj _ =>
    exact .inr ⟨_, _, (congrArg Prod.fst (hforward _ _ _)), rfl,
      ⟨_, h, .inl ⟨hp, hj⟩⟩, congrArg (·.2.2) (hforward _ _ _)⟩
  | @placed sid' job slave h hp _ hj _ =>
    have hown : OwnJob req l.info job := ⟨_, h, .inl ⟨hp, hj⟩⟩
    exact covered_runIfRegistered (hforward _ _ _) rfl hown

lemma dropped_launchTask (hv : taskView l.info.taskId st.service = (none, sent, false))
    (hl : ¬ Launchable st.service.slaveDict l.info) :
    Dropped sent (taskView l.info.taskId (launchTask now req l st).1.service) := by
  have henter : taskView l.info.taskId (enterTask now l st.service) =
      (some (l.record now), sent, false) := by
    rw [taskView_enterTask_self, hv]
  have hdropped : Dropped sent (taskView l.info.taskId (enterTask now l st.service)) := by
    rw [henter]
    refine ⟨rfl, fun r hr => ?_⟩
    cases hr
    rfl
  have hstep := launchTask_launches now req l st
  generalize launchTask now req l st = r at hstep ⊢
  cases hstep with
  | noSlave _ =>
    rw [hv]
    exact ⟨rfl, fun r hr => by cases hr⟩
  | waiting href hp _ => exact absurd ⟨_, href, .inl hp⟩ hl
  | unsubmitted href hp _ _ => exact absurd ⟨_, href, .inl hp⟩ hl
  | submitted href hp _ _ => exact absurd ⟨_, href, .inl hp⟩ hl
  | unknown _ _ _ => exact hdropped
  | noJob _ _ _ _ => exact hdropped
  | overdrawn href _ hs hj _ =>
    exact absurd ⟨_, href, .inr ⟨mem_of_lookup hs, by simp [hj]⟩⟩ hl
  | placed href _ hs hj _ =>
    exact absurd ⟨_, href, .inr ⟨mem_of_lookup hs, by simp [hj]⟩⟩ hl

lemma launchTask_next_iff (hl : Launchable st.service.slaveDict l.info) :
    (launchTask now req l st).2 = .next ↔ Debits st.service.slaveDict l.info := by
  obtain ⟨sid, href, hsid⟩ := hl
  rw [launchTask_continues_iff]
  constructor
  · rintro ⟨sid', href', hgoes⟩ sid₁ slave href₁ hp hs
    rw [href'] at href₁
    cases href₁
    exact (hgoes hp slave hs).2
  · intro hdebits
    refine ⟨sid, href, fun hp slave hs => ⟨?_, hdebits sid slave href hp hs⟩⟩
    rcases hsid with hp' | ⟨-, hjob⟩
    · rw [hp] at hp'
      cases hp'
    · exact hjob

end Iteration

/-! ## The loop -/

lemma launchable_congr {d d' : Dict String Slave} (h : d'.keys = d.keys) (t : TaskInfo) :
    Launchable d' t ↔ Launchable d t := by
  simp only [Launchable, AList.mem_keys, h]

section Loop

variable {now : ℚ} {req : LaunchTasksRequest}

def AllNew (count : String → ℕ) (ls : List LaunchedTask) (st : LaunchState) : Prop :=
  ∀ l ∈ ls, taskView l.info.taskId st.service = (none, count l.info.taskId, false)

lemma ne_of_nodup_ids {l l' : LaunchedTask} {ls : List LaunchedTask}
    (hd : ((l :: ls).map (·.info.taskId)).Nodup) (hl' : l' ∈ ls) : l'.info.taskId ≠ l.info.taskId := by
  intro he
  refine (nodup_cons.mp hd).1 ?_
  exact mem_map.mpr ⟨l', hl', he⟩

lemma AllNew.launchTask {count : String → ℕ} {l : LaunchedTask} {ls : List LaunchedTask}
    {st : LaunchState} (h : AllNew count (l :: ls) st) (hd : ((l :: ls).map (·.info.taskId)).Nodup) :
    AllNew count ls (launchTask now req l st).1 := by
  intro l' hl'
  exact (taskView_launchTask (ne_of_nodup_ids hd hl')).trans (h l' (mem_cons_of_mem _ hl'))

variable (now) (req)

lemma forEach_covered {count : String → ℕ} : ∀ {ls : List LaunchedTask} {st : LaunchState},
    (∀ l ∈ ls, l ∈ req.tasks) → (ls.map (·.info.taskId)).Nodup → AllNew count ls st →
    JobsSubmitted req st → (∀ l ∈ ls, Launchable st.service.slaveDict l.info) →
    DebitsThrough (ls.map (·.info)) st.service.slaveDict →
    ∀ l ∈ ls, Covered req l.info (count l.info.taskId)
      (taskView l.info.taskId (forEach (launchTask now req) ls st).1.service)
  | [], _, _, _, _, _, _, _ => fun _ h => absurd h not_mem_nil
  | l :: ls, st, hmem, hd, hnew, hjobs, hlaunch, hdebits => by
    have hfirst : Covered req l.info (count l.info.taskId)
        (taskView l.info.taskId (launchTask now req l st).1.service) :=
      covered_launchTask (hnew l mem_cons_self) (hlaunch l mem_cons_self) hjobs (hmem l mem_cons_self)
    rw [forEach_cons]
    cases ls with
    | nil =>
      intro l' hl'
      rw [mem_singleton.mp hl']
      by_cases hnext : (launchTask now req l st).2 = .next
      · rw [seq_of_next hnext]
        exact hfirst
      · rw [seq_of_ne hnext]
        exact hfirst
    | cons l₂ ls =>
      rcases hdebits with hnil | ⟨hdebit, hdebits⟩
      · cases hnil
      rw [seq_of_next ((launchTask_next_iff (hlaunch l mem_cons_self)).mpr hdebit)]
      intro l' hl'
      rcases mem_cons.mp hl' with rfl | hl'
      · rw [taskView_forEach fun l' hl' => (ne_of_nodup_ids hd hl').symm]
        exact hfirst
      · refine forEach_covered (fun l hl => hmem l (mem_cons_of_mem _ hl))
          (nodup_cons.mp hd).2 (hnew.launchTask hd)
          (hjobs.launchTask (hmem l mem_cons_self)) (fun l hl => ?_) ?_ l' hl'
        · rw [launchTask_slaveDict, launchable_congr (keys_launchedSlaves _ _)]
          exact hlaunch l (mem_cons_of_mem _ hl)
        · rw [launchTask_slaveDict]
          exact hdebits

lemma exists_dropped {count : String → ℕ} : ∀ {ls : List LaunchedTask} {st : LaunchState},
    (ls.map (·.info.taskId)).Nodup → AllNew count ls st →
    ¬ ((∀ l ∈ ls, Launchable st.service.slaveDict l.info) ∧
      DebitsThrough (ls.map (·.info)) st.service.slaveDict) → ∃ l ∈ ls, Dropped (count l.info.taskId)
      (taskView l.info.taskId (forEach (launchTask now req) ls st).1.service)
  | [], _, _, _, hnot => absurd ⟨fun _ h => absurd h not_mem_nil, trivial⟩ hnot
  | l :: ls, st, hd, hnew, hnot => by
    rw [forEach_cons]
    by_cases hl : Launchable st.service.slaveDict l.info
    · by_cases hdebit : Debits st.service.slaveDict l.info
      · -- the loop goes on, so the rest is to blame
        rw [seq_of_next ((launchTask_next_iff hl).mpr hdebit)]
        have hrest : ¬ ((∀ l' ∈ ls, Launchable (launchTask now req l st).1.service.slaveDict l'.info) ∧
            DebitsThrough (ls.map (·.info)) (launchTask now req l st).1.service.slaveDict) := by
          rw [launchTask_slaveDict]
          rintro ⟨hlaunch, hdebits⟩
          refine hnot ⟨fun l' hl' => ?_, .inr ⟨hdebit, hdebits⟩⟩
          rcases mem_cons.mp hl' with rfl | hl'
          · exact hl
          · exact (launchable_congr (keys_launchedSlaves _ _) _).mp (hlaunch l' hl')
        obtain ⟨l', hl', hdrop⟩ := exists_dropped (nodup_cons.mp hd).2 (hnew.launchTask hd) hrest
        exact ⟨l', mem_cons_of_mem _ hl', hdrop⟩
      · -- the debit raises, so there is a next task, which the loop does not reach
        rw [seq_of_ne (fun h => hdebit ((launchTask_next_iff hl).mp h))]
        cases ls with
        | nil =>
          refine absurd ⟨fun l' hl' => ?_, .inl rfl⟩ hnot
          rw [mem_singleton.mp hl']
          exact hl
        | cons l₂ ls =>
          refine ⟨l₂, mem_cons_of_mem _ mem_cons_self, ?_⟩
          rw [hnew.launchTask hd l₂ mem_cons_self]
          exact ⟨rfl, fun r hr => by cases hr⟩
    · refine ⟨l, mem_cons_self, ?_⟩
      have hfirst : Dropped (count l.info.taskId)
          (taskView l.info.taskId (launchTask now req l st).1.service) :=
        dropped_launchTask (hnew l mem_cons_self) hl
      by_cases hnext : (launchTask now req l st).2 = .next
      · rw [seq_of_next hnext, taskView_forEach fun l' hl' => (ne_of_nodup_ids hd hl').symm]
        exact hfirst
      · rw [seq_of_ne hnext]
        exact hfirst

end Loop

/-! ## The whole message -/

lemma taskView_launchTasks (tid : String) (now : ℚ) (req : LaunchTasksRequest) (s : Service) :
    taskView tid (launchTasks now req s).1 =
      taskView tid (forEach (launchTask now req) req.tasks (launchStart req s)).1.service := by
  unfold launchTasks
  dsimp only
  split_ifs
  · exact processRemainingOffers_keeps (I := fun s' => taskView tid s' = _) (fun _ _ h => h)
      (fun _ _ h => h) (fun _ s' h => (by simp [taskView] : _ = taskView tid s').trans h)
      (fun _ s' h => (by simp [taskView] : _ = taskView tid s').trans h) (fun _ _ _ h => h)
      (fun _ _ h => h) (fun _ _ h => (taskView_send rfl).trans h) _ _ _ rfl
  · rfl

lemma finish_wire (native : Bool) (s : Service) : (finish native s).wire = s.wire := by
  cases native with
  | true => exact postprocess_wire s
  | false => rfl

lemma lookup_taskDict_finish {native : Bool} {s : Service} {tid : String} {r : TaskRecord}
    (h : (finish native s).taskDict.lookup tid = some r) : s.taskDict.lookup tid = some r := by
  cases native with
  | true =>
    rw [finish, if_pos rfl, lookup_taskDict_postprocess] at h
    split_ifs at h
    exact h
  | false => exact h

lemma Covered.accounted {s s' : Service} {t : TaskInfo}
    (h : Covered req t (lostCount t.taskId s.wire) (taskView t.taskId s')) (native : Bool) :
    Accounted req s (finish native s') t := by
  rcases h with ⟨r, hr, hstate, hsent⟩ | ⟨r, job, hr, hjob, hown, hq⟩
  · refine ⟨.inl (by rw [finish_wire]; exact hsent), fun r' hr' hstaging => ?_⟩
    have he : some r' = some r := (lookup_taskDict_finish hr').symm.trans hr
    cases he
    rw [hstate] at hstaging
    cases hstaging
  · have hkept : (finish native s').taskDict.lookup t.taskId = some r := by
      cases native with
      | true =>
        rw [finish, if_pos rfl, lookup_taskDict_postprocess, if_neg (of_decide_eq_false hq)]
        exact hr
      | false => exact hr
    refine ⟨.inr ⟨r, job, hkept, hjob, hown⟩, fun r' hr' _ => ?_⟩
    rw [hkept] at hr'
    cases hr'
    rw [hjob]
    simp

lemma Dropped.not_accounted {s s' : Service} {t : TaskInfo}
    (h : Dropped (lostCount t.taskId s.wire) (taskView t.taskId s')) (native : Bool) :
    ¬ Accounted req s (finish native s') t := by
  rintro ⟨hsent | ⟨r, job, hr, hjob, -⟩, -⟩
  · have hcount : lostCount t.taskId s'.wire = lostCount t.taskId s.wire := h.1
    rw [finish_wire] at hsent
    omega
  · rw [h.2 r (lookup_taskDict_finish hr)] at hjob
    cases hjob

theorem launchTasks_accounted_iff {native : Bool} {now : ℚ} {req : LaunchTasksRequest} {s : Service}
    (ha : s.active = true) (hnew : NewTasks req s) :
    (∀ t ∈ req.infos, Accounted req s (step s (.launchTasks native now req)) t) ↔
      (∀ t ∈ req.infos, Launchable s.slaveDict t) ∧ DebitsThrough req.infos s.slaveDict := by
  have hstep : step s (.launchTasks native now req) = finish native (launchTasks now req s).1 := by
    simp only [step, whenActive, ha, if_true]
  have hdistinct : (req.tasks.map (·.info.taskId)).Nodup := by
    have h := hnew.distinct
    rwa [LaunchTasksRequest.infos, map_map] at h
  have hall : AllNew (fun tid => lostCount tid s.wire) req.tasks (launchStart req s) := by
    intro l hl
    have hmem : l.info ∈ req.infos := mem_map_of_mem hl
    refine Prod.ext (AList.lookup_eq_none.mpr (hnew.unknown _ hmem)) (Prod.ext rfl ?_)
    exact decide_eq_false (hnew.unqueued _ hmem)
  have hinfos : (∀ t ∈ req.infos, Launchable s.slaveDict t) ↔
      ∀ l ∈ req.tasks, Launchable s.slaveDict l.info := forall_mem_map
  rw [hinfos, hstep]
  constructor
  · intro h
    by_contra hnot
    obtain ⟨l, hl, hdrop⟩ := exists_dropped now req hdistinct hall hnot
    rw [← taskView_launchTasks] at hdrop
    exact hdrop.not_accounted native (h l.info (mem_map_of_mem hl))
  · rintro ⟨hlaunch, hdebits⟩ t ht
    obtain ⟨l, hl, rfl⟩ := mem_map.mp ht
    have hcov := forEach_covered now req (fun _ h => h) hdistinct hall
      (fun _ _ h => by cases h) hlaunch hdebits l hl
    rw [← taskView_launchTasks] at hcov
    exact hcov.accounted native

def onSlaveAndPlaceholder : LaunchTasksRequest :=
  { offerIds := []
    tasks := [⟨oneCpuTask "a" (slaveOf "7" "c7"), []⟩,
      ⟨oneCpuTask "b" "place-holder-1", [{ id := "8" }]⟩] }

theorem accounted_onSlaveAndPlaceholder :
    oneSlave.active = true ∧ NewTasks onSlaveAndPlaceholder oneSlave ∧
      ∀ t ∈ onSlaveAndPlaceholder.infos, Accounted onSlaveAndPlaceholder oneSlave
        (step oneSlave (.launchTasks true 0 onSlaveAndPlaceholder)) t := by
  have ha : oneSlave.active = true := by decide +kernel
  have hnew : NewTasks onSlaveAndPlaceholder oneSlave :=
    ⟨by decide +kernel, by decide +kernel, by decide +kernel⟩
  refine ⟨ha, hnew, (launchTasks_accounted_iff ha hnew).mpr ⟨?_, Or.inr ⟨?_, Or.inl rfl⟩⟩⟩
  · intro t ht
    rcases mem_cons.mp ht with rfl | ht
    · exact ⟨slaveOf "7" "c7", rfl, Or.inr ⟨by decide +kernel, by decide +kernel⟩⟩
    · rw [mem_singleton.mp ht]
      exact ⟨"place-holder-1", rfl, Or.inl (by decide +kernel)⟩
  · intro sid slave href _ hs
    cases href
    have hdebit : (oneSlave.slaveDict.lookup (slaveOf "7" "c7")).map
        (fun sl => (sl.launch (oneCpuTask "a" (slaveOf "7" "c7"))).2) = some .next := by
      decide +kernel
    rw [show oneSlave.slaveDict.lookup (slaveOf "7" "c7") = some slave from hs] at hdebit
    exact Option.some.inj hdebit

def onMissingSlave : LaunchTasksRequest :=
  { offerIds := [], tasks := [⟨oneCpuTask "a" (slaveOf "7" "c7"), []⟩] }

theorem not_accounted_onMissingSlave :
    smallService.active = true ∧ NewTasks onMissingSlave smallService ∧
      ¬ Accounted onMissingSlave smallService
        (step smallService (.launchTasks true 0 onMissingSlave))
        (oneCpuTask "a" (slaveOf "7" "c7")) := by
  refine ⟨by decide +kernel, ⟨by decide +kernel, by decide +kernel, by decide +kernel⟩, fun h => ?_⟩
  have hrecord : (step smallService (.launchTasks true 0 onMissingSlave)).taskDict.lookup "a" =
      some { taskInfo := oneCpuTask "a" (slaveOf "7" "c7"), state := .staging, queueTime := some 0 } := by
    decide +kernel
  exact h.noOrphan _ hrecord rfl rfl

end Urb
