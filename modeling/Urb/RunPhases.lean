/-
# `Urb.RunPhases` — the phases of a staged task, and its launch

A task that waits for its executor is found again by scanning `task_dict` for its
state and its job id, so whether it is run once depends on who registers in the
meantime.  Under the condition

    a job has one runner, which registers once
    the executor of the task registers once
    no update puts the task back to STAGING

(`RunsOnce`), a STAGING task with a job id is in one of two phases:

    `Waiting`   launched on a placeholder; no runner of its job has registered
    `Placed`    the runner of its job has registered; every slave of the job is the
                one the task was placed on, and if the task has been run, the
                channel of its executor is set

The invariant is `Once`; the launch on a placeholder starts in the first phase, on a
registered slave in the second.
-/
import Urb.RunHistory
import Urb.StagingLoop

namespace Urb

open Block List Nat

/-! ## The condition -/

def RunsOnce (tid : String) (s : Service) : Event → Prop
  | .launchTasks _ _ req => s.active = true → tid ∈ req.infos.map (·.taskId) →
      (req.infos.map (·.taskId)).count tid = 1 ∧
      (∀ t, t.taskId = tid → ¬ LaunchedAs t s.wire) ∧
      ∀ l ∈ req.tasks, ∀ j ∈ l.submitted, ¬ RunnerSeen j.id s.wire
  | .registerExecutorRunner reg => s.active = true →
      ¬ RunnerSeen reg.jobId s.wire ∧ '.' ∉ reg.jobId.toList ∧ reg.jobId ≠ "0" ∧
      ∀ r, s.taskDict.lookup tid = some r → r.waitsFor reg.jobId = true →
        reg.tasks = [] ∧ StagesThrough reg s ∧ s.foreign = []
  | .registerExecutor reg => ∀ sid slave r, s.slaveByChannel reg.replyTo = some (sid, slave) →
      s.taskDict.lookup tid = some r → r.state = .staging → r.jobId = getJobIdFromSlaveId sid →
      (slave.isCommandExecutor = true → reg.executorId = tid) → slave.channelFor tid = none
  | .statusUpdate _ u => u.taskId = tid → u.state ≠ .staging
  | .generateOffers _ => True
  | .reviveOffers => True
  | .otherRequest => True
  | _ => False

/-! ## The invariant -/

structure OneRunner (wire : List Message) (d : Dict String Slave) : Prop where
  slaves : ∀ sid, sid ∈ d → ∃ job, getJobIdFromSlaveId sid = some job ∧ job ≠ "0" ∧
    .executorRunnerReceived job sid ∈ wire
  unique : ∀ job sid sid', .executorRunnerReceived job sid ∈ wire →
    .executorRunnerReceived job sid' ∈ wire → sid = sid'

namespace OneRunner

variable {wire : List Message} {d : Dict String Slave} {sid k job : String}

lemma received (h : OneRunner wire d) (hsid : sid ∈ d) (hj : getJobIdFromSlaveId sid = some job) :
    .executorRunnerReceived job sid ∈ wire := by
  obtain ⟨job', hj', -, hm⟩ := h.slaves sid hsid
  cases hj.symm.trans hj'
  exact hm

lemma runnerSeen (h : OneRunner wire d) (hsid : sid ∈ d)
    (hj : getJobIdFromSlaveId sid = some job) : RunnerSeen job wire :=
  ⟨sid, h.received hsid hj⟩

lemma eq_of_job (h : OneRunner wire d) (hk : k ∈ d) (hsid : sid ∈ d)
    (hjk : getJobIdFromSlaveId k = some job) (hj : getJobIdFromSlaveId sid = some job) : k = sid :=
  h.unique job k sid (h.received hk hjk) (h.received hsid hj)

end OneRunner

structure Waiting (tid job : String) (r : TaskRecord) (wire : List Message) : Prop where
  unseen : ¬ RunnerSeen job wire
  notRun : runs tid wire = 0
  notStaged : ∀ sid, ¬ StagedOn tid sid wire
  taskId : r.taskInfo.taskId = tid
  launched : LaunchedAs r.taskInfo wire
  placeholder : ∃ ref, r.taskInfo.slaveRef = some ref ∧ isPlaceholder ref = true

structure Placed (tid job : String) (wire : List Message) (d : Dict String Slave) : Prop where
  seen : RunnerSeen job wire
  slave : ∀ sid slave, d.lookup sid = some slave → getJobIdFromSlaveId sid = some job →
    PlacedOn tid sid wire ∧ slave.settled = true ∧ (0 < runs tid wire → slave.channelFor tid ≠ none)

structure Once (tid : String) (w : List Message) (s : Service) : Prop where
  history : history tid s.wire = w
  runs_le : runs tid w ≤ 1
  staged : ∀ sid sid', StagedOn tid sid w → StagedOn tid sid' w → sid = sid'
  placed : ∀ sid channel, .runTask sid channel tid ∈ w → PlacedOn tid sid w
  unlaunched : (∀ t, t.taskId = tid → ¬ LaunchedAs t w) → runs tid w = 0 ∧
    (∀ sid, ¬ StagedOn tid sid w) ∧ ∀ r, s.taskDict.lookup tid = some r → r.state ≠ .staging
  phase : ∀ r job, s.taskDict.lookup tid = some r → r.state = .staging → r.jobId = some job →
    Waiting tid job r w ∨ Placed tid job w s.slaveDict
  jobs : OneRunner w s.slaveDict
  own : OwnRecord tid s.taskDict

namespace Once

variable {tid : String} {w : List Message} {s s' : Service}

lemma of_quiet (h : Once tid w s) (hq : RunQuiet tid s s') : Once tid w s' := by
  refine ⟨hq.history.trans h.history, h.runs_le, h.staged, h.placed, fun hno => ?_,
    fun r job hr hst hjob => ?_, ⟨fun sid hsid => ?_, h.jobs.unique⟩, hq.own h.own⟩
  · obtain ⟨hrun, hstaged, hrec⟩ := h.unlaunched hno
    exact ⟨hrun, hstaged, fun r hr hst => hrec r (hq.record r hr hst) hst⟩
  · refine (h.phase r job (hq.record r hr hst) hst hjob).imp_right fun hp => ⟨hp.seen, ?_⟩
    intro sid sl' hl' hsid
    obtain ⟨sl, hl, hkeep⟩ := hq.slaves sid sl' hl'
    obtain ⟨hon, hsettled, hch⟩ := hp.slave sid sl hl hsid
    exact ⟨hon, hkeep.settled hsettled, fun hrun => hkeep.channel hsettled (hch hrun)⟩
  · obtain ⟨sl', hl'⟩ := AList.exists_lookup_of_mem hsid
    obtain ⟨sl, hl, -⟩ := hq.slaves sid sl' hl'
    exact h.jobs.slaves sid (AList.mem_of_lookup hl)

end Once

/-! ## The wire grows -/

section Grows

variable {tid sid : String} {w w' : List Message}

lemma StagedOn.mono (h : StagedOn tid sid w) (hw : w ⊆ w') : StagedOn tid sid w' := by
  obtain ⟨channel, tasks, hm, ht⟩ := h
  exact ⟨channel, tasks, hw hm, ht⟩

lemma LaunchedAs.mono {t : TaskInfo} (h : LaunchedAs t w) (hw : w ⊆ w') : LaunchedAs t w' := by
  obtain ⟨offerIds, tasks, hm, ht⟩ := h
  exact ⟨offerIds, tasks, hw hm, ht⟩

lemma PlacedOn.mono (h : PlacedOn tid sid w) (hw : w ⊆ w') : PlacedOn tid sid w' := by
  obtain ⟨t, ref, ht, hl, href, hsid⟩ := h
  exact ⟨t, ref, ht, hl.mono hw, href, hsid.imp_right (And.imp_right fun h => h.mono hw)⟩

def Message.isReceipt : Message → Bool
  | .launchTasksReceived _ _ => true
  | .executorRunnerReceived _ _ => true
  | _ => false

lemma runs_cons_receipt {m : Message} (hm : m.isReceipt) : runs tid (m :: w) = runs tid w := by
  refine countP_cons_of_neg ?_
  cases m <;> simp_all [Message.isReceipt, Message.isRun]

lemma stagedOn_cons_receipt {m : Message} (hm : m.isReceipt) :
    StagedOn tid sid (m :: w) ↔ StagedOn tid sid w := by
  constructor
  · rintro ⟨channel, tasks, hmem, ht⟩
    rcases mem_cons.mp hmem with rfl | hmem
    · cases hm
    · exact ⟨channel, tasks, hmem, ht⟩
  · exact fun h => h.mono (subset_cons_self _ _)

end Grows

/-! ## Launches -/

namespace Once

variable {tid : String} {w : List Message} {s s' : Service}

lemma of_record (h : Once tid w s) (hw : Urb.history tid s'.wire = w)
    (hl : ∃ t, t.taskId = tid ∧ LaunchedAs t w) (hslaves : ∀ sid, sid ∈ s'.slaveDict → sid ∈ s.slaveDict)
    (hown : OwnRecord tid s'.taskDict)
    (hphase : ∀ r job, s'.taskDict.lookup tid = some r → r.state = .staging → r.jobId = some job →
      Waiting tid job r w ∨ Placed tid job w s'.slaveDict) : Once tid w s' := by
  refine ⟨hw, h.runs_le, h.staged, h.placed, fun hno => ?_, hphase,
    ⟨fun sid hsid => h.jobs.slaves sid (hslaves sid hsid), h.jobs.unique⟩, hown⟩
  obtain ⟨t, ht, hl⟩ := hl
  exact absurd hl (hno t ht)

lemma receive {req : LaunchTasksRequest} (h : Once tid w s)
    (hmem : tid ∈ req.infos.map (·.taskId)) (hnew : ∀ t, t.taskId = tid → ¬ LaunchedAs t w) :
    Once tid (.launchTasksReceived req.offerIds req.infos :: w) (launchStart req s).service := by
  obtain ⟨hrun, hstaged, hrec⟩ := h.unlaunched hnew
  obtain ⟨t, ht, hid⟩ := mem_map.mp hmem
  have hw : w ⊆ .launchTasksReceived req.offerIds req.infos :: w := subset_cons_self _ _
  refine ⟨?_, ?_, fun sid sid' h₁ _ => ?_, fun sid channel hm => ?_, fun hno => ?_,
    fun r job hr hst _ => absurd hst (hrec r hr), ⟨fun sid hsid => ?_, fun job sid sid' h₁ h₂ => ?_⟩,
    h.own⟩
  · show Urb.history tid (.launchTasksReceived req.offerIds req.infos :: s.wire) = _
    rw [history_cons_of (m := .launchTasksReceived req.offerIds req.infos) (decide_eq_true hmem),
      h.history]
  · rw [runs_cons_receipt rfl, hrun]
    exact zero_le _
  · exact absurd ((stagedOn_cons_receipt rfl).mp h₁) (hstaged sid)
  · refine (h.placed sid channel ?_).mono hw
    exact (mem_cons.mp hm).resolve_left (by simp)
  · exact absurd ⟨_, _, mem_cons_self, ht⟩ (hno t hid)
  · obtain ⟨job, hjob, hne, hseen⟩ := h.jobs.slaves sid hsid
    exact ⟨job, hjob, hne, hw hseen⟩
  · exact h.jobs.unique job sid sid' ((mem_cons.mp h₁).resolve_left (by simp))
      ((mem_cons.mp h₂).resolve_left (by simp))

lemma runTask {sid channel : String} (h : Once tid w s) (hrun : runs tid w = 0)
    (hon : PlacedOn tid sid w)
    (hphase : ∀ r job, s.taskDict.lookup tid = some r → r.state = .staging → r.jobId = some job →
      Placed tid job w s.slaveDict ∧ ∀ k slave, s.slaveDict.lookup k = some slave →
        getJobIdFromSlaveId k = some job → slave.channelFor tid ≠ none) :
    Once tid (.runTask sid channel tid :: w) (runTask sid channel tid s) := by
  have hw : w ⊆ .runTask sid channel tid :: w := subset_cons_self _ _
  have hruns : runs tid (.runTask sid channel tid :: w) = 1 := by
    rw [runs, countP_cons_of_pos (by simp [Message.isRun])]
    exact congrArg (· + 1) hrun
  have hstaged : ∀ k, StagedOn tid k (.runTask sid channel tid :: w) → StagedOn tid k w := by
    rintro k ⟨c, tasks, hm, ht⟩
    exact ⟨c, tasks, (mem_cons.mp hm).resolve_left (by simp), ht⟩
  refine ⟨?_, hruns.le, fun k k' hk hk' => h.staged k k' (hstaged k hk) (hstaged k' hk'),
    fun k c hm => ?_, fun hno => ?_, fun r job hr hst hjob => .inr ?_,
    ⟨fun k hk => ?_, fun job k k' h₁ h₂ => ?_⟩, h.own.modify fun _ => rfl⟩
  · show Urb.history tid (.runTask sid channel tid :: s.wire) = _
    rw [history_cons_of (m := .runTask sid channel tid) (decide_eq_true rfl), h.history]
  · rcases mem_cons.mp hm with he | hm
    · cases he
      exact hon.mono hw
    · exact (h.placed k c hm).mono hw
  · -- the task was placed, so it was launched
    obtain ⟨t, _, hid, hl, -⟩ := hon
    exact absurd (hl.mono hw) (hno t hid)
  · have hr' : (s.taskDict.lookup tid).map (fun r =>
        { r with taskInfo := { r.taskInfo with agentId := none } }) = some r := by
      rw [← hr]
      exact (AList.lookup_modify_self _ _ _).symm
    obtain ⟨r₀, hr₀, rfl⟩ := map_eq_some_iff.mp hr'
    obtain ⟨hp, hch⟩ := hphase r₀ job hr₀ hst hjob
    obtain ⟨k, hseen⟩ := hp.seen
    refine ⟨⟨k, hw hseen⟩, fun k slave hk hjob' => ?_⟩
    obtain ⟨hon', hsettled, -⟩ := hp.slave k slave hk hjob'
    exact ⟨hon'.mono hw, hsettled, fun _ => hch k slave hk hjob'⟩
  · obtain ⟨job, hjob, hne, hseen⟩ := h.jobs.slaves k hk
    exact ⟨job, hjob, hne, hw hseen⟩
  · exact h.jobs.unique job k k' ((mem_cons.mp h₁).resolve_left (by simp))
      ((mem_cons.mp h₂).resolve_left (by simp))

structure Fresh (tid : String) (req : LaunchTasksRequest) (w : List Message) : Prop where
  notRun : runs tid w = 0
  notStaged : ∀ sid, ¬ StagedOn tid sid w
  launched : ∀ t ∈ req.infos, LaunchedAs t w
  unseen : ∀ l ∈ req.tasks, ∀ j ∈ l.submitted, ¬ RunnerSeen j.id w

section Launch

variable {now : ℚ} {req : LaunchTasksRequest} {l : LaunchedTask} {sid job : String} {slave : Slave}

section

variable (h : Once l.info.taskId w s) (hf : Fresh l.info.taskId req w) (hl : l ∈ req.tasks)
include h hf hl

lemma enter (hq : s'.wire = s.wire) (hslaves : s'.slaveDict = s.slaveDict)
    (htasks : s'.taskDict = (enterTask now l s).taskDict) : Once l.info.taskId w s' := by
  have hown : OwnRecord l.info.taskId s'.taskDict := htasks ▸ h.own.insert (l.record now)
  refine h.of_record (hq ▸ h.history) ⟨l.info, rfl, hf.launched _ (mem_map_of_mem hl)⟩
    (fun k hk => hslaves ▸ hk) hown fun r job hr _ hjob => ?_
  rw [htasks, show (enterTask now l s).taskDict.lookup l.info.taskId = some (l.record now) from
    AList.lookup_insert _] at hr
  cases hr
  cases hjob

lemma enterWaiting (href : l.info.slaveRef = some sid) (hp : isPlaceholder sid)
    (hjob : ¬ RunnerSeen job w) (hq : s'.wire = s.wire) (hslaves : s'.slaveDict = s.slaveDict)
    (htasks : s'.taskDict = (enterTask now l s).taskDict) :
    Once l.info.taskId w (setJobId l.info.taskId job s') := by
  have hlaunched := hf.launched _ (mem_map_of_mem hl)
  have hown : OwnRecord l.info.taskId s'.taskDict := htasks ▸ h.own.insert (l.record now)
  refine h.of_record (hq ▸ h.history) ⟨l.info, rfl, hlaunched⟩ (fun k hk => hslaves ▸ hk)
    (hown.modify fun _ => rfl) fun r job' hr _ hjob' => .inl ?_
  obtain ⟨r₀, hr₀, rfl⟩ := AList.of_lookup_modify_self hr
  rw [htasks, show (enterTask now l s).taskDict.lookup l.info.taskId = some (l.record now) from
    AList.lookup_insert _] at hr₀
  cases hr₀
  cases hjob'
  exact ⟨hjob, hf.notRun, hf.notStaged, rfl, hlaunched, sid, href, hp⟩

lemma enterPlaced (href : l.info.slaveRef = some sid) (hp : isPlaceholder sid = false)
    (hs : s.slaveDict.lookup sid = some slave) (hj : getJobIdFromSlaveId sid = some job)
    {launched : Slave} (hset : launched.settled) :
    let s' := (forwardLaunch req l.info sid job slave (enterTask now l s)).modifySlave sid
      (fun _ => launched)
    Once l.info.taskId w s' ∧ PlacedOn l.info.taskId sid w ∧
      ∀ r job', s'.taskDict.lookup l.info.taskId = some r → r.jobId = some job' →
        Placed l.info.taskId job' w s'.slaveDict ∧ ∀ k sl, s'.slaveDict.lookup k = some sl →
          getJobIdFromSlaveId k = some job' → sl = launched := by
  intro s'
  have hlaunched := hf.launched _ (mem_map_of_mem hl)
  have hon : PlacedOn l.info.taskId sid w := ⟨l.info, sid, rfl, hlaunched, href, .inl ⟨hp, rfl⟩⟩
  have hown : OwnRecord l.info.taskId (enterTask now l s).taskDict := h.own.insert (l.record now)
  -- the slave is the only one of its job
  have honly : ∀ k sl, s'.slaveDict.lookup k = some sl → getJobIdFromSlaveId k = some job →
      k = sid ∧ sl = launched := by
    intro k sl hk hjob
    have hmem : k ∈ s.slaveDict := AList.mem_modify.mp (AList.mem_of_lookup hk)
    have he : k = sid := h.jobs.eq_of_job hmem (AList.mem_of_lookup hs) hjob hj
    subst he
    obtain ⟨_, -, rfl⟩ := AList.of_lookup_modify_self hk
    exact ⟨rfl, rfl⟩
  have hphase : ∀ r job', s'.taskDict.lookup l.info.taskId = some r → r.jobId = some job' →
      Placed l.info.taskId job' w s'.slaveDict ∧ ∀ k sl, s'.slaveDict.lookup k = some sl →
        getJobIdFromSlaveId k = some job' → sl = launched := by
    intro r job' hr hjob'
    obtain ⟨r₀, -, rfl⟩ := AList.of_lookup_modify_self hr
    cases hjob'
    refine ⟨⟨h.jobs.runnerSeen (AList.mem_of_lookup hs) hj, fun k sl hk hjob => ?_⟩,
      fun k sl hk hjob => (honly k sl hk hjob).2⟩
    obtain ⟨rfl, rfl⟩ := honly k sl hk hjob
    exact ⟨hon, hset, fun hpos => absurd hf.notRun hpos.ne'⟩
  refine ⟨h.of_record ?_ ⟨l.info, rfl, hlaunched⟩ (fun k hk => AList.mem_modify.mp hk)
    (hown.modify fun _ => rfl) fun r job' hr _ hjob' => .inr (hphase r job' hr hjob').1, hon, hphase⟩
  exact (history_cons_of_not rfl).trans h.history

end

lemma launchTask_self {st : LaunchState} (h : Once l.info.taskId w st.service)
    (hf : Fresh l.info.taskId req w) (hl : l ∈ req.tasks) (hjobs : JobsSubmitted req st) :
    ∃ w', Once l.info.taskId w' (launchTask now req l st).1.service := by
  have hstep := launchTask_launches now req l st
  generalize launchTask now req l st = r at hstep ⊢
  have hsub : (submission now l st.service).1.wire = st.service.wire ∧
      (submission now l st.service).1.slaveDict = st.service.slaveDict ∧
      (submission now l st.service).1.taskDict = (enterTask now l st.service).taskDict :=
    scaleUp_keeps (I := fun s' => s'.wire = st.service.wire ∧ s'.slaveDict = st.service.slaveDict ∧
      s'.taskDict = (enterTask now l st.service).taskDict) (fun _ _ h => h) _ _ ⟨rfl, rfl, rfl⟩
  cases hstep with
  | noSlave _ => exact ⟨w, h⟩
  | @waiting sid job href hp hjob =>
    obtain ⟨l', hl', -, j, hj, rfl⟩ := hjobs sid job hjob
    have hwait : Once l.info.taskId w (setJobId l.info.taskId j.id (enterTask now l st.service)) :=
      h.enterWaiting hf hl href hp (hf.unseen l' hl' j hj) rfl rfl rfl
    exact ⟨w, hwait.of_quiet .sendTaskLost⟩
  | unsubmitted _ _ _ _ => exact ⟨w, (h.enter hf hl hsub.1 hsub.2.1 hsub.2.2).of_quiet .lost⟩
  | submitted href hp _ hjob =>
    obtain ⟨j, hj, rfl⟩ := exists_of_firstJobId hjob
    have hunseen := hf.unseen l hl j (mem_submitted_of_submission hj)
    exact ⟨w, (h.enterWaiting hf hl href hp hunseen hsub.1 hsub.2.1 hsub.2.2).of_quiet .sendTaskLost⟩
  | unknown _ _ _ => exact ⟨w, h.enter hf hl rfl rfl rfl⟩
  | noJob _ _ _ _ => exact ⟨w, h.enter hf hl rfl rfl rfl⟩
  | @overdrawn sid job slave href hp hs hj _ =>
    exact ⟨w, (h.enterPlaced hf hl href hp hs hj (Slave.settled_launch l.info slave)).1⟩
  | @placed sid job slave href hp hs hj _ =>
    have hset : ({ (slave.launch l.info).1 with offerable := true } : Slave).settled :=
      Slave.settled_launch l.info slave
    obtain ⟨hplaced, hon, hphase⟩ := h.enterPlaced hf hl href hp hs hj hset
    unfold runIfRegistered
    split
    · next channel hch =>
        refine ⟨_, hplaced.runTask hf.notRun hon fun r job' hr _ hjob' => ?_⟩
        obtain ⟨hp', heq⟩ := hphase r job' hr hjob'
        refine ⟨hp', fun k sl hk hjob => ?_⟩
        rw [heq k sl hk hjob]
        exact fun hnone => absurd (hch.symm.trans hnone) (by simp)
    · exact ⟨w, hplaced⟩

end Launch

structure Launching (tid : String) (req : LaunchTasksRequest) (w : List Message)
    (rest : List LaunchedTask) (st : LaunchState) : Prop where
  tasks : ∀ l ∈ rest, l ∈ req.tasks
  jobs : JobsSubmitted req st
  count : (rest.map (·.info.taskId)).count tid ≤ 1
  before : tid ∈ rest.map (·.info.taskId) → Once tid w st.service
  once : ∃ w', Once tid w' st.service

lemma launching_step {now : ℚ} {req : LaunchTasksRequest} {l : LaunchedTask}
    {rest : List LaunchedTask} {st : LaunchState} (hf : Fresh tid req w)
    (h : Launching tid req w (l :: rest) st) : Launching tid req w rest (launchTask now req l st).1 := by
  have hl := h.tasks l mem_cons_self
  have htasks := fun l' hl' => h.tasks l' (mem_cons_of_mem l hl')
  have hjobs : JobsSubmitted req (launchTask now req l st).1 := h.jobs.launchTask hl
  have hcount := h.count
  rw [map_cons] at hcount
  by_cases hid : l.info.taskId = tid
  · subst hid
    rw [count_cons_self] at hcount
    have hnot : l.info.taskId ∉ rest.map (·.info.taskId) :=
      count_eq_zero.mp (le_zero.mp (le_of_succ_le_succ hcount))
    exact ⟨htasks, hjobs, (le_succ _).trans hcount, fun hm => absurd hm hnot,
      (h.before mem_cons_self).launchTask_self hf hl h.jobs⟩
  · rw [count_cons_of_ne hid] at hcount
    have hquiet : RunQuiet tid st.service (launchTask now req l st).1.service := .launchTask_ne hid
    obtain ⟨w', hw'⟩ := h.once
    exact ⟨htasks, hjobs, hcount, fun hm => (h.before (mem_cons_of_mem _ hm)).of_quiet hquiet,
      w', hw'.of_quiet hquiet⟩

lemma launchTasks {now : ℚ} {req : LaunchTasksRequest} (h : Once tid w s)
    (hone : tid ∈ req.infos.map (·.taskId) → (req.infos.map (·.taskId)).count tid = 1 ∧
      (∀ t, t.taskId = tid → ¬ LaunchedAs t w) ∧
      ∀ l ∈ req.tasks, ∀ j ∈ l.submitted, ¬ RunnerSeen j.id w) :
    ∃ w', Once tid w' (launchTasks now req s).1 := by
  have hids : req.infos.map (·.taskId) = req.tasks.map (·.info.taskId) := map_map
  have hnojob : JobsSubmitted req (launchStart req s) := by
    intro sid job hlook
    cases hlook
  have hloop : ∃ w', Once tid w' (forEach (launchTask now req) req.tasks (launchStart req s)).1.service := by
    by_cases hmem : tid ∈ req.infos.map (·.taskId)
    · obtain ⟨hcount, hnew, hunseen⟩ := hone hmem
      have hstart := h.receive hmem hnew
      obtain ⟨hrun, hstaged, -⟩ := h.unlaunched hnew
      have hfresh : Fresh tid req (.launchTasksReceived req.offerIds req.infos :: w) := by
        refine ⟨(runs_cons_receipt rfl).trans hrun, fun sid hs => ?_, fun t ht => ?_,
          fun l hl j hj => ?_⟩
        · exact hstaged sid ((stagedOn_cons_receipt rfl).mp hs)
        · exact ⟨_, _, mem_cons_self, ht⟩
        · rintro ⟨sid, hm⟩
          exact hunseen l hl j hj ⟨sid, (mem_cons.mp hm).resolve_left (by simp)⟩
      refine forEach_rest (I := Launching tid req _) (Q := fun st => ∃ w', Once tid w' st.service)
        (fun l rest st hI _ => launching_step hfresh hI)
        (fun l rest st hI _ => (launching_step hfresh hI).once) (fun st hI => hI.once)
        ⟨fun l hl => hl, hnojob, (hids ▸ hcount).le, fun _ => hstart, _, hstart⟩
    · have hstart : RunQuiet tid s (launchStart req s).service :=
        (RunQuiet.send (m := .launchTasksReceived req.offerIds req.infos)
          (decide_eq_false hmem) s).trans (.of_eq rfl rfl rfl)
      refine ⟨w, h.of_quiet (forEach_inv (I := fun st : LaunchState =>
        RunQuiet tid s st.service) (fun l hl st hst => hst.trans (.launchTask_ne fun hid => hmem ?_)) hstart)⟩
      exact mem_map.mpr ⟨l.info, mem_map_of_mem hl, hid⟩
  obtain ⟨w', hw'⟩ := hloop
  unfold Urb.launchTasks
  dsimp only
  split_ifs
  · exact ⟨w', hw'.of_quiet .processRemainingOffers⟩
  · exact ⟨w', hw'⟩

end Once

end Urb
