/-
# `Urb.RunOnce` — a task is run once

The registrations, on the invariant of `Urb.RunPhases`.  The registration of the
runner takes a task from `Waiting` to `Placed` and writes the one LaunchTasks
message.  The registration of an executor writes the RunTask message, if the launch
has not; either way only where the channel gets set or is set already, and then not
again.

**The theorem** is about every run whose steps meet `RunsOnce`.  Without the
condition it fails: two tasks of an array job have the same job id, so both their
runners take the task (`runs_arrayRunners`).
-/
import Urb.RunPhases

namespace Urb

open Block List AList Bool Slave

namespace Once

variable {tid : String} {w : List Message} {s s' : Service}

/-! ## Executors -/

def Ready (reg : ExecutorRegistration) (sid : String) (command : Bool) (s : Service) : Prop :=
  ∀ slave, s.slaveDict.lookup sid = some slave → slave.isCommandExecutor = command ∧
    slave.executorChannel ≠ none ∧ (command = true → reg.executorId ∈ slave.commandExecutors)

def enterChannel (reg : ExecutorRegistration) (sid x : String) (s : Service) : Service :=
  s.modifySlave sid (fun sl =>
    { sl with commandExecutors := sl.commandExecutors.modify x
                (fun e => { e with channel := some reg.channel }) })

lemma enterChannel_quiet (reg : ExecutorRegistration) (sid x : String) (s : Service) :
    RunQuiet tid s (enterChannel reg sid x s) :=
  .modifySlave fun _ _ => .modifyEntry x fun _ _ => by simp

lemma jobId_of_getD {o : Option String} {job : String} (hne : job ≠ "0") (h : o.getD "0" = job) :
    o = some job := by
  cases o with
  | none => exact absurd h.symm hne
  | some j => exact congrArg some h

section Executor

variable {reg : ExecutorRegistration} {sid job : String} {command : Bool}

lemma Ready.enterChannel (h : Ready reg sid command s) (x : String) :
    Ready reg sid command (enterChannel reg sid x s) := by
  intro slave hs
  obtain ⟨sl, hl, rfl⟩ := of_lookup_modify_self hs
  obtain ⟨hc, hch, hmem⟩ := h sl hl
  refine ⟨?_, hch, fun hcommand => mem_modify.mpr (hmem hcommand)⟩
  rw [← hc]
  simp only [isCommandExecutor, keys_modify]

lemma Ready.runStaged (h : Ready reg sid command s) (x : String) :
    Ready reg sid command (runStaged reg sid job command x s).1 := by
  unfold Urb.runStaged
  split
  · exact h
  · split_ifs
    · exact h
    · exact h
    · exact h.enterChannel x
    · exact h
    · exact h

lemma runStaged_ne {x : String} (hx : x ≠ tid) :
    RunQuiet tid s (runStaged reg sid job command x s).1 := by
  unfold runStaged
  split
  · exact .refl s
  · split_ifs
    · exact .refl s
    · exact .runTask_ne hx
    · exact (enterChannel_quiet reg sid x s).trans (.runTask_ne hx)
    · exact .refl s
    · exact .refl s

lemma runPlaced {r : TaskRecord} {channel : String} (h : Once tid w s) (hsid : sid ∈ s.slaveDict)
    (hj : getJobIdFromSlaveId sid = some job) (hr : s.taskDict.lookup tid = some r)
    (hst : r.state = .staging) (hjob : r.jobId = some job) (hrun : runs tid w = 0)
    (hch : ∀ slave, s.slaveDict.lookup sid = some slave → slave.channelFor tid ≠ none) :
    Once tid (.runTask sid channel tid :: w) (Urb.runTask sid channel tid s) := by
  -- the runner of the job has registered, so the task does not wait for it
  have hplaced : Placed tid job w s.slaveDict := by
    refine (h.phase r job hr hst hjob).resolve_left fun hwait => ?_
    exact hwait.unseen (h.jobs.runnerSeen hsid hj)
  obtain ⟨slave, hs⟩ := exists_lookup_of_mem hsid
  refine h.runTask hrun (hplaced.slave sid slave hs hj).1 fun r' job' hr' _ hjob' => ?_
  cases hr.symm.trans hr'
  cases hjob.symm.trans hjob'
  refine ⟨hplaced, fun k sl hk hjk => ?_⟩
  cases h.jobs.eq_of_job (mem_of_lookup hk) hsid hjk hj
  exact hch sl hk

lemma runStaged_self (h : Once tid w s) (hready : Ready reg sid command s)
    (hsid : sid ∈ s.slaveDict) (hj : getJobIdFromSlaveId sid = some job)
    (hrun : ∀ r, s.taskDict.lookup tid = some r → r.state = .staging → r.jobId = some job →
      (command → reg.executorId = tid) → runs tid w = 0) :
    ∃ w', Once tid w' (runStaged reg sid job command tid s).1 := by
  have hzero : job ≠ "0" := by
    obtain ⟨job', hj', hne, -⟩ := h.jobs.slaves sid hsid
    cases hj.symm.trans hj'
    exact hne
  unfold runStaged
  split
  · exact ⟨w, h⟩
  · next r hr =>
      split_ifs with hstaged hvalid hcommand hid
      · exact ⟨w, h⟩
      · have hjob := jobId_of_getD hzero hstaged.2
        rw [not_eq_true'] at hcommand
        have hrun' := hrun r hr hstaged.1 hjob fun hc => absurd (hc.symm.trans hcommand) (by simp)
        refine ⟨_, h.runPlaced hsid hj hr hstaged.1 hjob hrun' fun slave hs => ?_⟩
        obtain ⟨hc, hch, -⟩ := hready slave hs
        rwa [channelFor, hc, hcommand]
      · have hjob := jobId_of_getD hzero hstaged.2
        rw [not_eq_true', not_eq_false] at hcommand
        have hrun' := hrun r hr hstaged.1 hjob fun _ => hid
        have hset := h.of_quiet (enterChannel_quiet reg sid tid s)
        refine ⟨_, hset.runPlaced (mem_modify.mpr hsid) hj hr hstaged.1 hjob hrun' fun slave hs => ?_⟩
        obtain ⟨hc, -, hmem⟩ := hready.enterChannel tid slave hs
        obtain ⟨sl, hl, rfl⟩ := of_lookup_modify_self hs
        obtain ⟨e, he⟩ := exists_lookup_of_mem (mem_modify.mp (hmem hcommand))
        rw [channelFor, if_pos (hc.trans hcommand), lookup_modify_self, ← hid, he]
        simp
      · exact ⟨w, h⟩
      · exact ⟨w, h⟩

structure Running (tid : String) (w : List Message) (reg : ExecutorRegistration) (sid : String)
    (command : Bool) (s₁ : Service) (rest : List String) (s : Service) : Prop where
  ready : Ready reg sid command s
  registered : sid ∈ s.slaveDict
  nodup : rest.Nodup
  before : tid ∈ rest → RunQuiet tid s₁ s
  once : ∃ w', Once tid w' s

lemma runStaged_slaves (x : String) : (runStaged reg sid job command x s).1.slaveDict.keys =
    s.slaveDict.keys := by
  unfold runStaged
  split
  · rfl
  · split_ifs
    · rfl
    · rfl
    · exact keys_modify _ _ _
    · rfl
    · rfl

lemma running_step {s₁ : Service} {x : String} {rest : List String} (h₁ : Once tid w s₁)
    (hj : getJobIdFromSlaveId sid = some job)
    (hrun : ∀ r, s₁.taskDict.lookup tid = some r → r.state = .staging → r.jobId = some job →
      (command → reg.executorId = tid) → runs tid w = 0)
    (h : Running tid w reg sid command s₁ (x :: rest) s) :
    Running tid w reg sid command s₁ rest (runStaged reg sid job command x s).1 := by
  obtain ⟨hx, hnodup⟩ := nodup_cons.mp h.nodup
  have hsid : sid ∈ (runStaged reg sid job command x s).1.slaveDict := by
    rw [AList.mem_keys, runStaged_slaves]
    exact h.registered
  by_cases he : x = tid
  · subst he
    have hquiet := h.before mem_cons_self
    refine ⟨h.ready.runStaged x, hsid, hnodup, fun hm => absurd hm hx, ?_⟩
    exact (h₁.of_quiet hquiet).runStaged_self h.ready h.registered hj fun r hr hst =>
      hrun r (hquiet.record r hr hst) hst
  · have hquiet : RunQuiet tid s (runStaged reg sid job command x s).1 := runStaged_ne he
    obtain ⟨w', hw'⟩ := h.once
    exact ⟨h.ready.runStaged x, hsid, hnodup,
      fun hm => (h.before (mem_cons_of_mem _ hm)).trans hquiet, w', hw'.of_quiet hquiet⟩

lemma runStagedTasks {s₁ : Service} (h : Once tid w s₁) (hready : Ready reg sid command s₁)
    (hsid : sid ∈ s₁.slaveDict) (hrun : ∀ r, s₁.taskDict.lookup tid = some r → r.state = .staging →
      r.jobId = getJobIdFromSlaveId sid → (command → reg.executorId = tid) → runs tid w = 0) :
    ∃ w', Once tid w' (runStagedTasks reg sid command s₁).1 := by
  unfold Urb.runStagedTasks
  split
  · exact ⟨w, h⟩
  · next job hj =>
      rw [hj] at hrun
      refine seq_inv (I := fun s => ∃ w', Once tid w' s) ?_ fun h => h
      exact forEach_rest (I := Running tid w reg sid command s₁) (Q := fun s => ∃ w', Once tid w' s)
        (fun x rest s hI _ => running_step h hj hrun hI)
        (fun x rest s hI _ => (running_step h hj hrun hI).once) (fun s hI => hI.once)
        ⟨hready, hsid, s₁.taskDict.keys_nodup, fun _ => .refl s₁, w, h⟩

lemma scaleForExecutor_quiet {slave : Slave} : RunQuiet tid s (scaleForExecutor reg sid slave s).1 := by
  unfold scaleForExecutor
  split_ifs
  · exact .refl s
  · dsimp only
    split_ifs
    · exact .refl s
    · exact .scaleUp

lemma runs_of_unregistered {slave : Slave} {r : TaskRecord} (h : Once tid w s)
    (hs : s.slaveDict.lookup sid = some slave) (hr : s.taskDict.lookup tid = some r)
    (hst : r.state = .staging) (hjob : r.jobId = getJobIdFromSlaveId sid)
    (hch : slave.channelFor tid = none) : runs tid w = 0 := by
  have hsid := mem_of_lookup hs
  obtain ⟨job, hj, -, -⟩ := h.jobs.slaves sid hsid
  rcases h.phase r job hr hst (hjob.trans hj) with hwait | hplaced
  · exact hwait.notRun
  · have hset := (hplaced.slave sid slave hs hj).2.2
    exact Nat.eq_zero_of_not_pos fun hpos => hset hpos hch

lemma registerExecutor (h : Once tid w s)
    (hone : ∀ sid slave r, s.slaveByChannel reg.replyTo = some (sid, slave) →
      s.taskDict.lookup tid = some r → r.state = .staging → r.jobId = getJobIdFromSlaveId sid →
      (slave.isCommandExecutor → reg.executorId = tid) → slave.channelFor tid = none) :
    ∃ w', Once tid w' (registerExecutor reg s).1 := by
  unfold Urb.registerExecutor
  split_ifs
  · exact ⟨w, h⟩
  · split
    · exact ⟨w, h.of_quiet (.send rfl s)⟩
    · next sid slave hfound =>
        have hs := lookup_of_slaveByChannel hfound
        have hsid := mem_of_lookup hs
        split_ifs with hretry
        · exact ⟨w, h.of_quiet (.send rfl s)⟩
        · have hset : RunQuiet tid s ((s.modifySlave sid (fun sl =>
              { sl with executorChannel := some reg.channel })).send (.executorRegistered reg.channel)) :=
            (RunQuiet.modifySlave fun _ _ => .register reg.channel).trans (.send rfl _)
          have h₁ := h.of_quiet hset
          dsimp only
          split_ifs
          · exact ⟨w, h₁⟩
          · refine seq_inv (I := fun s => ∃ w', Once tid w' s)
              (h₁.runStagedTasks ?_ (mem_modify.mpr hsid) ?_) ?_
            · intro slave' hs'
              obtain ⟨sl, hl, rfl⟩ := of_lookup_modify_self hs'
              cases hs.symm.trans hl
              refine ⟨rfl, by simp, fun hc => by_contra fun hmem => hretry ?_⟩
              rw [hc, decide_eq_true hmem]
              rfl
            · intro r hr hst hjob hid
              exact h.runs_of_unregistered hs hr hst hjob (hone sid slave r hfound hr hst hjob hid)
            · rintro ⟨w', hw'⟩
              exact ⟨w', hw'.of_quiet scaleForExecutor_quiet⟩

end Executor

end Once

/-! ## Runners -/

section Runner

variable {tid : String} {w : List Message} {s s' : Service} {reg : RunnerRegistration}

lemma Slave.settled_stage {t : TaskInfo} {slave : Slave}
    (h : slave.settled ∨ ∃ ref, t.slaveRef = some ref ∧ isPlaceholder ref) :
    (slave.stage t).1.settled := by
  have hdebit : ∀ sl : Slave, sl.settled → (debitResources t sl).1.settled := by
    intro sl hsl
    have hkeep : Slave.KeepsRunner t.taskId sl (debitResources t sl).1 :=
      .of_sameControl (debitResources_sameControl t sl)
    exact hkeep.settled hsl
  have htake : ∀ ref, (slave.takePlaceholder ref t).settled := by
    intro ref
    unfold takePlaceholder
    split
    · rfl
    · simp [settled, isCommandExecutor]
  unfold stage
  cases href : t.slaveRef with
  | none =>
    refine h.resolve_right ?_
    rintro ⟨ref, href', -⟩
    cases href.symm.trans href'
  | some ref =>
    refine hdebit _ ?_
    split_ifs with hp
    · exact htake ref
    · refine h.resolve_right ?_
      rintro ⟨ref', href', hp'⟩
      cases href.symm.trans href'
      exact hp hp'

lemma Slave.settled_stageAll : ∀ {ts : List TaskInfo} {slave : Slave},
    (forEach stage ts slave).2 = .next →
    (slave.settled ∨ ∃ t ∈ ts, ∃ ref, t.slaveRef = some ref ∧ isPlaceholder ref) →
    (forEach stage ts slave).1.settled
  | [], slave, _, h => by
    refine h.resolve_right ?_
    rintro ⟨t, ht, -⟩
    cases ht
  | t :: ts, slave, hnext, h => by
    rw [forEach_cons] at hnext ⊢
    obtain ⟨hfirst, hrest⟩ := seq_next_iff.mp hnext
    rw [seq_of_next hfirst]
    refine settled_stageAll hrest ?_
    rcases h with h | ⟨t', ht', hp⟩
    · exact .inl (settled_stage (.inl h))
    · rcases mem_cons.mp ht' with rfl | ht'
      · exact .inl (settled_stage (.inr hp))
      · exact .inr ⟨t', ht', hp⟩

lemma OneRunner.enter {d d' : Dict String Slave} {w' : List Message} (h : OneRunner w d)
    (hnew : ¬ RunnerSeen reg.jobId w) (hdot : '.' ∉ reg.jobId.toList) (hzero : reg.jobId ≠ "0")
    (hd : ∀ k, k ≠ reg.slaveId → d'.lookup k = d.lookup k)
    (hw : ∀ job k, .executorRunnerReceived job k ∈ w' ↔
      .executorRunnerReceived job k ∈ .executorRunnerReceived reg.jobId reg.slaveId :: w) :
    OneRunner w' d' := by
  refine ⟨fun k hk => ?_, fun job k k' hk hk' => ?_⟩
  · by_cases he : k = reg.slaveId
    · subst he
      exact ⟨reg.jobId, getJobIdFromSlaveId_createSlaveId hdot _ _, hzero, (hw _ _).mpr mem_cons_self⟩
    · obtain ⟨slave, hs⟩ := exists_lookup_of_mem hk
      rw [hd k he] at hs
      obtain ⟨job, hj, hne, hm⟩ := h.slaves k (mem_of_lookup hs)
      exact ⟨job, hj, hne, (hw _ _).mpr (mem_cons_of_mem _ hm)⟩
  · rcases mem_cons.mp ((hw job k).mp hk) with he | hk <;>
      rcases mem_cons.mp ((hw job k').mp hk') with he' | hk'
    · cases he
      cases he'
      rfl
    · cases he
      exact absurd ⟨k', hk'⟩ hnew
    · cases he'
      exact absurd ⟨k, hk⟩ hnew
    · exact h.unique job k k' hk hk'

lemma ne_slaveId_of_job {k job : String} (hdot : '.' ∉ reg.jobId.toList)
    (hj : getJobIdFromSlaveId k = some job) (hne : job ≠ reg.jobId) : k ≠ reg.slaveId := by
  rintro rfl
  cases hj.symm.trans (getJobIdFromSlaveId_createSlaveId hdot _ _)
  exact hne rfl

lemma Once.enterRunner (h : Once tid w s) (hnew : ¬ RunnerSeen reg.jobId w)
    (hdot : '.' ∉ reg.jobId.toList) (hzero : reg.jobId ≠ "0")
    (hwait : ∀ r, s.taskDict.lookup tid = some r → r.waitsFor reg.jobId = false)
    (hw : Urb.history tid s'.wire = .executorRunnerReceived reg.jobId reg.slaveId :: w)
    (hd : ∀ k, k ≠ reg.slaveId → s'.slaveDict.lookup k = s.slaveDict.lookup k)
    (ht : s'.taskDict = s.taskDict) :
    Once tid (.executorRunnerReceived reg.jobId reg.slaveId :: w) s' := by
  have hsub : w ⊆ .executorRunnerReceived reg.jobId reg.slaveId :: w := subset_cons_self _ _
  refine ⟨hw, (runs_cons_receipt rfl).trans_le h.runs_le, fun sid sid' h₁ h₂ => ?_,
    fun sid channel hm => ?_, fun hno => ?_, fun r job hr hst hjob => ?_,
    h.jobs.enter hnew hdot hzero hd fun _ _ => .rfl, ht ▸ h.own⟩
  · exact h.staged sid sid' ((stagedOn_cons_receipt rfl).mp h₁) ((stagedOn_cons_receipt rfl).mp h₂)
  · exact (h.placed sid channel ((mem_cons.mp hm).resolve_left (by simp))).mono hsub
  · obtain ⟨hrun, hstaged, hrec⟩ := h.unlaunched fun t hid hl => hno t hid (hl.mono hsub)
    refine ⟨(runs_cons_receipt rfl).trans hrun, fun sid hs => hstaged sid ?_, fun r hr => hrec r (ht ▸ hr)⟩
    exact (stagedOn_cons_receipt rfl).mp hs
  · rw [ht] at hr
    have hne : job ≠ reg.jobId := by
      rintro rfl
      have hw := hwait r hr
      rw [TaskRecord.waitsFor, decide_eq_false_iff_not] at hw
      exact hw ⟨hst, hjob⟩
    rcases h.phase r job hr hst hjob with hwt | hp
    · refine .inl ⟨?_, (runs_cons_receipt rfl).trans hwt.notRun, fun sid hs => ?_, hwt.taskId,
        hwt.launched.mono hsub, hwt.placeholder⟩
      · rintro ⟨sid, hm⟩
        rcases mem_cons.mp hm with he | hm
        · cases he
          exact hne rfl
        · exact hwt.unseen ⟨sid, hm⟩
      · exact hwt.notStaged sid ((stagedOn_cons_receipt rfl).mp hs)
    · obtain ⟨k, hseen⟩ := hp.seen
      refine .inr ⟨⟨k, hsub hseen⟩, fun k slave hk hj => ?_⟩
      rw [hd k (ne_slaveId_of_job hdot hj hne)] at hk
      obtain ⟨hon, hset, hch⟩ := hp.slave k slave hk hj
      rw [runs_cons_receipt rfl]
      exact ⟨hon.mono hsub, hset, hch⟩

lemma Once.enterOwnRunner {r : TaskRecord} {channel : String} {ids : List String} {slave : Slave}
    {w₂ : List Message} (h : Once tid w s) (hnew : ¬ RunnerSeen reg.jobId w)
    (hdot : '.' ∉ reg.jobId.toList) (hzero : reg.jobId ≠ "0") (hr : s.taskDict.lookup tid = some r)
    (hwait : Waiting tid reg.jobId r w) (hjob : r.jobId = some reg.jobId) (hids : tid ∈ ids)
    (hw₂ : w₂ = .stagedLaunch reg.slaveId channel ids ::
      .executorRunnerReceived reg.jobId reg.slaveId :: w) (hw : Urb.history tid s'.wire = w₂)
    (hd : ∀ k, k ≠ reg.slaveId → s'.slaveDict.lookup k = s.slaveDict.lookup k)
    (hs : s'.slaveDict.lookup reg.slaveId = some slave) (hset : slave.settled)
    (ht : s'.taskDict = s.taskDict) : Once tid w₂ s' := by
  have hmem : ∀ m, m ∈ w₂ ↔ m = .stagedLaunch reg.slaveId channel ids ∨
      m = .executorRunnerReceived reg.jobId reg.slaveId ∨ m ∈ w := by
    intro m
    rw [hw₂, mem_cons, mem_cons]
  have hsub : w ⊆ w₂ := fun m hm => (hmem m).mpr (.inr (.inr hm))
  have hruns : runs tid w₂ = 0 := by
    rw [← hwait.notRun, hw₂, runs, countP_cons_of_neg (by simp [Message.isRun])]
    exact runs_cons_receipt rfl
  have hstaged : ∀ sid, StagedOn tid sid w₂ → sid = reg.slaveId := by
    rintro sid ⟨c, tasks, hm, ht⟩
    rcases (hmem _).mp hm with he | he | hm
    · cases he
      rfl
    · cases he
    · exact absurd ⟨c, tasks, hm, ht⟩ (hwait.notStaged sid)
  have hon : PlacedOn tid reg.slaveId w₂ := by
    obtain ⟨ref, href, hp⟩ := hwait.placeholder
    exact ⟨r.taskInfo, ref, hwait.taskId, hwait.launched.mono hsub, href,
      .inr ⟨hp, channel, ids, (hmem _).mpr (.inl rfl), hids⟩⟩
  refine ⟨hw, hruns.trans_le (Nat.zero_le 1), fun sid sid' h₁ h₂ => ?_,
    fun sid c hm => ?_, fun hno => ?_, fun r' job hr' hst hjob' => .inr ?_,
    h.jobs.enter hnew hdot hzero hd fun job k => ?_, ht ▸ h.own⟩
  · exact (hstaged sid h₁).trans (hstaged sid' h₂).symm
  · exact (h.placed sid c (by simpa [hmem] using hm)).mono hsub
  · exact absurd (hwait.launched.mono hsub) (hno r.taskInfo hwait.taskId)
  · rw [ht] at hr'
    cases hr.symm.trans hr'
    cases hjob.symm.trans hjob'
    refine ⟨⟨reg.slaveId, (hmem _).mpr (.inr (.inl rfl))⟩, fun k sl hk hj => ?_⟩
    -- a slave of the job that was there before would have registered
    have hk' : k = reg.slaveId := by
      by_contra hne
      rw [hd k hne] at hk
      exact hnew (h.jobs.runnerSeen (mem_of_lookup hk) hj)
    subst hk'
    cases hs.symm.trans hk
    exact ⟨hon, hset, fun hpos => absurd hruns hpos.ne'⟩
  · rw [hmem, mem_cons]
    simp

lemma exists_waiting_of_mem_stagedIds (h : tid ∈ stagedIds reg s) :
    ∃ k r, s.taskDict.lookup k = some r ∧ r.waitsFor reg.jobId ∧ r.taskInfo.taskId = tid := by
  obtain ⟨t, ht, hid⟩ := mem_flatMap.mp h
  obtain ⟨r, hr, rfl⟩ := mem_map.mp ht
  obtain ⟨hr, hw⟩ := mem_filter.mp hr
  obtain ⟨k, hk⟩ := mem_values_iff.mp hr
  refine ⟨k, r, hk, hw, ?_⟩
  unfold TaskInfo.stagedIds at hid
  split at hid
  · cases hid
  · split_ifs at hid
    · exact (mem_singleton.mp hid).symm
    · cases hid

lemma history_launchNotice {ids : List String} {wire : List Message} (h : tid ∉ ids) :
    history tid (launchNotice reg ids ++ wire) = history tid wire := by
  unfold launchNotice
  split_ifs
  · rfl
  · exact history_cons_of_not (m := .stagedLaunch reg.slaveId reg.channel ids) (decide_eq_false h)

lemma mem_waitingTasks {r : TaskRecord} (hr : s.taskDict.lookup tid = some r)
    (hw : r.waitsFor reg.jobId) : r.taskInfo ∈ waitingTasks reg.jobId s.taskDict :=
  mem_map_of_mem (mem_filter.mpr ⟨mem_values_iff.mpr ⟨tid, hr⟩, hw⟩)

lemma adoptTasks_quiet : RunQuiet tid (enterSlave reg s) (adoptTasks reg (enterSlave reg s)).1 := by
  have hdebit : ∀ t s, RunQuiet tid s (debitSlave reg.slaveId t s).1 := by
    intro t s
    unfold debitSlave
    split
    · exact .refl s
    · next slave hs =>
        refine .modifySlave fun sl hl => ?_
        cases hs.symm.trans hl
        exact .of_sameControl (debitResources_sameControl t slave)
  refine forEach_inv (I := RunQuiet tid (enterSlave reg s)) (fun t _ s hs => hs.trans ?_) ?_
  · have hput : RunQuiet tid s
        (s.putTask t.taskId { taskInfo := t, state := .running, jobId := some reg.jobId }) :=
      .putTask (r := { taskInfo := t, state := .running, jobId := some reg.jobId }) (by simp) s
    exact hput.trans (hdebit t _)
  · refine .modifySlave fun sl hl => .of_not_settled ?_
    cases (lookup_insert _).symm.trans hl
    rfl

lemma Once.registerExecutorRunner (h : Once tid w s) (hnew : ¬ RunnerSeen reg.jobId w)
    (hdot : '.' ∉ reg.jobId.toList) (hzero : reg.jobId ≠ "0")
    (hown : ∀ r, s.taskDict.lookup tid = some r → r.waitsFor reg.jobId →
      reg.tasks = [] ∧ StagesThrough reg s ∧ s.foreign = []) :
    ∃ w', Once tid w' (registerExecutorRunner reg s).1 := by
  by_cases hwt : ∃ r, s.taskDict.lookup tid = some r ∧ r.waitsFor reg.jobId
  · obtain ⟨r, hr, hw⟩ := hwt
    obtain ⟨ht, hthrough, hforeign⟩ := hown r hr hw
    obtain ⟨hst, hjob⟩ := of_decide_eq_true hw
    have hwait : Waiting tid reg.jobId r w :=
      (h.phase r reg.jobId hr hst hjob).resolve_right fun hp => hnew hp.seen
    obtain ⟨hentered, hslave⟩ := registerExecutorRunner_ready ht hthrough hforeign
    obtain ⟨ref, href, hp⟩ := hwait.placeholder
    have hmem := mem_waitingTasks hr hw
    have hids : tid ∈ stagedIds reg s := by
      refine mem_flatMap.mpr ⟨r.taskInfo, hmem, ?_⟩
      simp only [TaskInfo.stagedIds, href, hp, if_true, hwait.taskId, mem_singleton]
    refine ⟨.stagedLaunch reg.slaveId reg.channel (stagedIds reg s) ::
      .executorRunnerReceived reg.jobId reg.slaveId :: w,
      h.enterOwnRunner hnew hdot hzero hr hwait hjob hids rfl ?_ hentered.others hslave
      (settled_stageAll hthrough (.inr ⟨r.taskInfo, hmem, ref, href, hp⟩))
      (congrArg Service.taskDict hentered.rest : _)⟩
    rw [hentered.wire, launchNotice, if_neg (ne_nil_of_mem hids), singleton_append,
      history_cons_of (m := .stagedLaunch reg.slaveId reg.channel (stagedIds reg s))
        (decide_eq_true hids), history_cons_of rfl, h.history]
  · have hwait : ∀ r, s.taskDict.lookup tid = some r → r.waitsFor reg.jobId = false :=
      fun r hr => eq_false_iff.mpr fun hw => hwt ⟨r, hr, hw⟩
    by_cases ht : reg.tasks = []
    · obtain ⟨ids, hids, hentered⟩ := registerExecutorRunner_entered (s := s) ht
      refine ⟨_, h.enterRunner hnew hdot hzero hwait ?_ hentered.others
        (congrArg Service.taskDict hentered.rest : _)⟩
      have hnot : tid ∉ ids := by
        intro hm
        obtain ⟨k, r, hr, hw, hid⟩ := exists_waiting_of_mem_stagedIds (hids tid hm)
        cases h.own k r hr hid
        exact hwt ⟨r, hr, hw⟩
      rw [hentered.wire, history_launchNotice hnot, history_cons_of rfl, h.history]
    · have hentered : Once tid (.executorRunnerReceived reg.jobId reg.slaveId :: w) (enterSlave reg s) := by
        refine h.enterRunner hnew hdot hzero hwait ?_ (fun k hk => lookup_insert_ne hk) rfl
        exact (history_cons_of rfl).trans (congrArg _ h.history)
      simp only [Urb.registerExecutorRunner, if_neg ht]
      exact ⟨_, hentered.of_quiet adoptTasks_quiet⟩

end Runner

/-! ## Runs -/

section Runs

variable {tid : String} {s : Service}

lemma Once.step {w : List Message} {e : Event} (h : Once tid w s) (hg : RunsOnce tid s e) :
    ∃ w', Once tid w' (step s e) := by
  have hpost : ∀ {s' : Service}, (∃ w', Once tid w' s') → ∃ w', Once tid w' (postprocess s') := by
    rintro s' ⟨w', hw'⟩
    exact ⟨w', hw'.of_quiet (.postprocess s')⟩
  have hfinish : ∀ {native : Bool} {s' : Service}, (∃ w', Once tid w' s') →
      ∃ w', Once tid w' (finish native s') := by
    rintro native s' ⟨w', hw'⟩
    exact ⟨w', hw'.of_quiet (.finish native s')⟩
  have hretry : ∃ w', Once tid w' (s.send .retry) := ⟨w, h.of_quiet (.send rfl s)⟩
  -- the condition speaks about the wire, the invariant about the task's part of it
  have hlaunched : ∀ t, t.taskId = tid → (LaunchedAs t w ↔ LaunchedAs t s.wire) :=
    fun t ht => h.history ▸ launchedAs_history ht
  have hseen : ∀ job, RunnerSeen job w ↔ RunnerSeen job s.wire := fun job => h.history ▸ runnerSeen_history
  cases e with
  | generateOffers now =>
    show ∃ w', Once tid w' (if s.active then generateOffers now s else s)
    split_ifs
    · exact ⟨w, h.of_quiet .generateOffers⟩
    · exact ⟨w, h⟩
  | launchTasks native now req =>
    refine hfinish ?_
    unfold whenActive
    split_ifs with ha
    · refine h.launchTasks fun hmem => ?_
      obtain ⟨hcount, hnew, hunseen⟩ := hg ha hmem
      exact ⟨hcount, fun t ht hl => hnew t ht ((hlaunched t ht).mp hl),
        fun l hl j hj hs => hunseen l hl j hj ((hseen j.id).mp hs)⟩
    · exact hretry
  | statusUpdate native u =>
    refine hfinish ?_
    unfold whenActive
    split_ifs
    · exact ⟨w, h.of_quiet (.handleStatusUpdate hg)⟩
    · exact hretry
  | reviveOffers =>
    refine hpost ?_
    split_ifs
    · exact ⟨w, h.of_quiet .reviveOffers⟩
    · exact ⟨w, h⟩
  | registerExecutorRunner reg =>
    refine hpost ?_
    split_ifs with ha
    · obtain ⟨hnew, hdot, hzero, hown⟩ := hg ha
      exact h.registerExecutorRunner (fun hs => hnew ((hseen reg.jobId).mp hs)) hdot hzero hown
    · exact ⟨w, h.of_quiet (.send rfl s)⟩
  | registerExecutor reg =>
    refine hpost ?_
    split_ifs
    · exact h.registerExecutor hg
    · exact ⟨w, h⟩
  | otherRequest => exact ⟨w, h.of_quiet (.postprocess s)⟩
  | killTask native t => exact hg.elim
  | reconcileTasks native now req => exact hg.elim
  | reregisterExecutor reg => exact hg.elim
  | deleteJob job => exact hg.elim
  | unregisterFramework native => exact hg.elim

lemma once_fresh (tid : String) (config : Config) (frameworkId hostname : String) (http : Bool) :
    Once tid [] (.fresh config frameworkId hostname http) := by
  refine ⟨rfl, Nat.zero_le 1, fun _ _ h => ?_, fun _ _ h => ?_, fun _ => ⟨rfl, fun _ h => ?_, fun _ h => ?_⟩,
    fun _ _ h => ?_, ⟨fun _ h => ?_, fun _ _ _ h => ?_⟩, fun _ _ h => ?_⟩
  · obtain ⟨_, _, hm, -⟩ := h
    cases hm
  · cases h
  · obtain ⟨_, _, hm, -⟩ := h
    cases hm
  · cases h
  · cases h
  · cases h
  · cases h
  · cases h

end Runs

structure RunAtMostOnce (tid : String) (wire : List Message) : Prop where
  staged : ∀ sid sid', StagedOn tid sid wire → StagedOn tid sid' wire → sid = sid'
  runs_le : runs tid wire ≤ 1
  placed : ∀ sid channel, .runTask sid channel tid ∈ wire → PlacedOn tid sid wire

theorem run_runAtMostOnce {config : Config} {frameworkId hostname : String} {http : Bool}
    {es : List Event} {tid : String}
    (hes : Machine.Guarded step (RunsOnce tid) (.fresh config frameworkId hostname http) es) :
    ∀ fs, fs <+: es →
      RunAtMostOnce tid (runFrom (.fresh config frameworkId hostname http) fs).wire := by
  rintro fs ⟨gs, rfl⟩
  have hrun := Machine.run_inv (I := fun s => ∃ w, Once tid w s) (fun _ _ h hg => h.elim fun _ h => h.step hg)
    ⟨_, once_fresh tid config frameworkId hostname http⟩ (Machine.guarded_append.mp hes).1
  obtain ⟨w, h⟩ := hrun
  refine ⟨fun sid sid' h₁ h₂ => ?_, ?_, fun sid channel hm => ?_⟩
  · rw [← stagedOn_history, h.history] at h₁ h₂
    exact h.staged sid sid' h₁ h₂
  · rw [← runs_history, h.history]
    exact h.runs_le
  · rw [← placedOn_history, h.history]
    refine h.placed sid channel ?_
    rw [← h.history]
    exact mem_history.mpr ⟨hm, decide_eq_true rfl⟩

def launchedOnPlaceholder : Event :=
  .launchTasks true 0 { offerIds := []
                        tasks := [{ info := oneCpuTask "a" "place-holder-1"
                                    submitted := [{ id := "7" }] }] }

def ranOnce : List Event :=
  [launchedOnPlaceholder, runnerUp "7" "c7", executorUp "c7" "e7",
    .statusUpdate true { taskId := "a", state := .running, slaveId := some (slaveOf "7" "c7") }]

theorem run_runAtMostOnce_ranOnce :
    (∀ fs, fs <+: ranOnce → RunAtMostOnce "a" (runFrom smallService fs).wire) ∧
      runs "a" (runFrom smallService ranOnce).wire = 1 := by
  have hrunner : RunsOnce "a" (runFrom smallService (ranOnce.take 1)) (runnerUp "7" "c7") := by
    refine fun _ => ⟨?_, by decide +kernel, by decide, fun _ _ _ => ⟨rfl, by decide +kernel, rfl⟩⟩
    rintro ⟨sid, hm⟩
    have hall : (runFrom smallService (ranOnce.take 1)).wire.all
        (fun m => decide (m ≠ .executorRunnerReceived "7" sid)) = true := by
      rfl
    exact of_decide_eq_true (all_eq_true.mp hall _ hm) rfl
  have hexecutor : RunsOnce "a" (runFrom smallService (ranOnce.take 2)) (executorUp "c7" "e7") := by
    intro sid slave r hfound _ _ _ _
    have hall : ((runFrom smallService (ranOnce.take 2)).slaveByChannel "c7").all
        (fun p => decide (p.2.channelFor "a" = none)) = true := by
      decide +kernel
    rw [hfound] at hall
    exact of_decide_eq_true hall
  refine ⟨run_runAtMostOnce ⟨fun _ _ => ⟨rfl, ?_, ?_⟩, hrunner, hexecutor, ?_, trivial⟩, by decide +kernel⟩
  · rintro t - ⟨_, _, hm, -⟩
    cases hm
  · rintro l - j - ⟨_, hm⟩
    cases hm
  · intro _ h
    cases h

def arrayRunners : List Event :=
  [launchedOnPlaceholder,
    .registerExecutorRunner
      { jobId := "7", arrayTask := "1", channel := "c1", host := "host", jobTuple := { id := "7" } },
    .registerExecutorRunner
      { jobId := "7", arrayTask := "2", channel := "c2", host := "host", jobTuple := { id := "7" } },
    executorUp "c1" "e1", executorUp "c2" "e2"]

theorem runs_arrayRunners :
    StagedOn "a" (createSlaveId "7" "1" "c1") (runFrom smallService arrayRunners).wire ∧
    StagedOn "a" (createSlaveId "7" "2" "c2") (runFrom smallService arrayRunners).wire ∧
    runs "a" (runFrom smallService arrayRunners).wire = 2 := by
  refine ⟨⟨"c1", ["a"], ?_, mem_singleton_self "a"⟩, ⟨"c2", ["a"], ?_, mem_singleton_self "a"⟩, ?_⟩
  · decide +kernel
  · decide +kernel
  · decide +kernel

end Urb
