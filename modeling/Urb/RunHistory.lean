/-
# `Urb.RunHistory` — the messages about one task, and the handlers that send none

Whether a task is run once is read off the wire: where the task was launched,
which runner it was put into a LaunchTasks message for, to which executors a
RunTask message went.  `history tid` is the part of the wire that this depends
on, together with the registrations of the runners.

A task is found again by its RECORD (STAGING, with a job id) and by the executor
channel of the SLAVE.  `RunQuiet tid` says that neither the history nor the
record of a staged task nor the channel of its executor is touched.  It is
proved here for

    status updates with another state, offer rounds, revived offers, refusals,
    launches of other tasks, RunTask messages of other tasks, post-processing

-/
import Urb.LaunchLoop

namespace Urb

open Block AList Bool Slave

/-! ## The messages about a task -/

def Message.concerns (tid : String) : Message → Bool
  | .launchTasksReceived _ tasks => decide (tid ∈ tasks.map (·.taskId))
  | .executorRunnerReceived _ _ => true
  | .stagedLaunch _ _ tasks => decide (tid ∈ tasks)
  | .runTask _ _ t => decide (t = tid)
  | _ => false

def history (tid : String) (wire : List Message) : List Message :=
  wire.filter (·.concerns tid)

def Message.isRun (tid : String) : Message → Bool
  | .runTask _ _ t => decide (t = tid)
  | _ => false

def runs (tid : String) (wire : List Message) : ℕ := wire.countP (·.isRun tid)

def StagedOn (tid sid : String) (wire : List Message) : Prop :=
  ∃ channel tasks, .stagedLaunch sid channel tasks ∈ wire ∧ tid ∈ tasks

def LaunchedAs (t : TaskInfo) (wire : List Message) : Prop :=
  ∃ offerIds tasks, .launchTasksReceived offerIds tasks ∈ wire ∧ t ∈ tasks

def RunnerSeen (job : String) (wire : List Message) : Prop :=
  ∃ sid, .executorRunnerReceived job sid ∈ wire

def PlacedOn (tid sid : String) (wire : List Message) : Prop :=
  ∃ t ref, t.taskId = tid ∧ LaunchedAs t wire ∧ t.slaveRef = some ref ∧
    ((isPlaceholder ref = false ∧ ref = sid) ∨ (isPlaceholder ref = true ∧ StagedOn tid sid wire))

section History

variable {tid : String} {wire : List Message}

lemma history_cons_of_not {m : Message} (h : m.concerns tid = false) :
    history tid (m :: wire) = history tid wire :=
  List.filter_cons_of_neg (by rw [h]; simp)

lemma history_cons_of {m : Message} (h : m.concerns tid) :
    history tid (m :: wire) = m :: history tid wire :=
  List.filter_cons_of_pos h

lemma mem_history {m : Message} : m ∈ history tid wire ↔ m ∈ wire ∧ m.concerns tid :=
  List.mem_filter

lemma runs_history : runs tid (history tid wire) = runs tid wire := by
  rw [runs, runs, history, List.countP_filter]
  refine List.countP_congr fun m _ => ?_
  cases m <;> simp [Message.isRun, Message.concerns]

lemma stagedOn_history {sid : String} : StagedOn tid sid (history tid wire) ↔ StagedOn tid sid wire := by
  constructor
  · rintro ⟨channel, tasks, hm, ht⟩
    exact ⟨channel, tasks, (mem_history.mp hm).1, ht⟩
  · rintro ⟨channel, tasks, hm, ht⟩
    exact ⟨channel, tasks, mem_history.mpr ⟨hm, decide_eq_true ht⟩, ht⟩

lemma launchedAs_history {t : TaskInfo} (ht : t.taskId = tid) :
    LaunchedAs t (history tid wire) ↔ LaunchedAs t wire := by
  constructor
  · rintro ⟨offerIds, tasks, hm, hmem⟩
    exact ⟨offerIds, tasks, (mem_history.mp hm).1, hmem⟩
  · rintro ⟨offerIds, tasks, hm, hmem⟩
    refine ⟨offerIds, tasks, mem_history.mpr ⟨hm, decide_eq_true ?_⟩, hmem⟩
    exact List.mem_map.mpr ⟨t, hmem, ht⟩

lemma runnerSeen_history {job : String} : RunnerSeen job (history tid wire) ↔ RunnerSeen job wire := by
  constructor
  · rintro ⟨sid, hm⟩
    exact ⟨sid, (mem_history.mp hm).1⟩
  · rintro ⟨sid, hm⟩
    exact ⟨sid, mem_history.mpr ⟨hm, rfl⟩⟩

lemma placedOn_history {sid : String} : PlacedOn tid sid (history tid wire) ↔ PlacedOn tid sid wire := by
  constructor
  · rintro ⟨t, ref, ht, hl, href, hsid⟩
    refine ⟨t, ref, ht, (launchedAs_history ht).mp hl, href, ?_⟩
    exact hsid.imp_right (And.imp_right stagedOn_history.mp)
  · rintro ⟨t, ref, ht, hl, href, hsid⟩
    refine ⟨t, ref, ht, (launchedAs_history ht).mpr hl, href, ?_⟩
    exact hsid.imp_right (And.imp_right stagedOn_history.mpr)

end History

/-! ## The channel of the task's executor -/

def Slave.settled (slave : Slave) : Bool := slave.executor.isSome || slave.isCommandExecutor

structure Slave.KeepsRunner (tid : String) (a b : Slave) : Prop where
  settled : a.settled = true → b.settled = true
  channel : a.settled = true → a.channelFor tid ≠ none → b.channelFor tid ≠ none

namespace Slave.KeepsRunner

variable {tid : String} {a b c : Slave}

lemma refl (a : Slave) : KeepsRunner tid a a := ⟨id, fun _ => id⟩

lemma trans (h : KeepsRunner tid a b) (k : KeepsRunner tid b c) : KeepsRunner tid a c :=
  ⟨fun hs => k.settled (h.settled hs), fun hs hc => k.channel (h.settled hs) (h.channel hs hc)⟩

lemma of_not_settled (h : a.settled = false) : KeepsRunner tid a b := by
  have hno : a.settled ≠ true := eq_false_iff.mp h
  exact ⟨fun hs => absurd hs hno, fun hs => absurd hs hno⟩

lemma of_eq (he : b.executor = a.executor) (hch : b.executorChannel = a.executorChannel)
    (hc : b.commandExecutors = a.commandExecutors) : KeepsRunner tid a b := by
  have hcommand : b.isCommandExecutor = a.isCommandExecutor := by
    rw [isCommandExecutor, isCommandExecutor, hc]
  refine ⟨fun hs => ?_, fun _ hch' => ?_⟩
  · rw [Slave.settled, he, hcommand]
    exact hs
  · rwa [channelFor, hcommand, hc, hch]

lemma of_sameControl (h : SameControl a b) : KeepsRunner tid a b :=
  of_eq h.executor h.executorChannel h.commandExecutors

lemma of_sameLoad (h : SameLoad a b) : KeepsRunner tid a b :=
  of_eq (congrArg executor h : _) (congrArg executorChannel h : _) (congrArg commandExecutors h : _)

lemma entries {entries : Dict String CommandExecutor} (hkeys : a.isCommandExecutor →
      entries.keys.isEmpty = false) (hnone : a.isCommandExecutor = false → entries = a.commandExecutors)
    (hch : (a.commandExecutors.lookup tid).bind (·.channel) ≠ none →
      (entries.lookup tid).bind (·.channel) ≠ none) :
    KeepsRunner tid a { a with commandExecutors := entries } := by
  cases hc : a.isCommandExecutor with
  | false => exact of_eq rfl rfl (hnone hc)
  | true =>
    have hcommand : ({ a with commandExecutors := entries } : Slave).isCommandExecutor := by
      rw [isCommandExecutor, hkeys hc]
      rfl
    refine ⟨fun _ => by rw [Slave.settled, hcommand, Bool.or_true], fun _ hch' => ?_⟩
    rw [channelFor, if_pos hcommand]
    rw [channelFor, if_pos hc] at hch'
    exact hch hch'

lemma modifyEntry (x : String) {f : CommandExecutor → CommandExecutor}
    (hf : ∀ e, e.channel ≠ none → (f e).channel ≠ none) :
    KeepsRunner tid a { a with commandExecutors := a.commandExecutors.modify x f } := by
  refine entries (fun hc => ?_) (fun hc => ?_) fun hch => ?_
  · rw [keys_modify]
    simpa [isCommandExecutor] using hc
  · refine modify_of_not_mem (fun hx => ?_) f
    rw [mem_keys] at hx
    simp only [isCommandExecutor, not_eq_false', List.isEmpty_iff] at hc
    rw [hc] at hx
    cases hx
  · rw [lookup_modify]
    split_ifs
    · cases he : a.commandExecutors.lookup tid with
      | none => rw [he] at hch; exact absurd rfl hch
      | some e => rw [he] at hch; exact hf e hch
    · exact hch

lemma register (channel : String) : KeepsRunner tid a { a with executorChannel := some channel } := by
  refine ⟨fun hs => hs, fun _ hch => ?_⟩
  show (if a.isCommandExecutor = true then (a.commandExecutors.lookup tid).bind (·.channel)
    else some channel) ≠ none
  split_ifs with hc
  · rwa [channelFor, if_pos hc] at hch
  · simp

lemma launch (t : TaskInfo) : KeepsRunner tid a (a.launch t).1 := by
  have hplace : KeepsRunner tid a (a.placeExecutor t) := by
    unfold placeExecutor
    split_ifs with hnew hcommand
    · refine of_not_settled ?_
      rw [and_eq_true, Option.isNone_iff_eq_none, not_eq_true'] at hnew
      rw [Slave.settled, hnew.1, hnew.2]
      rfl
    · rw [and_eq_true, decide_eq_true_eq] at hcommand
      refine entries (fun _ => ?_) (fun hc => ?_) fun hch => ?_
      · simp
      · rw [hcommand.1] at hc
        cases hc
      · rw [lookup_insert_ne]
        · exact hch
        · rintro rfl
          rw [lookup_eq_none.mpr hcommand.2] at hch
          exact hch rfl
    · exact refl a
  exact hplace.trans (of_sameControl (debitResources_sameControl t _))

end Slave.KeepsRunner

lemma Slave.settled_launch (t : TaskInfo) (slave : Slave) : (slave.launch t).1.settled := by
  have hplace : (slave.placeExecutor t).settled := by
    unfold placeExecutor
    split_ifs with hnew hcommand
    · cases t.executor with
      | some e => rfl
      | none => simp [settled, isCommandExecutor]
    · simp [settled, isCommandExecutor]
    · cases hs : slave.settled with
      | true => rfl
      | false =>
        rw [settled, or_eq_false_iff, Option.isSome_eq_false_iff] at hs
        rw [hs.1, hs.2] at hnew
        exact absurd rfl hnew
  have hkeep : Slave.KeepsRunner t.taskId (slave.placeExecutor t) (slave.launch t).1 :=
    .of_sameControl (debitResources_sameControl t _)
  exact hkeep.settled hplace

/-! ## Quiet steps -/

def OwnRecord (tid : String) (d : Dict String TaskRecord) : Prop :=
  ∀ k r, d.lookup k = some r → r.taskInfo.taskId = tid → k = tid

lemma OwnRecord.modify {tid x : String} {d : Dict String TaskRecord} {f : TaskRecord → TaskRecord}
    (h : OwnRecord tid d) (hf : ∀ r, (f r).taskInfo.taskId = r.taskInfo.taskId) :
    OwnRecord tid (d.modify x f) := by
  intro k r hr hid
  rcases lookup_modify_cases hr with ⟨-, r₀, hr₀, rfl⟩ | ⟨-, hr⟩
  · exact h k r₀ hr₀ ((hf r₀).symm.trans hid)
  · exact h k r hr hid

lemma OwnRecord.insert {tid : String} {d : Dict String TaskRecord} (r : TaskRecord)
    (h : OwnRecord tid d) : OwnRecord tid (d.insert r.taskInfo.taskId r) := by
  intro k r' hr hid
  rcases lookup_insert_cases hr with ⟨hk, rfl⟩ | ⟨-, hr⟩
  · exact hk.trans hid
  · exact h k r' hr hid

structure RunQuiet (tid : String) (s s' : Service) : Prop where
  history : history tid s'.wire = history tid s.wire
  record : ∀ r, s'.taskDict.lookup tid = some r → r.state = .staging →
    s.taskDict.lookup tid = some r
  slaves : ∀ sid sl', s'.slaveDict.lookup sid = some sl' →
    ∃ sl, s.slaveDict.lookup sid = some sl ∧ sl.KeepsRunner tid sl'
  own : OwnRecord tid s.taskDict → OwnRecord tid s'.taskDict

namespace RunQuiet

variable {tid : String} {s s' s'' : Service}

lemma refl (s : Service) : RunQuiet tid s s :=
  ⟨rfl, fun _ h _ => h, fun _ sl h => ⟨sl, h, .refl sl⟩, id⟩

lemma trans (h : RunQuiet tid s s') (k : RunQuiet tid s' s'') : RunQuiet tid s s'' := by
  refine ⟨k.history.trans h.history, fun r hr hst => h.record r (k.record r hr hst) hst,
    fun sid sl'' hl'' => ?_, fun ho => k.own (h.own ho)⟩
  obtain ⟨sl', hl', hk⟩ := k.slaves sid sl'' hl''
  obtain ⟨sl, hl, hh⟩ := h.slaves sid sl' hl'
  exact ⟨sl, hl, hh.trans hk⟩

lemma of_eq (hw : s'.wire = s.wire) (ht : s'.taskDict = s.taskDict)
    (hs : s'.slaveDict = s.slaveDict) : RunQuiet tid s s' := by
  exact ⟨by rw [hw], fun r hr _ => ht ▸ hr, fun sid sl hl => ⟨sl, hs ▸ hl, .refl sl⟩, fun ho => ht ▸ ho⟩

lemma send {m : Message} (hm : m.concerns tid = false) (s : Service) : RunQuiet tid s (s.send m) :=
  ⟨history_cons_of_not hm, fun _ h _ => h, fun _ sl h => ⟨sl, h, .refl sl⟩, id⟩

lemma modifySlave {k : String} {f : Slave → Slave}
    (hf : ∀ sl, s.slaveDict.lookup k = some sl → sl.KeepsRunner tid (f sl)) :
    RunQuiet tid s (s.modifySlave k f) := by
  refine ⟨rfl, fun _ h _ => h, fun sid sl' hl => ?_, id⟩
  rcases lookup_modify_cases hl with ⟨rfl, sl, hl', rfl⟩ | ⟨-, hl⟩
  · exact ⟨sl, hl', hf sl hl'⟩
  · exact ⟨sl', hl, .refl sl'⟩

lemma modifyTask_ne {x : String} {f : TaskRecord → TaskRecord} (hx : x ≠ tid)
    (hf : ∀ r, (f r).taskInfo.taskId = r.taskInfo.taskId) (s : Service) :
    RunQuiet tid s (s.modifyTask x f) := by
  refine ⟨rfl, fun r hr _ => ?_, fun _ sl h => ⟨sl, h, .refl sl⟩, fun ho => ho.modify hf⟩
  rwa [Service.modifyTask_taskDict, lookup_modify_ne hx.symm] at hr

lemma setTaskState {x : String} {state : TaskState} (h : x = tid → state ≠ .staging)
    (s : Service) : RunQuiet tid s (s.setTaskState x state) := by
  refine ⟨rfl, fun r hr hst => ?_, fun _ sl h => ⟨sl, h, .refl sl⟩, fun ho => ho.modify fun _ => rfl⟩
  rcases lookup_modify_cases hr with ⟨hx, r₀, -, rfl⟩ | ⟨-, hr⟩
  · exact absurd hst (h hx.symm)
  · exact hr

lemma putTask {r : TaskRecord} (h : r.taskInfo.taskId = tid → r.state ≠ .staging) (s : Service) :
    RunQuiet tid s (s.putTask r.taskInfo.taskId r) := by
  refine ⟨rfl, fun r' hr' hst => ?_, fun _ sl h => ⟨sl, h, .refl sl⟩, fun ho => ho.insert r⟩
  rcases lookup_insert_cases hr' with ⟨hx, rfl⟩ | ⟨-, hr'⟩
  · exact absurd hst (h hx.symm)
  · exact hr'

lemma postprocess (s : Service) : RunQuiet tid s (postprocess s) := by
  refine ⟨by rw [postprocess_wire], fun r hr _ => ?_, fun sid sl hl => ⟨sl, ?_, .refl sl⟩,
    fun ho k r hr hid => ?_⟩
  · rw [lookup_taskDict_postprocess] at hr
    split_ifs at hr
    exact hr
  · rw [lookup_slaveDict_postprocess] at hl
    split_ifs at hl
    exact hl
  · rw [lookup_taskDict_postprocess] at hr
    split_ifs at hr
    exact ho k r hr hid

lemma finish (native : Bool) (s : Service) : RunQuiet tid s (finish native s) := by
  cases native with
  | true => exact postprocess s
  | false => exact refl s

lemma scaleUp {count : ℤ} {submitted : List JobTuple} : RunQuiet tid s (scaleUp count submitted s).1 :=
  scaleUp_keeps (I := RunQuiet tid s) (fun _ _ h => h.trans (of_eq rfl rfl rfl)) _ _ (refl s)

lemma runTask_ne {sid channel x : String} (hx : x ≠ tid) :
    RunQuiet tid s (runTask sid channel x s) := by
  refine trans (send ?_ s) (modifyTask_ne (f := fun r =>
    { r with taskInfo := { r.taskInfo with agentId := none } }) hx (fun _ => rfl) _)
  exact decide_eq_false hx

lemma lost {x : String} {slaveId : Option String} :
    RunQuiet tid s (processTaskLostStatusUpdate x slaveId s) := by
  refine trans (trans (send rfl s) (setTaskState (fun _ => by decide) _)) (of_eq rfl rfl rfl)

/-! ## Status updates -/

lemma handleStatusUpdate {u : StatusUpdate} (hu : u.taskId = tid → u.state ≠ .staging) :
    RunQuiet tid s (handleStatusUpdate u s).1 := by
  have hrec : RunQuiet tid s (s.send (.statusUpdateReceived u.taskId u.state)) := send rfl s
  refine handleStatusUpdate_rule (I := RunQuiet tid s) hrec (hrec.trans (send rfl _)) fun task _ => ?_
  have hsent := (hrec.trans (setTaskState hu _)).trans
    (send (m := .statusUpdate u.taskId u.state (u.slaveRef task.taskInfo)) rfl _)
  refine settleUpdate_rule (I := RunQuiet tid s) (fun sid slave hs _ => ?_)
    (fun sid slave hs _ => ?_) (fun _ _ h => h.trans (of_eq rfl rfl rfl))
    (fun _ h => h.trans (of_eq rfl rfl rfl)) hsent
  · refine hsent.trans (modifySlave fun sl hl => ?_)
    cases hs.symm.trans hl
    exact .modifyEntry u.taskId fun _ h => h
  · refine hsent.trans (modifySlave fun sl hl => ?_)
    cases hs.symm.trans hl
    exact .of_sameControl (creditResources_sameControl task.taskInfo slave)

/-! ## Offers -/

lemma generateOffers {now : ℚ} : RunQuiet tid s (generateOffers now s) := by
  have hround : RunQuiet tid s (offerRound now s).service :=
    offerRound_marks (fun _ _ h => h.trans (of_eq rfl rfl rfl)) (fun _ _ h => h.trans (of_eq rfl rfl rfl))
      (fun _ _ h => h.trans (of_eq rfl rfl rfl))
      (fun _ _ _ h => h.trans (modifySlave fun _ _ => .of_eq rfl rfl rfl)) now (of_eq rfl rfl rfl)
  exact generateOffers_of_round (fun _ _ h => h.trans (send rfl _)) hround

lemma reviveOffers : RunQuiet tid s (reviveOffers s) := by
  refine ⟨rfl, fun _ h _ => h, fun sid sl' hl => ?_, id⟩
  rw [Urb.reviveOffers, lookup_mapVals] at hl
  obtain ⟨sl, hl', rfl⟩ := map_eq_some_iff.mp hl
  exact ⟨sl, hl', .of_eq rfl rfl rfl⟩

lemma processRemainingOffers {now : ℚ} {refuse : Option ℚ} {remaining : List String} :
    RunQuiet tid s (processRemainingOffers now refuse remaining s) := by
  refine processRemainingOffers_rule (I := RunQuiet tid s) (refl s) (fun oid _ r hr => ?_)
    fun _ _ h => h.trans (of_eq rfl rfl rfl)
  exact refuseOffer_keeps (I := RunQuiet tid s) (fun _ _ h => h.trans (of_eq rfl rfl rfl))
    (fun _ _ h => h.trans (of_eq rfl rfl rfl)) (fun _ _ h => h.trans (of_eq rfl rfl rfl))
    (fun _ _ _ hg h => h.trans (modifySlave fun sl _ => .of_sameLoad (hg sl)))
    (fun _ _ h => h.trans (of_eq rfl rfl rfl)) (fun _ s' h => h.trans (send rfl s')) now _ hr

/-! ## Launches of other tasks -/

lemma sendTaskLost {x sid : String} : RunQuiet tid s (sendTaskLost x sid s) := by
  unfold Urb.sendTaskLost
  split_ifs
  · exact lost
  · exact refl s

lemma launchTask_ne {now : ℚ} {req : LaunchTasksRequest} {l : LaunchedTask} {st : LaunchState}
    (hne : l.info.taskId ≠ tid) : RunQuiet tid st.service (launchTask now req l st).1.service := by
  have henter : RunQuiet tid st.service (enterTask now l st.service) :=
    putTask (r := l.record now) (fun he => absurd he hne) _
  have hjob : ∀ job s', RunQuiet tid s' (setJobId l.info.taskId job s') :=
    fun job s' => modifyTask_ne (f := fun r => { r with jobId := some job }) hne (fun _ => rfl) s'
  have hforward : ∀ sid job slave, RunQuiet tid st.service
      (forwardLaunch req l.info sid job slave (enterTask now l st.service)) :=
    fun sid job slave => (henter.trans (hjob job _)).trans (send rfl _)
  have hsub : RunQuiet tid st.service (submission now l st.service).1 := henter.trans scaleUp
  have hl := launchTask_launches now req l st
  generalize launchTask now req l st = r at hl ⊢
  cases hl with
  | noSlave _ => exact refl _
  | waiting _ _ _ => exact (henter.trans (hjob _ _)).trans sendTaskLost
  | unsubmitted _ _ _ _ => exact hsub.trans lost
  | submitted _ _ _ _ => exact (hsub.trans (hjob _ _)).trans sendTaskLost
  | unknown _ _ _ => exact henter
  | noJob _ _ _ _ => exact henter
  | @overdrawn sid job slave _ _ hs _ _ =>
    refine (hforward sid job slave).trans (modifySlave fun sl hl => ?_)
    have he : some slave = some sl := hs.symm.trans hl
    cases he
    exact .launch l.info
  | @placed sid job slave _ _ hs _ _ =>
    have hplaced : RunQuiet tid st.service ((forwardLaunch req l.info sid job slave
        (enterTask now l st.service)).modifySlave sid
          (fun _ => { (slave.launch l.info).1 with offerable := true })) := by
      refine (hforward sid job slave).trans (modifySlave fun sl hl => ?_)
      have he : some slave = some sl := hs.symm.trans hl
      cases he
      exact (Slave.KeepsRunner.launch l.info).trans (.of_eq rfl rfl rfl)
    refine hplaced.trans ?_
    unfold runIfRegistered
    split
    · exact runTask_ne hne
    · exact refl _

end RunQuiet

end Urb
