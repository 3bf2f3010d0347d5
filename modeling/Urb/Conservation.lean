/-
# `Urb.Conservation` — the books of the slaves balance

The books of `Urb.Stock` are kept along a run: `audit` takes the step of the
service, enters the tasks that the step places on slaves and strikes the tasks
that end.  If every step meets `Conserves`, the books are in order in every state
of the run.

    kill_task,              the slave that is credited is the one the task is
    terminal update         placed on, or there is none and it is on none
    launch_tasks            the ids are new and the debits go through
    register_executor_      the tasks that wait for the runner are on placeholders
      runner                and placed nowhere, and the debits go through
    delete_job,             end no task that is placed on a registered slave
    reconcile_tasks

The updates LOST, KILLED and ERROR never lead to a credit (`finishTarget`), and a kill
over HTTP leaves the record behind, for the update of the executor to credit again.
-/
import Urb.OfferBook
import Urb.ReconcileFrame
import Urb.StagingLoop
import Urb.Stock

namespace Urb

open Block List AList TaskInfo Holdings

/-! ## Keeping the books -/

def TaskInfo.placement (d : Dict String Slave) (t : TaskInfo) : List (String × Holding String TaskInfo) :=
  match t.slaveRef with
  | none => []
  | some sid =>
    if isPlaceholder sid = false ∧ sid ∈ d ∧ getJobIdFromSlaveId sid ≠ none then [(t.taskId, ⟨sid, t⟩)]
    else []

instance (d : Dict String Slave) (t : TaskInfo) : Decidable (Continues d t) :=
  match href : t.slaveRef with
  | none => .isFalse (by rintro ⟨sid, hsid, -⟩; cases href.symm.trans hsid)
  | some sid =>
    match hs : d.lookup sid with
    | none => .isTrue ⟨sid, href, fun _ slave hs' => by cases hs.symm.trans hs'⟩
    | some slave =>
      decidable_of_iff (isPlaceholder sid = false →
          getJobIdFromSlaveId sid ≠ none ∧ (slave.launch t).2 = .next) (by
        constructor
        · intro h
          refine ⟨sid, href, fun hp slave' hs' => ?_⟩
          cases hs.symm.trans hs'
          exact h hp
        · rintro ⟨sid', href', h⟩ hp
          cases href.symm.trans href'
          exact h hp slave hs)

instance instDecidableLaunchesThrough : ∀ ts d, Decidable (LaunchesThrough ts d)
  | [], _ => .isTrue trivial
  | t :: ts, d => @instDecidableAnd (Continues d t) (LaunchesThrough ts (launchedSlaves t d)) inferInstance
      (instDecidableLaunchesThrough ts (launchedSlaves t d))

def launchPlacements : List TaskInfo → Dict String Slave → List (String × Holding String TaskInfo)
  | [], _ => []
  | t :: ts, d => t.placement d ++ if Continues d t then launchPlacements ts (launchedSlaves t d) else []

def runnerPlacements (reg : RunnerRegistration) (s : Service) : List (String × Holding String TaskInfo) :=
  if StagesThrough reg s ∧ s.foreign = [] then
    (s.taskDict.entries.filter (fun e => e.2.waitsFor reg.jobId && e.2.taskInfo.onPlaceholder)).map
      (fun e => (e.1, ⟨reg.slaveId, e.2.taskInfo⟩))
  else []

def placements (s : Service) : Event → List (String × Holding String TaskInfo)
  | .launchTasks _ _ req => if s.active then launchPlacements req.infos s.slaveDict else []
  | .registerExecutorRunner reg => if s.active then runnerPlacements reg s else []
  | _ => []

def audit (p : Service × Placements) (e : Event) : Service × Placements :=
  (step p.1 e, (p.2.place (placements p.1 e)).settle (ended p.1 (step p.1 e)))

/-! ## The condition -/

def credited : Option (String × Slave) → Option String
  | none => none
  | some (key, slave) => if slave.isCommandExecutor then none else some key

structure SettlesOn (h : Placements) (s : Service) (tid : String) (t : TaskInfo)
    (target : Option (String × Slave)) : Prop where
  own : credited target = liveOn h s.slaveDict tid
  completes : ∀ key slave, target = some (key, slave) → slave.isCommandExecutor = false →
    (creditResources t slave).2 = .next

instance (h : Placements) (s : Service) (tid : String) (t : TaskInfo)
    (target : Option (String × Slave)) : Decidable (SettlesOn h s tid t target) :=
  decidable_of_iff (credited target = liveOn h s.slaveDict tid ∧
      ∀ p ∈ target, p.2.isCommandExecutor = false → (creditResources t p.2).2 = .next)
    ⟨fun hp => ⟨hp.1, fun key slave ht => hp.2 (key, slave) ht⟩,
      fun hs => ⟨hs.own, fun p hp => hs.completes p.1 p.2 hp⟩⟩

def AnswersLive (now : ℚ) (req : ReconcileRequest) (s : Service) (q : TaskStatus) : Prop :=
  ∃ r, s.taskDict.lookup q.taskId = some r ∧ r.state.isTerminal = false ∧
    (stagingCheck now req (statusSlave q (some r) s) (some r) = .determine →
      r.jobId ≠ none ∧ q.answer.taskState.isTerminal = false)

def Conserves (p : Service × Placements) : Event → Prop
  | .launchTasks _ _ req => p.1.active = true →
      (req.infos.map (·.taskId)).Nodup ∧ (∀ t ∈ req.infos, t.taskId ∉ p.2) ∧
      LaunchesThrough req.infos p.1.slaveDict
  | .killTask _ tid => p.1.active = true → tid ∉ p.1.foreign →
      ∀ task, p.1.taskDict.lookup tid = some task →
        SettlesOn p.2 p.1 tid task.taskInfo (task.taskInfo.killRef.bind p.1.resolveSlave)
  | .statusUpdate _ u => p.1.active = true → u.state.isTerminal = true → u.taskId ∉ p.1.foreign →
      match p.1.taskDict.lookup u.taskId with
      | none => liveOn p.2 p.1.slaveDict u.taskId = none
      | some task => SettlesOn p.2 p.1 u.taskId task.taskInfo (finishTarget u task p.1)
  | .reconcileTasks _ now req => p.1.active = true →
      (∀ q ∈ req.statuses, liveOn p.2 p.1.slaveDict q.taskId = none) ∨
      (p.1.foreign = [] ∧ ∀ q ∈ req.statuses, ¬ Expires now req p.1 q ∧
        (liveOn p.2 p.1.slaveDict q.taskId = none ∨ AnswersLive now req p.1 q))
  | .deleteJob job => ∀ tid r, p.1.taskDict.lookup tid = some r → r.jobId = some job →
      liveOn p.2 p.1.slaveDict tid = none
  | .registerExecutorRunner reg => p.1.active = true →
      reg.tasks = [] ∧ StagesThrough reg p.1 ∧ p.1.foreign = [] ∧
      (∀ tid x, p.2.lookup tid = some x → x.owner ≠ reg.slaveId) ∧
      ∀ tid r, p.1.taskDict.lookup tid = some r → r.waitsFor reg.jobId = true →
        r.taskInfo.onPlaceholder = true ∧ tid ∉ p.2
  | .registerExecutor _ => True
  | .generateOffers _ => True
  | .reviveOffers => True
  | .otherRequest => True
  | _ => False

/-! ## Kills and updates -/

section Settle

variable {h : Placements} {s s' : Service} {tid : String}

lemma Audited.end_unplaced (ha : Audited h s) (hlive : liveOn h s.slaveDict tid = none)
    (hq : EndsOnly (· = tid) s s') : Audited (h.settle (ended s s')) s' := by
  refine ha.endsOnly hq fun k hk => ?_
  rw [hk]
  exact hlive

lemma Audited.end_placed {s₁ : Service} {key : String} {slave : Slave} {task : TaskRecord}
    (ha : Audited h s) (hr : s.taskDict.lookup tid = some task)
    (hlive : liveOn h s.slaveDict tid = some key) (hs : s.slaveDict.lookup key = some slave)
    (hcredit : (creditResources task.taskInfo slave).2 = .next) (hends : Ends s s₁ [tid])
    (hstocks : SameStocks [] s s₁) (hslaves : s₁.slaveDict = s.slaveDict) :
    Ends s (s₁.modifySlave key (fun _ => (creditResources task.taskInfo slave).1)) [tid] ∧
      Audited (h.settle [tid])
        (s₁.modifySlave key (fun _ => (creditResources task.taskInfo slave).1)) := by
  refine ⟨hends.of_wire rfl, (ha.keep hstocks fun k hk => absurd hk not_mem_nil).credit ?_ ?_ ?_ hcredit⟩
  · rw [hslaves]
    exact hlive
  · rw [hslaves]
    exact hs
  · exact fun x hx => ha.asked tid x task hx hr

lemma credited_eq_none {target : Option (String × Slave)}
    (h : ∀ key slave, target = some (key, slave) → slave.isCommandExecutor) :
    credited target = none := by
  cases target with
  | none => rfl
  | some p => exact if_pos (h p.1 p.2 rfl)

lemma credited_plain {key : String} {slave : Slave} (h : slave.isCommandExecutor = false) :
    credited (some (key, slave)) = some key := by
  rw [credited, h]
  rfl

lemma sendKillTask_endsOnly {P : String → Prop} (slave : Slave) (s : Service) :
    EndsOnly P s (sendKillTask slave tid s) := by
  unfold sendKillTask
  split
  · exact .send rfl s
  · exact .send rfl s

lemma Audited.followed {ks : List String} {s₁ : Service} (ha : Audited (h.settle ks) s₁)
    (hends : Ends s s₁ ks) (hq : EndsOnly (fun _ => False) s₁ s') :
    Audited (h.settle (ended s s')) s' := by
  obtain ⟨ks', hends', hnone, hs⟩ := hq
  cases eq_nil_iff_forall_not_mem.mpr hnone
  rw [(hends.trans hends').ended]
  exact ha.keep hs fun k hk => absurd hk not_mem_nil

lemma killTask_audited (ha : Audited h s)
    (hg : tid ∉ s.foreign → ∀ task, s.taskDict.lookup tid = some task →
      SettlesOn h s tid task.taskInfo (task.taskInfo.killRef.bind s.resolveSlave)) :
    Audited (h.settle (ended s (killTask tid s).1)) (killTask tid s).1 := by
  have hnothing : Audited (h.settle (ended s s)) s := by
    rw [(Ends.refl s).ended]
    exact ha
  unfold killTask
  split_ifs with hf
  · exact hnothing
  · split
    · exact hnothing
    · next task hr =>
        obtain ⟨hown, hcompletes⟩ := hg hf task hr
        have hends : Ends s (markKilled tid task s) [tid] := ⟨[_], rfl, rfl⟩
        have hstocks : SameStocks [] s (markKilled tid task s) := by
          have hset : SameStocks [] s (s.setTaskState tid .killed) := .setTaskState tid .killed s
          exact ⟨rfl, hset.slaves, hset.records⟩
        have hquiet : EndsOnly (· = tid) s (markKilled tid task s) :=
          ⟨[tid], hends, fun k hk => mem_singleton.mp hk, hstocks.mono (nil_subset _)⟩
        dsimp only
        split
        · next key slave htarget =>
            rw [htarget] at hown hcompletes
            unfold killOnSlave
            cases hc : slave.isCommandExecutor with
            | true =>
              rw [credited_eq_none fun _ _ he => by cases he; exact hc] at hown
              exact ha.end_unplaced hown.symm (hquiet.trans (sendKillTask_endsOnly slave _))
            | false =>
              rw [credited_plain hc] at hown
              obtain ⟨sid, -, hresolve⟩ := bind_eq_some_iff.mp htarget
              have hnext := hcompletes key slave rfl hc
              obtain ⟨hends', ha'⟩ := ha.end_placed hr hown.symm (resolveSlave_lookup hresolve) hnext
                hends hstocks rfl
              simp only [Bool.false_eq_true, if_false, hnext, if_true]
              exact ha'.followed hends' (sendKillTask_endsOnly _ _)
        · next htarget =>
            rw [htarget] at hown
            refine ha.end_unplaced hown.symm (hquiet.trans ?_)
            unfold deleteJobOf
            split
            · exact .send rfl _
            · exact .refl _

variable {u : StatusUpdate} {task : TaskRecord}

lemma terminal_of_finishTarget {p : String × Slave} (ht : finishTarget u task s = some p) :
    u.state.isTerminal := by
  unfold finishTarget at ht
  split_ifs at ht with hfin
  rcases hfin.1 with hst | hst
  · rw [hst]
    rfl
  · rw [hst]
    rfl

lemma settleUpdate_audited (ha : Audited h s) (hr : s.taskDict.lookup u.taskId = some task)
    (hg : u.state.isTerminal → SettlesOn h s u.taskId task.taskInfo (finishTarget u task s)) :
    Audited (h.settle (ended s (settleUpdate u task (forwardUpdate u task s)).1))
      (settleUpdate u task (forwardUpdate u task s)).1 := by
  have hset : SameStocks [] s (s.setTaskState u.taskId u.state) := .setTaskState _ _ s
  have hstocks : SameStocks [] s (forwardUpdate u task s) := ⟨rfl, hset.slaves, hset.records⟩
  have hquiet : EndsOnly (fun k => k = u.taskId ∧ u.state.isTerminal) s (forwardUpdate u task s) :=
    ((EndsOnly.send rfl s).trans (.setTaskState _ _ _)).trans (.report (fun ht => ⟨rfl, ht⟩) _)
  have hunplaced : ∀ {s'}, credited (finishTarget u task s) = none →
      EndsOnly (fun k => k = u.taskId ∧ u.state.isTerminal) s s' →
      Audited (h.settle (ended s s')) s' := by
    intro s' hnone hq
    refine ha.endsOnly hq ?_
    rintro k ⟨rfl, ht⟩
    exact (hg ht).own.symm.trans hnone
  rw [settleUpdate_eq, show finishTarget u task (forwardUpdate u task s) = finishTarget u task s from rfl]
  split
  · next htarget => exact hunplaced (by rw [htarget]; rfl) hquiet
  · next sid slave htarget =>
      have hs := lookup_of_finishTarget htarget
      have hterm := terminal_of_finishTarget htarget
      cases hc : slave.isCommandExecutor with
      | true =>
        refine hunplaced ?_ ?_
        · rw [htarget]
          exact if_pos hc
        · refine seq_inv (I := EndsOnly (fun k => k = u.taskId ∧ u.state.isTerminal) s)
            (finishOnSlave_rule (fun _ => hquiet.trans (.modifySlave fun a hl => ?_))
              (fun hc' => absurd (hc.symm.trans hc') (by simp))
              (fun _ _ hk => hk.trans (.of_eq rfl rfl rfl rfl)) hquiet)
            fun hk => hk.trans (.of_eq rfl rfl rfl rfl)
          cases hs.symm.trans hl
          exact .modifyEntry u.taskId _
      | false =>
        obtain ⟨hown, hcompletes⟩ := hg hterm
        rw [htarget, credited_plain hc] at hown
        have hnext := hcompletes sid slave htarget hc
        have hreceived : Ends s ((s.send (.statusUpdateReceived u.taskId u.state)).setTaskState
            u.taskId u.state) [] := ⟨[_], rfl, rfl⟩
        have hends : Ends s (forwardUpdate u task s) [u.taskId] := hreceived.report (if_pos hterm)
        obtain ⟨hends', ha'⟩ := ha.end_placed hr hown.symm hs hnext hends hstocks rfl
        have hfin : seq (finishOnSlave u.taskId sid slave task) (fun s => (s.queueTask u.taskId, .next))
            (forwardUpdate u task s) = (((forwardUpdate u task s).modifySlave sid
              (fun _ => (creditResources task.taskInfo slave).1)).queueTask u.taskId, .next) := by
          simp only [seq, finishOnSlave, hc, Bool.false_eq_true, if_false, hnext, if_true]
        rw [hfin]
        exact ha'.followed hends' (.of_eq rfl rfl rfl rfl)

lemma handleStatusUpdate_audited (ha : Audited h s) (hg : u.state.isTerminal → u.taskId ∉ s.foreign →
      match s.taskDict.lookup u.taskId with
      | none => liveOn h s.slaveDict u.taskId = none
      | some task => SettlesOn h s u.taskId task.taskInfo (finishTarget u task s)) :
    Audited (h.settle (ended s (handleStatusUpdate u s).1)) (handleStatusUpdate u s).1 := by
  by_cases hf : u.taskId ∈ s.foreign
  · have hres : handleStatusUpdate u s = (s.send (.statusUpdateReceived u.taskId u.state), .raise) :=
      if_pos hf
    rw [hres]
    exact ha.endsOnly (P := fun _ => False) (.send rfl s) fun _ hk => hk.elim
  · cases hr : s.taskDict.lookup u.taskId with
    | none =>
      rw [hr] at hg
      rw [handleStatusUpdate_unknown hf hr]
      have hquiet : EndsOnly (fun k => k = u.taskId ∧ u.state.isTerminal) s
          ((s.send (.statusUpdateReceived u.taskId u.state)).send
            (.statusUpdate u.taskId u.state (u.slaveId <|> u.agentId))) :=
        (EndsOnly.send rfl s).trans (.report (fun ht => ⟨rfl, ht⟩) _)
      refine ha.endsOnly hquiet ?_
      rintro k ⟨rfl, ht⟩
      exact hg ht hf
    | some task =>
      rw [hr] at hg
      rw [handleStatusUpdate_known hf hr]
      exact settleUpdate_audited ha hr fun ht => hg ht hf

end Settle

/-! ## Reconciliation -/

section Reconcile

variable {P : String → Prop} {s s₀ : Service} {now : ℚ} {http : Bool} {req : ReconcileRequest}
  {q : TaskStatus}

lemma resolveStatus_endsOnly : EndsOnly P s (resolveStatus q s) := by
  unfold resolveStatus
  split_ifs
  · exact .refl s
  · refine .of_stocks rfl (.modifyTask (f := fun r =>
      { r with taskInfo := r.taskInfo.resolvePlaceholder s.placeholderToSlave }) (fun r => ?_) s)
    unfold resolvePlaceholder
    dsimp only
    split <;> rfl

lemma reconcileTask_endsOnly : EndsOnly (· = q.taskId) s (reconcileTask now http req q s).1 := by
  have hresolve : EndsOnly (· = q.taskId) s (resolveStatus q s) := resolveStatus_endsOnly
  have hreport : ∀ state slaveId s', EndsOnly (· = q.taskId) s'
      (s'.send (.statusUpdate q.taskId state slaveId)) :=
    fun _ _ s' => .report (P := (· = q.taskId)) (fun _ => rfl) s'
  unfold reconcileTask
  split_ifs
  · exact .refl s
  · dsimp only
    split
    · exact hresolve
    · exact hresolve
    · exact hresolve.trans (hreport _ _ _)
    · split
      · exact hresolve.trans (hreport _ _ _)
      · refine hresolve.trans ?_
        unfold reconcileLost
        split
        · exact .refl _
        · exact .of_eq rfl rfl rfl rfl
        · -- the dictionary is replaced: its one record is that of the lost task
          refine ⟨[q.taskId], ⟨[_], rfl, rfl⟩, fun k hk => mem_singleton.mp hk, rfl,
            fun _ a hl => ⟨a, hl, .refl a⟩, fun tid r hr => .inl ?_⟩
          have hmem : tid ∈ (singleton q.taskId (lostRecord http q.taskId) : Dict String TaskRecord) :=
            mem_of_lookup hr
          rwa [AList.mem_keys, AList.keys_singleton] at hmem

lemma stagingCheck_answer {slave : Option String} {r : TaskRecord} {state : TaskState}
    (h : stagingCheck now req slave (some r) = .answer state) : state = r.state := by
  unfold stagingCheck at h
  grind

lemma reconcileTask_answersLive (hf : s.foreign = []) (hexp : ¬ Expires now req s q)
    (hlive : AnswersLive now req s q) : EndsOnly P s (reconcileTask now http req q s).1 := by
  obtain ⟨r, hr, hst, hdet⟩ := hlive
  have hresolve : EndsOnly P s (resolveStatus q s) := resolveStatus_endsOnly
  have hreport : ∀ state slaveId s', state.isTerminal = false → EndsOnly P s'
      (s'.send (.statusUpdate q.taskId state slaveId)) :=
    fun state _ s' hstate => .report (fun ht => absurd (hstate.symm.trans ht) (by simp)) s'
  unfold Expires at hexp
  unfold reconcileTask
  rw [if_neg (by rw [hf]; exact not_mem_nil)]
  dsimp only
  rw [hr] at hexp ⊢
  cases hcheck : stagingCheck now req (statusSlave q (some r) s) (some r) with
  | skip => exact hresolve
  | fail => exact hresolve
  | answer state =>
    refine hresolve.trans (hreport _ _ _ ?_)
    rw [stagingCheck_answer hcheck]
    exact hst
  | determine =>
    obtain ⟨hjob, hanswer⟩ := hdet hcheck
    cases hslave : statusSlave q (some r) s with
    | some sid =>
      refine hresolve.trans (hreport _ _ _ ?_)
      obtain ⟨job, hjob⟩ := ne_none_iff_exists'.mp hjob
      unfold determineState
      cases hj : getJobIdFromSlaveId sid with
      | some _ => exact hanswer
      | none =>
        simp only [Option.bind_some, hjob]
        exact hanswer
    | none =>
      rw [hslave] at hcheck
      have hlost : lostCheck now q (some r) (resolveStatus q s) ≠ .expired := by
        rw [lostCheck_resolveStatus]
        exact fun he => hexp ⟨hslave, hcheck, he⟩
      show EndsOnly P s (reconcileLost now http q (some r) (resolveStatus q s))
      refine hresolve.trans ?_
      unfold reconcileLost
      split
      · exact .refl _
      · exact .of_eq rfl rfl rfl rfl
      · next he => exact absurd he hlost

structure Unanswered (now : ℚ) (s₀ s : Service) : Prop where
  alike : Alike now s₀ s
  foreign : s.foreign = []
  jobs : ∀ tid r₀ r, s₀.taskDict.lookup tid = some r₀ → s.taskDict.lookup tid = some r →
    r.jobId = r₀.jobId

lemma AnswersLive.later (h : AnswersLive now req s₀ q) (hs : Unanswered now s₀ s) :
    AnswersLive now req s q := by
  obtain ⟨r₀, hr₀, hst, hdet⟩ := h
  have hslave := hs.alike.isNone_statusSlave q
  rcases hs.alike.tasks q.taskId with ⟨hnone, -⟩ | ⟨r₀', r, hr₀', hr, hsame⟩
  · cases hr₀.symm.trans hnone
  · cases hr₀.symm.trans hr₀'
    rw [hr, hr₀] at hslave
    refine ⟨r, hr, by rw [hsame.state]; exact hst, fun hcheck => ?_⟩
    rw [stagingCheck_congr hslave hsame] at hcheck
    rw [hs.jobs q.taskId r₀ r hr₀ hr]
    exact hdet hcheck

lemma Unanswered.reconcileTask (h : Unanswered now s₀ s) (hexp : ¬ Expires now req s q) :
    Unanswered now s₀ (reconcileTask now http req q s).1 := by
  obtain ⟨htasks, hforeign, -⟩ := reconcileTask_quiet http h.foreign hexp
  refine ⟨h.alike.trans (reconcileTask_alike http h.foreign hexp), hforeign, fun tid r₀ r hr₀ hr => ?_⟩
  rw [htasks] at hr
  unfold resolveStatus at hr
  split_ifs at hr
  · exact h.jobs tid r₀ r hr₀ hr
  · rcases lookup_modify_cases hr with ⟨-, r', hr', rfl⟩ | ⟨-, hr⟩
    · exact h.jobs tid r₀ r' hr₀ hr'
    · exact h.jobs tid r₀ r hr₀ hr

lemma reportTask_endsOnly (tid : String) : EndsOnly P s (reportTask tid s).1 := by
  unfold reportTask
  split
  · exact .refl s
  · next task _ =>
      split_ifs with hst
      · exact .refl s
      · refine .report (fun ht => ?_) s
        rcases hst with hst | hst
        · rw [hst] at ht
          cases ht
        · rw [hst] at ht
          cases ht
      · exact .refl s

lemma reconcileTasks_endsOnly
    (hg : (∀ q ∈ req.statuses, P q.taskId) ∨ (s.foreign = [] ∧ ∀ q ∈ req.statuses,
      ¬ Expires now req s q ∧ (P q.taskId ∨ AnswersLive now req s q))) :
    EndsOnly P s (reconcileTasks now http req s).1 := by
  unfold reconcileTasks
  split_ifs
  · refine seq_inv (I := EndsOnly P s) ?_ fun h => h
    exact forEach_inv (fun tid _ s' h => h.trans (reportTask_endsOnly tid)) (.refl s)
  · rcases hg with hP | ⟨hf, hq⟩
    · refine forEach_inv (I := EndsOnly P s) (fun q hq s' h => h.trans ?_) (.refl s)
      exact reconcileTask_endsOnly.mono fun k hk => hk ▸ hP q hq
    · have hstart : Unanswered now s s := by
        refine ⟨.refl now s, hf, fun tid r₀ r hr₀ hr => ?_⟩
        cases hr₀.symm.trans hr
        rfl
      refine (forEach_inv (I := fun s' => EndsOnly P s s' ∧ Unanswered now s s')
        (fun q hmem s' h => ?_) ⟨.refl s, hstart⟩).1
      obtain ⟨hexp, hans⟩ := hq q hmem
      have hexp' : ¬ Expires now req s' q := fun he => hexp (h.2.alike.expires_iff.mp he)
      refine ⟨h.1.trans ?_, h.2.reconcileTask hexp'⟩
      rcases hans with hP | hlive
      · exact reconcileTask_endsOnly.mono fun k hk => hk ▸ hP
      · exact reconcileTask_answersLive h.2.foreign hexp' (hlive.later h.2)

end Reconcile

/-! ## Launches -/

section Launch

variable {h : Placements} {now : ℚ} {req : LaunchTasksRequest} {l : LaunchedTask} {st : LaunchState}

lemma Balanced.launch {config : Config} {sid : String} {slave : Slave} {t : TaskInfo}
    (hb : slave.isCommandExecutor = false → Balanced h config sid slave) (hnew : t.taskId ∉ h)
    (hd : (slave.launch t).2 = .next) (hc : (slave.launch t).1.isCommandExecutor = false) :
    Balanced (h.insert t.taskId ⟨sid, t⟩) config sid (slave.launch t).1 := by
  have hplace : slave.SameStock (slave.placeExecutor t) := .placeExecutor t
  have hplain : (slave.placeExecutor t).isCommandExecutor = false :=
    (debitResources_sameControl t (slave.placeExecutor t)).isCommandExecutor.symm.trans hc
  exact ((hb (hplace.plain hplain)).of_sameStock hplace).debit hnew hd

lemma Audited.place {s s' : Service} {t : TaskInfo} {sid : String} {slave : Slave}
    (ha : Audited h s) (hnew : t.taskId ∉ h) (hs : s.slaveDict.lookup sid = some slave)
    (hd : (slave.launch t).2 = .next) (hconfig : s'.config = s.config)
    (hslaves : s'.slaveDict = s.slaveDict.modify sid (fun _ =>
      { (slave.launch t).1 with offerable := true }))
    (hrec : ∀ r, s'.taskDict.lookup t.taskId = some r → r.taskInfo.resources = t.resources)
    (hother : ∀ k, k ≠ t.taskId → s'.taskDict.lookup k = s.taskDict.lookup k) :
    Audited (h.insert t.taskId ⟨sid, t⟩) s' := by
  refine ⟨fun k b hb hc => ?_, fun k x r hx hr => ?_⟩
  · rw [hconfig]
    rw [hslaves] at hb
    rcases lookup_modify_cases hb with ⟨rfl, a, ha', rfl⟩ | ⟨hk, hb⟩
    · cases hs.symm.trans ha'
      exact (Balanced.launch (fun hplain => ha.balanced _ slave hs hplain) hnew hd hc).of_sameStock
        ⟨rfl, rfl, id⟩
    · exact (ha.balanced k b hb hc).insert_ne hnew (Ne.symm hk)
  · rcases lookup_insert_cases hx with ⟨hk, rfl⟩ | ⟨hk, hx⟩
    · subst hk
      exact hrec r hr
    · rw [hother k hk] at hr
      exact ha.asked k x r hx hr

lemma enterTask_stocks {s : Service} : SameStocks [l.info.taskId] s (enterTask now l s) := by
  refine ⟨rfl, fun _ a hl => ⟨a, hl, .refl a⟩, fun tid r hr => ?_⟩
  have hr' : (s.taskDict.insert l.info.taskId (l.record now)).lookup tid = some r := hr
  rw [lookup_insert_eq_ite] at hr'
  split_ifs at hr' with hk
  · exact .inl (mem_singleton.mpr hk)
  · exact .inr ⟨r, hr', rfl⟩

lemma launchTask_audited (now : ℚ) (req : LaunchTasksRequest) (ha : Audited h st.service)
    (hnew : l.info.taskId ∉ h) (hc : Continues st.service.slaveDict l.info) :
    Audited (h.place (l.info.placement st.service.slaveDict)) (launchTask now req l st).1.service ∧
      ∃ ks, Ends st.service (launchTask now req l st).1.service ks ∧
        ∀ k ∈ ks, k = l.info.taskId ∧ l.info.placement st.service.slaveDict = [] := by
  have hflow := (launchTask_continues_iff now req l st).mpr hc
  have hl := launchTask_launches now req l st
  generalize launchTask now req l st = r at hl hflow ⊢
  have hunplaced : ∀ {s'}, l.info.placement st.service.slaveDict = [] →
      EndsOnly (· = l.info.taskId) (enterTask now l st.service) s' →
      Audited (h.place (l.info.placement st.service.slaveDict)) s' ∧ ∃ ks, Ends st.service s' ks ∧
        ∀ k ∈ ks, k = l.info.taskId ∧ l.info.placement st.service.slaveDict = [] := by
    rintro s' hp ⟨ks, hends, hks, hs⟩
    refine ⟨?_, ks, hends, fun k hk => ⟨hks k hk, hp⟩⟩
    rw [hp]
    refine ha.keep (enterTask_stocks.trans hs) fun k hk => ?_
    rcases mem_append.mp hk with hk | hk
    · rw [hks k hk]
      exact hnew
    · rw [mem_singleton.mp hk]
      exact hnew
  have hplaceholder : ∀ {sid}, l.info.slaveRef = some sid → isPlaceholder sid →
      l.info.placement st.service.slaveDict = [] := by
    intro sid href hp
    simp [placement, href, hp]
  cases hl with
  | noSlave _ => cases hflow
  | waiting href hp _ =>
    exact hunplaced (hplaceholder href hp) (EndsOnly.setJobId.trans (.sendTaskLost rfl))
  | unsubmitted href hp _ _ =>
    exact hunplaced (hplaceholder href hp) (EndsOnly.scaleUp.trans (.lost rfl))
  | submitted href hp _ _ =>
    exact hunplaced (hplaceholder href hp)
      ((EndsOnly.scaleUp.trans .setJobId).trans (.sendTaskLost rfl))
  | unknown href hp hs =>
    refine hunplaced ?_ (.refl _)
    simp [placement, href, lookup_eq_none.mp hs]
  | noJob _ _ _ _ => cases hflow
  | overdrawn _ _ _ _ _ => cases hflow
  | @placed sid job slave href hp hs hj hd =>
    let s₂ := (forwardLaunch req l.info sid job slave (enterTask now l st.service)).modifySlave sid
      (fun _ => { (slave.launch l.info).1 with offerable := true })
    have htasks : s₂.taskDict = (st.service.taskDict.insert l.info.taskId (l.record now)).modify
      l.info.taskId (fun r => { r with jobId := some job }) := rfl
    have hplaced : Audited (h.insert l.info.taskId ⟨sid, l.info⟩) s₂ := by
      refine ha.place hnew hs hd rfl rfl (fun r hr => ?_) fun k hk => ?_
      · rw [htasks, lookup_modify_self, lookup_insert] at hr
        cases hr
        rfl
      · rw [htasks, lookup_modify_ne hk, lookup_insert_ne hk]
    have hrun : EndsOnly (fun _ => False) s₂
        (runIfRegistered sid l.info.taskId (slave.launch l.info).1 s₂) := by
      unfold runIfRegistered
      split
      · exact .runTask
      · exact .refl _
    have hplacement : l.info.placement st.service.slaveDict = [(l.info.taskId, ⟨sid, l.info⟩)] := by
      simp [placement, href, hp, hj, mem_of_lookup hs]
    have hends : Ends st.service s₂ [] := ⟨[_], rfl, rfl⟩
    obtain ⟨ks, hends', hnone, hstocks⟩ := hrun
    cases eq_nil_iff_forall_not_mem.mpr hnone
    rw [hplacement]
    exact ⟨hplaced.keep hstocks fun k hk => absurd hk not_mem_nil, [], hends.trans hends',
      fun k hk => absurd hk not_mem_nil⟩

lemma mem_placement {t : TaskInfo} {d : Dict String Slave} {k : String}
    (hk : k ∈ (t.placement d).map (·.1)) : k = t.taskId := by
  unfold placement at hk
  split at hk
  · cases hk
  · split_ifs at hk
    · exact mem_singleton.mp hk
    · cases hk

lemma mem_launchPlacements : ∀ {ts : List TaskInfo} {d : Dict String Slave} {k : String},
    k ∈ (launchPlacements ts d).map (·.1) → k ∈ ts.map (·.taskId)
  | [], _, _, hk => hk
  | t :: ts, d, k, hk => by
    rw [launchPlacements, map_append, mem_append] at hk
    rcases hk with hk | hk
    · rw [mem_placement hk]
      exact mem_cons_self
    · split_ifs at hk
      · exact mem_cons_of_mem _ (mem_launchPlacements hk)
      · cases hk

lemma launchLoop_audited (now : ℚ) (req : LaunchTasksRequest) :
    ∀ {ls : List LaunchedTask} {st : LaunchState} {h : Placements},
    Audited h st.service → (ls.map (·.info.taskId)).Nodup → (∀ l ∈ ls, l.info.taskId ∉ h) →
    LaunchesThrough (ls.map (·.info)) st.service.slaveDict →
    let h' := h.place (launchPlacements (ls.map (·.info)) st.service.slaveDict)
    let s' := (forEach (launchTask now req) ls st).1.service
    Audited h' s' ∧ ∃ ks, Ends st.service s' ks ∧ ∀ k ∈ ks, k ∉ h'
  | [], st, h, ha, _, _, _ => ⟨ha, [], .refl _, fun k hk => absurd hk not_mem_nil⟩
  | l :: ls, st, h, ha, hnodup, hnew, hthrough => by
    rw [map_cons, nodup_cons] at hnodup
    obtain ⟨hc, hrest⟩ := hthrough
    have hself := hnew l mem_cons_self
    obtain ⟨ha₁, ks₁, hends₁, hks₁⟩ := launchTask_audited now req ha hself hc
    have hids : ∀ {k d}, k ∈ (launchPlacements (ls.map (·.info)) d).map (·.1) →
        k ∈ ls.map (·.info.taskId) := by
      intro k d hk
      have hmem := mem_launchPlacements hk
      rwa [map_map] at hmem
    have hnew₁ : ∀ l' ∈ ls, l'.info.taskId ∉ h.place (l.info.placement st.service.slaveDict) := by
      intro l' hl' hm
      rcases mem_place.mp hm with hm | hm
      · exact hnew l' (mem_cons_of_mem _ hl') hm
      · exact hnodup.1 (mem_placement hm ▸ mem_map_of_mem hl')
    rw [← launchTask_slaveDict now req l st] at hrest
    obtain ⟨ha₂, ks₂, hends₂, hks₂⟩ := launchLoop_audited now req ha₁ hnodup.2 hnew₁ hrest
    rw [launchTask_slaveDict, ← place_append] at ha₂ hks₂
    dsimp only
    rw [map_cons, launchPlacements, if_pos hc, forEach_cons,
      seq_of_next ((launchTask_continues_iff now req l st).mpr hc)]
    refine ⟨ha₂, ks₂ ++ ks₁, hends₁.trans hends₂, fun k hk => ?_⟩
    rcases mem_append.mp hk with hk | hk
    · exact hks₂ k hk
    · -- the task has been reported lost: it is placed neither by this iteration nor by a later one
      obtain ⟨rfl, hnone⟩ := hks₁ k hk
      rw [hnone, nil_append, mem_place, not_or]
      exact ⟨hself, fun hm => hnodup.1 (hids hm)⟩

lemma launchTasks_audited {s : Service} (ha : Audited h s)
    (hnodup : (req.infos.map (·.taskId)).Nodup) (hnew : ∀ t ∈ req.infos, t.taskId ∉ h)
    (hthrough : LaunchesThrough req.infos s.slaveDict) :
    Audited ((h.place (launchPlacements req.infos s.slaveDict)).settle
      (ended s (launchTasks now req s).1)) (launchTasks now req s).1 := by
  have hquiet : SameStocks [] s (launchStart req s).service := .of_eq rfl rfl rfl
  have hreceived : Ends s (launchStart req s).service [] := ⟨[_], rfl, rfl⟩
  have hids : req.infos.map (·.taskId) = req.tasks.map (·.info.taskId) := map_map
  rw [hids] at hnodup
  obtain ⟨hloop, ks, hends, hks⟩ := launchLoop_audited now req
    (ha.keep hquiet fun k hk => absurd hk not_mem_nil) hnodup
    (fun l hl => hnew l.info (mem_map_of_mem hl)) hthrough
  have hdone : launchTasks now req s = _ :=
    if_pos ((forEach_launchTask_next_iff now req req.tasks (launchStart req s)).mpr hthrough)
  rw [hdone]
  have hdrop := hloop.drop fun k hk => liveOn_of_not_mem (hks k hk) _
  exact hdrop.followed (by simpa using hreceived.trans hends) .processRemainingOffers

end Launch

/-! ## Runners -/

section Runner

variable {h : Placements} {s : Service} {reg : RunnerRegistration}

lemma Slave.takePlaceholder_sameAmounts (ref : String) (t : TaskInfo) (slave : Slave) :
    (slave.takePlaceholder ref t).amount = slave.amount ∧
      (slave.takePlaceholder ref t).taskCount = slave.taskCount := by
  unfold Slave.takePlaceholder
  split
  · exact ⟨rfl, rfl⟩
  · exact ⟨rfl, rfl⟩

lemma Slave.stage_debits {t : TaskInfo} {slave : Slave} (hd : (slave.stage t).2 = .next) :
    (∀ name, (slave.stage t).1.amount name = (slave.amount name).map (· - t.need name)) ∧
      (slave.stage t).1.taskCount = slave.taskCount + 1 := by
  unfold Slave.stage at hd ⊢
  cases href : t.slaveRef with
  | none =>
    rw [href] at hd
    cases hd
  | some ref =>
    rw [href] at hd
    dsimp only at hd ⊢
    have hsame : (if isPlaceholder ref then slave.takePlaceholder ref t else slave).amount = slave.amount ∧
        (if isPlaceholder ref then slave.takePlaceholder ref t else slave).taskCount =
          slave.taskCount := by
      split_ifs
      · exact slave.takePlaceholder_sameAmounts ref t
      · exact ⟨rfl, rfl⟩
    refine ⟨fun name => ?_, ?_⟩
    · rw [debitResources_amount hd, hsame.1]
    · rw [debitResources_taskCount hd, hsame.2]

lemma Slave.stageAll_debits : ∀ {ts : List TaskInfo} {slave : Slave},
    (forEach Slave.stage ts slave).2 = .next → (∀ name, (forEach Slave.stage ts slave).1.amount name =
      (slave.amount name).map (· - (ts.map (·.need name)).sum)) ∧
    (forEach Slave.stage ts slave).1.taskCount = slave.taskCount + (ts.map (fun _ => (1 : ℤ))).sum
  | [], slave, _ => by simp
  | t :: ts, slave, hd => by
    rw [forEach_cons, seq_next_iff] at hd
    obtain ⟨hamount, hcount⟩ := Slave.stage_debits hd.1
    obtain ⟨hamounts, hcounts⟩ := Slave.stageAll_debits hd.2
    rw [forEach_cons, seq_of_next hd.1]
    refine ⟨fun name => ?_, ?_⟩
    · rw [hamounts, hamount, Option.map_map, map_cons, sum_cons]
      congr 1
      funext a
      simp only [Function.comp_apply]
      ring
    · rw [hcounts, hcount, map_cons, sum_cons]
      ring

def waitingEntries (reg : RunnerRegistration) (s : Service) : List (Sigma fun _ : String => TaskRecord) :=
  s.taskDict.entries.filter (fun e => e.2.waitsFor reg.jobId)

def waitingPlacements (reg : RunnerRegistration) (s : Service) : List (String × Holding String TaskInfo) :=
  (waitingEntries reg s).map (fun e => (e.1, ⟨reg.slaveId, e.2.taskInfo⟩))

lemma nodup_waitingPlacements : ((waitingPlacements reg s).map (·.1)).Nodup := by
  rw [waitingPlacements, map_map]
  exact s.taskDict.nodupKeys.sublist filter_sublist

lemma runnerPlacements_eq (hthrough : StagesThrough reg s) (hforeign : s.foreign = [])
    (hwait : ∀ tid r, s.taskDict.lookup tid = some r → r.waitsFor reg.jobId →
      r.taskInfo.onPlaceholder) : runnerPlacements reg s = waitingPlacements reg s := by
  rw [runnerPlacements, if_pos ⟨hthrough, hforeign⟩, waitingPlacements, waitingEntries]
  congr 1
  refine filter_congr fun e he => ?_
  cases hw : e.2.waitsFor reg.jobId with
  | false => rfl
  | true => rw [hwait e.1 e.2 (mem_lookup_iff.mpr he) hw, Bool.and_true]

lemma waitingTasks_eq : waitingTasks reg.jobId s.taskDict =
    (waitingEntries reg s).map (fun e => e.2.taskInfo) := by
  rw [waitingTasks, values, filter_map, map_map]
  rfl

lemma total_runnerPlacements {M : Type} [AddCommMonoid M] (sid : String) (f : TaskInfo → M)
    (hnew : ∀ e ∈ waitingEntries reg s, e.1 ∉ h) : total (h.place (waitingPlacements reg s)) sid f =
      (if reg.slaveId = sid then ((waitingTasks reg.jobId s.taskDict).map f).sum else 0) + h.total sid f := by
  rw [total_place sid f nodup_waitingPlacements, waitingPlacements, map_map, waitingTasks_eq, map_map]
  · congr 1
    split_ifs with hsid
    · subst hsid
      congr 2
      funext e
      exact term_self _ _ _
    · refine sum_eq_zero fun y hy => ?_
      obtain ⟨e, -, rfl⟩ := mem_map.mp hy
      exact term_ne hsid f
  · intro p hp
    obtain ⟨e, he, rfl⟩ := mem_map.mp hp
    exact hnew e he

lemma ends_registerExecutorRunner {ids : List String} {s' : Service} (hentered : RunnerEntered reg ids s s') :
    Ends s s' [] := by
  refine ⟨launchNotice reg ids ++ [.executorRunnerReceived reg.jobId reg.slaveId], ?_, ?_⟩
  · rw [hentered.wire, append_assoc]
    rfl
  · unfold launchNotice
    split_ifs <;> rfl

lemma registerExecutorRunner_audited (ha : Audited h s) (ht : reg.tasks = [])
    (hthrough : StagesThrough reg s) (hforeign : s.foreign = [])
    (hfree : ∀ tid x, h.lookup tid = some x → x.owner ≠ reg.slaveId)
    (hwait : ∀ tid r, s.taskDict.lookup tid = some r → r.waitsFor reg.jobId →
      r.taskInfo.onPlaceholder ∧ tid ∉ h) :
    Audited ((h.place (runnerPlacements reg s)).settle (ended s (registerExecutorRunner reg s).1))
      (registerExecutorRunner reg s).1 := by
  obtain ⟨hentered, hslave⟩ := registerExecutorRunner_ready ht hthrough hforeign
  have hconfig : (registerExecutorRunner reg s).1.config = s.config :=
    (congrArg Service.config hentered.rest : _)
  have htasks : (registerExecutorRunner reg s).1.taskDict = s.taskDict :=
    (congrArg Service.taskDict hentered.rest : _)
  have hentry : ∀ e ∈ waitingEntries reg s, s.taskDict.lookup e.1 = some e.2 ∧ e.1 ∉ h := by
    intro e he
    obtain ⟨hmem, hw⟩ := mem_filter.mp he
    have hlook := mem_lookup_iff.mpr hmem
    exact ⟨hlook, (hwait e.1 e.2 hlook hw).2⟩
  have hnew : ∀ e ∈ waitingEntries reg s, e.1 ∉ h := fun e he => (hentry e he).2
  rw [(ends_registerExecutorRunner hentered).ended,
    runnerPlacements_eq hthrough hforeign fun tid r hr hw => (hwait tid r hr hw).1]
  show Audited (h.place _) _
  refine ⟨fun sid b hb hc => ?_, fun tid x r hx hr => ?_⟩
  · rw [hconfig]
    by_cases hsid : reg.slaveId = sid
    · subst hsid
      cases hslave.symm.trans hb
      obtain ⟨hamount, hcount⟩ := Slave.stageAll_debits hthrough
      refine ⟨fun name => ?_, ?_⟩
      · rw [total_runnerPlacements _ _ hnew, if_pos rfl, total_eq_zero _ _ hfree, add_zero]
        show ((stagedSlave reg s).amount name).map _ = _
        rw [stagedSlave, hamount, Option.map_map]
        simp only [Function.comp_def, sub_add_cancel, Option.map_id']
        rfl
      · rw [total_runnerPlacements _ _ hnew, if_pos rfl, total_eq_zero _ _ hfree, add_zero]
        exact hcount.trans (zero_add _)
    · rw [hentered.others sid (Ne.symm hsid)] at hb
      obtain ⟨hamount, hcount⟩ := ha.balanced sid b hb hc
      refine ⟨fun name => ?_, ?_⟩
      · rw [total_runnerPlacements _ _ hnew, if_neg hsid, zero_add]
        exact hamount name
      · rw [total_runnerPlacements _ _ hnew, if_neg hsid, zero_add]
        exact hcount
  · rw [htasks] at hr
    by_cases hk : tid ∈ (waitingPlacements reg s).map (·.1)
    · obtain ⟨e, he, hex⟩ := mem_map.mp (lookup_place_of_mem nodup_waitingPlacements hk hx)
      cases hex
      cases (hentry e he).1.symm.trans hr
      rfl
    · rw [lookup_place_of_not_mem hk] at hx
      exact ha.asked tid x r hx hr

end Runner

/-! ## Steps and runs -/

section Run

variable {h : Placements} {s s' : Service}

lemma Audited.postprocessed (ha : Audited (h.settle (ended s s')) s') :
    Audited (h.settle (ended s (postprocess s'))) (postprocess s') := by
  have hended : ended s (postprocess s') = ended s s' := by
    rw [ended, postprocess_wire]
    rfl
  rw [hended]
  exact ha.keep (.postprocess s') fun k hk => absurd hk not_mem_nil

lemma Audited.finish (native : Bool) (ha : Audited (h.settle (ended s s')) s') :
    Audited (h.settle (ended s (finish native s'))) (finish native s') := by
  cases native with
  | true => exact ha.postprocessed
  | false => exact ha

lemma Audited.quiet (ha : Audited h s) (hq : EndsOnly (fun _ => False) s s') :
    Audited (h.settle (ended s s')) s' :=
  ha.endsOnly hq fun _ hk => hk.elim

lemma Audited.step {p : Service × Placements} {e : Event} (ha : Audited p.2 p.1)
    (hg : Conserves p e) : Audited (audit p e).2 (audit p e).1 := by
  obtain ⟨s, h⟩ := p
  have hretry : Audited (h.settle (ended s (s.send .retry))) (s.send .retry) := ha.quiet (.send rfl s)
  cases e with
  | generateOffers now =>
    simp only [audit, placements, Urb.step]
    split_ifs
    · exact ha.quiet .generateOffers
    · exact ha.quiet (.refl s)
  | launchTasks native now req =>
    simp only [audit, placements, Urb.step, whenActive]
    split_ifs with hact
    · obtain ⟨hnodup, hnew, hthrough⟩ := hg hact
      exact (launchTasks_audited ha hnodup hnew hthrough).finish native
    · exact hretry.finish native
  | killTask native tid =>
    simp only [audit, placements, Urb.step, whenActive]
    split_ifs with hact
    · exact (killTask_audited ha (hg hact)).finish native
    · exact hretry.finish native
  | statusUpdate native u =>
    simp only [audit, placements, Urb.step, whenActive]
    split_ifs with hact
    · exact (handleStatusUpdate_audited ha (hg hact)).finish native
    · exact hretry.finish native
  | reconcileTasks native now req =>
    simp only [audit, placements, Urb.step, whenActive]
    split_ifs with hact
    · have hquiet : EndsOnly (fun k => liveOn h s.slaveDict k = none) s
          (reconcileTasks now (!native) req s).1 := reconcileTasks_endsOnly (hg hact)
      exact (ha.endsOnly hquiet fun _ hk => hk).finish native
    · exact hretry.finish native
  | reviveOffers =>
    simp only [audit, placements, Urb.step]
    split_ifs
    · exact (ha.quiet .reviveOffers).postprocessed
    · exact (ha.quiet (.refl s)).postprocessed
  | registerExecutorRunner reg =>
    simp only [audit, placements, Urb.step]
    split_ifs with hact
    · obtain ⟨ht, hthrough, hforeign, hfree, hwait⟩ := hg hact
      exact (registerExecutorRunner_audited ha ht hthrough hforeign hfree hwait).postprocessed
    · have hshut : EndsOnly (fun _ => False) s (s.send (.slaveShutdown reg.channel)) := .send rfl s
      exact (ha.quiet hshut).postprocessed
  | registerExecutor reg =>
    simp only [audit, placements, Urb.step]
    split_ifs
    · exact (ha.quiet .registerExecutor).postprocessed
    · exact (ha.quiet (.refl s)).postprocessed
  | reregisterExecutor reg => exact hg.elim
  | deleteJob job =>
    refine ha.endsOnly .deleteJob ?_
    rintro k ⟨r, hr, hj⟩
    exact hg k r hr hj
  | unregisterFramework native => exact hg.elim
  | otherRequest => exact (ha.quiet (.refl s)).postprocessed

lemma run_audit_fst (p : Service × Placements) (es : List Event) :
    (Machine.run audit p es).1 = runFrom p.1 es := by
  induction es generalizing p with
  | nil => rfl
  | cons e es ih => exact ih (audit p e)

lemma audited_fresh (config : Config) (name host : String) (http : Bool) :
    Audited ∅ (.fresh config name host http) := by
  refine ⟨fun _ _ hs => ?_, fun _ _ _ hx => ?_⟩
  · cases hs
  · cases hx

def placedBy (s : Service) (es : List Event) : Placements := (Machine.run audit (s, ∅) es).2

theorem run_balanced {config : Config} {frameworkId hostname : String} {http : Bool}
    {es fs : List Event} {sid : String} {slave : Slave}
    (hg : Machine.Guarded audit Conserves (.fresh config frameworkId hostname http, ∅) es)
    (hfs : fs <+: es)
    (hs : (runFrom (.fresh config frameworkId hostname http) fs).slaveDict.lookup sid = some slave)
    (hc : slave.isCommandExecutor = false) :
    Balanced (placedBy (.fresh config frameworkId hostname http) fs) config sid slave := by
  obtain ⟨gs, rfl⟩ := hfs
  have ha : Audited (Machine.run audit (.fresh config frameworkId hostname http, ∅) fs).2
      (Machine.run audit (.fresh config frameworkId hostname http, ∅) fs).1 :=
    Machine.run_inv (I := fun p : Service × Placements => Audited p.2 p.1) (fun _ _ ha hg => ha.step hg)
      (audited_fresh config frameworkId hostname http) (Machine.guarded_append.mp hg).1
  rw [run_audit_fst] at ha
  have hb := ha.balanced sid slave hs hc
  rwa [run_config] at hb

/-! ## Two runs -/

def updateOf (tid : String) (state : TaskState) : Event :=
  .statusUpdate true { taskId := tid, state := state, slaveId := some (slaveOf "7" "c7") }

def finishedAndKilled : List Event :=
  [runnerUp "7" "c7", launchOf [] [oneCpuTask "a" (slaveOf "7" "c7"), oneCpuTask "b" (slaveOf "7" "c7")],
    updateOf "a" .finished, .killTask true "b"]

def lostOnSlave : List Event :=
  [runnerUp "7" "c7", launchOf [] [oneCpuTask "a" (slaveOf "7" "c7")], updateOf "a" .lost]

theorem run_balanced_finishedAndKilled :
    ∃ slave, (runFrom smallService finishedAndKilled).slaveDict.lookup (slaveOf "7" "c7") = some slave ∧
      Balanced (placedBy smallService finishedAndKilled) smallConfig (slaveOf "7" "c7") slave := by
  let books (n : ℕ) : Service × Placements := Machine.run audit (smallService, ∅) (finishedAndKilled.take n)
  have hupdate : SettlesOn (books 2).2 (books 2).1 "a" (oneCpuTask "a" (slaveOf "7" "c7"))
      (((books 2).1.taskDict.lookup "a").bind fun task =>
        finishTarget { taskId := "a", state := .finished, slaveId := some (slaveOf "7" "c7") } task
          (books 2).1) := by
    decide +kernel
  have hkill : ∀ task ∈ (books 3).1.taskDict.lookup "b", SettlesOn (books 3).2 (books 3).1 "b"
      task.taskInfo (task.taskInfo.killRef.bind (books 3).1.resolveSlave) := by
    decide +kernel
  have hg : Machine.Guarded audit Conserves (smallService, ∅) finishedAndKilled := by
    refine ⟨fun _ => ⟨rfl, ?_, rfl, ?_, ?_⟩, fun _ => ⟨?_, fun t _ => ?_, ?_⟩, fun _ _ _ => hupdate,
      fun _ _ => hkill, trivial⟩
    · decide +kernel
    · intro tid x hx
      cases hx
    · intro tid r hr
      cases hr
    · decide
    · exact AList.notMem_empty _
    · decide +kernel
  have hslave : ((runFrom smallService finishedAndKilled).slaveDict.lookup (slaveOf "7" "c7")).map
      (·.isCommandExecutor) = some false := by
    decide +kernel
  obtain ⟨slave, hs, hcommand⟩ := Option.map_eq_some_iff.mp hslave
  exact ⟨slave, hs, run_balanced hg (prefix_refl _) hs hcommand⟩

theorem not_balanced_lostOnSlave :
    ∃ slave, (runFrom smallService lostOnSlave).slaveDict.lookup (slaveOf "7" "c7") = some slave ∧
      slave.isCommandExecutor = false ∧
      ¬ Balanced (placedBy smallService lostOnSlave) smallConfig (slaveOf "7" "c7") slave := by
  have hcpus : ((runFrom smallService lostOnSlave).slaveDict.lookup (slaveOf "7" "c7")).map
      (fun slave => (slave.amount "cpus", slave.isCommandExecutor)) = some (some 3, false) := by
    decide +kernel
  obtain ⟨slave, hs, hslave⟩ := Option.map_eq_some_iff.mp hcpus
  obtain ⟨hamount, hcommand⟩ := Prod.mk.inj hslave
  refine ⟨slave, hs, hcommand, fun hb => ?_⟩
  have hnone : (placedBy smallService lostOnSlave).total (slaveOf "7" "c7") (·.need "cpus") = 0 := by
    decide +kernel
  have hcpus' := hb.amount "cpus"
  rw [hamount, hnone] at hcpus'
  revert hcpus'
  decide +kernel

end Run

end Urb
