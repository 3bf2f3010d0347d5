/-
# `Urb.HttpCalls` — the calls that both interfaces offer

A scheduler can decline, accept, kill, reconcile, revive, acknowledge and tear
down with a native message or over HTTP.  The HTTP entry points make a request and
call the handlers of the native messages.  Three things are not the same:

    what follows     a native message is post-processed, which carries out the queued
                     deletions; an entry point only releases the lock
    the request      is a plain dictionary, without the `to_json` that the retry manager
                     calls: the attempt to queue it raises, and is logged
    revive           `http_revive` is declared without `self`; the call raises at once

The two differ in the deletions that find their key, so the question is when a call
leaves none behind (`Service.Clean`).

**Proved here.**  For every state and call exactly when the two agree
(`http_agrees_iff`).
-/
import Urb.LaunchLoop
import Urb.ReconcileFrame

namespace Urb

open Block AList Service Prod

variable {tid : String} {s : Service}

/-! ## The calls -/

inductive SchedulerCall where
  | decline (now : ℚ) (offerIds : List String) (refuseSeconds : Option ℚ)
  | acceptLaunch (now : ℚ) (req : LaunchTasksRequest)
  | kill (taskId : String)
  | reconcile (now : ℚ) (req : ReconcileRequest)
  | revive
  | acknowledge (hasUuid : Bool)
  | teardown

def declineRequest (offerIds : List String) (refuseSeconds : Option ℚ) : LaunchTasksRequest :=
  { offerIds := offerIds, refuseSeconds := refuseSeconds }

def scaleUpCount (scaleCount : ℤ) (s : Service) : ℤ :=
  if scaleCount = 0 then s.config.scaleCount else scaleCount

namespace SchedulerCall

def native (s : Service) : SchedulerCall → Service
  | .decline now offerIds refuse => step s (.launchTasks true now (declineRequest offerIds refuse))
  | .acceptLaunch now req => step s (.launchTasks true now req)
  | .kill taskId => step s (.killTask true taskId)
  | .reconcile now req => step s (.reconcileTasks true now req)
  | .revive => step s .reviveOffers
  | .acknowledge _ => step s .otherRequest
  | .teardown => step s (.unregisterFramework true)

def http (s : Service) : SchedulerCall → Service
  | .decline now offerIds refuse => step s (.launchTasks false now (declineRequest offerIds refuse))
  | .acceptLaunch now req => step s (.launchTasks false now req)
  | .kill taskId => step s (.killTask false taskId)
  | .reconcile now req => step s (.reconcileTasks false now req)
  | .revive => s
  | .acknowledge _ => s
  | .teardown => step s (.unregisterFramework false)

end SchedulerCall

def Service.retries (s : Service) : ℕ := s.wire.count .retry

def queuedForRetry (isMessage : Bool) (before after : Service) : Bool :=
  isMessage && decide (before.retries < after.retries)

structure SameRecords (a b : Service) : Prop where
  slaves : ∀ k, a.slaveDict.lookup k = b.slaveDict.lookup k
  tasks : ∀ k, a.taskDict.lookup k = b.taskDict.lookup k
  foreign : ∀ k, k ∈ a.foreign ↔ k ∈ b.foreign
  offers : ∀ k, a.offers.lookup k = b.offers.lookup k
  jobs : a.jobIds = b.jobIds

def SchedulerCall.Agree (s : Service) (c : SchedulerCall) : Prop :=
  SameRecords (c.native s) (c.http s) ∧
    queuedForRetry true s (c.native s) = queuedForRetry false s (c.http s)

/-! ## Deletions that find their key -/

def DeleteElement.Finds (s : Service) : DeleteElement → Prop
  | .slave key => key ∈ s.slaveDict
  | .task dict key => dict = s.taskDictId ∧ (key ∈ s.taskDict ∨ key ∈ s.foreign)
  | .offer key => key ∈ s.offers

def Service.Clean (s : Service) : Prop := ∀ e ∈ s.deleteElements, ¬ e.Finds s

instance (s : Service) (e : DeleteElement) : Decidable (e.Finds s) :=
  match e with
  | .slave key => inferInstanceAs (Decidable (key ∈ s.slaveDict))
  | .task dict key =>
    inferInstanceAs (Decidable (dict = s.taskDictId ∧ (key ∈ s.taskDict ∨ key ∈ s.foreign)))
  | .offer key => inferInstanceAs (Decidable (key ∈ s.offers))

instance (s : Service) : Decidable s.Clean :=
  inferInstanceAs (Decidable (∀ e ∈ s.deleteElements, ¬ e.Finds s))

lemma mem_foreign_postprocess (s : Service) (k : String) :
    k ∈ (postprocess s).foreign ↔ k ∈ s.foreign ∧ .task s.taskDictId k ∉ s.deleteElements := by
  show k ∈ (s.deleteElements.foldl applyDeletion s).foreign ↔ _
  generalize s.deleteElements = l
  induction l generalizing s with
  | nil => simp
  | cons e l ih =>
    rw [List.foldl_cons, ih, show (applyDeletion s e).taskDictId = s.taskDictId from
        applyDeletion_frame (fun _ _ _ _ _ => rfl) s e]
    cases e with
    | slave key => simp [applyDeletion]
    | offer key => simp [applyDeletion]
    | task dict key =>
      simp only [applyDeletion]
      by_cases hd : dict = s.taskDictId
      · simp [hd, and_assoc]
      · simp [hd, Ne.symm hd]

/-! ## What cleanness reads -/

def Service.removal (s : Service) :
    List DeleteElement × List String × List String × List String × List String × ℕ :=
  (s.deleteElements, s.slaveDict.keys, s.taskDict.keys, s.foreign, s.offers.keys, s.taskDictId)

section Removal

variable {s s' : Service} {e : DeleteElement}

lemma finds_congr (h : s'.removal = s.removal) : e.Finds s' ↔ e.Finds s := by
  simp only [Service.removal, Prod.mk.injEq] at h
  obtain ⟨-, hs, ht, hf, ho, hid⟩ := h
  cases e with
  | slave key => simp only [DeleteElement.Finds, mem_keys, hs]
  | task dict key => simp only [DeleteElement.Finds, mem_keys, ht, hf, hid]
  | offer key => simp only [DeleteElement.Finds, mem_keys, ho]

lemma clean_congr (h : s'.removal = s.removal) : s'.Clean ↔ s.Clean := by
  have hqueue : s'.deleteElements = s.deleteElements := congrArg fst h
  simp only [Service.Clean, hqueue, finds_congr h]

lemma clean_of_sameRecords (h : SameRecords (postprocess s') s) (hs' : s'.removal = s.removal) :
    s.Clean := by
  have hqueue : s'.deleteElements = s.deleteElements := congrArg fst hs'
  have hid : s'.taskDictId = s.taskDictId := by
    simp only [Service.removal, Prod.mk.injEq] at hs'
    exact hs'.2.2.2.2.2
  intro e he hfinds
  rw [← hqueue] at he
  cases e with
  | slave key =>
    have hsame := h.slaves key
    rw [lookup_slaveDict_postprocess, if_pos he] at hsame
    exact lookup_eq_none.mp hsame.symm hfinds
  | offer key =>
    have hsame := h.offers key
    rw [lookup_offers_postprocess, if_pos he] at hsame
    exact lookup_eq_none.mp hsame.symm hfinds
  | task dict key =>
    obtain ⟨rfl, hkey | hkey⟩ := hfinds
    · have hsame := h.tasks key
      rw [lookup_taskDict_postprocess, hid, if_pos he] at hsame
      exact lookup_eq_none.mp hsame.symm hkey
    · have hmem := (mem_foreign_postprocess s' key).mp ((h.foreign key).mpr hkey)
      exact hmem.2 (hid ▸ he)

lemma sameRecords_postprocess_iff (s : Service) : SameRecords (postprocess s) s ↔ s.Clean := by
  refine ⟨fun h => clean_of_sameRecords h rfl, fun h => ?_⟩
  refine ⟨fun k => ?_, fun k => ?_, fun k => ?_, fun k => ?_, ?_⟩
  · rw [lookup_slaveDict_postprocess]
    split_ifs with he
    · exact (lookup_eq_none.mpr (h _ he)).symm
    · rfl
  · rw [lookup_taskDict_postprocess]
    split_ifs with he
    · exact (lookup_eq_none.mpr fun hk => h _ he ⟨rfl, .inl hk⟩).symm
    · rfl
  · rw [mem_foreign_postprocess]
    exact ⟨fun hk => hk.1, fun hk => ⟨hk, fun he => h _ he ⟨rfl, .inr hk⟩⟩⟩
  · rw [lookup_offers_postprocess]
    split_ifs with he
    · exact (lookup_eq_none.mpr (h _ he)).symm
    · rfl
  · exact postprocess_frame (f := jobIds) (fun _ _ _ _ _ => rfl) (fun _ _ => rfl) s

/-- The queue and the keys have only grown. -/
structure Grows (s s' : Service) : Prop where
  queue : s.deleteElements ⊆ s'.deleteElements
  finds : ∀ e : DeleteElement, e.Finds s → e.Finds s'

lemma Grows.refl (s : Service) : Grows s s := ⟨fun _ h => h, fun _ h => h⟩

lemma Grows.trans {s'' : Service} (h : Grows s s') (k : Grows s' s'') : Grows s s'' :=
  ⟨fun _ he => k.queue (h.queue he), fun e he => k.finds e (h.finds e he)⟩

lemma Grows.of_removal (h : s'.removal = s.removal) : Grows s s' := by
  have hqueue : s'.deleteElements = s.deleteElements := congrArg fst h
  refine ⟨?_, fun _ he => (finds_congr h).mpr he⟩
  rw [hqueue]
  exact fun _ he => he

lemma Grows.not_clean (h : Grows s s') (hs : ¬ s.Clean) : ¬ s'.Clean := by
  intro hclean
  exact hs fun e he hfinds => hclean e (h.queue he) (h.finds e hfinds)

lemma grows_addDeleteElement (s : Service) (e : DeleteElement) : Grows s (s.addDeleteElement e) :=
  ⟨List.subset_append_left _ _, fun _ h => h⟩

lemma removal_modifySlave (k : String) (f : Slave → Slave) (s : Service) :
    (s.modifySlave k f).removal = s.removal := by
  simp [removal]

lemma removal_modifyTask (k : String) (f : TaskRecord → TaskRecord) (s : Service) :
    (s.modifyTask k f).removal = s.removal := by
  simp [removal]

lemma not_clean_addDeleteElement (h : e.Finds s) : ¬ (s.addDeleteElement e).Clean :=
  fun hclean => hclean e (List.mem_append_right _ (List.mem_singleton.mpr rfl)) h

end Removal

/-! ## Launches -/

section Launch

variable {now : ℚ} {req : LaunchTasksRequest} {l : LaunchedTask} {st : LaunchState} {s s' : Service}

def LaunchQuiet (st : LaunchState) (l : LaunchedTask) : Prop :=
  ∀ sid, l.info.slaveRef = some sid →
    .task st.service.taskDictId l.info.taskId ∉ st.service.deleteElements ∧
      (isPlaceholder sid = true → st.service.config.sendTaskLost = false ∧
        (st.placeholderToJobid.lookup sid ≠ none ∨
          scaleUpCount st.service.config.concurrentTasks st.service ≠ 0 ∧
            0 < st.service.config.maxTasks ∧ l.submitted ≠ []))

lemma finds_putTask {e : DeleteElement} {r : TaskRecord} :
    e.Finds (s.putTask tid r) ↔ e.Finds s ∨ e = .task s.taskDictId tid := by
  cases e with
  | slave key => simp [DeleteElement.Finds]
  | offer key => simp [DeleteElement.Finds]
  | task dict key =>
    simp only [DeleteElement.Finds, putTask_taskDictId, putTask_taskDict,
      putTask_foreign, mem_insert, List.mem_filter, decide_eq_true_eq,
      DeleteElement.task.injEq]
    by_cases hkey : key = tid
    · refine ⟨fun h => .inr ⟨h.1, hkey⟩, ?_⟩
      rintro (h | h) <;> exact ⟨h.1, .inl (.inl hkey)⟩
    · simp [hkey]

lemma grows_putTask {r : TaskRecord} : Grows s (s.putTask tid r) :=
  ⟨fun _ h => h, fun _ h => finds_putTask.mpr (.inl h)⟩

lemma clean_enterTask_iff (h : s.Clean) (hs' : s'.removal = (enterTask now l s).removal) :
    s'.Clean ↔ .task s.taskDictId l.info.taskId ∉ s.deleteElements := by
  rw [clean_congr hs']
  constructor
  · exact fun hclean he => hclean _ he (finds_putTask.mpr (.inr rfl))
  · intro hqueue e he hfinds
    rcases finds_putTask.mp hfinds with hfinds | rfl
    · exact h e he hfinds
    · exact hqueue he

lemma not_clean_lost (slaveId : Option String) (h : tid ∈ s.taskDict) :
    ¬ (processTaskLostStatusUpdate tid slaveId s).Clean := by
  refine not_clean_addDeleteElement (e := .task s.taskDictId tid)
    (s := (s.send (.statusUpdate tid .lost slaveId)).setTaskState tid .lost) ⟨rfl, .inl ?_⟩
  rw [setTaskState_taskDict, mem_modify]
  exact h

lemma mem_taskDict_enterTask : l.info.taskId ∈ (enterTask now l s).taskDict :=
  (mem_insert _).mpr (.inl rfl)

lemma removal_submission : (submission now l s).1.removal = (enterTask now l s).removal :=
  scaleUp_keeps (I := fun s' => s'.removal = (enterTask now l s).removal) (fun _ _ h => h) _ _ rfl

lemma removal_forwardLaunch (sid job : String) (slave : Slave) (s : Service) :
    (forwardLaunch req l.info sid job slave s).removal = s.removal :=
  removal_modifyTask l.info.taskId _ s

lemma removal_runIfRegistered (sid tid : String) (slave : Slave) (s : Service) :
    (runIfRegistered sid tid slave s).removal = s.removal := by
  unfold runIfRegistered
  split
  · exact removal_modifyTask _ _ _
  · rfl

lemma firstJobId_submission_eq_none_iff : firstJobId (submission now l s).2 = none ↔
    ¬ (scaleUpCount s.config.concurrentTasks s ≠ 0 ∧ 0 < s.config.maxTasks ∧ l.submitted ≠ []) := by
  have hfirst : ∀ ids : List JobTuple, firstJobId ids = none ↔ ids = [] := by
    intro ids
    cases ids with
    | nil => exact iff_of_true rfl rfl
    | cons j js => exact iff_of_false (some_ne_none _) (List.cons_ne_nil _ _)
  have hconfig : (enterTask now l s).config = s.config := rfl
  rw [hfirst, submission, scaleUp, hconfig, scaleUpCount]
  by_cases hnone : (if s.config.concurrentTasks = 0 then s.config.scaleCount
      else s.config.concurrentTasks) = 0 ∨ s.config.maxTasks ≤ 0
  · rw [if_pos hnone]
    refine iff_of_true rfl fun h => ?_
    rcases hnone with hnone | hnone
    · exact h.1 hnone
    · exact absurd h.2.1 (not_lt.mpr hnone)
  · rw [if_neg hnone]
    obtain ⟨hcount, hmax⟩ := not_or.mp hnone
    exact ⟨fun h hall => hall.2.2 h, fun h => by_contra fun hne => h ⟨hcount, not_le.mp hmax, hne⟩⟩

lemma clean_onSlave_iff (h : st.service.Clean) {sid : String} (href : l.info.slaveRef = some sid)
    (hp : isPlaceholder sid = false) (hs' : s'.removal = (enterTask now l st.service).removal) :
    s'.Clean ↔ LaunchQuiet st l := by
  rw [clean_enterTask_iff h hs']
  constructor
  · intro hqueue sid' href'
    rw [href] at href'
    cases href'
    exact ⟨hqueue, fun hp' => absurd (hp.symm.trans hp') Bool.false_ne_true⟩
  · exact fun hquiet => (hquiet sid href).1

lemma clean_onPlaceholder_iff (h : st.service.Clean) {sid : String}
    (href : l.info.slaveRef = some sid) (hp : isPlaceholder sid)
    (hs' : s'.removal = (enterTask now l st.service).removal) (hconfig : s'.config = st.service.config)
    (hmem : l.info.taskId ∈ s'.taskDict) (hjob : st.placeholderToJobid.lookup sid ≠ none ∨
      scaleUpCount st.service.config.concurrentTasks st.service ≠ 0 ∧
        0 < st.service.config.maxTasks ∧ l.submitted ≠ []) :
    (sendTaskLost l.info.taskId sid s').Clean ↔ LaunchQuiet st l := by
  cases hlost : st.service.config.sendTaskLost with
  | true =>
    rw [sendTaskLost, hconfig, if_pos hlost]
    refine iff_of_false (not_clean_lost _ hmem) fun hquiet => ?_
    exact absurd (hlost.symm.trans ((hquiet sid href).2 hp).1) (by decide)
  | false =>
    rw [sendTaskLost, hconfig, if_neg (by simp [hlost]), clean_enterTask_iff h hs']
    constructor
    · intro hqueue sid' href'
      rw [href] at href'
      cases href'
      exact ⟨hqueue, fun _ => ⟨hlost, hjob⟩⟩
    · exact fun hquiet => (hquiet sid href).1

lemma clean_launchTask_iff (h : st.service.Clean) :
    (launchTask now req l st).1.service.Clean ↔ LaunchQuiet st l := by
  have hsub : (submission now l st.service).1.taskDict = (enterTask now l st.service).taskDict ∧
      (submission now l st.service).1.config = st.service.config :=
    scaleUp_keeps (I := fun s' => s'.taskDict = (enterTask now l st.service).taskDict ∧
      s'.config = st.service.config) (fun _ _ h => h) _ _ ⟨rfl, rfl⟩
  have hl := launchTask_launches now req l st
  generalize launchTask now req l st = r at hl ⊢
  cases hl with
  | noSlave href =>
    refine iff_of_true h fun sid href' => ?_
    rw [href] at href'
    cases href'
  | @waiting sid job href hp hjob =>
    refine clean_onPlaceholder_iff h href hp (removal_modifyTask _ _ _) rfl ?_ (.inl (by simp [hjob]))
    rw [setJobId, modifyTask_taskDict, mem_modify]
    exact mem_taskDict_enterTask
  | @unsubmitted sid href hp hjob hfirst =>
    have hmem : l.info.taskId ∈ (submission now l st.service).1.taskDict := by
      rw [hsub.1]
      exact mem_taskDict_enterTask
    refine iff_of_false (not_clean_lost _ hmem) fun hquiet => ?_
    rcases ((hquiet sid href).2 hp).2 with hsome | hsubmits
    · exact hsome hjob
    · exact firstJobId_submission_eq_none_iff.mp hfirst hsubmits
  | @submitted sid job href hp hjob hfirst =>
    have hsubmits : scaleUpCount st.service.config.concurrentTasks st.service ≠ 0 ∧
        0 < st.service.config.maxTasks ∧ l.submitted ≠ [] := by
      by_contra hnot
      rw [firstJobId_submission_eq_none_iff.mpr hnot] at hfirst
      cases hfirst
    refine clean_onPlaceholder_iff h href hp ((removal_modifyTask _ _ _).trans removal_submission)
      hsub.2 ?_ (.inr hsubmits)
    rw [setJobId, modifyTask_taskDict, mem_modify, hsub.1]
    exact mem_taskDict_enterTask
  | unknown href hp _ => exact clean_onSlave_iff h href hp rfl
  | noJob href hp _ _ => exact clean_onSlave_iff h href hp rfl
  | overdrawn href hp _ _ _ =>
    exact clean_onSlave_iff h href hp
      ((removal_modifySlave _ _ _).trans (removal_forwardLaunch _ _ _ _))
  | placed href hp _ _ _ =>
    exact clean_onSlave_iff h href hp ((removal_runIfRegistered _ _ _ _).trans
      ((removal_modifySlave _ _ _).trans (removal_forwardLaunch _ _ _ _)))

lemma grows_launchTask : Grows st.service (launchTask now req l st).1.service :=
  launchTask_rule (I := Grows st.service) (fun _ _ _ h => h.trans grows_putTask)
    (fun _ _ _ h => h.trans (.of_removal (removal_modifyTask _ _ _)))
    (fun _ _ _ _ _ h => h.trans (.of_removal (removal_modifySlave _ _ _)))
    (fun _ h => h.trans (grows_addDeleteElement _ _)) (fun _ _ h => ⟨h.queue, h.finds⟩)
    (fun _ _ _ h => ⟨h.queue, h.finds⟩) (fun _ _ _ _ h => ⟨h.queue, h.finds⟩)
    (fun _ _ _ h => ⟨h.queue, h.finds⟩) (.refl _)

end Launch

/-! ## Refusals -/

section Refuse

variable {now : ℚ} {refuse : Option ℚ} {r : Refusal} {oid : String} {s : Service}

def RefuseQuiet (refuse : Option ℚ) (r : Refusal) (oid : String) : Prop :=
  ∀ o, r.service.offers.lookup oid = some o →
    match r.service.slaveDict.lookup o.slaveId with
    | none => isPlaceholder o.slaveId = true → refuse ≠ none
    | some slave => slave.taskCount ≤ 0 ∧ refuse ≠ none ∧
        slave.refusedCount + 1 ≤ r.service.config.maxRejectedOffers

lemma grows_deleteSlave (sid : String) (slave : Slave) (s : Service) :
    Grows s (deleteSlave sid slave s) :=
  deleteSlave_keeps (I := Grows s) (fun _ _ h => h.trans (grows_addDeleteElement _ _))
    (fun _ _ _ _ h => h.trans (.of_removal (removal_modifySlave _ _ _))) (fun _ _ h => ⟨h.queue, h.finds⟩)
    sid slave (.refl s)

lemma grows_refuseOffer : Grows r.service (refuseOffer now refuse r oid).service :=
  refuseOffer_keeps (I := Grows r.service) (fun _ _ h => ⟨h.queue, h.finds⟩)
    (fun _ _ h => h.trans (grows_addDeleteElement _ _))
    (fun _ _ h => h.trans (grows_addDeleteElement _ _))
    (fun _ _ _ _ h => h.trans (.of_removal (removal_modifySlave _ _ _)))
    (fun _ _ h => ⟨h.queue, h.finds⟩) (fun _ _ h => ⟨h.queue, h.finds⟩) now refuse (.refl _)

lemma not_clean_deleteSlave {sid : String} {slave : Slave} (h : sid ∈ s.slaveDict) :
    ¬ (deleteSlave sid slave s).Clean := by
  intro hclean
  refine hclean (.slave sid) ?_ ?_
  · rw [deleteSlave_deleteElements]
    exact List.mem_append_right _ (List.mem_singleton.mpr rfl)
  · show sid ∈ (deleteSlave sid slave s).slaveDict
    rw [deleteSlave_slaveDict, mem_modify]
    exact h

lemma clean_refuseOffer_iff (h : r.service.Clean) :
    (refuseOffer now refuse r oid).service.Clean ↔ RefuseQuiet refuse r oid := by
  unfold refuseOffer RefuseQuiet
  cases ho : r.service.offers.lookup oid with
  | none => exact iff_of_true h fun o ho' => by cases ho'
  | some o =>
    have hstored : DeleteElement.Finds r.service (.offer oid) := mem_of_lookup ho
    simp only [Option.some.injEq, forall_eq']
    cases hs : r.service.slaveDict.lookup o.slaveId with
    | none =>
      cases hp : isPlaceholder o.slaveId with
      | false => exact iff_of_true h fun hp' => by cases hp'
      | true =>
        cases refuse with
        | none => exact iff_of_false (not_clean_addDeleteElement hstored) fun hq => hq rfl rfl
        | some period => exact iff_of_true h fun _ => some_ne_none _
    | some slave =>
      simp only [refuseSlave]
      by_cases htasks : slave.taskCount > 0
      · rw [if_pos htasks]
        refine iff_of_false ?_ fun hq => absurd hq.1 (not_le.mpr htasks)
        rw [clean_congr (removal_modifySlave _ _ _)]
        exact not_clean_addDeleteElement hstored
      · rw [if_neg htasks]
        cases refuse with
        | none =>
          refine iff_of_false ?_ fun hq => hq.2.1 rfl
          have hqueued : ¬ ((r.service.modifySlave o.slaveId
              (Slave.refused (now + frameworkOfferMinWait))).addDeleteElement (.offer oid)).Clean :=
            not_clean_addDeleteElement ((finds_congr (removal_modifySlave _ _ _)).mpr hstored)
          dsimp only [Option.getD_none]
          split_ifs
          · exact (grows_deleteSlave _ _ _).not_clean hqueued
          · exact hqueued
        | some period =>
          dsimp only [getD_some]
          split_ifs with hmax
          · refine iff_of_false (not_clean_deleteSlave ?_) fun hq => absurd hq.2.2 (not_le.mpr hmax)
            rw [send_slaveDict, modifySlave_slaveDict, mem_modify]
            exact mem_of_lookup hs
          · rw [clean_congr (removal_modifySlave _ _ _)]
            exact iff_of_true h ⟨not_lt.mp htasks, some_ne_none _, not_lt.mp hmax⟩

def RefusesQuietly (now : ℚ) (refuseSeconds : Option ℚ) (remaining : List String) (s : Service) : Prop :=
  Machine.Guarded (refuseOffer now (refusePeriod refuseSeconds)) (RefuseQuiet (refusePeriod refuseSeconds))
    { service := s } remaining

lemma clean_processRemainingOffers_iff {refuseSeconds : Option ℚ} {remaining : List String}
    (h : s.Clean) : (processRemainingOffers now refuseSeconds remaining s).Clean ↔
      RefusesQuietly now refuseSeconds remaining s := by
  have hloop : (remaining.foldl (refuseOffer now (refusePeriod refuseSeconds))
      { service := s }).service.Clean ↔ RefusesQuietly now refuseSeconds remaining s :=
    Machine.run_iff (Q := fun r : Refusal => r.service.Clean) (fun _ _ hr => grows_refuseOffer.not_clean hr)
      (fun _ _ hr => clean_refuseOffer_iff hr) (s := { service := s }) h
  rw [← hloop, processRemainingOffers]
  dsimp only
  split
  · rfl
  · split_ifs <;> exact clean_congr rfl

lemma grows_processRemainingOffers {refuseSeconds : Option ℚ} {remaining : List String} :
    Grows s (processRemainingOffers now refuseSeconds remaining s) :=
  processRemainingOffers_rule (I := Grows s) (.refl s) (fun _ _ _ hr => hr.trans grows_refuseOffer)
    (fun _ _ h => ⟨h.queue, h.finds⟩)

def LaunchesQuietly (now : ℚ) (req : LaunchTasksRequest) (s : Service) : Prop :=
  Along LaunchQuiet (launchTask now req) req.tasks (launchStart req s) ∧
    ((forEach (launchTask now req) req.tasks (launchStart req s)).2 = .next →
      RefusesQuietly now req.refuseSeconds
        (req.remaining (forEach (launchTask now req) req.tasks (launchStart req s)).1.used)
        (forEach (launchTask now req) req.tasks (launchStart req s)).1.service)

lemma clean_launchTasks_iff {req : LaunchTasksRequest} :
    (launchTasks now req s).1.Clean ↔ s.Clean ∧ LaunchesQuietly now req s := by
  have hstart : (launchStart req s).service.Clean ↔ s.Clean := clean_congr rfl
  have hgrows : Grows s (launchTasks now req s).1 := by
    have hloop : Grows s (forEach (launchTask now req) req.tasks (launchStart req s)).1.service :=
      forEach_inv (I := fun st : LaunchState => Grows s st.service)
        (fun _ _ _ hst => hst.trans grows_launchTask) (.of_removal rfl)
    rw [launchTasks]
    split_ifs
    · exact hloop.trans grows_processRemainingOffers
    · exact hloop
  by_cases hs : s.Clean
  · have hloop : (forEach (launchTask now req) req.tasks (launchStart req s)).1.service.Clean ↔
        Along LaunchQuiet (launchTask now req) req.tasks (launchStart req s) :=
      forEach_iff (Q := fun st : LaunchState => st.service.Clean)
        (fun _ _ hst => grows_launchTask.not_clean hst) (fun _ _ hst => clean_launchTask_iff hst)
        req.tasks (launchStart req s) (hstart.mpr hs)
    rw [launchTasks, LaunchesQuietly, ← hloop]
    split_ifs with hnext
    · by_cases hclean : (forEach (launchTask now req) req.tasks (launchStart req s)).1.service.Clean
      · rw [clean_processRemainingOffers_iff hclean]
        exact ⟨fun h => ⟨hs, hclean, fun _ => h⟩, fun h => h.2.2 hnext⟩
      · exact iff_of_false (grows_processRemainingOffers.not_clean hclean) fun h => hclean h.2.1
    · exact ⟨fun h => ⟨hs, h, fun hn => absurd hn hnext⟩, fun h => h.2.1⟩
  · exact iff_of_false (hgrows.not_clean hs) fun h => hs h.1

end Refuse

/-! ## Kills -/

lemma clean_killTask_iff :
    (killTask tid s).1.Clean ↔ s.Clean ∧ (tid ∈ s.foreign ∨ tid ∉ s.taskDict) := by
  by_cases hf : tid ∈ s.foreign
  · rw [killTask, if_pos hf]
    exact ⟨fun h => ⟨h, .inl hf⟩, fun h => h.1⟩
  · cases ht : s.taskDict.lookup tid with
    | none =>
      simp only [killTask, if_neg hf, ht]
      exact ⟨fun h => ⟨h, .inr (lookup_eq_none.mp ht)⟩, fun h => h.1⟩
    | some task =>
      have hmem : tid ∈ s.taskDict := mem_of_lookup ht
      refine iff_of_false ?_ fun h => h.2.elim hf fun hnot => hnot hmem
      have hremoval : (killTask tid s).1.removal = (markKilled tid task s).removal :=
        killTask_frame removal (fun _ _ => rfl) removal_modifySlave hf ht
      rw [clean_congr hremoval]
      refine not_clean_addDeleteElement (e := .task s.taskDictId tid)
        (s := s.setTaskState tid .killed) ⟨rfl, .inl ?_⟩
      rw [setTaskState_taskDict, mem_modify]
      exact hmem

/-! ## Reconciliation -/

section Reconcile

variable {now : ℚ} {http : Bool} {req : ReconcileRequest} {q : TaskStatus} {s a b : Service}

def ReconcileQuiet (now : ℚ) (req : ReconcileRequest) (s : Service) (q : TaskStatus) : Prop :=
  q.taskId ∈ s.foreign ∨ ¬ Expires now req s q

lemma removal_resolveStatus (q : TaskStatus) (s : Service) :
    (resolveStatus q s).removal = s.removal := by
  unfold resolveStatus
  split_ifs
  · rfl
  · exact removal_modifyTask _ _ _

lemma reconcileTask_of_quiet (h : ReconcileQuiet now req s q) :
    ∃ r : Service × Ending, (∀ http, reconcileTask now http req q s = r) ∧ r.1.removal = s.removal := by
  have hres := removal_resolveStatus q s
  unfold reconcileTask
  by_cases hf : q.taskId ∈ s.foreign
  · exact ⟨(s, .raise), fun _ => if_pos hf, rfl⟩
  · simp only [if_neg hf]
    cases hc : stagingCheck now req (statusSlave q (s.taskDict.lookup q.taskId) s)
        (s.taskDict.lookup q.taskId) with
    | skip => exact ⟨_, fun _ => rfl, hres⟩
    | fail => exact ⟨_, fun _ => rfl, hres⟩
    | answer state => exact ⟨_, fun _ => rfl, hres⟩
    | determine =>
      cases hslave : statusSlave q (s.taskDict.lookup q.taskId) s with
      | some sid => exact ⟨_, fun _ => rfl, hres⟩
      | none =>
        simp only [reconcileLost]
        cases hl : lostCheck now q (s.taskDict.lookup q.taskId) (resolveStatus q s) with
        | skip => exact ⟨(_, .next), fun _ => rfl, hres⟩
        | candidate =>
          exact ⟨({ resolveStatus q s with lostCandidate := _ }, .next), fun _ => rfl, hres⟩
        | expired =>
          rw [hslave] at hc
          rw [lostCheck_resolveStatus] at hl
          exact absurd ⟨hslave, hc, hl⟩ (h.resolve_left hf)

structure Parted (tid : String) (a b : Service) : Prop where
  foreign : b.foreign = a.foreign
  candidates : b.lostCandidate = a.lostCandidate
  taken : b.placeholderToSlave = a.placeholderToSlave
  native : ∀ k, a.taskDict.lookup k = if k = tid then some (lostRecord false tid) else none
  http : ∀ k, b.taskDict.lookup k = if k = tid then some (lostRecord true tid) else none

lemma parted_of_expires (hf : q.taskId ∉ s.foreign) (h : Expires now req s q) :
    (∀ http, (reconcileTask now http req q s).2 = .next) ∧
      Parted q.taskId (reconcileTask now false req q s).1 (reconcileTask now true req q s).1 := by
  obtain ⟨hslave, hc, hl⟩ := h
  have hrebind : ∀ http, reconcileTask now http req q s =
      ((rebindTaskDict http q.taskId (s.taskDict.lookup q.taskId) (resolveStatus q s)).send
        (.statusUpdate q.taskId .lost (some "NotValid")), .next) := by
    intro http
    simp only [reconcileTask, if_neg hf, hslave, hc, reconcileLost, lostCheck_resolveStatus, hl]
  rw [hrebind, hrebind]
  exact ⟨fun http => by rw [hrebind], rfl, rfl, rfl, fun k => lookup_singleton_eq_ite _ _ _,
    fun k => lookup_singleton_eq_ite _ _ _⟩

lemma resolvePlaceholder_lostRecord (map : Dict String String) (http : Bool) (tid : String) :
    (lostRecord http tid).taskInfo.resolvePlaceholder map = (lostRecord http tid).taskInfo := by
  have hp : isPlaceholder "NotValid" = false := by decide
  cases http <;> simp [lostRecord, TaskInfo.resolvePlaceholder, hp]

lemma Parted.resolveStatus (h : Parted tid a b) (q : TaskStatus) :
    Parted tid (resolveStatus q a) (resolveStatus q b) := by
  unfold Urb.resolveStatus
  split_ifs
  · exact h
  · refine ⟨h.foreign, h.candidates, h.taken, fun k => ?_, fun k => ?_⟩
    · rw [modifyTask_taskDict, lookup_modify, h.native]
      split_ifs <;> simp [resolvePlaceholder_lostRecord]
    · rw [modifyTask_taskDict, lookup_modify, h.http]
      split_ifs <;> simp [resolvePlaceholder_lostRecord]

lemma Parted.reconcileTask (h : Parted tid a b) (q : TaskStatus) :
    (reconcileTask now true req q b).2 = (reconcileTask now false req q a).2 ∧
      ∃ tid', Parted tid' (reconcileTask now false req q a).1 (reconcileTask now true req q b).1 := by
  have hres := h.resolveStatus q
  by_cases hf : q.taskId ∈ a.foreign
  · rw [Urb.reconcileTask, Urb.reconcileTask, if_pos hf, if_pos (h.foreign ▸ hf)]
    exact ⟨rfl, tid, h⟩
  · rw [Urb.reconcileTask, Urb.reconcileTask, if_neg hf, if_neg (h.foreign ▸ hf), h.native, h.http]
    by_cases htid : q.taskId = tid
    · -- the record is LOST, and is reported as such
      rw [if_pos htid, if_pos htid]
      exact ⟨rfl, tid, hres.foreign, hres.candidates, hres.taken, hres.native, hres.http⟩
    · rw [if_neg htid, if_neg htid]
      have hslave : statusSlave q none b = statusSlave q none a := by
        simp only [statusSlave, h.taken]
      have hlost : lostCheck now q none (Urb.resolveStatus q b) =
          lostCheck now q none (Urb.resolveStatus q a) := by
        simp only [lostCheck, hres.candidates]
      simp only [stagingCheck, hslave]
      cases statusSlave q none a with
      | some sid => exact ⟨rfl, tid, hres.foreign, hres.candidates, hres.taken, hres.native, hres.http⟩
      | none =>
        simp only [reconcileLost, hlost]
        cases lostCheck now q none (Urb.resolveStatus q a) with
        | skip => exact ⟨trivial, tid, hres⟩
        | candidate =>
          refine ⟨trivial, tid, hres.foreign, ?_, hres.taken, hres.native, hres.http⟩
          dsimp only
          rw [hres.candidates]
        | expired =>
          refine ⟨trivial, q.taskId, rfl, ?_, hres.taken, fun k => lookup_singleton_eq_ite _ _ _,
            fun k => lookup_singleton_eq_ite _ _ _⟩
          simp only [send, rebindTaskDict, hres.candidates]

lemma forEach_parted : ∀ {qs : List TaskStatus} {s : Service},
    ¬ Along (ReconcileQuiet now req) (reconcileTask now false req) qs s →
      ∃ tid, Parted tid (forEach (reconcileTask now false req) qs s).1
        (forEach (reconcileTask now true req) qs s).1
  | [], _, h => absurd trivial h
  | q :: qs, s, h => by
    rw [forEach_cons, forEach_cons]
    by_cases hq : ReconcileQuiet now req s q
    · obtain ⟨r, hr, -⟩ := reconcileTask_of_quiet hq
      have hrest : ¬ (r.2 = .next →
          Along (ReconcileQuiet now req) (reconcileTask now false req) qs r.1) :=
        fun hrest => h ⟨hq, by rw [hr]; exact hrest⟩
      obtain ⟨hnext, hnot⟩ := Classical.not_imp.mp hrest
      have hboth : ∀ http, (reconcileTask now http req q s).2 = .next := fun http => by rw [hr, hnext]
      rw [seq_of_next (hboth false), seq_of_next (hboth true), hr, hr]
      exact forEach_parted hnot
    · obtain ⟨hf, hexp⟩ := not_or.mp hq
      obtain ⟨hnext, hparted⟩ := parted_of_expires hf (not_not.mp hexp)
      rw [seq_of_next (hnext false), seq_of_next (hnext true)]
      exact forEach_rel (R := fun a b => ∃ tid, Parted tid a b)
        (fun q _ _ _ h => h.elim fun _ h => h.reconcileTask q) ⟨_, hparted⟩

lemma Parted.not_sameRecords (h : Parted tid a b) : ¬ SameRecords (postprocess a) b := by
  intro hsame
  have htasks := hsame.tasks tid
  rw [h.http, if_pos rfl, lookup_taskDict_postprocess, h.native, if_pos rfl] at htasks
  have hslave := congrArg (Option.map (fun r : TaskRecord => r.taskInfo.slaveId)) htasks
  split_ifs at hslave
  · cases hslave
  · simp [lostRecord] at hslave

lemma removal_reportTask (tid : String) (s : Service) : (reportTask tid s).1.removal = s.removal := by
  unfold reportTask
  split
  · rfl
  · split_ifs <;> rfl

def ReconcilesQuietly (now : ℚ) (req : ReconcileRequest) (s : Service) : Prop :=
  Along (ReconcileQuiet now req) (reconcileTask now false req) req.statuses s

lemma sameRecords_reconcileTasks_iff :
    SameRecords (postprocess (reconcileTasks now false req s).1) (reconcileTasks now true req s).1 ↔
      s.Clean ∧ ReconcilesQuietly now req s := by
  by_cases hq : ReconcilesQuietly now req s
  · have heq : reconcileTasks now true req s = reconcileTasks now false req s := by
      unfold reconcileTasks
      split_ifs
      · rfl
      · refine forEach_congr (fun q s hq => ?_) hq
        obtain ⟨r, hr, -⟩ := reconcileTask_of_quiet hq
        rw [hr, hr]
    have hremoval : (reconcileTasks now false req s).1.removal = s.removal := by
      unfold reconcileTasks
      split_ifs
      · have hreport : (forEach reportTask s.taskDict.keys s).1.removal = s.removal :=
          forEach_inv (I := fun s' : Service => s'.removal = s.removal)
            (fun tid _ s' hs' => (removal_reportTask tid s').trans hs') rfl
        exact seq_inv (I := fun s' : Service => s'.removal = s.removal) hreport fun hs' => hs'
      · refine forEach_inv_along (I := fun s' : Service => s'.removal = s.removal)
          (fun q s' hq hs' => ?_) hq rfl
        obtain ⟨r, hr, hremoval⟩ := reconcileTask_of_quiet hq
        rw [hr]
        exact hremoval.trans hs'
    rw [heq, sameRecords_postprocess_iff, clean_congr hremoval]
    exact (and_iff_left hq).symm
  · refine iff_of_false ?_ fun h => hq h.2
    have hne : req.statuses ≠ [] := fun hnil => hq (by rw [ReconcilesQuietly, hnil]; trivial)
    obtain ⟨tid, hparted⟩ := forEach_parted hq
    rw [reconcileTasks, reconcileTasks, if_neg hne, if_neg hne]
    exact hparted.not_sameRecords

end Reconcile

/-! ## Retries -/

section Retries

variable {now : ℚ} {s : Service}

lemma retries_send {m : Message} (h : m ≠ .retry) : (s.send m).retries = s.retries := by
  rw [retries, retries, send_wire, List.count_cons_of_ne h]

lemma retries_send_retry : (s.send .retry).retries = s.retries + 1 := by
  rw [retries, retries, send_wire, List.count_cons_self]

lemma retries_postprocess (s : Service) : (postprocess s).retries = s.retries :=
  postprocess_frame (f := retries) (fun _ _ _ _ _ => rfl) (fun _ _ => rfl) s

lemma retries_launchTasks (req : LaunchTasksRequest) :
    (launchTasks now req s).1.retries = s.retries := by
  have hloop : (forEach (launchTask now req) req.tasks (launchStart req s)).1.service.retries =
      s.retries := by
    refine forEach_inv (I := fun st : LaunchState => st.service.retries = s.retries)
      (fun l _ st h => ?_) (retries_send Message.noConfusion)
    exact launchTask_rule (I := fun s' => s'.retries = s.retries) (fun _ _ _ h => h)
      (fun _ _ _ h => h) (fun _ _ _ _ _ h => h) (fun _ h => h) (fun _ _ h => h)
      (fun _ _ _ h => (retries_send Message.noConfusion).trans h)
      (fun _ _ _ _ h => (retries_send Message.noConfusion).trans h)
      (fun _ _ _ h => (retries_send Message.noConfusion).trans h) h
  rw [launchTasks]
  split_ifs
  · exact processRemainingOffers_keeps (I := fun s' => s'.retries = s.retries) (fun _ _ h => h)
      (fun _ _ h => h) (fun _ _ h => h) (fun _ _ h => h) (fun _ _ _ h => h) (fun _ _ h => h)
      (fun _ _ h => (retries_send Message.noConfusion).trans h) now _ _ hloop
  · exact hloop

lemma retries_reconcileTasks (http : Bool) (req : ReconcileRequest) :
    (reconcileTasks now http req s).1.retries = s.retries :=
  reconcileTasks_rule (I := fun s' => s'.retries = s.retries) (fun _ _ _ _ h => h)
    (fun _ _ _ _ _ h => (retries_send Message.noConfusion).trans h) (fun _ _ h => h)
    (fun _ _ _ _ _ h => h) now http rfl

lemma retries_deleteFramework : (deleteFramework s).1.retries = s.retries :=
  deleteFramework_keeps (I := fun s' => s'.retries = s.retries)
    (fun _ _ h => (retries_send Message.noConfusion).trans h)
    (fun _ _ h => (retries_send Message.noConfusion).trans h)
    (fun _ _ h => (retries_send Message.noConfusion).trans h) (fun _ _ _ h => h) (fun _ h => h) rfl

lemma removal_deleteFramework : (deleteFramework s).1.removal = s.removal :=
  deleteFramework_keeps (I := fun s' => s'.removal = s.removal) (fun _ _ h => h) (fun _ _ h => h)
    (fun _ _ h => h) (fun _ _ _ h => (removal_modifyTask _ _ _).trans h) (fun _ h => h) rfl

lemma queuedForRetry_eq_iff {s' s'' : Service} :
    queuedForRetry true s s' = queuedForRetry false s s'' ↔ s'.retries ≤ s.retries := by
  simp [queuedForRetry]

end Retries

/-! ## When the interfaces agree -/

def SchedulerCall.Agrees (s : Service) : SchedulerCall → Prop
  | .decline now offerIds refuse =>
    s.active = true ∧ s.Clean ∧ LaunchesQuietly now (declineRequest offerIds refuse) s
  | .acceptLaunch now req => s.active = true ∧ s.Clean ∧ LaunchesQuietly now req s
  | .kill tid => s.active = true ∧ s.Clean ∧ (tid ∈ s.foreign ∨ tid ∉ s.taskDict)
  | .reconcile now req => s.active = true ∧ s.Clean ∧ ReconcilesQuietly now req s
  | .revive => s.Clean ∧ (s.active = true → ∀ k slave, s.slaveDict.lookup k = some slave →
      slave.offerable = true ∧ slave.offerableAfter = 0)
  | .acknowledge _ => s.Clean
  | .teardown => s.Clean

lemma agree_whenActive_iff {native http : Block Service} {P : Prop}
    (h : s.active → (SameRecords (postprocess (native s).1) (http s).1 ∧
      (native s).1.retries ≤ s.retries ↔ P)) :
    SameRecords (finish true (whenActive native s)) (finish false (whenActive http s)) ∧
        queuedForRetry true s (finish true (whenActive native s)) =
          queuedForRetry false s (finish false (whenActive http s)) ↔ s.active ∧ P := by
  rw [queuedForRetry_eq_iff]
  show SameRecords (postprocess _) (whenActive http s) ∧ (postprocess _).retries ≤ _ ↔ _
  rw [retries_postprocess, whenActive, whenActive]
  cases hactive : s.active with
  | true =>
    rw [if_pos rfl, if_pos rfl, h hactive]
    exact ⟨fun hp => ⟨rfl, hp⟩, fun hp => hp.2⟩
  | false =>
    refine iff_of_false (fun hagree => ?_) fun hp => Bool.false_ne_true hp.1
    have hretries := hagree.2
    rw [if_neg Bool.false_ne_true, retries_send_retry] at hretries
    exact absurd hretries (Nat.not_succ_le_self _)

lemma agree_launch_iff {now : ℚ} {req : LaunchTasksRequest} :
    SchedulerCall.Agree s (.acceptLaunch now req) ↔ s.active ∧ s.Clean ∧ LaunchesQuietly now req s :=
  agree_whenActive_iff fun _ => by
    rw [sameRecords_postprocess_iff, clean_launchTasks_iff, retries_launchTasks]
    exact and_iff_left le_rfl


lemma agree_kill_iff : SchedulerCall.Agree s (.kill tid) ↔
    s.active ∧ s.Clean ∧ (tid ∈ s.foreign ∨ tid ∉ s.taskDict) :=
  agree_whenActive_iff fun _ => by
    rw [sameRecords_postprocess_iff, clean_killTask_iff]
    refine ⟨fun h => h.1, fun h => ⟨h, ?_⟩⟩
    -- a kill that finds no record does nothing
    rcases h.2 with hf | hnone
    · rw [killTask, if_pos hf]
    · by_cases hf : tid ∈ s.foreign
      · rw [killTask, if_pos hf]
      · simp only [killTask, if_neg hf, lookup_eq_none.mpr hnone, le_refl]

lemma agree_reconcile_iff {now : ℚ} {req : ReconcileRequest} :
    SchedulerCall.Agree s (.reconcile now req) ↔ s.active ∧ s.Clean ∧ ReconcilesQuietly now req s :=
  agree_whenActive_iff fun _ => by
    show SameRecords (postprocess (reconcileTasks now false req s).1)
      (reconcileTasks now true req s).1 ∧ _ ↔ _
    rw [sameRecords_reconcileTasks_iff]
    exact and_iff_left (retries_reconcileTasks _ _).le

lemma lookup_reviveOffers (s : Service) (k : String) : (reviveOffers s).slaveDict.lookup k =
    (s.slaveDict.lookup k).map (fun sl => { sl with offerable := true, offerableAfter := 0 }) :=
  lookup_mapVals _ _ k

lemma removal_reviveOffers (s : Service) : (reviveOffers s).removal = s.removal := by
  simp only [removal, reviveOffers, keys_mapVals]

lemma sameRecords_reviveOffers_iff : SameRecords (postprocess (reviveOffers s)) s ↔
    s.Clean ∧ ∀ k slave, s.slaveDict.lookup k = some slave →
      slave.offerable ∧ slave.offerableAfter = 0 := by
  have hclean : (reviveOffers s).Clean ↔ s.Clean := clean_congr (removal_reviveOffers s)
  constructor
  · intro h
    have hs : s.Clean := clean_of_sameRecords h (removal_reviveOffers s)
    have hrevived := (sameRecords_postprocess_iff _).mpr (hclean.mpr hs)
    refine ⟨hs, fun k slave hk => ?_⟩
    have hsame := (hrevived.slaves k).symm.trans (h.slaves k)
    rw [lookup_reviveOffers, hk] at hsame
    rw [map_some, Option.some.injEq] at hsame
    exact ⟨(congrArg Slave.offerable hsame).symm, (congrArg Slave.offerableAfter hsame).symm⟩
  · rintro ⟨hs, hoffered⟩
    have hrevived := (sameRecords_postprocess_iff _).mpr (hclean.mpr hs)
    refine ⟨fun k => ?_, hrevived.tasks, hrevived.foreign, hrevived.offers, hrevived.jobs⟩
    rw [hrevived.slaves k, lookup_reviveOffers]
    cases hk : s.slaveDict.lookup k with
    | none => rfl
    | some slave =>
      obtain ⟨hofferable, hafter⟩ := hoffered k slave hk
      rw [map_some, ← hofferable, ← hafter]

theorem http_agrees_iff (s : Service) (c : SchedulerCall) : c.Agree s ↔ c.Agrees s := by
  cases c with
  | decline now offerIds refuse => exact agree_launch_iff
  | acceptLaunch now req => exact agree_launch_iff
  | kill tid => exact agree_kill_iff
  | reconcile now req => exact agree_reconcile_iff
  | revive =>
    rw [SchedulerCall.Agree, queuedForRetry_eq_iff]
    show SameRecords (postprocess (if s.active then reviveOffers s else s)) s ∧
      (postprocess (if s.active then reviveOffers s else s)).retries ≤ s.retries ↔ _
    rw [retries_postprocess, SchedulerCall.Agrees]
    cases s.active with
    | true =>
      rw [if_pos rfl, sameRecords_reviveOffers_iff, forall_prop_of_true rfl]
      exact and_iff_left le_rfl
    | false =>
      rw [if_neg Bool.false_ne_true, sameRecords_postprocess_iff]
      exact ⟨fun h => ⟨h.1, fun h' => absurd h' Bool.false_ne_true⟩, fun h => ⟨h.1, le_rfl⟩⟩
  | acknowledge hasUuid =>
    rw [SchedulerCall.Agree, queuedForRetry_eq_iff]
    show SameRecords (postprocess s) s ∧ (postprocess s).retries ≤ s.retries ↔ _
    rw [sameRecords_postprocess_iff, retries_postprocess]
    exact and_iff_left le_rfl
  | teardown =>
    rw [SchedulerCall.Agree, queuedForRetry_eq_iff]
    show SameRecords (postprocess (if s.active then (deleteFramework s).1 else s))
        (if s.active then (deleteFramework s).1 else s) ∧
      (postprocess (if s.active then (deleteFramework s).1 else s)).retries ≤ s.retries ↔ _
    rw [sameRecords_postprocess_iff, retries_postprocess, SchedulerCall.Agrees]
    cases s.active with
    | true =>
      rw [if_pos rfl, clean_congr removal_deleteFramework, retries_deleteFramework]
      exact and_iff_left le_rfl
    | false =>
      rw [if_neg Bool.false_ne_true]
      exact and_iff_left le_rfl

theorem http_kill_disagrees :
    ¬ SchedulerCall.Agree runningOnSlave (.kill "a") ∧
      "a" ∉ (SchedulerCall.native runningOnSlave (.kill "a")).taskDict ∧
        ((SchedulerCall.http runningOnSlave (.kill "a")).taskDict.lookup "a").map (·.state) =
          some .killed := by
  have hnative : "a" ∉ (SchedulerCall.native runningOnSlave (.kill "a")).taskDict := by decide +kernel
  have hhttp : ((SchedulerCall.http runningOnSlave (.kill "a")).taskDict.lookup "a").map (·.state) =
      some .killed := by decide +kernel
  refine ⟨fun h => ?_, hnative, hhttp⟩
  rw [← h.1.tasks, AList.lookup_eq_none.mpr hnative] at hhttp
  cases hhttp

end Urb
