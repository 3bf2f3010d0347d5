/-
# `Urb.AcceptedOffers` — which offers of a launch count as refused

The offers of a LaunchTasks message on whose slave it puts a task are accepted, and the others
are refused: `__process_remaining_offers` gets what the loop over the tasks has not marked as
used.  A task marks the offer that its slave HOLDS:

    a task on a registered slave     marks the slave's current offer, if the message names it
    a task on a placeholder          marks nothing
    the loop ends early              nothing is handed over at all

**Proved here.**  The offers handed over are the ones without a task on their slave exactly
if tasks and current offers match (`onlyRefused_iff`); then the slaves of accepted offers keep
their refusal count and are not put off.
-/
import Urb.OfferBook

namespace Urb

open Block AList

/-! ## Accepted and refused -/

def LaunchTasksRequest.UsesSlave (req : LaunchTasksRequest) (sid : String) : Prop :=
  ∃ l ∈ req.tasks, l.info.slaveRef = some sid

instance (req : LaunchTasksRequest) (sid : String) : Decidable (req.UsesSlave sid) :=
  inferInstanceAs (Decidable (∃ l ∈ req.tasks, _))

def launchLoop (now : ℚ) (req : LaunchTasksRequest) (s : Service) : LaunchState × Ending :=
  forEach (launchTask now req) req.tasks (launchStart req s)

def handedOver (now : ℚ) (req : LaunchTasksRequest) (s : Service) : List String :=
  if (launchLoop now req s).2 = .next then req.remaining (launchLoop now req s).1.used else []

structure OnlyRefused (now : ℚ) (req : LaunchTasksRequest) (s : Service) : Prop where
  handed : ∀ oid o, s.offers.lookup oid = some o →
    (oid ∈ handedOver now req s ↔ oid ∈ req.offerIds ∧ ¬ req.UsesSlave o.slaveId)
  slaves : ∀ sid slave, req.UsesSlave sid → s.slaveDict.lookup sid = some slave →
    ∃ slave', (launchTasks now req s).1.slaveDict.lookup sid = some slave' ∧
      slave'.refusedCount = slave.refusedCount ∧ slave'.offerableAfter = slave.offerableAfter
  placeholders : (∀ oid ∈ req.offerIds, ∀ o, s.offers.lookup oid = some o →
      isPlaceholder o.slaveId = true → req.UsesSlave o.slaveId) →
    (launchTasks now req s).1.placeholderOfferableAfter = s.placeholderOfferableAfter

/-! ## The offers marked as used -/

def Service.HoldsOffer (s : Service) (sid oid : String) : Prop :=
  isPlaceholder sid = false ∧
    ∃ slave o, s.slaveDict.lookup sid = some slave ∧ slave.offer = some o ∧ o.id = oid

section Used

variable {now : ℚ} {req : LaunchTasksRequest} {l : LaunchedTask} {st : LaunchState} {oid : String}

lemma mem_usedOffer {slave : Slave} : oid ∈ slave.usedOffer req.offerIds ↔
    oid ∈ req.offerIds ∧ ∃ o, slave.offer = some o ∧ o.id = oid := by
  unfold Slave.usedOffer
  cases slave.offer with
  | none => simp
  | some o =>
    dsimp only
    split_ifs with ho
    · simp only [List.mem_singleton, Option.some.injEq, exists_eq_left']
      exact ⟨fun h => ⟨h ▸ ho, h.symm⟩, fun h => h.2.symm⟩
    · simp only [List.not_mem_nil, Option.some.injEq, exists_eq_left', false_iff]
      exact fun h => ho (h.2 ▸ h.1)

lemma mem_used_launchTask_iff (hnext : (launchTask now req l st).2 = .next) :
    oid ∈ (launchTask now req l st).1.used ↔ oid ∈ st.used ∨ oid ∈ req.offerIds ∧
      ∃ sid, l.info.slaveRef = some sid ∧ st.service.HoldsOffer sid oid := by
  -- where the task is not on a registered slave nothing is marked
  have hnone : ∀ {sid : String}, l.info.slaveRef = some sid →
      (isPlaceholder sid = false → st.service.slaveDict.lookup sid = none) →
      (oid ∈ st.used ↔ oid ∈ st.used ∨ oid ∈ req.offerIds ∧
        ∃ sid, l.info.slaveRef = some sid ∧ st.service.HoldsOffer sid oid) := by
    intro sid href hunknown
    refine ⟨.inl, fun h => h.resolve_right ?_⟩
    rintro ⟨-, sid', href', hp, slave, -, hs, -⟩
    rw [href] at href'
    cases href'
    rw [hunknown hp] at hs
    cases hs
  have hl := launchTask_launches now req l st
  generalize launchTask now req l st = r at hl hnext ⊢
  cases hl with
  | noSlave _ => cases hnext
  | waiting href hp _ => exact hnone href fun hp' => absurd (hp.symm.trans hp') (by decide)
  | unsubmitted href hp _ _ => exact hnone href fun hp' => absurd (hp.symm.trans hp') (by decide)
  | submitted href hp _ _ => exact hnone href fun hp' => absurd (hp.symm.trans hp') (by decide)
  | unknown href _ hs => exact hnone href fun _ => hs
  | noJob _ _ _ _ => cases hnext
  | overdrawn _ _ _ _ _ => cases hnext
  | @placed sid job slave href hp hs _ _ =>
    dsimp only
    rw [List.mem_append, mem_usedOffer, or_comm]
    refine or_congr_right (and_congr_right fun _ => ?_)
    constructor
    · rintro ⟨o, ho, hid⟩
      exact ⟨sid, href, hp, slave, o, hs, ho, hid⟩
    · rintro ⟨sid', href', -, slave', o, hs', ho, hid⟩
      rw [href] at href'
      cases href'
      rw [hs] at hs'
      cases hs'
      exact ⟨o, ho, hid⟩

lemma holdsOffer_launchTask {sid : String} :
    (launchTask now req l st).1.service.HoldsOffer sid oid ↔ st.service.HoldsOffer sid oid := by
  unfold Service.HoldsOffer
  rw [launchTask_slaveDict]
  refine and_congr_right fun _ => ⟨?_, ?_⟩
  · rintro ⟨slave', o, hs', ho, hid⟩
    have hmem : sid ∈ st.service.slaveDict := by
      rw [mem_keys, ← keys_launchedSlaves l.info, ← mem_keys]
      exact mem_of_lookup hs'
    obtain ⟨slave, hs⟩ := exists_lookup_of_mem hmem
    obtain ⟨slave₁, hs₁, hoffer⟩ := lookup_launchedSlaves_offer (t := l.info) hs
    rw [hs'] at hs₁
    cases hs₁
    exact ⟨slave, o, hs, hoffer ▸ ho, hid⟩
  · rintro ⟨slave, o, hs, ho, hid⟩
    obtain ⟨slave', hs', hoffer⟩ := lookup_launchedSlaves_offer (t := l.info) hs
    exact ⟨slave', o, hs', hoffer.trans ho, hid⟩

lemma mem_used_forEach_iff : ∀ {ls : List LaunchedTask} {st : LaunchState},
    (forEach (launchTask now req) ls st).2 = .next →
      (oid ∈ (forEach (launchTask now req) ls st).1.used ↔ oid ∈ st.used ∨ oid ∈ req.offerIds ∧
        ∃ l ∈ ls, ∃ sid, l.info.slaveRef = some sid ∧ st.service.HoldsOffer sid oid)
  | [], st, _ => by simp
  | l :: ls, st, h => by
    rw [forEach_cons] at h
    obtain ⟨hnext, hrest⟩ := seq_next_iff.mp h
    rw [forEach_cons, seq_of_next hnext, mem_used_forEach_iff hrest, mem_used_launchTask_iff hnext,
      or_assoc, ← and_or_left]
    simp only [holdsOffer_launchTask, List.exists_mem_cons_iff]

end Used

/-! ## The offers handed over -/

structure OffersMatch (req : LaunchTasksRequest) (s : Service) : Prop where
  through : LaunchesThrough req.infos s.slaveDict → ∀ oid ∈ req.offerIds, ∀ o,
    s.offers.lookup oid = some o → (req.UsesSlave o.slaveId ↔
      ∃ l ∈ req.tasks, ∃ sid, l.info.slaveRef = some sid ∧ s.HoldsOffer sid oid)
  early : ¬ LaunchesThrough req.infos s.slaveDict → ∀ oid ∈ req.offerIds, ∀ o,
    s.offers.lookup oid = some o → req.UsesSlave o.slaveId

section Handed

variable (now : ℚ) {req : LaunchTasksRequest} {s : Service}

lemma launchLoop_next_iff : (launchLoop now req s).2 = .next ↔ LaunchesThrough req.infos s.slaveDict :=
  forEach_launchTask_next_iff now req req.tasks (launchStart req s)

lemma mem_handedOver_of_through (h : LaunchesThrough req.infos s.slaveDict) {oid : String} :
    oid ∈ handedOver now req s ↔ oid ∈ req.offerIds ∧
      ¬ ∃ l ∈ req.tasks, ∃ sid, l.info.slaveRef = some sid ∧ s.HoldsOffer sid oid := by
  have hnext : (launchLoop now req s).2 = .next := (launchLoop_next_iff now).mpr h
  have hused : oid ∈ (launchLoop now req s).1.used ↔ oid ∈ ([] : List String) ∨ oid ∈ req.offerIds ∧
      ∃ l ∈ req.tasks, ∃ sid, l.info.slaveRef = some sid ∧ s.HoldsOffer sid oid :=
    mem_used_forEach_iff hnext
  rw [handedOver, if_pos hnext, LaunchTasksRequest.remaining, List.mem_filter, List.mem_dedup,
    decide_eq_true_eq, hused]
  simp only [List.not_mem_nil, false_or, not_and]
  exact ⟨fun hoid => ⟨hoid.1, hoid.2 hoid.1⟩, fun hoid => ⟨hoid.1, fun _ => hoid.2⟩⟩

lemma handed_iff : (∀ oid o, s.offers.lookup oid = some o →
    (oid ∈ handedOver now req s ↔ oid ∈ req.offerIds ∧ ¬ req.UsesSlave o.slaveId)) ↔
      OffersMatch req s := by
  by_cases hthrough : LaunchesThrough req.infos s.slaveDict
  · simp only [mem_handedOver_of_through now hthrough]
    constructor
    · intro h
      refine ⟨fun _ oid hoid o ho => ?_, fun hearly => absurd hthrough hearly⟩
      have hone := h oid o ho
      rw [and_congr_right_iff] at hone
      exact (not_iff_not.mp (hone hoid)).symm
    · intro h oid o ho
      refine and_congr_right fun hoid => ?_
      exact not_congr (h.through hthrough oid hoid o ho).symm
  · have hnone : handedOver now req s = [] :=
      if_neg fun hnext => hthrough ((launchLoop_next_iff now).mp hnext)
    simp only [hnone, List.not_mem_nil, false_iff, not_and, not_not]
    constructor
    · intro h
      exact ⟨fun h' => absurd h' hthrough, fun _ oid hoid o ho => h oid o ho hoid⟩
    · intro h oid o ho hoid
      exact h.early hthrough oid hoid o ho

/-! ## What follows for the accepted ones -/

lemma launchTasks_eq_processRemainingOffers : (launchTasks now req s).1 =
    processRemainingOffers now req.refuseSeconds (handedOver now req s)
      (launchLoop now req s).1.service := by
  rw [launchTasks, handedOver]
  show (if (launchLoop now req s).2 = .next then _ else _ : Service × Ending).1 = _
  split_ifs
  · rfl
  · rfl

lemma launchLoop_offers : (launchLoop now req s).1.service.offers = s.offers :=
  forEach_inv (I := fun st : LaunchState => st.service.offers = s.offers)
    (fun l _ st h => (congrArg OfferBook.offers (launchTask_book now req l st)).trans h) rfl

lemma launchLoop_slave {sid : String} {slave : Slave} (hs : s.slaveDict.lookup sid = some slave) :
    ∃ slave', (launchLoop now req s).1.service.slaveDict.lookup sid = some slave' ∧
      slave'.refusedCount = slave.refusedCount ∧ slave'.offerableAfter = slave.offerableAfter := by
  refine forEach_inv (I := fun st : LaunchState =>
    ∃ slave', st.service.slaveDict.lookup sid = some slave' ∧
      slave'.refusedCount = slave.refusedCount ∧ slave'.offerableAfter = slave.offerableAfter)
    (fun l _ st hst => ?_) ⟨slave, hs, rfl, rfl⟩
  obtain ⟨slave₁, hs₁, hcount, hafter⟩ := hst
  obtain ⟨slave₂, hs₂, hsame⟩ := lookup_launchedSlaves_enable (t := l.info) hs₁
  rw [launchTask_slaveDict]
  exact ⟨slave₂, hs₂, hsame.refusedCount.trans hcount, hsame.offerableAfter.trans hafter⟩

lemma launchLoop_placeholders : (launchLoop now req s).1.service.placeholderOfferableAfter =
    s.placeholderOfferableAfter :=
  forEach_inv
    (I := fun st : LaunchState => st.service.placeholderOfferableAfter = s.placeholderOfferableAfter)
    (fun _ _ _ h => launchTask_rule
      (I := fun s' => s'.placeholderOfferableAfter = s.placeholderOfferableAfter) (fun _ _ _ h => h)
      (fun _ _ _ h => h) (fun _ _ _ _ _ h => h) (fun _ h => h) (fun _ _ h => h) (fun _ _ _ h => h)
      (fun _ _ _ _ h => h) (fun _ _ _ h => h) h) rfl

lemma refuseOffer_offers (refuse : Option ℚ) (r : Refusal) (oid : String) :
    (refuseOffer now refuse r oid).service.offers = r.service.offers :=
  congrArg OfferBook.offers (refuseOffer_book now refuse r oid)

lemma refuseOffer_placeholders {refuse : Option ℚ} {r : Refusal} {oid : String}
    (h : ∀ o, r.service.offers.lookup oid = some o → isPlaceholder o.slaveId = false) :
    (refuseOffer now refuse r oid).service.placeholderOfferableAfter =
      r.service.placeholderOfferableAfter := by
  unfold refuseOffer
  cases ho : r.service.offers.lookup oid with
  | none => rfl
  | some o =>
    dsimp only
    cases hs : r.service.slaveDict.lookup o.slaveId with
    | none =>
      simp only [h o ho, Bool.false_eq_true, if_false]
    | some slave =>
      have hdelete : ∀ s : Service, (deleteSlave o.slaveId slave s).placeholderOfferableAfter =
          s.placeholderOfferableAfter := fun s =>
        deleteSlave_keeps (I := fun s' => s'.placeholderOfferableAfter = s.placeholderOfferableAfter)
          (fun _ _ h => h) (fun _ _ _ _ h => h) (fun _ _ h => h) _ _ rfl
      cases refuse with
      | none =>
        simp only [refuseSlave]
        split_ifs
        · rfl
        · exact hdelete _
        · rfl
      | some period =>
        simp only [refuseSlave]
        split_ifs
        · rfl
        · exact hdelete _
        · rfl

lemma lookup_launchTasks_of_not_handed {sid : String}
    (h : ∀ oid ∈ handedOver now req s, ∀ o, s.offers.lookup oid = some o → o.slaveId ≠ sid) :
    (launchTasks now req s).1.slaveDict.lookup sid =
      (launchLoop now req s).1.service.slaveDict.lookup sid := by
  rw [launchTasks_eq_processRemainingOffers]
  refine (processRemainingOffers_rule (I := fun s' => s'.offers = s.offers ∧
    s'.slaveDict.lookup sid = (launchLoop now req s).1.service.slaveDict.lookup sid)
    ⟨launchLoop_offers now, rfl⟩ (fun oid hoid r hr => ?_) fun _ _ hs => hs).2
  refine ⟨(refuseOffer_offers now _ r oid).trans hr.1, ?_⟩
  rw [refuseOffer_slaves now _ r oid (hr.1 ▸ h oid hoid)]
  exact hr.2

lemma placeholders_launchTasks_of_not_handed
    (h : ∀ oid ∈ handedOver now req s, ∀ o, s.offers.lookup oid = some o →
      isPlaceholder o.slaveId = false) :
    (launchTasks now req s).1.placeholderOfferableAfter = s.placeholderOfferableAfter := by
  rw [launchTasks_eq_processRemainingOffers]
  refine (processRemainingOffers_rule (I := fun s' => s'.offers = s.offers ∧
    s'.placeholderOfferableAfter = s.placeholderOfferableAfter)
    ⟨launchLoop_offers now, launchLoop_placeholders now⟩ (fun oid hoid r hr => ?_) fun _ _ hs => hs).2
  refine ⟨(refuseOffer_offers now _ r oid).trans hr.1, ?_⟩
  rw [refuseOffer_placeholders now (hr.1 ▸ h oid hoid)]
  exact hr.2

theorem onlyRefused_iff : OnlyRefused now req s ↔ OffersMatch req s := by
  constructor
  · exact fun h => (handed_iff now).mp h.handed
  · intro h
    have hhanded := (handed_iff now).mpr h
    refine ⟨hhanded, fun sid slave huses hs => ?_, fun haccepted => ?_⟩
    · rw [lookup_launchTasks_of_not_handed now fun oid hoid o ho hsid => ?_]
      · exact launchLoop_slave now hs
      · exact ((hhanded oid o ho).mp hoid).2 (hsid ▸ huses)
    · refine placeholders_launchTasks_of_not_handed now fun oid hoid o ho => ?_
      obtain ⟨hnamed, hunused⟩ := (hhanded oid o ho).mp hoid
      exact Bool.eq_false_iff.mpr fun hp => hunused (haccepted oid hnamed o ho hp)

end Handed

def placeholderOffered : Service := runFrom smallService [.generateOffers 10]

def acceptPlaceholder : LaunchTasksRequest :=
  { offerIds := ["offer-fw-1"]
    tasks := [{ info := { taskId := "a", slaveId := some "place-holder-1" }
                submitted := [{ id := "7" }] }]
    refuseSeconds := some 100 }

theorem accepted_offer_refused :
    (placeholderOffered.offers.lookup "offer-fw-1").map (·.slaveId) = some "place-holder-1" ∧
      ¬ OnlyRefused 20 acceptPlaceholder placeholderOffered ∧
        (launchTasks 20 acceptPlaceholder placeholderOffered).1.placeholderOfferableAfter = 120 := by
  have hslave : (placeholderOffered.offers.lookup "offer-fw-1").map (·.slaveId) =
      some "place-holder-1" := by decide +kernel
  refine ⟨hslave, fun h => ?_, by decide +kernel⟩
  obtain ⟨o, ho, hsid⟩ := Option.map_eq_some_iff.mp hslave
  have hhanded : "offer-fw-1" ∈ handedOver 20 acceptPlaceholder placeholderOffered := by decide +kernel
  refine ((h.handed "offer-fw-1" o ho).mp hhanded).2 ?_
  rw [hsid]
  decide +kernel

end Urb
