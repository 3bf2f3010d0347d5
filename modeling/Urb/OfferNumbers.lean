/-
# `Urb.OfferNumbers` — the ids of offers across restarts of the service

The number in the id of an offer, and in the slave id of a placeholder offer,
comes from `ResourceTracker.last_offer_id`.  All frameworks of a process share
the counter, and it starts at 0 with the process.  The id of a framework outlives
the process: the framework registers with the next one under the same id.

    request     an event on the framework's record
    others      a number of offers made to other frameworks
    register    the framework registers again with the same process: its record is
                kept and configured anew, or a new one made if it has been removed
    restart     the process ends, and the framework registers with the next one

**Proved here.**  No id is used twice as long as the counter has passed the numbers
of the earlier processes when offers are made (`offers_unique`).  The source does
nothing for that: the first two rounds of two processes make the same ids
(`offers_repeat`).
-/
import Urb.LaunchLoop

namespace Urb

open Block List

/-! ## A framework id through successive processes -/

def sentOffers (wire : List Message) : List Offer :=
  wire.flatMap fun
    | .resourceOffers offers => offers
    | _ => []

structure Lineage where
  service : Service
  past : List Offer := []

inductive Lineage.Event where
  | request (e : Urb.Event)
  | others (n : ℕ)
  | register (config : Config) (http : Bool)
  | restart (config : Config) (serviceHostname : String) (http : Bool)

def Service.register (config : Config) (http : Bool) (s : Service) : Service :=
  if s.active then { s with config := config, http := s.http || http }
  else
    { Service.fresh config s.frameworkId s.serviceHostname http with
      lastOfferId := s.lastOfferId
      wire := s.wire }

namespace Lineage

def fresh (config : Config) (frameworkId serviceHostname : String) (http : Bool) : Lineage :=
  { service := .fresh config frameworkId serviceHostname http }

def sent (f : Lineage) : List Offer := sentOffers f.service.wire ++ f.past

def step (f : Lineage) : Lineage.Event → Lineage
  | .request e => { f with service := Urb.step f.service e }
  | .others n => { f with service := { f.service with lastOfferId := f.service.lastOfferId + n } }
  | .register config http => { f with service := f.service.register config http }
  | .restart config serviceHostname http =>
    { service := .fresh config f.service.frameworkId serviceHostname http, past := f.sent }

def Unique (f : Lineage) : Prop :=
  (f.sent.map Offer.id).Nodup ∧
    ((f.sent.filter (fun o => isPlaceholder o.slaveId)).map Offer.slaveId).Nodup

def Event.makesOffers : Lineage.Event → Bool
  | .request (.generateOffers _) => true
  | _ => false

/-- When offers are made, the counter has passed the numbers of the earlier processes. -/
def CountsOn (f : Lineage) (e : Lineage.Event) : Prop :=
  e.makesOffers = true → ∀ o ∈ f.past,
    o.id ∈ (List.range (f.service.lastOfferId + 1)).map (offerId f.service.frameworkId)

instance (f : Lineage) : DecidablePred f.CountsOn := fun e =>
  inferInstanceAs (Decidable (e.makesOffers = true → _))

end Lineage

/-! ## Numbered offers -/

structure Offer.Carries (frameworkId : String) (n : ℕ) (o : Offer) : Prop where
  id : o.id = offerId frameworkId n
  slaveId : isPlaceholder o.slaveId = true → ∃ v, o.slaveId = v ++ "-" ++ n.repr

lemma carries_makeOffer (s : Service) (sid : String) (slave : Slave) :
    (s.makeOffer sid slave).Carries s.frameworkId (s.lastOfferId + 1) := by
  refine ⟨rfl, fun hp => ⟨sid, ?_⟩⟩
  by_cases hsid : isPlaceholder sid
  · exact if_pos hsid
  · rw [makeOffer_slaveId (Bool.eq_false_iff.mpr hsid)] at hp
    exact absurd hp hsid

structure Numbered (frameworkId : String) (last : ℕ) (os : List Offer) : Prop where
  carries : ∀ o ∈ os, ∃ n ≤ last, o.Carries frameworkId n
  nodup : (os.map Offer.id).Nodup

namespace Numbered

variable {frameworkId : String} {last : ℕ} {os : List Offer}

lemma cons (h : Numbered frameworkId last os) {o : Offer}
    (ho : o.Carries frameworkId (last + 1)) : Numbered frameworkId (last + 1) (o :: os) := by
  refine ⟨fun o' ho' => ?_, nodup_cons.mpr ⟨fun hmem => ?_, h.nodup⟩⟩
  · rcases mem_cons.mp ho' with rfl | ho'
    · exact ⟨last + 1, le_rfl, ho⟩
    · obtain ⟨n, hn, hc⟩ := h.carries o' ho'
      exact ⟨n, hn.trans (Nat.le_succ _), hc⟩
  · obtain ⟨o', ho', hid⟩ := mem_map.mp hmem
    obtain ⟨n, hn, hc⟩ := h.carries o' ho'
    have hnum := offerId_injective frameworkId (hc.id.symm.trans (hid.trans ho.id))
    omega

lemma perm {os' : List Offer} (h : Numbered frameworkId last os) (hp : os.Perm os') :
    Numbered frameworkId last os' :=
  ⟨fun o ho => h.carries o (hp.mem_iff.mpr ho), (hp.map _).nodup_iff.mp h.nodup⟩

end Numbered

/-! ## A round -/

lemma numbered_round {s : Service} {rest : List Offer}
    (h : Numbered s.frameworkId s.lastOfferId rest) (now : ℚ) :
    (offerRound now s).service.frameworkId = s.frameworkId ∧ (offerRound now s).service.wire = s.wire ∧
      Numbered s.frameworkId (offerRound now s).service.lastOfferId
        ((offerRound now s).offers ++ rest) := by
  have hadd : ∀ (r : OfferRound) sid slave, r.service.frameworkId = s.frameworkId →
      Numbered s.frameworkId r.service.lastOfferId (r.offers ++ rest) →
      Numbered s.frameworkId (r.service.lastOfferId + 1)
        (r.offers ++ [r.service.makeOffer sid slave] ++ rest) := by
    intro r sid slave hid hr
    have hnew := hr.cons (o := r.service.makeOffer sid slave) (hid ▸ carries_makeOffer _ _ _)
    refine hnew.perm ?_
    rw [append_assoc, singleton_append]
    exact perm_middle.symm
  refine offerRound_inv (I := fun r => r.service.frameworkId = s.frameworkId ∧
    r.service.wire = s.wire ∧ Numbered s.frameworkId r.service.lastOfferId (r.offers ++ rest))
    ⟨rfl, rfl, h⟩ (fun sid r hr => ?_) (fun _ _ hr => hr) fun r hr => ?_
  · unfold offerFromSlave
    split
    · exact hr
    · split_ifs
      · exact ⟨hr.1, hr.2.1, hadd r _ _ hr.1 hr.2.2⟩
      · exact hr
      · exact hr
  · exact ⟨hr.1, hr.2.1, hadd r _ _ hr.1 hr.2.2⟩

lemma sentOffers_generateOffers (now : ℚ) (s : Service) : sentOffers (generateOffers now s).wire =
      (offerRound now s).offers ++ sentOffers (offerRound now s).service.wire := by
  unfold generateOffers
  dsimp only
  split_ifs with hnone
  · rw [hnone, nil_append]
  · rfl

def offerCount (s : Service) : String × ℕ × List Offer :=
  (s.frameworkId, s.lastOfferId, sentOffers s.wire)

lemma offerCount_step {e : Event} (he : ∀ now, e ≠ .generateOffers now) (s : Service) :
    offerCount (step s e) = offerCount s := by
  let Same (s' : Service) : Prop := offerCount s' = offerCount s
  have hmark : ∀ x task, Same (markKilled x task s) := fun _ _ => rfl
  have hremove : ∀ sid sl s', Same s' → Same (deleteSlave sid sl s') := fun sid sl _ =>
    deleteSlave_keeps (I := Same) (fun _ _ h => h) (fun _ _ _ _ h => h) (fun _ _ h => h) sid sl
  have hupdate : ∀ u s', Same s' → Same (handleStatusUpdate u s').1 := fun _ _ h =>
    handleStatusUpdate_rule (I := Same) h h fun _ _ => settleUpdate_rule (I := Same) (fun _ _ _ _ => h)
      (fun _ _ _ _ => h) (fun _ _ h => h) (fun _ h => h) h
  refine step_rule (I := Same) (fun s' h => ?_) rfl (fun _ => rfl) (fun _ => ?_) rfl
  · exact (postprocess_frame (f := offerCount) (fun _ _ _ _ _ => rfl) (fun _ _ => rfl) s').trans h
  cases e with
  | generateOffers now => exact absurd rfl (he now)
  | launchTasks _ now req =>
    refine launchTasks_rule (I := Same) rfl (fun _ _ _ => launchTask_rule (I := Same) (fun _ _ _ h => h)
      (fun _ _ _ h => h) (fun _ _ _ _ _ h => h) (fun _ h => h) (fun _ _ h => h) (fun _ _ _ h => h)
      (fun _ _ _ _ h => h) fun _ _ _ h => h) fun _ _ _ => ?_
    exact processRemainingOffers_keeps (I := Same) (fun _ _ h => h) (fun _ _ h => h) (fun _ _ h => h)
      (fun _ _ h => h) (fun _ _ _ h => h) (fun _ _ h => h) (fun _ _ h => h) _ _ _
  | killTask _ x =>
    exact killTask_rule (I := Same) rfl (fun task _ => hmark x task) (fun _ _ h => h) (fun _ h => h)
      (fun _ _ h => h) fun task _ _ _ _ => hmark x task
  | statusUpdate _ u => exact hupdate u s rfl
  | reconcileTasks _ now req =>
    exact reconcileTasks_rule (I := Same) (fun _ _ _ _ h => h) (fun _ _ _ _ _ h => h)
      (fun _ _ h => h) (fun _ _ _ _ _ h => h) now _ rfl
  | reviveOffers => rfl
  | registerExecutorRunner reg =>
    exact registerExecutorRunner_rule (I := Same) rfl (fun _ _ _ h => h) (fun _ _ h => h)
      (fun _ _ _ _ h => h) (fun _ _ _ _ h => h) fun _ _ h => h
  | registerExecutor reg =>
    exact registerExecutor_rule (I := Same) (fun _ h => h) (fun _ _ _ _ h => h) (fun _ _ h => h)
      (fun _ _ _ _ h => h) (fun _ _ h => h) reg rfl
  | reregisterExecutor reg =>
    exact reregisterExecutor_rule (I := Same) (fun _ _ _ _ h => h) (fun _ _ _ _ _ h => h)
      (fun _ _ _ _ _ _ h => h) (fun u _ => hupdate u) (fun _ _ h => h) rfl
  | deleteJob job =>
    exact deleteJob_keeps (I := Same) (fun _ _ _ _ _ => hremove _ _ _) (fun _ _ _ h => h)
      (fun _ _ _ _ _ h => h) rfl
  | unregisterFramework _ =>
    exact deleteFramework_keeps (I := Same) (fun _ _ h => h) (fun _ _ h => h) (fun _ _ h => h)
      (fun _ _ _ h => h) (fun _ h => h) rfl
  | otherRequest => rfl

/-! ## Runs -/

namespace Lineage

structure InOrder (f : Lineage) : Prop where
  own : ∀ o ∈ sentOffers f.service.wire,
    ∃ n ≤ f.service.lastOfferId, o.Carries f.service.frameworkId n
  past : ∀ o ∈ f.past, ∃ n, o.Carries f.service.frameworkId n
  nodup : (f.sent.map Offer.id).Nodup

namespace InOrder

variable {f : Lineage}

lemma carries (h : InOrder f) : ∀ o ∈ f.sent, ∃ n, o.Carries f.service.frameworkId n := by
  intro o ho
  rcases mem_append.mp ho with ho | ho
  · obtain ⟨n, -, hc⟩ := h.own o ho
    exact ⟨n, hc⟩
  · exact h.past o ho

lemma unique (h : InOrder f) : f.Unique := by
  refine ⟨h.nodup, List.Nodup.map_on (fun a ha b hb he => ?_) ((List.Nodup.of_map _ h.nodup).filter _)⟩
  obtain ⟨ha, hpa⟩ := mem_filter.mp ha
  obtain ⟨hb, hpb⟩ := mem_filter.mp hb
  obtain ⟨m, hm⟩ := h.carries a ha
  obtain ⟨n, hn⟩ := h.carries b hb
  obtain ⟨v, hv⟩ := hm.slaveId hpa
  obtain ⟨w, hw⟩ := hn.slaveId hpb
  -- the number at the end of the slave id is that of the offer id
  have hnum : m = n := eq_of_append_repr (hv.symm.trans (he.trans hw))
  exact inj_on_of_nodup_map h.nodup ha hb (hm.id.trans (hnum ▸ hn.id.symm))

lemma of_offerCount {s : Service} (h : InOrder f) (he : offerCount s = offerCount f.service) :
    InOrder { f with service := s } := by
  simp only [offerCount, Prod.mk.injEq] at he
  obtain ⟨hid, hlast, hsent⟩ := he
  refine ⟨?_, ?_, ?_⟩
  · rw [hid, hlast, hsent]
    exact h.own
  · rw [hid]
    exact h.past
  · rw [sent, hsent]
    exact h.nodup

lemma generateOffers {now : ℚ} (h : InOrder f) (hg : f.CountsOn (.request (.generateOffers now))) :
    InOrder { f with service := Urb.generateOffers now f.service } := by
  have hbefore : Numbered f.service.frameworkId f.service.lastOfferId f.sent := by
    refine ⟨fun o ho => ?_, h.nodup⟩
    rcases mem_append.mp ho with ho | ho
    · exact h.own o ho
    · obtain ⟨n, hn, hid⟩ := mem_map.mp (hg rfl o ho)
      obtain ⟨m, hm⟩ := h.past o ho
      have hmn := offerId_injective _ (hm.id.symm.trans hid.symm)
      exact ⟨m, Nat.lt_succ_iff.mp (hmn ▸ mem_range.mp hn), hm⟩
  obtain ⟨hid, hwire, hnum⟩ := numbered_round hbefore now
  have hsame : ∀ {β : Type} (g : Service → β), (∀ m s, g (s.send m) = g s) →
      g (Urb.generateOffers now f.service) = g (offerRound now f.service).service := fun g hsend =>
    generateOffers_of_round (I := fun s => g s = _) (fun _ _ h => (hsend _ _).trans h) rfl
  have hsent : sentOffers (Urb.generateOffers now f.service).wire ++ f.past =
      (offerRound now f.service).offers ++ f.sent := by
    rw [sentOffers_generateOffers, hwire, append_assoc]
    rfl
  rw [← hid, ← hsame Service.frameworkId fun _ _ => rfl, ← hsame Service.lastOfferId fun _ _ => rfl,
    ← hsent] at hnum
  refine ⟨fun o ho => hnum.carries o (mem_append_left _ ho), fun o ho => ?_, hnum.nodup⟩
  obtain ⟨n, -, hc⟩ := hnum.carries o (mem_append_right _ ho)
  exact ⟨n, hc⟩

lemma fresh (config : Config) (frameworkId serviceHostname : String) (http : Bool) :
    InOrder (Lineage.fresh config frameworkId serviceHostname http) :=
  ⟨nofun, nofun, .nil⟩

lemma step {e : Lineage.Event} (h : InOrder f) (hg : f.CountsOn e) : InOrder (f.step e) := by
  cases e with
  | request e =>
    by_cases he : ∃ now, e = .generateOffers now
    · obtain ⟨now, rfl⟩ := he
      show InOrder { f with service := Urb.step f.service (.generateOffers now) }
      unfold Urb.step
      split_ifs
      · exact h.generateOffers hg
      · exact h
    · exact h.of_offerCount (offerCount_step (not_exists.mp he) _)
  | others n =>
    refine ⟨fun o ho => ?_, h.past, h.nodup⟩
    obtain ⟨m, hm, hc⟩ := h.own o ho
    exact ⟨m, hm.trans (Nat.le_add_right _ _), hc⟩
  | register config http =>
    refine h.of_offerCount ?_
    unfold Service.register
    split_ifs <;> rfl
  | restart config hostname http => exact ⟨nofun, h.carries, h.nodup⟩

end InOrder

end Lineage

theorem offers_unique {config : Config} {frameworkId serviceHostname : String} {http : Bool}
    {es : List Lineage.Event}
    (h : Machine.Guarded Lineage.step Lineage.CountsOn
      (Lineage.fresh config frameworkId serviceHostname http) es) :
    (Machine.run Lineage.step (Lineage.fresh config frameworkId serviceHostname http) es).Unique :=
  (Machine.run_inv (I := Lineage.InOrder) (fun _ _ hf hg => hf.step hg) (.fresh _ _ _ _) h).unique

def withLargerSlaves : Lineage.Event := .restart { smallConfig with cpus := 8 } "host" false

theorem offers_unique_counted :
    Machine.Guarded Lineage.step Lineage.CountsOn (Lineage.fresh smallConfig "fw" "host" false)
        [.request (.generateOffers 1), withLargerSlaves, .others 1, .request (.generateOffers 1)] ∧
      (Machine.run Lineage.step (Lineage.fresh smallConfig "fw" "host" false)
        [.request (.generateOffers 1), withLargerSlaves, .others 1,
          .request (.generateOffers 1)]).Unique :=
  have hcounted : Machine.Guarded Lineage.step Lineage.CountsOn
      (Lineage.fresh smallConfig "fw" "host" false)
      [.request (.generateOffers 1), withLargerSlaves, .others 1, .request (.generateOffers 1)] := by
    decide +kernel
  ⟨hcounted, offers_unique hcounted⟩

theorem offers_repeat :
    ∃ o o', (Machine.run Lineage.step (Lineage.fresh smallConfig "fw" "host" false)
        [.request (.generateOffers 1), withLargerSlaves, .request (.generateOffers 1)]).sent = [o', o] ∧
      o' ≠ o ∧ o'.id = o.id ∧ isPlaceholder o.slaveId = true ∧ o'.slaveId = o.slaveId :=
  ⟨_, _, rfl, by decide +kernel, by decide +kernel, by decide +kernel, by decide +kernel⟩

end Urb
