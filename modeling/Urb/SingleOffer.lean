/-
# `Urb.SingleOffer` — at most one offer is out for a slave

A second offer for the same slave would offer the same resources twice.  The
flag `offerable` is cleared when the slave is offered, and the property holds as
long as it stays cleared while an offer is out (`SingleOffers`).

Four handlers set the flag without looking at what is out:

    launch_tasks               for the slaves of its tasks and of the offers it declines
    revive_offers              for all slaves
    register_executor_runner   for the new slave
    reregister_executor        for the slave of the executor

`OffersOnce` asks of each of these that no offer for the slaves it sets the
flag of is left open; then the property holds along every run.
-/
import Urb.OfferBook

namespace Urb

open Block AList Bool Nat Slave OfferBook List

/-! ## The property and its invariant -/

def offersOf (sid : String) (wire : List Message) : ℕ :=
  (outstanding wire).countP (fun o => o.slaveId == sid)

def Slave.canOffer (slave : Slave) : Bool := slave.offerable && !slave.isCommandExecutor

structure SingleOffers (s : Service) : Prop where
  single : ∀ sid, isPlaceholder sid = false → offersOf sid s.wire ≤ 1
  idle : ∀ sid slave, isPlaceholder sid = false → s.slaveDict.lookup sid = some slave →
    slave.canOffer = true → offersOf sid s.wire = 0

/-! ## The condition -/

def NoneOut (sid : String) (s : Service) : Prop := ∀ o ∈ outstanding s.wire, o.slaveId ≠ sid

def OffersOnce (s : Service) : Event → Prop
  | .launchTasks _ _ req => ∀ o ∈ outstanding s.wire, isPlaceholder o.slaveId = false →
      o.id ∉ req.offerIds → (∀ t ∈ req.infos, t.slaveRef ≠ some o.slaveId) ∧
        ∀ oid ∈ req.offerIds, ∀ o', s.offers.lookup oid = some o' → o'.slaveId ≠ o.slaveId
  | .reviveOffers => ∀ sid slave, s.slaveDict.lookup sid = some slave →
      slave.isCommandExecutor = true ∨ NoneOut sid s
  | .registerExecutorRunner reg => reg.tasks = [] → NoneOut reg.slaveId s
  | .reregisterExecutor reg => ∀ sid slave, s.slaveByChannel reg.replyTo = some (sid, slave) →
      slave.isCommandExecutor = true ∨ NoneOut sid s
  | _ => True

lemma offersOf_eq_zero {sid : String} {s : Service} : offersOf sid s.wire = 0 ↔ NoneOut sid s := by
  simp only [offersOf, NoneOut, countP_eq_zero, beq_iff_eq]

/-! ## Steps that keep it -/

namespace SingleOffers

variable {s s' : Service}

lemma of_le (h : SingleOffers s) (hw : outstanding s'.wire = outstanding s.wire)
    (hs : ∀ sid sl', s'.slaveDict.lookup sid = some sl' → sl'.canOffer →
      ∃ sl, s.slaveDict.lookup sid = some sl ∧ sl.canOffer) : SingleOffers s' := by
  have hcount : ∀ sid, offersOf sid s'.wire = offersOf sid s.wire := fun sid => by
    rw [offersOf, hw]
    rfl
  refine ⟨fun sid hp => (hcount sid).trans_le (h.single sid hp), fun sid sl' hp hl hc => ?_⟩
  obtain ⟨sl, hl', hc'⟩ := hs sid sl' hl hc
  rw [hcount]
  exact h.idle sid sl hp hl' hc'

lemma canOffer_of_sameOffering {a b : Slave} (h : a.SameOffering b) (hb : b.canOffer) : a.canOffer := by
  rw [canOffer, and_eq_true, not_eq_true'] at hb ⊢
  refine ⟨h.offerable.symm.trans hb.1, ?_⟩
  by_contra hc
  have := h.command (eq_true_of_not_eq_false hc)
  rw [hb.2] at this
  cases this

variable (h : SingleOffers s)
include h

lemma of_quiet (hq : OfferQuiet s s') : SingleOffers s' := by
  refine h.of_le (congrArg OfferBook.outstanding hq.book) fun sid sl' hl hc => ?_
  obtain ⟨sl, hl', hsame⟩ := hq.slaves.lookup hl
  exact ⟨sl, hl', canOffer_of_sameOffering hsame hc⟩

lemma postprocess : SingleOffers (postprocess s) := by
  refine h.of_le (by rw [postprocess_wire]) fun sid sl hl hc => ⟨sl, ?_, hc⟩
  rw [lookup_slaveDict_postprocess] at hl
  split_ifs at hl
  exact hl

lemma finish (native : Bool) : SingleOffers (finish native s) := by
  cases native with
  | true => exact h.postprocess
  | false => exact h

lemma modifySlave {sid : String} (f : Slave → Slave)
    (hnone : isPlaceholder sid = false → offersOf sid s.wire = 0) :
    SingleOffers (s.modifySlave sid f) := by
  refine ⟨h.single, fun k slave hp hl hc => ?_⟩
  rcases lookup_modify_cases hl with ⟨rfl, -⟩ | ⟨-, hl⟩
  · exact hnone hp
  · exact h.idle k slave hp hl hc

lemma modifySlave_le {sid : String} {f : Slave → Slave}
    (hf : ∀ sl, s.slaveDict.lookup sid = some sl → (f sl).canOffer → sl.canOffer) :
    SingleOffers (s.modifySlave sid f) := by
  refine h.of_le rfl fun k sl' hl hc => ?_
  rcases lookup_modify_cases hl with ⟨rfl, sl, hl', rfl⟩ | ⟨-, hl⟩
  · exact ⟨sl, hl', hf sl hl' hc⟩
  · exact ⟨sl', hl, hc⟩

end SingleOffers

/-! ## Offer rounds -/

lemma isPlaceholder_makeOffer {sid : String} (h : isPlaceholder sid) (s : Service)
    (slave : Slave) : isPlaceholder (s.makeOffer sid slave).slaveId := by
  simp only [Service.makeOffer, h, if_true]
  exact isPlaceholder_append (isPlaceholder_append h _) _

def OfferRound.offersOf (sid : String) (r : OfferRound) : ℕ :=
  r.offers.countP (fun o => o.slaveId == sid) + Urb.offersOf sid r.service.wire

/-- The invariant in the middle of a round. -/
structure SingleRound (r : OfferRound) : Prop where
  single : ∀ sid, isPlaceholder sid = false → r.offersOf sid ≤ 1
  idle : ∀ sid slave, isPlaceholder sid = false → r.service.slaveDict.lookup sid = some slave →
    slave.canOffer = true → r.offersOf sid = 0

namespace SingleRound

variable {r : OfferRound}

lemma offersOf_append (k : String) (o : Offer) (s : Service) (t : ℚ) :
    OfferRound.offersOf k ⟨s, r.offers ++ [o], t⟩ =
      r.offers.countP (fun o => o.slaveId == k) + (if o.slaveId = k then 1 else 0) +
        Urb.offersOf k s.wire := by
  simp only [OfferRound.offersOf, countP_append, countP_singleton, beq_iff_eq]

lemma offersOf_append_ne {k : String} {o : Offer} (h : o.slaveId ≠ k) (s : Service) (t : ℚ) :
    OfferRound.offersOf k ⟨s, r.offers ++ [o], t⟩ =
      r.offers.countP (fun o => o.slaveId == k) + Urb.offersOf k s.wire := by
  rw [offersOf_append, if_neg h, add_zero]

lemma offerFromSlave {now : ℚ} {sid : String} (h : SingleRound r) :
    SingleRound (offerFromSlave now r sid) := by
  unfold Urb.offerFromSlave
  cases hs : r.service.slaveDict.lookup sid with
  | none => exact h
  | some slave =>
    dsimp only
    split_ifs with hoff hres
    · have hcan : slave.canOffer := by
        rw [isOfferable, and_eq_true] at hoff
        exact hoff.1
      cases hp : isPlaceholder sid with
      | true =>
        have hother : ∀ k, isPlaceholder k = false → (r.service.makeOffer sid slave).slaveId ≠ k := by
          rintro k hk rfl
          rw [isPlaceholder_makeOffer hp] at hk
          cases hk
        refine ⟨fun k hk => ?_, fun k sl hk hl hc => ?_⟩
        · rw [offersOf_append_ne (hother k hk)]
          exact h.single k hk
        · rw [offersOf_append_ne (hother k hk)]
          have hne : k ≠ sid := by
            rintro rfl
            rw [hp] at hk
            cases hk
          rw [Service.modifySlave_slaveDict, lookup_modify_ne hne] at hl
          exact h.idle k sl hk hl hc
      | false =>
        have hzero := h.idle sid slave hp hs hcan
        refine ⟨fun k hk => ?_, fun k sl hk hl hc => ?_⟩
        · by_cases he : sid = k
          · subst he
            have htotal : r.offers.countP (fun o => o.slaveId == sid) +
                Urb.offersOf sid r.service.wire = 0 := hzero
            rw [offersOf_append, makeOffer_slaveId hp, if_pos rfl]
            show _ + 1 + Urb.offersOf sid r.service.wire ≤ 1
            omega
          · rw [offersOf_append_ne (by rwa [makeOffer_slaveId hp])]
            exact h.single k hk
        · rw [Service.modifySlave_slaveDict, lookup_modify] at hl
          split_ifs at hl with he
          · -- the slave that has just been offered is no longer offerable
            obtain ⟨sl', -, rfl⟩ := map_eq_some_iff.mp hl
            cases hc
          · rw [offersOf_append_ne (by rw [makeOffer_slaveId hp]; exact Ne.symm he)]
            exact h.idle k sl hk hl hc
    · exact h
    · exact ⟨h.single, h.idle⟩

lemma offerPlaceholder (h : SingleRound r) : SingleRound (offerPlaceholder r) := by
  have hother : ∀ (slave : Slave) (k : String), isPlaceholder k = false →
      (r.service.makeOffer "place-holder" slave).slaveId ≠ k := by
    rintro slave k hk rfl
    rw [isPlaceholder_makeOffer (by decide)] at hk
    cases hk
  refine ⟨fun k hk => ?_, fun k sl hk hl hc => ?_⟩
  · unfold Urb.offerPlaceholder
    rw [offersOf_append_ne (hother _ k hk)]
    exact h.single k hk
  · unfold Urb.offerPlaceholder
    rw [offersOf_append_ne (hother _ k hk)]
    exact h.idle k sl hk hl hc

end SingleRound

namespace SingleOffers

variable {s : Service}

lemma generateOffers {now : ℚ} (h : SingleOffers s) : SingleOffers (generateOffers now s) := by
  have hstart : SingleRound { service := { s with nextOfferTime := 0 } } := by
    refine ⟨fun sid hp => ?_, fun sid slave hp hl hc => ?_⟩
    · rw [OfferRound.offersOf, countP_nil, zero_add]
      exact h.single sid hp
    · rw [OfferRound.offersOf, countP_nil, zero_add]
      exact h.idle sid slave hp hl hc
  have hround : SingleRound (offerRound now s) :=
    offerRound_inv hstart (fun _ _ hr => hr.offerFromSlave) (fun _ _ hr => ⟨hr.single, hr.idle⟩)
      fun _ hr => hr.offerPlaceholder
  have hsent : ∀ sid, offersOf sid ((offerRound now s).service.send
      (.resourceOffers (offerRound now s).offers)).wire = (offerRound now s).offersOf sid :=
    fun sid => countP_append
  unfold Urb.generateOffers
  dsimp only
  split_ifs with hnil
  · have hnone : ∀ sid, (offerRound now s).offersOf sid =
        offersOf sid (offerRound now s).service.wire := by
      intro sid
      rw [OfferRound.offersOf, hnil, countP_nil, zero_add]
    refine ⟨fun sid hp => ?_, fun sid slave hp hl hc => ?_⟩
    · rw [← hnone]
      exact hround.single sid hp
    · rw [← hnone]
      exact hround.idle sid slave hp hl hc
  · refine ⟨fun sid hp => ?_, fun sid slave hp hl hc => ?_⟩
    · rw [hsent]
      exact hround.single sid hp
    · rw [hsent]
      exact hround.idle sid slave hp hl hc

/-! ## LaunchTasks messages -/

lemma launchStart {req : LaunchTasksRequest} (h : SingleOffers s) :
    SingleOffers (launchStart req s).service := by
  have hle : ∀ sid, offersOf sid (Urb.launchStart req s).service.wire ≤ offersOf sid s.wire :=
    fun sid => Ledger.countP_pending_answer_le _
  refine ⟨fun sid hp => (hle sid).trans (h.single sid hp), fun sid slave hp hl hc => ?_⟩
  exact le_zero.mp ((hle sid).trans_eq (h.idle sid slave hp hl hc))

lemma launchTask {now : ℚ} {req : LaunchTasksRequest} {l : LaunchedTask} {st : LaunchState}
    (h : SingleOffers st.service)
    (hnone : ∀ sid, l.info.slaveRef = some sid → isPlaceholder sid = false →
      offersOf sid st.service.wire = 0) : SingleOffers (launchTask now req l st).1.service ∧
      outstanding (Urb.launchTask now req l st).1.service.wire = outstanding st.service.wire := by
  rcases launchTask_offers now req l st with hq | ⟨sid, href, hp, hq⟩
  · exact ⟨h.of_quiet hq, congrArg OfferBook.outstanding hq.book⟩
  · exact ⟨(h.modifySlave enable fun _ => hnone sid href hp).of_quiet hq,
      congrArg OfferBook.outstanding hq.book⟩

lemma refuseOffer {now : ℚ} {refuse : Option ℚ} {oid : String} {r : Refusal}
    (h : SingleOffers r.service)
    (hnone : ∀ o, r.service.offers.lookup oid = some o → isPlaceholder o.slaveId = false →
      offersOf o.slaveId r.service.wire = 0) : SingleOffers (refuseOffer now refuse r oid).service := by
  have hout : outstanding (Urb.refuseOffer now refuse r oid).service.wire =
      outstanding r.service.wire :=
    congrArg OfferBook.outstanding (refuseOffer_book now refuse r oid)
  have hcount : ∀ sid, offersOf sid (Urb.refuseOffer now refuse r oid).service.wire =
      offersOf sid r.service.wire := fun sid => by
    rw [offersOf, hout]
    rfl
  refine ⟨fun sid hp => (hcount sid).trans_le (h.single sid hp), fun sid slave hp hl hc => ?_⟩
  rw [hcount]
  by_cases ho : ∃ o, r.service.offers.lookup oid = some o ∧ o.slaveId = sid
  · obtain ⟨o, ho, rfl⟩ := ho
    exact hnone o ho hp
  · rw [refuseOffer_slaves now refuse r oid fun o ho' he => ho ⟨o, ho', he⟩] at hl
    exact h.idle sid slave hp hl hc

lemma launchTasks {now : ℚ} {req : LaunchTasksRequest} {native : Bool} (h : SingleOffers s)
    (hg : OffersOnce s (.launchTasks native now req)) : SingleOffers (launchTasks now req s).1 := by
  let out := outstanding (Urb.launchStart req s).service.wire
  have hopen : ∀ o ∈ out, o ∈ outstanding s.wire ∧ o.id ∉ req.offerIds :=
    fun o ho => Ledger.mem_pending_answer.mp ho
  have hcount : ∀ {sid : String} {s' : Service}, outstanding s'.wire = out →
      (∀ o ∈ out, o.slaveId ≠ sid) → offersOf sid s'.wire = 0 := by
    intro sid s' hw hno
    rw [offersOf_eq_zero, NoneOut, hw]
    exact hno
  refine (launchTasks_rule (I := fun s' => SingleOffers s' ∧ outstanding s'.wire = out ∧
    s'.offers = s.offers) ⟨h.launchStart, rfl, rfl⟩ (fun l hl st hst => ?_)
    fun remaining s' hnamed hs' => ?_).1
  · have hkeep : SingleOffers (Urb.launchTask now req l st).1.service ∧
        outstanding (Urb.launchTask now req l st).1.service.wire = outstanding st.service.wire := by
      refine hst.1.launchTask fun sid href hp => hcount hst.2.1 fun o ho he => ?_
      obtain ⟨hmem, hid⟩ := hopen o ho
      subst he
      exact (hg o hmem hp hid).1 l.info (mem_map_of_mem hl) href
    refine ⟨hkeep.1, hkeep.2.trans hst.2.1, ?_⟩
    exact (congrArg offers (launchTask_book now req l st)).trans hst.2.2
  · -- the offers that were not used
    refine processRemainingOffers_rule (I := fun s' => SingleOffers s' ∧ outstanding s'.wire = out ∧
      s'.offers = s.offers) hs' (fun oid hoid r hr => ?_) fun _ _ hs => ⟨⟨hs.1.single, hs.1.idle⟩, hs.2⟩
    refine ⟨hr.1.refuseOffer fun o ho hp => hcount hr.2.1 fun o' ho' he => ?_, ?_, ?_⟩
    · obtain ⟨hmem', hid⟩ := hopen o' ho'
      rw [hr.2.2] at ho
      exact (hg o' hmem' (he ▸ hp) hid).2 oid (hnamed oid hoid) o ho he.symm
    · exact (congrArg OfferBook.outstanding (refuseOffer_book now _ r oid)).trans hr.2.1
    · exact (congrArg offers (refuseOffer_book now _ r oid)).trans hr.2.2

/-! ## The other events -/

variable (h : SingleOffers s)
include h

lemma reviveOffers (hg : OffersOnce s .reviveOffers) : SingleOffers (reviveOffers s) := by
  refine ⟨h.single, fun sid slave hp hl hc => ?_⟩
  obtain ⟨sl, hl', rfl⟩ : ∃ sl, s.slaveDict.lookup sid = some sl ∧
      { sl with offerable := true, offerableAfter := 0 } = slave := by
    rw [Urb.reviveOffers, lookup_mapVals] at hl
    exact map_eq_some_iff.mp hl
  rcases hg sid sl hl' with hcommand | hnone
  · rw [canOffer, and_eq_true, not_eq_true'] at hc
    exact absurd hcommand (eq_false_iff.mp hc.2)
  · exact offersOf_eq_zero.mpr hnone

lemma enterSlave {reg : RunnerRegistration} : SingleOffers (enterSlave reg s) := by
  refine h.of_le (congrArg OfferBook.outstanding (enterSlave_book reg s)) fun sid sl hl hc => ?_
  rcases lookup_insert_cases hl with ⟨-, rfl⟩ | ⟨-, hl⟩
  · cases hc
  · exact ⟨sl, hl, hc⟩

lemma registerExecutorRunner {reg : RunnerRegistration}
    (hg : OffersOnce s (.registerExecutorRunner reg)) :
    SingleOffers (registerExecutorRunner reg s).1 := by
  obtain ⟨s₁, hq, ⟨he, -⟩ | ⟨ht, he⟩⟩ := registerExecutorRunner_offers reg s
  · rw [he]
    exact h.enterSlave.of_quiet hq
  · rw [he]
    refine (h.enterSlave.of_quiet hq).modifySlave _ fun _ => ?_
    have hout : outstanding s₁.wire = outstanding s.wire :=
      congrArg OfferBook.outstanding (hq.book.trans (enterSlave_book reg s))
    rw [offersOf_eq_zero, NoneOut, hout]
    exact hg ht

lemma reregisterExecutor {reg : ExecutorReregistration}
    (hg : OffersOnce s (.reregisterExecutor reg)) : SingleOffers (reregisterExecutor reg s).1 := by
  obtain ⟨s₁, hq, he | ⟨sid, slave, hsid, he⟩⟩ := reregisterExecutor_offers reg s
  · rw [he]
    exact h.of_quiet hq
  · rw [he]
    rcases hg sid slave hsid with hcommand | hnone
    · -- a slave with command executors keeps them
      refine (h.of_quiet hq).modifySlave_le fun sl hl hc => ?_
      obtain ⟨sl₀, hl₀, hsame⟩ := hq.slaves.lookup hl
      rw [lookup_of_slaveByChannel hsid] at hl₀
      cases hl₀
      rw [canOffer, and_eq_true, not_eq_true'] at hc
      exact absurd (hsame.command hcommand) (eq_false_iff.mp hc.2)
    · refine (h.of_quiet hq).modifySlave _ fun _ => ?_
      have hout : outstanding s₁.wire = outstanding s.wire := congrArg OfferBook.outstanding hq.book
      rw [offersOf_eq_zero, NoneOut, hout]
      exact hnone

lemma deleteSlave (sid : String) (slave : Slave) : SingleOffers (deleteSlave sid slave s) := by
  have hqueue : SingleOffers (s.addDeleteElement (.slave sid)) := ⟨h.single, h.idle⟩
  have hmod : SingleOffers ((s.addDeleteElement (.slave sid)).modifySlave sid
      fun sl => { sl with offerable := false }) :=
    hqueue.modifySlave_le fun _ _ hc => by cases hc
  unfold Urb.deleteSlave
  dsimp only
  split
  · exact hmod
  · exact ⟨hmod.single, hmod.idle⟩

lemma deleteJob {job : String} : SingleOffers (deleteJob job s).1 :=
  deleteJob_keeps (fun sid slave _ _ _ hs => hs.deleteSlave sid slave)
    (fun _ _ _ hs => ⟨hs.single, hs.idle⟩) (fun _ _ _ _ _ hs => hs.of_quiet .lost) h

lemma step {e : Event} (hg : OffersOnce s e) : SingleOffers (step s e) := by
  have hstep := step_offers s e
  generalize Urb.step s e = s' at hstep ⊢
  cases hstep with
  | quiet native hq => exact (h.of_quiet hq).finish native
  | round now => exact h.generateOffers
  | launch native now req _ => exact (h.launchTasks hg).finish native
  | revive => exact (h.reviveOffers hg).postprocess
  | runner reg _ => exact (h.registerExecutorRunner hg).postprocess
  | reregister reg => exact (h.reregisterExecutor hg).postprocess
  | jobGone job => exact h.deleteJob

end SingleOffers

lemma singleOffers_fresh (config : Config) (frameworkId hostname : String) (http : Bool) :
    SingleOffers (.fresh config frameworkId hostname http) :=
  ⟨fun _ _ => zero_le _, fun _ _ _ hl => by cases hl⟩

theorem run_offersOf_le_one {config : Config} {frameworkId hostname : String} {http : Bool}
    {es : List Event}
    (hes : Machine.Guarded step OffersOnce (.fresh config frameworkId hostname http) es)
    {sid : String} (hp : isPlaceholder sid = false) :
    ∀ fs, fs <+: es →
      offersOf sid (runFrom (.fresh config frameworkId hostname http) fs).wire ≤ 1 := by
  rintro fs ⟨gs, rfl⟩
  have hstart := singleOffers_fresh config frameworkId hostname http
  have hrun := Machine.run_inv (fun _ _ h hg => h.step hg) hstart (Machine.guarded_append.mp hes).1
  exact hrun.single sid hp

def offeredOnce : List Event :=
  [runnerUp "7" "c7", .generateOffers 1, launchOf ["offer-fw-1"] [], .generateOffers 5]

theorem run_offersOf_le_one_offeredOnce :
    offersOf (slaveOf "7" "c7") (runFrom smallService offeredOnce).wire ≤ 1 := by
  have hguard : Machine.Guarded step OffersOnce smallService offeredOnce := by
    refine ⟨fun _ o ho => ?_, trivial, fun o ho _ hid => ?_, trivial, trivial⟩
    · cases ho
    · have hall : ∀ o ∈ outstanding (runFrom smallService [runnerUp "7" "c7", .generateOffers 1]).wire,
          o.id ∈ ["offer-fw-1"] := by decide +kernel
      exact absurd (hall o ho) hid
  exact run_offersOf_le_one hguard (by decide +kernel) offeredOnce (List.prefix_refl _)

theorem offersOf_revived :
    offersOf (slaveOf "7" "c7") (runFrom smallService
      [runnerUp "7" "c7", .generateOffers 1, .reviveOffers, .generateOffers 2]).wire = 2 := by
  decide +kernel

end Urb
