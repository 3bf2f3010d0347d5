/-
# `Urb.BookKeeping` — every offer that is out is stored

Offer ids are made from a counter, so no id is issued twice; an offer is
stored when it is made, and its removal is queued only when a LaunchTasks
message has named it.  Hence an offer that is out is stored under its id and
stays so, and a slave's own `offer` is the one stored under that id
(`BookSound`).  This holds in every reachable state, whatever the framework
does (`run_bookSound`).
-/
import Urb.OfferBook

namespace Urb

open Block AList

/-! ## The invariant -/

def OfferBook.Issued (b : OfferBook) (oid : String) : Prop :=
  ∃ n, n ≤ b.lastOfferId ∧ oid = offerId b.frameworkId n

structure OfferBook.Sound (out : List Offer) (b : OfferBook) : Prop where
  issued : ∀ oid, oid ∈ b.offers → b.Issued oid
  queued : ∀ oid ∈ b.queued, b.Issued oid
  stored : ∀ o ∈ out, b.offers.lookup o.id = some o ∧ o.id ∉ b.queued

structure OwnOffer (b : OfferBook) (sid : String) (o : Offer) : Prop where
  issued : b.Issued o.id
  slave : isPlaceholder sid = false → o.slaveId = sid
  unique : ∀ o', b.offers.lookup o.id = some o' → o' = o

structure BookSound (out : List Offer) (s : Service) : Prop where
  book : s.offerBook.Sound out
  own : ∀ sid slave o, s.slaveDict.lookup sid = some slave → slave.offer = some o →
    OwnOffer s.offerBook sid o

lemma mem_queued {s : Service} {oid : String} :
    oid ∈ s.offerBook.queued ↔ .offer oid ∈ s.deleteElements := by
  rw [Service.offerBook, List.mem_filterMap]
  constructor
  · rintro ⟨e, he, hk⟩
    cases e with
    | offer key => cases hk; exact he
    | slave key => cases hk
    | task dict key => cases hk
  · exact fun h => ⟨_, h, rfl⟩

namespace BookSound

variable {out out' : List Offer} {s s' : Service}

lemma mono (h : BookSound out s) (hout : ∀ o ∈ out', o ∈ out) : BookSound out' s :=
  ⟨⟨h.book.issued, h.book.queued, fun o ho => h.book.stored o (hout o ho)⟩, h.own⟩

lemma send (m : Message) (h : BookSound out s) : BookSound out (s.send m) := by
  refine ⟨⟨h.book.issued, h.book.queued, h.book.stored⟩, fun sid slave o hl ho => ?_⟩
  have hown := h.own sid slave o hl ho
  exact ⟨hown.issued, hown.slave, hown.unique⟩

section

variable (h : BookSound out s)
include h

lemma of_slaves (hb : s'.offerBook = s.offerBook)
    (hs : ∀ sid sl', s'.slaveDict.lookup sid = some sl' → ∀ o, sl'.offer = some o →
      ∃ sl, s.slaveDict.lookup sid = some sl ∧ sl.offer = some o) :
    BookSound out s' := by
  refine ⟨hb ▸ h.book, fun sid sl' o hl ho => ?_⟩
  obtain ⟨sl, hl', ho'⟩ := hs sid sl' hl o ho
  rw [hb]
  exact h.own sid sl o hl' ho'

lemma of_quiet (hq : OfferQuiet s s') : BookSound out s' := by
  refine h.of_slaves hq.book fun sid sl' hl o ho => ?_
  obtain ⟨sl, hl', hsame⟩ := hq.slaves.lookup hl
  exact ⟨sl, hl', hsame.offer.symm.trans ho⟩

lemma modifySlave {sid : String} {f : Slave → Slave} (hf : ∀ sl, (f sl).offer = sl.offer) :
    BookSound out (s.modifySlave sid f) := by
  refine h.of_slaves rfl fun k sl' hl o ho => ?_
  rcases lookup_modify_cases hl with ⟨-, sl, hl', rfl⟩ | ⟨-, hl⟩
  · exact ⟨sl, hl', (hf sl).symm.trans ho⟩
  · exact ⟨sl', hl, ho⟩

lemma queueOffer {oid : String} (hi : oid ∈ s.offers) (hout : ∀ o ∈ out, o.id ≠ oid) :
    BookSound out (s.addDeleteElement (.offer oid)) := by
  have hmem : ∀ k, k ∈ (s.addDeleteElement (.offer oid)).offerBook.queued ↔
      k ∈ s.offerBook.queued ∨ k = oid := by
    intro k
    rw [mem_queued, mem_queued, Service.addDeleteElement_deleteElements, List.mem_append,
      List.mem_singleton, DeleteElement.offer.injEq]
  refine ⟨⟨h.book.issued, fun k hk => ?_, fun o ho => ⟨(h.book.stored o ho).1, fun hk => ?_⟩⟩,
    fun sid sl o hl ho => ⟨(h.own sid sl o hl ho).issued, (h.own sid sl o hl ho).slave,
      (h.own sid sl o hl ho).unique⟩⟩
  · rcases (hmem k).mp hk with hk | rfl
    · exact h.book.queued k hk
    · exact h.book.issued k hi
  · rcases (hmem _).mp hk with hk | hk
    · exact (h.book.stored o ho).2 hk
    · exact hout o ho hk

lemma postprocess : BookSound out (postprocess s) := by
  have hlook : ∀ oid o, (Urb.postprocess s).offers.lookup oid = some o →
      s.offers.lookup oid = some o := by
    intro oid o ho
    rw [lookup_offers_postprocess] at ho
    split_ifs at ho
    exact ho
  have hissued : ∀ oid, s.offerBook.Issued oid → (Urb.postprocess s).offerBook.Issued oid := by
    intro oid hoid
    rw [postprocess_book]
    exact hoid
  refine ⟨⟨fun oid ho => ?_, fun oid ho => ?_, fun o ho => ⟨?_, ?_⟩⟩, fun sid sl o hl ho => ?_⟩
  · obtain ⟨o, ho'⟩ := exists_lookup_of_mem ho
    exact hissued _ (h.book.issued oid (mem_of_lookup (hlook oid o ho')))
  · rw [mem_queued, postprocess_deleteElements] at ho
    cases ho
  · obtain ⟨hstored, hq⟩ := h.book.stored o ho
    rw [mem_queued] at hq
    show (Urb.postprocess s).offers.lookup o.id = some o
    rw [lookup_offers_postprocess, if_neg hq]
    exact hstored
  · rw [mem_queued, postprocess_deleteElements]
    exact List.not_mem_nil
  · rw [lookup_slaveDict_postprocess] at hl
    split_ifs at hl
    have hown := h.own sid sl o hl ho
    exact ⟨hissued _ hown.issued, hown.slave, fun o' ho' => hown.unique o' (hlook _ _ ho')⟩

lemma finish (native : Bool) : BookSound out (finish native s) := by
  cases native with
  | true => exact h.postprocess
  | false => exact h

end

/-! ## Offer rounds -/

lemma not_issued_next (b : OfferBook) : ¬ b.Issued (offerId b.frameworkId (b.lastOfferId + 1)) := by
  rintro ⟨n, hn, he⟩
  have := offerId_injective b.frameworkId he
  omega

lemma storeOffer {o : Offer} (h : BookSound out s)
    (hid : o.id = offerId s.frameworkId (s.lastOfferId + 1)) :
    BookSound (o :: out) (s.storeOffer o) := by
  have hnew : ¬ s.offerBook.Issued o.id := hid ▸ not_issued_next s.offerBook
  have hmono : ∀ oid, s.offerBook.Issued oid → (s.storeOffer o).offerBook.Issued oid :=
    fun oid ⟨n, hn, he⟩ => ⟨n, Nat.le_succ_of_le hn, he⟩
  have hkeep : ∀ oid, s.offerBook.Issued oid →
      (s.storeOffer o).offers.lookup oid = s.offers.lookup oid := by
    intro oid hoid
    rw [Service.storeOffer_offers, lookup_insert_ne]
    rintro rfl
    exact hnew hoid
  refine ⟨⟨fun oid hoid => ?_, fun oid hoid => hmono _ (h.book.queued oid hoid), fun o' ho' => ?_⟩,
    fun sid sl o' hl ho' => ?_⟩
  · rcases (mem_insert _).mp hoid with rfl | hoid
    · exact ⟨s.lastOfferId + 1, Nat.le_refl _, hid⟩
    · exact hmono _ (h.book.issued oid hoid)
  · rcases List.mem_cons.mp ho' with rfl | ho'
    · exact ⟨lookup_insert _, fun hq => hnew (h.book.queued _ hq)⟩
    · obtain ⟨hstored, hq⟩ := h.book.stored o' ho'
      exact ⟨(hkeep _ (h.book.issued _ (mem_of_lookup hstored))).trans hstored, hq⟩
  · have hown := h.own sid sl o' hl ho'
    refine ⟨hmono _ hown.issued, hown.slave, fun o'' ho'' => hown.unique o'' ?_⟩
    exact (hkeep _ hown.issued).symm.trans ho''

lemma markOffered {sid : String} {o : Offer} (h : BookSound out s) (ho : o ∈ out)
    (hsid : isPlaceholder sid = false → o.slaveId = sid) :
    BookSound out (s.modifySlave sid (Slave.markOffered o)) := by
  refine ⟨h.book, fun k sl o' hl ho' => ?_⟩
  rcases lookup_modify_cases hl with ⟨hk, sl', -, rfl⟩ | ⟨-, hl⟩
  · cases ho'
    subst hk
    have hstored := (h.book.stored o ho).1
    refine ⟨h.book.issued _ (mem_of_lookup hstored), hsid, fun o' ho' => ?_⟩
    exact Option.some.inj (ho'.symm.trans hstored)
  · exact h.own k sl o' hl ho'

lemma generateOffers {now : ℚ} (h : BookSound (outstanding s.wire) s) :
    BookSound (outstanding (generateOffers now s).wire) (generateOffers now s) := by
  let Kept (r : OfferRound) : Prop :=
    BookSound (r.offers ++ outstanding s.wire) r.service ∧ r.service.wire = s.wire
  have hstore : ∀ (r : OfferRound) (sid : String) (slave : Slave), Kept r →
      BookSound (r.offers ++ [r.service.makeOffer sid slave] ++ outstanding s.wire)
        (r.service.storeOffer (r.service.makeOffer sid slave)) := by
    intro r sid slave hr
    refine (hr.1.storeOffer (o := r.service.makeOffer sid slave) rfl).mono fun o ho => ?_
    simp only [List.mem_append, List.mem_cons, List.not_mem_nil, or_false] at ho ⊢
    rcases ho with (ho | ho) | ho
    · exact .inr (.inl ho)
    · exact .inl ho
    · exact .inr (.inr ho)
  have hround : Kept (offerRound now s) := by
    refine offerRound_inv (I := Kept) ⟨⟨⟨h.book.issued, h.book.queued, h.book.stored⟩, h.own⟩, rfl⟩
      (fun sid r hr => ?_) (fun _ _ hr => ⟨⟨hr.1.book, hr.1.own⟩, hr.2⟩)
      fun r hr => ⟨hstore r _ _ hr, hr.2⟩
    unfold offerFromSlave
    split
    · exact hr
    · next slave _ =>
        split_ifs
        · refine ⟨(hstore r sid slave hr).markOffered ?_ fun hp => makeOffer_slaveId hp _ _, hr.2⟩
          simp
        · exact hr
        · exact ⟨hr.1, hr.2⟩
  unfold Urb.generateOffers
  dsimp only
  split_ifs with hnil
  · rw [hround.2]
    have hsound := hround.1
    rwa [hnil, List.nil_append] at hsound
  · have hout : outstanding ((offerRound now s).service.send
        (.resourceOffers (offerRound now s).offers)).wire =
          (offerRound now s).offers ++ outstanding s.wire := by
      rw [← hround.2]
      rfl
    rw [hout]
    exact hround.1.send _

/-! ## LaunchTasks messages -/

lemma refuseOffer {now : ℚ} {refuse : Option ℚ} {oid : String} {r : Refusal}
    (h : BookSound out r.service) (hout : ∀ o ∈ out, o.id ≠ oid) :
    BookSound out (refuseOffer now refuse r oid).service := by
  refine (refuseOffer_keeps (I := fun s => BookSound out s ∧ s.offers = r.service.offers)
    (fun _ _ hs => ⟨⟨hs.1.book, hs.1.own⟩, hs.2⟩) (fun hoid s hs => ?_) (fun k s hs => ?_)
    (fun k g s hg hs => ?_) (fun _ _ hs => ⟨⟨hs.1.book, hs.1.own⟩, hs.2⟩)
    (fun c s hs => ?_) now refuse ⟨h, rfl⟩).1
  · exact ⟨hs.1.queueOffer (by rw [hs.2]; exact hoid) hout, hs.2⟩
  · exact ⟨hs.1.of_slaves (offerBook_addDeleteElement rfl s) fun _ sl hl o ho => ⟨sl, hl, ho⟩, hs.2⟩
  · exact ⟨hs.1.modifySlave fun sl => (hg sl).offer, hs.2⟩
  · exact ⟨hs.1.send _, hs.2⟩

lemma launchTask {now : ℚ} {req : LaunchTasksRequest} {l : LaunchedTask} {st : LaunchState}
    (h : BookSound out st.service) : BookSound out (launchTask now req l st).1.service := by
  rcases launchTask_offers now req l st with hq | ⟨sid, -, -, hq⟩
  · exact h.of_quiet hq
  · have hen : BookSound out (st.service.modifySlave sid Slave.enable) := h.modifySlave fun _ => rfl
    exact hen.of_quiet hq

lemma launchTasks {now : ℚ} {req : LaunchTasksRequest} (h : BookSound (outstanding s.wire) s) :
    BookSound (outstanding (launchTasks now req s).1.wire) (launchTasks now req s).1 := by
  let out := outstanding (launchStart req s).service.wire
  have hopen : ∀ o ∈ out, o ∈ outstanding s.wire ∧ o.id ∉ req.offerIds :=
    fun o ho => Ledger.mem_pending_answer.mp ho
  have hstart : BookSound out (launchStart req s).service := by
    have hsent := (h.mono fun o ho => (hopen o ho).1).send (.launchTasksReceived req.offerIds req.infos)
    exact ⟨hsent.book, hsent.own⟩
  have hout : outstanding (Urb.launchTasks now req s).1.wire = out :=
    congrArg OfferBook.outstanding (launchTasks_book now req s)
  rw [hout]
  refine launchTasks_rule hstart (fun _ _ _ hst => hst.launchTask) fun remaining s' hnamed hs' => ?_
  refine processRemainingOffers_rule (I := BookSound out) hs'
    (fun oid hoid r hr => hr.refuseOffer fun o ho he => ?_) fun _ _ hs => ⟨hs.book, hs.own⟩
  -- an offer that is still out has not been named
  exact (hopen o ho).2 (he ▸ hnamed oid hoid)

/-! ## The other events -/

lemma reviveOffers (h : BookSound out s) : BookSound out (reviveOffers s) := by
  refine h.of_slaves rfl fun sid sl' hl o ho => ?_
  rw [Urb.reviveOffers, lookup_mapVals] at hl
  obtain ⟨sl, hl', rfl⟩ := map_eq_some_iff.mp hl
  exact ⟨sl, hl', ho⟩

lemma enterSlave {reg : RunnerRegistration} (h : BookSound out s) :
    BookSound out (enterSlave reg s) := by
  refine h.of_slaves (enterSlave_book reg s) fun sid sl' hl o ho => ?_
  rcases lookup_insert_cases hl with ⟨-, rfl⟩ | ⟨-, hl⟩
  · cases ho
  · exact ⟨sl', hl, ho⟩

lemma registerExecutorRunner {reg : RunnerRegistration} (h : BookSound out s) :
    BookSound out (registerExecutorRunner reg s).1 := by
  obtain ⟨s₁, hq, ⟨he, -⟩ | ⟨-, he⟩⟩ := registerExecutorRunner_offers reg s
  · rw [he]
    exact h.enterSlave.of_quiet hq
  · rw [he]
    exact (h.enterSlave.of_quiet hq).modifySlave fun _ => rfl

lemma reregisterExecutor {reg : ExecutorReregistration} (h : BookSound out s) :
    BookSound out (reregisterExecutor reg s).1 := by
  obtain ⟨s₁, hq, he | ⟨sid, slave, -, he⟩⟩ := reregisterExecutor_offers reg s
  · rw [he]
    exact h.of_quiet hq
  · rw [he]
    exact (h.of_quiet hq).modifySlave fun _ => rfl

lemma deleteJob {job : String} (h : BookSound out s) : BookSound out (deleteJob job s).1 := by
  refine deleteJob_keeps (fun sid slave s _ _ hs => ?_) (fun _ _ _ hs => ⟨hs.book, hs.own⟩)
    (fun _ _ _ _ _ hs => hs.of_quiet .lost) h
  refine deleteSlave_keeps (fun _ s hs => ?_)
    (fun _ _ _ hg hs => hs.modifySlave fun sl => (hg sl).offer)
    (fun _ _ hs => ⟨hs.book, hs.own⟩) sid slave hs
  exact hs.of_slaves (offerBook_addDeleteElement rfl s) fun _ sl hl o ho => ⟨sl, hl, ho⟩

lemma step (h : BookSound (outstanding s.wire) s) (e : Event) :
    BookSound (outstanding (step s e).wire) (step s e) := by
  have hstep := step_offers s e
  generalize Urb.step s e = s' at hstep ⊢
  cases hstep with
  | @quiet _ s₁ native hq =>
    have hout : outstanding s₁.wire = outstanding s.wire := congrArg OfferBook.outstanding hq.book
    rw [outstanding_finish, hout]
    exact (h.of_quiet hq).finish native
  | round now => exact h.generateOffers
  | launch native now req _ =>
    rw [outstanding_finish]
    exact h.launchTasks.finish native
  | revive =>
    rw [outstanding_finish]
    exact h.reviveOffers.finish true
  | runner reg _ =>
    have hout := congrArg OfferBook.outstanding (registerExecutorRunner_book reg s)
    rw [outstanding_finish, show outstanding (Urb.registerExecutorRunner reg s).1.wire =
      outstanding s.wire from hout]
    exact h.registerExecutorRunner.finish true
  | reregister reg =>
    have hout := congrArg OfferBook.outstanding (reregisterExecutor_book reg s)
    rw [outstanding_finish, show outstanding (Urb.reregisterExecutor reg s).1.wire =
      outstanding s.wire from hout]
    exact h.reregisterExecutor.finish true
  | jobGone job =>
    have hout := congrArg OfferBook.outstanding (deleteJob_book job s)
    rw [show outstanding (Urb.deleteJob job s).1.wire = outstanding s.wire from hout]
    exact h.deleteJob

end BookSound

lemma bookSound_fresh (config : Config) (frameworkId hostname : String) (http : Bool) :
    BookSound [] (.fresh config frameworkId hostname http) := by
  refine ⟨⟨fun _ h => absurd h (notMem_empty _), fun _ h => ?_, fun _ h => ?_⟩, fun _ _ _ hl => ?_⟩
  · cases h
  · cases h
  · cases hl

/-! ## Slaves that the tasks of a message leave alone -/

def isOfferFor (sid : String) (offers : Dict String Offer) (oid : String) : Bool :=
  (offers.lookup oid).map (·.slaveId) = some sid

lemma isOfferFor_iff {sid : String} {offers : Dict String Offer} {oid : String} :
    isOfferFor sid offers oid ↔ ∃ o, offers.lookup oid = some o ∧ o.slaveId = sid := by
  rw [isOfferFor, decide_eq_true_eq, map_eq_some_iff]

structure Untouched (sid : String) (s : Service) (st : LaunchState) : Prop where
  sound : BookSound [] st.service
  offers : st.service.offers = s.offers
  config : st.service.config = s.config
  slave : st.service.slaveDict.lookup sid = s.slaveDict.lookup sid
  unused : ∀ oid ∈ st.used, isOfferFor sid s.offers oid = false

section Untouched

variable {sid : String} {s : Service} {now : ℚ} {req : LaunchTasksRequest}

lemma Untouched.launchTask {l : LaunchedTask} {st : LaunchState} (h : Untouched sid s st)
    (href : l.info.slaveRef = some sid → s.slaveDict.lookup sid = none) :
    Untouched sid s (launchTask now req l st).1 := by
  have hbook := launchTask_book now req l st
  refine ⟨h.sound.launchTask, (congrArg OfferBook.offers hbook).trans h.offers,
    (congrArg OfferBook.config hbook).trans h.config, ?_, fun oid hoid => ?_⟩
  · rw [launchTask_slaveDict, ← h.slave]
    by_cases hsid : l.info.slaveRef = some sid
    · have hnone : sid ∉ st.service.slaveDict := by
        rw [← lookup_eq_none, h.slave]
        exact href hsid
      rw [lookup_eq_none.mpr hnone, lookup_eq_none, mem_keys, keys_launchedSlaves]
      exact hnone
    · exact lookup_launchedSlaves_ne hsid _
  · rcases mem_used_launchTask hoid with hused | ⟨k, slave, o, href', hp', hs, ho, rfl⟩
    · exact h.unused oid hused
    · -- the offer is the current one of the slave `k`, hence no offer for `sid`
      have hown := h.sound.own k slave o hs ho
      rw [← Bool.not_eq_true]
      intro hfor
      obtain ⟨o', ho', hsid⟩ := isOfferFor_iff.mp hfor
      rw [← h.offers] at ho'
      rw [hown.unique o' ho', hown.slave hp'] at hsid
      subst hsid
      rw [h.slave, href href'] at hs
      cases hs

lemma untouched_loop (hb : BookSound (outstanding s.wire) s)
    (hnot : ∀ t ∈ req.infos, t.slaveRef = some sid → s.slaveDict.lookup sid = none) :
    Untouched sid s (forEach (launchTask now req) req.tasks (launchStart req s)).1 := by
  have hnone : BookSound [] s := hb.mono fun _ h => by cases h
  have hsent := hnone.send (.launchTasksReceived req.offerIds req.infos)
  refine forEach_inv (I := Untouched sid s) (fun l hl st hst => ?_)
    ⟨⟨hsent.book, hsent.own⟩, rfl, rfl, rfl, fun _ h => by cases h⟩
  exact hst.launchTask (hnot l.info (List.mem_map_of_mem hl))

end Untouched

end Urb
