/-
# `Urb.SingleUse` — an offer id is good for one message

A second LaunchTasks message with the same id should find nothing.  The service removes
an offer in one place only, where `__process_remaining_offers` refuses it without a
refuse period or for a slave that runs tasks.  An offer that a task has USED is not
refused, so it stays, and so does one that is declined for a while.  And `launch_tasks`
does not look its offers up before it launches: a message with tasks launches them
whatever ids it names.

`UsesUp oid` is what makes the id `oid` single use:

    first message to name it    refuses it, on a branch that removes it
    every later one             carries no tasks

-/
import Urb.BookKeeping

namespace Urb

open Block List AList

variable {refuse : Option ℚ}

/-! ## The property -/

structure Inert (oid : String) (now : ℚ) (req : LaunchTasksRequest) (s : Service) : Prop where
  noTask : ∀ tid r, (step s (.launchTasks true now req)).taskDict.lookup tid = some r →
    s.taskDict.lookup tid = some r
  noDebit : ∀ sid sl', (step s (.launchTasks true now req)).slaveDict.lookup sid = some sl' →
    ∃ sl, s.slaveDict.lookup sid = some sl ∧ sl.SameLoad sl'
  notRefused : launchTasks now req s = (processRemainingOffers now req.refuseSeconds
    (req.offerIds.dedup.filter (· ≠ oid)) (launchStart req s).service, .next)

/-! ## The condition -/

def OfferBook.NotAhead (oid : String) (b : OfferBook) : Prop :=
  ∀ n, b.lastOfferId < n → oid ≠ offerId b.frameworkId n

def Removes (refuse : Option ℚ) (sid : String) (d : Dict String Slave) : Prop :=
  (∃ slave, d.lookup sid = some slave ∧ 0 < slave.taskCount) ∨
    refuse = none ∧ (sid ∈ d ∨ isPlaceholder sid = true)

structure RefusedForGood (req : LaunchTasksRequest) (s : Service) (o : Offer) : Prop where
  through : LaunchesThrough req.infos s.slaveDict
  unused : o.slaveId ∈ s.slaveDict → ∀ t ∈ req.infos, t.slaveRef ≠ some o.slaveId
  removes : Removes (refusePeriod req.refuseSeconds) o.slaveId s.slaveDict

def UsesUp (oid : String) (s : Service) : Event → Prop
  | .launchTasks native _ req => s.active = true → oid ∈ req.offerIds → native = true ∧
      (oid ∈ answered s.wire → req.tasks = []) ∧
      (oid ∉ answered s.wire → s.offerBook.NotAhead oid ∧
        ∀ o, s.offers.lookup oid = some o → RefusedForGood req s o)
  | _ => True

/-! ## The invariant -/

def OfferBook.Spent (oid : String) (b : OfferBook) : Prop :=
  oid ∈ b.answered → b.offers.lookup oid = none ∧ b.NotAhead oid

section Steps

variable {oid : String} {s : Service}

lemma spent_postprocess (h : s.offerBook.Spent oid) : (postprocess s).offerBook.Spent oid := by
  rw [postprocess_book]
  intro hans
  obtain ⟨hnone, hahead⟩ := h hans
  refine ⟨?_, hahead⟩
  show (postprocess s).offers.lookup oid = none
  rw [lookup_offers_postprocess]
  split_ifs
  · rfl
  · exact hnone

lemma spent_finish (h : s.offerBook.Spent oid) (native : Bool) :
    (finish native s).offerBook.Spent oid := by
  cases native with
  | true => exact spent_postprocess h
  | false => exact h

lemma spent_storeOffer {o : Offer} (h : s.offerBook.Spent oid)
    (hid : o.id = offerId s.frameworkId (s.lastOfferId + 1)) :
    (s.storeOffer o).offerBook.Spent oid := by
  intro hans
  obtain ⟨hnone, hahead⟩ := h hans
  refine ⟨?_, fun n hn => hahead n (Nat.lt_of_succ_lt hn)⟩
  show (s.offers.insert o.id o).lookup oid = none
  rw [lookup_insert_ne]
  · exact hnone
  · rw [hid]
    exact hahead _ (Nat.lt_succ_self _)

lemma spent_generateOffers {now : ℚ} (h : s.offerBook.Spent oid) :
    (generateOffers now s).offerBook.Spent oid := by
  have hround : (offerRound now s).service.offerBook.Spent oid := by
    refine offerRound_inv (I := fun r => r.service.offerBook.Spent oid) h (fun sid r hr => ?_)
      (fun _ _ hr => hr) fun r hr => spent_storeOffer hr rfl
    unfold offerFromSlave
    split
    · exact hr
    · split_ifs
      · exact spent_storeOffer hr rfl
      · exact hr
      · exact hr
  exact generateOffers_of_round (I := fun s => s.offerBook.Spent oid) (fun _ _ h => h) hround

/-! ## LaunchTasks messages -/

section Launch

variable {now : ℚ} {req : LaunchTasksRequest}

lemma queued_refuseOffer {r : Refusal} {o : Offer} (ho : r.service.offers.lookup oid = some o)
    (hrem : Removes refuse o.slaveId r.service.slaveDict) :
    .offer oid ∈ (refuseOffer now refuse r oid).service.deleteElements := by
  have hlast : ∀ l : List DeleteElement, .offer oid ∈ l ++ [.offer oid] :=
    fun l => mem_append_right _ mem_cons_self
  rcases hrem with ⟨slave, hs, hcount⟩ | ⟨rfl, hreg⟩
  · simp only [refuseOffer, ho, hs, refuseSlave, gt_iff_lt, if_pos hcount]
    exact hlast _
  · cases hs : r.service.slaveDict.lookup o.slaveId with
    | none =>
      have hp := hreg.resolve_left (lookup_eq_none.mp hs)
      simp only [refuseOffer, ho, hs, if_pos hp, refusePlaceholder]
      exact hlast _
    | some slave =>
      simp only [refuseOffer, ho, hs, refuseSlave]
      split_ifs
      · exact hlast _
      · rw [deleteSlave_deleteElements]
        exact mem_append_left _ (hlast _)
      · exact hlast _

lemma removes_refuseOffer {refuse' : Option ℚ} {r : Refusal} {sid k : String}
    (h : Removes refuse sid r.service.slaveDict) :
    Removes refuse sid (refuseOffer now refuse' r k).service.slaveDict := by
  refine refuseOffer_keeps (I := fun s' => Removes refuse sid s'.slaveDict) (fun _ _ h => h)
    (fun _ _ h => h) (fun _ _ h => h) (fun k g s' hg h => ?_) (fun _ _ h => h) (fun _ _ h => h)
    now refuse' h
  rcases h with ⟨slave, hs, hcount⟩ | ⟨hnone, hreg⟩
  · rw [Service.modifySlave_slaveDict]
    by_cases hk : sid = k
    · refine .inl ⟨g slave, ?_, (hg slave).taskCount ▸ hcount⟩
      rw [← hk, lookup_modify_self, hs]
      rfl
    · exact .inl ⟨slave, (lookup_modify_ne hk _ _).trans hs, hcount⟩
  · exact .inr ⟨hnone, hreg.imp_left mem_modify.mpr⟩

lemma removes_congr {sid : String} {d d' : Dict String Slave} (h : d'.lookup sid = d.lookup sid)
    : Removes refuse sid d' ↔ Removes refuse sid d := by
  simp only [Removes, ← lookup_isSome, h]

lemma queued_processRemainingOffers {remaining : List String} {o : Offer} (hmem : oid ∈ remaining)
    (ho : s.offers.lookup oid = some o) (hrem : Removes (refusePeriod refuse) o.slaveId s.slaveDict) :
    .offer oid ∈ (processRemainingOffers now refuse remaining s).deleteElements := by
  let Pending (rest : List String) (s' : Service) : Prop := s'.offers = s.offers ∧
    Removes (refusePeriod refuse) o.slaveId s'.slaveDict ∧
    (oid ∈ rest ∨ .offer oid ∈ s'.deleteElements)
  have hend : Pending [] (processRemainingOffers now refuse remaining s) := by
    refine processRemainingOffers_rest (I := Pending) ⟨rfl, hrem, .inl hmem⟩
      (fun k rest r hr => ?_) fun _ _ hs => hs
    obtain ⟨hoffers, hrem', hqueued⟩ := hr
    refine ⟨(congrArg OfferBook.offers (refuseOffer_book now _ r k)).trans hoffers,
      removes_refuseOffer hrem', ?_⟩
    by_cases hk : oid = k
    · subst hk
      exact .inr (queued_refuseOffer (hoffers ▸ ho) hrem')
    · refine hqueued.imp (fun hin => (mem_cons.mp hin).resolve_left hk) fun hq => ?_
      exact refuseOffer_keeps (I := fun s' => .offer oid ∈ s'.deleteElements) (fun _ _ h => h)
        (fun _ _ h => mem_append_left _ h) (fun _ _ h => mem_append_left _ h)
        (fun _ _ _ _ h => h) (fun _ _ h => h) (fun _ _ h => h) now _ hq
  exact hend.2.2.resolve_left not_mem_nil

lemma queued_launchTasks {o : Offer} (hb : BookSound (outstanding s.wire) s)
    (hnamed : oid ∈ req.offerIds) (ho : s.offers.lookup oid = some o) (h : RefusedForGood req s o) :
    .offer oid ∈ (launchTasks now req s).1.deleteElements := by
  let r := forEach (launchTask now req) req.tasks (launchStart req s)
  have hloop : Untouched o.slaveId s r.1 := by
    refine untouched_loop hb fun t ht href => ?_
    by_contra hreg
    exact h.unused (by rwa [lookup_eq_none, not_not] at hreg) t ht href
  have hnext : r.2 = .next := (forEach_launchTask_next_iff now req _ _).mpr h.through
  have hremaining : oid ∈ req.remaining r.1.used := by
    refine mem_filter.mpr ⟨mem_dedup.mpr hnamed, ?_⟩
    rw [decide_eq_true_eq]
    intro hused
    have hno := hloop.unused oid hused
    rw [isOfferFor_iff.mpr ⟨o, ho, rfl⟩] at hno
    cases hno
  unfold launchTasks
  dsimp only
  rw [if_pos hnext]
  exact queued_processRemainingOffers hremaining (hloop.offers ▸ ho)
    ((removes_congr hloop.slave).mpr h.removes)

lemma answered_launchTasks (now : ℚ) (req : LaunchTasksRequest) (s : Service) :
    answered (launchTasks now req s).1.wire = req.offerIds ++ answered s.wire :=
  congrArg OfferBook.answered (launchTasks_book now req s)

lemma notAhead_launchTasks (h : s.offerBook.NotAhead oid) :
    (launchTasks now req s).1.offerBook.NotAhead oid :=
  (congrArg (OfferBook.NotAhead oid) (launchTasks_book now req s)).mpr h

lemma spent_launchTasks {native : Bool} (h : s.offerBook.Spent oid)
    (hb : BookSound (outstanding s.wire) s) (hactive : s.active)
    (hg : UsesUp oid s (.launchTasks native now req)) :
    (finish native (launchTasks now req s).1).offerBook.Spent oid := by
  have hkeep : s.offers.lookup oid = none ∧ s.offerBook.NotAhead oid →
      (launchTasks now req s).1.offerBook.Spent oid := by
    rintro ⟨hnone, hahead⟩ -
    refine ⟨?_, notAhead_launchTasks hahead⟩
    exact (congrArg (fun b : OfferBook => b.offers.lookup oid) (launchTasks_book now req s)).trans hnone
  by_cases hans : oid ∈ answered s.wire
  · exact spent_finish (hkeep (h hans)) native
  · by_cases hnamed : oid ∈ req.offerIds
    · obtain ⟨rfl, -, hfirst⟩ := hg hactive hnamed
      obtain ⟨hahead, hrefused⟩ := hfirst hans
      cases ho : s.offers.lookup oid with
      | none => exact spent_finish (hkeep ⟨ho, hahead⟩) true
      | some o =>
        -- the removal is queued and the post-processor carries it out
        have hqueued : .offer oid ∈ (launchTasks now req s).1.deleteElements :=
          queued_launchTasks hb hnamed ho (hrefused o ho)
        show (postprocess (launchTasks now req s).1).offerBook.Spent oid
        rw [postprocess_book]
        refine fun _ => ⟨?_, notAhead_launchTasks hahead⟩
        show (postprocess (launchTasks now req s).1).offers.lookup oid = none
        rw [lookup_offers_postprocess, if_pos hqueued]
    · refine spent_finish (fun hmem => ?_) native
      have hmem' : oid ∈ answered (launchTasks now req s).1.wire := hmem
      rw [answered_launchTasks, mem_append] at hmem'
      exact absurd hmem' (not_or.mpr ⟨hnamed, hans⟩)

/-! ## Messages that name an answered id -/

lemma foldl_refuseOffer_filter (l : List String) {r : Refusal}
    (h : r.service.offers.lookup oid = none) :
    l.foldl (refuseOffer now refuse) r = (l.filter (· ≠ oid)).foldl (refuseOffer now refuse) r := by
  induction l generalizing r with
  | nil => rfl
  | cons k l ih =>
    have hnone : (refuseOffer now refuse r k).service.offers.lookup oid = none := by
      have hoffers : (refuseOffer now refuse r k).service.offers = r.service.offers :=
        congrArg OfferBook.offers (refuseOffer_book now refuse r k)
      rw [hoffers]
      exact h
    rw [foldl_cons, ih hnone]
    by_cases hk : k = oid
    · subst hk
      have hskip : refuseOffer now refuse r k = r := by
        simp only [refuseOffer, h]
      rw [hskip, filter_cons_of_neg (by simp)]
    · rw [filter_cons_of_pos (by simpa using hk), foldl_cons]

lemma launchTasks_nil (h : req.tasks = []) : launchTasks now req s =
    (processRemainingOffers now req.refuseSeconds req.offerIds.dedup (launchStart req s).service,
      .next) := by
  have hremaining : req.remaining [] = req.offerIds.dedup := by
    simp [LaunchTasksRequest.remaining]
  simp only [launchTasks, h, forEach_nil, if_true]
  rw [show (launchStart req s).used = [] from rfl, hremaining]

lemma processRemainingOffers_slaves (refuse : Option ℚ) (remaining : List String) :
    SlavesRel Slave.SameLoad s (processRemainingOffers now refuse remaining s) := by
  refine processRemainingOffers_rule (I := SlavesRel Slave.SameLoad s) (.of_eq .refl rfl)
    (fun oid _ r hr => ?_) fun _ _ h => h
  refine refuseOffer_keeps (fun _ _ h => h) (fun _ _ h => h) (fun _ _ h => h)
    (fun k g s' hg h => ?_) (fun _ _ h => h) (fun _ _ h => h) now _ hr
  exact h.trans (fun _ _ _ => .trans) (SlavesRel.modifySlave .refl fun sl _ => hg sl)

lemma inert_of_not_stored (hactive : s.active) (htasks : req.tasks = [])
    (hnone : s.offers.lookup oid = none) : Inert oid now req s := by
  let s₁ := processRemainingOffers now req.refuseSeconds req.offerIds.dedup (launchStart req s).service
  have hstep : step s (.launchTasks true now req) = postprocess s₁ := by
    simp only [step, whenActive, hactive, if_true, finish, launchTasks_nil htasks]
    rfl
  have htaskDict : s₁.taskDict = s.taskDict :=
    processRemainingOffers_keeps (I := fun s' => s'.taskDict = s.taskDict) (fun _ _ h => h)
      (fun _ _ h => h) (fun _ _ h => h) (fun _ _ h => h) (fun _ _ _ h => h) (fun _ _ h => h)
      (fun _ _ h => h) now _ _ rfl
  refine ⟨fun tid r hr => ?_, fun sid sl' hl => ?_, ?_⟩
  · rw [hstep, lookup_taskDict_postprocess] at hr
    split_ifs at hr
    rwa [htaskDict] at hr
  · rw [hstep, lookup_slaveDict_postprocess] at hl
    split_ifs at hl
    exact (processRemainingOffers_slaves (s := (launchStart req s).service) _ _).lookup hl
  · rw [launchTasks_nil htasks, processRemainingOffers, processRemainingOffers,
      foldl_refuseOffer_filter req.offerIds.dedup (r := { service := (launchStart req s).service }) hnone]

end Launch

lemma spent_step {e : Event} (h : s.offerBook.Spent oid) (hb : BookSound (outstanding s.wire) s)
    (hg : UsesUp oid s e) : (step s e).offerBook.Spent oid := by
  have hstep := step_offers s e
  generalize step s e = s' at hstep ⊢
  cases hstep with
  | quiet native hq => exact spent_finish (hq.book ▸ h) native
  | round now => exact spent_generateOffers h
  | launch native now req hactive => exact spent_launchTasks h hb hactive hg
  | revive => exact spent_finish (s := reviveOffers s) h true
  | runner reg _ => exact spent_finish ((registerExecutorRunner_book reg s).symm ▸ h) true
  | reregister reg => exact spent_finish ((reregisterExecutor_book reg s).symm ▸ h) true
  | jobGone job => exact (deleteJob_book job s).symm ▸ h

end Steps

theorem run_singleUse {config : Config} {frameworkId hostname : String} {http : Bool}
    {es : List Event} {oid : String}
    (hes : Machine.Guarded step (UsesUp oid) (.fresh config frameworkId hostname http) es) :
    (∀ fs, fs <+: es → oid ∈ answered (runFrom (.fresh config frameworkId hostname http) fs).wire →
      oid ∉ (runFrom (.fresh config frameworkId hostname http) fs).offers) ∧
    ∀ fs native now req gs, es = fs ++ .launchTasks native now req :: gs →
      (runFrom (.fresh config frameworkId hostname http) fs).active = true → oid ∈ req.offerIds →
      oid ∈ answered (runFrom (.fresh config frameworkId hostname http) fs).wire →
      Inert oid now req (runFrom (.fresh config frameworkId hostname http) fs) := by
  let s₀ : Service := .fresh config frameworkId hostname http
  let Kept (s : Service) : Prop := s.offerBook.Spent oid ∧ BookSound (outstanding s.wire) s
  have hstart : Kept s₀ :=
    ⟨fun h => (by cases h), bookSound_fresh config frameworkId hostname http⟩
  have hrun : ∀ fs gs, es = fs ++ gs → Kept (runFrom s₀ fs) := by
    rintro fs gs rfl
    exact Machine.run_inv (fun _ e hs hg => ⟨spent_step hs.1 hs.2 hg, hs.2.step e⟩) hstart
      (Machine.guarded_append.mp hes).1
  constructor
  · rintro fs ⟨gs, rfl⟩ hans
    exact AList.lookup_eq_none.mp ((hrun fs gs rfl).1 hans).1
  · rintro fs native now req gs rfl hactive hnamed hans
    have hlater : UsesUp oid (runFrom s₀ fs) (.launchTasks native now req) :=
      (Machine.guarded_append.mp hes).2.1
    exact inert_of_not_stored hactive ((hlater hactive hnamed).2.1 hans) ((hrun fs _ rfl).1 hans).1

def answeredTwice : List Event :=
  [.generateOffers 1, launchOf ["offer-fw-1"] [oneCpuTask "a" "place-holder-1"],
    launchOf ["offer-fw-1"] []]

theorem run_singleUse_answeredTwice :
    (∀ fs, fs <+: answeredTwice → "offer-fw-1" ∈ answered (runFrom smallService fs).wire →
      "offer-fw-1" ∉ (runFrom smallService fs).offers) ∧
    Inert "offer-fw-1" 0 { offerIds := ["offer-fw-1"] }
      (runFrom smallService (answeredTwice.take 2)) := by
  have hfirst : ∀ o, (runFrom smallService (answeredTwice.take 1)).offers.lookup "offer-fw-1" = some o →
      RefusedForGood { offerIds := ["offer-fw-1"], tasks := [{ info := oneCpuTask "a" "place-holder-1" }] }
        (runFrom smallService (answeredTwice.take 1)) o := by
    intro o ho
    have hslave : ((runFrom smallService (answeredTwice.take 1)).offers.lookup "offer-fw-1").map
        (·.slaveId) = some "place-holder-1" := by
      decide +kernel
    rw [ho] at hslave
    have hsid : o.slaveId = "place-holder-1" := Option.some.inj hslave
    refine ⟨?_, fun hreg => ?_, Or.inr ⟨rfl, Or.inr ?_⟩⟩
    · exact ⟨⟨"place-holder-1", rfl, fun h => absurd h (by decide +kernel)⟩, trivial⟩
    · exact absurd hreg (by rw [hsid]; decide +kernel)
    · rw [hsid]
      decide +kernel
  have hguard : Machine.Guarded step (UsesUp "offer-fw-1") smallService answeredTwice := by
    refine ⟨trivial, fun _ _ => ⟨rfl, fun h => ?_, fun _ => ⟨fun n hn he => ?_, hfirst⟩⟩,
      fun _ _ => ⟨rfl, fun _ => rfl, fun h => ?_⟩, trivial⟩
    · exact absurd h (by decide +kernel)
    · have hone : 1 = n := offerId_injective "fw" (show offerId "fw" 1 = offerId "fw" n from he)
      have hlast : (runFrom smallService (answeredTwice.take 1)).lastOfferId = 1 := by decide +kernel
      have hn' : (runFrom smallService (answeredTwice.take 1)).lastOfferId < n := hn
      omega
    · exact absurd (by decide +kernel) h
  have hrun := run_singleUse hguard
  exact ⟨hrun.1, hrun.2 (answeredTwice.take 2) true 0 { offerIds := ["offer-fw-1"] } [] rfl
    (by decide +kernel) (by decide) (by decide +kernel)⟩

def acceptedTwice : List Event :=
  [runnerUp "7" "c7", .generateOffers 1,
    launchOf ["offer-fw-1"] [oneCpuTask "a" (slaveOf "7" "c7")],
    launchOf ["offer-fw-1"] [oneCpuTask "b" (slaveOf "7" "c7")]]

theorem offer_used_acceptedTwice :
    "offer-fw-1" ∈ answered (runFrom smallService (acceptedTwice.take 3)).wire ∧
    "offer-fw-1" ∈ (runFrom smallService (acceptedTwice.take 3)).offers ∧
    ((runFrom smallService (acceptedTwice.take 3)).slaveDict.lookup (slaveOf "7" "c7")).map (·.cpus) =
      some 3 ∧
    ((runFrom smallService acceptedTwice).slaveDict.lookup (slaveOf "7" "c7")).map (·.cpus) =
      some 2 ∧
    ((runFrom smallService acceptedTwice).taskDict.lookup "b").map (·.state) = some .staging := by
  decide +kernel

end Urb
