/-
# `Urb.Stranded` — a slave is never left out of the offer rounds

The framework hears of a slave if an offer for it is out, or its `offerable` flag is
set, so that a round after its refuse period offers it (`Served`).  A decline of an
offer of a slave that runs tasks clears the flag, and nothing sets it again when the
tasks end.

`Reoffers sid` is what keeps the slave `sid` served.  It restricts LaunchTasks
messages that answer the last open offer of the slave: the loop over the
tasks gets to its end, and

    some task is on the slave     the slave's current offer is the only one named
    no task is on the slave       the slave runs no tasks

and it excludes the deletion of the slave's job.
-/
import Urb.BookKeeping

namespace Urb

open Block List AList Slave OfferBook

/-! ## The property -/

def ServedBy (sid : String) (out : List Offer) (slave : Slave) : Prop :=
  slave.isCommandExecutor = false → slave.offerable = true ∨ ∃ o ∈ out, o.slaveId = sid

def Served (sid : String) (s : Service) : Prop :=
  ∀ slave, s.slaveDict.lookup sid = some slave → ServedBy sid (outstanding s.wire) slave

structure Stranded (sid : String) (s : Service) (slave : Slave) : Prop where
  registered : s.slaveDict.lookup sid = some slave
  noCommand : slave.isCommandExecutor = false
  cpus : 0 < slave.cpus
  mem : 0 < slave.mem
  disk : 0 < slave.disk
  notOfferable : slave.offerable = false
  noOffer : ∀ o ∈ outstanding s.wire, o.slaveId ≠ sid

lemma Served.not_stranded {sid : String} {s : Service} (h : Served sid s) (slave : Slave) :
    ¬ Stranded sid s slave := by
  intro hs
  rcases h slave hs.registered hs.noCommand with hoff | ⟨o, ho, hsid⟩
  · rw [hs.notOfferable] at hoff
    cases hoff
  · exact hs.noOffer o ho hsid

/-! ## The condition -/

def LaunchTasksRequest.offersFor (req : LaunchTasksRequest) (sid : String)
    (offers : Dict String Offer) : List String :=
  req.offerIds.dedup.filter (isOfferFor sid offers)

def AcceptsOn (sid : String) (slave : Slave) (req : LaunchTasksRequest) (s : Service) : Prop :=
  (∃ t ∈ req.infos, t.slaveRef = some sid) ∧
    ∀ oid ∈ req.offersFor sid s.offers, slave.offer.map (·.id) = some oid

def DeclinesOn (native : Bool) (sid : String) (slave : Slave) (req : LaunchTasksRequest)
    (s : Service) : Prop :=
  (∀ t ∈ req.infos, t.slaveRef ≠ some sid) ∧ slave.taskCount ≤ 0 ∧
    (native = true ∨
      slave.refusedCount + (req.offersFor sid s.offers).length ≤ s.config.maxRejectedOffers)

def AnswersWell (native : Bool) (sid : String) (slave : Slave) (req : LaunchTasksRequest)
    (s : Service) : Prop :=
  req.offersFor sid s.offers = [] ∨
    (∃ o ∈ outstanding s.wire, o.slaveId = sid ∧ o.id ∉ req.offerIds) ∨
    LaunchesThrough req.infos s.slaveDict ∧
      (AcceptsOn sid slave req s ∨ DeclinesOn native sid slave req s)

def Reoffers (sid : String) (s : Service) : Event → Prop
  | .launchTasks native _ req => ∀ slave, s.slaveDict.lookup sid = some slave →
      slave.isCommandExecutor = false → AnswersWell native sid slave req s
  | .deleteJob job => sid ∈ s.slaveDict → isSlaveOfJob job sid = false
  | _ => True

def RegistersFully (sid : String) (s : Service) : Event → Prop
  | .registerExecutorRunner reg => s.active = true → reg.slaveId = sid →
      reg.tasks = [] ∧ (registerExecutorRunner reg s).2 = .next
  | _ => True

/-! ## Quiet steps -/

namespace Served

variable {sid : String} {s s' : Service}

lemma of_slaves (h : Served sid s)
    (hout : ∀ o ∈ outstanding s.wire, o.slaveId = sid → o ∈ outstanding s'.wire)
    (hs : ∀ sl', s'.slaveDict.lookup sid = some sl' → sl'.isCommandExecutor = false →
      sl'.offerable ∨ ∃ sl, s.slaveDict.lookup sid = some sl ∧
        sl.isCommandExecutor = false ∧ (sl.offerable → sl'.offerable)) : Served sid s' := by
  intro sl' hl' hc'
  rcases hs sl' hl' hc' with hoff | ⟨sl, hl, hc, hoff⟩
  · exact .inl hoff
  · rcases h sl hl hc with hon | ⟨o, ho, hsid⟩
    · exact .inl (hoff hon)
    · exact .inr ⟨o, hout o ho hsid, hsid⟩

lemma of_quiet (h : Served sid s) (hq : OfferQuiet s s') : Served sid s' := by
  have hout : outstanding s'.wire = outstanding s.wire := congrArg OfferBook.outstanding hq.book
  refine h.of_slaves (fun o ho _ => hout ▸ ho) fun sl' hl' hc' => ?_
  obtain ⟨sl, hl, hsame⟩ := hq.slaves.lookup hl'
  refine .inr ⟨sl, hl, ?_, fun hoff => hsame.offerable.trans hoff⟩
  by_contra hc
  have := hsame.command (Bool.eq_true_of_not_eq_false hc)
  rw [hc'] at this
  cases this

lemma enable (h : Served sid s) (k : String) : Served sid (s.modifySlave k enable) := by
  intro sl hl hc
  rcases lookup_modify_cases hl with ⟨-, sl₀, -, rfl⟩ | ⟨-, hl⟩
  · exact .inl rfl
  · exact h sl hl hc

lemma postprocess (h : Served sid s) : Served sid (postprocess s) := by
  intro sl hl hc
  rw [lookup_slaveDict_postprocess] at hl
  split_ifs at hl
  rw [postprocess_wire]
  exact h sl hl hc

lemma finish (h : Served sid s) (native : Bool) : Served sid (finish native s) := by
  cases native with
  | true => exact h.postprocess
  | false => exact h

/-! ## Offer rounds -/

lemma generateOffers {now : ℚ} (h : Served sid s) (hp : isPlaceholder sid = false) :
    Served sid (generateOffers now s) := by
  let Kept (r : OfferRound) : Prop := r.service.wire = s.wire ∧
    ∀ slave, r.service.slaveDict.lookup sid = some slave →
      ServedBy sid (r.offers ++ outstanding s.wire) slave
  have hmore : ∀ {l : List Offer} {o : Offer} {slave : Slave},
      ServedBy sid (l ++ outstanding s.wire) slave →
      ServedBy sid (l ++ [o] ++ outstanding s.wire) slave := by
    intro l o slave hl hc
    rcases hl hc with hoff | ⟨o', ho', hsid⟩
    · exact .inl hoff
    · refine .inr ⟨o', ?_, hsid⟩
      simp only [mem_append] at ho' ⊢
      exact ho'.imp_left .inl
  have hround : Kept (offerRound now s) := by
    refine offerRound_inv (I := Kept) ⟨rfl, h⟩ (fun k r hr => ?_) (fun _ _ hr => hr)
      fun r hr => ⟨hr.1, fun slave hl => hmore (hr.2 slave hl)⟩
    unfold offerFromSlave
    split
    · exact hr
    · next slave hs =>
        split_ifs
        · refine ⟨hr.1, fun sl hl => ?_⟩
          rcases lookup_modify_cases hl with ⟨rfl, -⟩ | ⟨-, hl⟩
          · refine fun _ => .inr ⟨r.service.makeOffer sid slave, ?_, makeOffer_slaveId hp _ _⟩
            simp
          · exact hmore (hr.2 sl hl)
        · exact hr
        · exact hr
  unfold Urb.generateOffers
  dsimp only
  split_ifs with hnil
  · intro slave hl
    have hserved := hround.2 slave hl
    rwa [hnil, nil_append, ← hround.1] at hserved
  · intro slave hl
    have hserved := hround.2 slave hl
    rwa [← hround.1] at hserved

end Served

/-! ## Declined offers -/

lemma mem_offersFor {req : LaunchTasksRequest} {sid oid : String} {offers : Dict String Offer} :
    oid ∈ req.offersFor sid offers ↔ oid ∈ req.offerIds ∧ isOfferFor sid offers oid := by
  rw [LaunchTasksRequest.offersFor, mem_filter, mem_dedup]

lemma refuseOffer_idle (now : ℚ) (refuse : Option ℚ) {r : Refusal} {oid : String} {o : Offer}
    {slave : Slave} (ho : r.service.offers.lookup oid = some o)
    (hs : r.service.slaveDict.lookup o.slaveId = some slave) (hidle : slave.taskCount ≤ 0) :
    ∃ slave', (refuseOffer now refuse r oid).service.slaveDict.lookup o.slaveId = some slave' ∧
      slave'.taskCount = slave.taskCount ∧ slave'.refusedCount = slave.refusedCount + 1 ∧
      (slave'.offerable ∨ r.service.config.maxRejectedOffers < slave.refusedCount + 1 ∧
        .slave o.slaveId ∈ (refuseOffer now refuse r oid).service.deleteElements) := by
  have hrefused := lookup_modify_of_some hs (refused (now + refuse.getD frameworkOfferMinWait))
  simp only [refuseOffer, ho, hs, refuseSlave, if_neg (not_lt.mpr hidle)]
  split_ifs with hcount
  · refine ⟨{ slave.refused (now + refuse.getD frameworkOfferMinWait) with offerable := false },
      ?_, rfl, rfl, .inr ⟨?_, ?_⟩⟩
    · rw [deleteSlave_slaveDict]
      refine lookup_modify_of_some ?_ _
      cases refuse with
      | none => exact hrefused
      | some period => exact hrefused
    · cases refuse with
      | none => exact hcount
      | some period => exact hcount
    · rw [deleteSlave_deleteElements]
      exact mem_append_right _ mem_cons_self
  · refine ⟨slave.refused (now + refuse.getD frameworkOfferMinWait), ?_, rfl, rfl, .inl rfl⟩
    cases refuse with
    | none => exact hrefused
    | some period => exact hrefused

structure Declining (native : Bool) (sid : String) (s : Service) (rest : List String)
    (s' : Service) : Prop where
  offers : s'.offers = s.offers
  config : s'.config = s.config
  idle : ∀ slave, s'.slaveDict.lookup sid = some slave → slave.taskCount ≤ 0 ∧
    (native = true ∨ slave.refusedCount + (rest.filter (isOfferFor sid s.offers)).length ≤
      s.config.maxRejectedOffers)
  handled : (∃ oid ∈ rest, isOfferFor sid s.offers oid = true) ∨
    ∀ slave, s'.slaveDict.lookup sid = some slave →
      slave.offerable = true ∨ (native = true ∧ .slave sid ∈ s'.deleteElements)

namespace Declining

variable {native : Bool} {sid oid : String} {s : Service} {rest : List String} {now : ℚ}
  {refuse : Option ℚ} {r : Refusal}

variable (h : Declining native sid s (oid :: rest) r.service)
include h

lemma refuseOffer_other (hown : isOfferFor sid s.offers oid = false) :
    Declining native sid s rest (refuseOffer now refuse r oid).service := by
  have hbook := refuseOffer_book now refuse r oid
  have hsame : (Urb.refuseOffer now refuse r oid).service.slaveDict.lookup sid =
      r.service.slaveDict.lookup sid := by
    refine refuseOffer_slaves now refuse r oid fun o ho hsid => ?_
    rw [h.offers] at ho
    rw [isOfferFor_iff.mpr ⟨o, ho, hsid⟩] at hown
    cases hown
  refine ⟨(congrArg OfferBook.offers hbook).trans h.offers,
    (congrArg OfferBook.config hbook).trans h.config, fun slave hl => ?_, ?_⟩
  · rw [hsame] at hl
    have hidle := h.idle slave hl
    rwa [filter_cons_of_neg (by rw [hown]; simp)] at hidle
  · rcases h.handled with ⟨oid', hmem, hown'⟩ | hdone
    · rcases mem_cons.mp hmem with rfl | hmem
      · rw [hown] at hown'
        cases hown'
      · exact .inl ⟨oid', hmem, hown'⟩
    · refine .inr fun slave hl => ?_
      rw [hsame] at hl
      refine (hdone slave hl).imp_right fun hq => ⟨hq.1, ?_⟩
      exact refuseOffer_keeps (I := fun s' => .slave sid ∈ s'.deleteElements) (fun _ _ h => h)
        (fun _ _ h => mem_append_left _ h) (fun _ _ h => mem_append_left _ h)
        (fun _ _ _ _ h => h) (fun _ _ h => h) (fun _ _ h => h) now refuse hq.2

lemma refuseOffer_own (hown : isOfferFor sid s.offers oid) :
    Declining native sid s rest (refuseOffer now refuse r oid).service := by
  have hbook := refuseOffer_book now refuse r oid
  obtain ⟨o, ho, rfl⟩ := isOfferFor_iff.mp hown
  rw [← h.offers] at ho
  cases hs : r.service.slaveDict.lookup o.slaveId with
  | none =>
    have hgone : o.slaveId ∉ (Urb.refuseOffer now refuse r oid).service.slaveDict :=
      refuseOffer_keeps (I := fun s' => o.slaveId ∉ s'.slaveDict) (fun _ _ h => h)
        (fun _ _ h => h) (fun _ _ h => h) (fun _ _ _ _ h hmem => h (mem_modify.mp hmem))
        (fun _ _ h => h) (fun _ _ h => h) now refuse (lookup_eq_none.mp hs)
    refine ⟨(congrArg OfferBook.offers hbook).trans h.offers,
      (congrArg OfferBook.config hbook).trans h.config, fun slave hl => ?_, .inr fun slave hl => ?_⟩
    · exact absurd (mem_of_lookup hl) hgone
    · exact absurd (mem_of_lookup hl) hgone
  | some slave =>
    obtain ⟨hidle, hcount⟩ := h.idle slave hs
    obtain ⟨slave', hs', htasks, hrefused, hflag⟩ := refuseOffer_idle now refuse ho hs hidle
    have hrest : native ∨ slave.refusedCount + 1 +
        (rest.filter (isOfferFor o.slaveId s.offers)).length ≤ s.config.maxRejectedOffers := by
      refine hcount.imp_right fun hle => ?_
      rw [filter_cons_of_pos hown, length_cons] at hle
      omega
    refine ⟨(congrArg OfferBook.offers hbook).trans h.offers,
      (congrArg OfferBook.config hbook).trans h.config, fun sl hl => ?_, .inr fun sl hl => ?_⟩
    · rw [hs'] at hl
      cases hl
      rw [htasks, hrefused]
      exact ⟨hidle, hrest⟩
    · rw [hs'] at hl
      cases hl
      rcases hflag with hoff | ⟨hmany, hqueued⟩
      · exact .inl hoff
      · refine .inr ⟨?_, hqueued⟩
        -- over HTTP there is room for one more refusal
        refine hrest.resolve_right fun hle => ?_
        rw [h.config] at hmany
        omega

lemma refuseOffer : Declining native sid s rest (refuseOffer now refuse r oid).service := by
  cases hown : isOfferFor sid s.offers oid with
  | true => exact h.refuseOffer_own hown
  | false => exact h.refuseOffer_other hown

end Declining

/-! ## LaunchTasks messages -/

section Launch

variable {native : Bool} {sid : String} {now : ℚ} {req : LaunchTasksRequest} {s : Service}

lemma Served.launchTask {l : LaunchedTask} {st : LaunchState} (h : Served sid st.service) :
    Served sid (launchTask now req l st).1.service := by
  rcases launchTask_offers now req l st with hq | ⟨k, -, -, hq⟩
  · exact h.of_quiet hq
  · exact (h.enable k).of_quiet hq

lemma Served.refuseOffer_other {refuse : Option ℚ} {oid : String} {r : Refusal}
    (h : Served sid r.service) (hown : isOfferFor sid r.service.offers oid = false) :
    Served sid (refuseOffer now refuse r oid).service := by
  have hout : outstanding (refuseOffer now refuse r oid).service.wire = outstanding r.service.wire :=
    congrArg OfferBook.outstanding (refuseOffer_book now refuse r oid)
  intro slave hl
  rw [hout]
  refine h slave ?_
  rwa [refuseOffer_slaves now refuse r oid fun o ho hsid => ?_] at hl
  rw [isOfferFor_iff.mpr ⟨o, ho, hsid⟩] at hown
  cases hown

lemma Served.refusals {r : LaunchState} (h : Served sid r.service)
    (hoffers : r.service.offers = s.offers) (hused : ∀ oid ∈ req.offersFor sid s.offers, oid ∈ r.used) :
    Served sid (processRemainingOffers now req.refuseSeconds (req.remaining r.used) r.service) := by
  refine (processRemainingOffers_rule (I := fun s' => Served sid s' ∧ s'.offers = s.offers)
    ⟨h, hoffers⟩ (fun oid hoid r' hr => ⟨hr.1.refuseOffer_other ?_, ?_⟩) fun _ _ hs => hs).1
  · obtain ⟨hnamed, hunused⟩ := mem_filter.mp hoid
    rw [hr.2, ← Bool.not_eq_true]
    intro hown
    have hmem := hused oid (mem_offersFor.mpr ⟨mem_dedup.mp hnamed, hown⟩)
    simp only [decide_eq_true_eq] at hunused
    exact hunused hmem
  · exact (congrArg offers (refuseOffer_book now _ r' oid)).trans hr.2

lemma Served.launchTasks_unanswered (h : Served sid s) (hb : BookSound (outstanding s.wire) s)
    (hnone : req.offersFor sid s.offers = []) : Served sid (launchTasks now req s).1 := by
  have hstart : Served sid (launchStart req s).service := by
    refine h.of_slaves (fun o ho hsid => Ledger.mem_pending_answer.mpr ⟨ho, fun hid => ?_⟩)
      fun sl hl hc => .inr ⟨sl, hl, hc, id⟩
    -- an offer that is out is stored, so it would be one of the named ones
    have hmem : o.id ∈ req.offersFor sid s.offers :=
      mem_offersFor.mpr ⟨hid, isOfferFor_iff.mpr ⟨o, (hb.book.stored o ho).1, hsid⟩⟩
    rw [hnone] at hmem
    cases hmem
  let r := forEach (Urb.launchTask now req) req.tasks (launchStart req s)
  have hloop : Served sid r.1.service ∧ r.1.service.offers = s.offers := by
    refine forEach_inv (I := fun st : LaunchState => Served sid st.service ∧
      st.service.offers = s.offers) (fun l _ st hst => ⟨hst.1.launchTask, ?_⟩) ⟨hstart, rfl⟩
    exact (congrArg offers (launchTask_book now req l st)).trans hst.2
  unfold launchTasks
  dsimp only
  split_ifs
  · refine hloop.1.refusals hloop.2 fun oid hoid => ?_
    rw [hnone] at hoid
    cases hoid
  · exact hloop.1

lemma served_launchTasks_open {o : Offer} (ho : o ∈ outstanding s.wire) (hsid : o.slaveId = sid)
    (hid : o.id ∉ req.offerIds) : Served sid (launchTasks now req s).1 := by
  have hout : outstanding (launchTasks now req s).1.wire =
      outstanding (launchStart req s).service.wire :=
    congrArg OfferBook.outstanding (launchTasks_book now req s)
  intro slave _ _
  refine .inr ⟨o, ?_, hsid⟩
  rw [hout]
  exact Ledger.mem_pending_answer.mpr ⟨ho, hid⟩

lemma launchTask_onSlave {l : LaunchedTask} {st : LaunchState} {slave : Slave}
    (href : l.info.slaveRef = some sid) (hp : isPlaceholder sid = false)
    (hs : st.service.slaveDict.lookup sid = some slave) (hnext : (launchTask now req l st).2 = .next) :
    (∃ slave', (launchTask now req l st).1.service.slaveDict.lookup sid = some slave' ∧
      slave'.offerable) ∧ slave.usedOffer req.offerIds ⊆ (launchTask now req l st).1.used := by
  have hl := launchTask_launches now req l st
  generalize launchTask now req l st = r at hl hnext ⊢
  have hsid : ∀ {sid' : String}, l.info.slaveRef = some sid' → sid' = sid :=
    fun href' => Option.some.inj (href'.symm.trans href)
  cases hl with
  | noSlave _ => cases hnext
  | waiting href' hp' _ => rw [hsid href', hp] at hp'; cases hp'
  | unsubmitted href' hp' _ _ => rw [hsid href', hp] at hp'; cases hp'
  | submitted href' hp' _ _ => rw [hsid href', hp] at hp'; cases hp'
  | unknown href' _ hs' => rw [hsid href', hs] at hs'; cases hs'
  | noJob _ _ _ _ => cases hnext
  | overdrawn _ _ _ _ _ => cases hnext
  | placed href' _ hs' _ _ =>
    cases hsid href'
    rw [hs] at hs'
    cases hs'
    refine ⟨⟨{ (slave.launch l.info).1 with offerable := true }, ?_, rfl⟩,
      subset_append_left _ _⟩
    rw [runIfRegistered_slaveDict, Service.modifySlave_slaveDict, lookup_modify_self]
    show (st.service.slaveDict.lookup sid).map _ = _
    rw [hs]
    rfl

structure Accepting (sid : String) (slave : Slave) (req : LaunchTasksRequest) (s : Service)
    (rest : List LaunchedTask) (st : LaunchState) : Prop where
  offers : st.service.offers = s.offers
  through : LaunchesThrough (rest.map (·.info)) st.service.slaveDict
  current : ∃ sl, st.service.slaveDict.lookup sid = some sl ∧ sl.offer = slave.offer
  handled : (∃ l ∈ rest, l.info.slaveRef = some sid) ∨
    Served sid st.service ∧ ∀ oid ∈ req.offersFor sid s.offers, oid ∈ st.used

lemma Accepting.launchTask {slave : Slave} {l : LaunchedTask} {rest : List LaunchedTask}
    {st : LaunchState} (h : Accepting sid slave req s (l :: rest) st) (hp : isPlaceholder sid = false)
    (hcurrent : ∀ oid ∈ req.offersFor sid s.offers, slave.offer.map (·.id) = some oid)
    (hnext : (launchTask now req l st).2 = .next) :
    Accepting sid slave req s rest (launchTask now req l st).1 := by
  obtain ⟨sl, hsl, hoffer⟩ := h.current
  refine ⟨(congrArg OfferBook.offers (launchTask_book now req l st)).trans h.offers, ?_, ?_, ?_⟩
  · rw [launchTask_slaveDict]
    exact h.through.2
  · obtain ⟨sl', hsl', hoffer'⟩ := lookup_launchedSlaves_offer (t := l.info) hsl
    exact ⟨sl', by rw [launchTask_slaveDict]; exact hsl', hoffer'.trans hoffer⟩
  · by_cases href : l.info.slaveRef = some sid
    · obtain ⟨⟨sl', hsl', hflag⟩, hused⟩ := launchTask_onSlave href hp hsl hnext
      refine .inr ⟨fun sl₁ hl₁ _ => ?_, fun oid hoid => hused ?_⟩
      · rw [hsl'] at hl₁
        cases hl₁
        exact .inl hflag
      · obtain ⟨o, ho, rfl⟩ := map_eq_some_iff.mp (hcurrent oid hoid)
        rw [usedOffer, hoffer, ho]
        simp only [(mem_offersFor.mp hoid).1, if_true, mem_singleton]
    · rcases h.handled with ⟨l', hl', href'⟩ | ⟨hserved, hused⟩
      · rcases mem_cons.mp hl' with rfl | hl'
        · exact absurd href' href
        · exact .inl ⟨l', hl', href'⟩
      · exact .inr ⟨hserved.launchTask,
          fun oid hoid => used_subset_launchTask now req l st (hused oid hoid)⟩

lemma served_launchTasks_accepts {slave : Slave} (hp : isPlaceholder sid = false)
    (hs : s.slaveDict.lookup sid = some slave) (hthrough : LaunchesThrough req.infos s.slaveDict)
    (haccept : AcceptsOn sid slave req s) : Served sid (launchTasks now req s).1 := by
  obtain ⟨⟨t, ht, href⟩, hcurrent⟩ := haccept
  obtain ⟨l, hl, rfl⟩ := mem_map.mp ht
  let r := forEach (launchTask now req) req.tasks (launchStart req s)
  have hloop : Accepting sid slave req s [] r.1 := by
    refine forEach_rest (I := Accepting sid slave req s) (Q := Accepting sid slave req s [])
      (fun l rest st hst hnext => hst.launchTask hp hcurrent hnext) (fun l rest st hst hstop => ?_)
      (fun st hst => hst) ⟨rfl, hthrough, ⟨slave, hs, rfl⟩, .inl ⟨l, hl, href⟩⟩
    exact absurd ((launchTask_continues_iff now req l st).mpr hst.through.1) hstop
  obtain ⟨hserved, hused⟩ := hloop.handled.resolve_left fun ⟨_, hmem, _⟩ => by cases hmem
  unfold launchTasks
  dsimp only
  split_ifs
  · exact hserved.refusals hloop.offers hused
  · exact hserved

lemma served_launchTasks_declines {slave : Slave} (hb : BookSound (outstanding s.wire) s)
    (hs : s.slaveDict.lookup sid = some slave) (hthrough : LaunchesThrough req.infos s.slaveDict)
    (hne : req.offersFor sid s.offers ≠ []) (hdecline : DeclinesOn native sid slave req s) :
    Served sid (finish native (launchTasks now req s).1) := by
  obtain ⟨hnot, hidle, hcount⟩ := hdecline
  let r := forEach (launchTask now req) req.tasks (launchStart req s)
  have hloop : Untouched sid s r.1 := untouched_loop hb fun t ht href => absurd href (hnot t ht)
  have hnext : r.2 = .next := (forEach_launchTask_next_iff now req _ _).mpr hthrough
  have hstart : Declining native sid s (req.remaining r.1.used) r.1.service := by
    refine ⟨hloop.offers, hloop.config, fun sl hl => ?_, .inl ?_⟩
    · rw [hloop.slave, hs] at hl
      cases hl
      refine ⟨hidle, hcount.imp_right fun hle => ?_⟩
      have hfewer : ((req.remaining r.1.used).filter (isOfferFor sid s.offers)).length ≤
          (req.offersFor sid s.offers).length :=
        (filter_sublist.filter (isOfferFor sid s.offers)).length_le
      omega
    · obtain ⟨oid, hoid⟩ := exists_mem_of_ne_nil _ hne
      obtain ⟨hnamed, hfor⟩ := mem_offersFor.mp hoid
      refine ⟨oid, mem_filter.mpr ⟨mem_dedup.mpr hnamed, ?_⟩, hfor⟩
      rw [decide_eq_true_eq]
      intro hused
      rw [hloop.unused oid hused] at hfor
      cases hfor
  have hend : Declining native sid s [] (launchTasks now req s).1 := by
    unfold launchTasks
    dsimp only
    rw [if_pos hnext]
    exact processRemainingOffers_rest hstart (fun _ _ _ hr => hr.refuseOffer)
      fun _ _ hs => ⟨hs.offers, hs.config, hs.idle, hs.handled⟩
  have hflag := hend.handled.resolve_left fun ⟨_, hmem, _⟩ => by cases hmem
  intro sl hl _
  cases native with
  | true =>
    -- a slave that was refused too often is gone after the post-processor
    rw [finish, if_pos rfl, lookup_slaveDict_postprocess] at hl
    split_ifs at hl with hqueued
    exact .inl ((hflag sl hl).resolve_right fun h => hqueued h.2)
  | false => exact .inl ((hflag sl hl).resolve_right fun h => by cases h.1)

lemma launchTasks_slaves : SlavesRel (fun a b => a.isCommandExecutor →
    b.isCommandExecutor) s (launchTasks now req s).1 := by
  let R (a b : Slave) : Prop := a.isCommandExecutor → b.isCommandExecutor
  have htrans : ∀ a b c, R a b → R b c → R a c := fun _ _ _ hab hbc h => hbc (hab h)
  have hmod : ∀ (k : String) (f : Slave → Slave) (s' : Service), (∀ sl, R sl (f sl)) →
      SlavesRel R s s' → SlavesRel R s (s'.modifySlave k f) :=
    fun k f s' hf h => h.trans htrans (SlavesRel.modifySlave (fun _ h => h) fun sl _ => hf sl)
  let r := forEach (launchTask now req) req.tasks (launchStart req s)
  have hloop : SlavesRel R s r.1.service := by
    refine forEach_inv (I := fun st : LaunchState => SlavesRel R s st.service) (fun l _ st hst => ?_)
      (.of_eq (fun _ h => h) rfl)
    rcases launchTask_offers now req l st with hq | ⟨k, -, -, hq⟩
    · exact hst.trans htrans (hq.slaves.mono fun _ _ h => h.command)
    · exact (hmod k enable _ (fun _ h => h) hst).trans htrans (hq.slaves.mono fun _ _ h => h.command)
  unfold launchTasks
  dsimp only
  split_ifs
  · refine processRemainingOffers_rule (I := SlavesRel R s) hloop (fun oid _ r hr => ?_) fun _ _ h => h
    exact refuseOffer_keeps (fun _ _ h => h) (fun _ _ h => h) (fun _ _ h => h)
      (fun k g s' hg h => hmod k g s' (fun sl hc => (hg sl).command.trans hc) h) (fun _ _ h => h)
      (fun _ _ h => h) now _ hr
  · exact hloop

lemma Served.launchTasks (h : Served sid s) (hb : BookSound (outstanding s.wire) s)
    (hp : isPlaceholder sid = false) (hg : Reoffers sid s (.launchTasks native now req)) :
    Served sid (Urb.finish native (Urb.launchTasks now req s).1) := by
  by_cases hreg : ∃ slave, s.slaveDict.lookup sid = some slave ∧ slave.isCommandExecutor = false
  · obtain ⟨slave, hs, hc⟩ := hreg
    by_cases hne : req.offersFor sid s.offers = []
    · exact (h.launchTasks_unanswered hb hne).finish native
    · rcases (hg slave hs hc).resolve_left hne with ⟨o, ho, hsid, hid⟩ | ⟨hthrough, hacc | hdec⟩
      · exact (served_launchTasks_open ho hsid hid).finish native
      · exact (served_launchTasks_accepts hp hs hthrough hacc).finish native
      · exact served_launchTasks_declines hb hs hthrough hne hdec
  · refine Served.finish (fun sl hl hc => absurd ?_ hreg) native
    obtain ⟨sl₀, hl₀, hcommand⟩ := launchTasks_slaves.lookup hl
    refine ⟨sl₀, hl₀, ?_⟩
    rw [← Bool.not_eq_true] at hc ⊢
    exact fun h => hc (hcommand h)

end Launch

/-! ## Registrations and job deletion -/

namespace Served

variable {sid : String} {s : Service}

lemma reviveOffers : Served sid (reviveOffers s) := by
  intro slave hl _
  rw [Urb.reviveOffers, lookup_mapVals] at hl
  obtain ⟨sl, -, rfl⟩ := map_eq_some_iff.mp hl
  exact .inl rfl

lemma registerExecutorRunner {reg : RunnerRegistration} (h : Served sid s)
    (hg : reg.slaveId = sid → reg.tasks = [] ∧ (registerExecutorRunner reg s).2 = .next) :
    Served sid (registerExecutorRunner reg s).1 := by
  obtain ⟨s₁, hq, hend⟩ := registerExecutorRunner_offers reg s
  by_cases hsid : reg.slaveId = sid
  · obtain ⟨htasks, hnext⟩ := hg hsid
    rcases hend with ⟨-, hstop⟩ | ⟨-, he⟩
    · exact absurd hnext (hstop htasks)
    · rw [he, hsid]
      intro slave hl _
      obtain ⟨sl, -, rfl⟩ := of_lookup_modify_self hl
      exact .inl rfl
  · have hout : outstanding (enterSlave reg s).wire = outstanding s.wire :=
      congrArg OfferBook.outstanding (enterSlave_book reg s)
    have henter : Served sid (enterSlave reg s) := by
      refine h.of_slaves (fun o ho _ => hout ▸ ho) fun sl hl hc => .inr ⟨sl, ?_, hc, id⟩
      rwa [enterSlave, lookup_insert_ne (Ne.symm hsid)] at hl
    rcases hend with ⟨he, -⟩ | ⟨-, he⟩
    · rw [he]
      exact henter.of_quiet hq
    · rw [he]
      exact (henter.of_quiet hq).enable _

lemma reregisterExecutor {reg : ExecutorReregistration} (h : Served sid s) :
    Served sid (reregisterExecutor reg s).1 := by
  obtain ⟨s₁, hq, he | ⟨k, slave, -, he⟩⟩ := reregisterExecutor_offers reg s
  · rw [he]
    exact h.of_quiet hq
  · rw [he]
    exact (h.of_quiet hq).enable k

lemma deleteJob {job : String} (h : Served sid s)
    (hg : sid ∈ s.slaveDict → isSlaveOfJob job sid = false) : Served sid (deleteJob job s).1 := by
  have hout : outstanding (Urb.deleteJob job s).1.wire = outstanding s.wire :=
    congrArg OfferBook.outstanding (deleteJob_book job s)
  have hsame : (Urb.deleteJob job s).1.slaveDict.lookup sid = s.slaveDict.lookup sid := by
    refine deleteJob_keeps (I := fun s' => s'.slaveDict.lookup sid = s.slaveDict.lookup sid)
      (fun k sl s' hjob hl hs => ?_) (fun _ _ _ hs => hs) (fun _ _ _ _ _ hs => hs) rfl
    rw [deleteSlave_slaveDict]
    refine (lookup_modify_ne ?_ _ _).trans hs
    rintro rfl
    rw [hs] at hl
    rw [hg (mem_of_lookup hl)] at hjob
    cases hjob
  intro slave hl
  rw [hout]
  rw [hsame] at hl
  exact h slave hl

lemma step {e : Event} (h : Served sid s) (hb : BookSound (outstanding s.wire) s)
    (hp : isPlaceholder sid = false) (hg : Reoffers sid s e) (hr : RegistersFully sid s e) :
    Served sid (step s e) := by
  have hstep := step_offers s e
  generalize Urb.step s e = s' at hstep ⊢
  cases hstep with
  | quiet native hq => exact (h.of_quiet hq).finish native
  | round now => exact h.generateOffers hp
  | launch native now req _ => exact h.launchTasks hb hp hg
  | revive => exact reviveOffers.finish true
  | runner reg hactive => exact (h.registerExecutorRunner (hr hactive)).finish true
  | reregister reg => exact h.reregisterExecutor.finish true
  | jobGone job => exact h.deleteJob hg

end Served

lemma served_fresh (sid : String) (config : Config) (frameworkId hostname : String) (http : Bool) :
    Served sid (.fresh config frameworkId hostname http) := by
  intro slave hl
  cases hl

theorem run_not_stranded {config : Config} {frameworkId hostname : String} {http : Bool}
    {es : List Event} {sid : String} (hp : isPlaceholder sid = false)
    (hes : Machine.Guarded step (fun s e => Reoffers sid s e ∧ RegistersFully sid s e)
      (.fresh config frameworkId hostname http) es) :
    ∀ fs, fs <+: es → ∀ slave,
      ¬ Stranded sid (runFrom (.fresh config frameworkId hostname http) fs) slave := by
  rintro fs ⟨gs, rfl⟩
  let Kept (s : Service) : Prop := Served sid s ∧ BookSound (outstanding s.wire) s
  have hstart : Kept (.fresh config frameworkId hostname http) :=
    ⟨served_fresh sid config frameworkId hostname http,
      bookSound_fresh config frameworkId hostname http⟩
  have hrun : Kept (runFrom (.fresh config frameworkId hostname http) fs) :=
    Machine.run_inv (fun _ e hs hg => ⟨hs.1.step hs.2 hp hg.1 hg.2, hs.2.step e⟩) hstart
      (Machine.guarded_append.mp hes).1
  exact hrun.1.not_stranded

def servedOnce : List Event :=
  [runnerUp "7" "c7", .generateOffers 1,
    launchOf ["offer-fw-1"] [oneCpuTask "a" (slaveOf "7" "c7")],
    .statusUpdate true { taskId := "a", state := .finished },
    .generateOffers 2, launchOf ["offer-fw-2"] []]

theorem run_not_stranded_servedOnce :
    ∃ slave, (runFrom smallService servedOnce).slaveDict.lookup (slaveOf "7" "c7") = some slave ∧
      ¬ Stranded (slaveOf "7" "c7") (runFrom smallService servedOnce) slave := by
  have hguard : Machine.Guarded step
      (fun s e => Reoffers (slaveOf "7" "c7") s e ∧ RegistersFully (slaveOf "7" "c7") s e)
      smallService servedOnce := by
    refine ⟨⟨trivial, fun _ _ => by decide +kernel⟩, ⟨trivial, trivial⟩, ⟨fun slave hs _ => ?_, trivial⟩,
      ⟨trivial, trivial⟩, ⟨trivial, trivial⟩, ⟨fun slave hs _ => ?_, trivial⟩, trivial⟩
    · have hoffer : ((runFrom smallService (servedOnce.take 2)).slaveDict.lookup
          (slaveOf "7" "c7")).bind (fun sl => sl.offer.map (·.id)) = some "offer-fw-1" := by
        decide +kernel
      have hthrough := (forEach_launchTask_next_iff 0 { offerIds := ["offer-fw-1"] }
        [{ info := oneCpuTask "a" (slaveOf "7" "c7") }]
        (launchStart { offerIds := ["offer-fw-1"] } (runFrom smallService (servedOnce.take 2)))).mp
          (by decide +kernel)
      refine Or.inr (Or.inr ⟨hthrough, Or.inl ⟨⟨_, mem_cons_self, rfl⟩, fun oid hoid => ?_⟩⟩)
      cases mem_singleton.mp (mem_offersFor.mp hoid).1
      exact (congrArg (·.bind fun sl : Slave => sl.offer.map (·.id)) hs).symm.trans hoffer
    · have hidle : ((runFrom smallService (servedOnce.take 5)).slaveDict.lookup
          (slaveOf "7" "c7")).map (·.taskCount) = some 0 := by
        decide +kernel
      have hcount : slave.taskCount = 0 :=
        Option.some.inj ((congrArg (·.map Slave.taskCount) hs).symm.trans hidle)
      exact Or.inr (Or.inr ⟨trivial, Or.inr ⟨fun _ h => absurd h not_mem_nil, hcount.le, Or.inl rfl⟩⟩)
  have hslave : ∃ slave, (runFrom smallService servedOnce).slaveDict.lookup (slaveOf "7" "c7") = some slave :=
    Option.isSome_iff_exists.mp (by decide +kernel)
  obtain ⟨slave, hs⟩ := hslave
  exact ⟨slave, hs, run_not_stranded (by decide +kernel) hguard servedOnce (prefix_refl _) slave⟩

def declinedWhileRunning : List Event :=
  [runnerUp "7" "c7", .generateOffers 1,
    launchOf ["offer-fw-1"] [oneCpuTask "a" (slaveOf "7" "c7")], .generateOffers 2,
    launchOf ["offer-fw-2"] [], .statusUpdate true { taskId := "a", state := .finished }]

theorem stranded_declinedWhileRunning :
    ∃ slave, Stranded (slaveOf "7" "c7") (runFrom smallService declinedWhileRunning) slave := by
  have hslave : ∃ slave, (runFrom smallService declinedWhileRunning).slaveDict.lookup
      (slaveOf "7" "c7") = some slave := Option.isSome_iff_exists.mp (by decide +kernel)
  obtain ⟨slave, hs⟩ := hslave
  have hstate : ((runFrom smallService declinedWhileRunning).slaveDict.lookup (slaveOf "7" "c7")).map
      (fun sl => (sl.isCommandExecutor, sl.offerable, sl.cpus, sl.mem, sl.disk)) =
        some (false, false, 4, 4, 4) := by
    decide +kernel
  rw [hs] at hstate
  simp only [Option.map_some, Option.some.injEq, Prod.mk.injEq] at hstate
  obtain ⟨hcommand, hflag, hcpus, hmem, hdisk⟩ := hstate
  exact ⟨slave, hs, hcommand, by rw [hcpus]; decide, by rw [hmem]; decide, by rw [hdisk]; decide,
    hflag, by decide +kernel⟩

end Urb
