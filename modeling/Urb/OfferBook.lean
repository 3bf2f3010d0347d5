/-
# `Urb.OfferBook` — the offers of a framework, and the handlers that leave them alone

The book of a state is everything there is about its offers: those stored,
those whose removal is queued, the counter the ids are made from, and, read
off the wire, the offers that are out (`outstanding`) and the ids that some
LaunchTasks message has named (`answered`).

Most handlers do not touch the book, nor what an offer round reads of a slave
(`Slave.SameOffering`).  `OfferQuiet` says both, and is proved here for

    kill_task, status_update, reconcile_tasks, register_executor,
    unregister_framework

The other handlers are quiet up to the places where they set or clear the flag of
a slave; the last section says where that is.
-/
import Urb.Basis.Ledger
import Urb.LaunchLoop

namespace Urb

open Block Service List

/-! ## The book -/

def Message.notice : Message → Ledger.Notice Offer String
  | .resourceOffers offers => .issue offers
  | .launchTasksReceived offerIds _ => .answer offerIds
  | _ => .other

def outstanding (wire : List Message) : List Offer :=
  Ledger.pending Offer.id (wire.map Message.notice)

def answered (wire : List Message) : List String := Ledger.answered (wire.map Message.notice)

def DeleteElement.offerKey : DeleteElement → Option String
  | .offer key => some key
  | _ => none

structure OfferBook where
  config : Config
  frameworkId : String
  offers : Dict String Offer
  lastOfferId : ℕ
  queued : List String
  outstanding : List Offer
  answered : List String

def Service.offerBook (s : Service) : OfferBook :=
  { config := s.config
    frameworkId := s.frameworkId
    offers := s.offers
    lastOfferId := s.lastOfferId
    queued := s.deleteElements.filterMap DeleteElement.offerKey
    outstanding := outstanding s.wire
    answered := answered s.wire }

lemma offerBook_send {m : Message} (hm : m.notice = .other) (s : Service) :
    (s.send m).offerBook = s.offerBook := by
  simp only [offerBook, outstanding, answered, send_wire, map_cons, hm,
    Ledger.pending_other, Ledger.answered]
  rfl

lemma offerBook_addDeleteElement {e : DeleteElement} (he : e.offerKey = none) (s : Service) :
    (s.addDeleteElement e).offerBook = s.offerBook := by
  simp only [offerBook, addDeleteElement_deleteElements, filterMap_append,
    filterMap_cons, he, filterMap_nil, append_nil]
  rfl

lemma postprocess_book (s : Service) :
    (postprocess s).offerBook = { s.offerBook with offers := (postprocess s).offers, queued := [] } := by
  have hframe := postprocess_frame (f := fun s => (s.config, s.frameworkId, s.lastOfferId, s.wire))
    (fun _ _ _ _ _ => rfl) (fun _ _ => rfl) s
  simp only [Prod.mk.injEq] at hframe
  obtain ⟨hconfig, hid, hlast, hwire⟩ := hframe
  simp only [offerBook, hconfig, hid, hlast, hwire, postprocess_deleteElements, filterMap_nil]

/-! ## Handlers that leave it alone -/

lemma isCommandExecutor_insert (slave : Slave) (tid : String) (e : CommandExecutor) :
    { slave with commandExecutors := slave.commandExecutors.insert tid e }.isCommandExecutor := by
  simp [Slave.isCommandExecutor]

structure OfferQuiet (s s' : Service) : Prop where
  book : s'.offerBook = s.offerBook
  slaves : SlavesRel Slave.SameOffering s s'

namespace OfferQuiet

variable {s s' s'' : Service}

lemma refl (s : Service) : OfferQuiet s s := ⟨rfl, .of_eq .refl rfl⟩

lemma trans (h : OfferQuiet s s') (k : OfferQuiet s' s'') : OfferQuiet s s'' :=
  ⟨k.book.trans h.book, h.slaves.trans (fun _ _ _ => .trans) k.slaves⟩

lemma of_eq (hb : s'.offerBook = s.offerBook) (hs : s'.slaveDict = s.slaveDict) : OfferQuiet s s' :=
  ⟨hb, .of_eq .refl hs⟩

lemma send {m : Message} (hm : m.notice = .other) (s : Service) : OfferQuiet s (s.send m) :=
  of_eq (offerBook_send hm s) rfl

lemma modifySlave {key : String} {f : Slave → Slave}
    (h : ∀ sl, s.slaveDict.lookup key = some sl → sl.SameOffering (f sl)) :
    OfferQuiet s (s.modifySlave key f) :=
  ⟨rfl, SlavesRel.modifySlave .refl h⟩

lemma killTask {tid : String} : OfferQuiet s (killTask tid s).1 := by
  refine ⟨?_, killTask_slaves.mono fun _ _ => .of_sameControl⟩
  have hmarked : ∀ task, (markKilled tid task s).offerBook = s.offerBook := by
    intro task
    refine (offerBook_send rfl _).trans ?_
    exact offerBook_addDeleteElement (e := .task s.taskDictId tid) rfl (s.setTaskState tid .killed)
  exact killTask_rule (I := fun s' => s'.offerBook = s.offerBook) rfl (fun task _ => hmarked task)
    (fun _ _ h => (offerBook_send rfl _).trans h) (fun _ h => (offerBook_send rfl _).trans h)
    (fun _ _ h => (offerBook_send rfl _).trans h) fun task _ _ _ _ => hmarked task

lemma handleStatusUpdate {u : StatusUpdate} : OfferQuiet s (handleStatusUpdate u s).1 := by
  have hrec := send (m := .statusUpdateReceived u.taskId u.state) rfl s
  refine handleStatusUpdate_rule (I := OfferQuiet s) hrec (hrec.trans (send rfl _)) fun task _ => ?_
  have hset : OfferQuiet s ((s.send (.statusUpdateReceived u.taskId u.state)).setTaskState
      u.taskId u.state) := hrec.trans (of_eq rfl rfl)
  refine (hset.trans (send rfl _)).trans ⟨?_, settleUpdate_slaves⟩
  exact settleUpdate_rule (I := fun s' => s'.offerBook = _) (fun _ _ _ _ => rfl)
    (fun _ _ _ _ => rfl) (fun _ _ h => (offerBook_addDeleteElement rfl _).trans h)
    (fun s' h => (offerBook_addDeleteElement (e := .task s'.taskDictId u.taskId) rfl _).trans h) rfl

lemma reconcileTasks {now : ℚ} {http : Bool} {req : ReconcileRequest} :
    OfferQuiet s (reconcileTasks now http req s).1 :=
  reconcileTasks_rule (I := OfferQuiet s) (fun _ _ _ _ h => h.trans (of_eq rfl rfl))
    (fun _ _ _ _ _ h => h.trans (send rfl _)) (fun _ _ h => h.trans (of_eq rfl rfl))
    (fun _ _ _ _ _ h => h.trans (of_eq rfl rfl)) now http (refl s)

lemma scaleUp {count : ℤ} {submitted : List JobTuple} : OfferQuiet s (scaleUp count submitted s).1 :=
  scaleUp_keeps (I := OfferQuiet s) (fun _ _ h => h.trans (of_eq rfl rfl)) _ _ (refl s)

lemma runTask {sid channel tid : String} : OfferQuiet s (runTask sid channel tid s) :=
  (send (m := .runTask sid channel tid) rfl s).trans (of_eq rfl rfl)

lemma runStaged {reg : ExecutorRegistration} {sid job x : String} {command : Bool} :
    OfferQuiet s (runStaged reg sid job command x s).1 := by
  unfold Urb.runStaged
  split
  · exact refl s
  · split_ifs
    · exact refl s
    · exact runTask
    · refine trans (modifySlave fun sl _ => ?_) runTask
      refine ⟨rfl, rfl, rfl, rfl, fun hc => ?_⟩
      rw [← hc]
      simp [Slave.isCommandExecutor]
    · exact refl s
    · exact refl s

lemma registerExecutor {reg : ExecutorRegistration} : OfferQuiet s (registerExecutor reg s).1 := by
  unfold Urb.registerExecutor
  split_ifs
  · exact refl s
  · split
    · exact send rfl s
    · next sid slave _ =>
        split_ifs
        · exact send rfl s
        · have hsent : OfferQuiet s ((s.modifySlave sid fun sl =>
              { sl with executorChannel := some reg.channel }).send
                (.executorRegistered reg.channel)) := by
            refine trans ?_ (send rfl _)
            exact modifySlave fun sl _ => ⟨rfl, rfl, rfl, rfl, id⟩
          dsimp only
          split_ifs
          · exact hsent
          · refine seq_inv (I := OfferQuiet s) ?_ fun h => ?_
            · unfold runStagedTasks
              split
              · exact hsent
              · exact seq_inv (I := OfferQuiet s)
                  (forEach_inv (fun _ _ _ h => h.trans runStaged) hsent) fun h => h
            · unfold scaleForExecutor
              dsimp only
              split_ifs
              · exact h
              · exact h
              · exact h.trans scaleUp

lemma debitSlave {sid : String} {t : TaskInfo} : OfferQuiet s (debitSlave sid t s).1 := by
  unfold Urb.debitSlave
  split
  · exact refl s
  · next slave hs =>
      refine modifySlave fun sl hl => ?_
      rw [hs] at hl
      cases hl
      exact .of_sameControl (debitResources_sameControl t slave)

lemma stageTask {reg : RunnerRegistration} {x : String} {st : Staging} :
    OfferQuiet st.service (stageTask reg x st).1.service := by
  have htake : ∀ ref t (s' : Service),
      OfferQuiet s' (s'.modifySlave reg.slaveId (Slave.takePlaceholder ref t)) := by
    refine fun ref t s' => modifySlave fun sl _ => ?_
    unfold Slave.takePlaceholder
    split
    · exact ⟨rfl, rfl, rfl, rfl, id⟩
    · exact ⟨rfl, rfl, rfl, rfl, fun _ => isCommandExecutor_insert _ _ _⟩
  exact stageTask_rule (I := OfferQuiet st.service)
    (fun ref t st' h => h.trans ((htake ref t st'.service).trans (of_eq rfl rfl)))
    (fun _ _ h => h.trans debitSlave) (refl _)

lemma adoptTasks {reg : RunnerRegistration} : OfferQuiet s (adoptTasks reg s).1 := by
  refine forEach_inv (I := OfferQuiet s) (fun t _ s' h => ?_)
    (modifySlave fun sl _ => ⟨rfl, rfl, rfl, rfl, id⟩)
  refine trans ?_ debitSlave
  exact h.trans (of_eq rfl rfl)

lemma launchStaged {reg : RunnerRegistration} {st : Staging} :
    OfferQuiet st.service (launchStaged reg st) :=
  launchStaged_keeps (I := OfferQuiet st.service) (fun _ _ _ _ h => h.trans (send rfl _))
    (fun _ _ h => h.trans (of_eq rfl rfl)) (refl _)

lemma readoptTask {channel sid job : String} {t : TaskInfo} :
    OfferQuiet s (readoptTask channel sid job t s).1 := by
  have htake : OfferQuiet s (s.modifySlave sid (Slave.takeRunning channel t)) := by
    refine modifySlave fun sl _ => ?_
    unfold Slave.takeRunning
    split
    · exact ⟨rfl, rfl, rfl, rfl, id⟩
    · exact ⟨rfl, rfl, rfl, rfl, fun _ => isCommandExecutor_insert _ _ _⟩
  refine trans ?_ debitSlave
  exact htake.trans (of_eq rfl rfl)

lemma lost {tid : String} {slaveId : Option String} :
    OfferQuiet s (processTaskLostStatusUpdate tid slaveId s) := by
  refine .trans (.send (m := .statusUpdate tid .lost slaveId) rfl s) (.of_eq ?_ rfl)
  exact offerBook_addDeleteElement (e := .task s.taskDictId tid) rfl
    ((s.send (.statusUpdate tid .lost slaveId)).setTaskState tid .lost)

lemma deleteFramework : OfferQuiet s (deleteFramework s).1 :=
  deleteFramework_keeps (I := OfferQuiet s) (fun _ _ h => h.trans (send rfl _))
    (fun _ _ h => h.trans (send rfl _)) (fun _ _ h => h.trans (send rfl _))
    (fun _ _ _ h => h.trans (of_eq rfl rfl)) (fun _ h => h.trans (of_eq rfl rfl)) (refl s)

end OfferQuiet

/-! ## Handlers that set the flag of a slave -/

def Slave.enable (slave : Slave) : Slave := { slave with offerable := true }

lemma Slave.SameOffering.enable {a b : Slave} (h : a.SameOffering b) : a.enable.SameOffering b.enable :=
  ⟨rfl, h.offerableAfter, h.refusedCount, h.offer, h.command⟩

lemma Slave.sameOffering_launch (t : TaskInfo) (slave : Slave) :
    slave.SameOffering (slave.launch t).1 := by
  have hplace : slave.SameOffering (slave.placeExecutor t) := by
    unfold Slave.placeExecutor
    split_ifs
    · split
      · exact ⟨rfl, rfl, rfl, rfl, id⟩
      · exact ⟨rfl, rfl, rfl, rfl, fun _ => isCommandExecutor_insert _ _ _⟩
    · exact ⟨rfl, rfl, rfl, rfl, fun _ => isCommandExecutor_insert _ _ _⟩
    · exact .refl slave
  exact hplace.trans (.of_sameControl (debitResources_sameControl t _))

lemma lookup_launchedSlaves_enable {t : TaskInfo} {d : Dict String Slave} {k : String}
    {slave : Slave} (hs : d.lookup k = some slave) :
    ∃ slave', (launchedSlaves t d).lookup k = some slave' ∧ slave.enable.SameOffering slave'.enable := by
  have hlaunched : slave.enable.SameOffering (slave.launched t).enable := by
    have hsame := slave.sameOffering_launch t
    unfold Slave.launched
    split_ifs
    · exact hsame.enable
    · exact hsame.enable
  unfold launchedSlaves
  split
  · exact ⟨slave, hs, .refl _⟩
  · split_ifs
    · exact ⟨slave, hs, .refl _⟩
    · exact ⟨slave, hs, .refl _⟩
    · rw [AList.lookup_modify]
      split_ifs
      · exact ⟨slave.launched t, by rw [hs]; rfl, hlaunched⟩
      · exact ⟨slave, hs, .refl _⟩

lemma lookup_launchedSlaves_offer {t : TaskInfo} {d : Dict String Slave} {k : String} {slave : Slave}
    (hs : d.lookup k = some slave) :
    ∃ slave', (launchedSlaves t d).lookup k = some slave' ∧ slave'.offer = slave.offer := by
  obtain ⟨slave', hs', hsame⟩ := lookup_launchedSlaves_enable (t := t) hs
  exact ⟨slave', hs', hsame.offer⟩

lemma launchTask_offers (now : ℚ) (req : LaunchTasksRequest) (l : LaunchedTask) (st : LaunchState) :
    OfferQuiet st.service (launchTask now req l st).1.service ∨
      ∃ sid, l.info.slaveRef = some sid ∧ isPlaceholder sid = false ∧
        OfferQuiet (st.service.modifySlave sid Slave.enable) (launchTask now req l st).1.service := by
  have henter : OfferQuiet st.service (enterTask now l st.service) := .of_eq rfl rfl
  have hsendLost : ∀ (tid sid : String) (s : Service), OfferQuiet s (sendTaskLost tid sid s) := by
    intro tid sid s
    unfold sendTaskLost
    split_ifs
    · exact .lost
    · exact .refl s
  have hforward : ∀ sid job slave, OfferQuiet st.service
      (forwardLaunch req l.info sid job slave (enterTask now l st.service)) := by
    intro sid job slave
    refine .trans ?_ (.send rfl _)
    exact henter.trans (.of_eq rfl rfl)
  have hsub : OfferQuiet st.service (submission now l st.service).1 := henter.trans .scaleUp
  have hrun : ∀ (sid : String) (slave : Slave) (s : Service),
      OfferQuiet s (runIfRegistered sid l.info.taskId slave s) := by
    intro sid slave s
    unfold runIfRegistered
    split
    · exact .runTask
    · exact .refl s
  have hl := launchTask_launches now req l st
  generalize launchTask now req l st = r at hl ⊢
  cases hl with
  | noSlave _ => exact .inl (.refl _)
  | waiting _ _ _ =>
    refine .inl (.trans ?_ (hsendLost _ _ _))
    exact henter.trans (.of_eq rfl rfl)
  | unsubmitted _ _ _ _ => exact .inl (hsub.trans .lost)
  | submitted _ _ _ _ =>
    refine .inl (.trans ?_ (hsendLost _ _ _))
    exact hsub.trans (.of_eq rfl rfl)
  | unknown _ _ _ => exact .inl henter
  | noJob _ _ _ _ => exact .inl henter
  | @overdrawn sid job slave _ _ hs _ _ =>
    refine .inl ((hforward sid job slave).trans (.modifySlave fun sl hl => ?_))
    have he : some slave = some sl := hs.symm.trans hl
    cases he
    exact slave.sameOffering_launch l.info
  | @placed sid job slave href hp hs _ _ =>
    refine .inr ⟨sid, href, hp, .trans ?_ (hrun _ _ _)⟩
    refine ⟨(hforward sid job slave).book, ?_⟩
    refine (hforward sid job slave).slaves.modifySlave_both fun sl sl' hl _ => ?_
    rw [hs] at hl
    cases hl
    exact (slave.sameOffering_launch l.info).enable

lemma launchTask_book (now : ℚ) (req : LaunchTasksRequest) (l : LaunchedTask) (st : LaunchState) :
    (launchTask now req l st).1.service.offerBook = st.service.offerBook := by
  rcases launchTask_offers now req l st with hq | ⟨sid, -, -, hq⟩
  · exact hq.book
  · exact hq.book

lemma refuseOffer_slaves (now : ℚ) (refuse : Option ℚ) (r : Refusal) (oid : String) {k : String}
    (hk : ∀ o, r.service.offers.lookup oid = some o → o.slaveId ≠ k) :
    (refuseOffer now refuse r oid).service.slaveDict.lookup k = r.service.slaveDict.lookup k := by
  have hmod : ∀ (o : Offer) (f : Slave → Slave) (s : Service), r.service.offers.lookup oid = some o →
      (s.modifySlave o.slaveId f).slaveDict.lookup k = s.slaveDict.lookup k :=
    fun o f s ho => AList.lookup_modify_ne (hk o ho).symm _ _
  unfold refuseOffer
  split
  · rfl
  · next o ho =>
      split
      · split_ifs
        · unfold refusePlaceholder
          split <;> rfl
        · rfl
      · unfold refuseSlave
        dsimp only
        split_ifs
        · exact hmod o _ _ ho
        · rw [deleteSlave_slaveDict, AList.lookup_modify_ne (hk o ho).symm]
          split
          · exact hmod o _ _ ho
          · exact hmod o _ _ ho
        · split
          · exact hmod o _ _ ho
          · exact hmod o _ _ ho

def OfferBook.unqueued (b : OfferBook) : OfferBook := { b with queued := [] }

lemma refuseOffer_book (now : ℚ) (refuse : Option ℚ) (r : Refusal) (oid : String) :
    (refuseOffer now refuse r oid).service.offerBook.unqueued = r.service.offerBook.unqueued :=
  refuseOffer_keeps (I := fun s => s.offerBook.unqueued = r.service.offerBook.unqueued)
    (fun _ _ h => h) (fun _ _ h => h) (fun _ _ h => h) (fun _ _ _ _ h => h) (fun _ _ h => h)
    (fun _ _ h => by rw [offerBook_send rfl]; exact h) _ _ rfl

lemma launchTasks_book (now : ℚ) (req : LaunchTasksRequest) (s : Service) :
    (launchTasks now req s).1.offerBook.unqueued = (launchStart req s).service.offerBook.unqueued := by
  refine launchTasks_rule (I := fun s' => s'.offerBook.unqueued = _) rfl (fun l _ st hst => ?_)
    fun _ _ _ hs => processRemainingOffers_rule (I := fun s' => s'.offerBook.unqueued = _) hs
      (fun oid _ r hr => (refuseOffer_book now _ r oid).trans hr) fun _ _ hs => hs
  exact (congrArg OfferBook.unqueued (launchTask_book now req l st)).trans hst

lemma enterSlave_book (reg : RunnerRegistration) (s : Service) :
    (enterSlave reg s).offerBook = s.offerBook :=
  offerBook_send (m := .executorRunnerReceived reg.jobId reg.slaveId) rfl s

lemma registerExecutorRunner_offers (reg : RunnerRegistration) (s : Service) :
    ∃ s₁, OfferQuiet (enterSlave reg s) s₁ ∧ (((registerExecutorRunner reg s).1 = s₁ ∧
          (reg.tasks = [] → (registerExecutorRunner reg s).2 ≠ .next)) ∨ (reg.tasks = [] ∧
          (registerExecutorRunner reg s).1 = s₁.modifySlave reg.slaveId Slave.enable)) := by
  unfold registerExecutorRunner
  split_ifs with ht
  · have hloop : OfferQuiet (enterSlave reg s) (forEach (stageTask reg) (enterSlave reg s).taskDict.keys
        { service := enterSlave reg s }).1.service :=
      forEach_inv (I := fun st : Staging => OfferQuiet (enterSlave reg s) st.service)
        (fun _ _ _ h => h.trans .stageTask) (.refl _)
    unfold stageTasks
    dsimp only
    split_ifs
    · exact ⟨_, hloop.trans .launchStaged, .inr ⟨ht, rfl⟩⟩
    · exact ⟨_, hloop, .inl ⟨rfl, fun _ => by simp⟩⟩
  · exact ⟨_, .adoptTasks, .inl ⟨rfl, fun h => absurd h ht⟩⟩

lemma reregisterExecutor_offers (reg : ExecutorReregistration) (s : Service) :
    ∃ s₁, OfferQuiet s s₁ ∧ ((reregisterExecutor reg s).1 = s₁ ∨
      ∃ sid slave, s.slaveByChannel reg.replyTo = some (sid, slave) ∧
        (reregisterExecutor reg s).1 = s₁.modifySlave sid Slave.enable) := by
  let Ends (s' : Service) : Prop := ∃ s₁, OfferQuiet s s₁ ∧ (s' = s₁ ∨
    ∃ sid slave, s.slaveByChannel reg.replyTo = some (sid, slave) ∧
      s' = s₁.modifySlave sid Slave.enable)
  show Ends (reregisterExecutor reg s).1
  unfold reregisterExecutor
  split
  · exact ⟨s, .refl s, .inl rfl⟩
  · next sid slave hsid =>
      have hchannel : OfferQuiet s (s.modifySlave sid fun sl =>
          { sl with executorChannel := some reg.channel }) :=
        .modifySlave fun sl _ => ⟨rfl, rfl, rfl, rfl, id⟩
      dsimp only
      split
      · exact ⟨_, hchannel, .inl rfl⟩
      · next job _ =>
          have hadopt : OfferQuiet s (forEach (readoptTask reg.channel sid job) reg.tasks
              (s.modifySlave sid fun sl => { sl with executorChannel := some reg.channel })).1 :=
            forEach_inv (fun _ _ _ h => h.trans .readoptTask) hchannel
          have hreplay : ∀ s', OfferQuiet s s' → OfferQuiet s
              (forEach handleStatusUpdate ((reg.updates.mergeSort replayBefore).map (·.2)) s').1 :=
            fun s' h => forEach_inv (fun _ _ _ h => h.trans .handleStatusUpdate) h
          refine seq_inv (I := Ends) ⟨_, hadopt, .inl rfl⟩ fun _ => ?_
          refine seq_inv (I := Ends) ⟨_, hreplay _ hadopt, .inl rfl⟩ fun _ => ?_
          exact ⟨_, (hreplay _ hadopt).trans (.send rfl _), .inr ⟨sid, slave, hsid, rfl⟩⟩

lemma registerExecutorRunner_book (reg : RunnerRegistration) (s : Service) :
    (registerExecutorRunner reg s).1.offerBook = s.offerBook := by
  obtain ⟨s₁, hq, ⟨he, -⟩ | ⟨-, he⟩⟩ := registerExecutorRunner_offers reg s
  · rw [he]
    exact hq.book.trans (enterSlave_book reg s)
  · rw [he]
    exact hq.book.trans (enterSlave_book reg s)

lemma reregisterExecutor_book (reg : ExecutorReregistration) (s : Service) :
    (reregisterExecutor reg s).1.offerBook = s.offerBook := by
  obtain ⟨s₁, hq, he | ⟨sid, slave, -, he⟩⟩ := reregisterExecutor_offers reg s
  · rw [he]
    exact hq.book
  · rw [he]
    exact hq.book

lemma deleteJob_book (job : String) (s : Service) : (deleteJob job s).1.offerBook = s.offerBook := by
  refine deleteJob_keeps (I := fun s' => s'.offerBook = s.offerBook) (fun _ _ _ _ _ hs => ?_)
    (fun _ _ _ hs => hs) (fun _ _ _ _ _ hs => (OfferQuiet.lost.book).trans hs) rfl
  exact deleteSlave_keeps (I := fun s' => s'.offerBook = s.offerBook)
    (fun _ _ hs => (offerBook_addDeleteElement rfl _).trans hs) (fun _ _ _ _ hs => hs)
    (fun _ _ hs => hs) _ _ hs

lemma outstanding_finish (native : Bool) (s : Service) :
    outstanding (finish native s).wire = outstanding s.wire := by
  cases native with
  | true => exact congrArg outstanding (postprocess_wire s)
  | false => rfl

/-! ## Steps -/

inductive OfferStep (s : Service) : Event → Service → Prop
  | quiet {e : Event} {s₁ : Service} (native : Bool) :
      OfferQuiet s s₁ → OfferStep s e (finish native s₁)
  | round (now : ℚ) : OfferStep s (.generateOffers now) (generateOffers now s)
  | launch (native : Bool) (now : ℚ) (req : LaunchTasksRequest) : s.active = true →
      OfferStep s (.launchTasks native now req) (finish native (launchTasks now req s).1)
  | revive : OfferStep s .reviveOffers (finish true (reviveOffers s))
  | runner (reg : RunnerRegistration) : s.active = true →
      OfferStep s (.registerExecutorRunner reg) (finish true (registerExecutorRunner reg s).1)
  | reregister (reg : ExecutorReregistration) :
      OfferStep s (.reregisterExecutor reg) (finish true (reregisterExecutor reg s).1)
  | jobGone (job : String) : OfferStep s (.deleteJob job) (deleteJob job s).1

lemma step_offers (s : Service) (e : Event) : OfferStep s e (step s e) := by
  have hactive : ∀ (native : Bool) (handler : Block Service), OfferQuiet s (handler s).1 →
      OfferStep s e (finish native (whenActive handler s)) := by
    intro native handler hq
    refine .quiet native ?_
    unfold whenActive
    split_ifs
    · exact hq
    · exact .send rfl s
  cases e with
  | generateOffers now =>
    unfold step
    split_ifs
    · exact .round now
    · exact .quiet false (.refl s)
  | launchTasks native now req =>
    unfold step whenActive
    split_ifs with ha
    · exact .launch native now req ha
    · exact .quiet native (.send rfl s)
  | killTask native tid => exact hactive native _ .killTask
  | statusUpdate native u => exact hactive native _ .handleStatusUpdate
  | reconcileTasks native now req => exact hactive native _ .reconcileTasks
  | reviveOffers =>
    unfold step
    split_ifs
    · exact .revive
    · exact .quiet true (.refl s)
  | registerExecutorRunner reg =>
    unfold step
    split_ifs with ha
    · exact .runner reg ha
    · exact .quiet true (.send rfl s)
  | registerExecutor reg =>
    unfold step
    split_ifs
    · exact .quiet true .registerExecutor
    · exact .quiet true (.refl s)
  | reregisterExecutor reg =>
    unfold step
    split_ifs
    · exact .reregister reg
    · exact .quiet true (.refl s)
  | deleteJob job => exact .jobGone job
  | unregisterFramework native =>
    unfold step
    split_ifs
    · exact .quiet native .deleteFramework
    · exact .quiet native (.refl s)
  | otherRequest => exact .quiet true (.refl s)

/-! ## The configuration -/

lemma step_config (s : Service) (e : Event) : (step s e).config = s.config := by
  have hfinish : ∀ (native : Bool) (s : Service), (finish native s).config = s.config := by
    intro native s
    cases native with
    | true => exact postprocess_frame (fun _ _ _ _ _ => rfl) (fun _ _ => rfl) s
    | false => rfl
  have hstep := step_offers s e
  generalize step s e = s' at hstep ⊢
  cases hstep with
  | quiet native hq => exact (hfinish native _).trans (congrArg OfferBook.config hq.book)
  | round now =>
    have hround : (offerRound now s).service.config = s.config :=
      offerRound_marks (I := fun s' => s'.config = s.config) (fun _ _ h => h) (fun _ _ h => h)
        (fun _ _ h => h) (fun _ _ _ h => h) now rfl
    exact generateOffers_of_round (I := fun s' => s'.config = s.config) (fun _ _ h => h) hround
  | launch native now req _ =>
    exact (hfinish native _).trans (congrArg OfferBook.config (launchTasks_book now req s))
  | revive => exact hfinish true _
  | runner reg _ =>
    exact (hfinish true _).trans (congrArg OfferBook.config (registerExecutorRunner_book reg s))
  | reregister reg =>
    exact (hfinish true _).trans (congrArg OfferBook.config (reregisterExecutor_book reg s))
  | jobGone job => exact congrArg OfferBook.config (deleteJob_book job s)

lemma run_config (s : Service) (es : List Event) : (runFrom s es).config = s.config := by
  induction es generalizing s with
  | nil => rfl
  | cons e es ih => exact (ih (step s e)).trans (step_config s e)

end Urb
