/-
# `Urb.Frames` — what kills, status updates and lost tasks leave alone

Most properties of the service speak about a part of the state, and most
handlers touch another one.  This module says once, per handler, what it does
NOT do.  `SlavesRel R` relates two states slave by slave.

    __kill_task             beyond `markKilled`: one slave's resources, the wire
                            (`killTask_frame`, `killTask_slaves`)
    handle_status_update    beyond the record and the forwarded update: one slave,
                            the queue of removals (`settleUpdate_frame`,
                            `settleUpdate_slaves`)

The `_rule` and `_keeps` lemmas are the same for properties that are no equations:
a property kept by each of the handler's updates is kept by the handler.
-/
import Urb.Step

namespace Urb

open Block AList Service Slave List

variable {sid : String} {slave : Slave} {I : Service → Prop}

/-! ## States related slave by slave -/

def SlavesRel (R : Slave → Slave → Prop) (s s' : Service) : Prop :=
  ∀ sid, Option.Rel R (s.slaveDict.lookup sid) (s'.slaveDict.lookup sid)

namespace SlavesRel

variable {R : Slave → Slave → Prop} {s s' s'' : Service}

lemma of_eq (hR : ∀ sl, R sl sl) (h : s'.slaveDict = s.slaveDict) : SlavesRel R s s' := by
  intro sid
  rw [h]
  cases s.slaveDict.lookup sid with
  | none => exact .none
  | some sl => exact .some (hR sl)

lemma trans (hR : ∀ a b c, R a b → R b c → R a c) (h : SlavesRel R s s')
    (k : SlavesRel R s' s'') : SlavesRel R s s'' := by
  intro sid
  have h' := h sid
  have k' := k sid
  revert h' k'
  generalize s.slaveDict.lookup sid = a
  generalize s'.slaveDict.lookup sid = b
  generalize s''.slaveDict.lookup sid = c
  rintro (⟨hab⟩ | _) (⟨hbc⟩ | _)
  · exact .some (hR _ _ _ hab hbc)
  · exact .none

lemma mono {R' : Slave → Slave → Prop} (hR : ∀ a b, R a b → R' a b) (h : SlavesRel R s s') :
    SlavesRel R' s s' := by
  intro sid
  have h' := h sid
  revert h'
  generalize s.slaveDict.lookup sid = a
  generalize s'.slaveDict.lookup sid = b
  rintro (⟨hab⟩ | _)
  · exact .some (hR _ _ hab)
  · exact .none

lemma modifySlave (hR : ∀ sl, R sl sl) {key : String} {f : Slave → Slave}
    (h : ∀ sl, s.slaveDict.lookup key = some sl → R sl (f sl)) :
    SlavesRel R s (s.modifySlave key f) := by
  intro sid
  rw [modifySlave_slaveDict, lookup_modify]
  cases hl : s.slaveDict.lookup sid with
  | none => split <;> exact .none
  | some sl =>
    split
    · next he => subst he; exact .some (h sl hl)
    · exact .some (hR sl)

lemma modifySlave_both {key : String} {f g : Slave → Slave} (h : SlavesRel R s s')
    (hfg : ∀ sl sl', s.slaveDict.lookup key = some sl → s'.slaveDict.lookup key = some sl' →
      R (f sl) (g sl')) : SlavesRel R (s.modifySlave key f) (s'.modifySlave key g) := by
  intro sid
  rw [modifySlave_slaveDict, modifySlave_slaveDict, lookup_modify, lookup_modify]
  have h' := h sid
  split_ifs with hk
  · subst hk
    cases hl : s.slaveDict.lookup sid with
    | none =>
      rw [hl] at h'
      cases hl' : s'.slaveDict.lookup sid with
      | none => exact .none
      | some sl' => rw [hl'] at h'; cases h'
    | some sl =>
      rw [hl] at h'
      cases hl' : s'.slaveDict.lookup sid with
      | none => rw [hl'] at h'; cases h'
      | some sl' => exact .some (hfg sl sl' hl hl')
  · exact h'

lemma lookup (h : SlavesRel R s s') {sl' : Slave} (hl : s'.slaveDict.lookup sid = some sl') :
    ∃ sl, s.slaveDict.lookup sid = some sl ∧ R sl sl' := by
  have h' := h sid
  rw [hl] at h'
  cases hs : s.slaveDict.lookup sid with
  | none => rw [hs] at h'; cases h'
  | some sl => rw [hs] at h'; cases h' with | some hr => exact ⟨sl, rfl, hr⟩

lemma map_eq {β : Type} {g : Slave → β} (hg : ∀ a b, R a b → g b = g a) (h : SlavesRel R s s')
    (sid : String) : (s'.slaveDict.lookup sid).map g = (s.slaveDict.lookup sid).map g := by
  have h' := h sid
  revert h'
  generalize s.slaveDict.lookup sid = a
  generalize s'.slaveDict.lookup sid = b
  rintro (⟨hab⟩ | _)
  · exact congrArg some (hg _ _ hab)
  · rfl

end SlavesRel

structure Slave.SameAssets (a b : Slave) : Prop where
  placeholder : b.placeholder = a.placeholder
  amount : b.amount = a.amount
  customResources : b.customResources = a.customResources

lemma Slave.SameAssets.refl (a : Slave) : a.SameAssets a := ⟨rfl, rfl, rfl⟩

def Service.KeepsAssets (k : String) (g : Slave → Slave) (s : Service) : Prop :=
  ∀ sl, s.slaveDict.lookup k = some sl → sl.SameAssets (g sl)

def KeepsNeeds (g : TaskRecord → TaskRecord) : Prop :=
  ∀ r, (g r).taskInfo.resources = r.taskInfo.resources

/-! ## Slaves found by their channel -/

lemma lookup_of_slaveByChannel {s : Service} {replyTo : String}
    (h : s.slaveByChannel replyTo = some (sid, slave)) : s.slaveDict.lookup sid = some slave := by
  obtain ⟨e, he, hpair⟩ := map_eq_some_iff.mp h
  cases hpair
  exact mem_lookup_iff.mpr (mem_of_find?_eq_some he)

/-! ## Kills -/

section Kill

variable {tid : String} {task : TaskRecord} {s : Service}

lemma killOnSlave_rule {key : String} (kill : ∀ c s, I s → I (s.send (.killTask c tid)))
    (retry : ∀ s, I s → I (s.send .retry)) (credit : slave.isCommandExecutor = false →
      I (s.modifySlave key (fun _ => (creditResources task.taskInfo slave).1))) (h : I s) :
    I (killOnSlave tid key slave task s).1 := by
  have hkill : ∀ sl s, I s → I (sendKillTask sl tid s) := by
    intro sl s hs
    unfold sendKillTask
    split
    · exact kill _ _ hs
    · exact retry s hs
  unfold killOnSlave
  dsimp only
  split_ifs with hc
  · exact hkill _ _ h
  · exact hkill _ _ (credit (Bool.eq_false_iff.mpr hc))
  · exact credit (Bool.eq_false_iff.mpr hc)

lemma killTask_frame {β : Type} (f : Service → β) (hsend : ∀ m s, f (s.send m) = f s)
    (hslave : ∀ k g s, f (s.modifySlave k g) = f s) (hf : tid ∉ s.foreign)
    (ht : s.taskDict.lookup tid = some task) : f (killTask tid s).1 = f (markKilled tid task s) := by
  unfold killTask
  rw [if_neg hf, ht]
  dsimp only
  split
  · exact killOnSlave_rule (I := fun s' => f s' = f (markKilled tid task s))
      (fun _ _ h => (hsend _ _).trans h) (fun _ h => (hsend _ _).trans h) (fun _ => hslave _ _ _) rfl
  · unfold deleteJobOf
    split
    · exact hsend _ _
    · rfl

lemma resolveSlave_lookup {key : String} (h : s.resolveSlave sid = some (key, slave))
    : s.slaveDict.lookup key = some slave := by
  unfold resolveSlave at h
  split at h
  · next hl => cases h; exact hl
  · split_ifs at h
    obtain ⟨k, -, hk⟩ := bind_eq_some_iff.mp h
    obtain ⟨sl, hsl, he⟩ := map_eq_some_iff.mp hk
    cases he
    exact hsl

lemma killTask_rule (h : I s)
    (mark : ∀ task, s.taskDict.lookup tid = some task → I (markKilled tid task s))
    (kill : ∀ c s, I s → I (s.send (.killTask c tid))) (retry : ∀ s, I s → I (s.send .retry))
    (delete : ∀ jobs s, I s → I (s.send (.deleteJobs jobs)))
    (credit : ∀ task key slave, s.taskDict.lookup tid = some task → s.slaveDict.lookup key = some slave →
      I ((markKilled tid task s).modifySlave key (fun _ => (creditResources task.taskInfo slave).1))) :
    I (killTask tid s).1 := by
  unfold killTask
  split_ifs
  · exact h
  · split
    · exact h
    · next task ht =>
        dsimp only
        split
        · next key slave hb =>
            obtain ⟨sid, -, hr⟩ := bind_eq_some_iff.mp hb
            exact killOnSlave_rule kill retry
              (fun _ => credit task key slave ht (resolveSlave_lookup hr)) (mark task ht)
        · unfold deleteJobOf
          split
          · exact delete _ _ (mark task ht)
          · exact mark task ht

lemma killTask_slaves : SlavesRel Slave.SameControl s (killTask tid s).1 := by
  refine killTask_rule (I := SlavesRel Slave.SameControl s) (.of_eq .refl rfl)
    (fun _ _ => .of_eq .refl rfl) (fun _ _ h => h) (fun _ h => h) (fun _ _ h => h)
    fun task key slave _ hs => SlavesRel.modifySlave .refl fun sl hl => ?_
  cases hs.symm.trans hl
  exact creditResources_sameControl task.taskInfo slave

end Kill

/-! ## Status updates -/

structure Slave.SameOffering (a b : Slave) : Prop where
  offerable : b.offerable = a.offerable
  offerableAfter : b.offerableAfter = a.offerableAfter
  refusedCount : b.refusedCount = a.refusedCount
  offer : b.offer = a.offer
  command : a.isCommandExecutor = true → b.isCommandExecutor = true

namespace Slave.SameOffering

variable {a b c : Slave}

lemma refl (a : Slave) : SameOffering a a := ⟨rfl, rfl, rfl, rfl, id⟩

lemma trans (h : SameOffering a b) (k : SameOffering b c) : SameOffering a c :=
  ⟨k.offerable.trans h.offerable, k.offerableAfter.trans h.offerableAfter,
    k.refusedCount.trans h.refusedCount, k.offer.trans h.offer, fun hc => k.command (h.command hc)⟩

lemma of_sameControl (h : SameControl a b) : SameOffering a b :=
  ⟨h.offerable, h.offerableAfter, h.refusedCount, h.offer, fun hc => h.isCommandExecutor.trans hc⟩

end Slave.SameOffering

section Update

variable {u : StatusUpdate} {task : TaskRecord} {s : Service}

lemma finishOnSlave_rule {tid : String} (entry : slave.isCommandExecutor →
      I (s.modifySlave sid (fun sl => { sl with commandExecutors := slave.finishEntry tid })))
    (credit : slave.isCommandExecutor = false →
      I (s.modifySlave sid (fun _ => (creditResources task.taskInfo slave).1)))
    (remove : ∀ k s, I s → I (s.addDeleteElement (.slave k))) (h : I s) :
    I (finishOnSlave tid sid slave task s).1 := by
  unfold finishOnSlave
  split_ifs with hc
  · unfold finishCommand
    split
    · exact h
    · dsimp only
      split_ifs
      · exact entry hc
      · exact remove _ _ (entry hc)
  · exact credit (Bool.eq_false_iff.mpr hc)

@[simps!] def forwardUpdate (u : StatusUpdate) (task : TaskRecord) (s : Service) : Service :=
  ((s.send (.statusUpdateReceived u.taskId u.state)).setTaskState u.taskId u.state).send
    (.statusUpdate u.taskId u.state (u.slaveRef task.taskInfo))

lemma handleStatusUpdate_known (hf : u.taskId ∉ s.foreign)
    (ht : s.taskDict.lookup u.taskId = some task) :
    handleStatusUpdate u s = settleUpdate u task (forwardUpdate u task s) := by
  have hf' : u.taskId ∉ (s.send (.statusUpdateReceived u.taskId u.state)).foreign := hf
  have ht' : (s.send (.statusUpdateReceived u.taskId u.state)).taskDict.lookup u.taskId =
      some task := ht
  simp only [handleStatusUpdate, if_neg hf', ht']
  rfl

lemma handleStatusUpdate_unknown (hf : u.taskId ∉ s.foreign) (ht : s.taskDict.lookup u.taskId = none) :
    handleStatusUpdate u s = ((s.send (.statusUpdateReceived u.taskId u.state)).send
      (.statusUpdate u.taskId u.state (u.slaveId <|> u.agentId)), .next) := by
  have hf' : u.taskId ∉ (s.send (.statusUpdateReceived u.taskId u.state)).foreign := hf
  have ht' : (s.send (.statusUpdateReceived u.taskId u.state)).taskDict.lookup u.taskId = none := ht
  simp only [handleStatusUpdate, if_neg hf', ht']

lemma handleStatusUpdate_rule (received : I (s.send (.statusUpdateReceived u.taskId u.state)))
    (redirect : I ((s.send (.statusUpdateReceived u.taskId u.state)).send
      (.statusUpdate u.taskId u.state (u.slaveId <|> u.agentId))))
    (settle : ∀ task, s.taskDict.lookup u.taskId = some task →
      I (settleUpdate u task (forwardUpdate u task s)).1) : I (handleStatusUpdate u s).1 := by
  by_cases hf : u.taskId ∈ s.foreign
  · have hraise : handleStatusUpdate u s = (s.send (.statusUpdateReceived u.taskId u.state), .raise) :=
      if_pos hf
    rw [hraise]
    exact received
  · cases ht : s.taskDict.lookup u.taskId with
    | none =>
      rw [handleStatusUpdate_unknown hf ht]
      exact redirect
    | some task =>
      rw [handleStatusUpdate_known hf ht]
      exact settle task ht

def finishTarget (u : StatusUpdate) (task : TaskRecord) (s : Service) : Option (String × Slave) :=
  if (u.state = .finished ∨ u.state = .failed) ∧ s.slaveDictSet then
    (u.slaveRef task.taskInfo).bind
      (fun sid => (s.slaveDict.lookup sid).map (fun slave => (sid, slave)))
  else none

lemma ref_of_finishTarget (h : finishTarget u task s = some (sid, slave)) :
    (u.state = .finished ∨ u.state = .failed) ∧ u.slaveRef task.taskInfo = some sid := by
  unfold finishTarget at h
  split_ifs at h with hstate
  obtain ⟨sid', href, h'⟩ := bind_eq_some_iff.mp h
  obtain ⟨sl, -, he⟩ := map_eq_some_iff.mp h'
  cases he
  exact ⟨hstate.1, href⟩

lemma lookup_of_finishTarget (h : finishTarget u task s = some (sid, slave))
    : s.slaveDict.lookup sid = some slave := by
  unfold finishTarget at h
  split_ifs at h
  obtain ⟨sid', -, h'⟩ := bind_eq_some_iff.mp h
  obtain ⟨sl, hl, he⟩ := map_eq_some_iff.mp h'
  cases he
  exact hl

lemma settleUpdate_eq (u : StatusUpdate) (task : TaskRecord) (s : Service) : (settleUpdate u task s).1 =
      match finishTarget u task s with
      | none => s
      | some (sid, slave) => (seq (finishOnSlave u.taskId sid slave task)
          (fun s => (s.queueTask u.taskId, .next)) s).1 := by
  unfold settleUpdate finishTarget
  cases u.slaveRef task.taskInfo with
  | none => simp
  | some sid =>
    cases s.slaveDictSet with
    | false => simp
    | true =>
      cases hl : s.slaveDict.lookup sid with
      | none => simp [hl]
      | some slave =>
        by_cases h : u.state = .finished ∨ u.state = .failed
        · simp [hl, h]
        · simp [hl, h]

lemma settleUpdate_rule
    (entry : ∀ sid slave, s.slaveDict.lookup sid = some slave → slave.isCommandExecutor →
      I (s.modifySlave sid (fun sl => { sl with commandExecutors := slave.finishEntry u.taskId })))
    (credit : ∀ sid slave, s.slaveDict.lookup sid = some slave → slave.isCommandExecutor = false →
      I (s.modifySlave sid (fun _ => (creditResources task.taskInfo slave).1)))
    (remove : ∀ k s, I s → I (s.addDeleteElement (.slave k)))
    (queue : ∀ s, I s → I (s.queueTask u.taskId)) (h : I s) : I (settleUpdate u task s).1 := by
  rw [settleUpdate_eq]
  split
  · exact h
  · next sid slave ht =>
      have hl := lookup_of_finishTarget ht
      exact seq_inv (finishOnSlave_rule (entry sid slave hl) (credit sid slave hl) remove h) (queue _)

lemma settleUpdate_frame {β : Type} (f : Service → β) (hslave : ∀ k g s, f (s.modifySlave k g) = f s)
    (hqueue : ∀ e s, f (s.addDeleteElement e) = f s) : f (settleUpdate u task s).1 = f s :=
  settleUpdate_rule (I := fun s' => f s' = f s) (fun _ _ _ _ => hslave _ _ s)
    (fun _ _ _ _ => hslave _ _ s) (fun _ _ h => (hqueue _ _).trans h)
    (fun _ h => (hqueue _ _).trans h) rfl

lemma settleUpdate_slaves : SlavesRel Slave.SameOffering s (settleUpdate u task s).1 := by
  refine settleUpdate_rule (I := SlavesRel Slave.SameOffering s) (fun sid slave hs _ => ?_)
    (fun sid slave hs _ => ?_) (fun _ _ h => h) (fun _ h => h) (.of_eq .refl rfl)
  · refine SlavesRel.modifySlave .refl fun sl hl => ?_
    rw [hs] at hl
    cases hl
    refine ⟨rfl, rfl, rfl, rfl, fun hc => ?_⟩
    rw [← hc]
    simp [isCommandExecutor, finishEntry]
  · refine SlavesRel.modifySlave .refl fun sl hl => ?_
    rw [hs] at hl
    cases hl
    exact .of_sameControl (creditResources_sameControl task.taskInfo slave)

end Update

/-! ## Offers -/

lemma offerRound_inv {I : OfferRound → Prop} {now : ℚ} {s : Service}
    (start : I { service := { s with nextOfferTime := 0 } })
    (slave : ∀ sid r, I r → I (offerFromSlave now r sid))
    (timer : ∀ t r, I r → I { r with service := { r.service with placeholderOfferableAfter := t } })
    (placeholder : ∀ r, I r → I (offerPlaceholder r)) : I (offerRound now s) := by
  have hslaves : ∀ (l : List String) (r : OfferRound), I r → I (l.foldl (offerFromSlave now) r) := by
    intro l
    induction l with
    | nil => exact fun _ h => h
    | cons sid l ih => exact fun r h => ih _ (slave sid r h)
  have hplace : ∀ (n : ℕ) (r : OfferRound), I r → I (offerPlaceholder^[n] r) := by
    intro n
    induction n with
    | zero => exact fun _ h => h
    | succ n ih => exact fun r h => ih _ (placeholder r h)
  have hr := hslaves s.slaveDict.keys _ start
  unfold offerRound offerPlaceholders
  dsimp only
  split_ifs
  · refine hplace _ _ ?_
    unfold adjustPlaceholderTimer
    split_ifs
    · exact timer _ _ hr
    · exact hr
  · unfold adjustPlaceholderTimer
    split_ifs
    · exact timer _ _ hr
    · exact hr
  · exact hr

def Slave.load (slave : Slave) : Slave :=
  { slave with offerable := false, offerableAfter := 0, refusedCount := 0 }

def Slave.SameLoad (a b : Slave) : Prop := b.load = a.load

namespace Slave.SameLoad

variable {a b c : Slave}

lemma refl (a : Slave) : SameLoad a a := rfl

lemma trans (h : SameLoad a b) (k : SameLoad b c) : SameLoad a c := Eq.trans k h

lemma offer (h : SameLoad a b) : b.offer = a.offer := (congrArg Slave.offer h : _)

lemma taskCount (h : SameLoad a b) : b.taskCount = a.taskCount := (congrArg Slave.taskCount h : _)

lemma command (h : SameLoad a b) : b.isCommandExecutor = a.isCommandExecutor :=
  (congrArg isCommandExecutor h : _)

lemma assets (h : SameLoad a b) : a.SameAssets b :=
  ⟨(congrArg placeholder h : _), (congrArg amount h : _), (congrArg customResources h : _)⟩

end Slave.SameLoad

lemma processRemainingOffers_rest {I : List String → Service → Prop} {now : ℚ} {refuse : Option ℚ}
    {remaining : List String} {s : Service} (start : I remaining s)
    (offer : ∀ oid rest r, I (oid :: rest) r.service →
      I rest (refuseOffer now (refusePeriod refuse) r oid).service)
    (timer : ∀ t s, I [] s → I [] { s with nextOfferTime := t }) :
    I [] (processRemainingOffers now refuse remaining s) := by
  have hall : ∀ (l : List String) (r : Refusal), I l r.service →
      I [] (l.foldl (refuseOffer now (refusePeriod refuse)) r).service := by
    intro l
    induction l with
    | nil => exact fun _ h => h
    | cons oid l ih => exact fun r h => ih _ (offer oid l r h)
  have hend := hall remaining { service := s } start
  unfold processRemainingOffers
  dsimp only
  split
  · exact hend
  · split_ifs
    · exact hend
    · exact timer _ _ hend

lemma processRemainingOffers_rule {now : ℚ} {refuse : Option ℚ} {remaining : List String}
    {s : Service} (start : I s) (offer : ∀ oid ∈ remaining, ∀ r, I r.service →
      I (refuseOffer now (refusePeriod refuse) r oid).service)
    (timer : ∀ t s, I s → I { s with nextOfferTime := t }) :
    I (processRemainingOffers now refuse remaining s) := by
  refine (processRemainingOffers_rest (I := fun rest s => (∀ oid ∈ rest, oid ∈ remaining) ∧ I s)
    ⟨fun _ h => h, start⟩ (fun oid rest r h => ?_) fun t s h => ⟨h.1, timer t s h.2⟩).2
  refine ⟨fun x hx => h.1 x (mem_cons_of_mem _ hx), ?_⟩
  exact offer oid (h.1 oid mem_cons_self) r h.2

section Offers

variable {I : Service → Prop} {s : Service}

lemma offerRound_marks (next : ∀ t s, I s → I { s with nextOfferTime := t })
    (timer : ∀ t s, I s → I { s with placeholderOfferableAfter := t })
    (store : ∀ o s, I s → I (storeOffer o s))
    (mark : ∀ k o s, I s → I (modifySlave k (markOffered o) s)) (now : ℚ) (h : I s) :
    I (offerRound now s).service := by
  refine offerRound_inv (I := fun r => I r.service) (next 0 s h) ?_ (fun _ _ => timer _ _)
    (fun _ => store _ _)
  intro sid r hr
  unfold offerFromSlave
  split
  · exact hr
  · split_ifs
    · exact mark _ _ _ (store _ _ hr)
    · exact hr
    · exact hr

lemma generateOffers_of_round {now : ℚ} (send : ∀ os s, I s → I (send (.resourceOffers os) s))
    (h : I (offerRound now s).service) : I (generateOffers now s) := by
  unfold generateOffers
  dsimp only
  split_ifs
  · exact h
  · exact send _ _ h

lemma deleteSlave_keeps (queue : ∀ k s, I s → I (addDeleteElement (.slave k) s))
    (slave : ∀ k g s, (∀ sl, Slave.SameLoad sl (g sl)) → I s → I (modifySlave k g s))
    (place : ∀ d s, I s → I { s with placeholderToSlave := d }) (sid : String) (sl : Slave)
    (h : I s) : I (deleteSlave sid sl s) := by
  have hmod := slave sid (fun sl => { sl with offerable := false }) _ (fun _ => rfl)
    (queue sid s h)
  unfold deleteSlave
  dsimp only
  split
  · exact hmod
  · exact place _ _ hmod

lemma deleteSlave_slaveDict (sid : String) (sl : Slave) (s : Service) :
    (deleteSlave sid sl s).slaveDict =
      s.slaveDict.modify sid (fun sl => { sl with offerable := false }) := by
  unfold deleteSlave
  dsimp only
  split <;> rfl

lemma deleteSlave_deleteElements (sid : String) (sl : Slave) (s : Service) :
    (deleteSlave sid sl s).deleteElements = s.deleteElements ++ [.slave sid] := by
  unfold deleteSlave
  dsimp only
  split <;> rfl

lemma deleteJob_keeps {job : String}
    (slave : ∀ sid sl s, isSlaveOfJob job sid → s.slaveDict.lookup sid = some sl → I s →
      I (deleteSlave sid sl s))
    (jobs : ∀ ids s, s.jobIds = some ids → I s → I { s with jobIds := some (removeJob job ids) })
    (lost : ∀ tid task s, s.taskDict.lookup tid = some task → task.jobId = some job → I s →
      I (processTaskLostStatusUpdate tid task.taskInfo.slaveId s)) (h : I s) :
    I (deleteJob job s).1 := by
  have hslaves : ∀ (l : List String) (s : Service), I s → I (l.foldl (deleteSlaveOfJob job) s) := by
    intro l
    induction l with
    | nil => exact fun _ hs => hs
    | cons sid l ih =>
      refine fun s hs => ih _ ?_
      unfold deleteSlaveOfJob
      split
      · exact hs
      · next sl hl =>
          split_ifs with hjob
          · exact slave sid sl s hjob hl hs
          · exact hs
  have hs := hslaves s.slaveDict.keys s h
  unfold deleteJob
  dsimp only
  split
  · exact hs
  · next ids hids =>
    refine seq_inv (I := I) (forEach_inv (fun tid _ s hs => ?_) (jobs ids _ hids hs)) fun hs => hs
    unfold loseTaskOfJob
    split
    · exact hs
    · next task ht =>
        split_ifs with hjob
        · exact lost tid task s ht hjob hs
        · exact hs

lemma refuseOffer_keeps {oid : String} {r : Refusal}
    (timer : ∀ t s, I s → I { s with placeholderOfferableAfter := t })
    (offer : oid ∈ r.service.offers → ∀ s, I s → I (addDeleteElement (.offer oid) s))
    (queue : ∀ k s, I s → I (addDeleteElement (.slave k) s))
    (slave : ∀ k g s, (∀ sl, Slave.SameLoad sl (g sl)) → I s → I (modifySlave k g s))
    (place : ∀ d s, I s → I { s with placeholderToSlave := d })
    (shutdown : ∀ c s, I s → I (send (.slaveShutdown c) s)) (now : ℚ) (refuse : Option ℚ)
    (h : I r.service) : I (refuseOffer now refuse r oid).service := by
  unfold refuseOffer
  split
  · exact h
  · next ho =>
      have hoffer := offer (mem_of_lookup ho)
      split
      · split_ifs
        · unfold refusePlaceholder
          split
          · exact timer _ _ h
          · exact hoffer _ h
        · exact h
      · unfold refuseSlave
        dsimp only
        split_ifs
        · exact slave _ _ _ (fun _ => rfl) (hoffer _ h)
        · refine deleteSlave_keeps queue slave place _ _ (shutdown _ _ ?_)
          split
          · exact slave _ _ _ (fun _ => rfl) h
          · exact hoffer _ (slave _ _ _ (fun _ => rfl) h)
        · split
          · exact slave _ _ _ (fun _ => rfl) h
          · exact hoffer _ (slave _ _ _ (fun _ => rfl) h)

lemma processRemainingOffers_keeps (next : ∀ t s, I s → I { s with nextOfferTime := t })
    (timer : ∀ t s, I s → I { s with placeholderOfferableAfter := t })
    (offer : ∀ k s, I s → I (addDeleteElement (.offer k) s))
    (queue : ∀ k s, I s → I (addDeleteElement (.slave k) s))
    (slave : ∀ k g s, I s → I (modifySlave k g s))
    (place : ∀ d s, I s → I { s with placeholderToSlave := d })
    (shutdown : ∀ c s, I s → I (send (.slaveShutdown c) s)) (now : ℚ) (refuse : Option ℚ)
    (remaining : List String) (h : I s) : I (processRemainingOffers now refuse remaining s) :=
  processRemainingOffers_rule h (fun _ _ _ hr => refuseOffer_keeps timer (fun _ => offer _) queue
    (fun k g s _ => slave k g s) place shutdown now _ hr) next

lemma scaleUp_keeps (jobs : ∀ ids s, I s → I { s with jobIds := ids }) (count : ℤ)
    (submitted : List JobTuple) (h : I s) : I (scaleUp count submitted s).1 := by
  unfold scaleUp
  generalize (if count = 0 then s.config.scaleCount else count) = n
  dsimp only
  split_ifs
  · exact h
  · exact jobs _ s h

lemma scaleUp_jobs (count : ℤ) (submitted : List JobTuple) (s : Service) :
    (scaleUp count submitted s).2 = [] ∨ (scaleUp count submitted s).2 = submitted := by
  unfold scaleUp
  generalize (if count = 0 then s.config.scaleCount else count) = n
  dsimp only
  split_ifs
  · exact .inl rfl
  · exact .inr rfl

end Offers

/-! ## Registrations, reconciliation and removal -/

section Handlers

variable {I : Service → Prop} {s : Service}

lemma debitSlave_rule {t : TaskInfo} (debit : ∀ k sl s, s.slaveDict.lookup k = some sl → I s →
      I (modifySlave k (fun _ => (debitResources t sl).1) s)) (sid : String) (h : I s) :
    I (debitSlave sid t s).1 := by
  unfold debitSlave
  split
  · exact h
  · next sl hs => exact debit sid sl s hs h

lemma stageTask_rule {reg : RunnerRegistration}
    (bind : ∀ ref t st, I (Staging.service st) → I (bindPlaceholder reg.slaveId ref t st).service)
    (debit : ∀ t s, I s → I (debitSlave reg.slaveId t s).1) {x : String} {st : Staging}
    (h : I st.service) : I (stageTask reg x st).1.service := by
  unfold stageTask
  split
  · exact h
  · split_ifs
    · split
      · exact h
      · dsimp only
        split_ifs
        · exact debit _ _ (bind _ _ _ h)
        · exact debit _ _ h
    · exact h

lemma launchStaged_keeps (launch : ∀ k c ts s, I s → I (send (.stagedLaunch k c ts) s))
    (jobs : ∀ ids s, I s → I { s with jobIds := ids }) {reg : RunnerRegistration} {st : Staging}
    (h : I st.service) : I (launchStaged reg st) := by
  unfold launchStaged
  dsimp only
  split_ifs
  · exact h
  · exact launch _ _ _ _ h
  · exact scaleUp_keeps jobs _ _ (launch _ _ _ _ h)

lemma registerExecutorRunner_rule {reg : RunnerRegistration} (enter : I (enterSlave reg s))
    (slave : ∀ k g s, I s → I (modifySlave k g s))
    (place : ∀ d s, I s → I { s with placeholderToSlave := d })
    (put : ∀ t ∈ reg.tasks, ∀ r s, I s → I (putTask t.taskId r s))
    (launch : ∀ k c ts s, I s → I (send (.stagedLaunch k c ts) s))
    (jobs : ∀ ids s, I s → I { s with jobIds := ids }) : I (registerExecutorRunner reg s).1 := by
  have hdebit : ∀ t s, I s → I (debitSlave reg.slaveId t s).1 := fun _ _ =>
    debitSlave_rule (fun k _ s _ => slave k _ s) reg.slaveId
  unfold registerExecutorRunner
  split_ifs
  · have hloop : I (forEach (stageTask reg) (enterSlave reg s).taskDict.keys
        { service := enterSlave reg s }).1.service :=
      forEach_inv (I := fun st : Staging => I st.service) (fun _ _ _ hs => stageTask_rule
        (fun _ _ _ hs => place _ _ (slave _ _ _ hs)) hdebit hs) enter
    unfold stageTasks
    dsimp only
    split_ifs
    · exact slave _ _ _ (launchStaged_keeps launch jobs hloop)
    · exact hloop
  · exact forEach_inv (fun t ht s hs => hdebit t _ (put t ht _ s hs)) (slave _ _ _ enter)

lemma runStagedTasks_rule (slave : ∀ k g s, Service.KeepsAssets k g s → I s → I (modifySlave k g s))
    (run : ∀ k c x s, I s → I (runTask k c x s)) (reg : ExecutorRegistration) (sid : String)
    (command : Bool) (h : I s) : I (runStagedTasks reg sid command s).1 := by
  have hrun : ∀ job x s, I s → I (runStaged reg sid job command x s).1 := by
    intro job x s hs
    unfold runStaged
    split
    · exact hs
    · split_ifs
      · exact hs
      · exact run _ _ _ _ hs
      · exact run _ _ _ _ (slave _ _ _ (fun _ _ => ⟨rfl, rfl, rfl⟩) hs)
      · exact hs
      · exact hs
  unfold runStagedTasks
  split
  · exact h
  · exact seq_inv (I := I) (forEach_inv (fun x _ s hs => hrun _ x s hs) h) fun hs => hs

lemma registerExecutor_rule (retry : ∀ s, I s → I (send .retry s))
    (slave : ∀ k g s, Service.KeepsAssets k g s → I s → I (modifySlave k g s))
    (done : ∀ c s, I s → I (send (.executorRegistered c) s))
    (run : ∀ k c x s, I s → I (runTask k c x s)) (jobs : ∀ ids s, I s → I { s with jobIds := ids })
    (reg : ExecutorRegistration) (h : I s) : I (registerExecutor reg s).1 := by
  unfold registerExecutor
  split_ifs
  · exact h
  · split
    · exact retry _ h
    · next sid _ _ =>
        have hmod : I (s.modifySlave sid (fun sl => { sl with executorChannel := some reg.channel })) :=
          slave _ _ _ (fun _ _ => ⟨rfl, rfl, rfl⟩) h
        split_ifs
        · exact retry _ h
        · dsimp only
          split_ifs
          · exact done _ _ hmod
          · refine seq_inv (I := I) (runStagedTasks_rule slave run reg _ _ (done _ _ hmod)) fun hs => ?_
            unfold scaleForExecutor
            dsimp only
            split_ifs
            · exact hs
            · exact hs
            · exact scaleUp_keeps jobs _ _ hs

lemma reregisterExecutor_rule {reg : ExecutorReregistration}
    (slave : ∀ k g s, Service.KeepsAssets k g s → I s → I (modifySlave k g s))
    (put : ∀ t ∈ reg.tasks, ∀ r s, r.taskInfo = t → I s → I (putTask t.taskId r s))
    (debit : ∀ t ∈ reg.tasks, ∀ k sl s, s.slaveDict.lookup k = some sl → I s →
      I (modifySlave k (fun _ => (debitResources t sl).1) s))
    (update : ∀ u ∈ (reg.updates.mergeSort replayBefore).map (·.2), ∀ s, I s →
      I (handleStatusUpdate u s).1)
    (done : ∀ c s, I s → I (send (.executorReregistered c) s)) (h : I s) :
    I (reregisterExecutor reg s).1 := by
  have hrunning : ∀ c t (sl : Slave), sl.SameAssets (sl.takeRunning c t) := by
    intro c t sl
    unfold takeRunning
    split
    · exact ⟨rfl, rfl, rfl⟩
    · exact ⟨rfl, rfl, rfl⟩
  unfold reregisterExecutor
  split
  · exact h
  · dsimp only
    split
    · exact slave _ _ _ (fun _ _ => ⟨rfl, rfl, rfl⟩) h
    · refine seq_inv (I := I) (forEach_inv (fun t ht s hs => ?_)
        (slave _ _ _ (fun _ _ => ⟨rfl, rfl, rfl⟩) h)) fun hs => ?_
      · exact debitSlave_rule (debit t ht) _
          (put t ht _ _ rfl (slave _ _ _ (fun sl _ => hrunning _ t sl) hs))
      · exact seq_inv (I := I) (forEach_inv (fun u hu s hs => update u hu s hs) hs) fun hs =>
          slave _ _ _ (fun _ _ => ⟨rfl, rfl, rfl⟩) (done _ _ hs)

lemma reconcileTasks_rule {req : ReconcileRequest}
    (task : ∀ x g s, KeepsNeeds g → I s → I (modifyTask x g s))
    (answer : ∀ x st k s, x ∈ req.named ∨ x ∈ s.taskDict → I s → I (send (.statusUpdate x st k) s))
    (candidate : ∀ d s, I s → I { s with lostCandidate := d })
    (rebind : ∀ http, ∀ x ∈ req.named, ∀ t s, I s → I (rebindTaskDict http x t s)) (now : ℚ)
    (http : Bool) (h : I s) : I (reconcileTasks now http req s).1 := by
  have htask : ∀ q ∈ req.statuses, ∀ s, I s → I (reconcileTask now http req q s).1 := by
    intro q hq s hs
    have hnamed : q.taskId ∈ req.named := mem_map_of_mem hq
    have hres : I (resolveStatus q s) := by
      unfold resolveStatus
      split_ifs
      · exact hs
      · refine task _ _ _ (fun r => ?_) hs
        unfold TaskInfo.resolvePlaceholder
        dsimp only
        split <;> rfl
    unfold reconcileTask
    dsimp only
    split_ifs
    · exact hs
    · split
      · exact hres
      · exact hres
      · exact answer _ _ _ _ (.inl hnamed) hres
      · split
        · exact answer _ _ _ _ (.inl hnamed) hres
        · unfold reconcileLost
          split
          · exact hres
          · exact candidate _ _ hres
          · exact answer _ _ _ _ (.inl hnamed) (rebind _ _ hnamed _ _ hres)
  have hreport : ∀ x s, I s → I (reportTask x s).1 := by
    intro x s hs
    unfold reportTask
    split
    · exact hs
    · next ht =>
        split_ifs
        · exact hs
        · exact answer _ _ _ _ (.inr (mem_of_lookup ht)) hs
        · exact hs
  unfold reconcileTasks
  split_ifs
  · exact seq_inv (I := I) (forEach_inv (fun x _ s hs => hreport x s hs) h) fun hs => hs
  · exact forEach_inv htask h

lemma deleteFramework_keeps (executor : ∀ c s, I s → I (send (.shutdownExecutor c) s))
    (runner : ∀ c s, I s → I (send (.slaveShutdown c) s))
    (jobs : ∀ ids s, I s → I (send (.deleteJobs ids) s))
    (state : ∀ x st s, I s → I (setTaskState x st s))
    (inactive : ∀ s, I s → I { s with active := false }) (h : I s) : I (deleteFramework s).1 := by
  have hexec : ∀ (l : List String) (s : Service), I s →
      I (l.foldl (fun s c => s.send (.shutdownExecutor c)) s) := by
    intro l
    induction l with
    | nil => exact fun _ hs => hs
    | cons c l ih => exact fun s hs => ih _ (executor c s hs)
  have hshut : ∀ (l : List Slave) (s : Service), I s → I (l.foldl shutdownExecutor s) := by
    intro l
    induction l with
    | nil => exact fun _ hs => hs
    | cons slave l ih =>
      refine fun s hs => ih _ ?_
      unfold shutdownExecutor
      split
      · exact runner _ s hs
      · exact hexec _ _ hs
  have hsent := jobs (((s.slaveDict.values.foldl shutdownExecutor s).jobIds.getD []).map (·.id)) _
    (hshut s.slaveDict.values s h)
  unfold deleteFramework
  dsimp only
  split_ifs
  · exact hsent
  · refine seq_inv (I := I) (forEach_inv (fun x _ s hs => ?_) hsent) fun hs =>
      seq_inv (I := I) hs fun hs => inactive _ hs
    unfold forceTask
    split
    · exact hs
    · split_ifs
      · exact hs
      · exact hs
      · exact state _ _ _ hs

def handled (s : Service) : Event → Service
  | .generateOffers now => generateOffers now s
  | .launchTasks _ now req => (launchTasks now req s).1
  | .killTask _ tid => (killTask tid s).1
  | .statusUpdate _ u => (handleStatusUpdate u s).1
  | .reconcileTasks native now req => (reconcileTasks now (!native) req s).1
  | .reviveOffers => reviveOffers s
  | .registerExecutorRunner reg => (registerExecutorRunner reg s).1
  | .registerExecutor reg => (registerExecutor reg s).1
  | .reregisterExecutor reg => (reregisterExecutor reg s).1
  | .deleteJob job => (deleteJob job s).1
  | .unregisterFramework _ => (deleteFramework s).1
  | .otherRequest => s

lemma step_rule {e : Event} (post : ∀ s, I s → I (postprocess s)) (retry : I (s.send .retry))
    (shutdown : ∀ c, I (s.send (.slaveShutdown c)))
    (handle : (s.active = false → ∃ job, e = .deleteJob job) → I (handled s e)) (h : I s) :
    I (step s e) := by
  have hfinish : ∀ native s, I s → I (finish native s) := by
    intro native s hs
    cases native with
    | true => exact post s hs
    | false => exact hs
  by_cases ha : s.active
  · have hh := handle (by simp [ha])
    cases e <;> simp only [step, whenActive, if_pos ha]
    case generateOffers => exact hh
    case deleteJob => exact hh
    case launchTasks | killTask | statusUpdate | reconcileTasks | unregisterFramework =>
      exact hfinish _ _ hh
    all_goals exact post _ hh
  · cases e <;> simp only [step, whenActive, if_neg ha]
    case generateOffers => exact h
    case deleteJob job => exact handle fun _ => ⟨job, rfl⟩
    case launchTasks | killTask | statusUpdate | reconcileTasks => exact hfinish _ _ retry
    case unregisterFramework => exact hfinish _ _ h
    case registerExecutorRunner reg => exact post _ (shutdown reg.channel)
    all_goals exact post _ h

end Handlers

end Urb
