/-
# `Urb.Placeholders` — which slave has taken which placeholder

A task launched on a placeholder is bound to a slave when the runner of its
job registers: the slave's record gets the placeholder, and
`placeholder_to_slave` gets the slave under it.  The map should be that field
read backwards.

The two are written together, in ONE place, but they go apart in several:

    __delete_slave          takes the placeholder out of the map at once and
                            queues the removal of the slave
    handle_status_update    queues the removal of a slave whose last command
                            executor is done, and leaves the map
    register_executor_runner   a slave that takes tasks of two placeholders keeps
                            the second one only; a second runner of the job takes
                            the placeholder from the first in the map

So what is kept is said about the state as the post-processor would leave it
(`PlaceholderBook`), and `Orderly` rules out the second and the third.
-/
import Urb.StagingLoop
import Urb.LaunchLoop

namespace Urb

open Block AList Function Service Slave Iff List

variable {s : Service} {sid : String} {g : Slave → Slave}

def Service.placeholderOf (s : Service) (sid : String) : Option String :=
  (s.slaveDict.lookup sid).bind (·.placeholder)

def Service.heldBy (s : Service) (sid : String) : Option String := (postprocess s).placeholderOf sid

def Service.PlaceholdersMatch (s : Service) : Prop :=
  ∀ p sid, s.placeholderToSlave.lookup p = some sid ↔
    ∃ slave, s.slaveDict.lookup sid = some slave ∧ slave.placeholder = some p

lemma placeholdersMatch_iff : s.PlaceholdersMatch ↔ s.placeholderToSlave.Inverts s.placeholderOf := by
  unfold Service.PlaceholdersMatch AList.Inverts placeholderOf
  simp only [bind_eq_some_iff]

lemma heldBy_eq (s : Service) (sid : String) :
    s.heldBy sid = if .slave sid ∈ s.deleteElements then none else s.placeholderOf sid := by
  unfold heldBy placeholderOf
  rw [lookup_slaveDict_postprocess]
  split_ifs <;> rfl

lemma placeholderOf_of_heldBy {p : String} (h : s.heldBy sid = some p) :
    s.placeholderOf sid = some p := by
  rw [heldBy_eq] at h
  split_ifs at h
  exact h

lemma heldBy_of_placeholderOf (h : s.placeholderOf sid = none) : s.heldBy sid = none := by
  rw [heldBy_eq, h, ite_self]

def Service.KeepsPlace (k : String) (g : Slave → Slave) (s : Service) : Prop :=
  ∀ sl, s.slaveDict.lookup k = some sl → (g sl).placeholder = sl.placeholder

lemma Service.KeepsAssets.place {k : String} (h : s.KeepsAssets k g)
    : s.KeepsPlace k g := fun sl hl => (h sl hl).placeholder

lemma keepsPlace_debit {k : String} {sl : Slave} (hl : s.slaveDict.lookup k = some sl)
    (t : TaskInfo) : s.KeepsPlace k (fun _ => (debitResources t sl).1) := by
  intro sl' hl'
  cases hl.symm.trans hl'
  exact (debitResources_sameControl t sl).placeholder

lemma keepsPlace_launched {k : String} {sl : Slave} (hl : s.slaveDict.lookup k = some sl)
    (t : TaskInfo) : s.KeepsPlace k (fun _ => sl.launched t) := by
  have hexecutor : (sl.placeExecutor t).placeholder = sl.placeholder := by
    unfold placeExecutor
    split_ifs
    · split <;> rfl
    · rfl
    · rfl
  intro sl' hl'
  cases hl.symm.trans hl'
  refine Eq.trans ?_ ((debitResources_sameControl t _).placeholder.trans hexecutor)
  unfold launched
  split_ifs <;> rfl

lemma placeholderOf_modifySlave {k : String} (h : s.KeepsPlace k g) (sid : String) :
    (s.modifySlave k g).placeholderOf sid = s.placeholderOf sid := by
  unfold placeholderOf
  rw [modifySlave_slaveDict, lookup_modify]
  split_ifs with hk
  · subst hk
    cases hl : s.slaveDict.lookup sid with
    | none => rfl
    | some sl => exact h sl hl
  · rfl

@[simp] lemma postprocess_placeholderToSlave (s : Service) :
    (postprocess s).placeholderToSlave = s.placeholderToSlave :=
  postprocess_frame (fun _ _ _ _ _ => rfl) (fun _ _ => rfl) s

/-! ## The invariant -/

def Service.Bound (s : Service) : Prop := s.placeholderToSlave.Inverts s.heldBy

lemma Service.Bound.congr {s' : Service} (h : s.Bound)
    (hmap : s'.placeholderToSlave = s.placeholderToSlave)
    (hslaves : ∀ sid, s'.placeholderOf sid = s.placeholderOf sid)
    (hqueue : ∀ sid, .slave sid ∈ s'.deleteElements ↔ .slave sid ∈ s.deleteElements) : s'.Bound := by
  have hheld : s'.heldBy = s.heldBy := by
    funext sid
    rw [heldBy_eq, heldBy_eq, hslaves]
    simp only [hqueue]
  unfold Service.Bound
  rw [hmap, hheld]
  exact h

structure PlaceholderBook (s : Service) : Prop where
  bound : s.Bound
  apart : ∀ {p sid sid'}, s.placeholderOf sid = some p → s.placeholderOf sid' = some p → sid = sid'

namespace PlaceholderBook

variable {s s' : Service}

section

variable (h : PlaceholderBook s)
include h

lemma congr (hmap : s'.placeholderToSlave = s.placeholderToSlave)
    (hslaves : ∀ sid, s'.placeholderOf sid = s.placeholderOf sid)
    (hqueue : ∀ sid, .slave sid ∈ s'.deleteElements ↔ .slave sid ∈ s.deleteElements) :
    PlaceholderBook s' := by
  refine ⟨h.bound.congr hmap hslaves hqueue, fun {p sid sid'} => ?_⟩
  rw [hslaves, hslaves]
  exact h.apart

lemma of_eq (hmap : s'.placeholderToSlave = s.placeholderToSlave)
    (hslaves : s'.slaveDict = s.slaveDict) (hqueue : s'.deleteElements = s.deleteElements) :
    PlaceholderBook s' :=
  h.congr hmap (fun sid => by unfold placeholderOf; rw [hslaves]) fun sid => by rw [hqueue]

lemma modifySlave {k : String} (hg : s.KeepsPlace k g) : PlaceholderBook (s.modifySlave k g) :=
  h.congr rfl (placeholderOf_modifySlave hg) fun _ => .rfl

lemma queue {e : DeleteElement} (he : ∀ sid, e ≠ .slave sid) :
    PlaceholderBook (s.addDeleteElement e) := by
  refine h.congr rfl (fun _ => rfl) fun sid => ?_
  rw [addDeleteElement_deleteElements, mem_append, mem_singleton]
  exact or_iff_left fun hsid => he sid hsid.symm

lemma queueTask (tid : String) : PlaceholderBook (s.queueTask tid) :=
  h.queue nofun

end

lemma ofPostprocess (h : s.Bound) : PlaceholderBook (postprocess s) := by
  have hheld : (postprocess s).heldBy = (postprocess s).placeholderOf := by
    funext sid
    rw [heldBy_eq, postprocess_deleteElements, if_neg not_mem_nil]
  constructor
  · unfold Service.Bound
    rw [postprocess_placeholderToSlave, hheld]
    exact h
  · exact fun hp hp' => AList.Inverts.apart h hp hp'

lemma postprocess (h : PlaceholderBook s) : PlaceholderBook (postprocess s) := ofPostprocess h.bound

lemma heldBy_queue (hslaves : ∀ k, s'.placeholderOf k = s.placeholderOf k)
    (hqueue : s'.deleteElements = s.deleteElements ++ [.slave sid]) :
    s'.heldBy = update s.heldBy sid none := by
  funext k
  rw [heldBy_eq, hslaves, hqueue, update_apply, heldBy_eq]
  by_cases hk : k = sid
  · simp [hk]
  · simp [hk]

lemma queueSlave (h : PlaceholderBook s) (hnone : s.placeholderOf sid = none) :
    PlaceholderBook (s.addDeleteElement (.slave sid)) := by
  have hheld : (s.addDeleteElement (.slave sid)).heldBy = update s.heldBy sid none :=
    heldBy_queue (fun _ => rfl) rfl
  refine ⟨?_, h.apart⟩
  unfold Service.Bound
  rw [hheld, update_eq_self_iff.mpr (heldBy_of_placeholderOf hnone).symm]
  exact h.bound

lemma deleteSlave (h : PlaceholderBook s) {slave : Slave}
    (hslave : s.placeholderOf sid = slave.placeholder) : PlaceholderBook (deleteSlave sid slave s) := by
  have hplace : ∀ k, (Urb.deleteSlave sid slave s).placeholderOf k = s.placeholderOf k := by
    intro k
    refine Eq.trans ?_ (placeholderOf_modifySlave (s := s) (k := sid)
      (g := fun sl => { sl with offerable := false }) (fun _ _ => rfl) k)
    unfold placeholderOf
    rw [deleteSlave_slaveDict, modifySlave_slaveDict]
  have hheld := heldBy_queue hplace (deleteSlave_deleteElements sid slave s)
  refine ⟨?_, fun {p k k'} hk hk' => ?_⟩
  · unfold Service.Bound
    rw [hheld]
    cases hp : slave.placeholder with
    | none =>
      have hmap : (Urb.deleteSlave sid slave s).placeholderToSlave = s.placeholderToSlave := by
        simp only [Urb.deleteSlave, hp]
        rfl
      rw [hmap, update_eq_self_iff.mpr (heldBy_of_placeholderOf (hslave.trans hp)).symm]
      exact h.bound
    | some p =>
      have hmap : (Urb.deleteSlave sid slave s).placeholderToSlave = s.placeholderToSlave.erase p := by
        simp only [Urb.deleteSlave, hp]
        rfl
      rw [hmap]
      refine AList.Inverts.erase h.bound (fun q hq => ?_) fun k hk => ?_
      · have hown := placeholderOf_of_heldBy hq
        rw [hslave, hp] at hown
        exact (Option.some.inj hown).symm
      · exact h.apart (placeholderOf_of_heldBy hk) (hslave.trans hp)
  · rw [hplace] at hk hk'
    exact h.apart hk hk'

end PlaceholderBook

/-! ## Requests that bind no placeholder -/

namespace PlaceholderBook

variable {s : Service}

lemma send (h : PlaceholderBook s) (m : Message) : PlaceholderBook (s.send m) := h.of_eq rfl rfl rfl

lemma setTaskState (h : PlaceholderBook s) (tid : String) (state : TaskState) :
    PlaceholderBook (s.setTaskState tid state) := h.of_eq rfl rfl rfl

lemma lost (h : PlaceholderBook s) (tid : String) (k : Option String) :
    PlaceholderBook (processTaskLostStatusUpdate tid k s) :=
  ((h.send (.statusUpdate tid .lost k)).setTaskState tid .lost).queueTask tid

lemma generateOffers (h : PlaceholderBook s) (now : ℚ) : PlaceholderBook (generateOffers now s) := by
  have hround : PlaceholderBook (offerRound now s).service :=
    offerRound_marks (fun _ _ h => h.of_eq rfl rfl rfl) (fun _ _ h => h.of_eq rfl rfl rfl)
      (fun _ _ h => h.of_eq rfl rfl rfl) (fun _ _ _ h => h.modifySlave fun _ _ => rfl) now h
  exact generateOffers_of_round (fun _ _ h => h.send _) hround

lemma refuseOffer {r : Refusal} (h : PlaceholderBook r.service) (now : ℚ) (refuse : Option ℚ)
    (oid : String) : PlaceholderBook (refuseOffer now refuse r oid).service := by
  unfold Urb.refuseOffer
  split
  · exact h
  · next o _ =>
      split
      · split_ifs
        · unfold refusePlaceholder
          split
          · exact h.of_eq rfl rfl rfl
          · exact h.queue nofun
        · exact h
      · next slave hs =>
          have hslave : r.service.placeholderOf o.slaveId = slave.placeholder := by
            unfold placeholderOf
            rw [hs]
            rfl
          -- The record that is given up is the one before the refusal was counted.
          have hrefused : ∀ after, PlaceholderBook (r.service.modifySlave o.slaveId (refused after)) ∧
              (r.service.modifySlave o.slaveId (refused after)).placeholderOf o.slaveId =
                slave.placeholder := fun after =>
            ⟨h.modifySlave fun _ _ => rfl,
              (placeholderOf_modifySlave (g := refused after) (fun _ _ => rfl) _).trans hslave⟩
          unfold refuseSlave
          dsimp only
          split_ifs
          · exact (h.queue (e := .offer oid) nofun).modifySlave fun _ _ => rfl
          · refine deleteSlave (send ?_ _) ?_
            · split
              · exact (hrefused _).1
              · exact (hrefused _).1.queue nofun
            · split
              · exact (hrefused _).2
              · exact (hrefused _).2
          · split
            · exact (hrefused _).1
            · exact (hrefused _).1.queue nofun

variable (h : PlaceholderBook s)
include h

lemma launchTasks (now : ℚ) (req : LaunchTasksRequest) : PlaceholderBook (launchTasks now req s).1 := by
  refine launchTasks_rule (h.of_eq rfl rfl rfl) (fun _ _ _ hst => ?_) fun _ _ _ hs =>
    processRemainingOffers_rule hs (fun oid _ r hr => hr.refuseOffer now _ oid)
      fun _ _ h => h.of_eq rfl rfl rfl
  exact launchTask_rule (fun _ _ _ h => h.of_eq rfl rfl rfl)
    (fun _ _ _ h => h.of_eq rfl rfl rfl) (fun _ _ _ _ hs h => h.modifySlave (keepsPlace_launched hs _))
    (fun _ h => h.queueTask _) (fun _ _ h => h.of_eq rfl rfl rfl) (fun _ _ _ h => h.send _)
    (fun _ _ _ _ h => h.send _) (fun _ _ _ h => h.send _) hst

lemma killTask (tid : String) : PlaceholderBook (killTask tid s).1 := by
  have hmarked : ∀ task, PlaceholderBook (markKilled tid task s) := fun task =>
    ((h.setTaskState tid .killed).queueTask tid).send _
  refine killTask_rule h (fun task _ => hmarked task) (fun _ _ h => h.send _) (fun _ h => h.send _)
    (fun _ _ h => h.send _) fun task key slave _ hs => (hmarked task).modifySlave fun sl hl => ?_
  cases hs.symm.trans hl
  exact (creditResources_sameControl task.taskInfo slave).placeholder

lemma registerExecutor (reg : ExecutorRegistration) : PlaceholderBook (registerExecutor reg s).1 :=
  registerExecutor_rule (fun _ h => h.send _) (fun _ _ _ hg h => h.modifySlave hg.place)
    (fun _ _ h => h.send _) (fun _ _ _ _ h => h.of_eq rfl rfl rfl) (fun _ _ h => h.of_eq rfl rfl rfl) reg h

lemma deleteJob (job : String) : PlaceholderBook (deleteJob job s).1 := by
  refine deleteJob_keeps (fun sid sl s _ hs h => h.deleteSlave ?_)
    (fun _ _ _ h => h.of_eq rfl rfl rfl) (fun tid task _ _ _ h => h.lost tid _) h
  unfold placeholderOf
  rw [hs]
  rfl

lemma reviveOffers : PlaceholderBook (reviveOffers s) := by
  refine h.congr rfl (fun sid => ?_) fun _ => .rfl
  unfold placeholderOf Urb.reviveOffers
  rw [lookup_mapVals]
  cases s.slaveDict.lookup sid <;> rfl

lemma reconcileTasks (now : ℚ) (http : Bool) (req : ReconcileRequest) :
    PlaceholderBook (reconcileTasks now http req s).1 :=
  reconcileTasks_rule (fun _ _ _ _ h => h.of_eq rfl rfl rfl) (fun _ _ _ _ _ h => h.send _)
    (fun _ _ h => h.of_eq rfl rfl rfl) (fun _ _ _ _ _ h => h.of_eq rfl rfl rfl) now http h

lemma deleteFramework : PlaceholderBook (deleteFramework s).1 :=
  deleteFramework_keeps (fun _ _ h => h.send _) (fun _ _ h => h.send _) (fun _ _ h => h.send _)
    (fun _ _ _ h => h.of_eq rfl rfl rfl) (fun _ h => h.of_eq rfl rfl rfl) h

end PlaceholderBook

/-! ## Status updates -/

def Slave.OtherActive (tid : String) (slave : Slave) : Prop :=
  ∃ other ∈ slave.commandExecutors.keys, other ≠ tid ∧
    ∃ e ∈ slave.commandExecutors.lookup other, e.active = true

instance (tid : String) (slave : Slave) : Decidable (slave.OtherActive tid) :=
  inferInstanceAs (Decidable (∃ other ∈ slave.commandExecutors.keys, _))

def LeavesExecutor (u : StatusUpdate) (s : Service) : Prop :=
  (u.state = .finished ∨ u.state = .failed) →
    ∀ task ∈ s.taskDict.lookup u.taskId, ∀ sid ∈ u.slaveRef task.taskInfo,
      ∀ slave ∈ s.slaveDict.lookup sid, slave.isCommandExecutor = true → slave.placeholder ≠ none →
        slave.OtherActive u.taskId

instance (u : StatusUpdate) (s : Service) : Decidable (LeavesExecutor u s) :=
  inferInstanceAs (Decidable ((u.state = .finished ∨ u.state = .failed) → _))

lemma Slave.OtherActive.finishEntry {slave : Slave} {tid : String} (h : slave.OtherActive tid) :
    (slave.finishEntry tid).values.any (·.active) := by
  obtain ⟨other, -, hne, e, he, hactive⟩ := h
  refine any_eq_true.mpr ⟨e, mem_values_iff.mpr ⟨other, ?_⟩, hactive⟩
  rw [Slave.finishEntry, AList.lookup_modify_ne hne]
  exact he

namespace PlaceholderBook

variable {s : Service}

lemma finishOnSlave (h : PlaceholderBook s) {tid : String} {slave : Slave} {task : TaskRecord}
    (hs : s.slaveDict.lookup sid = some slave)
    (hleft : slave.isCommandExecutor → slave.placeholder ≠ none → slave.OtherActive tid) :
    PlaceholderBook (finishOnSlave tid sid slave task s).1 := by
  unfold Urb.finishOnSlave
  split_ifs with hc
  · have hentry : PlaceholderBook (s.modifySlave sid
        (fun sl => { sl with commandExecutors := slave.finishEntry tid })) :=
      h.modifySlave fun _ _ => rfl
    unfold finishCommand
    split
    · exact h
    · dsimp only
      split_ifs with hany
      · exact hentry
      · refine hentry.queueSlave ?_
        have hnone : slave.placeholder = none := by
          by_contra hp
          exact hany (hleft hc hp).finishEntry
        unfold placeholderOf
        rw [modifySlave_slaveDict, lookup_modify_self, hs]
        exact hnone
  · refine h.modifySlave fun sl hl => ?_
    cases hs.symm.trans hl
    exact (creditResources_sameControl task.taskInfo slave).placeholder

lemma handleStatusUpdate (h : PlaceholderBook s) {u : StatusUpdate} (hu : LeavesExecutor u s) :
    PlaceholderBook (handleStatusUpdate u s).1 := by
  refine handleStatusUpdate_rule (h.send _) ((h.send _).send _) fun task ht => ?_
  have hforward : PlaceholderBook (forwardUpdate u task s) :=
    ((h.send (.statusUpdateReceived u.taskId u.state)).setTaskState u.taskId u.state).send _
  rw [settleUpdate_eq]
  split
  · exact hforward
  · next sid slave htarget =>
      have hs := lookup_of_finishTarget htarget
      refine seq_inv (I := PlaceholderBook) (hforward.finishOnSlave hs fun hc hp => ?_)
        fun hs => hs.queueTask _
      obtain ⟨hstate, href⟩ := ref_of_finishTarget htarget
      exact hu hstate task ht sid href slave hs hc hp

lemma reregisterExecutor (h : PlaceholderBook s) {reg : ExecutorReregistration}
    (hu : ∀ u ∈ reg.updates, u.2.state ≠ .finished ∧ u.2.state ≠ .failed) :
    PlaceholderBook (reregisterExecutor reg s).1 := by
  refine reregisterExecutor_rule (fun _ _ _ hg h => h.modifySlave hg.place)
    (fun _ _ _ _ _ h => h.of_eq rfl rfl rfl)
    (fun t _ _ _ _ hs h => h.modifySlave (keepsPlace_debit hs t))
    (fun u hmem s hs => hs.handleStatusUpdate fun hstate => ?_) (fun _ _ h => h.send _) h
  obtain ⟨⟨time, u'⟩, hmem', rfl⟩ := mem_map.mp hmem
  obtain ⟨hfin, hfail⟩ := hu _ ((mergeSort_perm _ _).subset hmem')
  exact absurd hstate (not_or.mpr ⟨hfin, hfail⟩)

end PlaceholderBook

/-! ## Registrations -/

def RunnerRegistration.refs (reg : RunnerRegistration) (s : Service) : List String :=
  if reg.tasks = [] then
    (waitingTasks reg.jobId s.taskDict).filterMap (fun t => t.slaveRef.filter isPlaceholder)
  else []

structure TakesOne (reg : RunnerRegistration) (s : Service) : Prop where
  stays : .slave reg.slaveId ∉ s.deleteElements
  vacant : s.placeholderOf reg.slaveId = none
  free : ∀ p ∈ reg.refs s, s.placeholderToSlave.lookup p = none
  one : ∀ p ∈ reg.refs s, ∀ q ∈ reg.refs s, p = q

instance (reg : RunnerRegistration) (s : Service) : Decidable (TakesOne reg s) :=
  decidable_of_iff
    (.slave reg.slaveId ∉ s.deleteElements ∧ s.placeholderOf reg.slaveId = none ∧
      (∀ p ∈ reg.refs s, s.placeholderToSlave.lookup p = none) ∧
      ∀ p ∈ reg.refs s, ∀ q ∈ reg.refs s, p = q)
    ⟨fun ⟨a, b, c, d⟩ => ⟨a, b, c, d⟩, fun ⟨a, b, c, d⟩ => ⟨a, b, c, d⟩⟩

lemma mem_refs {reg : RunnerRegistration} {tid p : String} {task : TaskRecord}
    (hreg : reg.tasks = []) (ht : s.taskDict.lookup tid = some task)
    (hw : task.state = .staging ∧ task.jobId = some reg.jobId)
    (href : task.taskInfo.slaveRef = some p) (hp : isPlaceholder p) : p ∈ reg.refs s := by
  have hwaits : task.taskInfo ∈ waitingTasks reg.jobId s.taskDict := mem_map_of_mem (mem_filter.mpr
      ⟨mem_values_iff.mpr ⟨tid, ht⟩, decide_eq_true hw⟩)
  rw [RunnerRegistration.refs, if_pos hreg]
  refine mem_filterMap.mpr ⟨task.taskInfo, hwaits, ?_⟩
  rw [href]
  exact Option.filter_some_pos hp

structure Binds (reg : RunnerRegistration) (s s' : Service) : Prop where
  tasks : s'.taskDict = s.taskDict
  queue : s'.deleteElements = s.deleteElements
  here : reg.slaveId ∈ s'.slaveDict
  bound : s'.Bound
  free : s'.placeholderOf reg.slaveId = none → ∀ p ∈ reg.refs s, s'.placeholderToSlave.lookup p = none
  one : ∀ q, s'.placeholderOf reg.slaveId = some q → ∀ p ∈ reg.refs s, p = q

namespace Binds

variable {reg : RunnerRegistration} {s s' : Service}

lemma modifySlave (h : Binds reg s s') {k : String} (hg : s'.KeepsPlace k g) :
    Binds reg s (s'.modifySlave k g) := by
  have hplace := placeholderOf_modifySlave hg
  refine ⟨h.tasks, h.queue, mem_modify.mpr h.here, h.bound.congr rfl hplace fun _ => .rfl, ?_, ?_⟩
  · rw [hplace]
    exact h.free
  · rw [hplace]
    exact h.one

lemma bind {st : Staging} (h : Binds reg s st.service) (hone : TakesOne reg s) {p : String}
    (hp : p ∈ reg.refs s) (t : TaskInfo) :
    Binds reg s (bindPlaceholder reg.slaveId p t st).service := by
  set s' := (bindPlaceholder reg.slaveId p t st).service with hs'
  have htake : ∀ slave : Slave, (slave.takePlaceholder p t).placeholder = some p := by
    intro slave
    unfold takePlaceholder
    split <;> rfl
  have hplace : ∀ k, s'.placeholderOf k =
      if k = reg.slaveId then some p else st.service.placeholderOf k := by
    intro k
    show ((st.service.slaveDict.modify reg.slaveId _).lookup k).bind _ = _
    rw [lookup_modify]
    split_ifs with hk
    · obtain ⟨slave, hslave⟩ := exists_lookup_of_mem h.here
      rw [hk, hslave]
      exact htake slave
    · rfl
  have hstays : .slave reg.slaveId ∉ st.service.deleteElements := h.queue ▸ hone.stays
  have hheld : s'.heldBy = update st.service.heldBy reg.slaveId (some p) := by
    funext k
    rw [heldBy_eq, hplace, update_apply, heldBy_eq]
    have hqueue : s'.deleteElements = st.service.deleteElements := rfl
    rw [hqueue]
    by_cases hk : k = reg.slaveId
    · rw [hk, if_neg hstays, if_pos rfl, if_pos rfl]
    · rw [if_neg hk, if_neg hk]
  refine ⟨h.tasks, h.queue, mem_modify.mpr h.here, ?_, fun hnone => ?_, fun q hq => ?_⟩
  · show AList.Inverts (st.service.placeholderToSlave.insert p reg.slaveId) s'.heldBy
    rw [hheld]
    cases hold : st.service.placeholderOf reg.slaveId with
    | none => exact AList.Inverts.insert h.bound (h.free hold p hp) (heldBy_of_placeholderOf hold)
    | some q =>
      have hsame : st.service.heldBy reg.slaveId = some p := by
        rw [heldBy_eq, if_neg hstays, hold, h.one q hold p hp]
      rw [update_eq_self_iff.mpr hsame.symm]
      exact AList.Inverts.insert_same h.bound hsame
  · rw [hplace, if_pos rfl] at hnone
    cases hnone
  · rw [hplace, if_pos rfl] at hq
    cases hq
    exact fun p' hp' => hone.one p' hp' p hp

lemma stageTask {st : Staging} (h : Binds reg s st.service) (hone : TakesOne reg s)
    (hreg : reg.tasks = []) (tid : String) : Binds reg s (stageTask reg tid st).1.service := by
  have hdebit : ∀ t (s' : Service), Binds reg s s' → Binds reg s (debitSlave reg.slaveId t s').1 :=
    fun t s' h' => debitSlave_rule (fun _ _ _ hs h => h.modifySlave (keepsPlace_debit hs t)) _ h'
  unfold Urb.stageTask
  split
  · exact h
  · next task ht =>
      rw [h.tasks] at ht
      split_ifs with hw
      · split
        · exact h
        · next p href =>
            dsimp only
            split_ifs with hp
            · exact hdebit _ _ (h.bind hone (mem_refs hreg ht hw href hp) _)
            · exact hdebit _ _ h
      · exact h

end Binds

lemma placeholderOf_enterSlave {reg : RunnerRegistration}
    (hvacant : s.placeholderOf reg.slaveId = none) (k : String) :
    (enterSlave reg s).placeholderOf k = s.placeholderOf k := by
  show ((s.slaveDict.insert reg.slaveId _).lookup k).bind _ = _
  rw [lookup_insert_eq_ite]
  split_ifs with hk
  · rw [hk, hvacant]
    rfl
  · rfl

namespace PlaceholderBook

variable {s : Service} {reg : RunnerRegistration}

lemma adoptTasks (h : PlaceholderBook s) : PlaceholderBook (adoptTasks reg s).1 := by
  refine forEach_inv (fun t _ s hs => ?_) (h.modifySlave fun _ _ => rfl)
  exact debitSlave_rule (fun _ _ _ hs h => h.modifySlave (keepsPlace_debit hs t)) _
    (hs.of_eq rfl rfl rfl)

lemma registerExecutorRunner (h : PlaceholderBook s) (hone : TakesOne reg s) :
    (registerExecutorRunner reg s).1.Bound := by
  have hplace := placeholderOf_enterSlave hone.vacant
  have henter : PlaceholderBook (enterSlave reg s) := h.congr rfl hplace fun _ => .rfl
  unfold Urb.registerExecutorRunner
  split_ifs with hreg
  · have hstart : Binds reg s (enterSlave reg s) := by
      refine ⟨rfl, rfl, (mem_insert _).mpr (.inl rfl), henter.bound, fun _ => hone.free, ?_⟩
      rw [hplace, hone.vacant]
      exact nofun
    have hloop : Binds reg s (stagingLoop reg s).1.service :=
      forEach_inv (I := fun st : Staging => Binds reg s st.service)
        (fun tid _ _ hst => hst.stageTask hone hreg tid) hstart
    have hlaunched : (launchStaged reg (stagingLoop reg s).1).Bound :=
      launchStaged_keeps (fun _ _ _ _ hs => hs.congr rfl (fun _ => rfl) fun _ => .rfl)
        (fun _ _ hs => hs.congr rfl (fun _ => rfl) fun _ => .rfl) hloop.bound
    unfold stageTasks
    dsimp only
    split_ifs
    · exact hlaunched.congr rfl (placeholderOf_modifySlave fun _ _ => rfl) fun _ => .rfl
    · exact hloop.bound
  · exact henter.adoptTasks.bound

end PlaceholderBook

/-! ## Runs -/

def Orderly (s : Service) : Event → Prop
  | .registerExecutorRunner reg => s.active = true → TakesOne reg s
  | .statusUpdate _ u => s.active = true → LeavesExecutor u s
  | .reregisterExecutor reg =>
    s.active = true → ∀ u ∈ reg.updates, u.2.state ≠ .finished ∧ u.2.state ≠ .failed
  | _ => True

instance (s : Service) : DecidablePred (Orderly s)
  | .registerExecutorRunner reg => inferInstanceAs (Decidable (s.active = true → TakesOne reg s))
  | .statusUpdate _ u => inferInstanceAs (Decidable (s.active = true → LeavesExecutor u s))
  | .reregisterExecutor reg => inferInstanceAs (Decidable
      (s.active = true → ∀ u ∈ reg.updates, u.2.state ≠ .finished ∧ u.2.state ≠ .failed))
  | .generateOffers _ | .launchTasks _ _ _ | .killTask _ _ | .reconcileTasks _ _ _ | .reviveOffers
  | .registerExecutor _ | .deleteJob _ | .unregisterFramework _ | .otherRequest =>
    inferInstanceAs (Decidable True)

namespace PlaceholderBook

variable {s : Service}

lemma fresh (config : Config) (frameworkId hostname : String) (http : Bool) :
    PlaceholderBook (fresh config frameworkId hostname http) := by
  have hnone : ∀ sid, (Service.fresh config frameworkId hostname http).placeholderOf sid = none :=
    fun _ => rfl
  refine ⟨AList.Inverts.empty fun sid => heldBy_of_placeholderOf (hnone sid), fun hp => ?_⟩
  rw [hnone] at hp
  cases hp

lemma finish (h : PlaceholderBook s) (native : Bool) : PlaceholderBook (finish native s) := by
  unfold Urb.finish
  split_ifs
  · exact h.postprocess
  · exact h

lemma whenActive (h : PlaceholderBook s) {handler : Block Service}
    (hactive : s.active → PlaceholderBook (handler s).1) : PlaceholderBook (whenActive handler s) := by
  unfold Urb.whenActive
  split_ifs with ha
  · exact hactive ha
  · exact h.send _

lemma step (h : PlaceholderBook s) {e : Event} (he : Orderly s e) : PlaceholderBook (step s e) := by
  cases e with
  | generateOffers now =>
    simp only [Urb.step]
    split_ifs
    · exact h.generateOffers now
    · exact h
  | launchTasks native now req => exact (h.whenActive fun _ => h.launchTasks now req).finish native
  | killTask native tid => exact (h.whenActive fun _ => h.killTask tid).finish native
  | statusUpdate native u =>
    exact (h.whenActive fun ha => h.handleStatusUpdate (he ha)).finish native
  | reconcileTasks native now req =>
    exact (h.whenActive fun _ => h.reconcileTasks now (!native) req).finish native
  | reviveOffers =>
    simp only [Urb.step]
    split_ifs
    · exact h.reviveOffers.postprocess
    · exact h.postprocess
  | registerExecutorRunner reg =>
    simp only [Urb.step]
    split_ifs with ha
    · exact ofPostprocess (h.registerExecutorRunner (he ha))
    · exact (h.send _).postprocess
  | registerExecutor reg =>
    simp only [Urb.step]
    split_ifs
    · exact (h.registerExecutor reg).postprocess
    · exact h.postprocess
  | reregisterExecutor reg =>
    simp only [Urb.step]
    split_ifs with ha
    · exact (h.reregisterExecutor (he ha)).postprocess
    · exact h.postprocess
  | deleteJob job => exact h.deleteJob job
  | unregisterFramework native =>
    simp only [Urb.step]
    split_ifs
    · exact h.deleteFramework.finish native
    · exact h.finish native
  | otherRequest => exact h.postprocess

end PlaceholderBook

theorem placeholders_match {config : Config} {frameworkId hostname : String} {http : Bool}
    {es : List Event}
    (h : Machine.Guarded step Orderly (Service.fresh config frameworkId hostname http) es) :
    (postprocess (runFrom (Service.fresh config frameworkId hostname http) es)).PlaceholdersMatch ∧
      ((runFrom (Service.fresh config frameworkId hostname http) es).deleteElements = [] →
        (runFrom (Service.fresh config frameworkId hostname http) es).PlaceholdersMatch) := by
  have hbook : PlaceholderBook (runFrom (Service.fresh config frameworkId hostname http) es) :=
    Machine.run_inv (fun _ _ hs he => hs.step he) (PlaceholderBook.fresh config frameworkId hostname http)
      h
  generalize runFrom (Service.fresh config frameworkId hostname http) es = s at hbook
  refine ⟨placeholdersMatch_iff.mpr ?_, fun hqueue => placeholdersMatch_iff.mpr ?_⟩
  · rw [postprocess_placeholderToSlave]
    exact hbook.bound
  · have hheld : s.heldBy = s.placeholderOf := by
      funext sid
      rw [heldBy_eq, hqueue, if_neg List.not_mem_nil]
    exact hheld ▸ hbook.bound

def commandOnPlaceholder : Event :=
  .launchTasks true 0 { offerIds := [], tasks :=
    [{ info := { taskId := "a", slaveId := some "place-holder-1" }, submitted := [{ id := "7" }] }] }

def commandStarted : List Event :=
  [commandOnPlaceholder, runnerUp "7" "c7",
    .registerExecutor { replyTo := "c7", channel := "x7", executorId := "a" }]

theorem placeholders_match_started :
    Machine.Guarded step Orderly smallService commandStarted ∧
      (postprocess (runFrom smallService commandStarted)).PlaceholdersMatch ∧
      ((runFrom smallService commandStarted).deleteElements = [] →
        (runFrom smallService commandStarted).PlaceholdersMatch) :=
  ⟨by decide +kernel, placeholders_match (by decide +kernel)⟩

def commandFinished : Service :=
  runFrom smallService (commandStarted ++
    [.statusUpdate true { taskId := "a", state := .finished, slaveId := some (slaveOf "7" "c7") }])

theorem placeholders_match_finished :
    commandFinished.deleteElements = [] ∧ ¬ commandFinished.PlaceholdersMatch := by
  refine ⟨by decide +kernel, fun hmatch => ?_⟩
  have hmap : commandFinished.placeholderToSlave.lookup "place-holder-1" = some (slaveOf "7" "c7") := by
    decide +kernel
  have hgone : (commandFinished.slaveDict.lookup (slaveOf "7" "c7")).isSome = false := by
    decide +kernel
  obtain ⟨slave, hslave, -⟩ := (hmatch _ _).mp hmap
  rw [hslave] at hgone
  cases hgone

end Urb
