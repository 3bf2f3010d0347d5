/-
# `Urb.Stock` — the resources of a slave against the tasks placed on it

Nothing in the service says which tasks a slave is running: the debit and the
credit are made by different handlers, on what the slave id in a message leads
to.  The books are kept here, beside the service, as `Placements`: the tasks
that have been placed on a slave and have not reached a terminal state, with the
slave and the task info they were placed with.

    placed     the task was launched on the registered slave, or the runner of
               its job has taken it from its placeholder
    ended      a status update with a terminal state has gone to the framework
               (`ended`, read off the wire)

`Balanced` is the balance of one slave: what is left and what its tasks asked
for make up what it had, and the task count is their number.  `Audited` demands it
of every slave that does not run command executors, and that the record of a
placed task asks for what was taken.

Most handlers touch neither amounts nor resource lists and only end tasks
(`EndsOnly`).
-/
import Urb.Basis.Holdings
import Urb.Frames

namespace Urb

open Block List AList Holdings

variable {tid : String}

/-! ## The books -/

abbrev Placements := Holdings String String TaskInfo

def Config.initial (config : Config) (name : String) : Option ℚ :=
  (initializeSlaveResources config "" "").amount name

structure Balanced (h : Placements) (config : Config) (sid : String) (slave : Slave) : Prop where
  amount : ∀ name, (slave.amount name).map (· + h.total sid (·.need name)) = config.initial name
  count : slave.taskCount = h.total sid (fun _ => (1 : ℤ))

/-- The books of a state are in order. -/
structure Audited (h : Placements) (s : Service) : Prop where
  balanced : ∀ sid slave, s.slaveDict.lookup sid = some slave → slave.isCommandExecutor = false →
    Balanced h s.config sid slave
  asked : ∀ tid x r, h.lookup tid = some x → s.taskDict.lookup tid = some r →
    r.taskInfo.resources = x.item.resources

def liveOn (h : Placements) (d : Dict String Slave) (tid : String) : Option String :=
  match h.lookup tid with
  | none => none
  | some x =>
    match d.lookup x.owner with
    | none => none
    | some slave => if slave.isCommandExecutor then none else some x.owner

lemma liveOn_eq_some_iff {h : Placements} {d : Dict String Slave} {sid : String} :
    liveOn h d tid = some sid ↔ ∃ x slave, h.lookup tid = some x ∧ x.owner = sid ∧
      d.lookup sid = some slave ∧ slave.isCommandExecutor = false := by
  unfold liveOn
  constructor
  · intro hl
    split at hl
    · cases hl
    · next x hx =>
        split at hl
        · cases hl
        · next slave hs =>
            split_ifs at hl with hc
            cases hl
            exact ⟨x, slave, hx, rfl, hs, Bool.eq_false_iff.mpr hc⟩
  · rintro ⟨x, slave, hx, rfl, hs, hc⟩
    simp only [hx, hs, hc, Bool.false_eq_true, if_false]

lemma liveOn_of_not_mem {h : Placements} (htid : tid ∉ h) (d : Dict String Slave) :
    liveOn h d tid = none := by
  rw [liveOn, lookup_eq_none.mpr htid]

/-! ## Tasks that end -/

def Message.ends : Message → Option String
  | .statusUpdate tid state _ => if state.isTerminal then some tid else none
  | _ => none

def ended (s s' : Service) : List String :=
  (s'.wire.take (s'.wire.length - s.wire.length)).filterMap (·.ends)

def Ends (s s' : Service) (ks : List String) : Prop :=
  ∃ new, s'.wire = new ++ s.wire ∧ new.filterMap (·.ends) = ks

namespace Ends

variable {s s' s'' : Service} {ks ks' : List String}

lemma ended (h : Ends s s' ks) : ended s s' = ks := by
  obtain ⟨new, hw, rfl⟩ := h
  rw [Urb.ended, hw, length_append, Nat.add_sub_cancel, take_left]

lemma of_wire (h : Ends s s' ks) (hw : s''.wire = s'.wire) : Ends s s'' ks := by
  obtain ⟨new, hnew, hks⟩ := h
  exact ⟨new, hw.trans hnew, hks⟩

lemma refl (s : Service) : Ends s s [] := ⟨[], rfl, rfl⟩

lemma trans (h : Ends s s' ks) (k : Ends s' s'' ks') : Ends s s'' (ks' ++ ks) := by
  obtain ⟨new, hw, rfl⟩ := h
  obtain ⟨new', hw', rfl⟩ := k
  exact ⟨new' ++ new, by rw [hw', hw, append_assoc], filterMap_append⟩

lemma send {m : Message} (h : Ends s s' ks) (hm : m.ends = none) : Ends s (s'.send m) ks := by
  obtain ⟨new, hw, rfl⟩ := h
  exact ⟨m :: new, congrArg (m :: ·) hw, filterMap_cons_none hm⟩

lemma report {m : Message} (h : Ends s s' ks) (hm : m.ends = some tid) :
    Ends s (s'.send m) (tid :: ks) := by
  obtain ⟨new, hw, rfl⟩ := h
  exact ⟨m :: new, congrArg (m :: ·) hw, filterMap_cons_some hm⟩

end Ends

/-! ## What leaves the books in order -/

structure Slave.SameStock (a b : Slave) : Prop where
  amount : b.amount = a.amount
  taskCount : b.taskCount = a.taskCount
  plain : b.isCommandExecutor = false → a.isCommandExecutor = false

namespace Slave.SameStock

variable {a b c : Slave}

lemma refl (a : Slave) : SameStock a a := ⟨rfl, rfl, id⟩

lemma trans (h : SameStock a b) (k : SameStock b c) : SameStock a c :=
  ⟨k.amount.trans h.amount, k.taskCount.trans h.taskCount, fun hc => h.plain (k.plain hc)⟩

lemma of_sameLoad (h : SameLoad a b) : SameStock a b :=
  ⟨(congrArg Slave.amount h : _), h.taskCount, fun hc => h.command.symm.trans hc⟩

lemma entries {entries : Dict String CommandExecutor}
    (hkeys : entries.keys.isEmpty → a.commandExecutors.keys.isEmpty) :
    SameStock a { a with commandExecutors := entries } := by
  refine ⟨rfl, rfl, fun hc => ?_⟩
  simp only [Slave.isCommandExecutor, Bool.not_eq_false'] at hc ⊢
  exact hkeys hc

lemma placeExecutor (t : TaskInfo) : SameStock a (a.placeExecutor t) := by
  have hinsert : SameStock a { a with commandExecutors := a.commandExecutors.insert t.taskId {} } :=
    entries fun hk => by simp at hk
  unfold Slave.placeExecutor
  split_ifs
  · split
    · exact ⟨rfl, rfl, id⟩
    · exact hinsert
  · exact hinsert
  · exact refl a

lemma modifyEntry (x : String) (f : CommandExecutor → CommandExecutor) :
    SameStock a { a with commandExecutors := a.commandExecutors.modify x f } := by
  refine entries fun h => ?_
  rwa [keys_modify] at h

end Slave.SameStock

lemma Balanced.of_sameStock {h : Placements} {config : Config} {sid : String} {a b : Slave}
    (hb : Balanced h config sid a) (hs : a.SameStock b) : Balanced h config sid b :=
  ⟨fun name => by rw [hs.amount]; exact hb.amount name, by rw [hs.taskCount]; exact hb.count⟩

namespace Balanced

variable {h : Placements} {config : Config} {sid : String} {slave : Slave}

lemma debit {t : TaskInfo} (hb : Balanced h config sid slave) (hnew : t.taskId ∉ h)
    (hd : (debitResources t slave).2 = .next) :
    Balanced (h.insert t.taskId ⟨sid, t⟩) config sid (debitResources t slave).1 := by
  refine ⟨fun name => ?_, ?_⟩
  · rw [debitResources_amount hd, Option.map_map, ← hb.amount name, total_insert _ _ hnew, term_self]
    congr 1
    funext a
    simp only [Function.comp_apply]
    ring
  · rw [debitResources_taskCount hd, hb.count, total_insert _ _ hnew, term_self, add_comm]

lemma insert_ne {x : Holding String TaskInfo} (hb : Balanced h config sid slave) (hnew : tid ∉ h)
    (hne : x.owner ≠ sid) : Balanced (h.insert tid x) config sid slave := by
  refine ⟨fun name => ?_, ?_⟩
  · rw [total_insert _ _ hnew, term_ne hne, zero_add]
    exact hb.amount name
  · rw [total_insert _ _ hnew, term_ne hne, zero_add]
    exact hb.count

end Balanced

structure SameStocks (ks : List String) (s s' : Service) : Prop where
  config : s'.config = s.config
  slaves : ∀ sid b, s'.slaveDict.lookup sid = some b →
    ∃ a, s.slaveDict.lookup sid = some a ∧ a.SameStock b
  records : ∀ tid r', s'.taskDict.lookup tid = some r' → tid ∈ ks ∨
    ∃ r, s.taskDict.lookup tid = some r ∧ r'.taskInfo.resources = r.taskInfo.resources

namespace SameStocks

variable {ks ks' : List String} {s s' s'' : Service}

lemma refl (s : Service) : SameStocks ks s s :=
  ⟨rfl, fun _ a ha => ⟨a, ha, .refl a⟩, fun _ r hr => .inr ⟨r, hr, rfl⟩⟩

lemma trans (h : SameStocks ks s s') (k : SameStocks ks' s' s'') : SameStocks (ks' ++ ks) s s'' := by
  refine ⟨k.config.trans h.config, fun sid c hc => ?_, fun tid r'' hr'' => ?_⟩
  · obtain ⟨b, hb, hbc⟩ := k.slaves sid c hc
    obtain ⟨a, ha, hab⟩ := h.slaves sid b hb
    exact ⟨a, ha, hab.trans hbc⟩
  · rcases k.records tid r'' hr'' with hk | ⟨r', hr', he'⟩
    · exact .inl (mem_append_left _ hk)
    · rcases h.records tid r' hr' with hk | ⟨r, hr, he⟩
      · exact .inl (mem_append_right _ hk)
      · exact .inr ⟨r, hr, he'.trans he⟩

lemma mono (h : SameStocks ks s s') (hks : ks ⊆ ks') : SameStocks ks' s s' :=
  ⟨h.config, h.slaves, fun tid r' hr' => (h.records tid r' hr').imp_left fun hk => hks hk⟩

lemma of_eq (hc : s'.config = s.config) (hs : s'.slaveDict = s.slaveDict)
    (ht : s'.taskDict = s.taskDict) : SameStocks ks s s' :=
  ⟨hc, fun _ a ha => ⟨a, hs ▸ ha, .refl a⟩, fun _ r hr => .inr ⟨r, ht ▸ hr, rfl⟩⟩

lemma modifySlave {k : String} {f : Slave → Slave}
    (hf : ∀ a, s.slaveDict.lookup k = some a → a.SameStock (f a)) :
    SameStocks ks s (s.modifySlave k f) := by
  refine ⟨rfl, fun sid b hb => ?_, fun _ r hr => .inr ⟨r, hr, rfl⟩⟩
  rcases lookup_modify_cases hb with ⟨rfl, a, ha, rfl⟩ | ⟨-, hb⟩
  · exact ⟨a, ha, hf a ha⟩
  · exact ⟨b, hb, .refl b⟩

lemma modifyTask {x : String} {f : TaskRecord → TaskRecord}
    (hf : ∀ r, (f r).taskInfo.resources = r.taskInfo.resources) (s : Service) :
    SameStocks ks s (s.modifyTask x f) := by
  refine ⟨rfl, fun _ a ha => ⟨a, ha, .refl a⟩, fun tid r' hr' => .inr ?_⟩
  rcases lookup_modify_cases hr' with ⟨-, r, hr, rfl⟩ | ⟨-, hr'⟩
  · exact ⟨r, hr, hf r⟩
  · exact ⟨r', hr', rfl⟩

lemma setTaskState (tid : String) (state : TaskState) (s : Service) :
    SameStocks ks s (s.setTaskState tid state) :=
  modifyTask (f := fun r => { r with state := state }) (fun _ => rfl) s

lemma postprocess (s : Service) : SameStocks ks s (postprocess s) := by
  refine ⟨postprocess_frame (fun _ _ _ _ _ => rfl) (fun _ _ => rfl) s, fun sid b hb => ⟨b, ?_, .refl b⟩,
    fun tid r hr => .inr ⟨r, ?_, rfl⟩⟩
  · rw [lookup_slaveDict_postprocess] at hb
    split_ifs at hb
    exact hb
  · rw [lookup_taskDict_postprocess] at hr
    split_ifs at hr
    exact hr

end SameStocks

namespace Audited

variable {h : Placements} {s s' : Service}

lemma keep {ks : List String} (ha : Audited h s) (hs : SameStocks ks s s')
    (hks : ∀ k ∈ ks, k ∉ h) : Audited h s' := by
  refine ⟨fun sid b hb hc => ?_, fun tid x r' hx hr' => ?_⟩
  · obtain ⟨a, hlook, hab⟩ := hs.slaves sid b hb
    rw [hs.config]
    exact (ha.balanced sid a hlook (hab.plain hc)).of_sameStock hab
  · rcases hs.records tid r' hr' with hk | ⟨r, hr, he⟩
    · exact absurd (mem_of_lookup hx) (hks tid hk)
    · exact he.trans (ha.asked tid x r hx hr)

lemma drop {ks : List String} (ha : Audited h s)
    (hks : ∀ k ∈ ks, liveOn h s.slaveDict k = none) : Audited (h.settle ks) s := by
  refine ⟨fun sid slave hs hc => ?_, fun tid x r hx hr => ?_⟩
  · have hother : ∀ k ∈ ks, ∀ x, h.lookup k = some x → x.owner ≠ sid := by
      rintro k hk x hx rfl
      have hlive := liveOn_eq_some_iff.mpr ⟨x, slave, hx, rfl, hs, hc⟩
      cases (hks k hk).symm.trans hlive
    obtain ⟨hamount, hcount⟩ := ha.balanced sid slave hs hc
    refine ⟨fun name => ?_, ?_⟩
    · rw [total_settle _ _ hother]
      exact hamount name
    · rw [total_settle _ _ hother]
      exact hcount
  · rw [lookup_settle] at hx
    split_ifs at hx
    exact ha.asked tid x r hx hr

lemma credit {sid : String} {slave : Slave} {t : TaskInfo} (ha : Audited h s)
    (hlive : liveOn h s.slaveDict tid = some sid) (hs : s.slaveDict.lookup sid = some slave)
    (ht : ∀ x, h.lookup tid = some x → t.resources = x.item.resources)
    (hcredit : (creditResources t slave).2 = .next) :
    Audited (h.erase tid) (s.modifySlave sid (fun _ => (creditResources t slave).1)) := by
  obtain ⟨x, slave', hx, rfl, hs', hc⟩ := liveOn_eq_some_iff.mp hlive
  cases hs.symm.trans hs'
  have hneed : ∀ name, t.need name = x.item.need name := by
    intro name
    rw [TaskInfo.need, TaskInfo.need, ht x hx]
  refine ⟨fun k b hb hcb => ?_, fun k y r hy hr => ?_⟩
  · rcases lookup_modify_cases hb with ⟨rfl, a, ha', rfl⟩ | ⟨hk, hb⟩
    · cases hs.symm.trans ha'
      obtain ⟨hamount, hcount⟩ := ha.balanced _ slave hs hc
      refine ⟨fun name => ?_, ?_⟩
      · rw [creditResources_amount hcredit, Option.map_map]
        refine Eq.trans ?_ (hamount name)
        rw [total_erase x.owner (·.need name) hx]
        congr 1
        funext a
        simp only [Function.comp_apply, hneed, term, if_true]
        ring
      · rw [total_erase x.owner (fun _ => (1 : ℤ)) hx] at hcount
        rw [creditResources_taskCount hcredit, hcount]
        simp [term]
    · obtain ⟨hamount, hcount⟩ := ha.balanced k b hb hcb
      have hother : ∀ y, h.lookup tid = some y → y.owner ≠ k := by
        intro y hy
        cases hx.symm.trans hy
        exact Ne.symm hk
      exact ⟨fun name => by rw [total_erase_ne _ _ hother]; exact hamount name,
        by rw [total_erase_ne _ _ hother]; exact hcount⟩
  · exact ha.asked k y r (lookup_erase_eq_some_iff.mp hy).2 hr

end Audited

/-! ## Handlers that end tasks and do nothing else to the books -/

def EndsOnly (P : String → Prop) (s s' : Service) : Prop :=
  ∃ ks, Ends s s' ks ∧ (∀ k ∈ ks, P k) ∧ SameStocks ks s s'

lemma Audited.endsOnly {h : Placements} {s s' : Service} {P : String → Prop} (ha : Audited h s)
    (hq : EndsOnly P s s') (hP : ∀ k, P k → liveOn h s.slaveDict k = none) :
    Audited (h.settle (ended s s')) s' := by
  obtain ⟨ks, hends, hks, hs⟩ := hq
  rw [hends.ended]
  refine (ha.drop fun k hk => hP k (hks k hk)).keep hs fun k hk hm => ?_
  obtain ⟨x, hx⟩ := exists_lookup_of_mem hm
  rw [lookup_settle, if_pos hk] at hx
  cases hx

namespace EndsOnly

variable {P Q : String → Prop} {s s' s'' : Service}

lemma refl (s : Service) : EndsOnly P s s := ⟨[], .refl s, fun _ h => absurd h not_mem_nil, .refl s⟩

lemma trans (h : EndsOnly P s s') (k : EndsOnly P s' s'') : EndsOnly P s s'' := by
  obtain ⟨ks, hends, hP, hs⟩ := h
  obtain ⟨ks', hends', hP', hs'⟩ := k
  refine ⟨ks' ++ ks, hends.trans hends', fun k hk => ?_, hs.trans hs'⟩
  exact (mem_append.mp hk).elim (hP' k) (hP k)

lemma mono (h : EndsOnly P s s') (hPQ : ∀ k, P k → Q k) : EndsOnly Q s s' := by
  obtain ⟨ks, hends, hP, hs⟩ := h
  exact ⟨ks, hends, fun k hk => hPQ k (hP k hk), hs⟩

lemma of_stocks (hw : s'.wire = s.wire) (hs : SameStocks [] s s') : EndsOnly P s s' :=
  ⟨[], (Ends.refl s).of_wire hw, fun _ h => absurd h not_mem_nil, hs⟩

lemma of_eq (hw : s'.wire = s.wire) (hc : s'.config = s.config) (hs : s'.slaveDict = s.slaveDict)
    (ht : s'.taskDict = s.taskDict) : EndsOnly P s s' :=
  of_stocks hw (.of_eq hc hs ht)

lemma send {m : Message} (hm : m.ends = none) (s : Service) : EndsOnly P s (s.send m) :=
  ⟨[], (Ends.refl s).send hm, fun _ h => absurd h not_mem_nil, .of_eq rfl rfl rfl⟩

lemma report {state : TaskState} {slaveId : Option String} (h : state.isTerminal → P tid)
    (s : Service) : EndsOnly P s (s.send (.statusUpdate tid state slaveId)) := by
  cases ht : state.isTerminal with
  | false => exact send (by rw [Message.ends, ht]; rfl) s
  | true =>
    refine ⟨[tid], (Ends.refl s).report (by rw [Message.ends, ht]; rfl), fun k hk => ?_,
      .of_eq rfl rfl rfl⟩
    rw [mem_singleton.mp hk]
    exact h ht

lemma modifySlave {k : String} {f : Slave → Slave}
    (hf : ∀ a, s.slaveDict.lookup k = some a → a.SameStock (f a)) : EndsOnly P s (s.modifySlave k f) :=
  of_stocks rfl (.modifySlave hf)

lemma setTaskState (tid : String) (state : TaskState) (s : Service) :
    EndsOnly P s (s.setTaskState tid state) :=
  of_stocks rfl (.setTaskState tid state s)

lemma postprocess (s : Service) : EndsOnly P s (postprocess s) :=
  of_stocks (postprocess_wire s) (.postprocess s)

lemma scaleUp {count : ℤ} {submitted : List JobTuple} : EndsOnly P s (scaleUp count submitted s).1 :=
  scaleUp_keeps (I := EndsOnly P s) (fun _ _ h => h.trans (of_eq rfl rfl rfl rfl)) _ _ (refl s)

lemma runTask {sid channel : String} : EndsOnly P s (runTask sid channel tid s) :=
  (send rfl s).trans (of_stocks rfl (.modifyTask (f := fun r =>
    { r with taskInfo := { r.taskInfo with agentId := none } }) (fun _ => rfl) _))

lemma lost {slaveId : Option String} (h : P tid) :
    EndsOnly P s (processTaskLostStatusUpdate tid slaveId s) :=
  ((report (fun _ => h) s).trans (setTaskState tid .lost _)).trans (of_eq rfl rfl rfl rfl)

lemma sendTaskLost {sid : String} (h : P tid) : EndsOnly P s (sendTaskLost tid sid s) := by
  unfold Urb.sendTaskLost
  split_ifs
  · exact lost h
  · exact refl s

lemma setJobId {job : String} : EndsOnly P s (setJobId tid job s) :=
  of_stocks rfl (.modifyTask (f := fun r => { r with jobId := some job }) (fun _ => rfl) s)

/-! ### Offers -/

lemma generateOffers {now : ℚ} : EndsOnly P s (generateOffers now s) := by
  have hround : EndsOnly P s (offerRound now s).service :=
    offerRound_marks (fun _ _ h => h.trans (of_eq rfl rfl rfl rfl))
      (fun _ _ h => h.trans (of_eq rfl rfl rfl rfl)) (fun _ _ h => h.trans (of_eq rfl rfl rfl rfl))
      (fun _ _ _ h => h.trans (modifySlave fun _ _ => ⟨rfl, rfl, id⟩)) now (of_eq rfl rfl rfl rfl)
  exact generateOffers_of_round (fun _ _ h => h.trans (send rfl _)) hround

lemma reviveOffers : EndsOnly P s (reviveOffers s) := by
  refine of_stocks rfl ⟨rfl, fun sid b hb => ?_, fun _ r hr => .inr ⟨r, hr, rfl⟩⟩
  rw [Urb.reviveOffers, lookup_mapVals] at hb
  obtain ⟨a, ha, rfl⟩ := map_eq_some_iff.mp hb
  exact ⟨a, ha, rfl, rfl, id⟩

lemma processRemainingOffers {now : ℚ} {refuse : Option ℚ} {remaining : List String} :
    EndsOnly P s (processRemainingOffers now refuse remaining s) := by
  refine processRemainingOffers_rule (I := EndsOnly P s) (refl s) (fun oid _ r hr => ?_)
    fun _ _ h => h.trans (of_eq rfl rfl rfl rfl)
  exact refuseOffer_keeps (I := EndsOnly P s) (fun _ _ h => h.trans (of_eq rfl rfl rfl rfl))
    (fun _ _ h => h.trans (of_eq rfl rfl rfl rfl)) (fun _ _ h => h.trans (of_eq rfl rfl rfl rfl))
    (fun _ _ _ hg h => h.trans (modifySlave fun sl _ => .of_sameLoad (hg sl)))
    (fun _ _ h => h.trans (of_eq rfl rfl rfl rfl)) (fun _ s' h => h.trans (send rfl s')) now _ hr

/-! ### Executors -/

lemma registerExecutor {reg : ExecutorRegistration} : EndsOnly P s (registerExecutor reg s).1 := by
  have hstaged : ∀ sid job command tid s, EndsOnly P s (runStaged reg sid job command tid s).1 := by
    intro sid job command tid s
    unfold runStaged
    split
    · exact refl s
    · split_ifs
      · exact refl s
      · exact runTask
      · exact (modifySlave fun _ _ => .modifyEntry _ _).trans runTask
      · exact refl s
      · exact refl s
  have hscale : ∀ sid slave s, EndsOnly P s (scaleForExecutor reg sid slave s).1 := by
    intro sid slave s
    unfold scaleForExecutor
    split_ifs
    · exact refl s
    · dsimp only
      split_ifs
      · exact refl s
      · exact scaleUp
  unfold Urb.registerExecutor
  split_ifs
  · exact refl s
  · split
    · exact send rfl s
    · next sid slave _ =>
        split_ifs
        · exact send rfl s
        · have hset : EndsOnly P s ((s.modifySlave sid (fun sl =>
              { sl with executorChannel := some reg.channel })).send (.executorRegistered reg.channel)) :=
            (modifySlave (f := fun sl => { sl with executorChannel := some reg.channel })
              fun _ _ => ⟨rfl, rfl, id⟩).trans (send rfl _)
          dsimp only
          split_ifs
          · exact hset
          · refine seq_inv (I := EndsOnly P s) ?_ fun h => h.trans (hscale _ _ _)
            unfold runStagedTasks
            split
            · exact hset
            · refine seq_inv (I := EndsOnly P s) ?_ fun h => h
              exact forEach_inv (fun tid _ s' h => h.trans (hstaged _ _ _ tid s')) hset

/-! ### Job deletion -/

lemma deleteJob {job : String} :
    EndsOnly (fun tid => ∃ r, s.taskDict.lookup tid = some r ∧ r.jobId = some job) s
      (deleteJob job s).1 := by
  let P (tid : String) : Prop := ∃ r, s.taskDict.lookup tid = some r ∧ r.jobId = some job
  let Jobs (s' : Service) : Prop := ∀ tid r', s'.taskDict.lookup tid = some r' →
    ∃ r, s.taskDict.lookup tid = some r ∧ r.jobId = r'.jobId
  have hkeep : EndsOnly P s (Urb.deleteJob job s).1 ∧ Jobs (Urb.deleteJob job s).1 := by
    refine deleteJob_keeps (I := fun s' => EndsOnly P s s' ∧ Jobs s') (fun sid sl s' _ hl h => ?_)
      (fun _ _ _ h => ⟨h.1.trans (of_eq rfl rfl rfl rfl), h.2⟩) (fun tid task s' ht hjob h => ?_)
      ⟨refl s, fun tid r hr => ⟨r, hr, rfl⟩⟩
    · exact deleteSlave_keeps (I := fun s' => EndsOnly P s s' ∧ Jobs s')
        (fun _ _ h => ⟨h.1.trans (of_eq rfl rfl rfl rfl), h.2⟩)
        (fun _ _ _ hg h => ⟨h.1.trans (modifySlave fun sl _ => .of_sameLoad (hg sl)), h.2⟩)
        (fun _ _ h => ⟨h.1.trans (of_eq rfl rfl rfl rfl), h.2⟩) sid sl h
    · obtain ⟨r, hr, hj⟩ := h.2 tid task ht
      refine ⟨h.1.trans (lost ⟨r, hr, hj.trans hjob⟩), fun k r' hr' => ?_⟩
      have hr'' : (s'.taskDict.modify tid (fun r => { r with state := .lost })).lookup k = some r' := hr'
      rcases lookup_modify_cases hr'' with ⟨-, r₁, hr₁, rfl⟩ | ⟨-, hr''⟩
      · exact h.2 k r₁ hr₁
      · exact h.2 k r' hr''
  exact hkeep.1

end EndsOnly

end Urb
