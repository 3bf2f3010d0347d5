/-
# `Urb.Solvency` — slaves that cover a budget

A framework that takes what it is offered, and no more, keeps every amount of a
slave at or above what is left of the slave's last offer.  A `Budget` is such a
number for every slave and every name.  `Slave.Covers` says that a slave has at
least its budget, and whole numbers of cpus, mem and disk; `Solvent` that all
slaves of the service do.

    debit      covers the budget less what the task asks for, whether or not
               it completes
    credit     covers the budget that was covered before
    launch_tasks, register_executor_runner, reregister_executor
               spend the `charges` of the tasks they debit
    all other requests spend nothing

-/
import Mathlib.Algebra.BigOperators.Pi
import Mathlib.Algebra.Order.Pi
import Mathlib.Data.Rat.Floor
import Urb.DebitCredit
import Urb.LaunchLoop
import Urb.StagingLoop
import Urb.Stock

namespace Urb

open Block List AList Function TaskInfo

/-! ## Amounts of tasks -/

def basicScalars : List String := ["cpus", "mem", "disk"]

def TaskInfo.Positive (t : TaskInfo) : Prop := ∀ r ∈ t.resources.getD [], ∀ v ∈ r.scalar, 0 < v

instance (t : TaskInfo) : Decidable t.Positive :=
  inferInstanceAs (Decidable (∀ r ∈ t.resources.getD [], ∀ v ∈ r.scalar, 0 < v))

def TaskInfo.Whole (t : TaskInfo) : Prop :=
  ∀ r ∈ t.resources.getD [], r.name ∈ basicScalars → ∀ v ∈ r.scalar, v.den = 1

instance (t : TaskInfo) : Decidable t.Whole :=
  inferInstanceAs (Decidable
    (∀ r ∈ t.resources.getD [], r.name ∈ basicScalars → ∀ v ∈ r.scalar, v.den = 1))

lemma Resource.need_nonneg {r : Resource} (h : ∀ v ∈ r.scalar, 0 < v) (name : String) :
    0 ≤ r.need name := by
  unfold need
  split_ifs
  · cases hv : r.scalar with
    | none => exact le_rfl
    | some v => exact (h v hv).le
  · exact le_rfl

lemma Resource.need_whole {r : Resource} (h : r.name ∈ basicScalars → ∀ v ∈ r.scalar, v.den = 1)
    {name : String} (hname : name ∈ basicScalars) : (r.need name).den = 1 := by
  unfold need
  split_ifs with hr
  · cases hv : r.scalar with
    | none => rfl
    | some v => exact h (hr.1 ▸ hname) v hv
  · rfl

lemma TaskInfo.need_eq_sum (t : TaskInfo) : t.need = ((t.resources.getD []).map Resource.need).sum := by
  funext name
  rw [Pi.list_sum_apply, map_map]
  rfl

lemma TaskInfo.need_nonneg {t : TaskInfo} (h : t.Positive) (name : String) : 0 ≤ t.need name := by
  refine sum_nonneg fun x hx => ?_
  obtain ⟨r, hr, rfl⟩ := mem_map.mp hx
  exact Resource.need_nonneg (h r hr) name

lemma whole_add {p q : ℚ} (hp : p.den = 1) (hq : q.den = 1) : (p + q).den = 1 := by
  have hdvd := Rat.add_den_dvd p q
  rw [hp, hq] at hdvd
  exact Nat.dvd_one.mp hdvd

lemma whole_mul {p q : ℚ} (hp : p.den = 1) (hq : q.den = 1) : (p * q).den = 1 := by
  have hdvd := Rat.mul_den_dvd p q
  rw [hp, hq] at hdvd
  exact Nat.dvd_one.mp hdvd

/-! ## A slave that covers a budget -/

structure Slave.Covers (left : String → ℚ) (slave : Slave) : Prop where
  amounts : ∀ name ∈ knownScalars, ∀ v ∈ slave.amount name, left name ≤ v
  whole : ∀ name ∈ basicScalars, ∀ v ∈ slave.amount name, v.den = 1
  custom : ∀ name ∈ knownScalars, name ∉ slave.customResources

namespace Slave.Covers

variable {left left' : String → ℚ} {slave a b : Slave} {t : TaskInfo}

lemma less (h : slave.Covers left) (hle : ∀ name ∈ knownScalars, left' name ≤ left name) :
    slave.Covers left' :=
  ⟨fun name hname v hv => (hle name hname).trans (h.amounts name hname v hv), h.whole, h.custom⟩

lemma anti (h : slave.Covers left) (hle : left' ≤ left) : slave.Covers left' :=
  h.less fun name _ => hle name

lemma of_sameAssets (h : a.Covers left) (hab : a.SameAssets b) : b.Covers left := by
  constructor
  · rw [hab.amount]
    exact h.amounts
  · rw [hab.amount]
    exact h.whole
  · rw [hab.customResources]
    exact h.custom

lemma moveResource (h : slave.Covers left) {r : Resource} {sign : ℚ} (hsign : sign.den = 1)
    (hwhole : r.name ∈ basicScalars → ∀ v ∈ r.scalar, v.den = 1)
    (hle : ∀ name ∈ knownScalars, left' name ≤ left name)
    (hmove : ∀ name ∈ knownScalars, left' name ≤ left name + sign * r.need name)
    (portOp : List (ℤ × ℤ) → List PortRange → Except RangeError (List (ℤ × ℤ))) :
    (moveResource portOp sign r slave).1.Covers left' := by
  have hcustom : ∀ name ∈ knownScalars,
      name ∉ (Urb.moveResource portOp sign r slave).1.customResources := by
    intro name hname
    have hshape : slave.SameShape (Urb.moveResource portOp sign r slave).1 :=
      moveResource_sameShape r slave
    rw [AList.mem_keys, hshape.keys, ← AList.mem_keys]
    exact h.custom name hname
  by_cases hnext : (Urb.moveResource portOp sign r slave).2 = .next
  · have hamount := moveResource_amount hnext
    refine ⟨fun name hname v hv => ?_, fun name hname v hv => ?_, hcustom⟩
    · rw [hamount, Option.mem_def, map_eq_some_iff] at hv
      obtain ⟨a, ha, rfl⟩ := hv
      exact (hmove name hname).trans (add_le_add_left (h.amounts name hname a ha) _)
    · rw [hamount, Option.mem_def, map_eq_some_iff] at hv
      obtain ⟨a, ha, rfl⟩ := hv
      exact whole_add (h.whole name hname a ha) (whole_mul hsign (Resource.need_whole hwhole hname))
  · rw [moveResource_raised hnext] at hcustom ⊢
    exact h.less hle

/-- **A debit** spends at most what the task asks for. -/
lemma debit (h : slave.Covers left) (hpos : t.Positive) (hwhole : t.Whole) :
    (debitResources t slave).1.Covers (left - t.need) := by
  rw [t.need_eq_sum]
  unfold debitResources
  cases hr : t.resources with
  | none =>
    rw [Option.getD_none, map_nil, sum_nil, sub_zero]
    exact h
  | some rs =>
    rw [getD_some]
    rw [TaskInfo.Positive, hr] at hpos
    rw [TaskInfo.Whole, hr] at hwhole
    have hwalk : (forEach debitResource rs slave).1.Covers (left - (rs.map Resource.need).sum) := by
      refine forEach_spend (C := Slave.Covers) (fun hle h => h.anti hle)
        (fun r hmem name => Resource.need_nonneg (hpos r hmem) name) (fun r hmem left slave h => ?_) h
      refine h.moveResource rfl (hwhole r hmem) (fun name _ => ?_) (fun name _ => ?_) _
      · exact sub_le_self _ (Resource.need_nonneg (hpos r hmem) name)
      · rw [neg_one_mul, ← sub_eq_add_neg]
        exact le_rfl
    exact seq_inv (I := Slave.Covers (left - (rs.map Resource.need).sum)) hwalk
      fun h => ⟨h.amounts, h.whole, h.custom⟩

variable (h : slave.Covers left) (hpos : t.Positive) (hwhole : t.Whole)
include h hpos hwhole

/-- **A credit** takes nothing off. -/
lemma credit : (creditResources t slave).1.Covers left := by
  refine seq_inv (I := Slave.Covers left) (forEach_inv (fun r hmem slave h => ?_) h)
    fun h => ⟨h.amounts, h.whole, h.custom⟩
  refine h.moveResource rfl (hwhole r hmem) (fun _ _ => le_rfl) (fun name _ => ?_) _
  rw [one_mul]
  exact le_add_of_nonneg_right (Resource.need_nonneg (hpos r hmem) name)

lemma launched : (slave.launched t).Covers (left - t.need) := by
  have hexecutor : slave.SameAssets (slave.placeExecutor t) := by
    unfold placeExecutor
    split_ifs
    · split <;> exact ⟨rfl, rfl, rfl⟩
    · exact ⟨rfl, rfl, rfl⟩
    · exact .refl slave
  have hdebit := (h.of_sameAssets hexecutor).debit hpos hwhole
  unfold Slave.launched
  split_ifs
  · exact hdebit.of_sameAssets ⟨rfl, rfl, rfl⟩
  · exact hdebit

lemma stage : (slave.stage t).1.Covers (left - t.need) := by
  unfold Slave.stage
  split
  · exact h.less fun name _ => sub_le_self _ (need_nonneg hpos name)
  · split_ifs
    · refine debit ?_ hpos hwhole
      unfold takePlaceholder
      split <;> exact ⟨h.amounts, h.whole, h.custom⟩
    · exact h.debit hpos hwhole

end Slave.Covers

/-! ## A service that covers a budget -/

abbrev Budget := String → String → ℚ

structure Config.Sound (config : Config) : Prop where
  nonneg : ∀ name ∈ knownScalars, ∀ v ∈ config.initial name, 0 ≤ v
  custom : ∀ name ∈ knownScalars, name ∉ config.customResources

instance (config : Config) : Decidable config.Sound :=
  decidable_of_iff
    ((∀ name ∈ knownScalars, ∀ v ∈ config.initial name, 0 ≤ v) ∧
      ∀ name ∈ knownScalars, name ∉ config.customResources)
    ⟨fun ⟨a, b⟩ => ⟨a, b⟩, fun ⟨a, b⟩ => ⟨a, b⟩⟩

structure WellKept (s : Service) : Prop where
  config : s.config.Sound
  tasks : ∀ tid, ∀ r ∈ s.taskDict.lookup tid, r.taskInfo.Positive ∧ r.taskInfo.Whole

namespace WellKept

variable {s s' : Service}

lemma of_eq (h : WellKept s) (hconfig : s'.config = s.config) (htasks : s'.taskDict = s.taskDict) :
    WellKept s' := by
  constructor
  · rw [hconfig]
    exact h.config
  · rw [htasks]
    exact h.tasks

lemma putTask (h : WellKept s) {r : TaskRecord} (hpos : r.taskInfo.Positive)
    (hwhole : r.taskInfo.Whole) (tid : String) : WellKept (s.putTask tid r) := by
  refine ⟨h.config, fun k r' hr' => ?_⟩
  rcases lookup_insert_cases hr' with ⟨-, rfl⟩ | ⟨-, hr'⟩
  · exact ⟨hpos, hwhole⟩
  · exact h.tasks k r' hr'

lemma modifyTask (h : WellKept s) {g : TaskRecord → TaskRecord} (hg : KeepsNeeds g) (tid : String) :
    WellKept (s.modifyTask tid g) := by
  refine ⟨h.config, fun k r' hr' => ?_⟩
  rcases lookup_modify_cases hr' with ⟨-, r, hr, rfl⟩ | ⟨-, hr'⟩
  · unfold TaskInfo.Positive TaskInfo.Whole
    rw [hg r]
    exact h.tasks k r hr
  · exact h.tasks k r' hr'

end WellKept

structure Solvent (left : Budget) (s : Service) : Prop extends WellKept s where
  slaves : ∀ sid, ∀ slave ∈ s.slaveDict.lookup sid,
    slave.Covers (left sid) ∧ isPlaceholder sid = false

namespace Solvent

variable {left left' : Budget} {s s' : Service}

variable (h : Solvent left s)
include h

lemma of_eq (hconfig : s'.config = s.config) (htasks : s'.taskDict = s.taskDict)
    (hslaves : s'.slaveDict = s.slaveDict) : Solvent left s' := by
  refine ⟨h.toWellKept.of_eq hconfig htasks, ?_⟩
  rw [hslaves]
  exact h.slaves

lemma anti (hle : left' ≤ left) : Solvent left' s :=
  ⟨h.toWellKept, fun sid slave hs => ⟨(h.slaves sid slave hs).1.anti (hle sid), (h.slaves sid slave hs).2⟩⟩

lemma send (m : Message) : Solvent left (s.send m) := h.of_eq rfl rfl rfl

lemma queueTask (tid : String) : Solvent left (s.queueTask tid) :=
  h.of_eq rfl rfl rfl

lemma putTask {r : TaskRecord} (hpos : r.taskInfo.Positive) (hwhole : r.taskInfo.Whole)
    (tid : String) : Solvent left (s.putTask tid r) :=
  ⟨h.toWellKept.putTask hpos hwhole tid, h.slaves⟩

lemma modifyTask {g : TaskRecord → TaskRecord} (hg : KeepsNeeds g) (tid : String) :
    Solvent left (s.modifyTask tid g) :=
  ⟨h.toWellKept.modifyTask hg tid, h.slaves⟩

lemma setTaskState (tid : String) (state : TaskState) : Solvent left (s.setTaskState tid state) :=
  h.modifyTask (g := fun r => { r with state := state }) (fun _ => rfl) tid

lemma runTask (sid channel tid : String) : Solvent left (runTask sid channel tid s) :=
  (h.send (.runTask sid channel tid)).modifyTask
    (g := fun r => { r with taskInfo := { r.taskInfo with agentId := none } }) (fun _ => rfl) tid

lemma lost (tid : String) (k : Option String) : Solvent left (processTaskLostStatusUpdate tid k s) :=
  ((h.send (.statusUpdate tid .lost k)).setTaskState tid .lost).queueTask tid

lemma replace {k : String} {g : Slave → Slave}
    (hg : ∀ slave ∈ s.slaveDict.lookup k, slave.Covers (left k) → (g slave).Covers (left' k))
    (hle : ∀ sid, sid ≠ k → left' sid ≤ left sid) : Solvent left' (s.modifySlave k g) := by
  refine ⟨h.toWellKept.of_eq rfl rfl, fun sid slave hs => ?_⟩
  rcases lookup_modify_cases hs with ⟨rfl, old, hold, rfl⟩ | ⟨hk, hs⟩
  · exact ⟨hg old hold (h.slaves sid old hold).1, (h.slaves sid old hold).2⟩
  · exact ⟨(h.slaves sid slave hs).1.anti (hle sid hk), (h.slaves sid slave hs).2⟩

lemma modifySlave {k : String} {g : Slave → Slave} (hg : s.KeepsAssets k g) :
    Solvent left (s.modifySlave k g) :=
  h.replace (fun slave hs hslave => hslave.of_sameAssets (hg slave hs)) fun _ _ => le_rfl

lemma credit {k : String} {slave : Slave} {t : TaskInfo} (hs : s.slaveDict.lookup k = some slave)
    (ht : t.Positive ∧ t.Whole) :
    Solvent left (s.modifySlave k (fun _ => (creditResources t slave).1)) := by
  refine h.replace (fun sl hsl hcovers => ?_) fun _ _ => le_rfl
  cases hs.symm.trans hsl
  exact hcovers.credit ht.1 ht.2

lemma postprocess : Solvent left (postprocess s) := by
  refine ⟨⟨?_, fun tid r hr => ?_⟩, fun sid slave hs => ?_⟩
  · rw [show (Urb.postprocess s).config = s.config from
      postprocess_frame (fun _ _ _ _ _ => rfl) (fun _ _ => rfl) s]
    exact h.config
  · rw [Option.mem_def, lookup_taskDict_postprocess] at hr
    split_ifs at hr
    exact h.tasks tid r hr
  · rw [Option.mem_def, lookup_slaveDict_postprocess] at hs
    split_ifs at hs
    exact h.slaves sid slave hs

lemma finish (native : Bool) : Solvent left (finish native s) := by
  unfold Urb.finish
  split_ifs
  · exact h.postprocess
  · exact h

end Solvent

/-! ## Requests that spend nothing -/

namespace Solvent

variable {left : Budget} {s : Service}

variable (h : Solvent left s)
include h

lemma offerRound (now : ℚ) : Solvent left (offerRound now s).service :=
  offerRound_marks (fun _ _ h => h.of_eq rfl rfl rfl) (fun _ _ h => h.of_eq rfl rfl rfl)
    (fun _ _ h => h.of_eq rfl rfl rfl) (fun _ _ _ h => h.modifySlave fun _ _ => ⟨rfl, rfl, rfl⟩) now h

lemma generateOffers (now : ℚ) : Solvent left (generateOffers now s) :=
  generateOffers_of_round (fun _ _ h => h.send _) (h.offerRound now)

lemma sameLoad {k : String} {g : Slave → Slave} (hg : ∀ sl, Slave.SameLoad sl (g sl)) :
    Solvent left (s.modifySlave k g) :=
  h.modifySlave fun sl _ => (hg sl).assets

lemma processRemainingOffers (now : ℚ) (refuse : Option ℚ) (remaining : List String) :
    Solvent left (processRemainingOffers now refuse remaining s) :=
  processRemainingOffers_rule h (fun _ _ _ hr => refuseOffer_keeps (fun _ _ h => h.of_eq rfl rfl rfl)
    (fun _ _ h => h.of_eq rfl rfl rfl) (fun _ _ h => h.of_eq rfl rfl rfl)
    (fun _ _ _ hg h => h.sameLoad hg) (fun _ _ h => h.of_eq rfl rfl rfl) (fun _ _ h => h.send _) now _ hr)
    fun _ _ h => h.of_eq rfl rfl rfl

lemma killTask (tid : String) : Solvent left (killTask tid s).1 := by
  have hmarked : ∀ task, Solvent left (markKilled tid task s) := fun task =>
    ((h.setTaskState tid .killed).queueTask tid).send _
  exact killTask_rule h (fun task _ => hmarked task) (fun _ _ h => h.send _) (fun _ h => h.send _)
    (fun _ _ h => h.send _) fun task _ _ ht hs => (hmarked task).credit hs (h.tasks tid task ht)

lemma handleStatusUpdate (u : StatusUpdate) : Solvent left (handleStatusUpdate u s).1 := by
  refine handleStatusUpdate_rule (h.send _) ((h.send _).send _) fun task ht => ?_
  have hforward : Solvent left (forwardUpdate u task s) :=
    ((h.send (.statusUpdateReceived u.taskId u.state)).setTaskState u.taskId u.state).send _
  exact settleUpdate_rule (fun _ _ _ _ => hforward.modifySlave fun _ _ => ⟨rfl, rfl, rfl⟩)
    (fun _ _ hs _ => hforward.credit hs (h.tasks u.taskId task ht))
    (fun _ _ h => h.of_eq rfl rfl rfl) (fun _ h => h.queueTask _) hforward

lemma registerExecutor (reg : ExecutorRegistration) : Solvent left (registerExecutor reg s).1 :=
  registerExecutor_rule (fun _ h => h.send _) (fun _ _ _ hg h => h.modifySlave hg)
    (fun _ _ h => h.send _) (fun _ _ _ _ h => h.runTask _ _ _) (fun _ _ h => h.of_eq rfl rfl rfl) reg h

lemma deleteJob (job : String) : Solvent left (deleteJob job s).1 :=
  deleteJob_keeps (fun sid sl _ _ _ h => deleteSlave_keeps (fun _ _ h => h.of_eq rfl rfl rfl)
      (fun _ _ _ hg h => h.sameLoad hg) (fun _ _ h => h.of_eq rfl rfl rfl) sid sl h)
    (fun _ _ _ h => h.of_eq rfl rfl rfl) (fun _ _ _ _ _ h => h.lost _ _) h

lemma reviveOffers : Solvent left (reviveOffers s) := by
  refine ⟨h.toWellKept.of_eq rfl rfl, fun sid slave hs => ?_⟩
  unfold Urb.reviveOffers at hs
  rw [lookup_mapVals] at hs
  obtain ⟨old, hold, rfl⟩ := map_eq_some_iff.mp hs
  exact ⟨(h.slaves sid old hold).1.of_sameAssets ⟨rfl, rfl, rfl⟩, (h.slaves sid old hold).2⟩

lemma rebind (http : Bool) (tid : String) (t : Option TaskRecord) :
    Solvent left (rebindTaskDict http tid t s) := by
  refine ⟨⟨h.config, fun k r hr => ?_⟩, h.slaves⟩
  have hnone : (lostRecord http tid).taskInfo.resources = none := by
    unfold lostRecord
    split_ifs <;> rfl
  have hlost : r = lostRecord http tid := by
    unfold rebindTaskDict at hr
    rw [Option.mem_def, lookup_singleton_eq_ite] at hr
    split_ifs at hr
    exact (Option.some.inj hr).symm
  unfold TaskInfo.Positive TaskInfo.Whole
  rw [hlost, hnone]
  exact ⟨nofun, nofun⟩

lemma reconcileTasks (now : ℚ) (http : Bool) (req : ReconcileRequest) :
    Solvent left (reconcileTasks now http req s).1 :=
  reconcileTasks_rule (fun tid _ _ hg h => h.modifyTask hg tid) (fun _ _ _ _ _ h => h.send _)
    (fun _ _ h => h.of_eq rfl rfl rfl) (fun http tid _ t _ h => h.rebind http tid t) now http h

lemma deleteFramework : Solvent left (deleteFramework s).1 :=
  deleteFramework_keeps (fun _ _ h => h.send _) (fun _ _ h => h.send _) (fun _ _ h => h.send _)
    (fun tid state _ h => h.setTaskState tid state) (fun _ h => h.of_eq rfl rfl rfl) h

end Solvent

/-! ## Requests that spend -/

def TaskInfo.charge (target : Option String) (t : TaskInfo) : Budget :=
  fun sid name => if target = some sid then t.need name else 0

def charges (target : TaskInfo → Option String) (ts : List TaskInfo) : Budget :=
  (ts.map (fun t => t.charge (target t))).sum

lemma TaskInfo.charge_self (sid : String) (t : TaskInfo) : t.charge (some sid) sid = t.need :=
  funext fun _ => if_pos rfl

lemma TaskInfo.charge_nonneg {t : TaskInfo} (h : t.Positive) (target : Option String) :
    0 ≤ t.charge target := by
  intro sid name
  unfold charge
  split_ifs
  · exact t.need_nonneg h name
  · exact le_rfl

lemma charges_nonneg {target : TaskInfo → Option String} {ts : List TaskInfo}
    (h : ∀ t ∈ ts, t.Positive) : 0 ≤ charges target ts := by
  refine sum_nonneg fun c hc => ?_
  obtain ⟨t, ht, rfl⟩ := mem_map.mp hc
  exact charge_nonneg (h t ht) _

lemma charges_self (sid : String) (ts : List TaskInfo) :
    charges (fun _ => some sid) ts sid = (ts.map need).sum := by
  rw [charges, Pi.list_sum_apply, map_map]
  exact congrArg List.sum (map_congr_left fun t _ => t.charge_self sid)

def Service.target (s : Service) (t : TaskInfo) : Option String :=
  t.slaveRef.filter (fun sid => decide (sid ∈ s.slaveDict))

def Service.slaveOn (s : Service) (channel : String) : Option String :=
  (s.slaveByChannel channel).map (·.1)

def RunnerRegistration.takenOver (reg : RunnerRegistration) (s : Service) : List TaskInfo :=
  if reg.tasks = [] then waitingTasks reg.jobId s.taskDict else reg.tasks

def Config.stock (config : Config) (name : String) : ℚ := (config.initial name).getD 0

lemma Config.Sound.covers {config : Config} (h : config.Sound) (hostname channel : String) :
    (initializeSlaveResources config hostname channel).Covers config.stock := by
  refine ⟨fun name _ v hv => ?_, fun name hname v hv => ?_, h.custom⟩
  · have hinitial : config.initial name = some v := hv
    rw [stock, hinitial]
    exact le_rfl
  · simp only [basicScalars, mem_cons, not_mem_nil, or_false] at hname
    rcases hname with rfl | rfl | rfl <;> cases hv <;> exact Rat.den_intCast _

namespace Solvent

variable {left : Budget} {s : Service}

lemma debit (h : Solvent left s) {t : TaskInfo} (hpos : t.Positive) (hwhole : t.Whole)
    (sid : String) : Solvent (left - t.charge (some sid)) (debitSlave sid t s).1 := by
  have hle : left - t.charge (some sid) ≤ left := sub_le_self _ (charge_nonneg hpos _)
  unfold debitSlave
  split
  · exact h.anti hle
  · next slave hs =>
      refine h.replace (fun sl hsl hcovers => ?_) fun k _ => hle k
      cases hs.symm.trans hsl
      rw [Pi.sub_apply, charge_self]
      exact hcovers.debit hpos hwhole

lemma launchTask {st : LaunchState} (h : Solvent left st.service)
    (hkeys : st.service.slaveDict.keys = s.slaveDict.keys) {l : LaunchedTask}
    (hpos : l.info.Positive) (hwhole : l.info.Whole) (now : ℚ) (req : LaunchTasksRequest) :
    Solvent (left - l.info.charge (s.target l.info)) (launchTask now req l st).1.service := by
  refine ⟨launchTask_rule (fun r _ hr hs => ?_) (fun _ _ hg hs => hs.modifyTask hg _)
    (fun _ _ _ _ _ hs => hs.of_eq rfl rfl) (fun _ hs => hs.of_eq rfl rfl) (fun _ _ hs => hs.of_eq rfl rfl)
    (fun _ _ _ hs => hs.of_eq rfl rfl) (fun _ _ _ _ hs => hs.of_eq rfl rfl)
    (fun _ _ _ hs => hs.of_eq rfl rfl) h.toWellKept, fun k slave hk => ?_⟩
  · rw [← hr] at hpos hwhole
    exact hs.putTask hpos hwhole _
  · rw [launchTask_slaveDict] at hk
    rcases lookup_launchedSlaves_cases hk with hold | ⟨href, old, hold, rfl⟩
    · have hle := sub_le_self left (charge_nonneg hpos (s.target l.info))
      exact ⟨(h.slaves k slave hold).1.anti (hle k), (h.slaves k slave hold).2⟩
    · have hmem : k ∈ s.slaveDict := by
        rw [AList.mem_keys, ← hkeys, ← AList.mem_keys]
        exact mem_of_lookup hold
      have htarget : s.target l.info = some k := by
        rw [Service.target, href]
        exact Option.filter_some_pos (decide_eq_true hmem)
      rw [htarget, Pi.sub_apply, charge_self]
      exact ⟨(h.slaves k old hold).1.launched hpos hwhole, (h.slaves k old hold).2⟩

variable (h : Solvent left s)
include h

lemma launchTasks {req : LaunchTasksRequest} (hts : ∀ t ∈ req.infos, t.Positive ∧ t.Whole) (now : ℚ) :
    Solvent (left - charges s.target req.infos) (launchTasks now req s).1 := by
  have hinfo : ∀ l ∈ req.tasks, l.info.Positive ∧ l.info.Whole := fun l hl =>
    hts l.info (mem_map_of_mem hl)
  have hloop : Solvent (left - (req.tasks.map (fun l => l.info.charge (s.target l.info))).sum)
        (forEach (Urb.launchTask now req) req.tasks (launchStart req s)).1.service ∧
      (forEach (Urb.launchTask now req) req.tasks (launchStart req s)).1.service.slaveDict.keys =
        s.slaveDict.keys := by
    refine forEach_spend (C := fun left (st : LaunchState) => Solvent left st.service ∧
      st.service.slaveDict.keys = s.slaveDict.keys) (fun hle hst => ⟨hst.1.anti hle, hst.2⟩)
      (fun l hl => charge_nonneg (hinfo l hl).1 _) (fun l hl _ st hst => ⟨?_, ?_⟩)
      ⟨h.of_eq rfl rfl rfl, rfl⟩
    · exact hst.1.launchTask hst.2 (hinfo l hl).1 (hinfo l hl).2 now req
    · rw [launchTask_slaveDict, keys_launchedSlaves]
      exact hst.2
  have hcost : charges s.target req.infos =
      (req.tasks.map (fun l => l.info.charge (s.target l.info))).sum := by
    rw [charges, LaunchTasksRequest.infos, map_map]
    rfl
  rw [hcost]
  unfold Urb.launchTasks
  dsimp only
  split_ifs
  · exact hloop.1.processRemainingOffers _ _ _
  · exact hloop.1

lemma enterSlave (reg : RunnerRegistration) :
    Solvent (update left reg.slaveId s.config.stock) (enterSlave reg s) := by
  refine ⟨h.toWellKept.of_eq rfl rfl, fun k slave hk => ?_⟩
  unfold Urb.enterSlave at hk
  rcases lookup_insert_cases hk with ⟨hsid, rfl⟩ | ⟨hsid, hk⟩
  · rw [hsid, update_self]
    exact ⟨h.config.covers _ _, isPlaceholder_createSlaveId _ _ _⟩
  · rw [update_of_ne hsid]
    exact h.slaves k slave hk

lemma adoptTasks {reg : RunnerRegistration} (hts : ∀ t ∈ reg.tasks, t.Positive ∧ t.Whole) :
    Solvent (left - charges (fun _ => some reg.slaveId) reg.tasks) (adoptTasks reg s).1 :=
  forEach_spend (C := Solvent) (fun hle hs => hs.anti hle) (fun t ht => charge_nonneg (hts t ht).1 _)
    (fun t ht _ _ hs => (hs.putTask (hts t ht).1 (hts t ht).2 _).debit (hts t ht).1 (hts t ht).2 _)
    (h.modifySlave fun _ _ => ⟨rfl, rfl, rfl⟩)

lemma stagingLoop (reg : RunnerRegistration) : Solvent (update left reg.slaveId s.config.stock -
        charges (fun _ => some reg.slaveId) (waitingTasks reg.jobId s.taskDict))
      (stagingLoop reg s).1.service := by
  obtain ⟨hst, -⟩ := stages_loop reg s
  have henter := h.enterSlave reg
  have hts : ∀ t ∈ waitingTasks reg.jobId s.taskDict, t.Positive ∧ t.Whole := by
    intro t ht
    obtain ⟨r, hr, rfl⟩ := mem_map.mp ht
    obtain ⟨tid, htid⟩ := mem_values_iff.mp (mem_filter.mp hr).1
    exact h.tasks tid r htid
  refine ⟨henter.toWellKept.of_eq (congrArg Service.config hst.rest : _) hst.taskDict,
    fun k slave hk => ?_⟩
  rw [Pi.sub_apply]
  by_cases hsid : k = reg.slaveId
  · rw [hsid, Option.mem_def, hst.slave] at hk
    cases hk
    rw [hsid, update_self, charges_self]
    refine ⟨?_, isPlaceholder_createSlaveId _ _ _⟩
    exact forEach_spend (C := Slave.Covers) (fun hle hsl => hsl.anti hle)
      (fun t ht name => t.need_nonneg (hts t ht).1 name)
      (fun t ht _ _ hsl => hsl.stage (hts t ht).1 (hts t ht).2) (h.config.covers _ _)
  · rw [Option.mem_def, hst.others k hsid] at hk
    obtain ⟨hcovers, hplace⟩ := henter.slaves k slave hk
    exact ⟨hcovers.anti (sub_le_self _ (charges_nonneg (fun t ht => (hts t ht).1) k)), hplace⟩

lemma registerExecutorRunner {reg : RunnerRegistration} (hts : ∀ t ∈ reg.tasks, t.Positive ∧ t.Whole) :
    Solvent (update left reg.slaveId s.config.stock -
      charges (fun _ => some reg.slaveId) (reg.takenOver s)) (registerExecutorRunner reg s).1 := by
  unfold Urb.registerExecutorRunner RunnerRegistration.takenOver
  split_ifs with hreg
  · have hloop := h.stagingLoop reg
    unfold stageTasks
    dsimp only
    split_ifs
    · refine modifySlave ?_ fun _ _ => ⟨rfl, rfl, rfl⟩
      exact launchStaged_keeps (fun _ _ _ _ hs => hs.send _) (fun _ _ hs => hs.of_eq rfl rfl rfl) hloop
    · exact hloop
  · exact (h.enterSlave reg).adoptTasks hts

lemma reregisterExecutor {reg : ExecutorReregistration} (hts : ∀ t ∈ reg.tasks, t.Positive ∧ t.Whole) :
    Solvent (left - charges (fun _ => s.slaveOn reg.replyTo) reg.tasks)
      (reregisterExecutor reg s).1 := by
  have hle : left - charges (fun _ => s.slaveOn reg.replyTo) reg.tasks ≤ left :=
    sub_le_self _ (charges_nonneg fun t ht => (hts t ht).1)
  unfold Urb.reregisterExecutor
  unfold Service.slaveOn at hle ⊢
  split
  · exact h.anti hle
  · next sid slave hslave =>
      have hchannel : Solvent left
          (s.modifySlave sid (fun sl => { sl with executorChannel := some reg.channel })) :=
        h.modifySlave fun _ _ => ⟨rfl, rfl, rfl⟩
      rw [hslave] at hle ⊢
      dsimp only
      split
      · exact hchannel.anti hle
      · refine seq_inv (I := Solvent _) (forEach_spend (C := Solvent) (fun hle hs => hs.anti hle)
          (fun t ht => charge_nonneg (hts t ht).1 _) (fun t ht left s hs => ?_) hchannel)
          fun hs => ?_
        · refine debit (putTask ?_ (hts t ht).1 (hts t ht).2 _) (hts t ht).1 (hts t ht).2 sid
          refine hs.modifySlave fun sl _ => ?_
          unfold Slave.takeRunning
          split <;> exact ⟨rfl, rfl, rfl⟩
        · exact seq_inv (I := Solvent _) (forEach_inv (fun u _ s hs => hs.handleStatusUpdate u) hs)
            fun hs => (hs.send _).modifySlave fun _ _ => ⟨rfl, rfl, rfl⟩

end Solvent

end Urb
