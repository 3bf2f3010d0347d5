/-
# `Urb.Resources` — debiting and crediting the resources of a slave

A slave keeps what is LEFT of its resources.  `__debit_resources` takes the
resources of a task off, one entry of the task's list after the other, and
counts the task; `__credit_resources` gives them back.  The two differ in the
sign, in the port operation and in what they do with a task that has no
resource list (the debit raises, the credit takes it as empty), so the walk
over the list is one definition, `moveResource`.

An entry that raises leaves the entries before it applied.

Where the walk completes, every scalar amount has moved by what the task asks for
(`debitResources_amount`, `creditResources_amount`).
-/
import Mathlib.Algebra.Order.Ring.Rat
import Mathlib.Tactic.Ring
import Urb.Service

namespace Urb

open Block Slave

/-! ## Amounts by name -/

namespace Slave

variable {slave : Slave}

def amount (slave : Slave) (name : String) : Option ℚ :=
  if name = "cpus" then some slave.cpus
  else if name = "mem" then some slave.mem
  else if name = "disk" then some slave.disk
  else if name = "gpus" then slave.gpus
  else match slave.customResources.lookup name with
    | some (.scalar v) => some v
    | _ => none

def setAmount (name : String) (v : ℚ) (slave : Slave) : Slave :=
  if name = "cpus" then { slave with cpus := v }
  else if name = "mem" then { slave with mem := v }
  else if name = "disk" then { slave with disk := v }
  else if name = "gpus" then { slave with gpus := some v }
  else { slave with customResources := slave.customResources.modify name (fun _ => .scalar v) }

structure SameControl (a b : Slave) : Prop where
  hostname : b.hostname = a.hostname
  channel : b.channel = a.channel
  offerable : b.offerable = a.offerable
  offerableAfter : b.offerableAfter = a.offerableAfter
  refusedCount : b.refusedCount = a.refusedCount
  executor : b.executor = a.executor
  executorChannel : b.executorChannel = a.executorChannel
  commandExecutors : b.commandExecutors = a.commandExecutors
  placeholder : b.placeholder = a.placeholder
  offer : b.offer = a.offer

namespace SameControl

variable {a b c : Slave}

lemma refl (a : Slave) : SameControl a a := ⟨rfl, rfl, rfl, rfl, rfl, rfl, rfl, rfl, rfl, rfl⟩

lemma trans (h : SameControl a b) (k : SameControl b c) : SameControl a c :=
  ⟨k.hostname.trans h.hostname, k.channel.trans h.channel, k.offerable.trans h.offerable,
    k.offerableAfter.trans h.offerableAfter, k.refusedCount.trans h.refusedCount,
    k.executor.trans h.executor, k.executorChannel.trans h.executorChannel,
    k.commandExecutors.trans h.commandExecutors, k.placeholder.trans h.placeholder,
    k.offer.trans h.offer⟩

lemma isCommandExecutor (h : SameControl a b) : b.isCommandExecutor = a.isCommandExecutor := by
  rw [Slave.isCommandExecutor, Slave.isCommandExecutor, h.commandExecutors]

end SameControl

lemma setAmount_sameControl (name : String) (v : ℚ) (slave : Slave) :
    SameControl slave (slave.setAmount name v) := by
  unfold setAmount
  split_ifs <;> exact ⟨rfl, rfl, rfl, rfl, rfl, rfl, rfl, rfl, rfl, rfl⟩

lemma taskCount_setAmount (name : String) (v : ℚ) (slave : Slave) :
    (slave.setAmount name v).taskCount = slave.taskCount := by
  unfold setAmount
  split_ifs <;> rfl

lemma ports_setAmount (name : String) (v : ℚ) (slave : Slave) :
    (slave.setAmount name v).ports = slave.ports := by
  unfold setAmount
  split_ifs <;> rfl

lemma lookup_customResources {name : String} {a : ℚ} (h₁ : name ≠ "cpus") (h₂ : name ≠ "mem")
    (h₃ : name ≠ "disk") (h₄ : name ≠ "gpus") (h : slave.amount name = some a) :
    slave.customResources.lookup name = some (.scalar a) := by
  simp only [amount, if_neg h₁, if_neg h₂, if_neg h₃, if_neg h₄] at h
  split at h
  · next v hv => rw [hv]; cases h; rfl
  · cases h

lemma amount_setAmount {name : String} {a : ℚ} (h : slave.amount name = some a) (v : ℚ) (m : String) :
    (slave.setAmount name v).amount m = if m = name then some v else slave.amount m := by
  -- the four known names, then the custom ones
  by_cases h₁ : name = "cpus"
  · subst h₁
    simp only [setAmount, amount, if_pos]
    split_ifs <;> rfl
  by_cases h₂ : name = "mem"
  · subst h₂
    simp only [setAmount, amount, if_neg h₁, if_pos]
    split_ifs <;> first | rfl | simp_all
  by_cases h₃ : name = "disk"
  · subst h₃
    simp only [setAmount, amount, if_neg h₁, if_neg h₂, if_pos]
    split_ifs <;> first | rfl | simp_all
  by_cases h₄ : name = "gpus"
  · subst h₄
    simp only [setAmount, amount, if_neg h₁, if_neg h₂, if_neg h₃, if_pos]
    split_ifs <;> first | rfl | simp_all
  · have hc := lookup_customResources h₁ h₂ h₃ h₄ h
    simp only [setAmount, amount, if_neg h₁, if_neg h₂, if_neg h₃, if_neg h₄]
    by_cases hm : m = name
    · subst hm
      simp only [if_neg h₁, if_neg h₂, if_neg h₃, if_neg h₄, if_pos, AList.lookup_modify_self, hc,
        map_some]
    · rw [AList.lookup_modify_ne hm, if_neg hm]

end Slave

/-! ## Moving one entry of the list -/

def Resource.isKnownScalar (r : Resource) : Bool :=
  r.name == "cpus" || r.name == "gpus" || r.name == "mem" || r.name == "disk"

def moveResource (portOp : List (ℤ × ℤ) → List PortRange → Except RangeError (List (ℤ × ℤ)))
    (sign : ℚ) (r : Resource) : Block Slave := fun slave =>
  if r.name = "ports" then
    match r.ranges with
    | none => (slave, .raise)
    | some l =>
      match portOp slave.ports l with
      | .error _ => (slave, .raise)
      | .ok ports => ({ slave with ports := ports }, .next)
  else if r.isKnownScalar || r.type = .scalar then
    match r.scalar, slave.amount r.name with
    | some v, some a => (slave.setAmount r.name (a + sign * v), .next)
    | _, _ => (slave, .raise)
  else (slave, .next)

def debitResource : Resource → Block Slave := moveResource PortRangeUtility.subtract (-1)

def creditResource : Resource → Block Slave := moveResource PortRangeUtility.add 1

def countTasks (n : ℤ) : Block Slave := fun slave =>
  ({ slave with taskCount := slave.taskCount + n }, .next)

def debitResources (t : TaskInfo) : Block Slave := fun slave =>
  match t.resources with
  | none => (slave, .raise)
  | some rs => seq (forEach debitResource rs) (countTasks 1) slave

def creditResources (t : TaskInfo) : Block Slave :=
  seq (forEach creditResource (t.resources.getD [])) (countTasks (-1))

def initializeSlaveResources (config : Config) (hostname channel : String) : Slave :=
  { hostname := hostname
    channel := channel
    cpus := config.cpus
    mem := config.mem
    disk := config.disk
    gpus := config.gpus.map (fun n => (n : ℚ))
    ports := config.ports
    customResources := config.customResources }

/-! ## What a task asks for -/

def Resource.need (r : Resource) (name : String) : ℚ :=
  if r.name = name ∧ r.name ≠ "ports" ∧ (r.isKnownScalar || r.type = .scalar) then r.scalar.getD 0
  else 0

def TaskInfo.need (t : TaskInfo) (name : String) : ℚ :=
  ((t.resources.getD []).map (·.need name)).sum

/-! ## What the walk does -/

section Walk

variable {portOp : List (ℤ × ℤ) → List PortRange → Except RangeError (List (ℤ × ℤ))}
  {sign : ℚ}

lemma moveResource_rule {I : Slave → Prop} {r : Resource} (h : I slave)
    (ports : ∀ l, I { slave with ports := l })
    (amount : ∀ a v, slave.amount r.name = some a → I (slave.setAmount r.name v)) :
    I (moveResource portOp sign r slave).1 := by
  unfold moveResource
  split_ifs
  · split
    · exact h
    · split
      · exact h
      · exact ports _
  · split
    · next ha => exact amount _ _ ha
    · exact h
  · exact h

lemma moveResource_sameControl (r : Resource) (slave : Slave) :
    slave.SameControl (moveResource portOp sign r slave).1 :=
  moveResource_rule (.refl slave) (fun _ => ⟨rfl, rfl, rfl, rfl, rfl, rfl, rfl, rfl, rfl, rfl⟩)
    fun _ _ _ => setAmount_sameControl _ _ slave

lemma moveResource_taskCount (r : Resource) (slave : Slave) :
    (moveResource portOp sign r slave).1.taskCount = slave.taskCount :=
  moveResource_rule (I := fun sl => sl.taskCount = slave.taskCount) rfl (fun _ => rfl)
    fun _ _ _ => taskCount_setAmount _ _ slave

lemma moveResource_raised {r : Resource} (h : (moveResource portOp sign r slave).2 ≠ .next) :
    (moveResource portOp sign r slave).1 = slave := by
  unfold moveResource at h ⊢
  split_ifs at h ⊢
  · split
    · rfl
    · split
      · rfl
      · simp_all
  · split
    · simp_all
    · rfl
  · rfl

lemma moveResource_amount {r : Resource} (h : (moveResource portOp sign r slave).2 = .next)
    (name : String) : (moveResource portOp sign r slave).1.amount name =
      (slave.amount name).map (· + sign * r.need name) := by
  unfold moveResource at h ⊢
  split_ifs at h ⊢ with hports hscalar
  · -- ports: no scalar moves, and the entry asks for none
    have hneed : r.need name = 0 := if_neg fun hn => hn.2.1 hports
    split at h
    · cases h
    · split at h
      · cases h
      · simp [hneed, amount]
  · split at h
    · next v a hv ha =>
        rw [amount_setAmount ha]
        split_ifs with hn
        · subst hn
          rw [Resource.need, if_pos ⟨rfl, hports, hscalar⟩, ha, hv]
          rfl
        · have hneed : r.need name = 0 := if_neg fun hr => hn hr.1.symm
          simp [hneed]
    · cases h
  · have hneed : r.need name = 0 := if_neg fun hn => hscalar hn.2.2
    simp [hneed]

lemma forEach_moveResource_sameControl (rs : List Resource) (slave : Slave) :
    slave.SameControl (forEach (moveResource portOp sign) rs slave).1 :=
  forEach_inv (I := fun sl => slave.SameControl sl)
    (fun r _ sl h => h.trans (moveResource_sameControl r sl)) (.refl slave)

lemma forEach_moveResource_taskCount (rs : List Resource) (slave : Slave) :
    (forEach (moveResource portOp sign) rs slave).1.taskCount = slave.taskCount :=
  forEach_inv (I := fun sl => sl.taskCount = slave.taskCount)
    (fun r _ sl h => (moveResource_taskCount r sl).trans h) rfl

lemma forEach_moveResource_amount : ∀ {rs : List Resource} {slave : Slave},
      (forEach (moveResource portOp sign) rs slave).2 = .next → ∀ name : String,
      (forEach (moveResource portOp sign) rs slave).1.amount name =
        (slave.amount name).map (· + sign * (rs.map (·.need name)).sum)
  | [], slave, _, name => by simp
  | r :: rs, slave, h, name => by
    rw [forEach_cons, seq_next_iff] at h
    rw [forEach_cons, seq_of_next h.1, forEach_moveResource_amount h.2,
      moveResource_amount h.1, Option.map_map]
    congr 1
    funext x
    simp only [Function.comp_apply, List.map_cons, List.sum_cons]
    ring

end Walk

lemma debitResources_sameControl (t : TaskInfo) (slave : Slave) :
    slave.SameControl (debitResources t slave).1 := by
  unfold debitResources
  split
  · exact .refl slave
  · refine seq_inv (forEach_moveResource_sameControl _ slave) fun h => ?_
    exact h.trans ⟨rfl, rfl, rfl, rfl, rfl, rfl, rfl, rfl, rfl, rfl⟩

lemma creditResources_sameControl (t : TaskInfo) (slave : Slave) :
    slave.SameControl (creditResources t slave).1 := by
  refine seq_inv (forEach_moveResource_sameControl _ slave) fun h => ?_
  exact h.trans ⟨rfl, rfl, rfl, rfl, rfl, rfl, rfl, rfl, rfl, rfl⟩

lemma amount_countTasks (n : ℤ) (slave : Slave) (name : String) :
    (countTasks n slave).1.amount name = slave.amount name := rfl

lemma debitResources_amount {t : TaskInfo} (h : (debitResources t slave).2 = .next) (name : String) :
    (debitResources t slave).1.amount name = (slave.amount name).map (· - t.need name) := by
  cases hr : t.resources with
  | none => simp [debitResources, hr] at h
  | some rs =>
    simp only [debitResources, hr] at h ⊢
    rw [seq_next_iff] at h
    rw [seq_of_next h.1, amount_countTasks]
    have hm := forEach_moveResource_amount h.1 name
    rw [debitResource, hm, TaskInfo.need, hr]
    congr 1
    funext x
    simp only [getD_some]
    ring

lemma debitResources_taskCount {t : TaskInfo} (h : (debitResources t slave).2 = .next) :
    (debitResources t slave).1.taskCount = slave.taskCount + 1 := by
  cases hr : t.resources with
  | none => simp [debitResources, hr] at h
  | some rs =>
    simp only [debitResources, hr] at h ⊢
    rw [seq_next_iff] at h
    rw [seq_of_next h.1]
    exact congrArg (· + 1) (forEach_moveResource_taskCount rs slave)

lemma creditResources_amount {t : TaskInfo} (h : (creditResources t slave).2 = .next) (name : String) :
    (creditResources t slave).1.amount name = (slave.amount name).map (· + t.need name) := by
  unfold creditResources at h ⊢
  rw [seq_next_iff] at h
  rw [seq_of_next h.1, amount_countTasks]
  have hm := forEach_moveResource_amount h.1 name
  rw [creditResource, hm, TaskInfo.need]
  congr 1
  funext x
  ring

lemma creditResources_taskCount {t : TaskInfo} (h : (creditResources t slave).2 = .next) :
    (creditResources t slave).1.taskCount = slave.taskCount - 1 := by
  unfold creditResources at h ⊢
  rw [seq_next_iff] at h
  rw [seq_of_next h.1]
  exact congrArg (· + -1) (forEach_moveResource_taskCount _ slave)

end Urb
