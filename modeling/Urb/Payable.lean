/-
# `Urb.Payable` — debits and credits that complete

The walk over the resource list of a task raises in the middle when an entry
asks for what the slave does not have, when it has no value, or when the port
arithmetic fails.  A task is PAYABLE for a configuration when it has a list
and every entry of it has its value and, a scalar one, is not negative and names
something that slaves start with; a slave is STOCKED when it has amounts for just the names
it started with and its ports are apart.

**Proved here.**  A payable task can be debited from and credited to a stocked
slave, which stays stocked (`debitResources_next`, `creditResources_next`).
-/
import Urb.PortSets
import Urb.Stock

namespace Urb

open Block List

def Resource.Payable (config : Config) (r : Resource) : Prop :=
  if r.name = "ports" then r.ranges.isSome = true
  else (r.isKnownScalar || r.type = .scalar) = true →
    (r.scalar.isSome = true ∧ 0 ≤ r.scalar.getD 0) ∧ (config.initial r.name).isSome = true

instance (config : Config) (r : Resource) : Decidable (r.Payable config) :=
  inferInstanceAs (Decidable (if r.name = "ports" then r.ranges.isSome = true else
    (r.isKnownScalar || r.type = .scalar) = true →
      (r.scalar.isSome = true ∧ 0 ≤ r.scalar.getD 0) ∧ (config.initial r.name).isSome = true))

def TaskInfo.Payable (config : Config) (t : TaskInfo) : Prop :=
  t.resources.isSome = true ∧ ∀ r ∈ t.resources.getD [], r.Payable config

instance (config : Config) (t : TaskInfo) : Decidable (t.Payable config) :=
  inferInstanceAs (Decidable (_ ∧ _))

structure Slave.Stocked (config : Config) (slave : Slave) : Prop where
  ports : PortRangeUtility.Apart slave.ports
  amounts : ∀ name, (slave.amount name).isSome = (config.initial name).isSome

section Walk

variable {config : Config} {portOp : List (ℤ × ℤ) → List PortRange → Except RangeError (List (ℤ × ℤ))}

def Succeeds (portOp : List (ℤ × ℤ) → List PortRange → Except RangeError (List (ℤ × ℤ))) : Prop :=
  ∀ {ports}, PortRangeUtility.Apart ports → ∀ l, ∃ ports', portOp ports l = .ok ports' ∧
    PortRangeUtility.Apart ports'

lemma succeeds_subtract : Succeeds PortRangeUtility.subtract := fun h l =>
  (PortRangeUtility.subtract_apart h l).imp fun _ hp => ⟨hp.1, hp.2.1⟩

lemma succeeds_add : Succeeds PortRangeUtility.add := fun h l =>
  (PortRangeUtility.add_apart h l).imp fun _ hp => ⟨hp.1, hp.2.1⟩

lemma moveResource_next (hop : Succeeds portOp) (sign : ℚ) {r : Resource}
    (hr : r.Payable config) {slave : Slave} (hs : slave.Stocked config) :
    (moveResource portOp sign r slave).2 = .next ∧
      PortRangeUtility.Apart (moveResource portOp sign r slave).1.ports := by
  unfold Resource.Payable at hr
  unfold moveResource
  split_ifs at hr ⊢ with hports hscalar
  · obtain ⟨l, hl⟩ := isSome_iff_exists.mp hr
    obtain ⟨ports', hok, hapart⟩ := hop hs.ports l
    simp only [hl, hok]
    exact ⟨trivial, hapart⟩
  · obtain ⟨hv, ha⟩ := hr hscalar
    obtain ⟨v, hv⟩ := isSome_iff_exists.mp hv.1
    obtain ⟨a, ha⟩ := isSome_iff_exists.mp ((hs.amounts r.name).trans ha)
    simp only [hv, ha]
    refine ⟨trivial, ?_⟩
    rw [Slave.ports_setAmount]
    exact hs.ports
  · exact ⟨rfl, hs.ports⟩

lemma moveResource_stocked (hop : Succeeds portOp) (sign : ℚ) {r : Resource}
    (hr : r.Payable config) {slave : Slave} (hs : slave.Stocked config) :
    (moveResource portOp sign r slave).2 = .next ∧
      (moveResource portOp sign r slave).1.Stocked config := by
  obtain ⟨hnext, hports⟩ := moveResource_next hop sign hr hs
  refine ⟨hnext, hports, fun name => ?_⟩
  rw [moveResource_amount hnext, Option.isSome_map, hs.amounts]

lemma forEach_moveResource_stocked (hop : Succeeds portOp) (sign : ℚ) :
    ∀ {rs : List Resource} {slave : Slave}, (∀ r ∈ rs, r.Payable config) → slave.Stocked config →
      (forEach (moveResource portOp sign) rs slave).2 = .next ∧
        (forEach (moveResource portOp sign) rs slave).1.Stocked config
  | [], _, _, hs => ⟨rfl, hs⟩
  | r :: rs, slave, hrs, hs => by
    obtain ⟨hnext, hs'⟩ := moveResource_stocked hop sign (hrs r mem_cons_self) hs
    rw [forEach_cons, seq_of_next hnext]
    exact forEach_moveResource_stocked hop sign (fun r' h => hrs r' (mem_cons_of_mem r h)) hs'

end Walk

/-! ## Payable tasks -/

section Tasks

variable {config : Config} {t : TaskInfo} {slave : Slave}

lemma Resource.Payable.need_nonneg {r : Resource} (h : r.Payable config) (name : String) :
    0 ≤ r.need name := by
  unfold Resource.need
  split_ifs with hn
  · rw [Resource.Payable, if_neg hn.2.1] at h
    exact (h hn.2.2).1.2
  · exact le_refl 0

lemma TaskInfo.Payable.need_nonneg (h : t.Payable config) (name : String) : 0 ≤ t.need name :=
  sum_nonneg (forall_mem_map.mpr fun r hr => (h.2 r hr).need_nonneg name)

def TaskInfo.AsksNothing (t : TaskInfo) : Prop := ∀ r ∈ t.resources.getD [], t.need r.name = 0

instance (t : TaskInfo) : Decidable t.AsksNothing := inferInstanceAs (Decidable (∀ r ∈ _, _))

lemma TaskInfo.Payable.configured (h : t.Payable config) {name : String} (hneed : t.need name ≠ 0) :
    (config.initial name).isSome := by
  have hentry : ∃ r ∈ t.resources.getD [], r.need name ≠ 0 := by
    by_contra hnone
    push Not at hnone
    exact hneed (sum_eq_zero (forall_mem_map.mpr hnone))
  obtain ⟨r, hr, hne⟩ := hentry
  obtain ⟨rfl, hports, hscalar⟩ : r.name = name ∧ r.name ≠ "ports" ∧
      (r.isKnownScalar || r.type = .scalar) := by
    by_contra hn
    exact hne (if_neg hn)
  have hpay := h.2 r hr
  rw [Resource.Payable, if_neg hports] at hpay
  exact (hpay hscalar).2

lemma TaskInfo.Payable.asksNothing_iff (h : t.Payable config) :
    t.AsksNothing ↔ ∀ name, (config.initial name).isSome → t.need name = 0 := by
  constructor
  · intro hnone name _
    by_cases hname : ∃ r ∈ t.resources.getD [], r.name = name
    · obtain ⟨r, hr, rfl⟩ := hname
      exact hnone r hr
    · refine sum_eq_zero (forall_mem_map.mpr fun r hr => if_neg fun hn => ?_)
      exact hname ⟨r, hr, hn.1⟩
  · intro hzero r _
    by_contra hneed
    exact hneed (hzero r.name (h.configured hneed))

lemma Slave.Stocked.countTasks (n : ℤ) (h : slave.Stocked config) :
    (Urb.countTasks n slave).1.Stocked config := ⟨h.ports, h.amounts⟩

lemma debitResources_next (ht : t.Payable config) (hs : slave.Stocked config) :
    (debitResources t slave).2 = .next ∧ (debitResources t slave).1.Stocked config := by
  obtain ⟨rs, hrs⟩ := isSome_iff_exists.mp ht.1
  have hall : ∀ r ∈ rs, r.Payable config := fun r hr => ht.2 r (by rw [hrs]; exact hr)
  obtain ⟨hnext, hs'⟩ : (forEach debitResource rs slave).2 = .next ∧
      (forEach debitResource rs slave).1.Stocked config :=
    forEach_moveResource_stocked succeeds_subtract (-1) hall hs
  simp only [debitResources, hrs]
  rw [seq_of_next hnext]
  exact ⟨rfl, hs'.countTasks 1⟩

lemma creditResources_next (ht : t.Payable config) (hs : slave.Stocked config) :
    (creditResources t slave).2 = .next ∧ (creditResources t slave).1.Stocked config := by
  obtain ⟨hnext, hs'⟩ : (forEach creditResource (t.resources.getD []) slave).2 = .next ∧
      (forEach creditResource (t.resources.getD []) slave).1.Stocked config :=
    forEach_moveResource_stocked succeeds_add 1 ht.2 hs
  rw [creditResources, seq_of_next hnext]
  exact ⟨rfl, hs'.countTasks (-1)⟩

end Tasks

end Urb
