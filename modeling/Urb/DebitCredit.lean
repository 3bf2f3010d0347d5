/-
# `Urb.DebitCredit` — taking a task off a slave and giving it back

A debit that is rejected in the middle leaves the entries before it debited.
The credit of the same task moves every scalar back; what it does to the ports
goes through the port arithmetic, which keeps one port of every range it meets.

    Slave.Rejects      the entry raises
    Slave.Idle         the entries change nothing
    Slave.KeepsPorts   the ends of the slave's ranges and the ports that the
                       task names are together the ports of the slave

**Proved here.**  Which entries raise can be read off the slave before the walk
(`forEach_moveResource_rejected`), and a debit is either undone by the credit or
leaves the slave alone exactly when the entries before a rejected one are idle
and, where none is rejected, the ports are kept (`debit_credit_iff`).
-/
import Mathlib.Tactic.Linarith
import Urb.PortArithmetic
import Urb.Resources

namespace Urb

open List Slave

open Block PortRangeUtility

variable {r : Resource} {slave : Slave}

/-! ## Single ports -/

def Singles (ports : List (ℤ × ℤ)) : Prop :=
  (∀ q ∈ ports, q.1 = q.2) ∧ (ports.map (·.2)).Pairwise (· < ·)

lemma singles_map {ns : List ℤ} (h : ns.Pairwise (· < ·)) : Singles (ns.map fun n => (n, n)) := by
  refine ⟨fun q hq => ?_, ?_⟩
  · obtain ⟨n, _, rfl⟩ := mem_map.mp hq
    rfl
  · rw [map_map]
    exact (map_id' ns).symm ▸ h

lemma Singles.eq_map {ports : List (ℤ × ℤ)} (h : Singles ports) :
    ports = (ports.map (·.2)).map fun n => (n, n) := by
  rw [map_map]
  exact (map_id ports).symm.trans (map_congr_left fun q hq => Prod.ext (h.1 q hq) rfl)

lemma Singles.ext {ports ports' : List (ℤ × ℤ)} (h : Singles ports) (h' : Singles ports')
    (hmem : ∀ m, m ∈ ports.map (·.2) ↔ m ∈ ports'.map (·.2)) : ports = ports' := by
  have hends : ports.map (·.2) = ports'.map (·.2) :=
    List.Perm.eq_of_pairwise (fun a b _ _ hab hba => absurd hab (lt_asymm hba)) h.2 h'.2
      ((perm_ext_iff_of_nodup (h.2.imp fun hlt => hlt.ne) (h'.2.imp fun hlt => hlt.ne)).mpr hmem)
  rw [h.eq_map, h'.eq_map, hends]

lemma Singles.apart {ports : List (ℤ × ℤ)} (h : Singles ports) : Apart ports :=
  h.2.imp fun hlt => hlt.ne

/-! ## Port operations -/

structure PortOperation (portOp : List (ℤ × ℤ) → List PortRange → Except RangeError (List (ℤ × ℤ)))
    (op : Prop → Prop → Prop) : Prop where
  rejects : ∀ {ports}, ¬Apart ports → ∀ l, portOp ports l = .error .overlap
  accepts : ∀ {ports}, Apart ports → ∀ l, ∃ ports', portOp ports l = .ok ports' ∧ Singles ports' ∧
    ∀ m, m ∈ ports'.map (·.2) ↔ op (m ∈ ports.map (·.2)) (m ∈ l.map portOf)
  none : ∀ a, op a False ↔ a
  both : ∀ a b c, op (op a b) c ↔ op a (b ∨ c)

lemma singles_of_sorted {result : Except RangeError (List (ℤ × ℤ))} {P : ℤ → Prop}
    (h : ∃ ns : List ℤ, result = .ok (ns.map fun n => (n, n)) ∧ ns.Pairwise (· < ·) ∧
      ∀ m, m ∈ ns ↔ P m) :
    ∃ ports, result = .ok ports ∧ Singles ports ∧ ∀ m, m ∈ ports.map (·.2) ↔ P m := by
  obtain ⟨ns, hok, hsorted, hmem⟩ := h
  exact ⟨_, hok, singles_map hsorted, fun m => ((apart_single hsorted).2 m).trans (hmem m)⟩

lemma subtract_operation : PortOperation PortRangeUtility.subtract (fun a b => a ∧ ¬b) where
  rejects := subtract_error
  accepts h l := singles_of_sorted (subtract_single h l)
  none _ := by simp
  both _ _ _ := by rw [not_or, and_assoc]

lemma add_operation : PortOperation PortRangeUtility.add Or where
  rejects := add_error
  accepts h l := singles_of_sorted (add_single h l)
  none _ := by simp
  both _ _ _ := or_assoc

/-! ## Entries that raise -/

def Slave.Rejects (slave : Slave) (r : Resource) : Prop :=
  if r.name = "ports" then r.ranges = none ∨ ¬Apart slave.ports
  else (r.isKnownScalar || r.type = .scalar) = true ∧ (r.scalar = none ∨ slave.amount r.name = none)

instance (slave : Slave) (r : Resource) : Decidable (slave.Rejects r) :=
  inferInstanceAs (Decidable (if r.name = "ports" then r.ranges = none ∨ ¬Apart slave.ports
    else (r.isKnownScalar || r.type = .scalar) = true ∧
      (r.scalar = none ∨ slave.amount r.name = none)))

def namedPorts (rs : List Resource) : List ℤ :=
  (rs.filter (fun r => r.name = "ports")).flatMap fun r => (r.ranges.getD []).map PortRange.seen

lemma mem_namedPorts_cons {rs : List Resource} {m : ℤ} : m ∈ namedPorts (r :: rs) ↔
      (r.name = "ports" ∧ m ∈ (r.ranges.getD []).map portOf) ∨ m ∈ namedPorts rs := by
  have hseen : portOf = PortRange.seen := funext portOf_eq_seen
  by_cases h : r.name = "ports"
  · simp [namedPorts, h, hseen]
  · simp [namedPorts, h]

section Walk

variable {portOp : List (ℤ × ℤ) → List PortRange → Except RangeError (List (ℤ × ℤ))}
  {op : Prop → Prop → Prop} (hop : PortOperation portOp op) (sign : ℚ)
include hop

lemma moveResource_rejected (h : slave.Rejects r) :
    moveResource portOp sign r slave = (slave, .raise) := by
  unfold Slave.Rejects at h
  unfold moveResource
  split_ifs at h ⊢ with hports hscalar
  · rcases h with hnone | hapart
    · rw [hnone]
    · cases r.ranges with
      | none => rfl
      | some l => simp only [hop.rejects hapart]
  · rcases h.2 with hnone | hnone
    · rw [hnone]
    · rw [hnone]
      cases r.scalar <;> rfl
  · exact absurd h.1 hscalar

lemma moveResource_accepted (h : ¬slave.Rejects r) : (moveResource portOp sign r slave).2 = .next ∧
      (r.name = "ports" → Apart slave.ports ∧ Singles (moveResource portOp sign r slave).1.ports ∧
        ∀ m, m ∈ (moveResource portOp sign r slave).1.ports.map (·.2) ↔
          op (m ∈ slave.ports.map (·.2)) (m ∈ (r.ranges.getD []).map portOf)) ∧
      (r.name ≠ "ports" → (moveResource portOp sign r slave).1.ports = slave.ports) := by
  unfold Slave.Rejects at h
  unfold moveResource
  split_ifs at h ⊢ with hports hscalar
  · obtain ⟨hsome, hapart⟩ := not_or.mp h
    obtain ⟨l, hl⟩ := ne_none_iff_exists'.mp hsome
    obtain ⟨ports', hok, hsingles, hmem⟩ := hop.accepts (not_not.mp hapart) l
    simp only [hl, hok]
    exact ⟨trivial, fun _ => ⟨not_not.mp hapart, hsingles, hmem⟩, fun hne => absurd hports hne⟩
  · obtain ⟨hv, ha⟩ := not_or.mp fun hnone => h ⟨hscalar, hnone⟩
    obtain ⟨v, hv⟩ := ne_none_iff_exists'.mp hv
    obtain ⟨a, ha⟩ := ne_none_iff_exists'.mp ha
    simp only [hv, ha]
    exact ⟨trivial, fun heq => absurd heq hports, fun _ => ports_setAmount _ _ slave⟩
  · exact ⟨rfl, fun heq => absurd heq hports, fun _ => rfl⟩

lemma moveResource_rejects_iff (h : ¬slave.Rejects r) (r' : Resource)
    : (moveResource portOp sign r slave).1.Rejects r' ↔ slave.Rejects r' := by
  obtain ⟨hnext, hports, hrest⟩ := moveResource_accepted hop sign h
  have happort : Apart (moveResource portOp sign r slave).1.ports ↔ Apart slave.ports := by
    by_cases hr : r.name = "ports"
    · obtain ⟨hapart, hsingles, _⟩ := hports hr
      exact iff_of_true hsingles.apart hapart
    · rw [hrest hr]
  have hamount : (moveResource portOp sign r slave).1.amount r'.name = none ↔
      slave.amount r'.name = none := by
    rw [moveResource_amount hnext, Option.map_eq_none_iff]
  unfold Slave.Rejects
  rw [happort, hamount]

lemma moveResource_rest {rs : List Resource} (h : ∀ r' ∈ r :: rs, ¬slave.Rejects r') :
    ∀ r' ∈ rs, ¬(moveResource portOp sign r slave).1.Rejects r' := by
  intro r' hr'
  rw [moveResource_rejects_iff hop sign (h r mem_cons_self)]
  exact h r' (mem_cons_of_mem r hr')

lemma forEach_moveResource_accepted :
    ∀ {rs : List Resource} {slave : Slave}, (∀ r ∈ rs, ¬slave.Rejects r) →
      (forEach (moveResource portOp sign) rs slave).2 = .next
  | [], _, _ => rfl
  | r :: rs, slave, h => by
    rw [forEach_cons, seq_of_next (moveResource_accepted hop sign (h r mem_cons_self)).1]
    exact forEach_moveResource_accepted (moveResource_rest hop sign h)

lemma forEach_moveResource_rejects_iff :
    ∀ {rs : List Resource} {slave : Slave}, (∀ r ∈ rs, ¬slave.Rejects r) → ∀ r' : Resource,
      (forEach (moveResource portOp sign) rs slave).1.Rejects r' ↔ slave.Rejects r'
  | [], _, _, _ => .rfl
  | r :: rs, slave, h, r' => by
    have hr := h r mem_cons_self
    rw [forEach_cons, seq_of_next (moveResource_accepted hop sign hr).1,
      forEach_moveResource_rejects_iff (moveResource_rest hop sign h),
      moveResource_rejects_iff hop sign hr]

lemma forEach_moveResource_rejected :
    ∀ {rs : List Resource} {slave : Slave}, (∃ r ∈ rs, slave.Rejects r) →
      forEach (moveResource portOp sign) rs slave = ((forEach (moveResource portOp sign)
          (rs.takeWhile fun r => ¬slave.Rejects r) slave).1, .raise)
  | [], _, ⟨_, hr, _⟩ => absurd hr not_mem_nil
  | r :: rs, slave, h => by
    by_cases hr : slave.Rejects r
    · have hstop := moveResource_rejected hop sign hr
      rw [forEach_cons, seq_of_ne (by rw [hstop]; exact Ending.noConfusion), hstop,
        takeWhile_cons_of_neg (by simpa using hr)]
      rfl
    · have hnext := (moveResource_accepted hop sign hr).1
      have hrest : ∃ r' ∈ rs, (moveResource portOp sign r slave).1.Rejects r' := by
        obtain ⟨r', hr', hrej⟩ := h
        rcases mem_cons.mp hr' with rfl | hr'
        · exact absurd hrej hr
        · exact ⟨r', hr', (moveResource_rejects_iff hop sign hr r').mpr hrej⟩
      rw [forEach_cons, seq_of_next hnext, forEach_moveResource_rejected hrest,
        takeWhile_cons_of_pos (by simpa using hr), forEach_cons, seq_of_next hnext]
      simp only [moveResource_rejects_iff hop sign hr]

lemma forEach_moveResource_ends :
    ∀ {rs : List Resource} {slave : Slave}, (∀ r ∈ rs, ¬slave.Rejects r) → ∀ m : ℤ,
      m ∈ (forEach (moveResource portOp sign) rs slave).1.ports.map (·.2) ↔
        op (m ∈ slave.ports.map (·.2)) (m ∈ namedPorts rs)
  | [], slave, _, m => by
    rw [show (m ∈ namedPorts []) = False from eq_false not_mem_nil, hop.none]
    rfl
  | r :: rs, slave, h, m => by
    obtain ⟨hnext, hports, hother⟩ := moveResource_accepted hop sign (h r mem_cons_self)
    rw [forEach_cons, seq_of_next hnext, forEach_moveResource_ends (moveResource_rest hop sign h),
      mem_namedPorts_cons]
    by_cases hname : r.name = "ports"
    · rw [(hports hname).2.2 m, hop.both]
      simp only [hname, true_and]
    · rw [hother hname]
      simp only [hname, false_and, false_or]

lemma forEach_moveResource_singles :
    ∀ {rs : List Resource} {slave : Slave}, (∀ r ∈ rs, ¬slave.Rejects r) →
      (∃ r ∈ rs, r.name = "ports") ∨ Singles slave.ports →
      Singles (forEach (moveResource portOp sign) rs slave).1.ports
  | [], _, _, h => h.resolve_left fun ⟨_, hr, _⟩ => absurd hr not_mem_nil
  | r :: rs, slave, h, hsingles => by
    obtain ⟨hnext, hports, hother⟩ := moveResource_accepted hop sign (h r mem_cons_self)
    rw [forEach_cons, seq_of_next hnext]
    refine forEach_moveResource_singles (moveResource_rest hop sign h) ?_
    by_cases hname : r.name = "ports"
    · exact .inr (hports hname).2.1
    · rw [hother hname]
      refine hsingles.imp_left fun ⟨r', hr', hname'⟩ => ⟨r', ?_, hname'⟩
      exact (mem_cons.mp hr').resolve_left fun heq => hname (heq ▸ hname')

lemma forEach_moveResource_ports :
    ∀ {rs : List Resource} {slave : Slave}, (∀ r ∈ rs, ¬slave.Rejects r) →
      (∀ r ∈ rs, r.name ≠ "ports") → (forEach (moveResource portOp sign) rs slave).1.ports = slave.ports
  | [], _, _, _ => rfl
  | r :: rs, slave, h, hnone => by
    obtain ⟨hnext, _, hother⟩ := moveResource_accepted hop sign (h r mem_cons_self)
    rw [forEach_cons, seq_of_next hnext, forEach_moveResource_ports (moveResource_rest hop sign h)
      fun r' hr' => hnone r' (mem_cons_of_mem r hr'), hother (hnone r mem_cons_self)]

end Walk

/-! ## What else the walk keeps -/

def knownScalars : List String := ["cpus", "mem", "disk", "gpus"]

structure Slave.SameShape (a b : Slave) : Prop where
  keys : b.customResources.keys = a.customResources.keys
  fixed : ∀ k, k ∈ knownScalars ∨ (∀ v, a.customResources.lookup k ≠ some (.scalar v)) →
    b.customResources.lookup k = a.customResources.lookup k

namespace Slave.SameShape

variable {a b c : Slave}

lemma refl (a : Slave) : SameShape a a := ⟨rfl, fun _ _ => rfl⟩

lemma trans (h : SameShape a b) (k : SameShape b c) : SameShape a c := by
  refine ⟨k.keys.trans h.keys, fun name hname => ?_⟩
  have hab := h.fixed name hname
  exact (k.fixed name (hab.symm ▸ hname)).trans hab

end Slave.SameShape

lemma Slave.setAmount_sameShape {name : String} {a : ℚ} (h : slave.amount name = some a) (v : ℚ)
    : SameShape slave (slave.setAmount name v) := by
  unfold setAmount
  split_ifs with h₁ h₂ h₃ h₄
  · exact ⟨rfl, fun _ _ => rfl⟩
  · exact ⟨rfl, fun _ _ => rfl⟩
  · exact ⟨rfl, fun _ _ => rfl⟩
  · exact ⟨rfl, fun _ _ => rfl⟩
  · refine ⟨AList.keys_modify _ _ _, fun k hk => AList.lookup_modify_ne ?_ _ _⟩
    rintro rfl
    rcases hk with hk | hk
    · simp [knownScalars, h₁, h₂, h₃, h₄] at hk
    · exact hk a (lookup_customResources h₁ h₂ h₃ h₄ h)

lemma moveResource_sameShape
    {portOp : List (ℤ × ℤ) → List PortRange → Except RangeError (List (ℤ × ℤ))} {sign : ℚ}
    (r : Resource) (slave : Slave) : slave.SameShape (moveResource portOp sign r slave).1 :=
  moveResource_rule (.refl slave) (fun _ => ⟨rfl, fun _ _ => rfl⟩)
    fun _ v ha => setAmount_sameShape ha v

lemma forEach_moveResource_sameShape
    {portOp : List (ℤ × ℤ) → List PortRange → Except RangeError (List (ℤ × ℤ))} {sign : ℚ}
    (rs : List Resource) (slave : Slave) :
    slave.SameShape (forEach (moveResource portOp sign) rs slave).1 :=
  forEach_inv (I := fun sl => slave.SameShape sl)
    (fun r _ sl h => h.trans (moveResource_sameShape r sl)) (.refl slave)

lemma Slave.eq_of_amounts {a b : Slave} (hc : SameControl a b) (hs : SameShape a b)
    (hcount : b.taskCount = a.taskCount) (hports : b.ports = a.ports)
    (hamount : ∀ name, b.amount name = a.amount name) : b = a := by
  have hcpus : b.cpus = a.cpus := Option.some.inj (hamount "cpus")
  have hmem : b.mem = a.mem := Option.some.inj (hamount "mem")
  have hdisk : b.disk = a.disk := Option.some.inj (hamount "disk")
  have hgpus : b.gpus = a.gpus := hamount "gpus"
  have hcustom : b.customResources = a.customResources := by
    refine AList.eq_of_lookup hs.keys fun k => ?_
    by_cases hk : k ∈ knownScalars ∨ ∀ v, a.customResources.lookup k ≠ some (.scalar v)
    · exact hs.fixed k hk
    · obtain ⟨hknown, hscalar⟩ := not_or.mp hk
      push Not at hscalar
      obtain ⟨v, hv⟩ := hscalar
      simp only [knownScalars, mem_cons, not_mem_nil, or_false, not_or] at hknown
      obtain ⟨h₁, h₂, h₃, h₄⟩ := hknown
      have ha : a.amount k = some v := by
        simp only [amount, if_neg h₁, if_neg h₂, if_neg h₃, if_neg h₄, hv]
      rw [hv]
      exact lookup_customResources h₁ h₂ h₃ h₄ ((hamount k).trans ha)
  obtain ⟨h₁, h₂, h₃, h₄, h₅, h₆, h₇, h₈, h₉, h₁₀⟩ := hc
  cases a
  cases b
  rw [mk.injEq]
  exact ⟨h₁, h₂, h₃, h₄, hcpus, hmem, hdisk, hgpus, hports, hcustom, hcount, h₅, h₆, h₇, h₈, h₉, h₁₀⟩

/-! ## The debit that leaves the slave alone -/

def Slave.Idle (slave : Slave) (rs : List Resource) : Prop :=
  (∀ name : String, (rs.map (·.need name)).sum = 0) ∧
    ((∃ r ∈ rs, r.name = "ports") →
      Singles slave.ports ∧ ∀ p ∈ namedPorts rs, p ∉ slave.ports.map (·.2))

lemma Resource.need_of_amount_none (h : ¬slave.Rejects r) {name : String}
    (hnone : slave.amount name = none) : r.need name = 0 := by
  refine if_neg ?_
  rintro ⟨rfl, hports, hscalar⟩
  rw [Slave.Rejects, if_neg hports] at h
  exact h ⟨hscalar, .inr hnone⟩

lemma forEach_debitResource_eq_iff {rs : List Resource} (h : ∀ r ∈ rs, ¬slave.Rejects r) :
    (forEach debitResource rs slave).1 = slave ↔ slave.Idle rs := by
  have hamount := forEach_moveResource_amount (forEach_moveResource_accepted subtract_operation (-1) h)
  have hends := forEach_moveResource_ends subtract_operation (-1) h
  have hsingles := fun hp : ∃ r ∈ rs, r.name = "ports" =>
    forEach_moveResource_singles subtract_operation (-1) h (.inl hp)
  rw [debitResource]
  constructor
  · intro heq
    rw [heq] at hamount hends hsingles
    refine ⟨fun name => ?_, fun hp => ⟨hsingles hp, fun p hnamed hp => ?_⟩⟩
    · cases ha : slave.amount name with
      | none =>
        refine sum_eq_zero (forall_mem_map.mpr fun r hr => ?_)
        exact Resource.need_of_amount_none (h r hr) ha
      | some a =>
        have hsum := hamount name
        rw [ha, map_some, Option.some.injEq] at hsum
        linarith
    · exact ((hends p).mp hp).2 hnamed
  · rintro ⟨hsum, hports⟩
    refine eq_of_amounts (forEach_moveResource_sameControl rs slave)
      (forEach_moveResource_sameShape rs slave) (forEach_moveResource_taskCount rs slave) ?_ ?_
    · by_cases hp : ∃ r ∈ rs, r.name = "ports"
      · obtain ⟨hslave, hnamed⟩ := hports hp
        refine (hsingles hp).ext hslave fun m => (hends m).trans ?_
        exact ⟨And.left, fun hm => ⟨hm, fun hn => hnamed m hn hm⟩⟩
      · push Not at hp
        exact forEach_moveResource_ports subtract_operation (-1) h hp
    · intro name
      rw [hamount, hsum]
      simp

/-! ## The credit that undoes the debit -/

def Slave.HoldsPort (slave : Slave) (p : ℤ) : Prop := ∃ q ∈ slave.ports, q.1 ≤ p ∧ p ≤ q.2

lemma Slave.holdsPort_iff (h : Singles slave.ports) (p : ℤ) :
    slave.HoldsPort p ↔ p ∈ slave.ports.map (·.2) := by
  constructor
  · rintro ⟨q, hq, hle, hge⟩
    exact mem_map.mpr ⟨q, hq, le_antisymm (h.1 q hq ▸ hle) hge⟩
  · intro hp
    obtain ⟨q, hq, rfl⟩ := mem_map.mp hp
    exact ⟨q, hq, (h.1 q hq).le, le_rfl⟩

structure Slave.SameResources (a b : Slave) : Prop where
  amount : ∀ name, b.amount name = a.amount name
  ports : ∀ p, b.HoldsPort p ↔ a.HoldsPort p
  taskCount : b.taskCount = a.taskCount

def Slave.KeepsPorts (slave : Slave) (rs : List Resource) : Prop :=
  (∀ r ∈ rs, r.name ≠ "ports") ∨
    ∀ p, slave.HoldsPort p ↔ p ∈ slave.ports.map (·.2) ∨ p ∈ namedPorts rs

section Undo

variable {t : TaskInfo} {slave : Slave} {rs : List Resource} (ht : t.resources = some rs)
  (h : ∀ r ∈ rs, ¬slave.Rejects r)
include ht h

lemma debitResources_accepted :
    debitResources t slave = countTasks 1 (forEach debitResource rs slave).1 := by
  simp only [debitResources, ht]
  exact seq_of_next (forEach_moveResource_accepted subtract_operation (-1) h)

lemma debitResources_rest : ∀ r ∈ rs, ¬(debitResources t slave).1.Rejects r := by
  intro r hr
  rw [debitResources_accepted ht h]
  exact fun hrej => h r hr ((forEach_moveResource_rejects_iff subtract_operation (-1) h r).mp hrej)

lemma creditResources_accepted : creditResources t (debitResources t slave).1 =
      countTasks (-1) (forEach creditResource rs (debitResources t slave).1).1 := by
  rw [creditResources, ht, getD_some]
  exact seq_of_next (forEach_moveResource_accepted add_operation 1 (debitResources_rest ht h))

lemma debitResources_completes : (debitResources t slave).2 = .next := by
  rw [debitResources_accepted ht h]
  rfl

lemma creditResources_completes : (creditResources t (debitResources t slave).1).2 = .next := by
  rw [creditResources_accepted ht h]
  rfl

lemma debit_credit_amount (name : String) :
    (creditResources t (debitResources t slave).1).1.amount name = slave.amount name := by
  rw [creditResources_amount (creditResources_completes ht h),
    debitResources_amount (debitResources_completes ht h), Option.map_map]
  simp [Function.comp_def]

lemma debit_credit_taskCount :
    (creditResources t (debitResources t slave).1).1.taskCount = slave.taskCount := by
  rw [creditResources_taskCount (creditResources_completes ht h),
    debitResources_taskCount (debitResources_completes ht h), add_sub_cancel_right]

lemma debit_credit_ends (m : ℤ) : m ∈ (creditResources t (debitResources t slave).1).1.ports.map (·.2) ↔
      m ∈ slave.ports.map (·.2) ∨ m ∈ namedPorts rs := by
  rw [creditResources_accepted ht h]
  refine (forEach_moveResource_ends add_operation 1 (debitResources_rest ht h) m).trans ?_
  rw [debitResources_accepted ht h]
  refine (or_congr_left (forEach_moveResource_ends subtract_operation (-1) h m)).trans ?_
  tauto

lemma debit_credit_ports_iff :
    (∀ p, (creditResources t (debitResources t slave).1).1.HoldsPort p ↔ slave.HoldsPort p) ↔
      slave.KeepsPorts rs := by
  by_cases hports : ∃ r ∈ rs, r.name = "ports"
  · have hsingles : Singles (creditResources t (debitResources t slave).1).1.ports := by
      rw [creditResources_accepted ht h]
      exact forEach_moveResource_singles add_operation 1 (debitResources_rest ht h) (.inl hports)
    have hnot : ¬∀ r ∈ rs, r.name ≠ "ports" := by push Not; exact hports
    simp only [Slave.KeepsPorts, hnot, false_or, holdsPort_iff hsingles, debit_credit_ends ht h]
    exact forall_congr' fun p => Iff.comm
  · push Not at hports
    have hsame : (creditResources t (debitResources t slave).1).1.ports = slave.ports := by
      rw [creditResources_accepted ht h]
      refine (forEach_moveResource_ports add_operation 1 (debitResources_rest ht h) hports).trans ?_
      rw [debitResources_accepted ht h]
      exact forEach_moveResource_ports subtract_operation (-1) h hports
    refine iff_of_true (fun p => ?_) (.inl hports)
    rw [Slave.HoldsPort, Slave.HoldsPort, hsame]

end Undo

def Slave.DebitsWhole (slave : Slave) (t : TaskInfo) : Prop :=
  ((debitResources t slave).2 = .next ∧ (creditResources t (debitResources t slave).1).2 = .next ∧
      slave.SameResources (creditResources t (debitResources t slave).1).1) ∨
    debitResources t slave = (slave, .raise)

theorem debit_credit_iff (t : TaskInfo) (slave : Slave) :
    slave.DebitsWhole t ↔
      ((∀ r ∈ t.resources.getD [], ¬slave.Rejects r) → slave.KeepsPorts (t.resources.getD [])) ∧
        ((∃ r ∈ t.resources.getD [], slave.Rejects r) →
          slave.Idle ((t.resources.getD []).takeWhile fun r => ¬slave.Rejects r)) := by
  cases ht : t.resources with
  | none =>
    -- the debit raises before it comes to an entry
    refine iff_of_true (Or.inr (by rw [debitResources, ht])) ⟨fun _ => Or.inl ?_, ?_⟩
    · exact fun r hr => absurd hr not_mem_nil
    · rintro ⟨r, hr, -⟩
      exact absurd hr not_mem_nil
  | some rs =>
    rw [Option.getD_some]
    by_cases h : ∃ r ∈ rs, slave.Rejects r
    · have hpre : ∀ r ∈ rs.takeWhile fun r => ¬slave.Rejects r, ¬slave.Rejects r := fun r hr => by
        simpa using all_eq_true.mp all_takeWhile r hr
      have hdebit : debitResources t slave =
          ((forEach debitResource (rs.takeWhile fun r => ¬slave.Rejects r) slave).1, .raise) := by
        have hwalk := forEach_moveResource_rejected subtract_operation (-1) h
        simp only [debitResources, ht]
        rw [debitResource, seq_of_ne (by rw [hwalk]; exact Ending.noConfusion), hwalk]
      have hnot : ¬∀ r ∈ rs, ¬slave.Rejects r := by push Not; exact h
      simp only [Slave.DebitsWhole, hdebit, reduceCtorEq, false_and, false_or, Prod.mk.injEq,
        and_true, hnot, h, false_imp_iff, true_and, true_imp_iff]
      exact forEach_debitResource_eq_iff hpre
    · have hall : ∀ r ∈ rs, ¬slave.Rejects r := by push Not at h; exact h
      have hraise : debitResources t slave ≠ (slave, .raise) := by
        rw [debitResources_accepted ht hall]
        exact fun heq => Ending.noConfusion (congrArg Prod.snd heq)
      rw [Slave.DebitsWhole, or_iff_left hraise, ← debit_credit_ports_iff ht hall]
      constructor
      · exact fun hwhole => ⟨fun _ => hwhole.2.2.ports, fun hrej => absurd hrej h⟩
      · intro hkeep
        refine ⟨debitResources_completes ht hall, creditResources_completes ht hall, ?_⟩
        exact ⟨debit_credit_amount ht hall, hkeep.1 hall, debit_credit_taskCount ht hall⟩

def tenPorts : Slave :=
  { hostname := "host", channel := "channel", cpus := 4, mem := 8, disk := 8, gpus := none
    ports := [(1, 10)], customResources := ∅ }

def gpuTask : TaskInfo :=
  { taskId := "gpu"
    resources := some [⟨"cpus", .scalar, some 1, none⟩, ⟨"gpus", .scalar, some 1, none⟩] }

def portTask : TaskInfo :=
  { taskId := "port"
    resources := some [⟨"ports", .ranges, none, some [⟨.int 5, .int 5⟩]⟩] }

theorem debit_halfway :
    (debitResources gpuTask tenPorts).2 = .raise ∧
      (debitResources gpuTask tenPorts).1.cpus ≠ tenPorts.cpus ∧
      (debitResources portTask tenPorts).2 = .next ∧
      (creditResources portTask (debitResources portTask tenPorts).1).1.ports = [(5, 5), (10, 10)] := by
  decide +kernel

end Urb
