/-
# `Urb.PortArithmetic` — ranges, and the ports they stand for

A range holds the ports from its `begin` to its `end`; the port operations see
one port of it, its `end` where that is a number and its `begin` where the
`end` is a text (`PortRange.seen`).

**Proved here.**  On lists of disjoint ranges the two operations are the
difference and the union of the ports exactly when every range of the second
list is one port and the second list holds every port of the first that is not
seen (`PortRangeUtility.port_arithmetic_iff`).
-/
import Urb.PortSets

namespace Urb

open List

namespace PortRange

def Holds (r : PortRange) (p : ℤ) : Prop := r.begin.value ≤ p ∧ p ≤ r.stop.value

instance (r : PortRange) (p : ℤ) : Decidable (r.Holds p) := inferInstanceAs (Decidable (_ ∧ _))

def seen (r : PortRange) : ℤ :=
  match r.stop with
  | .int e => e
  | .text _ => r.begin.value

def Before (r r' : PortRange) : Prop := r.stop.value < r'.begin.value

def Disjoint (r r' : PortRange) : Prop := ∀ p, r.Holds p → ¬r'.Holds p

instance : Std.Symm Disjoint := ⟨fun _ _ h p hr' hr => h p hr hr'⟩

lemma Before.disjoint {r r' : PortRange} (h : r.Before r') : r.Disjoint r' :=
  fun _ hr hr' => absurd (hr'.1.trans hr.2) (not_le.mpr h)

end PortRange

namespace PortRangeUtility

structure WellFormed (l : List PortRange) : Prop where
  begin_le : ∀ r ∈ l, r.begin.value ≤ r.stop.value
  disjoint : l.Pairwise PortRange.Disjoint

def Denotes (l : List PortRange) (p : ℤ) : Prop := ∃ r ∈ l, r.Holds p

instance (l : List PortRange) (p : ℤ) : Decidable (Denotes l p) :=
  inferInstanceAs (Decidable (∃ r ∈ l, r.Holds p))

def Yields (result : Except RangeError (List PortRange)) (ports : ℤ → Prop) : Prop :=
  ∃ l, result = .ok l ∧ WellFormed l ∧ l.Pairwise PortRange.Before ∧ ∀ p, Denotes l p ↔ ports p

/-! ## The port that is seen -/

lemma portOf_eq_seen (r : PortRange) : portOf r = r.seen := by
  obtain ⟨b, e⟩ := r
  cases e with
  | int e => rfl
  | text e => cases b <;> rfl

lemma holds_portOf {r : PortRange} (h : r.begin.value ≤ r.stop.value) : r.Holds (portOf r) := by
  rw [portOf_eq_seen]
  obtain ⟨b, e⟩ := r
  cases e with
  | int e => exact ⟨h, le_rfl⟩
  | text e => exact ⟨le_rfl, h⟩

lemma WellFormed.eq_of_holds {l : List PortRange} (h : WellFormed l) {r r' : PortRange} {p : ℤ}
    (hr : r ∈ l) (hr' : r' ∈ l) (hp : r.Holds p) (hp' : r'.Holds p) : r = r' := by
  by_contra hne
  exact h.disjoint.forall hr hr' hne p hp hp'

lemma WellFormed.nodup {l : List PortRange} (h : WellFormed l) : (l.map portOf).Nodup := by
  refine pairwise_map.mpr (h.disjoint.imp_of_mem fun {r r'} hr hr' hdisj heq => ?_)
  refine hdisj (portOf r) (holds_portOf (h.begin_le r hr)) ?_
  rw [heq]
  exact holds_portOf (h.begin_le r' hr')

lemma WellFormed.denotes_of_seen {l : List PortRange} (h : WellFormed l) {p : ℤ}
    (hp : p ∈ l.map portOf) : Denotes l p := by
  obtain ⟨r, hr, rfl⟩ := mem_map.mp hp
  exact ⟨r, hr, holds_portOf (h.begin_le r hr)⟩

lemma WellFormed.seen_iff {l : List PortRange} (h : WellFormed l) {r : PortRange} {p : ℤ}
    (hr : r ∈ l) (hp : r.Holds p) : p ∈ l.map portOf ↔ p = portOf r := by
  refine ⟨fun hmem => ?_, fun heq => mem_map.mpr ⟨r, hr, heq.symm⟩⟩
  obtain ⟨r', hr', rfl⟩ := mem_map.mp hmem
  rw [h.eq_of_holds hr hr' hp (holds_portOf (h.begin_le r' hr'))]

lemma WellFormed.singleton {r : PortRange} (h : r.begin.value ≤ r.stop.value) : WellFormed [r] where
  begin_le r' hr' := by
    obtain rfl := mem_singleton.mp hr'
    exact h
  disjoint := pairwise_singleton _ _

/-! ## The results -/

lemma holds_singlePort (n p : ℤ) : (singlePort n).Holds p ↔ p = n :=
  ⟨fun h => le_antisymm h.2 h.1, fun h => ⟨h.ge, h.le⟩⟩

lemma denotes_singlePorts (ns : List ℤ) (p : ℤ) : Denotes (ns.map singlePort) p ↔ p ∈ ns := by
  simp only [Denotes, mem_map, exists_exists_and_eq_and, holds_singlePort, exists_eq_right']

lemma before_singlePorts {ns : List ℤ} (h : ns.Pairwise (· < ·)) :
    (ns.map singlePort).Pairwise PortRange.Before := pairwise_map.mpr h

lemma wellFormed_singlePorts {ns : List ℤ} (h : ns.Pairwise (· < ·)) :
    WellFormed (ns.map singlePort) where
  begin_le r hr := by
    obtain ⟨n, _, rfl⟩ := mem_map.mp hr
    exact le_rfl
  disjoint := (before_singlePorts h).imp PortRange.Before.disjoint

lemma yields_singlePorts {result : Except RangeError (List PortRange)} {ns : List ℤ}
    (hok : result = .ok (ns.map singlePort)) (h : ns.Pairwise (· < ·)) (ports : ℤ → Prop) :
    Yields result ports ↔ ∀ p, p ∈ ns ↔ ports p := by
  constructor
  · rintro ⟨l, hl, _, _, hports⟩ p
    cases hok.symm.trans hl
    rw [← denotes_singlePorts, hports]
  · intro hports
    refine ⟨_, hok, wellFormed_singlePorts h, before_singlePorts h, fun p => ?_⟩
    rw [denotes_singlePorts, hports]

section Operations

variable {A : List PortRange} (hA : WellFormed A) (B : List PortRange)
include hA

lemma yields_subtract (ports : ℤ → Prop) :
    Yields (subtractRanges A B) ports ↔ ∀ p, (p ∈ A.map portOf ∧ p ∉ B.map portOf) ↔ ports p := by
  obtain ⟨ns, hok, hsorted, hmem⟩ := subtractRanges_nodup hA.nodup B
  rw [yields_singlePorts hok hsorted]
  simp only [hmem]

lemma yields_add (ports : ℤ → Prop) :
    Yields (addRanges A B) ports ↔ ∀ p, (p ∈ A.map portOf ∨ p ∈ B.map portOf) ↔ ports p := by
  obtain ⟨ns, hok, hsorted, hmem⟩ := addRanges_nodup hA.nodup B
  rw [yields_singlePorts hok hsorted]
  simp only [hmem]

end Operations

/-! ## When the two operations are right -/

lemma seen_of_one {B : List PortRange} (hone : ∀ r ∈ B, r.begin.value = r.stop.value)
    (hB : WellFormed B) (p : ℤ) : p ∈ B.map portOf ↔ Denotes B p := by
  refine ⟨hB.denotes_of_seen, ?_⟩
  rintro ⟨r, hr, hp⟩
  have hseen := holds_portOf (hB.begin_le r hr)
  have hends := hone r hr
  rw [hB.seen_iff hr hp]
  exact le_antisymm (hp.2.trans (hends ▸ hseen.1)) (hseen.2.trans (hends ▸ hp.1))

lemma one_of_yields {A B : List PortRange} (hA : WellFormed A) (hB : WellFormed B)
    (hsub : Yields (subtractRanges A B) fun p => Denotes A p ∧ ¬Denotes B p)
    (hadd : Yields (addRanges A B) fun p => Denotes A p ∨ Denotes B p) :
    ∀ r ∈ B, r.begin.value = r.stop.value := by
  rw [yields_subtract hA] at hsub
  rw [yields_add hA] at hadd
  have hseen : ∀ r ∈ B, ∀ p, r.Holds p → p = portOf r := by
    intro r hr p hp
    have hin : Denotes B p := ⟨r, hr, hp⟩
    rw [← hB.seen_iff hr hp]
    rcases (hadd p).mpr (.inr hin) with hpA | hpB
    · by_contra hpB
      exact ((hsub p).mp ⟨hpA, hpB⟩).2 hin
    · exact hpB
  intro r hr
  have hle := hB.begin_le r hr
  exact (hseen r hr _ ⟨le_rfl, hle⟩).trans (hseen r hr _ ⟨hle, le_rfl⟩).symm

theorem port_arithmetic_iff (A B : List PortRange) (hA : WellFormed A) (hB : WellFormed B) :
    (Yields (subtractRanges A B) (fun p => Denotes A p ∧ ¬Denotes B p) ∧
      Yields (addRanges A B) (fun p => Denotes A p ∨ Denotes B p)) ↔
      (∀ r ∈ B, r.begin.value = r.stop.value) ∧
        ∀ r ∈ A, ∀ p, r.Holds p → p ≠ r.seen → Denotes B p := by
  simp only [← portOf_eq_seen]
  constructor
  · rintro ⟨hsub, hadd⟩
    have hone := one_of_yields hA hB hsub hadd
    refine ⟨hone, fun r hr p hp hne => ?_⟩
    rw [yields_add hA] at hadd
    rcases (hadd p).mpr (Or.inl ⟨r, hr, hp⟩) with hpA | hpB
    · exact absurd ((hA.seen_iff hr hp).mp hpA) hne
    · exact hB.denotes_of_seen hpB
  · rintro ⟨hone, hrest⟩
    -- a port of the first list is seen, or is a port of the second
    have hA' : ∀ p, Denotes A p → p ∈ A.map portOf ∨ Denotes B p := by
      rintro p ⟨r, hr, hp⟩
      by_cases heq : p = portOf r
      · exact Or.inl ((hA.seen_iff hr hp).mpr heq)
      · exact Or.inr (hrest r hr p hp heq)
    rw [yields_subtract hA, yields_add hA]
    simp only [seen_of_one hone hB]
    refine ⟨fun p => ⟨fun h => ⟨hA.denotes_of_seen h.1, h.2⟩, fun h => ⟨?_, h.2⟩⟩,
      fun p => ⟨fun h => h.imp_left hA.denotes_of_seen, fun h => ?_⟩⟩
    · exact (hA' p h.1).resolve_right h.2
    · exact h.elim (hA' p) Or.inr

theorem port_arithmetic_one_two :
    Yields (subtractRanges [⟨.int 1, .int 2⟩] [⟨.text 1, .text 1⟩])
        (fun p => Denotes [⟨.int 1, .int 2⟩] p ∧ ¬Denotes [⟨.text 1, .text 1⟩] p) ∧
      Yields (addRanges [⟨.int 1, .int 2⟩] [⟨.text 1, .text 1⟩])
        (fun p => Denotes [⟨.int 1, .int 2⟩] p ∨ Denotes [⟨.text 1, .text 1⟩] p) := by
  refine (port_arithmetic_iff _ _ (.singleton (by decide)) (.singleton (by decide))).mpr
    ⟨by decide, fun r hr p hp hne => ?_⟩
  obtain rfl := List.mem_singleton.mp hr
  have hp₁ : (1 : ℤ) ≤ p := hp.1
  have hp₂ : p ≤ 2 := hp.2
  have hseen : p ≠ 2 := hne
  obtain rfl : p = 1 := by omega
  decide

theorem port_arithmetic_range :
    WellFormed [⟨.int 10, .int 20⟩] ∧ WellFormed [⟨.int 15, .int 18⟩] ∧
      subtractRanges [⟨.int 10, .int 20⟩] [⟨.int 15, .int 18⟩] = .ok [⟨.int 20, .int 20⟩] ∧
      addRanges [⟨.int 10, .int 20⟩] [⟨.int 15, .int 18⟩] =
        .ok [⟨.int 18, .int 18⟩, ⟨.int 20, .int 20⟩] ∧
      Denotes [⟨.int 10, .int 20⟩] 12 ∧ ¬Denotes [⟨.int 15, .int 18⟩] 12 ∧
      ¬Denotes [⟨.int 20, .int 20⟩] 12 ∧ ¬Denotes [⟨.int 18, .int 18⟩, ⟨.int 20, .int 20⟩] 12 :=
  ⟨.singleton (by decide), .singleton (by decide), by rfl, by rfl, by decide, by decide, by decide,
    by decide⟩

end PortRangeUtility

end Urb
