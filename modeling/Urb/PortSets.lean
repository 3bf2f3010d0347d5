/-
# `Urb.PortSets` — the port arithmetic on single ports

`to_choppy_range_tuple` makes a single port of every range, so that the sets
the port operations work on are lists of single ports in ascending order.

    subtract ports l    the ports of `ports` that `l` does not name
    add ports l         the ports of either

**Proved here.**  For a list of ports that are apart both operations succeed, the result
is as above, and its ports are apart again (`PortRangeUtility.subtract_apart`,
`PortRangeUtility.add_apart`).
-/
import Urb.RangeCuts

namespace Urb

open List IntervalSet

open RangeTuple ChoppyRange

variable {l : List PortRange} {ports : List (ℤ × ℤ)}

/-! ## Single ports -/

def single (n : ℤ) : RangeTuple := ⟨n, n, 1⟩

lemma single_injective : Function.Injective single := fun _ _ h => congrArg RangeTuple.start h

lemma onGrid_single (n : ℤ) : OnGrid 1 0 (single n) := ⟨rfl, le_rfl, one_dvd _⟩

lemma last_single (n : ℤ) : (single n).last = n := by simp [last, single]

lemma overlaps_single {m n : ℤ} : (single m).Overlaps (single n) ↔ m = n := by
  show n ≤ m ∧ m ≤ n ↔ _
  omega

lemma mem_cut_single {m n : ℤ} {t : RangeTuple} :
    t ∈ (single m).cut (single n) ↔ t = single m ∧ m ≠ n := by
  have hfix : (single m).fix = single m := by rw [fix, last_single]; rfl
  rw [cut, last_single, last_single, hfix]
  show t ∈ (if m < n ∨ n < m then _ else if m < n then _ else if n < m then _ else _) ↔ _
  split_ifs <;> simp <;> omega

/-! ## Sets of ports -/

structure IsPorts (cr : ChoppyRange) (ns : List ℤ) : Prop where
  items : cr.items = ns.map single
  sorted : ns.Pairwise (· < ·)
  step : cr.step.getD 0 = 0 ∨ cr.step.getD 0 = 1

namespace IsPorts

variable {cr : ChoppyRange} {ns : List ℤ} {n : ℤ}

lemma empty : IsPorts {} [] := ⟨rfl, .nil, .inl rfl⟩

lemma exists_of_mem (h : IsPorts cr ns) {x : RangeTuple} (hx : x ∈ cr.items) :
    ∃ m ∈ ns, x = single m := by
  rw [h.items] at hx
  obtain ⟨m, hm, rfl⟩ := mem_map.mp hx
  exact ⟨m, hm, rfl⟩

lemma mem_items (h : IsPorts cr ns) : single n ∈ cr.items ↔ n ∈ ns := by
  rw [h.items, mem_map_of_injective single_injective]

lemma proper (h : IsPorts cr ns) : Proper 1 0 cr := by
  have hgrid : ∀ x ∈ cr.items, OnGrid 1 0 x := fun x hx => by
    obtain ⟨m, -, rfl⟩ := h.exists_of_mem hx
    exact onGrid_single m
  refine .of_valid h.step hgrid (valid_of_before (fun x hx => (hgrid x hx).nonempty) ?_)
  rw [h.items]
  exact pairwise_map.mpr h.sorted

lemma of_proper (h : Proper 1 0 cr) (hs : ∀ x ∈ cr.items, ∃ m, x = single m) :
    IsPorts cr (cr.items.map (·.start)) := by
  refine ⟨?_, ?_, h.step⟩
  · rw [map_map]
    conv_lhs => rw [← map_id cr.items]
    refine map_congr_left fun x hx => ?_
    obtain ⟨m, rfl⟩ := hs x hx
    rfl
  · refine pairwise_map.mpr (h.valid.before.imp_of_mem fun hx _ hxy => ?_)
    exact (h.grid _ hx).nonempty.trans_lt hxy

lemma overlaps_iff (h : IsPorts cr ns) : (∃ x ∈ cr.items, (single n).Overlaps x) ↔ n ∈ ns := by
  constructor
  · rintro ⟨x, hx, ho⟩
    obtain ⟨m, hm, rfl⟩ := h.exists_of_mem hx
    exact overlaps_single.mp ho ▸ hm
  · exact fun hn => ⟨single n, h.mem_items.mpr hn, overlaps_single.mpr rfl⟩

lemma insert_error (h : IsPorts cr ns) (hi : cr.ignoreOverlaps = false) (hn : n ∈ ns) :
    cr.insert (single n) = .error .overlap := by
  have hadd := (add_error_iff h.proper.valid).mpr (h.overlaps_iff.mpr hn)
  rw [insert_eq h.step, hadd, hi]
  rfl

lemma insert (h : IsPorts cr ns) (hn : cr.ignoreOverlaps ∨ n ∉ ns) :
    ∃ cr' ns', cr.insert (single n) = .ok cr' ∧ IsPorts cr' ns' ∧
      cr'.ignoreOverlaps = cr.ignoreOverlaps ∧ ∀ m, m ∈ ns' ↔ m ∈ ns ∨ m = n := by
  by_cases hmem : n ∈ ns
  · have hadd := (add_error_iff h.proper.valid).mpr (h.overlaps_iff.mpr hmem)
    refine ⟨{ cr with step := some 1 }, ns, ?_, ⟨h.items, h.sorted, .inr rfl⟩, rfl, fun m =>
      ⟨.inl, fun hm => hm.elim id (· ▸ hmem)⟩⟩
    rw [insert_eq h.step, hadd, hn.resolve_right fun hnot => hnot hmem]
    rfl
  · have hapart : ∀ x ∈ cr.items, ¬(single n).Overlaps x := fun x hx ho =>
      hmem (h.overlaps_iff.mp ⟨x, hx, ho⟩)
    obtain ⟨items, hadd⟩ := add_of_apart hapart
    have hok : cr.insert (single n) = .ok { cr with items := items, step := some 1 } := by
      rw [insert_eq h.step, hadd]
      rfl
    have his : IsPorts { cr with items := items, step := some 1 } _ :=
      .of_proper (h.proper.insert_ok (onGrid_single n) hok) fun x hx => by
        rcases (mem_add_iff hadd x).mp hx with hx | rfl
        · obtain ⟨m, -, rfl⟩ := h.exists_of_mem hx
          exact ⟨m, rfl⟩
        · exact ⟨n, rfl⟩
    refine ⟨_, _, hok, his, rfl, fun m => ?_⟩
    rw [← his.mem_items, mem_add_iff hadd, h.mem_items, single_injective.eq_iff]

lemma remove (h : IsPorts cr ns) (n : ℤ) :
    ∃ cr' ns', cr.remove (single n) = .ok cr' ∧ IsPorts cr' ns' ∧ ∀ m, m ∈ ns' ↔ m ∈ ns ∧ m ≠ n := by
  have hragged : ∀ x ∈ cr.items, ¬x.Ragged (single n) := fun x hx hr => by
    obtain ⟨m, -, rfl⟩ := h.exists_of_mem hx
    exact absurd hr.2.2.2 (by rw [last_single]; exact lt_irrefl m)
  obtain ⟨cr', hok, hp, hmem⟩ := subtractOne_spec one_pos h.proper (onGrid_single n) hragged
  have hmem : ∀ y, y ∈ cr'.items ↔ y ∈ cr.items ∧ y ≠ single n := by
    intro y
    rw [hmem]
    constructor
    · rintro (⟨hy, hfar⟩ | ⟨x, hx, hy⟩)
      · refine ⟨hy, ?_⟩
        rintro rfl
        exact hfar (h.proper.near_of_holds_start hy (onGrid_single n).holds_start)
      · have hx := h.proper.near_subset hx
        obtain ⟨m, -, rfl⟩ := h.exists_of_mem hx
        obtain ⟨rfl, hne⟩ := mem_cut_single.mp hy
        exact ⟨hx, fun he => hne (single_injective he)⟩
    · rintro ⟨hy, hne⟩
      obtain ⟨m, -, rfl⟩ := h.exists_of_mem hy
      by_cases hnear : single m ∈ near cr.items (single n)
      · exact .inr ⟨single m, hnear, mem_cut_single.mpr ⟨rfl, fun he => hne (he ▸ rfl)⟩⟩
      · exact .inl ⟨hy, hnear⟩
  have his := of_proper hp fun x hx => by
    obtain ⟨m, -, rfl⟩ := h.exists_of_mem ((hmem x).mp hx).1
    exact ⟨m, rfl⟩
  refine ⟨cr', _, ?_, his, fun m => ?_⟩
  · show (subtractOne cr (single n) >>= pure) = _
    rw [bind_pure, hok]
  · rw [← his.mem_items, hmem, h.mem_items, single_injective.ne_iff]

end IsPorts

/-! ## The port operations -/

namespace PortRangeUtility

def portOf (r : PortRange) : ℤ := (toChoppyRangeTuple r).stop

lemma toChoppyRangeTuple_eq (r : PortRange) : toChoppyRangeTuple r = single (portOf r) := rfl

def Apart (ports : List (ℤ × ℤ)) : Prop := (ports.map (·.2)).Nodup

instance (ports : List (ℤ × ℤ)) : Decidable (Apart ports) :=
  inferInstanceAs (Decidable (List.Nodup _))

lemma insertAll : ∀ {cr : ChoppyRange} {ns : List ℤ}, IsPorts cr ns →
    cr.ignoreOverlaps ∨ ((l.map portOf).Nodup ∧ ∀ n ∈ l.map portOf, n ∉ ns) →
    ∃ cr' ns', l.foldlM (fun cr r => cr.insert (toChoppyRangeTuple r)) cr = .ok cr' ∧
      IsPorts cr' ns' ∧ ∀ m, m ∈ ns' ↔ m ∈ ns ∨ m ∈ l.map portOf := by
  induction l with
  | nil => exact fun h _ => ⟨_, _, rfl, h, fun m => by simp⟩
  | cons r l ih =>
    intro cr ns h hnew
    have hone : cr.ignoreOverlaps ∨ portOf r ∉ ns :=
      hnew.imp_right fun hnew => hnew.2 (portOf r) mem_cons_self
    obtain ⟨cr₁, ns₁, hcr₁, h₁, hi₁, hmem₁⟩ := h.insert hone
    have hrest : cr₁.ignoreOverlaps ∨ ((l.map portOf).Nodup ∧ ∀ n ∈ l.map portOf, n ∉ ns₁) := by
      refine hnew.imp hi₁.trans fun hnew => ?_
      obtain ⟨hr, hl⟩ := nodup_cons.mp hnew.1
      refine ⟨hl, fun n hn hns => ?_⟩
      rcases (hmem₁ n).mp hns with hns | rfl
      · exact hnew.2 n (mem_cons_of_mem _ hn) hns
      · exact hr hn
    obtain ⟨cr', ns', hcr', h', hmem'⟩ := ih h₁ hrest
    refine ⟨cr', ns', ?_, h', fun m => ?_⟩
    · rw [foldlM_cons, toChoppyRangeTuple_eq, hcr₁]
      exact hcr'
    · rw [hmem', hmem₁, map_cons, mem_cons, or_assoc]

lemma toChoppyRange_nodup (h : (l.map portOf).Nodup) :
    ∃ cr ns, toChoppyRange l = .ok cr ∧ IsPorts cr ns ∧ ∀ m, m ∈ ns ↔ m ∈ l.map portOf := by
  obtain ⟨cr, ns, hcr, his, hmem⟩ := insertAll .empty (.inr ⟨h, fun _ _ => not_mem_nil⟩)
  refine ⟨cr, ns, hcr, his, fun m => ?_⟩
  rw [hmem]
  simp

lemma insertAll_error : ∀ {cr : ChoppyRange} {ns : List ℤ}, IsPorts cr ns →
    cr.ignoreOverlaps = false → ¬((l.map portOf).Nodup ∧ ∀ n ∈ l.map portOf, n ∉ ns) →
    l.foldlM (fun cr r => cr.insert (toChoppyRangeTuple r)) cr = .error .overlap := by
  induction l with
  | nil => exact fun _ _ h => absurd ⟨nodup_nil, fun _ hn => absurd hn not_mem_nil⟩ h
  | cons r l ih =>
    intro cr ns h hi hdup
    by_cases hr : portOf r ∈ ns
    · rw [foldlM_cons, toChoppyRangeTuple_eq, h.insert_error hi hr]
      rfl
    · obtain ⟨cr₁, ns₁, hcr₁, h₁, hi₁, hmem₁⟩ := h.insert (.inr hr)
      rw [foldlM_cons, toChoppyRangeTuple_eq, hcr₁]
      refine ih h₁ (hi₁.trans hi) fun hrest => hdup ⟨?_, fun n hn => ?_⟩
      · refine nodup_cons.mpr ⟨fun hmem => ?_, hrest.1⟩
        exact hrest.2 _ hmem ((hmem₁ _).mpr (.inr rfl))
      · rcases mem_cons.mp hn with rfl | hn
        · exact hr
        · exact fun hns => hrest.2 n hn ((hmem₁ n).mpr (.inl hns))

lemma toChoppyRange_error (h : ¬(l.map portOf).Nodup) : toChoppyRange l = .error .overlap :=
  insertAll_error .empty rfl fun hnew => h hnew.1

lemma removeAll : ∀ {cr : ChoppyRange} {ns : List ℤ}, IsPorts cr ns →
    ∃ cr' ns', l.foldlM (fun cr r => cr.remove (toChoppyRangeTuple r)) cr = .ok cr' ∧
      IsPorts cr' ns' ∧ ∀ m, m ∈ ns' ↔ m ∈ ns ∧ m ∉ l.map portOf := by
  induction l with
  | nil => exact fun h => ⟨_, _, rfl, h, fun m => by simp⟩
  | cons r l ih =>
    intro cr ns h
    obtain ⟨cr₁, ns₁, hcr₁, h₁, hmem₁⟩ := h.remove (portOf r)
    obtain ⟨cr', ns', hcr', h', hmem'⟩ := ih h₁
    refine ⟨cr', ns', ?_, h', fun m => ?_⟩
    · rw [foldlM_cons, toChoppyRangeTuple_eq, hcr₁]
      exact hcr'
    · rw [hmem', hmem₁, map_cons, mem_cons, not_or, and_assoc]

def singlePort (n : ℤ) : PortRange := ⟨.int n, .int n⟩

/-! ## Reading a list, and changing it -/

lemma map_portOf_tupleToPortRangeList (ports : List (ℤ × ℤ)) :
    (tupleToPortRangeList ports).map portOf = ports.map (·.2) := by
  rw [tupleToPortRangeList, map_map]
  rfl

section Operation

variable {f : ChoppyRange → Except RangeError ChoppyRange} {Q : Prop → ℤ → Prop}
  (hf : ∀ {cr ns}, IsPorts cr ns → ∃ cr' ns', f cr = .ok cr' ∧ IsPorts cr' ns' ∧
    ∀ m, m ∈ ns' ↔ Q (m ∈ ns) m)
include hf

lemma operation_nodup (h : (l.map portOf).Nodup) :
    ∃ cr ns, toChoppyRange l >>= f = .ok cr ∧ IsPorts cr ns ∧ ∀ m, m ∈ ns ↔ Q (m ∈ l.map portOf) m := by
  obtain ⟨cr, ns, hcr, his, hmem⟩ := toChoppyRange_nodup h
  obtain ⟨cr', ns', hcr', his', hmem'⟩ := hf his
  refine ⟨cr', ns', ?_, his', fun m => by rw [hmem', hmem]⟩
  rw [hcr]
  exact hcr'

lemma operation_ranges (h : (l.map portOf).Nodup) :
    ∃ ns : List ℤ, (toChoppyRange l >>= fun cr => f cr >>= fun cr => pure (toPortRangeList cr)) =
        .ok (ns.map singlePort) ∧ ns.Pairwise (· < ·) ∧ ∀ m, m ∈ ns ↔ Q (m ∈ l.map portOf) m := by
  obtain ⟨cr, ns, hok, his, hmem⟩ := operation_nodup hf h
  refine ⟨ns, ?_, his.sorted, hmem⟩
  rw [← bind_assoc, hok]
  refine congrArg Except.ok ?_
  rw [toPortRangeList, his.items, map_map]
  rfl

lemma operation_pairs (h : Apart ports) :
    ∃ ns : List ℤ, (toChoppyRange (tupleToPortRangeList ports) >>= fun cr => f cr >>= fun cr =>
        pure (toTupleList cr)) = .ok (ns.map (fun n => (n, n))) ∧
      ns.Pairwise (· < ·) ∧ ∀ m, m ∈ ns ↔ Q (m ∈ ports.map (·.2)) m := by
  have hports := map_portOf_tupleToPortRangeList ports
  obtain ⟨cr, ns, hok, his, hmem⟩ := operation_nodup hf (l := tupleToPortRangeList ports) (hports ▸ h)
  refine ⟨ns, ?_, his.sorted, fun m => by rw [hmem, hports]⟩
  rw [← bind_assoc, hok]
  refine congrArg Except.ok ?_
  rw [toTupleList, his.items, map_map]
  rfl

end Operation

lemma addAll (l : List PortRange) {cr : ChoppyRange} {ns : List ℤ} (h : IsPorts cr ns) :
    ∃ cr' ns', l.foldlM (fun cr r => cr.insert (toChoppyRangeTuple r))
        { cr with ignoreOverlaps := true } = .ok cr' ∧
      IsPorts cr' ns' ∧ ∀ m, m ∈ ns' ↔ m ∈ ns ∨ m ∈ l.map portOf :=
  insertAll (show IsPorts { cr with ignoreOverlaps := true } ns from ⟨h.items, h.sorted, h.step⟩)
    (.inl rfl)

lemma subtractRanges_nodup {l₁ : List PortRange} (h : (l₁.map portOf).Nodup) (l₂ : List PortRange) :
    ∃ ns : List ℤ, subtractRanges l₁ l₂ = .ok (ns.map singlePort) ∧ ns.Pairwise (· < ·) ∧
      ∀ m, m ∈ ns ↔ m ∈ l₁.map portOf ∧ m ∉ l₂.map portOf :=
  operation_ranges (Q := fun p m => p ∧ m ∉ l₂.map portOf) (removeAll (l := l₂)) h

lemma addRanges_nodup {l₁ : List PortRange} (h : (l₁.map portOf).Nodup) (l₂ : List PortRange) :
    ∃ ns : List ℤ, addRanges l₁ l₂ = .ok (ns.map singlePort) ∧ ns.Pairwise (· < ·) ∧
      ∀ m, m ∈ ns ↔ m ∈ l₁.map portOf ∨ m ∈ l₂.map portOf :=
  operation_ranges (Q := fun p m => p ∨ m ∈ l₂.map portOf) (addAll l₂) h

lemma subtract_single (h : Apart ports) (l : List PortRange) :
    ∃ ns : List ℤ, subtract ports l = .ok (ns.map (fun n => (n, n))) ∧ ns.Pairwise (· < ·) ∧
      ∀ m, m ∈ ns ↔ m ∈ ports.map (·.2) ∧ m ∉ l.map portOf :=
  operation_pairs (Q := fun p m => p ∧ m ∉ l.map portOf) (removeAll (l := l)) h

lemma add_single (h : Apart ports) (l : List PortRange) :
    ∃ ns : List ℤ, add ports l = .ok (ns.map (fun n => (n, n))) ∧ ns.Pairwise (· < ·) ∧
      ∀ m, m ∈ ns ↔ m ∈ ports.map (·.2) ∨ m ∈ l.map portOf :=
  operation_pairs (Q := fun p m => p ∨ m ∈ l.map portOf) (addAll l) h

lemma apart_single {ns : List ℤ} (h : ns.Pairwise (· < ·)) :
    Apart (ns.map (fun n => (n, n))) ∧ ∀ m, m ∈ (ns.map (fun n => (n, n))).map (·.2) ↔ m ∈ ns := by
  have hends : (ns.map (fun n => (n, n))).map (·.2) = ns := by
    rw [map_map]
    exact map_id' ns
  rw [Apart, hends]
  exact ⟨h.imp fun hlt => hlt.ne, fun m => .rfl⟩

lemma subtract_error (h : ¬Apart ports) (l : List PortRange) : subtract ports l = .error .overlap := by
  rw [Apart, ← map_portOf_tupleToPortRangeList] at h
  rw [subtract, toChoppyRange_error h]
  rfl

lemma add_error (h : ¬Apart ports) (l : List PortRange) : add ports l = .error .overlap := by
  rw [Apart, ← map_portOf_tupleToPortRangeList] at h
  rw [add, toChoppyRange_error h]
  rfl

lemma subtract_apart (h : Apart ports) (l : List PortRange) :
    ∃ ports', subtract ports l = .ok ports' ∧ Apart ports' ∧
      ∀ m, m ∈ ports'.map (·.2) ↔ m ∈ ports.map (·.2) ∧ m ∉ l.map portOf := by
  obtain ⟨ns, hok, hsorted, hmem⟩ := subtract_single h l
  obtain ⟨hapart, hends⟩ := apart_single hsorted
  exact ⟨_, hok, hapart, fun m => (hends m).trans (hmem m)⟩

lemma add_apart (h : Apart ports) (l : List PortRange) :
    ∃ ports', add ports l = .ok ports' ∧ Apart ports' ∧
      ∀ m, m ∈ ports'.map (·.2) ↔ m ∈ ports.map (·.2) ∨ m ∈ l.map portOf := by
  obtain ⟨ns, hok, hsorted, hmem⟩ := add_single h l
  obtain ⟨hapart, hends⟩ := apart_single hsorted
  exact ⟨_, hok, hapart, fun m => (hends m).trans (hmem m)⟩

end PortRangeUtility

end Urb
