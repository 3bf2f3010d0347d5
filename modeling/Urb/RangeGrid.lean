/-
# `Urb.RangeGrid` — tuples with one step and congruent starts

The operations on ranges are for tuples with the same step `d` and starts that are congruent
modulo `d`, to `r` say.  Such a tuple holds the points of the grid `r, r ± d, r ± 2d, …` from
its start to its stop, whether or not the stop is one of them; `last` is the last point.  On
the grid, two intervals overlap exactly if they share a value, and "after `a`" is "from `a + d`
on"; the rest is linear arithmetic.

A `ChoppyRange` is `Proper` if its elements are on one grid, not empty, in order and disjoint.
What is apart from its elements can be inserted.  A tuple shares no value with an element other
than its two neighbours exactly if at most one element begins within it (`Proper.reached_iff`).
-/
import Mathlib.Algebra.Ring.Divisibility.Basic
import Mathlib.Algebra.Ring.Int.Defs
import Mathlib.Data.List.Pairwise
import Urb.RangeSets

namespace Urb

open List IntervalSet Int

namespace RangeTuple

/-! ## The values of a tuple -/

def Holds (t : RangeTuple) (v : ℤ) : Prop := t.start ≤ v ∧ v ≤ t.stop ∧ t.step ∣ v - t.start

instance (t : RangeTuple) (v : ℤ) : Decidable (t.Holds v) := inferInstanceAs (Decidable (_ ∧ _))

def last (t : RangeTuple) : ℤ := t.start + (t.stop - t.start).fdiv t.step * t.step

def fix (t : RangeTuple) : RangeTuple := { t with stop := t.last }

lemma mem_yieldIndex {next stop step v : ℤ} (h : 0 < step) :
    v ∈ yieldIndex next stop step ↔ next ≤ v ∧ v ≤ stop ∧ step ∣ v - next := by
  fun_induction yieldIndex next stop step with
  | case1 next hn ih =>
    rw [mem_cons, ih, sub_add_eq_sub_sub, dvd_sub_self_right]
    constructor
    · rintro (rfl | ⟨hle, hstop, hdvd⟩)
      · exact ⟨le_rfl, hn.2, by simp⟩
      · exact ⟨by omega, hstop, hdvd⟩
    · rintro ⟨hle, hstop, hdvd⟩
      rcases hle.eq_or_lt with rfl | hlt
      · exact .inl rfl
      · have := le_of_dvd (by omega) hdvd
        exact .inr ⟨by omega, hstop, hdvd⟩
  | case2 next hn =>
    have hlt : ¬next ≤ stop := fun hle => hn ⟨h, hle⟩
    exact iff_of_false not_mem_nil fun hv => hlt (hv.1.trans hv.2.1)

lemma mem_values {t : RangeTuple} (h : 0 < t.step) {v : ℤ} : v ∈ t.values ↔ t.Holds v :=
  mem_yieldIndex h

lemma mem_values_of_step {ts : List RangeTuple} {d v : ℤ} (hd : 0 < d) (h : ∀ t ∈ ts, t.step = d) :
    v ∈ ts.flatMap values ↔ ∃ t ∈ ts, t.Holds v := by
  rw [mem_flatMap]
  exact exists_congr fun t => and_congr_right fun ht => mem_values (h t ht ▸ hd)

/-! ## Tuples on a grid -/

structure OnGrid (d r : ℤ) (t : RangeTuple) : Prop where
  step : t.step = d
  nonempty : t.start ≤ t.stop
  start : d ∣ t.start - r

variable {d r v : ℤ} {t x y e : RangeTuple}

lemma add_le_of_lt {a b : ℤ} (ha : d ∣ a - r) (hb : d ∣ b - r) (h : a < b) : a + d ≤ b := by
  have hdvd : d ∣ b - a := by
    have := dvd_sub hb ha
    rwa [sub_sub_sub_cancel_right] at this
  have := le_of_dvd (by omega) hdvd
  omega

lemma dvd_add_self {a : ℤ} (h : d ∣ a - r) : d ∣ a + d - r := by
  rw [add_sub_right_comm]
  exact dvd_add h dvd_rfl

lemma holds_iff_of_dvd (hstep : t.step = d) (hstart : d ∣ t.start - r) :
    t.Holds v ↔ d ∣ v - r ∧ t.start ≤ v ∧ v ≤ t.stop := by
  have hdvd : t.step ∣ v - t.start ↔ d ∣ v - r := by
    rw [hstep, ← sub_sub_sub_cancel_right v t.start r]
    exact dvd_sub_left hstart
  rw [Holds, hdvd]
  tauto

instance (d r : ℤ) (t : RangeTuple) : Decidable (OnGrid d r t) :=
  decidable_of_iff (t.step = d ∧ t.start ≤ t.stop ∧ d ∣ t.start - r)
    ⟨fun h => ⟨h.1, h.2.1, h.2.2⟩, fun h => ⟨h.step, h.nonempty, h.start⟩⟩

namespace OnGrid

lemma holds_iff (h : OnGrid d r t) : t.Holds v ↔ d ∣ v - r ∧ t.start ≤ v ∧ v ≤ t.stop :=
  holds_iff_of_dvd h.step h.start

lemma holds_start (h : OnGrid d r t) : t.Holds t.start := h.holds_iff.mpr ⟨h.start, le_rfl, h.nonempty⟩

lemma overlaps_iff (hx : OnGrid d r x) (hy : OnGrid d r y) :
    x.Overlaps y ↔ ∃ v, x.Holds v ∧ y.Holds v := by
  have hxn := hx.nonempty
  have hyn := hy.nonempty
  constructor
  · rintro ⟨hyx, hxy⟩
    rcases le_total x.start y.start with hle | hle
    · exact ⟨y.start, hx.holds_iff.mpr ⟨hy.start, hle, hyx⟩, hy.holds_start⟩
    · exact ⟨x.start, hx.holds_start, hy.holds_iff.mpr ⟨hx.start, hle, hxy⟩⟩
  · rintro ⟨v, hv, hv'⟩
    exact ⟨hv'.1.trans hv.2.1, hv.1.trans hv'.2.1⟩

variable (hd : 0 < d)
include hd

section

variable (h : OnGrid d r t)
include h

lemma last_spec : t.start ≤ t.last ∧ t.last ≤ t.stop ∧ t.stop < t.last + d ∧ d ∣ t.last - r := by
  have hne := h.nonempty
  have hmod := emod_add_mul_ediv (t.stop - t.start) d
  have hpos := emod_nonneg (t.stop - t.start) hd.ne'
  have hlt := emod_lt_of_pos (t.stop - t.start) hd
  have hdiv : 0 ≤ (t.stop - t.start) / d := ediv_nonneg (by omega) hd.le
  have hlast : t.last = t.start + d * ((t.stop - t.start) / d) := by
    rw [last, h.step, fdiv_eq_ediv_of_nonneg _ hd.le, mul_comm]
  have hmul : 0 ≤ d * ((t.stop - t.start) / d) := Int.mul_nonneg hd.le hdiv
  refine ⟨by omega, by omega, by omega, ?_⟩
  rw [hlast, add_sub_right_comm]
  exact dvd_add h.start (dvd_mul_right d _)

lemma le_last_iff (hv : d ∣ v - r) : v ≤ t.last ↔ v ≤ t.stop := by
  obtain ⟨-, hle, hlt, hl⟩ := h.last_spec hd
  refine ⟨fun hv' => hv'.trans hle, fun hv' => ?_⟩
  by_contra hgt
  have := add_le_of_lt hl hv (not_le.mp hgt)
  omega

lemma holds_iff_last : t.Holds v ↔ d ∣ v - r ∧ t.start ≤ v ∧ v ≤ t.last := by
  rw [h.holds_iff]
  exact and_congr_right fun hv => by rw [h.le_last_iff hd hv]

lemma fix : OnGrid d r t.fix := ⟨h.step, (h.last_spec hd).1, h.start⟩

lemma last_fix : t.fix.last = t.last := by
  obtain ⟨-, hle, -, hl⟩ := h.last_spec hd
  obtain ⟨-, hle', -, hl'⟩ := (h.fix hd).last_spec hd
  refine le_antisymm hle' ?_
  exact ((h.fix hd).le_last_iff hd hl).mpr le_rfl

lemma fix_fix : t.fix.fix = t.fix := by
  rw [RangeTuple.fix, h.last_fix hd]
  rfl

lemma holds_fix : t.fix.Holds v ↔ t.Holds v := by
  rw [h.holds_iff_last hd, (h.fix hd).holds_iff]
  rfl

end

lemma ckAndFix (hx : OnGrid d r x) (hy : OnGrid d r y) :
    RangeTuple.ckAndFix x y = .ok (x.fix, y.fix) := by
  have hstep : x.step = y.step := hx.step.trans hy.step.symm
  have hne : y.step ≠ 0 := hy.step ▸ hd.ne'
  simp only [RangeTuple.ckAndFix, fixIndices, hstep, hne, ne_eq, not_true_eq_false, if_false]
  simp only [RangeTuple.fix, last, hstep]
  rfl

end OnGrid

end RangeTuple

/-! ## Ranges on a grid -/

namespace ChoppyRange

open RangeTuple

structure Proper (d r : ℤ) (cr : ChoppyRange) : Prop where
  step : cr.step.getD 0 = 0 ∨ cr.step.getD 0 = d
  grid : ∀ x ∈ cr.items, OnGrid d r x
  sorted : cr.items.Pairwise (fun x y => x.le y = true)
  disjoint : cr.items.Pairwise (fun x y => ∀ v, x.Holds v → ¬y.Holds v)

variable {d r : ℤ} {cr : ChoppyRange} {t x e : RangeTuple}

namespace Proper

lemma valid (h : Proper d r cr) : IntervalSet.Valid cr.items where
  nonempty x hx := (h.grid x hx).nonempty
  sorted := h.sorted
  apart := h.disjoint.imp_of_mem fun hx hy hxy ho =>
    have ⟨v, hv, hv'⟩ := ((h.grid _ hx).overlaps_iff (h.grid _ hy)).mp ho
    hxy v hv hv'

lemma of_valid (hstep : cr.step.getD 0 = 0 ∨ cr.step.getD 0 = d) (hgrid : ∀ x ∈ cr.items, OnGrid d r x)
    (h : IntervalSet.Valid cr.items) : Proper d r cr where
  step := hstep
  grid := hgrid
  sorted := h.sorted
  disjoint := h.apart.imp_of_mem fun hx hy hxy v hv hv' =>
    hxy (((hgrid _ hx).overlaps_iff (hgrid _ hy)).mpr ⟨v, hv, hv'⟩)

instance (d r : ℤ) (cr : ChoppyRange) : Decidable (Proper d r cr) :=
  decidable_of_iff ((cr.step.getD 0 = 0 ∨ cr.step.getD 0 = d) ∧ (∀ x ∈ cr.items, OnGrid d r x) ∧
      cr.items.Pairwise (fun x y => x.stop < y.start))
    ⟨fun h => .of_valid h.1 h.2.1 (IntervalSet.valid_of_before (fun x hx => (h.2.1 x hx).nonempty) h.2.2),
      fun h => ⟨h.step, h.grid, h.valid.before⟩⟩

lemma mem_values (hd : 0 < d) (h : Proper d r cr) {v : ℤ} : v ∈ cr.values ↔ ∃ x ∈ cr.items, x.Holds v :=
  mem_values_of_step hd fun x hx => (h.grid x hx).step

lemma eq_of_holds (h : Proper d r cr) {x y : RangeTuple} (hx : x ∈ cr.items) (hy : y ∈ cr.items) {v : ℤ}
    (hv : x.Holds v) (hv' : y.Holds v) : x = y := by
  by_contra hne
  have : Std.Symm fun x y : RangeTuple => ∀ v, x.Holds v → ¬y.Holds v := ⟨fun _ _ h v hx hy => h v hy hx⟩
  exact h.disjoint.forall hx hy hne v hv hv'

lemma erase (h : Proper d r cr) (x : RangeTuple) : Proper d r { cr with items := cr.items.erase x } ∧
      ∀ y, y ∈ cr.items.erase x ↔ y ∈ cr.items ∧ y ≠ x := by
  have hsub : (cr.items.erase x).Sublist cr.items := erase_sublist
  have hnodup : cr.items.Nodup := h.disjoint.imp_of_mem fun hx _ hxy he =>
    hxy _ (h.grid _ hx).holds_start (he ▸ (h.grid _ hx).holds_start)
  refine ⟨⟨h.step, fun y hy => h.grid y (hsub.subset hy), h.sorted.sublist hsub,
    h.disjoint.sublist hsub⟩, fun y => ?_⟩
  rw [hnodup.mem_erase_iff, and_comm]

end Proper

lemma insert_eq (hstep : cr.step.getD 0 = 0 ∨ cr.step.getD 0 = t.step) :
    cr.insert t = match add cr.items t with
      | .ok items => .ok { cr with items := items, step := some t.step }
      | .error e => if cr.ignoreOverlaps then .ok { cr with step := some t.step } else .error e := by
  have hs : (if cr.step.getD 0 = 0 then t.step else cr.step.getD 0) = t.step := by
    split_ifs with h
    · rfl
    · exact hstep.resolve_left h
  simp only [insert, hs, ne_eq, not_true_eq_false, if_false]
  rfl

lemma of_insert {cr' : ChoppyRange} (hok : cr.insert t = .ok cr') :
    cr'.step = some t.step ∧ (add cr.items t = .ok cr'.items ∨ cr'.items = cr.items) := by
  have hstep : cr.step.getD 0 = 0 ∨ cr.step.getD 0 = t.step := by
    by_contra hne
    obtain ⟨h0, h1⟩ := not_or.mp hne
    simp only [insert, if_neg h0, ne_eq, h1, not_false_eq_true, if_true] at hok
    cases hok
  rw [insert_eq hstep] at hok
  split at hok
  · next items hadd =>
      cases hok
      exact ⟨rfl, .inl hadd⟩
  · split_ifs at hok
    cases hok
    exact ⟨rfl, .inr rfl⟩

lemma insert_all {P : RangeTuple → Prop} (hall : ∀ x ∈ cr.items, P x) (ht : P t)
    (hvalid : IntervalSet.Valid cr.items) (hne : t.start ≤ t.stop) {cr' : ChoppyRange}
    (hok : cr.insert t = .ok cr') : (∀ x ∈ cr'.items, P x) ∧ IntervalSet.Valid cr'.items := by
  obtain ⟨-, hadd | hitems⟩ := of_insert hok
  · refine ⟨fun x hx => ?_, hvalid.add hne hadd⟩
    exact ((mem_add_iff hadd x).mp hx).elim (hall x) fun hx => hx ▸ ht
  · rw [hitems]
    exact ⟨hall, hvalid⟩

lemma Proper.insert_ok (h : Proper d r cr) (ht : OnGrid d r t) {cr' : ChoppyRange}
    (hok : cr.insert t = .ok cr') : Proper d r cr' := by
  obtain ⟨hgrid, hvalid⟩ := insert_all h.grid ht h.valid ht.nonempty hok
  exact .of_valid (.inr (by rw [(of_insert hok).1]; exact ht.step)) hgrid hvalid

lemma insertAll_ascending {ts : List RangeTuple} : ∀ {c : ChoppyRange},
    c.step.getD 0 = 0 ∨ c.step.getD 0 = d → (∀ t ∈ ts, t.step = d) →
    (∀ t ∈ c.items ++ ts, t.start ≤ t.stop) → (c.items ++ ts).Pairwise (fun t t' => t.stop < t'.start) →
    ∃ c', ts.foldlM insert c = .ok c' ∧ c'.items = c.items ++ ts := by
  induction ts with
  | nil => exact fun _ _ _ _ => ⟨_, rfl, (append_nil _).symm⟩
  | cons t ts ih =>
    intro c hstep hts hne hpair
    obtain ⟨rfl, hts'⟩ := forall_mem_cons.mp hts
    have hadd : add c.items t = .ok (c.items ++ [t]) :=
      add_last (hne t (by simp)) fun x hx => ⟨hne x (mem_append_left _ hx),
        (pairwise_append.mp hpair).2.2 x hx t mem_cons_self⟩
    rw [append_cons] at hne hpair
    obtain ⟨c', hok', hitems⟩ := ih (c := { c with items := c.items ++ [t], step := some t.step })
      (.inr rfl) hts' hne hpair
    refine ⟨c', ?_, by rw [hitems, append_assoc, singleton_append]⟩
    rw [foldlM_cons, insert_eq hstep, hadd]
    exact hok'

lemma insertAll_apart {ts : List RangeTuple} : ∀ {c : ChoppyRange},
    c.step.getD 0 = 0 ∨ c.step.getD 0 = d → (∀ t ∈ ts, t.step = d) →
    ts.Pairwise (fun t t' => ¬t'.Overlaps t) → (∀ t ∈ ts, ∀ x ∈ c.items, ¬t.Overlaps x) →
    ∃ c', ts.foldlM insert c = .ok c' ∧ ∀ x, x ∈ c'.items ↔ x ∈ c.items ∨ x ∈ ts := by
  induction ts with
  | nil => exact fun _ _ _ _ => ⟨_, rfl, fun x => by simp⟩
  | cons t ts ih =>
    intro c hstep hts hpair hapart
    obtain ⟨hfirst, hrest⟩ := pairwise_cons.mp hpair
    obtain ⟨rfl, hts'⟩ := forall_mem_cons.mp hts
    obtain ⟨hnew, hapart'⟩ := forall_mem_cons.mp hapart
    obtain ⟨items, hadd⟩ := add_of_apart hnew
    have hmem := mem_add_iff hadd
    obtain ⟨c', hok', hmem'⟩ := ih (c := { c with items := items, step := some t.step }) (.inr rfl)
      hts' hrest fun t' ht' x hx => ((hmem x).mp hx).elim (hapart' t' ht' x) fun hx => hx ▸ hfirst t' ht'
    refine ⟨c', ?_, fun x => ?_⟩
    · rw [foldlM_cons, insert_eq hstep, hadd]
      exact hok'
    · rw [hmem', hmem, mem_cons, or_assoc]

lemma Proper.insertAll_ok {ts : List RangeTuple} {cr' : ChoppyRange} (h : Proper d r cr)
    (hts : ∀ t ∈ ts, OnGrid d r t) (hok : ts.foldlM ChoppyRange.insert cr = .ok cr') : Proper d r cr' :=
  Fallible.inv (fun t ht _ _ hone h => h.insert_ok (hts t ht) hone) h hok

lemma Proper.insertAll {l : List RangeTuple} (h : Proper d r cr) (hts : ∀ t ∈ l, OnGrid d r t)
    (hpair : l.Pairwise (fun t t' => ¬t'.Overlaps t)) (hapart : ∀ t ∈ l, ∀ x ∈ cr.items, ¬t.Overlaps x) :
    ∃ cr', l.foldlM ChoppyRange.insert cr = .ok cr' ∧ Proper d r cr' ∧
      ∀ x, x ∈ cr'.items ↔ x ∈ cr.items ∨ x ∈ l := by
  obtain ⟨cr', hok, hmem⟩ := insertAll_apart h.step (fun t ht => (hts t ht).step) hpair hapart
  exact ⟨cr', hok, h.insertAll_ok hts hok, hmem⟩

/-! ## The neighbours that a tuple meets -/

def near (l : IntervalSet) (e : RangeTuple) : List RangeTuple :=
  (IntervalSet.neighbors l e).1.toList ++ (IntervalSet.neighbors l e).2.toList

def BeginsIn (e x : RangeTuple) : Prop := e.start < x.start ∧ x.start ≤ e.stop

instance (e x : RangeTuple) : Decidable (BeginsIn e x) := inferInstanceAs (Decidable (_ ∧ _))

def Reached (l : IntervalSet) (e : RangeTuple) : Prop :=
  ∀ x ∈ l, ∀ y ∈ l, BeginsIn e x → BeginsIn e y → x = y

instance (l : IntervalSet) (e : RangeTuple) : Decidable (Reached l e) :=
  inferInstanceAs (Decidable (∀ x ∈ l, ∀ y ∈ l, _ → _ → _))

lemma mem_near {l : IntervalSet} : x ∈ near l e ↔
    (neighbors l e).1 = some x ∨ (neighbors l e).2 = some x := by
  simp [near]

namespace Proper

lemma near_subset (h : Proper d r cr) (hx : x ∈ near cr.items e) : x ∈ cr.items :=
  (mem_near.mp hx).elim (fun hx => (mem_of_prev hx).1) fun hx => (mem_of_next h.valid hx).1

lemma near_ne_nil (h : Proper d r cr) (hx : x ∈ cr.items) : near cr.items e ≠ [] := by
  by_cases hle : x.le e
  · obtain ⟨p, hp, -⟩ := exists_prev h.valid hx hle
    exact ne_nil_of_mem (mem_near.mpr (.inl hp))
  · obtain ⟨n, hn, -⟩ := exists_next h.valid hx hle
    exact ne_nil_of_mem (mem_near.mpr (.inr hn))

lemma near_of_holds_start (h : Proper d r cr) (hx : x ∈ cr.items) (hv : x.Holds e.start) :
    x ∈ near cr.items e := by
  by_cases hle : x.le e
  · obtain ⟨p, hp, rfl | hlt⟩ := exists_prev h.valid hx hle
    · exact mem_near.mpr (.inl hp)
    · have hpe := start_le_of_le (mem_of_prev hp).2
      exact absurd hv.2.1 (by omega)
  · obtain ⟨n, hn, rfl | hlt⟩ := exists_next h.valid hx hle
    · exact mem_near.mpr (.inr hn)
    · obtain ⟨hmem, hne⟩ := mem_of_next h.valid hn
      have hnn := (h.grid n hmem).nonempty
      have hen := start_le_of_not_le hne
      exact absurd hv.1 (by omega)

lemma reached_iff (h : Proper d r cr) (he : OnGrid d r e) : Reached cr.items e ↔
    ∀ x ∈ cr.items, ∀ v, x.Holds v → e.Holds v → x ∈ near cr.items e := by
  constructor
  · intro hone x hx v hv hev
    by_cases hle : x.start ≤ e.start
    · exact h.near_of_holds_start hx ((h.grid x hx).holds_iff.mpr ⟨he.start, hle, hev.1.trans hv.2.1⟩)
    · obtain ⟨n, hn, rfl | hlt⟩ := exists_next h.valid hx fun h => hle (start_le_of_le h)
      · exact mem_near.mpr (.inr hn)
      · -- both `n` and `x` begin within `e`
        obtain ⟨hmem, hne⟩ := mem_of_next h.valid hn
        have hnn := (h.grid n hmem).nonempty
        have hxe : x.start ≤ e.stop := hv.1.trans hev.2.1
        have hen : e.start < n.start := by
          simp only [RangeTuple.le, Bool.or_eq_true, Bool.and_eq_true, decide_eq_true_eq] at hne
          omega
        have heq := hone n hmem x hx ⟨hen, by omega⟩ ⟨by omega, hxe⟩
        rw [heq] at hlt
        exact absurd (h.grid x hx).nonempty (not_le.mpr hlt)
  · intro hnear x hx y hy hbx hby
    have hnext : ∀ z ∈ cr.items, BeginsIn e z → (neighbors cr.items e).2 = some z := by
      intro z hz hbz
      have hg := h.grid z hz
      have hmem := hnear z hz z.start hg.holds_start (he.holds_iff.mpr ⟨hg.start, hbz.1.le, hbz.2⟩)
      refine (mem_near.mp hmem).resolve_left fun hp => ?_
      exact absurd (start_le_of_le (mem_of_prev hp).2) (not_le.mpr hbz.1)
    exact Option.some_inj.mp ((hnext x hx hbx).symm.trans (hnext y hy hby))

lemma near_pairwise (h : Proper d r cr) :
    (near cr.items e).Pairwise (fun x y => ∀ v, x.Holds v → ¬y.Holds v) := by
  refine pairwise_append.mpr ⟨?_, ?_, fun x hx y hy v hv hv' => ?_⟩
  · cases (neighbors cr.items e).1 <;> simp
  · cases (neighbors cr.items e).2 <;> simp
  · obtain ⟨hxl, hxe⟩ := mem_of_prev (Option.mem_toList.mp hx)
    obtain ⟨hyl, hye⟩ := mem_of_next h.valid (Option.mem_toList.mp hy)
    exact hye (h.eq_of_holds hxl hyl hv hv' ▸ hxe)

end Proper

end ChoppyRange

end Urb
