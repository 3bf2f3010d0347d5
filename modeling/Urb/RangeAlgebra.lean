/-
# `Urb.RangeAlgebra` — two tuples as sets of values

What the operations on two tuples of one grid come to:

    meet      `intersection`, the common values
    cut       `remove_overlap`, the values of the one and not of the other
    hull      `union` of two tuples that touch
    merge     `union`, one tuple or two
    differ    `difference`, the values of only one of the two

`intersection`, `union` and `difference` are right for all tuples of a grid (`tuple_algebra`).

NOTE on `cut`: where `y` takes the end of `x` away, the second piece is made if the stop of `x`,
as it was given, lies behind its last value, and is then empty (`Ragged`).  Apart from that
`remove_overlap` is right (`removeOverlap_values_iff`).
-/
import Urb.RangeGrid

namespace Urb

open Int

namespace RangeTuple

def difference (a b : RangeTuple) : Except RangeError (List RangeTuple) := do
  let (fa, fb) ← ckAndFix a b
  match ← a.intersection fb with
  | none => return fa.join fb
  | some i =>
    let low := if fa.start < fb.start then fa.start else fb.start
    let high := if fa.stop > fb.stop then fa.stop else fb.stop
    let below := if low < i.start then [⟨low, i.start - fa.step, fa.step⟩] else []
    let above := if i.stop < high then [⟨i.stop + fa.step, high, fa.step⟩] else []
    match below ++ above with
    | [p, q] => return p.join q
    | ret => return ret

variable {d r v : ℤ} {t x y a b e : RangeTuple}

lemma dvd_min_max {m n : ℤ} (hm : d ∣ m - r) (hn : d ∣ n - r) : d ∣ min m n - r ∧ d ∣ max m n - r := by
  rcases le_total m n with h | h
  · rw [min_eq_left h, max_eq_right h]
    exact ⟨hm, hn⟩
  · rw [min_eq_right h, max_eq_left h]
    exact ⟨hn, hm⟩

variable (hd : 0 < d)
include hd

lemma holds_before {m n : ℤ} (hm : d ∣ m - r) (hn : d ∣ n - r) :
    (⟨m, n - d, d⟩ : RangeTuple).Holds v ↔ d ∣ v - r ∧ m ≤ v ∧ v < n := by
  rw [holds_iff_of_dvd rfl hm]
  refine and_congr_right fun hv => and_congr_right fun _ => ⟨fun h => ?_, fun h => ?_⟩
  · exact h.trans_lt (sub_lt_self n hd)
  · exact le_sub_right_of_add_le (add_le_of_lt hv hn h)

lemma holds_after {m n : ℤ} (hm : d ∣ m - r) :
    (⟨m + d, n, d⟩ : RangeTuple).Holds v ↔ d ∣ v - r ∧ m < v ∧ v ≤ n := by
  rw [holds_iff_of_dvd rfl (dvd_add_self hm)]
  refine and_congr_right fun hv => and_congr_left fun _ => ⟨fun h => ?_, add_le_of_lt hm hv⟩
  exact (lt_add_of_pos_right m hd).trans_le h

/-! ## What two tuples share -/

/-- What `intersection` returns. -/
def meet (x e : RangeTuple) : Option RangeTuple :=
  if x.last < e.start ∨ e.last < x.start then none
  else some ⟨max x.start e.start, min x.last e.last, x.step⟩

lemma intersection_eq (hx : OnGrid d r x) (he : OnGrid d r e) : x.intersection e = .ok (x.meet e) := by
  simp only [intersection, hx.ckAndFix hd he, meet]
  show (if x.last < e.start ∨ e.last < x.start then _ else _ : Except _ _) = _
  split_ifs <;> rfl

lemma meet_fix (hx : OnGrid d r x) (he : OnGrid d r e) :
    x.meet e.fix = x.meet e ∧ x.fix.meet e.fix = x.meet e := by
  simp only [meet, hx.last_fix hd, he.last_fix hd]
  exact ⟨rfl, rfl⟩

lemma meet_spec (hx : OnGrid d r x) (he : OnGrid d r e) :
    (∀ t ∈ x.meet e, OnGrid d r t) ∧ ∀ v, (∃ t ∈ x.meet e, t.Holds v) ↔ x.Holds v ∧ e.Holds v := by
  have hxl := hx.last_spec hd
  have hel := he.last_spec hd
  unfold meet
  split_ifs with hapart
  · refine ⟨nofun, fun v => iff_of_false nofun fun hv => ?_⟩
    rw [hx.holds_iff_last hd, he.holds_iff_last hd] at hv
    omega
  · have hgrid : OnGrid d r ⟨max x.start e.start, min x.last e.last, x.step⟩ := by
      refine ⟨hx.step, ?_, (dvd_min_max hx.start he.start).2⟩
      show max x.start e.start ≤ min x.last e.last
      omega
    refine ⟨fun t ht => Option.mem_some.mp ht ▸ hgrid, fun v => ?_⟩
    simp only [Option.mem_some, exists_eq_left']
    rw [hgrid.holds_iff, hx.holds_iff_last hd, he.holds_iff_last hd]
    simp only [max_le_iff, le_min_iff]
    tauto

/-! ## What is left of a tuple -/

/-- What `remove_overlap` returns. -/
def cut (x e : RangeTuple) : List RangeTuple :=
  if x.last < e.start ∨ e.last < x.start then [x.fix]
  else if x.start < e.start then
    ⟨x.start, e.start - x.step, x.step⟩ :: if min x.last e.last < x.stop then
      [⟨min x.last e.last + x.step, x.last, x.step⟩] else []
  else if e.last < x.last then [⟨e.last + x.step, x.last, x.step⟩] else []

/-- `e` takes the last value of `x`, and the stop of `x` is behind it. -/
def Ragged (x e : RangeTuple) : Prop :=
  x.start < e.start ∧ e.start ≤ x.last ∧ x.last ≤ e.last ∧ x.last < x.stop

instance (x e : RangeTuple) : Decidable (x.Ragged e) := inferInstanceAs (Decidable (_ ∧ _))

section

variable (hx : OnGrid d r x) (he : OnGrid d r e)
include hx he

lemma removeOverlap_eq : x.removeOverlap e = .ok (x.cut e) := by
  have hsync : (e.start - x.start).fmod x.step = 0 := by
    rw [hx.step]
    refine fmod_eq_zero_of_dvd ?_
    have := dvd_sub he.start hx.start
    rwa [sub_sub_sub_cancel_right] at this
  simp only [removeOverlap, hx.ckAndFix hd he, bind, Except.bind,
    intersection_eq hd (hx.fix hd) (he.fix hd), (meet_fix hd hx he).2]
  by_cases hapart : x.last < e.start ∨ e.last < x.start
  · rw [meet, if_pos hapart, cut, if_pos hapart]
    rfl
  · rw [meet, if_neg hapart, cut, if_neg hapart]
    simp only [fix, hsync, ne_eq, not_true_eq_false, if_false]
    by_cases hlow : x.start < e.start
    · simp only [max_eq_right hlow.le, hlow, if_true]
      split_ifs <;> rfl
    · simp only [max_eq_left (not_lt.mp hlow), lt_irrefl, hlow, if_false]
      by_cases hhigh : e.last < x.last
      · simp only [min_eq_right hhigh.le, hhigh, if_true]
        rfl
      · simp only [min_eq_left (not_lt.mp hhigh), lt_irrefl, hhigh, if_false]
        rfl

lemma dvd_min_last : d ∣ min x.last e.last - r :=
  (dvd_min_max (hx.last_spec hd).2.2.2 (he.last_spec hd).2.2.2).1

lemma cut_within : (∀ t ∈ x.cut e, t.step = d ∧ d ∣ t.start - r ∧ x.start ≤ t.start ∧ t.stop ≤ x.last) ∧
      (x.cut e).Pairwise (fun t t' => t.stop < t'.start) := by
  obtain ⟨hxs, hxle, -, -⟩ := hx.last_spec hd
  obtain ⟨hes, -, -, hel⟩ := he.last_spec hd
  have hmin := dvd_add_self (dvd_min_last hd hx he)
  unfold cut
  split_ifs <;> simp [fix, hx.step, hx.start, hmin, dvd_add_self hel] <;> omega

lemma cut_onGrid (h : ¬x.Ragged e) : ∀ t ∈ x.cut e, OnGrid d r t := by
  intro t ht
  obtain ⟨hstep, hgrid, -, -⟩ := (cut_within hd hx he).1 t ht
  refine ⟨hstep, ?_, hgrid⟩
  obtain ⟨hxs, hxle, -, hxl⟩ := hx.last_spec hd
  obtain ⟨hes, -, -, hel⟩ := he.last_spec hd
  have hlow : x.start < e.start → x.start + d ≤ e.start := add_le_of_lt hx.start he.start
  have hhigh : e.last < x.last → e.last + d ≤ x.last := add_le_of_lt hel hxl
  -- the second of two pieces is empty only if `e` takes the end of `x`
  have hragged : x.start < e.start → e.start ≤ x.last → x.last < x.stop → e.last < x.last := by
    intro hl hin hlt
    by_contra hge
    exact h ⟨hl, hin, not_lt.mp hge, hlt⟩
  unfold cut at ht
  rw [hx.step] at ht
  split_ifs at ht <;> simp [fix] at ht <;> grind

lemma cut_holds : (∃ t ∈ x.cut e, t.Holds v) ↔ x.Holds v ∧ ¬e.Holds v := by
  obtain ⟨hxs, hxle, -, -⟩ := hx.last_spec hd
  obtain ⟨hes, -, -, hel⟩ := he.last_spec hd
  rw [hx.holds_iff_last hd, he.holds_iff_last hd]
  unfold cut
  rw [hx.step]
  by_cases hv : d ∣ v - r
  · split_ifs <;> simp [hx.holds_fix hd, hx.holds_iff_last hd, holds_before hd hx.start he.start,
      holds_after hd (dvd_min_last hd hx he), holds_after hd hel, hv] <;> omega
  · split_ifs <;> simp [hx.holds_fix hd, hx.holds_iff_last hd, holds_before hd hx.start he.start,
      holds_after hd (dvd_min_last hd hx he), holds_after hd hel, hv]

end

/-! ## Two tuples together -/

/-- The two overlap or are adjacent. -/
def Touches (d : ℤ) (a b : RangeTuple) : Prop := b.start ≤ a.last + d ∧ a.start ≤ b.last + d

instance (d : ℤ) (a b : RangeTuple) : Decidable (a.Touches d b) := inferInstanceAs (Decidable (_ ∧ _))

def hull (a b : RangeTuple) : RangeTuple := ⟨min a.start b.start, max a.last b.last, a.step⟩

def merge (d : ℤ) (a b : RangeTuple) : List RangeTuple :=
  if a.Touches d b then [a.hull b] else if a.start ≤ b.start then [a.fix, b.fix] else [b.fix, a.fix]

section

variable (ha : OnGrid d r a) (hb : OnGrid d r b)
include ha hb

lemma gaps : a.start ≤ a.last ∧ b.start ≤ b.last ∧
    (a.last < b.start → a.last + d ≤ b.start) ∧ (b.last < a.start → b.last + d ≤ a.start) := by
  obtain ⟨has, -, -, hal⟩ := ha.last_spec hd
  obtain ⟨hbs, -, -, hbl⟩ := hb.last_spec hd
  exact ⟨has, hbs, add_le_of_lt hal hb.start, add_le_of_lt hbl ha.start⟩

lemma isOverlapping_or_isAdjacent :
    ∃ o j, a.isOverlapping b = .ok o ∧ a.isAdjacent b = .ok j ∧ ((o || j) = decide (a.Touches d b)) := by
  obtain ⟨has, hbs, hab, hba⟩ := gaps hd ha hb
  simp only [isOverlapping, isAdjacent, ha.ckAndFix hd hb, bind, Except.bind, pure, Except.pure]
  refine ⟨_, _, rfl, rfl, ?_⟩
  rw [Bool.eq_iff_iff, Bool.or_eq_true, decide_eq_true_iff, decide_eq_true_iff, decide_eq_true_iff, Touches]
  by_cases hle : a.fix.le b.fix
  · have hs : a.start ≤ b.start := start_le_of_le (a := a.fix) (b := b.fix) hle
    rw [sort, if_pos hle]
    show (a.start ≤ b.start ∧ b.start ≤ a.last) ∨ a.last + a.step = b.start ↔ _
    rw [ha.step]
    omega
  · have hs : b.start ≤ a.start := start_le_of_not_le (a := a.fix) (b := b.fix) hle
    rw [sort, if_neg hle]
    show (b.start ≤ a.start ∧ a.start ≤ b.last) ∨ b.last + b.step = a.start ↔ _
    rw [hb.step]
    omega

lemma join_eq (h : a.last < b.start ∨ b.last < a.start) : a.fix.join b.fix = a.merge d b := by
  obtain ⟨has, hbs, hab, hba⟩ := gaps hd ha hb
  rcases h with h | h
  · rw [join, (sort_of_start_lt (a := a.fix) (b := b.fix) (has.trans_lt h)).1]
    show (if a.last + a.step = b.start then [⟨a.start, b.last, a.step⟩] else [a.fix, b.fix]) = _
    rw [ha.step]
    by_cases hadj : a.last + d = b.start
    · rw [if_pos hadj, merge, if_pos ⟨by omega, by omega⟩, hull, min_eq_left (by omega),
        max_eq_right (by omega), ha.step]
    · rw [if_neg hadj, merge, if_neg fun ht => hadj (le_antisymm (hab h) ht.1), if_pos (by omega)]
  · rw [join, (sort_of_start_lt (a := b.fix) (b := a.fix) (hbs.trans_lt h)).2]
    show (if b.last + b.step = a.start then [⟨b.start, a.last, b.step⟩] else [b.fix, a.fix]) = _
    rw [hb.step]
    by_cases hadj : b.last + d = a.start
    · rw [if_pos hadj, merge, if_pos ⟨by omega, by omega⟩, hull, min_eq_right (by omega),
        max_eq_left (by omega), ha.step]
    · rw [if_neg hadj, merge, if_neg fun ht => hadj (le_antisymm (hba h) ht.2), if_neg (by omega)]

lemma union_eq_merge : a.union b = .ok (a.merge d b) := by
  obtain ⟨has, -, -, hal⟩ := ha.last_spec hd
  obtain ⟨hbs, -, -, hbl⟩ := hb.last_spec hd
  have hstep := ha.step.trans hb.step.symm
  have hmerge : ¬(a.last < b.start ∨ b.last < a.start) → a.merge d b = [a.hull b] := fun h =>
    if_pos ⟨by omega, by omega⟩
  simp only [union, ha.ckAndFix hd hb, bind, Except.bind, intersection_eq hd ha (hb.fix hd),
    (meet_fix hd ha hb).1]
  show (if a.start ≤ b.start ∧ a.last ≥ b.last then _ else if b.start ≤ a.start ∧ b.last ≥ a.last then _
    else _ : Except _ _) = _
  by_cases hin : a.start ≤ b.start ∧ a.last ≥ b.last
  · rw [if_pos hin, hmerge (by omega), hull, min_eq_left hin.1, max_eq_left hin.2]
    rfl
  by_cases hin' : b.start ≤ a.start ∧ b.last ≥ a.last
  · rw [if_neg hin, if_pos hin', hmerge (by omega), hull, min_eq_right hin'.1, max_eq_right hin'.2, hstep]
    rfl
  rw [if_neg hin, if_neg hin']
  by_cases hapart : a.last < b.start ∨ b.last < a.start
  · rw [meet, if_pos hapart, ← join_eq hd ha hb hapart]
    rfl
  · rw [meet, if_neg hapart, hmerge hapart]
    show (if b.start < a.start then _ else _ : Except _ _) = _
    split_ifs with hlt
    · rw [hull, min_eq_right hlt.le, max_eq_left (by omega)]
      rfl
    · rw [hull, min_eq_left (by omega), max_eq_right (by omega)]
      rfl

lemma union_eq (h : a.Touches d b) : a.union b = .ok [a.hull b] := by
  rw [union_eq_merge hd ha hb, merge, if_pos h]

lemma holds_of_fix (h : a.fix = b.fix) : a.Holds v ↔ b.Holds v := by
  rw [← ha.holds_fix hd, h, hb.holds_fix hd]

lemma touches_of_holds (hv : a.Holds v) (hv' : b.Holds v) : a.Touches d b := by
  rw [ha.holds_iff_last hd] at hv
  rw [hb.holds_iff_last hd] at hv'
  exact ⟨by omega, by omega⟩

lemma hull_spec (h : a.Touches d b) : OnGrid d r (a.hull b) ∧ (a.hull b).last = max a.last b.last ∧
      ∀ v, (a.hull b).Holds v ↔ a.Holds v ∨ b.Holds v := by
  obtain ⟨has, -, -, hal⟩ := ha.last_spec hd
  obtain ⟨hbs, -, -, hbl⟩ := hb.last_spec hd
  obtain ⟨htb, hta⟩ := h
  have hgrid : OnGrid d r (a.hull b) := by
    refine ⟨ha.step, ?_, (dvd_min_max ha.start hb.start).1⟩
    show min a.start b.start ≤ max a.last b.last
    omega
  have hlast : d ∣ max a.last b.last - r := (dvd_min_max hal hbl).2
  refine ⟨hgrid, le_antisymm (hgrid.last_spec hd).2.1 ((hgrid.le_last_iff hd hlast).mpr le_rfl), fun v => ?_⟩
  rw [hgrid.holds_iff, ha.holds_iff_last hd, hb.holds_iff_last hd]
  show d ∣ v - r ∧ min a.start b.start ≤ v ∧ v ≤ max a.last b.last ↔ _
  by_cases hv : d ∣ v - r
  · have h1 : a.last < v → a.last + d ≤ v := add_le_of_lt hal hv
    have h2 : b.last < v → b.last + d ≤ v := add_le_of_lt hbl hv
    simp only [hv, true_and]
    omega
  · simp [hv]

lemma merge_spec :
    (∀ t ∈ a.merge d b, OnGrid d r t) ∧ (a.merge d b).Pairwise (fun t t' => t.stop < t'.start) ∧
      ∀ v, (∃ t ∈ a.merge d b, t.Holds v) ↔ a.Holds v ∨ b.Holds v := by
  have has := (ha.last_spec hd).1
  have hbs := (hb.last_spec hd).1
  unfold merge
  split_ifs with htouch hle
  · obtain ⟨hgrid, -, hholds⟩ := hull_spec hd ha hb htouch
    simp [hgrid, hholds]
  · have hlt : a.last < b.start := not_le.mp fun h => htouch ⟨by omega, by omega⟩
    simp [ha.fix hd, hb.fix hd, ha.holds_fix hd, hb.holds_fix hd, show a.fix.stop < b.fix.start from hlt]
  · have hlt : b.last < a.start := not_le.mp fun h => htouch ⟨by omega, by omega⟩
    simp [ha.fix hd, hb.fix hd, ha.holds_fix hd, hb.holds_fix hd, show b.fix.stop < a.fix.start from hlt,
      or_comm]

end

/-! ## What only one of two tuples holds -/

/-- What `difference` returns. -/
def differ (d : ℤ) (x y : RangeTuple) : List RangeTuple :=
  if x.last < y.start ∨ y.last < x.start then x.merge d y
  else
    (if min x.start y.start < max x.start y.start then
      [⟨min x.start y.start, max x.start y.start - d, d⟩] else []) ++
    if min x.last y.last < max x.last y.last then
      [⟨min x.last y.last + d, max x.last y.last, d⟩] else []

lemma difference_eq (hx : OnGrid d r x) (hy : OnGrid d r y) : x.difference y = .ok (x.differ d y) := by
  obtain ⟨hxs, -, -, -⟩ := hx.last_spec hd
  obtain ⟨hys, -, -, -⟩ := hy.last_spec hd
  simp only [difference, hx.ckAndFix hd hy, bind, Except.bind, intersection_eq hd hx (hy.fix hd),
    (meet_fix hd hx hy).1]
  by_cases hapart : x.last < y.start ∨ y.last < x.start
  · rw [meet, if_pos hapart, differ, if_pos hapart, ← join_eq hd hx hy hapart]
    rfl
  · have hlow : (if x.start < y.start then x.start else y.start) = min x.start y.start := by
      split_ifs <;> omega
    have hhigh : (if x.last > y.last then x.last else y.last) = max x.last y.last := by
      split_ifs <;> omega
    rw [meet, if_neg hapart, differ, if_neg hapart]
    simp only [fix, hlow, hhigh, hx.step]
    split_ifs with hl hh
    · -- two pieces are in order, and not adjacent
      have hsort := sort_of_start_lt (a := ⟨min x.start y.start, max x.start y.start - d, d⟩)
        (b := ⟨min x.last y.last + d, max x.last y.last, d⟩) (by show min _ _ < min _ _ + d; omega)
      have hne : max x.start y.start - d + d ≠ min x.last y.last + d := by omega
      simp only [List.cons_append, List.nil_append, join, hsort.1, if_neg hne]
      rfl
    all_goals rfl

lemma differ_spec (hx : OnGrid d r x) (hy : OnGrid d r y) : (∀ t ∈ x.differ d y, t.step = d) ∧
      ∀ v, (∃ t ∈ x.differ d y, t.Holds v) ↔ Xor (x.Holds v) (y.Holds v) := by
  obtain ⟨hxs, -, -, hxl⟩ := hx.last_spec hd
  obtain ⟨hys, -, -, hyl⟩ := hy.last_spec hd
  obtain ⟨hgrid, -, hholds⟩ := merge_spec hd hx hy
  obtain ⟨hmin, hmax⟩ := dvd_min_max hx.start hy.start
  by_cases hapart : x.last < y.start ∨ y.last < x.start
  · rw [differ, if_pos hapart]
    refine ⟨fun t ht => (hgrid t ht).step, fun v => (hholds v).trans ?_⟩
    rw [hx.holds_iff_last hd, hy.holds_iff_last hd, Xor]
    by_cases hv : d ∣ v - r <;> simp only [hv, true_and, false_and, or_false]
    omega
  · rw [differ, if_neg hapart]
    refine ⟨fun t ht => ?_, fun v => ?_⟩
    · rcases List.mem_append.mp ht with ht | ht <;> split_ifs at ht <;> simp at ht <;> rw [ht]
    · rw [hx.holds_iff_last hd, hy.holds_iff_last hd, Xor]
      by_cases hv : d ∣ v - r <;> split_ifs <;>
        simp [holds_before hd hmin hmax, holds_after hd (dvd_min_last hd hx hy), hv] <;> omega

/-! ## The values -/

/-- Some value of one is a value of the other, or one step away from it. -/
def Joins (x y : RangeTuple) : Prop :=
  ∃ v ∈ x.values, ∃ w ∈ y.values, v = w ∨ v + x.step = w ∨ w + x.step = v

lemma touches_iff (hx : OnGrid d r x) (hy : OnGrid d r y) : x.Touches d y ↔ x.Joins y := by
  obtain ⟨hxs, hys, hxy, hyx⟩ := gaps hd hx hy
  obtain ⟨-, -, -, hxl⟩ := hx.last_spec hd
  obtain ⟨-, -, -, hyl⟩ := hy.last_spec hd
  have hvx : ∀ v, v ∈ x.values ↔ d ∣ v - r ∧ x.start ≤ v ∧ v ≤ x.last := fun v => by
    rw [mem_values (hx.step ▸ hd), hx.holds_iff_last hd]
  have hvy : ∀ v, v ∈ y.values ↔ d ∣ v - r ∧ y.start ≤ v ∧ v ≤ y.last := fun v => by
    rw [mem_values (hy.step ▸ hd), hy.holds_iff_last hd]
  simp only [Touches, Joins, hvx, hvy, hx.step]
  constructor
  · rintro ⟨htb, hta⟩
    by_cases hlt : x.last < y.start
    · exact ⟨x.last, ⟨hxl, hxs, le_rfl⟩, y.start, ⟨hy.start, le_rfl, hys⟩, by omega⟩
    by_cases hlt' : y.last < x.start
    · exact ⟨x.start, ⟨hx.start, le_rfl, hxs⟩, y.last, ⟨hyl, hys, le_rfl⟩, by omega⟩
    have hmax := (dvd_min_max hx.start hy.start).2
    exact ⟨max x.start y.start, ⟨hmax, by omega, by omega⟩, _, ⟨hmax, by omega, by omega⟩, .inl rfl⟩
  · rintro ⟨v, ⟨-, hv⟩, w, ⟨-, hw⟩, h⟩
    omega

omit hd

lemma mem_cut_of_ragged (hx : OnGrid d r x) (h : x.Ragged e) : ⟨x.last + d, x.last, d⟩ ∈ x.cut e := by
  obtain ⟨hlow, hin, hle, hlt⟩ := h
  have hapart : ¬(x.last < e.start ∨ e.last < x.start) := by omega
  rw [cut, if_neg hapart, if_pos hlow, min_eq_left hle, if_pos hlt, hx.step]
  simp

lemma onGrid_of_sync (hstep : y.step = x.step) (hx : x.start ≤ x.stop) (hy : y.start ≤ y.stop)
    (hsync : x.step ∣ y.start - x.start) : OnGrid x.step x.start x ∧ OnGrid x.step x.start y :=
  ⟨⟨rfl, hx, by simp⟩, hstep, hy, hsync⟩

/-- **Cutting one tuple out of another** is right unless its end is ragged. -/
theorem removeOverlap_values_iff (hd : 0 < x.step) (hstep : y.step = x.step) (hx : x.start ≤ x.stop)
    (hy : y.start ≤ y.stop) (hsync : x.step ∣ y.start - x.start) :
    (∃ ts, x.removeOverlap y = .ok ts ∧ (∀ t ∈ ts, t.start ≤ t.stop) ∧
      ts.Pairwise (fun t t' => t.stop < t'.start) ∧
      ∀ v, v ∈ ts.flatMap values ↔ v ∈ x.values ∧ v ∉ y.values) ↔ ¬x.Ragged y := by
  obtain ⟨hxg, hyg⟩ := onGrid_of_sync hstep hx hy hsync
  obtain ⟨hwithin, hpair⟩ := cut_within hd hxg hyg
  rw [removeOverlap_eq hd hxg hyg]
  constructor
  · rintro ⟨ts, hts, hne, -⟩ hragged
    cases hts
    have hempty : x.last + x.step ≤ x.last := hne _ (mem_cut_of_ragged hxg hragged)
    omega
  · intro h
    refine ⟨_, rfl, fun t ht => (cut_onGrid hd hxg hyg h t ht).nonempty, hpair, fun v => ?_⟩
    rw [mem_values_of_step hd fun t ht => (hwithin t ht).1, cut_holds hd hxg hyg, mem_values hd,
      mem_values (hstep ▸ hd)]

theorem removeOverlap_values_middle :
    ∃ ts, removeOverlap ⟨-5, 8, 3⟩ ⟨-2, 2, 3⟩ = .ok ts ∧ ts = [⟨-5, -5, 3⟩, ⟨4, 7, 3⟩] ∧
      (∀ t ∈ ts, t.start ≤ t.stop) ∧ ts.Pairwise (fun t t' => t.stop < t'.start) ∧
      ∀ v, v ∈ ts.flatMap values ↔ v ∈ values ⟨-5, 8, 3⟩ ∧ v ∉ values ⟨-2, 2, 3⟩ := by
  obtain ⟨ts, hts, hright⟩ := (removeOverlap_values_iff (x := ⟨-5, 8, 3⟩) (y := ⟨-2, 2, 3⟩) (by decide) rfl
    (by decide) (by decide) (by decide)).mpr (by decide)
  have hcut : removeOverlap ⟨-5, 8, 3⟩ ⟨-2, 2, 3⟩ = .ok [⟨-5, -5, 3⟩, ⟨4, 7, 3⟩] := by decide
  exact ⟨ts, hts, by cases hts.symm.trans hcut; rfl, hright⟩

theorem removeOverlap_ragged : removeOverlap ⟨1, 4, 2⟩ ⟨3, 3, 2⟩ = .ok [⟨1, 1, 2⟩, ⟨5, 3, 2⟩] := by decide

/-- **The algebra of tuples**, by the values. -/
theorem tuple_algebra (hd : 0 < x.step) (hstep : y.step = x.step) (hx : x.start ≤ x.stop)
    (hy : y.start ≤ y.stop) (hsync : x.step ∣ y.start - x.start) :
    (∃ m, x.intersection y = .ok m ∧ (m = none ↔ ∀ v ∈ x.values, v ∉ y.values) ∧
      ∀ t ∈ m, ∀ v, v ∈ t.values ↔ v ∈ x.values ∧ v ∈ y.values) ∧
    (∃ u, x.union y = .ok u ∧ (∀ v, v ∈ u.flatMap values ↔ v ∈ x.values ∨ v ∈ y.values) ∧
      (x.Joins y → u.length = 1) ∧
      (¬x.Joins y → u.length = 2 ∧ u.Pairwise (fun t t' => t.stop < t'.start))) ∧
    ∃ s, x.difference y = .ok s ∧ ∀ v, v ∈ s.flatMap values ↔ Xor (v ∈ x.values) (v ∈ y.values) := by
  obtain ⟨hxg, hyg⟩ := onGrid_of_sync hstep hx hy hsync
  have hvx : ∀ v, v ∈ x.values ↔ x.Holds v := fun v => mem_values hd
  have hvy : ∀ v, v ∈ y.values ↔ y.Holds v := fun v => mem_values (hstep ▸ hd)
  obtain ⟨hmeet, hshared⟩ := meet_spec hd hxg hyg
  obtain ⟨hmerge, hpair, hunion⟩ := merge_spec hd hxg hyg
  obtain ⟨hdiffer, honly⟩ := differ_spec hd hxg hyg
  simp only [hvx, hvy]
  refine ⟨⟨_, intersection_eq hd hxg hyg, ?_, fun t ht v => ?_⟩,
    ⟨_, union_eq_merge hd hxg hyg, fun v => ?_, fun hj => ?_, fun hj => ⟨?_, hpair⟩⟩,
    _, difference_eq hd hxg hyg, fun v => ?_⟩
  · rw [Option.eq_none_iff_forall_not_mem]
    constructor
    · intro hno v hv hv'
      obtain ⟨t, ht, -⟩ := (hshared v).mpr ⟨hv, hv'⟩
      exact hno t ht
    · intro hno t ht
      obtain ⟨hv, hv'⟩ := (hshared _).mp ⟨t, ht, (hmeet t ht).holds_start⟩
      exact hno _ hv hv'
  · rw [mem_values ((hmeet t ht).step ▸ hd), ← hshared, Option.mem_def.mp ht]
    simp
  · rw [mem_values_of_step hd fun t ht => (hmerge t ht).step, hunion]
  · rw [merge, if_pos ((touches_iff hd hxg hyg).mpr hj)]
    rfl
  · rw [merge, if_neg fun ht => hj ((touches_iff hd hxg hyg).mp ht)]
    split_ifs <;> rfl
  · rw [mem_values_of_step hd hdiffer, honly]

theorem tuple_algebra_crossing :
    intersection ⟨1, 6, 2⟩ ⟨3, 10, 2⟩ = .ok (some ⟨3, 5, 2⟩) ∧
    (∃ u, union ⟨1, 6, 2⟩ ⟨3, 10, 2⟩ = .ok u ∧ (∀ v, v ∈ u.flatMap values ↔
      v ∈ values ⟨1, 6, 2⟩ ∨ v ∈ values ⟨3, 10, 2⟩)) ∧
    ∃ s, difference ⟨1, 6, 2⟩ ⟨3, 10, 2⟩ = .ok s ∧ s = [⟨1, 1, 2⟩, ⟨7, 9, 2⟩] ∧
      ∀ v, v ∈ s.flatMap values ↔ Xor (v ∈ values ⟨1, 6, 2⟩) (v ∈ values ⟨3, 10, 2⟩) := by
  obtain ⟨-, ⟨u, hu, hunion, -⟩, s, hs, honly⟩ := tuple_algebra (x := ⟨1, 6, 2⟩) (y := ⟨3, 10, 2⟩)
    (by decide) rfl (by decide) (by decide) (by decide)
  have hdiff : difference ⟨1, 6, 2⟩ ⟨3, 10, 2⟩ = .ok [⟨1, 1, 2⟩, ⟨7, 9, 2⟩] := by decide
  exact ⟨by decide, ⟨u, hu, hunion⟩, s, hs, by cases hs.symm.trans hdiff; rfl, honly⟩

end RangeTuple

end Urb
