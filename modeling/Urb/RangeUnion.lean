/-
# `Urb.RangeUnion` — the union of ranges

`union` goes through the elements of the other ranges.  The neighbours of an element that overlap
it or are adjacent to it are removed, and what the element forms with them is inserted (`unite_eq`).

`Joined` is the element together with the neighbours it touches, in whichever order.

The removal fixes the stops of elements, so that the elements are compared by their start and
last value (`Has`).  An element within which two others begin overlaps a third one, and inserting
what it forms raises.  One that ends right before an element which is not its neighbour is left
adjacent to it.  These are the only failures (`union_values_iff`).
-/
import Urb.RangeCuts

namespace Urb

open List IntervalSet Except

namespace ChoppyRange

open RangeTuple

variable {d r : ℤ} {cr : ChoppyRange} {t x e : RangeTuple}

/-! ## Taking elements out -/

def Has (cr : ChoppyRange) (s : RangeTuple) : Prop := ∃ x ∈ cr.items, x.fix = s

lemma start_of_fix {y : RangeTuple} (h : x.fix = y.fix) : x.start = y.start :=
  (congrArg RangeTuple.start h : x.fix.start = y.fix.start)

lemma Proper.values_iff_has (hd : 0 < d) (h : Proper d r cr) {v : ℤ} :
    v ∈ cr.values ↔ ∃ s, cr.Has s ∧ s.Holds v := by
  rw [h.mem_values hd]
  constructor
  · rintro ⟨x, hx, hv⟩
    exact ⟨x.fix, ⟨x, hx, rfl⟩, ((h.grid x hx).holds_fix hd).mpr hv⟩
  · rintro ⟨_, ⟨x, hx, rfl⟩, hv⟩
    exact ⟨x, hx, ((h.grid x hx).holds_fix hd).mp hv⟩

lemma Proper.remove (hd : 0 < d) (h : Proper d r cr) {rem : RangeTuple} (hrem : OnGrid d r rem)
    (hhas : cr.Has rem.fix) :
    ∃ cr', cr.remove rem = .ok cr' ∧ Proper d r cr' ∧ ∀ s, cr'.Has s ↔ cr.Has s ∧ s ≠ rem.fix := by
  obtain ⟨x, hx, hfix⟩ := hhas
  have hxg := h.grid x hx
  have hholds : ∀ v, rem.Holds v ↔ x.Holds v := fun _ => holds_of_fix hd hrem hxg hfix.symm
  have hstart := start_of_fix hfix
  have hother : ∀ y ∈ cr.items, ∀ v, y.Holds v → rem.Holds v → y = x := fun y hy v hv hrv =>
    h.eq_of_holds hy hx hv ((hholds v).mp hrv)
  have hnear : x ∈ near cr.items rem := by
    refine (h.reached_iff hrem).mp (fun y hy z hz hby _ => ?_) x hx x.start hxg.holds_start
      ((hholds _).mpr hxg.holds_start)
    have hyg := h.grid y hy
    obtain rfl := hother y hy y.start hyg.holds_start (hrem.holds_iff.mpr ⟨hyg.start, hby.1.le, hby.2⟩)
    exact absurd hby.1 hstart.not_gt
  obtain ⟨cr', hok, h', hmem⟩ := subtractOne_spec hd h hrem fun y hy hr => by
    have hyv := ((h.grid y hy).holds_iff_last hd).mpr ⟨hrem.start, hr.1.le, hr.2.1⟩
    obtain rfl := hother y hy _ hyv hrem.holds_start
    exact absurd hr.1 hstart.not_lt
  have hself : ∀ t, t ∉ x.cut rem := by
    intro t ht
    have htg := cut_onGrid hd hxg hrem (fun hr => absurd hr.1 hstart.not_lt) t ht
    obtain ⟨hv, hrv⟩ := (cut_holds hd hxg hrem).mp ⟨t, ht, htg.holds_start⟩
    exact hrv ((hholds _).mpr hv)
  have hrest : ∀ y ∈ cr.items, y ≠ x → y.cut rem = [y.fix] := fun y hy hne =>
    cut_of_disjoint hd (h.grid y hy) hrem fun v hv hrv => hne (hother y hy v hv hrv)
  refine ⟨cr', ?_, h', fun s => ⟨?_, ?_⟩⟩
  · rw [ChoppyRange.remove, insert_eq (.inl rfl)]
    show (subtractOne cr rem >>= pure) = _
    rw [bind_pure, hok]
  · rintro ⟨y, hy, rfl⟩
    have hkept : ∀ z ∈ cr.items, z ≠ x → z.fix ≠ rem.fix := fun z hz hne hz' => by
      have hzg := h.grid z hz
      exact hne (hother z hz _ hzg.holds_start (by rw [start_of_fix hz']; exact hrem.holds_start))
    rcases (hmem y).mp hy with ⟨hyl, hfar⟩ | ⟨z, hz, hyz⟩
    · exact ⟨⟨y, hyl, rfl⟩, hkept y hyl fun hyx => hfar (hyx ▸ hnear)⟩
    · have hzl := h.near_subset hz
      have hne : z ≠ x := fun hzx => hself y (hzx ▸ hyz)
      rw [hrest z hzl hne, mem_singleton] at hyz
      rw [hyz, (h.grid z hzl).fix_fix hd]
      exact ⟨⟨z, hzl, rfl⟩, hkept z hzl hne⟩
  · rintro ⟨⟨y, hy, rfl⟩, hne⟩
    have hyx : y ≠ x := fun hyx => hne (hyx ▸ hfix)
    by_cases hyn : y ∈ near cr.items rem
    · refine ⟨y.fix, (hmem _).mpr (.inr ⟨y, hyn, ?_⟩), (h.grid y hy).fix_fix hd⟩
      rw [hrest y hy hyx]
      exact mem_singleton_self _
    · exact ⟨y, (hmem y).mpr (.inl ⟨hy, hyn⟩), rfl⟩

/-! ## What takes the place of the neighbours -/

structure Joined (d r : ℤ) (e : RangeTuple) (M : RangeTuple → Prop) (t : RangeTuple) : Prop where
  grid : OnGrid d r t
  holds : ∀ v, t.Holds v ↔ e.Holds v ∨ ∃ x, M x ∧ x.Holds v
  start : t.start = e.start ∨ ∃ x, M x ∧ t.start = x.start
  last : t.last = e.last ∨ ∃ x, M x ∧ t.last = x.last

lemma Joined.refl (he : OnGrid d r e) : Joined d r e (fun _ => False) e :=
  ⟨he, by simp, .inl rfl, .inl rfl⟩

lemma Joined.hull (hd : 0 < d) (he : OnGrid d r e) {M : RangeTuple → Prop} (ht : Joined d r e M t)
    (hx : OnGrid d r x) (htouch : e.Touches d x) : t.union (e.hull x) = .ok [t.hull (e.hull x)] ∧
      Joined d r e (fun y => M y ∨ y = x) (t.hull (e.hull x)) := by
  obtain ⟨hg, hl, hh⟩ := hull_spec hd he hx htouch
  -- both hold the start of `e`
  have htouch' : t.Touches d (e.hull x) := touches_of_holds hd ht.grid hg
    ((ht.holds _).mpr (.inl he.holds_start)) ((hh _).mpr (.inl he.holds_start))
  obtain ⟨hg', hl', hh'⟩ := hull_spec hd ht.grid hg htouch'
  have hold : ∀ {p : RangeTuple → Prop}, (∃ y, M y ∧ p y) → ∃ y, (M y ∨ y = x) ∧ p y :=
    fun ⟨y, hy, h⟩ => ⟨y, .inl hy, h⟩
  refine ⟨union_eq hd ht.grid hg htouch', hg', fun v => ?_, ?_, ?_⟩
  · rw [hh', hh, ht.holds]
    simp only [or_and_right, exists_or, exists_eq_left]
    rw [or_or_or_comm, or_self]
  · show min t.start (min e.start x.start) = _ ∨ ∃ y, (M y ∨ y = x) ∧ min t.start (min e.start x.start) = _
    rcases min_choice t.start (min e.start x.start) with h | h <;> rw [h]
    · exact ht.start.imp id hold
    · exact (min_choice e.start x.start).imp id fun h => ⟨x, .inr rfl, h⟩
  · rw [hl', hl]
    rcases max_choice t.last (max e.last x.last) with h | h <;> rw [h]
    · exact ht.last.imp id hold
    · exact (max_choice e.last x.last).imp id fun h => ⟨x, .inr rfl, h⟩

lemma replacement_eq (hd : 0 < d) (he : OnGrid d r e) {o : Option RangeTuple}
    (ho : ∀ x ∈ o, OnGrid d r x) : replacement e o =
      .ok ((o.toList.filter (fun x => decide (e.Touches d x))).map (fun x => (x, e.hull x))) := by
  cases o with
  | none => rfl
  | some x =>
    have hx := ho x rfl
    obtain ⟨o, j, ho, hj, hoj⟩ := isOverlapping_or_isAdjacent hd he hx
    simp only [replacement, ho, hj, bind, Except.bind, hoj]
    by_cases htouch : e.Touches d x
    · simp [htouch, union_eq hd he hx htouch, pure, Except.pure]
    · simp [htouch, pure, Except.pure]

lemma replaceAll_spec (hd : 0 < d) (he : OnGrid d r e) {ms : List RangeTuple} :
    ∀ {cr : ChoppyRange} {o : Option RangeTuple} {M : RangeTuple → Prop}, Proper d r cr →
      Joined d r e M (o.getD e) → (∀ x ∈ ms, OnGrid d r x ∧ e.Touches d x ∧ cr.Has x.fix) →
      ms.Pairwise (fun x y => y.fix ≠ x.fix) →
      ∃ cr' o', cr.replaceAll o (ms.map fun x => (x, e.hull x)) = .ok (cr', o') ∧ Proper d r cr' ∧
        (∀ s, cr'.Has s ↔ cr.Has s ∧ ∀ x ∈ ms, s ≠ x.fix) ∧
        Joined d r e (fun y => M y ∨ y ∈ ms) (o'.getD e) := by
  induction ms with
  | nil => exact fun {cr o M} h ht _ _ => ⟨cr, o, rfl, h, by simp, by simpa using ht⟩
  | cons x ms ih =>
    intro cr o M h ht hms hpair
    obtain ⟨⟨hx, htouch, hhas⟩, hms⟩ := forall_mem_cons.mp hms
    obtain ⟨hfirst, hpair⟩ := pairwise_cons.mp hpair
    obtain ⟨cr₁, hok₁, h₁, hhas₁⟩ := h.remove hd hx hhas
    obtain ⟨hunion, hjoined⟩ := ht.hull hd he hx htouch
    have hM : (fun y => (M y ∨ y = x) ∨ y ∈ ms) = fun y => M y ∨ y ∈ x :: ms := by
      funext y
      simp only [mem_cons, or_assoc]
    obtain ⟨cr', o', hok', h', hhas', hjoined'⟩ := ih (o := some ((o.getD e).hull (e.hull x))) h₁ hjoined
      (fun y hy => ⟨(hms y hy).1, (hms y hy).2.1, (hhas₁ _).mpr ⟨(hms y hy).2.2, hfirst y hy⟩⟩) hpair
    refine ⟨cr', o', ?_, h', fun s => ?_, hM ▸ hjoined'⟩
    · rw [← hok', map_cons, replaceAll, hok₁]
      cases o with
      | none =>
        have hself : e.hull (e.hull x) = e.hull x := by
          rw [RangeTuple.hull, (hull_spec hd he hx htouch).2.1]
          simp [RangeTuple.hull]
        rw [Option.getD_none, hself]
        rfl
      | some t =>
        rw [Option.getD_some] at hunion ⊢
        simp only [hunion, bind, bind]
        rfl
    · rw [hhas', hhas₁, forall_mem_cons, and_assoc]

def Touched (d : ℤ) (cr : ChoppyRange) (e x : RangeTuple) : Prop := x ∈ near cr.items e ∧ e.Touches d x

lemma unite_eq (hd : 0 < d) (h : Proper d r cr) (he : OnGrid d r e) (nextFirst : RangeTuple → Bool) :
    ∃ cr' t, unite nextFirst cr e = cr'.insert t ∧ Proper d r cr' ∧
      (∀ s, cr'.Has s ↔ cr.Has s ∧ ∀ x, Touched d cr e x → s ≠ x.fix) ∧
      Joined d r e (Touched d cr e) t := by
  have hgrid : ∀ x ∈ near cr.items e, OnGrid d r x := fun x hx => h.grid x (h.near_subset hx)
  -- the touched neighbours, in the order in which they are popped
  obtain ⟨ms, hperm, hms⟩ : ∃ ms : List RangeTuple,
      ms.Perm ((near cr.items e).filter fun x => decide (e.Touches d x)) ∧ unite nextFirst cr e =
        cr.replaceAll none (ms.map fun x => (x, e.hull x)) >>= fun p => p.1.insert (p.2.getD e) := by
    have hp := replacement_eq hd he fun x hx => hgrid x (mem_near.mpr (.inl hx))
    have hn := replacement_eq hd he fun x hx => hgrid x (mem_near.mpr (.inr hx))
    simp only [unite, hp, hn, near, filter_append]
    show ∃ ms : List RangeTuple, _ ∧ (cr.replaceAll none (if nextFirst e then _ else _) >>= _) = _
    simp only [← map_append]
    split_ifs
    · refine ⟨_, perm_append_comm, bind_congr ?_⟩
      rintro ⟨cr, _ | t⟩ <;> rfl
    · refine ⟨_, .refl _, bind_congr ?_⟩
      rintro ⟨cr, _ | t⟩ <;> rfl
  have hmem : ∀ x, x ∈ ms ↔ Touched d cr e x := fun x => by
    rw [hperm.mem_iff, mem_filter, decide_eq_true_iff, Touched]
  have hpair : ms.Pairwise (fun x y => y.fix ≠ x.fix) := by
    refine (hperm.pairwise_iff fun hxy => hxy.symm).mpr ?_
    refine (h.near_pairwise.sublist filter_sublist).imp_of_mem fun {x y} hx hy hxy hfix => ?_
    have hxg := hgrid x (mem_filter.mp hx).1
    refine hxy x.start hxg.holds_start ?_
    rw [← start_of_fix hfix]
    exact (hgrid y (mem_filter.mp hy).1).holds_start
  obtain ⟨cr', o, hok, h', hhas, hjoined⟩ := replaceAll_spec hd he (o := none) h (.refl he)
    (fun x hx => ⟨hgrid x ((hmem x).mp hx).1, ((hmem x).mp hx).2,
      ⟨x, h.near_subset ((hmem x).mp hx).1, rfl⟩⟩) hpair
  refine ⟨cr', o.getD e, ?_, h', fun s => ?_, ?_⟩
  · rw [hms, hok]
    rfl
  · simp only [hhas, hmem]
  · simpa only [false_or, hmem] using hjoined

/-! ## The values -/

lemma Proper.has_of_not_touched (h : Proper d r cr) (hx : x ∈ cr.items) (hne : ¬Touched d cr e x) :
    ∀ y, Touched d cr e y → x.fix ≠ y.fix := by
  intro y hy hfix
  have hyl := h.near_subset hy.1
  have hyx : y = x := h.eq_of_holds hyl hx (h.grid y hyl).holds_start
    (start_of_fix hfix ▸ (h.grid x hx).holds_start)
  exact hne (hyx ▸ hy)

lemma unite_spec (hd : 0 < d) (h : Proper d r cr) (he : OnGrid d r e) (nextFirst : RangeTuple → Bool)
    (hone : Reached cr.items e) :
    ∃ U t, unite nextFirst cr e = .ok U ∧ Proper d r U ∧ Joined d r e (Touched d cr e) t ∧
      ∀ s, U.Has s ↔ (cr.Has s ∧ ∀ x, Touched d cr e x → s ≠ x.fix) ∨ s = t.fix := by
  obtain ⟨cr', t, hok, h', hhas, ht⟩ := unite_eq hd h he nextFirst
  have hapart : ∀ y ∈ cr'.items, ¬t.Overlaps y := by
    intro y hy ho
    obtain ⟨v, hv, hyv⟩ := (ht.grid.overlaps_iff (h'.grid y hy)).mp ho
    obtain ⟨⟨x, hx, hfix⟩, hne⟩ := (hhas y.fix).mp ⟨y, hy, rfl⟩
    have hxg := h.grid x hx
    have hxv : x.Holds v := (holds_of_fix hd hxg (h'.grid y hy) hfix).mpr hyv
    rcases (ht.holds v).mp hv with hev | ⟨z, hz, hzv⟩
    · have hnear := (h.reached_iff he).mp hone x hx v hxv hev
      exact hne x ⟨hnear, touches_of_holds hd he hxg hev hxv⟩ hfix.symm
    · obtain rfl := h.eq_of_holds hx (h.near_subset hz.1) hxv hzv
      exact hne x hz hfix.symm
  obtain ⟨U, hU, hproper, hmem⟩ := h'.insertAll (l := [t]) (forall_mem_singleton.mpr ht.grid)
    (pairwise_singleton _ _) (forall_mem_singleton.mpr hapart)
  refine ⟨U, t, ?_, hproper, ht, fun s => ?_⟩
  · rw [hok]
    exact (bind_pure _).symm.trans hU
  · rw [← hhas, Has, Has]
    simp only [hmem, mem_singleton, or_and_right, exists_or, exists_eq_left]
    rw [eq_comm (a := s)]

lemma unite_values (hd : 0 < d) (h : Proper d r cr) {U : ChoppyRange} (hU : Proper d r U)
    (ht : Joined d r e (Touched d cr e) t)
    (hhas : ∀ s, U.Has s ↔ (cr.Has s ∧ ∀ x, Touched d cr e x → s ≠ x.fix) ∨ s = t.fix) (v : ℤ) :
    v ∈ U.values ↔ v ∈ cr.values ∨ e.Holds v := by
  rw [hU.values_iff_has hd, h.mem_values hd]
  constructor
  · rintro ⟨s, hs, hv⟩
    rcases (hhas s).mp hs with ⟨⟨x, hx, rfl⟩, -⟩ | rfl
    · exact .inl ⟨x, hx, ((h.grid x hx).holds_fix hd).mp hv⟩
    · rcases (ht.holds v).mp ((ht.grid.holds_fix hd).mp hv) with hev | ⟨x, hx, hxv⟩
      · exact .inr hev
      · exact .inl ⟨x, h.near_subset hx.1, hxv⟩
  · intro hv
    by_cases htv : t.Holds v
    · exact ⟨t.fix, (hhas _).mpr (.inr rfl), (ht.grid.holds_fix hd).mpr htv⟩
    · obtain ⟨hev, hno⟩ := not_or.mp (mt (ht.holds v).mpr htv)
      obtain ⟨x, hx, hxv⟩ := hv.resolve_right hev
      have hkept := h.has_of_not_touched (d := d) (e := e) hx fun htx => hno ⟨x, htx, hxv⟩
      exact ⟨x.fix, (hhas _).mpr (.inl ⟨⟨x, hx, rfl⟩, hkept⟩), ((h.grid x hx).holds_fix hd).mpr hxv⟩

lemma reached_of_unite (hd : 0 < d) (h : Proper d r cr) (he : OnGrid d r e)
    {nextFirst : RangeTuple → Bool} {U : ChoppyRange} (hok : unite nextFirst cr e = .ok U)
    (hU : Proper d r U) (hstart : e.start ∈ U.values) : Reached cr.items e := by
  obtain ⟨cr', t, hins, h', hhas, ht⟩ := unite_eq hd h he nextFirst
  rw [h.reached_iff he]
  intro x hx v hv hev
  by_contra hfar
  -- `x` is still there, and in the way of `t`
  obtain ⟨y, hy, hfix⟩ := (hhas x.fix).mpr ⟨⟨x, hx, rfl⟩, h.has_of_not_touched hx fun ht => hfar ht.1⟩
  have hyg := h'.grid y hy
  have hyv : y.Holds v := (holds_of_fix hd hyg (h.grid x hx) hfix).mpr hv
  have hover : t.Overlaps y := (ht.grid.overlaps_iff hyg).mpr ⟨v, (ht.holds v).mpr (.inl hev), hyv⟩
  have hadd : add cr'.items t = .error .overlap := (add_error_iff h'.valid).mpr ⟨y, hy, hover⟩
  rw [hins, insert_eq (ht.grid.step ▸ h'.step), hadd] at hok
  simp only at hok
  split_ifs at hok
  cases ok.inj hok
  -- the start of `e` was in a neighbour, if it was there at all
  obtain ⟨z, hz, hzv⟩ := (hU.mem_values hd).mp hstart
  obtain ⟨⟨w, hw, hwz⟩, hne⟩ := (hhas z.fix).mp ⟨z, hz, rfl⟩
  have hwg := h.grid w hw
  have hwv : w.Holds e.start := (holds_of_fix hd hwg (h'.grid z hz) hwz).mpr hzv
  exact hne w ⟨h.near_of_holds_start hw hwv, touches_of_holds hd he hwg he.holds_start hwv⟩ hwz.symm

/-! ## Elements that are adjacent -/

def Coalesced (d : ℤ) (cr : ChoppyRange) : Prop := ∀ x ∈ cr.items, ∀ y ∈ cr.items, x.last + d ≠ y.start

instance (d : ℤ) (cr : ChoppyRange) : Decidable (Coalesced d cr) :=
  inferInstanceAs (Decidable (∀ x ∈ cr.items, ∀ y ∈ cr.items, _))

def Clear (d : ℤ) (l : IntervalSet) (e : RangeTuple) : Prop :=
  ∀ x ∈ l, ∀ y ∈ l, e.start < x.start ∧ x.start ≤ e.last + d → e.start < y.start ∧ y.start ≤ e.last + d →
    x = y

instance (d : ℤ) (l : IntervalSet) (e : RangeTuple) : Decidable (Clear d l e) :=
  inferInstanceAs (Decidable (∀ x ∈ l, ∀ y ∈ l, _ → _ → _))

section

variable (hd : 0 < d) (h : Proper d r cr)
include hd h

lemma Proper.coalesced_iff : Coalesced d cr ↔ ∀ s s', cr.Has s → cr.Has s' → s.last + d ≠ s'.start := by
  constructor
  · rintro hc _ _ ⟨x, hx, rfl⟩ ⟨y, hy, rfl⟩
    rw [(h.grid x hx).last_fix hd]
    exact hc x hx y hy
  · intro hc x hx y hy
    have := hc x.fix y.fix ⟨x, hx, rfl⟩ ⟨y, hy, rfl⟩
    rwa [(h.grid x hx).last_fix hd] at this

lemma Proper.near_of_adjacent (he : OnGrid d r e) (hc : Coalesced d cr)
    (hclear : Clear d cr.items e) (hx : x ∈ cr.items) (hadj : e.last + d = x.start) :
    x ∈ near cr.items e := by
  obtain ⟨hes, hestop, -, hel⟩ := he.last_spec hd
  have hle : ¬x.le e := fun hle => absurd (start_le_of_le hle) (by omega)
  obtain ⟨n, hn, rfl | hlt⟩ := exists_next h.valid hx hle
  · exact mem_near.mpr (.inr hn)
  obtain ⟨hmem, hne⟩ := mem_of_next h.valid hn
  obtain ⟨hns, hnl, hnstop, hnd⟩ := (h.grid n hmem).last_spec hd
  have hen := start_le_of_not_le hne
  rcases hen.eq_or_lt with heq | hgt
  · -- `n` begins with `e` and ends behind it, so that it has the same last value
    have hstop : e.stop ≤ n.stop := by
      simp only [RangeTuple.le, Bool.or_eq_true, Bool.and_eq_true, decide_eq_true_eq] at hne
      omega
    have hlast := ((h.grid n hmem).le_last_iff hd hel).mpr (by omega)
    have : e.last < n.last → e.last + d ≤ n.last := add_le_of_lt hel hnd
    exact absurd (show n.last + d = x.start by omega) (hc n hmem x hx)
  · have := hclear n hmem x hx ⟨hgt, by omega⟩ ⟨by omega, by omega⟩
    subst this
    omega

lemma Proper.near_of_adjacent_before (hc : Coalesced d cr) (hx : x ∈ cr.items)
    (hadj : x.last + d = e.start) : x ∈ near cr.items e := by
  obtain ⟨hxs, hxl, -, hxd⟩ := (h.grid x hx).last_spec hd
  obtain ⟨p, hp, rfl | hlt⟩ := exists_prev h.valid hx (le_of_start_lt (show x.start < e.start by omega))
  · exact mem_near.mpr (.inl hp)
  · obtain ⟨hmem, hpe⟩ := mem_of_prev hp
    have hps := start_le_of_le hpe
    have := add_le_of_lt hxd (h.grid p hmem).start (by omega)
    exact absurd (show x.last + d = p.start by omega) (hc x hx p hmem)

lemma unite_coalesced (he : OnGrid d r e) (hc : Coalesced d cr) {U : ChoppyRange}
    (hU : Proper d r U) (ht : Joined d r e (Touched d cr e) t)
    (hhas : ∀ s, U.Has s ↔ (cr.Has s ∧ ∀ x, Touched d cr e x → s ≠ x.fix) ∨ s = t.fix)
    (hclear : Clear d cr.items e) : Coalesced d U := by
  have hes := (he.last_spec hd).1
  have hts := (ht.grid.last_spec hd).1
  have hkeep : ∀ {x}, Touched d cr e x → x ∈ cr.items := fun hx => h.near_subset hx.1
  rw [hU.coalesced_iff hd]
  intro s s' hs hs' hadj
  rcases (hhas s).mp hs with ⟨⟨x, hx, rfl⟩, hne⟩ | rfl
  · have hxs := ((h.grid x hx).last_spec hd).1
    rw [(h.grid x hx).last_fix hd] at hadj
    rcases (hhas s').mp hs' with ⟨⟨y, hy, rfl⟩, -⟩ | rfl
    · exact hc x hx y hy hadj
    · rcases ht.start with hst | ⟨z, hz, hst⟩
      · have hadj : x.last + d = e.start := hadj.trans hst
        exact hne x ⟨h.near_of_adjacent_before hd hc hx hadj, by omega, hadj.ge⟩ rfl
      · exact hc x hx z (hkeep hz) (hadj.trans hst)
  · rw [ht.grid.last_fix hd] at hadj
    rcases (hhas s').mp hs' with ⟨⟨y, hy, rfl⟩, hne⟩ | rfl
    · have hys := ((h.grid y hy).last_spec hd).1
      rcases ht.last with hlast | ⟨z, hz, hlast⟩
      · have hadj : e.last + d = y.start := hlast ▸ hadj
        exact hne y ⟨h.near_of_adjacent hd he hc hclear hy hadj, hadj.ge, by omega⟩ rfl
      · exact hc z (hkeep hz) y hy (hlast ▸ hadj)
    · have hadj : t.last + d = t.start := hadj
      omega

lemma clear_of_coalesced (he : OnGrid d r e) (hone : Reached cr.items e) {U : ChoppyRange}
    (hU : Proper d r U) (ht : Joined d r e (Touched d cr e) t)
    (hhas : ∀ s, U.Has s ↔ (cr.Has s ∧ ∀ x, Touched d cr e x → s ≠ x.fix) ∨ s = t.fix)
    (hcU : Coalesced d U) : Clear d cr.items e := by
  obtain ⟨hes, -, -, hel⟩ := he.last_spec hd
  have hnext : ∀ {x}, e.start < x.start → x ∈ near cr.items e →
      (neighbors cr.items e).2 = some x := fun hlt hx =>
    (mem_near.mp hx).resolve_left fun hp =>
      absurd (start_le_of_le (mem_of_prev hp).2) (not_le.mpr hlt)
  have hnear : ∀ {x}, x ∈ cr.items → e.start < x.start → x.start ≤ e.last →
      (neighbors cr.items e).2 = some x := fun {x} hx hlt hle => by
    have hxg := h.grid x hx
    exact hnext hlt ((h.reached_iff he).mp hone x hx x.start hxg.holds_start
      ((he.holds_iff_last hd).mpr ⟨hxg.start, hlt.le, hle⟩))
  have hno : ∀ x ∈ cr.items, ∀ y ∈ cr.items, e.start < x.start ∧ x.start ≤ e.last + d →
      e.start < y.start ∧ y.start ≤ e.last + d → ¬x.start < y.start := by
    intro x hx y hy ⟨hex, hxe⟩ ⟨hey, hye⟩ hlt
    have hxy := add_le_of_lt (h.grid x hx).start (h.grid y hy).start hlt
    -- `x` is the neighbour behind `e`, so `y` is none, and begins right behind `e`
    have hother : (neighbors cr.items e).2 ≠ some y := fun hy => by
      cases (hnear hx hex (by omega)).symm.trans hy
      exact lt_irrefl _ hlt
    have hye' : y.start = e.last + d := by
      have hlast : e.last < y.start := not_le.mp fun hle => hother (hnear hy hey hle)
      have := add_le_of_lt hel (h.grid y hy).start hlast
      omega
    obtain ⟨b, hb, hbfix⟩ := (hhas y.fix).mpr (.inl ⟨⟨y, hy, rfl⟩,
      h.has_of_not_touched hy fun hty => hother (hnext hey hty.1)⟩)
    obtain ⟨a, ha, hafix⟩ := (hhas t.fix).mpr (.inr rfl)
    have hag := hU.grid a ha
    have hbg := hU.grid b hb
    have hb' := start_of_fix hbfix
    have hin : ∀ v, e.Holds v → a.Holds v := fun v hv =>
      (holds_of_fix hd hag ht.grid hafix).mpr ((ht.holds v).mpr (.inl hv))
    have has := (hin _ he.holds_start).1
    have hal := ((hag.holds_iff_last hd).mp (hin _ ((he.holds_iff_last hd).mpr ⟨hel, hes, le_rfl⟩))).2.2
    have hal' : e.last < a.last → e.last + d ≤ a.last := add_le_of_lt hel (hag.last_spec hd).2.2.2
    -- if `a` is not adjacent to `b`, it holds the start of `b`
    have hne := hcU a ha b hb
    have hshare : a.Holds b.start := (hag.holds_iff_last hd).mpr ⟨hbg.start, by omega, by omega⟩
    cases hU.eq_of_holds ha hb hshare hbg.holds_start
    omega
  intro x hx y hy hmx hmy
  have hstart : x.start = y.start := le_antisymm (not_lt.mp (hno y hy x hx hmy hmx))
    (not_lt.mp (hno x hx y hy hmx hmy))
  exact h.eq_of_holds hx hy (h.grid x hx).holds_start (hstart ▸ (h.grid y hy).holds_start)

end

def Unitable (d : ℤ) (k : Prop) (cr : ChoppyRange) (e : RangeTuple) : Prop :=
  Reached cr.items e ∧ (k → Clear d cr.items e)

lemma unite_iff (hd : 0 < d) {k : Prop} (h : Proper d r cr) (hc : k → Coalesced d cr) (he : OnGrid d r e)
    (nextFirst : RangeTuple → Bool) :
    (∃ U, unite nextFirst cr e = .ok U ∧ Proper d r U ∧ (k → Coalesced d U) ∧
      ∀ v, v ∈ U.values ↔ v ∈ cr.values ∨ e.Holds v) ↔ Unitable d k cr e := by
  constructor
  · rintro ⟨U, hok, hU, hcU, hv⟩
    have hone := reached_of_unite hd h he hok hU ((hv _).mpr (.inr he.holds_start))
    obtain ⟨U', t, hok', -, ht, hhas⟩ := unite_spec hd h he nextFirst hone
    cases hok.symm.trans hok'
    exact ⟨hone, fun hk => clear_of_coalesced hd h he hone hU ht hhas (hcU hk)⟩
  · rintro ⟨hone, hclear⟩
    obtain ⟨U, t, hok, hU, ht, hhas⟩ := unite_spec hd h he nextFirst hone
    exact ⟨U, hok, hU, fun hk => unite_coalesced hd h he (hc hk) hU ht hhas (hclear hk),
      unite_values hd h hU ht hhas⟩

def United (d r : ℤ) (k : Prop) (U : ChoppyRange) (es : List RangeTuple) (C : ChoppyRange) : Prop :=
  Proper d r C ∧ (k → Coalesced d C) ∧ ∀ v, v ∈ C.values ↔ v ∈ U.values ∨ ∃ e ∈ es, e.Holds v

lemma unite_prefixes_iff (hd : 0 < d) {k : Prop} (h : Proper d r cr) (hc : k → Coalesced d cr)
    {es : List RangeTuple} (hes : ∀ e ∈ es, OnGrid d r e) (nextFirst : RangeTuple → Bool) :
    (∀ es', es' <+: es → ∃ C, es'.foldlM (unite nextFirst) cr = .ok C ∧ United d r k cr es' C) ↔
      Fallible.Guarded (unite nextFirst) (Unitable d k) cr es := by
  refine Fallible.prefixes_iff (I := fun U => Proper d r U ∧ (k → Coalesced d U)) (P := OnGrid d r)
    (fun U hU => ⟨hU.1, hU.2, fun v => by simp⟩) (fun U e hU he => ?_) (fun hr => ⟨hr.1, hr.2.1⟩)
    (fun {U e C} hr es C' => ?_) ⟨h, hc⟩ hes
  · simpa only [United, mem_singleton, exists_eq_left] using unite_iff hd hU.1 hU.2 he nextFirst
  · simp [United, hr.2.2, or_assoc]

lemma union_eq_foldlM (A : ChoppyRange) (nextFirst : RangeTuple → Bool) (crs : List ChoppyRange)
    (inPlace : Bool) : A.union nextFirst crs inPlace =
      (crs.flatMap (·.items)).foldlM (unite nextFirst) (if inPlace then A else A.copy) >>=
        fun C => pure (C, if inPlace then C else A) := rfl

theorem union_values_iff {A : ChoppyRange} {L : List ChoppyRange} (hd : 0 < d) (hA : Proper d r A)
    (hB : ∀ B ∈ L, Proper d r B) (nextFirst : RangeTuple → Bool) (inPlace : Bool) :
    (∀ crs : List ChoppyRange, crs.flatMap (·.items) <+: L.flatMap (·.items) →
      ∃ C A', A.union nextFirst crs inPlace = .ok (C, A') ∧ Proper d r C ∧
        (∀ v, v ∈ C.values ↔ v ∈ A.values ∨ ∃ B ∈ crs, v ∈ B.values) ∧
        (Coalesced d A → Coalesced d C) ∧ (inPlace = false → A' = A)) ↔
      Fallible.Guarded (unite nextFirst) (Unitable d (Coalesced d A)) (if inPlace then A else A.copy)
        (L.flatMap (·.items)) := by
  have hBs : ∀ e ∈ L.flatMap (·.items), OnGrid d r e := fun e he => by
    obtain ⟨B, hmem, he⟩ := mem_flatMap.mp he
    exact (hB B hmem).grid e he
  have hvalues : ∀ {crs : List ChoppyRange}, crs.flatMap (·.items) <+: L.flatMap (·.items) → ∀ v,
      (∃ B ∈ crs, v ∈ B.values) ↔ ∃ e ∈ crs.flatMap (·.items), e.Holds v := by
    intro crs hcrs v
    have hstep : ∀ e ∈ crs.flatMap (·.items), 0 < e.step := fun e he =>
      (hBs e (hcrs.subset he)).step.symm ▸ hd
    constructor
    · rintro ⟨B, hmem, hv⟩
      obtain ⟨e, he, hv⟩ := mem_flatMap.mp hv
      have he := mem_flatMap.mpr ⟨B, hmem, he⟩
      exact ⟨e, he, (RangeTuple.mem_values (hstep e he)).mp hv⟩
    · rintro ⟨e, he, hv⟩
      obtain ⟨B, hmem, heB⟩ := mem_flatMap.mp he
      exact ⟨B, hmem, mem_flatMap.mpr ⟨e, heB, (RangeTuple.mem_values (hstep e he)).mpr hv⟩⟩
  -- the loop begins with the items of `A` in either case
  obtain ⟨S, hS⟩ : ∃ S, S = if inPlace then A else A.copy := ⟨_, rfl⟩
  have hitems : S.items = A.items := by
    rw [hS]
    split_ifs <;> rfl
  have hproper : Proper d r S := by
    rw [hS]
    split_ifs
    · exact hA
    · exact ⟨hA.step, hA.grid, hA.sorted, hA.disjoint⟩
  have hcoalesced : Coalesced d A → Coalesced d S := by
    rw [Coalesced, Coalesced, hitems]
    exact id
  have hsame : S.values = A.values := by rw [values, values, hitems]
  rw [← hS, ← unite_prefixes_iff hd hproper hcoalesced hBs nextFirst]
  simp only [union_eq_foldlM, ← hS, United, hsame]
  constructor
  · intro hall es hes
    have hone : [({ items := es } : ChoppyRange)].flatMap (·.items) = es := by simp
    obtain ⟨C, A', hok, hC, hv, hc, -⟩ := hall [{ items := es }] (hone.symm ▸ hes)
    simp only [hvalues (hone.symm ▸ hes), hone] at hok hv
    cases hfold : es.foldlM (unite nextFirst) S with
    | error e =>
      rw [hfold] at hok
      cases hok
    | ok C' =>
      rw [hfold] at hok
      cases hok
      exact ⟨_, rfl, hC, hc, hv⟩
  · intro hall crs hcrs
    obtain ⟨C, hok, hC, hc, hv⟩ := hall _ hcrs
    refine ⟨C, if inPlace then C else A, ?_, hC, fun v => ?_, hc, fun h => by rw [h]; rfl⟩
    · rw [hok]
      rfl
    · rw [hv, hvalues hcrs]

theorem union_values_joined :
    ∃ C A', union (fun _ => true) { items := [⟨0, 1, 1⟩, ⟨4, 5, 1⟩, ⟨9, 9, 1⟩] }
        [{ items := [⟨2, 3, 1⟩] }] false = .ok (C, A') ∧
      Proper 1 0 C ∧ (∀ v, v ∈ C.values ↔
        v ∈ values { items := [⟨0, 1, 1⟩, ⟨4, 5, 1⟩, ⟨9, 9, 1⟩] } ∨
          ∃ B ∈ [{ items := [⟨2, 3, 1⟩] }], v ∈ values B) ∧
      (Coalesced 1 { items := [⟨0, 1, 1⟩, ⟨4, 5, 1⟩, ⟨9, 9, 1⟩] } → Coalesced 1 C) ∧
      (false = false → A' = { items := [⟨0, 1, 1⟩, ⟨4, 5, 1⟩, ⟨9, 9, 1⟩] }) :=
  (union_values_iff (d := 1) (r := 0) (L := [{ items := [⟨2, 3, 1⟩] }]) (by decide) (by decide) (by decide)
    (fun _ => true) false).mpr ⟨⟨by decide, fun _ => by decide⟩, fun _ _ => trivial⟩ _ (prefix_refl _)

theorem union_spanning :
    Proper 1 0 { items := [⟨0, 0, 1⟩, ⟨2, 2, 1⟩, ⟨4, 4, 1⟩], step := some 1 } ∧
      Proper 1 0 { items := [⟨1, 5, 1⟩], step := some 1 } ∧
      union (fun _ => false) { items := [⟨0, 0, 1⟩, ⟨2, 2, 1⟩, ⟨4, 4, 1⟩], step := some 1 }
        [{ items := [⟨1, 5, 1⟩], step := some 1 }] false = .error .overlap :=
  ⟨by decide, by decide, by rfl⟩

end ChoppyRange

end Urb
