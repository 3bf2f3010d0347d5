/-
# `Urb.RangeCuts` — subtraction and intersection of ranges

Both operations look at the two neighbours of each element of the other range only:

    subtract        cuts the element out of its neighbours, in the set as it is by then
    intersection    collects what the neighbours and the element share

An element within which two elements of the set begin shares values with a third one, which
neither operation looks at.  So the intersection is right exactly if there is none
(`intersection_values_iff`), apart from an empty range, whose intersection with another one is
that other one.  The subtraction leaves a proper range without the values of the other one
exactly if in addition no element is cut raggedly (`subtract_values_iff`).
-/
import Urb.RangeAlgebra

namespace Urb

open List IntervalSet

namespace ChoppyRange

open RangeTuple

variable {d r : ℤ} {cr : ChoppyRange} {t x e : RangeTuple}

/-! ## Intersection -/

def overlaps (l : IntervalSet) (e : RangeTuple) : List RangeTuple :=
  if near l e = [] then [e] else (near l e).filterMap (·.meet e)

lemma foldlM_meet (hd : 0 < d) (he : OnGrid d r e) {nl : List RangeTuple} (hnl : ∀ n ∈ nl, OnGrid d r n) :
    ∀ cr : ChoppyRange, nl.foldlM (fun result n => do match ← n.intersection e with
      | none => return result
      | some overlap => result.insert overlap) cr = (nl.filterMap (·.meet e)).foldlM insert cr := by
  induction nl with
  | nil => exact fun _ => rfl
  | cons n nl ih =>
    intro cr
    obtain ⟨hn, hrest⟩ := forall_mem_cons.mp hnl
    rw [foldlM_cons, intersection_eq hd hn he, filterMap_cons]
    cases n.meet e with
    | none => exact ih hrest cr
    | some o =>
      rw [foldlM_cons]
      exact bind_congr fun cr' => ih hrest cr'

lemma intersection_eq_insertAll {A B : ChoppyRange} (hd : 0 < d) (hA : Proper d r A)
    (hB : ∀ e ∈ B.items, OnGrid d r e) :
    A.intersection B = (B.items.flatMap (overlaps A.items)).foldlM insert {} := by
  unfold intersection
  generalize B.items = es at hB ⊢
  generalize ({} : ChoppyRange) = result
  induction es generalizing result with
  | nil => rfl
  | cons e es ih =>
    obtain ⟨he, hes⟩ := forall_mem_cons.mp hB
    rw [foldlM_cons, flatMap_cons, foldlM_append]
    refine Eq.trans (bind_congr fun cr' => ih hes cr') (congrArg (· >>= _) ?_)
    unfold overlaps near
    dsimp only
    split_ifs
    · rw [foldlM_cons]
      exact (bind_pure _).symm
    · exact foldlM_meet hd he (fun n hn => hA.grid n (hA.near_subset hn)) result

lemma overlaps_spec {A : ChoppyRange} (hd : 0 < d) (hA : Proper d r A) (he : OnGrid d r e) :
    (∀ t ∈ overlaps A.items e, OnGrid d r t ∧ ∀ v, t.Holds v → e.Holds v) ∧
      (overlaps A.items e).Pairwise (fun t t' => ¬t'.Overlaps t) ∧
      (A.items ≠ [] → ∀ v, (∃ t ∈ overlaps A.items e, t.Holds v) ↔
        (∃ x ∈ near A.items e, x.Holds v) ∧ e.Holds v) := by
  have hspec : ∀ x ∈ near A.items e, _ := fun x hx => meet_spec hd (hA.grid x (hA.near_subset hx)) he
  unfold overlaps
  split_ifs with hnil
  · refine ⟨forall_mem_singleton.mpr ⟨he, fun _ => id⟩, pairwise_singleton _ _, fun hne => ?_⟩
    obtain ⟨x, hx⟩ := exists_mem_of_ne_nil _ hne
    exact absurd hnil (hA.near_ne_nil hx)
  · refine ⟨fun t ht => ?_, ?_, fun _ v => ?_⟩
    · obtain ⟨x, hx, hxt⟩ := mem_filterMap.mp ht
      exact ⟨(hspec x hx).1 t hxt, fun v hv => (((hspec x hx).2 v).mp ⟨t, hxt, hv⟩).2⟩
    · rw [pairwise_filterMap]
      refine hA.near_pairwise.imp_of_mem fun {x y} hx hy hxy t ht t' ht' ho => ?_
      obtain ⟨v, hv', hv⟩ := (((hspec y hy).1 t' ht').overlaps_iff ((hspec x hx).1 t ht)).mp ho
      exact hxy v (((hspec x hx).2 v).mp ⟨t, ht, hv⟩).1 (((hspec y hy).2 v).mp ⟨t', ht', hv'⟩).1
    · constructor
      · rintro ⟨t, ht, hv⟩
        obtain ⟨x, hx, hxt⟩ := mem_filterMap.mp ht
        obtain ⟨hxv, hev⟩ := ((hspec x hx).2 v).mp ⟨t, hxt, hv⟩
        exact ⟨⟨x, hx, hxv⟩, hev⟩
      · rintro ⟨⟨x, hx, hxv⟩, hev⟩
        obtain ⟨t, hxt, hv⟩ := ((hspec x hx).2 v).mpr ⟨hxv, hev⟩
        exact ⟨t, mem_filterMap.mpr ⟨x, hx, hxt⟩, hv⟩

theorem intersection_values_iff {A B : ChoppyRange} (hd : 0 < d) (hA : Proper d r A) (hB : Proper d r B) :
    (∃ C, A.intersection B = .ok C ∧ ∀ v, v ∈ C.values ↔ v ∈ A.values ∧ v ∈ B.values) ↔
      (A.items = [] → B.items = []) ∧ ∀ e ∈ B.items, Reached A.items e := by
  have hspec : ∀ e ∈ B.items, _ := fun e he => overlaps_spec hd hA (hB.grid e he)
  have hempty : Proper d r {} := ⟨.inl rfl, nofun, .nil, .nil⟩
  obtain ⟨C, hok, hC, hmem⟩ := hempty.insertAll (l := B.items.flatMap (overlaps A.items))
    (fun t ht => by
      obtain ⟨e, he, ht⟩ := mem_flatMap.mp ht
      exact ((hspec e he).1 t ht).1)
    (pairwise_flatMap.mpr ⟨fun e he => (hspec e he).2.1,
      hB.disjoint.imp_of_mem fun {e e'} he he' hee t ht t' ht' ho => by
        obtain ⟨v, hv', hv⟩ := (((hspec e' he').1 t' ht').1.overlaps_iff ((hspec e he).1 t ht).1).mp ho
        exact hee v (((hspec e he).1 t ht).2 v hv) (((hspec e' he').1 t' ht').2 v hv')⟩)
    fun _ _ _ hx => absurd hx not_mem_nil
  rw [← intersection_eq_insertAll hd hA hB.grid] at hok
  have hvalues : ∀ v, v ∈ C.values ↔ ∃ e ∈ B.items, ∃ t ∈ overlaps A.items e, t.Holds v := by
    intro v
    rw [hC.mem_values hd]
    simp only [hmem, not_mem_nil, false_or, mem_flatMap]
    exact ⟨fun ⟨t, ⟨e, he, ht⟩, hv⟩ => ⟨e, he, t, ht, hv⟩, fun ⟨e, he, t, ht, hv⟩ => ⟨t, ⟨e, he, ht⟩, hv⟩⟩
  have hright : (∃ C, A.intersection B = .ok C ∧ ∀ v, v ∈ C.values ↔ v ∈ A.values ∧ v ∈ B.values) ↔
      ∀ v, v ∈ C.values ↔ v ∈ A.values ∧ v ∈ B.values := by
    rw [hok]
    exact ⟨fun ⟨_, h, hv⟩ => Except.ok.inj h ▸ hv, fun hv => ⟨C, rfl, hv⟩⟩
  rw [hright]
  simp only [hvalues, hA.mem_values hd, hB.mem_values hd]
  by_cases hnil : A.items = []
  · -- every element of `B` is taken over
    have hover : ∀ e, overlaps [] e = [e] := fun e => rfl
    simp only [hover, mem_singleton, exists_eq_left, hnil, not_mem_nil, false_and, exists_false,
      iff_false, true_imp_iff]
    refine ⟨fun h => ⟨eq_nil_iff_forall_not_mem.mpr fun e he =>
      h e.start ⟨e, he, (hB.grid e he).holds_start⟩, fun _ _ _ hx => absurd hx not_mem_nil⟩, ?_⟩
    rintro ⟨hB, -⟩ v ⟨e, he, -⟩
    rw [hB] at he
    cases he
  · refine ⟨fun h => ⟨fun h => absurd h hnil, fun e he => ?_⟩, fun ⟨_, h⟩ v => ⟨?_, ?_⟩⟩
    · rw [hA.reached_iff (hB.grid e he)]
      intro x hx v hv hev
      obtain ⟨e', he', ht⟩ := (h v).mpr ⟨⟨x, hx, hv⟩, e, he, hev⟩
      obtain ⟨⟨x', hx', hv'⟩, hev'⟩ := ((hspec e' he').2.2 hnil v).mp ht
      obtain rfl := hB.eq_of_holds he he' hev hev'
      obtain rfl := hA.eq_of_holds hx (hA.near_subset hx') hv hv'
      exact hx'
    · rintro ⟨e, he, ht⟩
      obtain ⟨⟨x, hx, hv⟩, hev⟩ := ((hspec e he).2.2 hnil v).mp ht
      exact ⟨⟨x, hA.near_subset hx, hv⟩, e, he, hev⟩
    · rintro ⟨⟨x, hx, hv⟩, e, he, hev⟩
      have hmem := (hA.reached_iff (hB.grid e he)).mp (h e he) x hx v hv hev
      exact ⟨e, he, ((hspec e he).2.2 hnil v).mpr ⟨⟨x, hmem, hv⟩, hev⟩⟩

theorem intersection_values_one :
    ∃ C, intersection { items := [⟨1, 3, 2⟩, ⟨9, 11, 2⟩] } { items := [⟨-1, 5, 2⟩] } = .ok C ∧
      ∀ v, v ∈ C.values ↔ v ∈ values { items := [⟨1, 3, 2⟩, ⟨9, 11, 2⟩] } ∧
        v ∈ values { items := [⟨-1, 5, 2⟩] } :=
  (intersection_values_iff (d := 2) (r := 1) (by decide) (by decide) (by decide)).mpr
    ⟨by decide, by decide⟩

theorem intersection_empty :
    Proper 1 0 {} ∧ Proper 1 0 { items := [⟨1, 3, 1⟩], step := some 1 } ∧
      intersection {} { items := [⟨1, 3, 1⟩], step := some 1 } =
        .ok { items := [⟨1, 3, 1⟩], step := some 1 } ∧
      2 ∉ values {} ∧ 2 ∈ values { items := [⟨1, 3, 1⟩], step := some 1 } := by
  have hB : Proper 1 0 { items := [⟨1, 3, 1⟩], step := some 1 } := by decide
  refine ⟨by decide, hB, by rfl, not_mem_nil, (hB.mem_values (by decide)).mpr ?_⟩
  exact ⟨⟨1, 3, 1⟩, by decide, by decide⟩

/-! ## Subtraction -/

def subtractOne (cr : ChoppyRange) (e : RangeTuple) : Except RangeError ChoppyRange := do
  let (prev, next) := IntervalSet.neighbors cr.items e
  let cr ← cr.updateTupleOverlap prev e
  cr.updateTupleOverlap next e

lemma cut_of_disjoint (hd : 0 < d) (hx : OnGrid d r x) (he : OnGrid d r e)
    (h : ∀ v, x.Holds v → ¬e.Holds v) : x.cut e = [x.fix] := by
  refine if_pos ?_
  by_contra hmeet
  obtain ⟨hxe, hex⟩ := not_or.mp hmeet
  rcases le_total x.start e.start with hle | hle
  · exact h e.start ((hx.holds_iff_last hd).mpr ⟨he.start, hle, not_lt.mp hxe⟩) he.holds_start
  · exact h x.start hx.holds_start ((he.holds_iff_last hd).mpr ⟨hx.start, hle, not_lt.mp hex⟩)

lemma cut_eq_of_head (hd : 0 < d) (hx : OnGrid d r x) (he : OnGrid d r e) (h : (x.cut e).head? = some x) :
    x.cut e = [x] := by
  have hno : ∀ v, x.Holds v → ¬e.Holds v := fun v hv =>
    ((cut_holds hd hx he).mp ⟨x, mem_of_head? h, hv⟩).2
  rw [cut_of_disjoint hd hx he hno] at h ⊢
  exact congrArg (fun t => [t]) (Option.some_inj.mp h)

section

variable (hd : 0 < d) (h : Proper d r cr)
include hd h

lemma updateTupleOverlap_eq (hx : x ∈ cr.items) (he : OnGrid d r e) :
    ∃ cr', cr.updateTupleOverlap (some x) e = .ok cr' ∧
      (∀ y, y ∈ cr'.items ↔ (y ∈ cr.items ∧ y ≠ x) ∨ y ∈ x.cut e) ∧ (¬x.Ragged e → Proper d r cr') := by
  have hxg := h.grid x hx
  obtain ⟨hin, hpair⟩ := cut_within hd hxg he
  obtain ⟨herase, hmem⟩ := h.erase x
  simp only [updateTupleOverlap, removeOverlap_eq hd hxg he, bind, Except.bind]
  by_cases hhead : (x.cut e).head? = some x
  · rw [if_pos hhead, cut_eq_of_head hd hxg he hhead]
    refine ⟨cr, rfl, fun y => ?_, fun _ => h⟩
    rw [mem_singleton]
    exact ⟨fun hy => or_iff_not_imp_right.mpr fun hne => ⟨hy, hne⟩, fun hy => hy.elim And.left (· ▸ hx)⟩
  · rw [if_neg hhead, if_neg (not_not.mpr hx)]
    have hapart : ∀ t ∈ x.cut e, ∀ y ∈ cr.items.erase x, ¬t.Overlaps y := by
      intro t ht y hy ho
      obtain ⟨hyl, hne⟩ := (hmem y).mp hy
      obtain ⟨-, -, hstart, hstop⟩ := hin t ht
      have hlast := (hxg.last_spec hd).2.1
      -- `t` lies within `x`, which is apart from `y`
      have hxy : ¬x.Overlaps y := fun hxy => by
        obtain ⟨v, hv, hv'⟩ := (hxg.overlaps_iff (h.grid y hyl)).mp hxy
        exact hne (h.eq_of_holds hyl hx hv' hv)
      exact hxy ⟨ho.1.trans (hstop.trans hlast), hstart.trans ho.2⟩
    obtain ⟨cr', hok, hmem'⟩ := insertAll_apart (c := { cr with items := cr.items.erase x }) herase.step
      (fun t ht => (hin t ht).1) (hpair.imp fun hlt ho => absurd ho.2 (not_le.mpr hlt)) hapart
    exact ⟨cr', hok, fun y => by rw [hmem', hmem], fun hr => herase.insertAll_ok (cut_onGrid hd hxg he hr) hok⟩

lemma updateTupleOverlap_option {o : Option RangeTuple} (ho : ∀ x ∈ o, x ∈ cr.items)
    (he : OnGrid d r e) : ∃ cr', cr.updateTupleOverlap o e = .ok cr' ∧
      (∀ y, y ∈ cr'.items ↔ (y ∈ cr.items ∧ o ≠ some y) ∨ ∃ x ∈ o, y ∈ x.cut e) ∧
      ((∀ x ∈ o, ¬x.Ragged e) → Proper d r cr') := by
  cases o with
  | none => exact ⟨cr, rfl, fun y => by simp, fun _ => h⟩
  | some x =>
    obtain ⟨cr', hok, hmem, hproper⟩ := updateTupleOverlap_eq hd h (ho x rfl) he
    refine ⟨cr', hok, fun y => ?_, fun hr => hproper (hr x rfl)⟩
    rw [hmem]
    simp [eq_comm]

lemma subtractOne_spec (he : OnGrid d r e) (hr : ∀ x ∈ cr.items, ¬x.Ragged e) :
    ∃ cr', subtractOne cr e = .ok cr' ∧ Proper d r cr' ∧
      ∀ y, y ∈ cr'.items ↔ (y ∈ cr.items ∧ y ∉ near cr.items e) ∨ ∃ x ∈ near cr.items e, y ∈ x.cut e := by
  obtain ⟨cr₁, hok₁, hmem₁, h₁⟩ := updateTupleOverlap_option hd h
    (o := (neighbors cr.items e).1) (fun x hx => (mem_of_prev hx).1) he
  have h₁ := h₁ fun x hx => hr x (mem_of_prev hx).1
  -- the second neighbour is none of the first and its pieces
  have hapart : ∀ x y, (neighbors cr.items e).1 = some x →
      (neighbors cr.items e).2 = some y → ∀ v, x.Holds v → ¬y.Holds v := by
    intro x y hx hy v hv hv'
    obtain ⟨hxl, hxe⟩ := mem_of_prev hx
    obtain ⟨hyl, hye⟩ := mem_of_next h.valid hy
    exact hye (h.eq_of_holds hxl hyl hv hv' ▸ hxe)
  have hnext : ∀ y ∈ (neighbors cr.items e).2, y ∈ cr₁.items := by
    refine fun y hy => (hmem₁ y).mpr (.inl ⟨(mem_of_next h.valid hy).1, fun hp => ?_⟩)
    have hg := h.grid y (mem_of_prev hp).1
    exact hapart y y hp hy y.start hg.holds_start hg.holds_start
  obtain ⟨cr₂, hok₂, hmem₂, h₂⟩ := updateTupleOverlap_option hd h₁ hnext he
  refine ⟨cr₂, ?_, h₂ fun y hy => hr y (mem_of_next h.valid hy).1, fun y => ?_⟩
  · simp only [subtractOne, hok₁]
    exact hok₂
  · have hpiece : (∃ x ∈ (neighbors cr.items e).1, y ∈ x.cut e) →
        (neighbors cr.items e).2 ≠ some y := by
      rintro ⟨x, hx, hy⟩ hn
      have hxl := (mem_of_prev hx).1
      have hyg := h.grid y (mem_of_next h.valid hn).1
      have hv := ((cut_holds hd (h.grid x hxl) he).mp ⟨y, hy, hyg.holds_start⟩).1
      exact hapart x y hx hn y.start hv hyg.holds_start
    rw [hmem₂, hmem₁]
    simp only [mem_near, Option.mem_def] at hpiece ⊢
    grind

lemma subtractOne_values (he : OnGrid d r e) {cr' : ChoppyRange} (h' : Proper d r cr')
    (hmem : ∀ y, y ∈ cr'.items ↔ (y ∈ cr.items ∧ y ∉ near cr.items e) ∨ ∃ x ∈ near cr.items e, y ∈ x.cut e) :
    (∀ v, v ∈ cr'.values ↔ v ∈ cr.values ∧ ¬e.Holds v) ↔ Reached cr.items e := by
  rw [h.reached_iff he]
  have hcut : ∀ x ∈ near cr.items e, ∀ v, (∃ t ∈ x.cut e, t.Holds v) ↔ _ := fun x hx v =>
    cut_holds hd (h.grid x (h.near_subset hx)) he
  have hvalues : ∀ v, v ∈ cr'.values ↔ (∃ x ∈ cr.items, x ∉ near cr.items e ∧ x.Holds v) ∨
      ∃ x ∈ near cr.items e, x.Holds v ∧ ¬e.Holds v := by
    intro v
    rw [h'.mem_values hd]
    constructor
    · rintro ⟨y, hy, hv⟩
      rcases (hmem y).mp hy with ⟨hyl, hyn⟩ | ⟨x, hx, hyx⟩
      · exact .inl ⟨y, hyl, hyn, hv⟩
      · exact .inr ⟨x, hx, (hcut x hx v).mp ⟨y, hyx, hv⟩⟩
    · rintro (⟨y, hyl, hyn, hv⟩ | ⟨x, hx, hv⟩)
      · exact ⟨y, (hmem y).mpr (.inl ⟨hyl, hyn⟩), hv⟩
      · obtain ⟨y, hyx, hv⟩ := (hcut x hx v).mpr hv
        exact ⟨y, (hmem y).mpr (.inr ⟨x, hx, hyx⟩), hv⟩
  simp only [hvalues, h.mem_values hd]
  constructor
  · intro hall x hx v hv hev
    by_contra hfar
    exact ((hall v).mp (.inl ⟨x, hx, hfar, hv⟩)).2 hev
  · intro hnear v
    constructor
    · rintro (⟨x, hx, hfar, hv⟩ | ⟨x, hx, hv, hev⟩)
      · exact ⟨⟨x, hx, hv⟩, fun hev => hfar (hnear x hx v hv hev)⟩
      · exact ⟨⟨x, h.near_subset hx, hv⟩, hev⟩
    · rintro ⟨⟨x, hx, hv⟩, hev⟩
      by_cases hn : x ∈ near cr.items e
      · exact .inr ⟨x, hn, hv, hev⟩
      · exact .inl ⟨x, hx, hn, hv⟩

end

/-! ### A stop that is not reached -/

lemma insert_keeps {cr' : ChoppyRange} (h : cr.insert t = .ok cr') (hx : x ∈ cr.items) :
    x ∈ cr'.items := by
  obtain ⟨-, hadd | hitems⟩ := of_insert h
  · exact (mem_add_iff hadd x).mpr (.inl hx)
  · exact hitems ▸ hx

lemma updateTupleOverlap_keeps {o : Option RangeTuple} {cr' : ChoppyRange}
    (h : cr.updateTupleOverlap o e = .ok cr') (hx : x ∈ cr.items) (hne : o ≠ some x) : x ∈ cr'.items := by
  cases o with
  | none => exact Except.ok.inj h ▸ hx
  | some old =>
    simp only [updateTupleOverlap] at h
    cases hnew : old.removeOverlap e with
    | error e =>
      rw [hnew] at h
      cases h
    | ok new =>
      simp only [hnew, bind, Except.bind] at h
      split_ifs at h
      · exact Except.ok.inj h ▸ hx
      · refine Fallible.inv (I := fun cr => x ∈ ChoppyRange.items cr)
          (fun _ _ _ _ hone hx => insert_keeps hone hx) ?_ h
        exact ((mem_erase_of_ne fun he => hne (congrArg some he.symm)).mpr hx)

lemma not_proper_of_ragged (hd : 0 < d) (h : Proper d r cr) (he : OnGrid d r e) (hx : x ∈ cr.items)
    (hr : x.Ragged e) {cr' : ChoppyRange} (hok : subtractOne cr e = .ok cr') : ¬Proper d r cr' := by
  have hprev : (neighbors cr.items e).1 = some x := by
    obtain ⟨p, hp, rfl | hlt⟩ := exists_prev h.valid hx (le_of_start_lt hr.1)
    · exact hp
    · have hpe := start_le_of_le (mem_of_prev hp).2
      have hin := hr.2.1
      have hend := ((h.grid x hx).last_spec hd).2.1
      omega
  obtain ⟨cr₁, hok₁, hmem₁, -⟩ := updateTupleOverlap_option hd h
    (o := (neighbors cr.items e).1) (fun x hx => (mem_of_prev hx).1) he
  have hempty : ⟨x.last + d, x.last, d⟩ ∈ cr₁.items :=
    (hmem₁ _).mpr (.inr ⟨x, hprev, mem_cut_of_ragged (h.grid x hx) hr⟩)
  simp only [subtractOne, hok₁] at hok
  have hkept : ⟨x.last + d, x.last, d⟩ ∈ cr'.items := by
    refine updateTupleOverlap_keeps hok hempty fun hn => ?_
    have hne : x.last + d ≤ x.last := (h.grid _ (mem_of_next h.valid hn).1).nonempty
    omega
  intro h'
  have hne : x.last + d ≤ x.last := (h'.grid _ hkept).nonempty
  omega

def Cuttable (cr : ChoppyRange) (e : RangeTuple) : Prop :=
  Reached cr.items e ∧ ∀ x ∈ cr.items, ¬x.Ragged e

instance (cr : ChoppyRange) (e : RangeTuple) : Decidable (Cuttable cr e) :=
  inferInstanceAs (Decidable (_ ∧ _))

lemma subtractOne_iff (hd : 0 < d) (h : Proper d r cr) (he : OnGrid d r e) :
    (∃ cr', subtractOne cr e = .ok cr' ∧ Proper d r cr' ∧
      ∀ v, v ∈ cr'.values ↔ v ∈ cr.values ∧ ¬e.Holds v) ↔ Cuttable cr e := by
  by_cases hr : ∀ x ∈ cr.items, ¬x.Ragged e
  · obtain ⟨cr', hok, h', hmem⟩ := subtractOne_spec hd h he hr
    rw [Cuttable, ← subtractOne_values hd h he h' hmem]
    refine ⟨?_, fun hv => ⟨cr', hok, h', hv.1⟩⟩
    rintro ⟨cr'', hok', -, hv⟩
    cases hok.symm.trans hok'
    exact ⟨hv, hr⟩
  · refine iff_of_false ?_ fun hc => hr hc.2
    obtain ⟨x, hx, hrag⟩ : ∃ x ∈ cr.items, x.Ragged e := by
      simpa only [not_forall, not_not, exists_prop] using hr
    rintro ⟨cr', hok, h', -⟩
    exact not_proper_of_ragged hd h he hx hrag hok h'

theorem subtract_values_iff {A B : ChoppyRange} (hd : 0 < d) (hA : Proper d r A) (hB : Proper d r B) :
    (∀ es, es <+: B.items → ∃ C, A.subtract es = .ok C ∧ Proper d r C ∧
      ∀ v, v ∈ C.values ↔ v ∈ A.values ∧ v ∉ es.flatMap RangeTuple.values) ↔
      Fallible.Guarded subtractOne Cuttable A B.items := by
  have hvalues : ∀ {es : List RangeTuple}, (∀ e ∈ es, OnGrid d r e) → ∀ v,
      v ∉ es.flatMap RangeTuple.values ↔ ∀ e ∈ es, ¬e.Holds v := by
    intro es hes v
    simp only [mem_flatMap, not_exists, not_and]
    refine forall₂_congr fun e he => ?_
    rw [RangeTuple.mem_values ((hes e he).step.symm ▸ hd)]
  refine Iff.trans (forall₂_congr fun es hes => ?_) (Fallible.prefixes_iff (I := Proper d r)
    (P := OnGrid d r) (R := fun A es C => Proper d r C ∧ ∀ v, v ∈ C.values ↔
      v ∈ A.values ∧ ∀ e ∈ es, ¬e.Holds v) (fun A hA => ⟨hA, fun v => by simp⟩)
    (fun A e hA he => ?_) (fun hr => hr.1) (fun {A e C} hr es C' => ?_) hA hB.grid)
  · simp only [hvalues fun e he => hB.grid e (hes.subset he)]
    rfl
  · simpa using subtractOne_iff hd hA he
  · simp [hr.2, and_assoc]

theorem subtract_values_middle :
    ∃ C, subtract { items := [⟨0, 9, 1⟩], step := some 1 } [⟨3, 4, 1⟩] = .ok C ∧ Proper 1 0 C ∧
      ∀ v, v ∈ C.values ↔ v ∈ values { items := [⟨0, 9, 1⟩], step := some 1 } ∧
        v ∉ [⟨3, 4, 1⟩].flatMap RangeTuple.values :=
  (subtract_values_iff (d := 1) (r := 0) (B := { items := [⟨3, 4, 1⟩] }) (by decide) (by decide)
    (by decide)).mpr ⟨by decide, fun _ _ => trivial⟩ _ (prefix_refl _)

theorem subtract_spanning :
    Proper 1 0 { items := [⟨0, 0, 1⟩, ⟨2, 2, 1⟩, ⟨4, 4, 1⟩], step := some 1 } ∧
      Proper 1 0 { items := [⟨1, 5, 1⟩], step := some 1 } ∧
      subtract { items := [⟨0, 0, 1⟩, ⟨2, 2, 1⟩, ⟨4, 4, 1⟩], step := some 1 } [⟨1, 5, 1⟩] =
        .ok { items := [⟨0, 0, 1⟩, ⟨4, 4, 1⟩], step := some 1 } ∧
      4 ∈ values { items := [⟨0, 0, 1⟩, ⟨4, 4, 1⟩], step := some 1 } ∧
      4 ∈ values { items := [⟨1, 5, 1⟩], step := some 1 } := by
  have hC : Proper 1 0 { items := [⟨0, 0, 1⟩, ⟨4, 4, 1⟩], step := some 1 } := by decide
  have hB : Proper 1 0 { items := [⟨1, 5, 1⟩], step := some 1 } := by decide
  refine ⟨by decide, hB, by rfl, (hC.mem_values (by decide)).mpr ?_, (hB.mem_values (by decide)).mpr ?_⟩
  · exact ⟨⟨4, 4, 1⟩, by decide, by decide⟩
  · exact ⟨⟨1, 5, 1⟩, by decide, by decide⟩

end ChoppyRange

end Urb
