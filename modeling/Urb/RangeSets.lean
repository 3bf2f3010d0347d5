/-
# `Urb.RangeSets` — two neighbours are enough

An `IntervalSet` tells whether a tuple overlaps one of its elements by looking at two of
them, the last one that is not greater and the first one that is, in the order of the tuples.
Among elements that do not overlap each other this is enough (`contains_iff`):

    x … prev ≤ e     `x` ends before `prev` begins, and that is not after `e` begins
    e < next … x     `next` ends before `x` begins, so that `e` gets over `next` to `x`

Hence `add` raises exactly when the new element overlaps one that is there, and a set built
by `add` stays sorted and free of overlaps, whatever is added (`add_sequence`).
-/
import Mathlib.Data.List.Sort
import Mathlib.Data.List.TakeWhile
import Urb.Basis.Exec
import Urb.ChoppyRange

namespace Urb

open List Bool Except

namespace RangeTuple

variable {a b : RangeTuple}

def Overlaps (a b : RangeTuple) : Prop := b.start ≤ a.stop ∧ a.start ≤ b.stop

instance (a b : RangeTuple) : Decidable (a.Overlaps b) := inferInstanceAs (Decidable (_ ∧ _))

lemma start_le_of_le (h : a.le b) : a.start ≤ b.start := by
  simp only [le, or_eq_true, and_eq_true, decide_eq_true_eq] at h
  omega

lemma start_le_of_not_le (h : ¬a.le b) : b.start ≤ a.start := by
  simp only [le, or_eq_true, and_eq_true, decide_eq_true_eq] at h
  omega

lemma le_of_start_lt (h : a.start < b.start) : a.le b := by
  simp only [le, or_eq_true, and_eq_true, decide_eq_true_eq]
  omega

lemma sort_of_start_lt (h : a.start < b.start) : sort a b = (a, b) ∧ sort b a = (a, b) := by
  refine ⟨if_pos (le_of_start_lt h), if_neg fun hle => ?_⟩
  exact absurd (start_le_of_le hle) (not_le.mpr h)

lemma le_trans {c : RangeTuple} (hab : a.le b) (hbc : b.le c) : a.le c := by
  simp only [le, or_eq_true, and_eq_true, decide_eq_true_eq] at hab hbc ⊢
  omega

end RangeTuple

namespace IntervalSet

open RangeTuple

variable {l : IntervalSet} {e x : RangeTuple}

structure Valid (l : IntervalSet) : Prop where
  nonempty : ∀ x ∈ l, x.start ≤ x.stop
  sorted : l.Pairwise (fun x y => x.le y = true)
  apart : l.Pairwise (fun x y => ¬x.Overlaps y)

lemma Valid.before (h : Valid l) : l.Pairwise (fun x y => x.stop < y.start) := by
  refine (h.sorted.and h.apart).imp_of_mem fun {x y} hx hy hxy => ?_
  have hstart := start_le_of_le hxy.1
  have hy := h.nonempty y hy
  have hno : ¬(y.start ≤ x.stop ∧ x.start ≤ y.stop) := hxy.2
  omega

lemma valid_of_before (hne : ∀ x ∈ l, x.start ≤ x.stop)
    (h : l.Pairwise (fun x y => x.stop < y.start)) : Valid l := by
  refine ⟨hne, h.imp_of_mem fun hx _ hxy => le_of_start_lt ((hne _ hx).trans_lt hxy),
    h.imp fun hxy ho => ?_⟩
  exact absurd ho.1 (not_le.mpr hxy)

/-! ## The neighbours -/

lemma le_of_mem_takeWhile (hx : x ∈ l.takeWhile (·.le e)) : x.le e :=
  mem_takeWhile_imp (p := fun y : RangeTuple => y.le e) hx

lemma not_le_of_mem_dropWhile (hs : l.Pairwise (fun x y => x.le y))
    (hx : x ∈ l.dropWhile (·.le e)) : ¬x.le e := by
  induction l with
  | nil => cases hx
  | cons y l ih =>
    obtain ⟨hy, hl⟩ := pairwise_cons.mp hs
    rw [dropWhile_cons] at hx
    split_ifs at hx with hye
    · exact ih hl hx
    · rcases mem_cons.mp hx with rfl | hx
      · exact hye
      · exact fun hxe => hye (RangeTuple.le_trans (hy x hx) hxe)

lemma mem_of_prev {p : RangeTuple} (h : (neighbors l e).1 = some p) : p ∈ l ∧ p.le e :=
  have hp := mem_of_getLast? h
  ⟨(takeWhile_sublist _).subset hp, le_of_mem_takeWhile hp⟩

lemma mem_of_next (hl : Valid l) {n : RangeTuple} (h : (neighbors l e).2 = some n) : n ∈ l ∧ ¬n.le e :=
  have hn := mem_of_head? h
  ⟨(dropWhile_sublist _).subset hn, not_le_of_mem_dropWhile hl.sorted hn⟩

lemma exists_prev (hl : Valid l) (hx : x ∈ l) (hle : x.le e) :
    ∃ p, (neighbors l e).1 = some p ∧ (x = p ∨ x.stop < p.start) := by
  have hmem : x ∈ l.takeWhile (·.le e) := by
    rw [← takeWhile_append_dropWhile (p := (·.le e)) (l := l)] at hx
    exact (mem_append.mp hx).resolve_right fun hd => not_le_of_mem_dropWhile hl.sorted hd hle
  have hbefore := hl.before.sublist (takeWhile_sublist (·.le e))
  rcases eq_nil_or_concat (l.takeWhile (·.le e)) with hnil | ⟨init, p, heq⟩
  · rw [hnil] at hmem
    cases hmem
  · refine ⟨p, by rw [neighbors, heq, concat_eq_append, List.getLast?_concat], ?_⟩
    rw [heq, concat_eq_append] at hmem hbefore
    rcases mem_append.mp hmem with hx | hx
    · exact .inr ((pairwise_append.mp hbefore).2.2 x hx p (mem_singleton_self p))
    · exact .inl (mem_singleton.mp hx)

lemma exists_next (hl : Valid l) (hx : x ∈ l) (hle : ¬x.le e) :
    ∃ n, (neighbors l e).2 = some n ∧ (x = n ∨ n.stop < x.start) := by
  have hmem : x ∈ l.dropWhile (·.le e) := by
    rw [← takeWhile_append_dropWhile (p := (·.le e)) (l := l)] at hx
    exact (mem_append.mp hx).resolve_left fun ht => hle (le_of_mem_takeWhile ht)
  have hbefore := hl.before.sublist (dropWhile_sublist (·.le e))
  cases heq : l.dropWhile (·.le e) with
  | nil =>
    rw [heq] at hmem
    cases hmem
  | cons n rest =>
    refine ⟨n, by rw [neighbors, heq, List.head?_cons], ?_⟩
    rw [heq] at hmem hbefore
    rcases mem_cons.mp hmem with hx | hx
    · exact .inl hx
    · exact .inr ((pairwise_cons.mp hbefore).1 x hx)

lemma meets_iff (o : Option RangeTuple) : meets e o ↔ ∃ x, o = some x ∧ e.Overlaps x := by
  cases o with
  | none => simp [meets]
  | some x =>
    simp only [meets, not_eq_true', or_eq_false_iff, decide_eq_false_iff_not, not_lt,
      Option.some_inj, exists_eq_left', Overlaps, gt_iff_lt]

lemma contains_iff (hl : Valid l) : contains l e ↔ ∃ x ∈ l, e.Overlaps x := by
  rw [contains, or_eq_true, meets_iff, meets_iff]
  constructor
  · rintro (⟨x, hx, ho⟩ | ⟨x, hx, ho⟩)
    · exact ⟨x, (mem_of_prev hx).1, ho⟩
    · exact ⟨x, (mem_of_next hl hx).1, ho⟩
  · rintro ⟨x, hx, ho⟩
    by_cases hle : x.le e
    · obtain ⟨p, hp, rfl | hlt⟩ := exists_prev hl hx hle
      · exact .inl ⟨x, hp, ho⟩
      · have hpe := start_le_of_le (mem_of_prev hp).2
        exact absurd ho.2 (by omega)
    · obtain ⟨n, hn, rfl | hlt⟩ := exists_next hl hx hle
      · exact .inr ⟨x, hn, ho⟩
      · obtain ⟨hmem, hne⟩ := mem_of_next hl hn
        have hen := start_le_of_not_le hne
        have hnn := hl.nonempty n hmem
        have hxe : x.start ≤ e.stop := ho.1
        exact .inr ⟨n, hn, by omega, by omega⟩

/-! ## Adding elements -/

lemma contains_eq_false (h : ∀ x ∈ l, ¬e.Overlaps x) : contains l e = false := by
  have hno : ∀ o : Option RangeTuple, (∀ x ∈ o, x ∈ l) → meets e o = false := by
    intro o ho
    rw [← Bool.not_eq_true, meets_iff]
    rintro ⟨x, hx, hex⟩
    exact h x (ho x hx) hex
  rw [contains, hno _ fun x hx => (mem_of_prev hx).1, Bool.false_or]
  exact hno _ fun x hx => (dropWhile_sublist _).subset (mem_of_head? hx)

lemma add_of_apart (h : ∀ x ∈ l, ¬e.Overlaps x) : ∃ l', add l e = .ok l' := by
  rw [add, contains_eq_false h, if_neg Bool.false_ne_true]
  split_ifs <;> exact ⟨_, rfl⟩

lemma add_last (he : e.start ≤ e.stop) (h : ∀ x ∈ l, x.start ≤ x.stop ∧ x.stop < e.start) :
    add l e = .ok (l ++ [e]) := by
  have hno : ∀ x ∈ l, ¬e.Overlaps x := fun x hx ho => absurd ho.2 (not_le.mpr (h x hx).2)
  have hle : ∀ x ∈ l, x.le e := fun x hx => le_of_start_lt ((h x hx).1.trans_lt (h x hx).2)
  rw [add, contains_eq_false hno, if_neg Bool.false_ne_true, if_neg fun hmem => ?_,
    takeWhile_eq_self_iff.mpr hle, dropWhile_eq_nil_iff.mpr hle]
  exact absurd (h e hmem).2 (not_lt.mpr he)

lemma mem_add_iff {l' : IntervalSet} (h : add l e = .ok l') (x : RangeTuple) :
    x ∈ l' ↔ x ∈ l ∨ x = e := by
  rw [add] at h
  split_ifs at h with _ hmem
  · rw [← ok.inj h]
    exact ⟨.inl, fun hx => hx.elim id fun hx => hx ▸ hmem⟩
  · rw [← ok.inj h]
    conv_rhs => rw [← takeWhile_append_dropWhile (p := (·.le e)) (l := l)]
    simp only [mem_append, mem_cons]
    tauto

lemma Valid.add (hl : Valid l) (he : e.start ≤ e.stop) {l' : IntervalSet}
    (hadd : IntervalSet.add l e = .ok l') : Valid l' := by
  rw [IntervalSet.add] at hadd
  split_ifs at hadd with hc hmem
  · exact ok.inj hadd ▸ hl
  · rw [contains_iff hl] at hc
    have hno : ∀ x ∈ l, ¬e.Overlaps x := fun x hx ho => hc ⟨x, hx, ho⟩
    rw [← ok.inj hadd]
    refine valid_of_before (fun x hx => ?_) ?_
    · rcases mem_append.mp hx with hx | hx
      · exact hl.nonempty x ((takeWhile_sublist _).subset hx)
      · rcases mem_cons.mp hx with rfl | hx
        · exact he
        · exact hl.nonempty x ((dropWhile_sublist _).subset hx)
    · have hlow : ∀ x ∈ l.takeWhile (·.le e), x.stop < e.start := by
        intro x hx
        have hle := start_le_of_le (le_of_mem_takeWhile hx)
        have ho : ¬(x.start ≤ e.stop ∧ e.start ≤ x.stop) := hno x ((takeWhile_sublist _).subset hx)
        omega
      have hhigh : ∀ x ∈ l.dropWhile (·.le e), e.stop < x.start := by
        intro x hx
        have hmem := (dropWhile_sublist _).subset hx
        have hle := start_le_of_not_le (not_le_of_mem_dropWhile hl.sorted hx)
        have ho : ¬(x.start ≤ e.stop ∧ e.start ≤ x.stop) := hno x hmem
        have := hl.nonempty x hmem
        omega
      refine pairwise_append.mpr ⟨hl.before.sublist (takeWhile_sublist _),
        pairwise_cons.mpr ⟨hhigh, hl.before.sublist (dropWhile_sublist _)⟩, ?_⟩
      intro x hx y hy
      rcases mem_cons.mp hy with rfl | hy
      · exact hlow x hx
      · exact (hlow x hx).trans_le (he.trans (hhigh y hy).le)

lemma add_error_iff (hl : Valid l) : add l e = .error .overlap ↔ ∃ x ∈ l, e.Overlaps x := by
  rw [← contains_iff hl, add]
  split_ifs <;> simp [*]

def added (l : IntervalSet) (e : RangeTuple) : IntervalSet :=
  match add l e with
  | .ok l' => l'
  | .error _ => l

lemma Valid.added (hl : Valid l) (he : e.start ≤ e.stop) : Valid (added l e) := by
  unfold IntervalSet.added
  split
  · next hadd => exact hl.add he hadd
  · exact hl

theorem add_sequence {l : IntervalSet} (hl : Valid l) {es : List RangeTuple}
    (hes : ∀ e ∈ es, e.start ≤ e.stop) (e : RangeTuple) :
    let l' := Machine.run added l es
    Valid l' ∧ (contains l' e = true ↔ ∃ x ∈ l', e.Overlaps x) ∧
      (add l' e = .error .overlap ↔ ∃ x ∈ l', e.Overlaps x) := by
  have hrun : Valid (Machine.run added l es) :=
    List.foldlRecOn es _ (motive := Valid) hl fun _ hl e he => hl.added (hes e he)
  exact ⟨hrun, contains_iff hrun, add_error_iff hrun⟩

theorem add_sequence_three :
    let l' := Machine.run added [] [⟨1, 3, 1⟩, ⟨7, 9, 2⟩, ⟨2, 8, 1⟩]
    l' = [⟨1, 3, 1⟩, ⟨7, 9, 2⟩] ∧ Valid l' ∧
      (contains l' ⟨3, 5, 1⟩ = true ↔ ∃ x ∈ l', RangeTuple.Overlaps ⟨3, 5, 1⟩ x) ∧
      (add l' ⟨3, 5, 1⟩ = .error .overlap ↔ ∃ x ∈ l', RangeTuple.Overlaps ⟨3, 5, 1⟩ x) :=
  ⟨by decide, add_sequence (l := []) ⟨by decide, .nil, .nil⟩ (by decide) _⟩

end IntervalSet

end Urb
