/-
# `Urb.RangeGroups` — a list of integers as a range

`_group` goes through a list once.  A group lasts as long as `step * i - v` stays the same, which is
as long as the values are `step` apart, and is inserted when the next one begins; the last group is
inserted behind the loop.

NOTE on the insertion within the loop: it is made `if low`, and 0 is not.  A group that begins with
0 is dropped, unless it is the last.

**Proved here.**  The groups are the maximal runs of the list (`group_eq`), and for a list in strictly
ascending order the range has exactly the values of the list if and only if no run but the last begins
with 0 (`addList_values_iff`).
-/
import Mathlib.Data.List.SplitBy
import Urb.RangeGrid

namespace Urb

open List RangeTuple

namespace ChoppyRange

variable {step : ℤ} {l m g : List ℤ} {gs : List (List ℤ)} {cr : ChoppyRange}

/-! ## The loop -/

/-- The maximal runs of values that are `step` apart. -/
def runs (step : ℤ) (l : List ℤ) : List (List ℤ) := l.splitBy (fun a b => b == a + step)

def IsRun (step : ℤ) (g : List ℤ) : Prop := g.IsChain (fun a b => (b == a + step) = true)

def runTuple (step : ℤ) (g : List ℤ) : RangeTuple := ⟨g.headD 0, g.getLastD 0, step⟩

/-- The groups that are inserted. -/
def kept (gs : List (List ℤ)) : List (List ℤ) :=
  gs.dropLast.filter (fun g => decide (g.headD 0 ≠ 0)) ++ gs.getLast?.toList

lemma kept_concat : kept (gs ++ [g]) = gs.filter (fun g => decide (g.headD 0 ≠ 0)) ++ [g] := by
  simp [kept]

lemma kept_cons (h : gs ≠ []) : kept (g :: gs) = (if g.headD 0 ≠ 0 then [g] else []) ++ kept gs := by
  obtain ⟨init, last, rfl⟩ := (eq_nil_or_concat' gs).resolve_left h
  rw [← cons_append, kept_concat, kept_concat, filter_cons]
  split_ifs <;> simp_all

lemma insertGroup_eq (h : g ≠ []) :
    insertGroup cr g.head? g.getLast? step = cr.insert (runTuple step g) := by
  rw [runTuple, headD_eq_head?_getD, getLastD_eq_getLast?, List.head?_eq_some_head h,
    List.getLast?_eq_some_getLast h]
  rfl

lemma group_loop (m : List ℤ) : ∀ {g : List ℤ} {v : ℤ} (cr : ChoppyRange) (i : ℕ), IsRun step (g ++ [v]) →
    ((m.zipIdx (i + 1)).foldlM (groupStep step) ⟨cr, (g ++ [v]).head?, some v, some (step * i - v)⟩ >>=
        fun s => insertGroup s.cr s.low s.high step) =
      ((kept (runs step (g ++ [v] ++ m))).map (runTuple step)).foldlM insert cr := by
  -- along the rest of the list; `g ++ [v]` is the group that is open
  induction m with
  | nil =>
    intro g v cr i hrun
    have hruns : runs step (g ++ [v] ++ []) = [g ++ [v]] := by
      rw [append_nil]
      exact splitBy_of_isChain (by simp) hrun
    have hopen : insertGroup cr (g ++ [v]).head? (g ++ [v]).getLast? step =
        cr.insert (runTuple step (g ++ [v])) := insertGroup_eq (by simp)
    rw [List.getLast?_concat] at hopen
    rw [hruns]
    show insertGroup cr (g ++ [v]).head? (some v) step = _
    rw [hopen]
    exact (bind_pure _).symm
  | cons w m ih =>
    intro g v cr i hrun
    have hind : some (step * (i : ℤ) - v) ≠ some (step * ((i + 1 : ℕ) : ℤ) - w) ↔ w ≠ v + step := by
      rw [ne_eq, Option.some_inj, Nat.cast_add, Nat.cast_one, mul_add, mul_one]
      omega
    rw [zipIdx_cons, foldlM_cons]
    by_cases hnext : w = v + step
    · have hrun' : IsRun step (g ++ [v] ++ [w]) := by
        refine hrun.append (.singleton w) fun a ha b hb => ?_
        rw [List.getLast?_concat] at ha
        cases ha
        cases hb
        exact beq_iff_eq.mpr hnext
      have hsame : groupStep step ⟨cr, (g ++ [v]).head?, some v, some (step * i - v)⟩ (w, i + 1) =
          .ok ⟨cr, (g ++ [v] ++ [w]).head?, some w, some (step * (i + 1 : ℕ) - w)⟩ := by
        have hold := not_not.mp (hind.not.mpr (not_not.mpr hnext))
        rw [groupStep, if_neg (not_not.mpr hold), hold]
        cases g <;> rfl
      rw [hsame, append_cons (g ++ [v]) w m]
      exact ih cr (i + 1) hrun'
    · have hsplit : runs step (g ++ [v] ++ w :: m) = (g ++ [v]) :: runs step (w :: m) := by
        rw [runs, splitBy_append_cons]
        · rw [splitBy_of_isChain (by simp) hrun]
          rfl
        · intro a ha
          rw [List.getLast?_concat] at ha
          cases ha
          exact beq_eq_false_iff_ne.mpr hnext
      have hsaved : groupStep step ⟨cr, (g ++ [v]).head?, some v, some (step * i - v)⟩ (w, i + 1) =
          (if (g ++ [v]).headD 0 ≠ 0 then cr.insert (runTuple step (g ++ [v])) else pure cr) >>= fun cr =>
            .ok ⟨cr, [w].head?, some w, some (step * (i + 1 : ℕ) - w)⟩ := by
        rw [groupStep, if_pos (hind.mpr hnext), ← insertGroup_eq (by simp), List.getLast?_concat,
          headD_eq_head?_getD]
        rfl
      rw [hsaved, hsplit, kept_cons (by simp [runs]), map_append, foldlM_append]
      split_ifs
      · simp only [bind_assoc, map_cons, map_nil, foldlM_cons, foldlM_nil, bind_pure]
        exact bind_congr fun cr' => ih (g := []) cr' (i + 1) (.singleton w)
      · exact ih (g := []) cr (i + 1) (.singleton w)

lemma group_eq (hne : l ≠ []) :
    group {} l step = ((kept (runs step l)).map (runTuple step)).foldlM insert {} := by
  obtain ⟨v, m, rfl⟩ := exists_cons_of_ne_nil hne
  exact group_loop m (g := []) {} 0 (.singleton v)

/-! ## The values -/

lemma ends_mem (h : g ≠ []) : g.headD 0 ∈ g ∧ g.getLastD 0 ∈ g := by
  rw [headD_eq_head?_getD, getLastD_eq_getLast?, List.head?_eq_some_head h,
    List.getLast?_eq_some_getLast h]
  exact ⟨head_mem h, getLast_mem h⟩

lemma values_runTuple (hd : 0 < step) : ∀ {g : List ℤ}, g ≠ [] → IsRun step g →
    g.headD 0 ≤ g.getLastD 0 ∧ (runTuple step g).values = g
  | [a], _, _ => by
    refine ⟨le_rfl, ?_⟩
    show yieldIndex a a step = [a]
    rw [yieldIndex, if_pos ⟨hd, le_rfl⟩, yieldIndex, if_neg fun h => by omega]
  | a :: b :: g, _, hrun => by
    obtain ⟨hb, hrun⟩ := isChain_cons_cons.mp hrun
    obtain ⟨hle, hvalues⟩ := values_runTuple hd (cons_ne_nil b g) hrun
    have hlast : (a :: b :: g).getLastD 0 = (b :: g).getLastD 0 := rfl
    have hb : b = a + step := beq_iff_eq.mp hb
    have hle : a + step ≤ (b :: g).getLastD 0 := hb ▸ hle
    refine ⟨by rw [hlast]; exact (Int.lt_add_of_pos_right a hd).le.trans hle, ?_⟩
    show yieldIndex a ((b :: g).getLastD 0) step = _
    rw [yieldIndex, if_pos ⟨hd, (Int.lt_add_of_pos_right a hd).le.trans hle⟩, ← hb]
    exact congrArg (a :: ·) hvalues

lemma kept_sublist : (kept gs).Sublist gs := by
  rcases eq_nil_or_concat' gs with rfl | ⟨init, last, rfl⟩
  · exact .slnil
  · rw [kept_concat]
    exact filter_sublist.append (.refl _)

lemma flatten_kept_iff (hnil : [] ∉ gs) :
    (kept gs).flatten = gs.flatten ↔ ∀ g ∈ gs.dropLast, g.headD 0 ≠ 0 := by
  rcases eq_nil_or_concat' gs with rfl | ⟨init, last, rfl⟩
  · simp [kept]
  rw [kept_concat, dropLast_concat, flatten_append, flatten_append, append_left_inj]
  constructor
  · intro heq g hg hzero
    -- what is filtered out has no elements
    have hlen := ((filter_append_perm (fun g : List ℤ => decide (g.headD 0 ≠ 0)) init).flatten).length_eq
    rw [flatten_append, length_append, heq, Nat.add_eq_left, length_eq_zero_iff,
      flatten_eq_nil_iff] at hlen
    have hempty := hlen g (mem_filter.mpr ⟨hg, by rw [hzero]; rfl⟩)
    exact hnil (hempty ▸ mem_append_left _ hg)
  · intro h
    rw [filter_eq_self.mpr fun g hg => decide_eq_true (h g hg)]

/-- **Grouping** loses a run that begins with 0, unless it is the last. -/
theorem addList_values_iff (hne : l ≠ []) (hl : l.Pairwise (· < ·)) (hd : 0 < step) :
    (∃ cr, addList {} l step = .ok cr ∧ cr.values = l) ↔
      ∀ g ∈ (runs step l).dropLast, g.head? ≠ some 0 := by
  have hflat : (runs step l).flatten = l := flatten_splitBy _ l
  have hnil : [] ∉ runs step l := nil_notMem_splitBy _ l
  have hrun : ∀ g ∈ runs step l, g ≠ [] ∧ IsRun step g := fun g hg =>
    ⟨fun h => hnil (h ▸ hg), isChain_of_mem_splitBy hg⟩
  have hkept : ∀ g ∈ kept (runs step l), g ≠ [] ∧ IsRun step g := fun g hg =>
    hrun g (kept_sublist.subset hg)
  have hpair : ((kept (runs step l)).map (runTuple step)).Pairwise (fun t t' => t.stop < t'.start) := by
    rw [← hflat, pairwise_flatten] at hl
    refine pairwise_map.mpr ((hl.2.sublist kept_sublist).imp_of_mem fun {g g'} hg hg' hlt => ?_)
    exact hlt _ (ends_mem (hkept g hg).1).2 _ (ends_mem (hkept g' hg').1).1
  have hsteps : ∀ t ∈ (kept (runs step l)).map (runTuple step), t.step = step := by simp [runTuple]
  obtain ⟨cr, hok, hitems⟩ := insertAll_ascending (c := {}) (.inl rfl) hsteps
    (fun t ht => by
      obtain ⟨g, hg, rfl⟩ := mem_map.mp ht
      exact (values_runTuple hd (hkept g hg).1 (hkept g hg).2).1) hpair
  have hvalues : cr.values = (kept (runs step l)).flatten := by
    rw [values, hitems, nil_append, flatMap_map, ← flatMap_id]
    exact flatMap_congr fun g hg => (values_runTuple hd (hkept g hg).1 (hkept g hg).2).2
  have hhead : ∀ g ∈ (runs step l).dropLast, (g.headD 0 ≠ 0 ↔ g.head? ≠ some 0) := fun g hg => by
    rw [headD_eq_head?_getD, List.head?_eq_some_head (hrun g (dropLast_subset _ hg)).1]
    simp
  have hgroup : addList {} l step = .ok cr := by
    rw [← hok, ← group_eq hne]
    obtain ⟨v, m, rfl⟩ := exists_cons_of_ne_nil hne
    exact if_pos hd.ne'
  rw [hgroup, ← forall₂_congr hhead, ← flatten_kept_iff hnil, ← hvalues, hflat]
  exact ⟨fun ⟨_, h, hv⟩ => Except.ok.inj h ▸ hv, fun hv => ⟨cr, rfl, hv⟩⟩

theorem addList_values_crossingZero :
    ∃ cr, addList {} [-4, -2, 0, 3, 4, 6] 2 = .ok cr ∧ cr.values = [-4, -2, 0, 3, 4, 6] :=
  (addList_values_iff (by decide) (by decide) (by decide)).mpr (by decide)

theorem addList_loses_zero : ∃ cr, addList {} [0, 5] 1 = .ok cr ∧ cr.values = [5] :=
  ⟨{ items := [⟨5, 5, 1⟩], step := some 1 }, by decide,
    (append_nil _).trans (values_runTuple (g := [5]) Int.one_pos (by decide) (.singleton 5)).2⟩

end ChoppyRange

end Urb
