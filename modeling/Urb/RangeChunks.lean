/-
# `Urb.RangeChunks` — a range in bundles of bounded size

`chopup` cuts each element of a range into pieces of at most `chunk_size` values, and
`chopFillUp` bundles consecutive pieces as long as they fit, joining adjacent ones.

Every piece is a `run` of values whose stop is reached, and all pieces list the values of the range
(`chopup_spec`).  A piece is joined to the one before it only if it continues it: were it adjacent
on the other side, two elements would share a value.  The loop keeps to `Filling`.
-/
import Mathlib.Algebra.Ring.Nat
import Mathlib.Data.List.Chain
import Mathlib.Data.List.Iterate
import Urb.RangeGrid

namespace Urb

open List Nat Int Prod

namespace RangeTuple

variable {p : RangeTuple}

variable {d s stop : ℤ} {k : ℕ}

/-! ## Runs of values -/

lemma fdiv_eq (hd : 0 < d) (hle : s + d * k ≤ stop) (hlt : stop < s + d * k + d) :
    (stop - s).fdiv d = k := by
  rw [fdiv_eq_ediv_of_nonneg _ hd.le]
  refine le_antisymm (Int.lt_add_one_iff.mp ((Int.ediv_lt_iff_lt_mul hd).mpr ?_))
    ((Int.le_ediv_iff_mul_le hd).mpr ?_)
  · rw [add_mul, one_mul, mul_comm]
    omega
  · rw [mul_comm]
    omega

def run (d s : ℤ) (k : ℕ) : RangeTuple := ⟨s, s + d * k, d⟩

lemma yieldIndex_eq (hd : 0 < d) : ∀ {k : ℕ} {s : ℤ}, s + d * k ≤ stop → stop < s + d * k + d →
    yieldIndex s stop d = List.iterate (· + d) s (k + 1) := by
  intro k
  induction k with
  | zero =>
    intro s hle hlt
    rw [Nat.cast_zero, mul_zero, add_zero] at hle hlt
    rw [yieldIndex, if_pos ⟨hd, hle⟩, yieldIndex, if_neg fun h => absurd h.2 (by omega)]
    rfl
  | succ k ih =>
    intro s hle hlt
    rw [cast_succ, mul_add, mul_one] at hle hlt
    have hpos : 0 ≤ d * (k : ℤ) := Int.mul_nonneg hd.le (by omega)
    rw [yieldIndex, if_pos ⟨hd, by omega⟩, ih (by omega) (by omega)]
    rfl

lemma values_run (hd : 0 < d) : (run d s k).values = List.iterate (· + d) s (k + 1) :=
  yieldIndex_eq hd le_rfl (by simp [run]; omega)

lemma length_values_run (hd : 0 < d) : (run d s k).values.length = k + 1 := by
  rw [values_run hd, length_iterate]

lemma count_run (hd : 0 < d) : (run d s k).count = .ok (k + 1) := by
  have hdiv : (s + d * k - s).fdiv d = k := fdiv_eq hd le_rfl (by omega)
  show (if d = 0 then _ else Except.ok ((s + d * k - s).fdiv d + 1)) = _
  rw [if_neg hd.ne', hdiv]

lemma iterate_append {m n : ℕ} :
    List.iterate (· + d) s (m + n) = List.iterate (· + d) s m ++ List.iterate (· + d) (s + d * m) n := by
  rw [iterate_add, add_right_iterate, nsmul_eq_mul, mul_comm]

/-! ## The pieces of one tuple -/

def IsPiece (d : ℤ) (n : ℕ) (p : RangeTuple) : Prop := ∃ s k, p = run d s k ∧ k < n

lemma IsPiece.start_le_stop (hd : 0 < d) {n : ℕ} (h : IsPiece d n p) : p.start ≤ p.stop := by
  obtain ⟨s, k, rfl, -⟩ := h
  exact Int.le_add_of_nonneg_right (Int.mul_nonneg hd.le (by omega))

lemma IsPiece.ends_mem (hd : 0 < d) {n : ℕ} (h : IsPiece d n p) :
    p.start ∈ p.values ∧ p.stop ∈ p.values := by
  have hle := h.start_le_stop hd
  obtain ⟨s, k, rfl, -⟩ := h
  rw [mem_values hd, mem_values hd]
  exact ⟨⟨le_rfl, hle, by simp⟩, hle, le_rfl, by simp [run]⟩

lemma chopLoop_spec (hd : 0 < d) {n : ℕ} (hn : 0 < n) (k : ℕ) :
    ∀ {s : ℤ}, s + d * k ≤ stop → stop < s + d * k + d → (∀ p ∈ chopLoop s stop d n, IsPiece d n p) ∧
      (chopLoop s stop d n).flatMap values = yieldIndex s stop d ∧
      (chopLoop s stop d n).Pairwise (fun m e => m.stop < e.start) := by
  induction k using Nat.strong_induction_on with
  | _ k ih =>
    intro s hle hlt
    have hpos : 0 ≤ d * (k : ℤ) := Int.mul_nonneg hd.le (by omega)
    rw [chopLoop, if_pos ⟨hd, by omega, by omega⟩, fdiv_eq hd hle hlt, yieldIndex_eq hd hle hlt]
    by_cases hc : (k : ℤ) ≥ n
    · -- the rest begins `n` steps further on
      simp only [hc, if_true]
      obtain ⟨m, rfl⟩ := Nat.exists_eq_add_of_le (Int.ofNat_le.mp hc)
      rw [Nat.cast_add, mul_add] at hle hlt
      have hle' : s + d * n + d * m ≤ stop := by omega
      have hlt' : stop < s + d * n + d * m + d := by omega
      obtain ⟨hpieces, hvalues, hpair⟩ := ih m (by omega) hle' hlt'
      have hhead : (⟨s, s + d * n - d, d⟩ : RangeTuple) = run d s (n - 1) := by
        rw [run, Nat.cast_sub hn, mul_sub, Nat.cast_one, mul_one, add_sub_assoc]
      refine ⟨forall_mem_cons.mpr ⟨⟨s, n - 1, hhead, by omega⟩, hpieces⟩, ?_,
        pairwise_cons.mpr ⟨fun e he => ?_, hpair⟩⟩
      · rw [flatMap_cons, hvalues, hhead, values_run hd, Nat.sub_add_cancel hn, yieldIndex_eq hd hle' hlt',
          ← iterate_append, add_assoc]
      · have hmem := mem_flatMap.mpr ⟨e, he, ((hpieces e he).ends_mem hd).1⟩
        rw [hvalues, mem_yieldIndex hd] at hmem
        show s + d * n - d < e.start
        omega
    · simp only [hc, if_false]
      refine ⟨forall_mem_singleton.mpr ⟨s, k, rfl, by omega⟩, ?_, pairwise_singleton _ _⟩
      rw [flatMap_cons, flatMap_nil, append_nil]
      exact values_run hd

def pieces (n : ℕ) (t : RangeTuple) : List RangeTuple := chopLoop t.start t.stop t.step n

lemma pieces_spec (hd : 0 < d) {n : ℕ} (hn : 0 < n) {t : RangeTuple} (hstep : t.step = d)
    (hne : t.start ≤ t.stop) :
    (∀ p ∈ t.pieces n, IsPiece d n p) ∧ (t.pieces n).flatMap values = t.values ∧
      (t.pieces n).Pairwise (fun m e => m.stop < e.start) := by
  rw [values, pieces, hstep]
  have hdiv : 0 ≤ (t.stop - t.start) / d := ediv_nonneg (by omega) hd.le
  have hmod := emod_add_mul_ediv (t.stop - t.start) d
  have hpos := emod_nonneg (t.stop - t.start) hd.ne'
  have hlt := emod_lt_of_pos (t.stop - t.start) hd
  refine chopLoop_spec hd hn ((t.stop - t.start) / d).toNat ?_ ?_ <;> rw [toNat_of_nonneg hdiv] <;> omega

end RangeTuple

namespace ChoppyRange

open RangeTuple

variable {d : ℤ} {n : ℕ} {cr : ChoppyRange}

/-! ## The pieces of a range -/

lemma mapM_chopChunks {l : List RangeTuple} (h : ∀ x ∈ l, x.step ≠ 0) :
    l.mapM (·.chopChunks n) = .ok (l.map (·.pieces n)) := by
  induction l with
  | nil => rfl
  | cons x l ih =>
    obtain ⟨hx, hl⟩ := forall_mem_cons.mp h
    have hone : x.chopChunks n = .ok (x.pieces n) := if_neg fun h0 => hx h0.1
    rw [mapM_cons, hone, ih hl]
    rfl

lemma pieces_apart (hd : 0 < d) (hn : 0 < n) {x y : RangeTuple} (hx : x.step = d ∧ x.start ≤ x.stop)
    (hy : y.step = d ∧ y.start ≤ y.stop) (hle : x.le y) (hdisj : ∀ v, x.Holds v → ¬y.Holds v)
    {m e : RangeTuple} (hm : m ∈ x.pieces n) (he : e ∈ y.pieces n) : e.stop + d ≠ m.start := by
  intro hadj
  obtain ⟨hxp, hxv, -⟩ := pieces_spec hd hn hx.1 hx.2
  obtain ⟨hyp, hyv, -⟩ := pieces_spec hd hn hy.1 hy.2
  have hmv : m.start ∈ x.values := hxv ▸ mem_flatMap.mpr ⟨m, hm, ((hxp m hm).ends_mem hd).1⟩
  have hev : e.stop ∈ y.values := hyv ▸ mem_flatMap.mpr ⟨e, he, ((hyp e he).ends_mem hd).2⟩
  rw [mem_values (hx.1.symm ▸ hd)] at hmv
  rw [mem_values (hy.1.symm ▸ hd)] at hev
  obtain ⟨hms, hmx, hmd⟩ := hmv
  obtain ⟨hes, -, hed⟩ := hev
  rw [hx.1] at hmd
  rw [hy.1] at hed
  have hdvd : d ∣ y.start - x.start := by
    have := dvd_sub hmd (dvd_add hed (dvd_refl d))
    rwa [show m.start - x.start - (e.stop - y.start + d) = y.start - x.start by omega] at this
  refine hdisj y.start ⟨start_le_of_le hle, by omega, hx.1.symm ▸ hdvd⟩ ⟨le_rfl, hy.2, by simp⟩

lemma chopup_spec (hd : 0 < d) (hn : 0 < n) (hitems : ∀ x ∈ cr.items, x.step = d ∧ x.start ≤ x.stop)
    (hsorted : cr.items.Pairwise (fun x y => x.le y))
    (hdisj : cr.items.Pairwise (fun x y => ∀ v, x.Holds v → ¬y.Holds v)) :
    ∃ ps, cr.chopup n = .ok ps ∧ (∀ p ∈ ps, IsPiece d n p) ∧ ps.flatMap RangeTuple.values = cr.values ∧
      ps.Pairwise (fun m e => e.stop + d ≠ m.start) := by
  refine ⟨cr.items.flatMap (·.pieces n), ?_, fun p hp => ?_, ?_, ?_⟩
  · rw [chopup, mapM_chopChunks fun x hx h0 => hd.ne' ((hitems x hx).1 ▸ h0)]
    rfl
  · obtain ⟨x, hx, hp⟩ := mem_flatMap.mp hp
    exact (pieces_spec hd hn (hitems x hx).1 (hitems x hx).2).1 p hp
  · rw [flatMap_assoc, values]
    exact flatMap_congr fun x hx => (pieces_spec hd hn (hitems x hx).1 (hitems x hx).2).2.1
  · refine pairwise_flatMap.mpr ⟨fun x hx => ?_, ?_⟩
    · obtain ⟨hp, -, hpair⟩ := pieces_spec hd hn (hitems x hx).1 (hitems x hx).2
      refine hpair.imp_of_mem fun {m e} hm he hlt => ?_
      have hms := (hp m hm).start_le_stop hd
      have hes := (hp e he).start_le_stop hd
      omega
    · refine (hsorted.and hdisj).imp_of_mem fun hx hy h m hm e he => ?_
      exact pieces_apart hd hn (hitems _ hx) (hitems _ hy) h.1 h.2 hm he

/-! ## Joining pieces -/

structure Glued (d : ℤ) (b g : List RangeTuple) : Prop where
  runs : ∀ t ∈ b, ∃ s k, t = run d s k
  starts : ∀ t ∈ b, ∃ m ∈ g, t.start = m.start
  values : b.flatMap RangeTuple.values = g.flatMap RangeTuple.values

lemma fixIndices_run (hd : 0 < d) (s : ℤ) (k : ℕ) : (run d s k).fixIndices = .ok (run d s k) := by
  have hdiv : (s + d * k - s).fdiv d = k := fdiv_eq hd le_rfl (by omega)
  show (if d = 0 then _ else Except.ok (⟨s, s + (s + d * k - s).fdiv d * d, d⟩ : RangeTuple)) = _
  rw [if_neg hd.ne', hdiv, mul_comm]
  rfl

lemma isAdjacent_run (hd : 0 < d) {s s' : ℤ} {k k' : ℕ} (h : (run d s' k').stop + d ≠ s) :
    (run d s' k').isAdjacent (run d s k) = .ok (decide ((run d s k).stop + d = s')) := by
  have hck : ckAndFix (run d s' k') (run d s k) = .ok (run d s' k', run d s k) := by
    simp only [ckAndFix, fixIndices_run hd]
    exact if_neg fun h => h rfl
  have hpos : 0 ≤ d * (k : ℤ) := Int.mul_nonneg hd.le (by omega)
  simp only [isAdjacent, hck, bind, Except.bind, sort]
  split_ifs with hle
  · -- the other order: neither is right before the other
    have hle : s' ≤ s := start_le_of_le hle
    have hno : ¬s + d * k + d = s' := by omega
    show Except.ok (decide ((run d s' k').stop + d = s)) = .ok (decide (s + d * k + d = s'))
    rw [decide_eq_false h, decide_eq_false hno]
  · rfl

lemma join_run (hd : 0 < d) {s s' : ℤ} {k k' : ℕ} (h : (run d s k).stop + d = s') :
    (run d s' k').join (run d s k) = [run d s (k + 1 + k')] := by
  have hpos : 0 ≤ d * (k : ℤ) := Int.mul_nonneg hd.le (by omega)
  have h' : s + d * k + d = s' := h
  have hlt : (run d s k).start < (run d s' k').start := show s < s' by omega
  rw [join, (sort_of_start_lt hlt).2]
  show (if (run d s k).stop + d = s' then _ else _) = _
  rw [if_pos h, ← h']
  simp only [run, Nat.cast_add, Nat.cast_one, mul_add, mul_one, add_assoc]

lemma values_join (hd : 0 < d) {s s' : ℤ} {k k' : ℕ} (h : (run d s k).stop + d = s') :
    (run d s (k + 1 + k')).values = (run d s k).values ++ (run d s' k').values := by
  have h' : s + d * ((k + 1 : ℕ) : ℤ) = s' := by
    rw [← h, run, Nat.cast_add, Nat.cast_one, mul_add, mul_one, add_assoc]
  rw [values_run hd, values_run hd, values_run hd, ← h', ← iterate_append, add_assoc]

lemma Glued.snoc {b a g : List RangeTuple} {t : RangeTuple} (h : Glued d b g) (hsub : a ⊆ b)
    (ht : ∃ s k, t = run d s k) (hs : ∃ m ∈ g ++ [p], t.start = m.start)
    (hv : a.flatMap RangeTuple.values ++ t.values = g.flatMap RangeTuple.values ++ p.values) :
    Glued d (a ++ [t]) (g ++ [p]) where
  runs := forall_mem_append.mpr ⟨fun t ht => h.runs t (hsub ht), forall_mem_singleton.mpr ht⟩
  starts := by
    refine forall_mem_append.mpr ⟨fun t ht => ?_, forall_mem_singleton.mpr hs⟩
    obtain ⟨m, hm, hs⟩ := h.starts t (hsub ht)
    exact ⟨m, mem_append_left _ hm, hs⟩
  values := by
    rw [flatMap_append, flatMap_append, flatMap_singleton, flatMap_singleton]
    exact hv

lemma expandElemLst_spec (hd : 0 < d) {b g : List RangeTuple} (h : Glued d b g)
    (hp : IsPiece d n p) (hapart : ∀ m ∈ g, p.stop + d ≠ m.start) :
    ∃ b', expandElemLst p b = .ok b' ∧ b' ≠ [] ∧ Glued d b' (g ++ [p]) := by
  obtain ⟨s', k', rfl, -⟩ := hp
  have hself : ∃ m ∈ g ++ [run d s' k'], s' = m.start :=
    ⟨run d s' k', mem_append_right _ (mem_singleton_self _), rfl⟩
  rcases eq_nil_or_concat b with rfl | ⟨b₀, l, rfl⟩
  · refine ⟨[run d s' k'], rfl, cons_ne_nil _ _, h.snoc (a := []) (nil_subset _) ⟨_, _, rfl⟩ hself ?_⟩
    rw [← h.values]
  rw [concat_eq_append] at h ⊢
  have hl : l ∈ b₀ ++ [l] := mem_append_right _ (mem_singleton_self _)
  obtain ⟨s, k, rfl⟩ := h.runs l hl
  obtain ⟨m, hm, hs⟩ := h.starts _ hl
  have hs : s = m.start := hs
  simp only [expandElemLst, List.getLast?_concat, isAdjacent_run hd (hs ▸ hapart m hm), bind, Except.bind]
  by_cases hadj : (run d s k).stop + d = s'
  · simp only [hadj, decide_true, if_true, dropLast_concat, join_run hd hadj]
    refine ⟨_, rfl, by simp, h.snoc (subset_append_left _ _) ⟨_, _, rfl⟩
      ⟨m, mem_append_left _ hm, hs⟩ ?_⟩
    rw [values_join hd hadj, ← append_assoc, ← h.values, flatMap_append, flatMap_singleton]
  · simp only [hadj, decide_false]
    refine ⟨_, rfl, by simp, h.snoc (List.Subset.refl _) ⟨_, _, rfl⟩ hself ?_⟩
    rw [h.values]

/-! ## Filling bundles -/

def size (b : List RangeTuple) : ℕ := (b.flatMap RangeTuple.values).length

/-- A bundle, with the pieces it is made of. -/
structure IsBundle (n : ℕ) (p : List RangeTuple × List RangeTuple) : Prop where
  nonempty : p.1 ≠ []
  pieces : p.2 ≠ []
  values : p.1.flatMap RangeTuple.values = p.2.flatMap RangeTuple.values
  bound : size p.1 ≤ n

def Full (n : ℕ) (p q : List RangeTuple × List RangeTuple) : Prop :=
  ∀ c ∈ q.2.head?, n < size p.1 + c.values.length

structure Bundled (n : ℕ) (gs : List (List RangeTuple × List RangeTuple)) : Prop where
  each : ∀ p ∈ gs, IsBundle n p
  full : gs.IsChain (Full n)

lemma bundled_snoc_iff {gs : List (List RangeTuple × List RangeTuple)} {q : List RangeTuple × List RangeTuple} :
    Bundled n (gs ++ [q]) ↔ Bundled n gs ∧ IsBundle n q ∧ ∀ p ∈ gs.getLast?, Full n p q := by
  constructor
  · rintro ⟨heach, hfull⟩
    obtain ⟨hgs, -, hlast⟩ := isChain_append.mp hfull
    obtain ⟨heach, hq⟩ := forall_mem_append.mp heach
    exact ⟨⟨heach, hgs⟩, hq q (mem_singleton_self _), fun p hp => hlast p hp q rfl⟩
  · rintro ⟨⟨heach, hfull⟩, hq, hlast⟩
    refine ⟨forall_mem_append.mpr ⟨heach, forall_mem_singleton.mpr hq⟩,
      isChain_append.mpr ⟨hfull, .singleton q, fun p hp q' hq' => ?_⟩⟩
    exact Option.some_inj.mp hq' ▸ hlast p hp

inductive Filling (d : ℤ) (n : ℕ) : List (List RangeTuple × List RangeTuple) →
    List (List RangeTuple) × List RangeTuple × ℤ → Prop
  | closed {gs : List (List RangeTuple × List RangeTuple)} : Bundled n gs →
      (∀ p ∈ gs.getLast?, size p.1 = n) → Filling d n gs (gs.map Prod.fst, [], 0)
  | opened {gs : List (List RangeTuple × List RangeTuple)} {b g : List RangeTuple} :
      Bundled n (gs ++ [(b, g)]) → Glued d b g → Filling d n (gs ++ [(b, g)]) (gs.map Prod.fst, b, size b)

lemma fillStep_fits (hd : 0 < d) {l : List (List RangeTuple × List RangeTuple)}
    {b g : List RangeTuple} (hp : IsPiece d n p) (hglued : Glued d b g)
    (hapart : ∀ m ∈ g, p.stop + d ≠ m.start) (hfits : size b + p.values.length ≤ n)
    (hmore : ∀ b', IsBundle n (b', g ++ [p]) → Bundled n (l ++ [(b', g ++ [p])])) :
    ∃ b' s, fillStep n (l.map fst, b, size b) p = .ok s ∧ Filling d n (l ++ [(b', g ++ [p])]) s := by
  obtain ⟨b', hok, hne, hglued'⟩ := expandElemLst_spec hd hglued hp hapart
  have hsize : size b' = size b + p.values.length := by
    rw [size, size, hglued'.values, hglued.values, flatMap_append, flatMap_singleton, length_append]
  have hbundled := hmore b' ⟨hne, by simp, hglued'.values, hsize.trans_le hfits⟩
  obtain ⟨s, k, rfl, -⟩ := hp
  rw [length_values_run hd] at hsize hfits
  simp only [fillStep, count_run hd, hok, bind, Except.bind]
  have hcast : (size b : ℤ) + (k + 1) = size b' := by omega
  rw [hcast]
  by_cases hlt : (size b' : ℤ) < n
  · rw [if_pos hlt]
    exact ⟨b', _, rfl, .opened hbundled hglued'⟩
  · have heq : (size b' : ℤ) = n := by omega
    have hfull : ∀ p ∈ (l ++ [(b', g ++ [run d s k])]).getLast?, size p.1 = n := by
      intro p hp
      rw [List.getLast?_concat] at hp
      rw [← Option.some_inj.mp hp]
      exact ofNat_inj.mp heq
    rw [if_neg hlt, if_pos heq]
    refine ⟨b', _, rfl, ?_⟩
    have := Filling.closed (d := d) hbundled hfull
    rwa [map_append] at this

lemma fillStep_spec (hd : 0 < d) {gs : List (List RangeTuple × List RangeTuple)}
    {s : List (List RangeTuple) × List RangeTuple × ℤ} (h : Filling d n gs s) (hp : IsPiece d n p)
    (hapart : ∀ m ∈ gs.flatMap snd, p.stop + d ≠ m.start) :
    ∃ gs' s', fillStep n s p = .ok s' ∧ Filling d n gs' s' ∧ gs'.flatMap snd = gs.flatMap snd ++ [p] := by
  have hlen : 0 < p.values.length ∧ p.values.length ≤ n := by
    obtain ⟨s, k, rfl, hk⟩ := hp
    rw [length_values_run hd]
    exact ⟨k.succ_pos, hk⟩
  cases h with
  | closed hgs hlast =>
    obtain ⟨b', s', hok, hfill⟩ := fillStep_fits hd (l := gs) (b := []) (g := []) hp
      ⟨nofun, nofun, rfl⟩ nofun ((zero_add _).trans_le hlen.2) fun b' hb' =>
        bundled_snoc_iff.mpr ⟨hgs, hb', fun q hq c hc => by
          obtain rfl := Option.some_inj.mp hc
          rw [hlast q hq]
          omega⟩
    exact ⟨_, s', hok, hfill, by simp⟩
  | @opened gs b g hgs hglued =>
    obtain ⟨hgs₀, hbundle, hlast⟩ := bundled_snoc_iff.mp hgs
    by_cases hfits : size b + p.values.length ≤ n
    · obtain ⟨b', s', hok, hfill⟩ := fillStep_fits hd (l := gs) hp hglued (fun m hm => hapart m (by simp [hm]))
        hfits fun b' hb' => bundled_snoc_iff.mpr ⟨hgs₀, hb', fun q hq c hc => by
          rw [List.head?_append_of_ne_nil _ hbundle.pieces] at hc
          exact hlast q hq c hc⟩
      exact ⟨_, s', hok, hfill, by simp⟩
    · -- the open bundle is yielded, and the piece begins the next one
      have hone : IsBundle n ([p], [p]) := ⟨cons_ne_nil _ _, cons_ne_nil _ _, rfl, by
        simpa [size] using hlen.2⟩
      have hgs' : Bundled n (gs ++ [(b, g)] ++ [([p], [p])]) :=
        bundled_snoc_iff.mpr ⟨hgs, hone, fun q hq c hc => by
          rw [List.getLast?_concat] at hq
          rw [← Option.some_inj.mp hq, ← Option.some_inj.mp hc]
          exact not_le.mp hfits⟩
      obtain ⟨s, k, rfl, -⟩ := hp
      have hglued' : Glued d [run d s k] [run d s k] := ⟨by simp, by simp, rfl⟩
      refine ⟨_, _, ?_, .opened hgs' hglued', by simp⟩
      rw [length_values_run hd] at hfits
      have hlt : ¬(size b : ℤ) + (k + 1) < n := by omega
      have heq : ¬(size b : ℤ) + (k + 1) = n := by omega
      simp only [fillStep, count_run hd, bind, Except.bind, hlt, heq, hbundle.nonempty, if_false]
      simp [size, length_values_run hd, pure, Except.pure]

lemma fill_spec (hd : 0 < d) {ps : List RangeTuple} :
    ∀ {gs : List (List RangeTuple × List RangeTuple)} {s : List (List RangeTuple) × List RangeTuple × ℤ},
      Filling d n gs s → (∀ p ∈ ps, IsPiece d n p) → ps.Pairwise (fun m e => e.stop + d ≠ m.start) →
      (∀ p ∈ ps, ∀ m ∈ gs.flatMap snd, p.stop + d ≠ m.start) →
      ∃ gs' s', ps.foldlM (fillStep n) s = .ok s' ∧ Filling d n gs' s' ∧
        gs'.flatMap snd = gs.flatMap snd ++ ps := by
  induction ps with
  | nil => exact fun h _ _ _ => ⟨_, _, rfl, h, (append_nil _).symm⟩
  | cons p ps ih =>
    intro gs s h hps hpair hapart
    obtain ⟨hp, hps⟩ := forall_mem_cons.mp hps
    obtain ⟨hfirst, hpair⟩ := pairwise_cons.mp hpair
    obtain ⟨hnew, hapart⟩ := forall_mem_cons.mp hapart
    obtain ⟨gs₁, s₁, hok₁, h₁, hgs₁⟩ := fillStep_spec hd h hp hnew
    obtain ⟨gs', s', hok', h', hgs'⟩ := ih h₁ hps hpair fun e he m hm => by
      rw [hgs₁, mem_append, mem_singleton] at hm
      exact hm.elim (hapart e he m) fun hm => hm ▸ hfirst e he
    refine ⟨gs', s', ?_, h', ?_⟩
    · rw [foldlM_cons, hok₁]
      exact hok'
    · rw [hgs', hgs₁, append_assoc, singleton_append]

theorem chopFillUp_bundles (hd : 0 < d) {chunkSize : ℤ} (hn : 0 < chunkSize)
    (hitems : ∀ x ∈ cr.items, x.step = d ∧ x.start ≤ x.stop)
    (hsorted : cr.items.Pairwise (fun x y => x.le y = true))
    (hdisj : cr.items.Pairwise (fun x y => ∀ v, x.Holds v → ¬y.Holds v)) :
    ∃ gs : List (List RangeTuple × List RangeTuple), cr.chopup chunkSize = .ok (gs.flatMap Prod.snd) ∧
      cr.chopFillUp chunkSize = .ok (gs.map Prod.fst) ∧
      (gs.map Prod.fst).flatMap (·.flatMap RangeTuple.values) = cr.values ∧ Bundled chunkSize.toNat gs := by
  lift chunkSize to ℕ using hn.le with n
  have hn := Int.natCast_pos.mp hn
  rw [Int.toNat_natCast]
  obtain ⟨ps, hchop, hpieces, hvalues, hpair⟩ := chopup_spec hd hn hitems hsorted hdisj
  obtain ⟨gs, s, hok, hfill, hgs⟩ := fill_spec hd
    (show Filling d n [] ([], [], 0) from .closed ⟨nofun, .nil⟩ nofun) hpieces hpair (fun _ _ _ hm => absurd hm not_mem_nil)
  have hgs : gs.flatMap Prod.snd = ps := hgs
  have hbundled : Bundled n gs := by
    cases hfill <;> assumption
  refine ⟨gs, hgs ▸ hchop, ?_, ?_, hbundled⟩
  · have hfold : cr.chopFillUp n = ps.foldlM (fillStep n) ([], [], 0) >>= fun s =>
        pure (if s.2.1 = [] then s.1 else s.1 ++ [s.2.1]) := by
      rw [chopFillUp, hchop]
      rfl
    rw [hfold, show ps.foldlM (fillStep n) ([], [], 0) = _ from hok]
    cases hfill with
    | closed _ _ => rfl
    | opened _ _ =>
      rw [map_append]
      exact congrArg Except.ok (if_neg (bundled_snoc_iff.mp hbundled).2.1.nonempty)
  · rw [← hvalues, ← hgs, flatMap_map, flatMap_assoc]
    exact flatMap_congr fun p hp => (hbundled.each p hp).values

theorem chopFillUp_bundles_two :
    ∃ gs : List (List RangeTuple × List RangeTuple),
      chopup { items := [⟨1, 3, 1⟩, ⟨7, 8, 1⟩] } 2 = .ok (gs.flatMap Prod.snd) ∧
      chopFillUp { items := [⟨1, 3, 1⟩, ⟨7, 8, 1⟩] } 2 = .ok (gs.map Prod.fst) ∧
      (gs.map Prod.fst).flatMap (·.flatMap RangeTuple.values) = values { items := [⟨1, 3, 1⟩, ⟨7, 8, 1⟩] } ∧
      Bundled (Int.toNat 2) gs := by
  have hproper : Proper 1 0 { items := [⟨1, 3, 1⟩, ⟨7, 8, 1⟩] } := by decide
  exact chopFillUp_bundles (d := 1) (by decide) (by decide) (by decide) hproper.sorted hproper.disjoint

end ChoppyRange

end Urb
