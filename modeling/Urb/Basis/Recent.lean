/-
# `Urb.Basis.Recent` — the last few different entries of a history

A history is a list, oldest entry first, in which an entry may stand several times.
`recent n p h` are the last `n` different entries that have `p`, each at the place of
its last occurrence.

    h ++ [a]            the entry `a` is the newest; when there are `n` others, the oldest
                        of them goes (`recent_concat`)
    p no longer of a    nothing changes when `a` is not among them (`recent_and_of_not_mem`)
-/
import Mathlib.Data.List.Dedup
import Mathlib.Data.List.DropRight

namespace List

variable {α : Type}

/-! ## The end of a list -/

lemma take_filter_of_forall {p : α → Bool} : ∀ {n : ℕ} {l : List α}, (∀ a ∈ l.take n, p a) →
    (l.filter p).take n = l.take n
  | 0, _, _ => by rw [take_zero, take_zero]
  | _ + 1, [], _ => rfl
  | n + 1, a :: l, h => by
    have ha : p a := h a mem_cons_self
    rw [filter_cons_of_pos ha, take_succ_cons, take_succ_cons,
      take_filter_of_forall fun b hb => h b (mem_cons_of_mem _ hb)]

lemma rtake_filter_of_forall {p : α → Bool} {n : ℕ} {l : List α} (h : ∀ a ∈ l.rtake n, p a) :
    (l.filter p).rtake n = l.rtake n := by
  rw [rtake_eq_reverse_take_reverse] at h
  rw [rtake_eq_reverse_take_reverse, rtake_eq_reverse_take_reverse, ← filter_reverse,
    take_filter_of_forall fun a ha => h a (mem_reverse.mpr ha)]

lemma rtake_of_length_le {n : ℕ} {l : List α} (h : l.length ≤ n) : l.rtake n = l := by
  rw [rtake, Nat.sub_eq_zero_of_le h, drop_zero]

lemma rtake_eq_tail {n : ℕ} {l : List α} (h : n < l.length) : l.rtake n = (l.rtake (n + 1)).tail := by
  rw [rtake, rtake, tail_drop]
  congr 1
  omega

/-! ## Recent entries -/

variable [DecidableEq α]

def recent (n : ℕ) (p : α → Bool) (h : List α) : List α := ((h.filter p).dedup).rtake n

lemma dedup_concat (l : List α) (a : α) :
    (l ++ [a]).dedup = (l.filter (fun b => decide (b ≠ a))).dedup ++ [a] := by
  induction l with
  | nil => rfl
  | cons b l ih =>
    by_cases hb : b = a
    · subst hb
      rw [cons_append, dedup_cons_of_mem (by simp), ih, filter_cons_of_neg (by simp)]
    · rw [filter_cons_of_pos (by simpa using hb), cons_append]
      by_cases hl : b ∈ l
      · rw [dedup_cons_of_mem (by simp [hl]), dedup_cons_of_mem (by simp [hl, hb]), ih]
      · rw [dedup_cons_of_notMem (by simp [hl, hb]), dedup_cons_of_notMem (by simp [hl]), ih,
          cons_append]

lemma filter_dedup (p : α → Bool) (l : List α) : (l.filter p).dedup = l.dedup.filter p := by
  induction l with
  | nil => rfl
  | cons a l ih =>
    by_cases hp : p a
    · by_cases ha : a ∈ l
      · rw [filter_cons_of_pos hp, dedup_cons_of_mem (by simp [ha, hp]), dedup_cons_of_mem ha, ih]
      · rw [filter_cons_of_pos hp, dedup_cons_of_notMem (by simp [ha]), dedup_cons_of_notMem ha,
          filter_cons_of_pos hp, ih]
    · rw [filter_cons_of_neg hp, ih]
      by_cases ha : a ∈ l
      · rw [dedup_cons_of_mem ha]
      · rw [dedup_cons_of_notMem ha, filter_cons_of_neg hp]

variable {n : ℕ} {p q : α → Bool} {h : List α} {a : α}

lemma length_recent_le : (recent n p h).length ≤ n := by
  rw [recent, rtake, length_drop]
  omega

lemma nodup_recent : (recent n p h).Nodup := (nodup_dedup _).sublist (drop_sublist _ _)

lemma recent_and_of_not_mem (hq : ∀ b, q b = (p b && decide (b ≠ a))) (ha : a ∉ recent n p h) :
    recent n q h = recent n p h := by
  have hfilter : h.filter q = (h.filter p).filter (fun b => decide (b ≠ a)) := by
    rw [filter_filter]
    exact filter_congr fun b _ => by rw [hq, Bool.and_comm]
  rw [recent, hfilter, filter_dedup (fun b => decide (b ≠ a))]
  refine rtake_filter_of_forall fun b hb => decide_eq_true fun heq => ha ?_
  rw [← heq]
  exact hb

lemma recent_concat (hp : p a = false) (hq : ∀ b, q b = (p b || decide (b = a))) :
    recent (n + 1) q (h ++ [a]) = (if (recent (n + 1) p h).length = n + 1 then (recent (n + 1) p h).tail
        else recent (n + 1) p h) ++ [a] := by
  have hfilter : (h.filter q).filter (fun b => decide (b ≠ a)) = h.filter p := by
    rw [filter_filter]
    refine filter_congr fun b _ => ?_
    by_cases hb : b = a
    · simp [hb, hp]
    · simp [hb, hq]
  have hlast : recent (n + 1) q (h ++ [a]) = ((h.filter p).dedup).rtake n ++ [a] := by
    rw [recent, filter_append, filter_cons_of_pos (by simp [hq]), filter_nil, dedup_concat, hfilter,
      rtake_concat_succ]
  rw [hlast, recent]
  by_cases hlen : n < (h.filter p).dedup.length
  · have hfull : ((h.filter p).dedup.rtake (n + 1)).length = n + 1 := by
      rw [rtake, length_drop]
      omega
    rw [if_pos hfull, rtake_eq_tail hlen]
  · have hle : (h.filter p).dedup.length ≤ n := not_lt.mp hlen
    rw [rtake_of_length_le hle, rtake_of_length_le (hle.trans n.le_succ), if_neg (by omega)]

end List
