/-
# `Urb.Basis.Text` — a text taken apart at the last occurrence of a character

A search from the right (`rfind`, `find_last_of`) gives the part before the last
occurrence of a character and the part after it (`List.splitLast`).  Taking such
parts off until there is no occurrence left finds the first one (`List.peel`).
-/
import Mathlib.Data.List.TakeWhile

namespace List

variable {α : Type*} [DecidableEq α] {c : α}

def splitLast (c : α) : List α → Option (List α × List α)
  | [] => none
  | x :: l =>
    match splitLast c l with
    | some (before, after) => some (x :: before, after)
    | none => if x = c then some ([], l) else none

lemma splitLast_of_not_mem {l : List α} (h : c ∉ l) : splitLast c l = none := by
  induction l with
  | nil => rfl
  | cons x l ih =>
    obtain ⟨hx, hl⟩ := not_or.mp (mt mem_cons.mpr h)
    rw [splitLast, ih hl]
    exact if_neg (Ne.symm hx)

lemma splitLast_append_cons (before : List α) {after : List α} (h : c ∉ after) :
    splitLast c (before ++ c :: after) = some (before, after) := by
  induction before with
  | nil =>
    rw [nil_append, splitLast, splitLast_of_not_mem h]
    exact if_pos rfl
  | cons x before ih => rw [cons_append, splitLast, ih]

lemma eq_append_of_splitLast {l before after : List α}
    (h : splitLast c l = some (before, after)) : l = before ++ c :: after := by
  induction l generalizing before with
  | nil => cases h
  | cons x l ih =>
    rw [splitLast] at h
    split at h
    · next hl =>
        cases h
        rw [ih hl, cons_append]
    · split_ifs at h with hx
      cases h
      rw [hx, nil_append]

lemma not_mem_of_splitLast {l : List α} (h : splitLast c l = none) : c ∉ l := by
  induction l with
  | nil => exact not_mem_nil
  | cons x l ih =>
    rw [splitLast] at h
    split at h
    · cases h
    · next hl =>
        split_ifs at h with hx
        exact mt mem_cons.mp (not_or.mpr ⟨Ne.symm hx, ih hl⟩)

def peel (c : α) (l tail : List α) : List α × List α :=
  match h : splitLast c l with
  | none => (l, tail)
  | some (before, after) => peel c before (c :: after ++ tail)
termination_by l.length
decreasing_by
  rw [eq_append_of_splitLast h, length_append, length_cons]
  omega

lemma peel_eq (c : α) (l tail : List α) :
    peel c l tail = (l.takeWhile (· ≠ c), l.dropWhile (· ≠ c) ++ tail) := by
  -- along the recursion: the part that is taken off begins with `c`, where both searches stop
  fun_induction peel c l tail with
  | case1 l tail h =>
    have hne : ∀ x ∈ l, decide (x ≠ c) := fun x hx =>
      decide_eq_true fun he => not_mem_of_splitLast h (he ▸ hx)
    rw [takeWhile_eq_self_iff.mpr hne, dropWhile_eq_nil_iff.mpr hne, nil_append]
  | case2 l tail before after h ih =>
    rw [ih, eq_append_of_splitLast h, takeWhile_append, dropWhile_append]
    have hstop : takeWhile (· ≠ c) (c :: after) = [] := by simp
    have hstay : dropWhile (· ≠ c) (c :: after) = c :: after := by simp
    rw [hstop, hstay, append_nil]
    congr 1
    · split_ifs with hall
      · exact ( takeWhile_prefix _).eq_of_length hall
      · rfl
    · split_ifs with hnil
      · rw [isEmpty_iff.mp hnil, nil_append]
      · rw [append_assoc]

end List
