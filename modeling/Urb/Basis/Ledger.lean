/-
# `Urb.Basis.Ledger` — tokens that are issued and answered

A trace, newest entry first, in which tokens are issued and answered by their
keys.  `pending` are the tokens that have been issued and not answered since;
`answered` are the keys that any answer has named.

    issue l      the tokens of `l` go out
    answer ks    every pending token whose key is in `ks` is settled
    other        an entry that is neither

An answer may name keys that are not pending, and a key may be issued again.
-/
import Mathlib.Data.List.Basic

namespace Ledger

/-- An entry of the trace. -/
inductive Notice (α κ : Type) where
  | issue (l : List α)
  | answer (ks : List κ)
  | other

variable {α κ : Type} [DecidableEq κ] (key : α → κ)

def pending : List (Notice α κ) → List α
  | [] => []
  | .issue l :: w => l ++ pending w
  | .answer ks :: w => (pending w).filter (fun a => key a ∉ ks)
  | .other :: w => pending w

def answered : List (Notice α κ) → List κ
  | [] => []
  | .issue _ :: w => answered w
  | .answer ks :: w => ks ++ answered w
  | .other :: w => answered w

variable {key} {l : List α} {ks : List κ} {w : List (Notice α κ)}

@[simp] lemma pending_other : pending key (.other :: w) = pending key w := rfl

lemma mem_pending_answer {a : α} :
    a ∈ pending key (.answer ks :: w) ↔ a ∈ pending key w ∧ key a ∉ ks := by
  simp only [pending, List.mem_filter, decide_eq_true_eq]

lemma countP_pending_answer_le (p : α → Bool) :
    (pending key (.answer ks :: w)).countP p ≤ (pending key w).countP p :=
  List.filter_sublist.countP_le

end Ledger
