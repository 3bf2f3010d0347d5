/-
# `Urb.Basis.DictLoop` — loops that fill a dictionary

A loop makes a value of each element of a list and stores it under a key of the element.
It may carry something from one element to the next, leave an element out, and raise:

    storeAll key step s [e₁, e₂, …] d

with `step s e` the new carry and what is stored under `key e`.  If the keys differ, the
dictionary has in the end what each element has made, and the rest of it is untouched
(`lookup_storeAll`); the loop comes to its end if every step does from a carry of a kind
that the steps keep (`isSome_storeAll`).

`filterKeys` keeps the entries with certain keys, and `lookup_union` says what a merge has.
-/
import Urb.Basis.Dict

namespace AList

open List

variable {κ α ε σ : Type}

/-! ## Leaving keys out -/

def filterKeys (p : κ → Bool) (d : Dict κ α) : Dict κ α :=
  ⟨d.entries.filter (fun e => p e.1), d.nodupKeys.sublist List.filter_sublist⟩

variable [DecidableEq κ]

lemma lookup_filterKeys (p : κ → Bool) (d : Dict κ α) (k : κ) :
    (d.filterKeys p).lookup k = if p k then d.lookup k else none := by
  refine Option.ext fun v => ?_
  have hentry : (⟨k, v⟩ : Sigma fun _ : κ => α) ∈ (d.filterKeys p).entries ↔
      (⟨k, v⟩ : Sigma fun _ : κ => α) ∈ d.entries ∧ p k := mem_filter
  rw [← Option.mem_def, mem_lookup_iff, hentry, ← mem_lookup_iff]
  by_cases hk : p k = true <;> simp [hk]

lemma lookup_union (d d' : Dict κ α) (k : κ) :
    (d ∪ d').lookup k = (d.lookup k).elim (d'.lookup k) some := by
  by_cases hk : k ∈ d
  · obtain ⟨v, hv⟩ := exists_lookup_of_mem hk
    rw [lookup_union_left hk, hv]
    rfl
  · rw [lookup_union_right hk, lookup_eq_none.mpr hk]
    rfl

/-! ## Storing one value for each element -/

def storeAll (key : ε → κ) (step : σ → ε → Option (σ × Option α)) :
    σ → List ε → Dict κ α → Option (Dict κ α)
  | _, [], d => some d
  | s, e :: es, d =>
    (step s e).bind (fun r => storeAll key step r.1 es (r.2.elim d (d.insert (key e))))

variable {key : ε → κ} {step : σ → ε → Option (σ × Option α)} {s : σ} {es : List ε} {d out : Dict κ α}

lemma lookup_storeAll_of_not_mem (h : storeAll key step s es d = some out) {k : κ}
    (hk : k ∉ es.map key) : out.lookup k = d.lookup k := by
  induction es generalizing s d with
  | nil => rw [Option.some.inj h]
  | cons e es ih =>
    obtain ⟨r, -, hrest⟩ := Option.bind_eq_some_iff.mp h
    rw [map_cons, mem_cons, not_or] at hk
    rw [ih hrest hk.2]
    cases r.2 with
    | none => rfl
    | some v => exact (lookup_insert_eq_ite _ _ _ _).trans (if_neg hk.1)

lemma lookup_storeAll (hkeys : (es.map key).Nodup) (h : storeAll key step s es d = some out) {e : ε}
    (he : e ∈ es) :
    ∃ s' r, step s' e = some r ∧ out.lookup (key e) = r.2.elim (d.lookup (key e)) some := by
  induction es generalizing s d with
  | nil => exact absurd he not_mem_nil
  | cons e' es ih =>
    obtain ⟨r, hr, hrest⟩ := Option.bind_eq_some_iff.mp h
    rw [map_cons, nodup_cons] at hkeys
    rcases mem_cons.mp he with rfl | he
    · refine ⟨s, r, hr, ?_⟩
      rw [lookup_storeAll_of_not_mem hrest hkeys.1]
      cases r.2 with
      | none => rfl
      | some v => exact (lookup_insert_eq_ite _ _ _ _).trans (if_pos rfl)
    · have hne : key e ≠ key e' := by
        intro heq
        exact hkeys.1 (heq ▸ mem_map_of_mem he)
      obtain ⟨s', r', hr', hlookup⟩ := ih hkeys.2 hrest he
      refine ⟨s', r', hr', ?_⟩
      rw [hlookup]
      cases r.2 with
      | none => rfl
      | some v => exact congrArg (r'.2.elim · some) ((lookup_insert_eq_ite _ _ _ _).trans (if_neg hne))

lemma isSome_storeAll (P : σ → Prop) (hs : P s)
    (hstep : ∀ s, P s → ∀ e ∈ es, ∃ r, step s e = some r ∧ P r.1) : (storeAll key step s es d).isSome := by
  induction es generalizing s d with
  | nil => rfl
  | cons e es ih =>
    obtain ⟨r, hr, hP⟩ := hstep s hs e mem_cons_self
    rw [storeAll, hr]
    exact ih hP fun s hs e he => hstep s hs e (mem_cons_of_mem _ he)

lemma storeAll_insert (f : ε → α) : storeAll key (fun (_ : Unit) e => some ((), some (f e))) () es d =
      some (es.foldl (fun d e => d.insert (key e) (f e)) d) := by
  induction es generalizing d with
  | nil => rfl
  | cons e es ih => exact ih

end AList
