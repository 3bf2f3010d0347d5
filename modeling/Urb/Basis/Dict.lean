/-
# `Urb.Basis.Dict` — dictionaries that are updated in place

A Python dictionary is modelled by Mathlib's `AList`: a list of key/value
pairs whose keys are pairwise different.  This module adds the two operations
that change the VALUES and keep the keys,

    mapVals f    every value `v` under `k` becomes `f k v`
    modify k f   the value under `k` becomes `f v`, the others stay

with their `lookup` and `keys` equations, and the enumeration of the values.
A dictionary that is kept beside a field of the things it names, to find the
thing by the field's value, `Inverts` that field.
-/
import Mathlib.Data.List.AList

abbrev Dict (κ α : Type) := AList (fun _ : κ => α)

namespace AList

open AList Function List

variable {κ α β : Type}

/-! ## Changing values -/

def mapVals (f : κ → α → β) (d : Dict κ α) : Dict κ β :=
  ⟨d.entries.map (fun e => ⟨e.1, f e.1 e.2⟩), by
    have h : (d.entries.map (fun e => (⟨e.1, f e.1 e.2⟩ : Sigma fun _ : κ => β))).keys =
        d.entries.keys := by
      simp [List.keys, Function.comp_def]
    show List.Nodup _
    rw [h]
    exact d.nodupKeys⟩

@[simp] lemma keys_mapVals (f : κ → α → β) (d : Dict κ α) : (d.mapVals f).keys = d.keys := by
  simp [mapVals, keys, List.keys, comp_def]

@[simp] lemma mem_mapVals {f : κ → α → β} {d : Dict κ α} {k : κ} : k ∈ d.mapVals f ↔ k ∈ d := by
  rw [mem_keys, keys_mapVals, ← mem_keys]

variable [DecidableEq κ]

lemma dlookup_mapVals (f : κ → α → β) (k : κ) : ∀ l : List (Sigma fun _ : κ => α),
      (l.map (fun e => (⟨e.1, f e.1 e.2⟩ : Sigma fun _ : κ => β))).dlookup k = (l.dlookup k).map (f k)
  | [] => rfl
  | e :: l => by
    obtain ⟨k', v⟩ := e
    by_cases h : k' = k
    · subst h
      simp
    · have ih := dlookup_mapVals f k l
      rw [map_cons, dlookup_cons_ne _ _ (Ne.symm h), ih, dlookup_cons_ne _ _ (Ne.symm h)]

@[simp] lemma lookup_mapVals (f : κ → α → β) (d : Dict κ α) (k : κ) :
    (d.mapVals f).lookup k = (d.lookup k).map (f k) :=
  dlookup_mapVals f k d.entries

def modify (k : κ) (f : α → α) (d : Dict κ α) : Dict κ α :=
  d.mapVals (fun k' v => if k' = k then f v else v)

@[simp] lemma keys_modify (k : κ) (f : α → α) (d : Dict κ α) : (d.modify k f).keys = d.keys :=
  keys_mapVals _ d

@[simp] lemma mem_modify {k j : κ} {f : α → α} {d : Dict κ α} : j ∈ d.modify k f ↔ j ∈ d :=
  mem_mapVals

lemma lookup_modify (k j : κ) (f : α → α) (d : Dict κ α) :
    (d.modify k f).lookup j = if j = k then (d.lookup j).map f else d.lookup j := by
  rw [modify, lookup_mapVals]
  by_cases h : j = k
  · simp only [if_pos h]
  · simp only [if_neg h, Option.map_id_fun', id_eq]

@[simp] lemma lookup_modify_self (k : κ) (f : α → α) (d : Dict κ α) :
    (d.modify k f).lookup k = (d.lookup k).map f := by
  rw [lookup_modify, if_pos rfl]

@[simp] lemma lookup_modify_ne {k j : κ} (h : j ≠ k) (f : α → α) (d : Dict κ α) :
    (d.modify k f).lookup j = d.lookup j := by
  rw [lookup_modify, if_neg h]

lemma lookup_modify_of_some {k : κ} {u : α} {d : Dict κ α} (h : d.lookup k = some u) (f : α → α) :
    (d.modify k f).lookup k = some (f u) := by
  rw [lookup_modify_self, h]
  rfl

lemma of_lookup_modify_self {k : κ} {f : α → α} {d : Dict κ α} {v : α}
    (h : (d.modify k f).lookup k = some v) : ∃ u, d.lookup k = some u ∧ f u = v :=
  Option.map_eq_some_iff.mp ((lookup_modify_self k f d).symm.trans h)

lemma lookup_modify_cases {k j : κ} {f : α → α} {d : Dict κ α} {v : α}
    (h : (d.modify k f).lookup j = some v) :
    (j = k ∧ ∃ u, d.lookup j = some u ∧ f u = v) ∨ (j ≠ k ∧ d.lookup j = some v) := by
  rw [lookup_modify] at h
  split_ifs at h with hj
  · exact .inl ⟨hj, Option.map_eq_some_iff.mp h⟩
  · exact .inr ⟨hj, h⟩

lemma modify_congr {k : κ} {v : α} {f g : α → α} {d : Dict κ α} (h : d.lookup k = some v)
    (hv : f v = g v) : d.modify k f = d.modify k g := by
  refine ext (map_congr_left fun e he => ?_)
  by_cases hk : e.1 = k
  · subst hk
    have hl : d.lookup e.1 = some e.2 := mem_lookup_iff.mpr he
    rw [h] at hl
    cases hl
    simp only [if_true, hv]
  · simp only [if_neg hk]

lemma mem_of_lookup {d : Dict κ α} {k : κ} {v : α} (h : d.lookup k = some v) : k ∈ d :=
  lookup_isSome.mp (by rw [h]; rfl)

lemma modify_of_not_mem {k : κ} {d : Dict κ α} (h : k ∉ d) (f : α → α) : d.modify k f = d := by
  refine ext ((map_congr_left fun e he => ?_).trans d.entries.map_id)
  have hne : e.1 ≠ k := by
    rintro rfl
    exact h (mem_of_lookup (mem_lookup_iff.mpr he))
  simp only [if_neg hne, id_eq]

lemma entries_eq_filterMap (d : Dict κ α) :
    d.entries = d.keys.filterMap (fun k => (d.lookup k).map (Sigma.mk k)) := by
  have hread : ∀ e ∈ d.entries, (d.lookup e.1).map (Sigma.mk e.1) = some e := fun e he => by
    rw [mem_lookup_iff.mpr he]
    rfl
  rw [keys, List.keys, List.filterMap_map]
  exact (filterMap_some.symm).trans (filterMap_congr fun e he => (hread e he).symm)

lemma eq_of_lookup {d d' : Dict κ α} (hkeys : d.keys = d'.keys)
    (h : ∀ k, d.lookup k = d'.lookup k) : d = d' := by
  refine ext ?_
  rw [entries_eq_filterMap, entries_eq_filterMap d', hkeys]
  simp only [h]

/-! ## Lookup, case by case -/

lemma lookup_insert_eq_ite (k j : κ) (v : α) (d : Dict κ α) :
    (d.insert k v).lookup j = if j = k then some v else d.lookup j := by
  by_cases h : j = k
  · subst h
    rw [lookup_insert, if_pos rfl]
  · rw [lookup_insert_ne h, if_neg h]

lemma lookup_insert_cases {k j : κ} {u v : α} {d : Dict κ α} (h : (d.insert k u).lookup j = some v) :
    (j = k ∧ u = v) ∨ (j ≠ k ∧ d.lookup j = some v) := by
  rw [lookup_insert_eq_ite] at h
  split_ifs at h with hj
  · exact .inl ⟨hj, Option.some.inj h⟩
  · exact .inr ⟨hj, h⟩

lemma lookup_singleton_eq_ite (k j : κ) (v : α) :
    (singleton k v : Dict κ α).lookup j = if j = k then some v else none := by
  rw [← insert_empty, lookup_insert_eq_ite, lookup_empty]

lemma lookup_erase_eq_ite (k j : κ) (d : Dict κ α) :
    (d.erase k).lookup j = if j = k then none else d.lookup j := by
  by_cases h : j = k
  · subst h
    rw [lookup_erase, if_pos rfl]
  · rw [lookup_erase_ne h, if_neg h]

lemma lookup_insert_eq_some_iff {k j : κ} {v w : α} {d : Dict κ α} :
    (d.insert k v).lookup j = some w ↔ (j = k ∧ w = v) ∨ (j ≠ k ∧ d.lookup j = some w) := by
  rw [lookup_insert_eq_ite]
  split_ifs with h
  · simp [h, eq_comm]
  · simp [h]

lemma lookup_erase_eq_some_iff {k j : κ} {v : α} {d : Dict κ α} :
    (d.erase k).lookup j = some v ↔ j ≠ k ∧ d.lookup j = some v := by
  rw [lookup_erase_eq_ite]
  split_ifs with h <;> simp [h]

lemma exists_lookup_of_mem {d : Dict κ α} {k : κ} (h : k ∈ d) : ∃ v, d.lookup k = some v :=
  Option.isSome_iff_exists.mp (lookup_isSome.mpr h)

/-! ## The values -/

def values (d : Dict κ α) : List α := d.entries.map (·.2)

lemma mem_values_iff {d : Dict κ α} {v : α} : v ∈ d.values ↔ ∃ k, d.lookup k = some v := by
  constructor
  · intro h
    obtain ⟨⟨k, v'⟩, he, rfl⟩ := mem_map.mp h
    exact ⟨k, mem_lookup_iff.mpr he⟩
  · rintro ⟨k, h⟩
    exact mem_map.mpr ⟨⟨k, v⟩, mem_lookup_iff.mp h, rfl⟩

/-! ## A field read backwards -/

def Inverts (d : Dict κ α) (f : α → Option κ) : Prop :=
  ∀ k a, d.lookup k = some a ↔ f a = some k

namespace Inverts

variable {d : Dict κ α} {f : α → Option κ} {k : κ} {a : α}

lemma empty (h : ∀ a, f a = none) : Inverts (∅ : Dict κ α) f := by
  intro k a
  rw [lookup_empty, h a]
  exact iff_of_false nofun nofun

lemma apart (h : Inverts d f) {b : α} (ha : f a = some k) (hb : f b = some k) : a = b :=
  Option.some.inj (((h k a).mpr ha).symm.trans ((h k b).mpr hb))

lemma insert_same (h : Inverts d f) (ha : f a = some k) : Inverts (d.insert k a) f := by
  intro j b
  rw [lookup_insert_eq_ite]
  split_ifs with hj
  · subst hj
    refine ⟨fun he => Option.some.inj he ▸ ha, fun hb => congrArg some (h.apart ha hb)⟩
  · exact h j b

variable [DecidableEq α]

lemma erase (h : Inverts d f) (hown : ∀ k', f a = some k' → k' = k)
    (honly : ∀ b, f b = some k → b = a) : Inverts (d.erase k) (update f a none) := by
  intro j b
  rw [lookup_erase_eq_ite, update_apply]
  split_ifs with hj hb hb
  · exact iff_of_false nofun nofun
  · subst hj
    exact iff_of_false nofun fun hf => hb (honly b hf)
  · subst hb
    exact iff_of_false (fun hl => hj (hown j ((h j b).mp hl))) nofun
  · exact h j b

lemma insert (h : Inverts d f) (hnew : d.lookup k = none) (hnone : f a = none) :
    Inverts (d.insert k a) (update f a (some k)) := by
  intro j b
  rw [lookup_insert_eq_ite, update_apply]
  split_ifs with hj hb hb
  · exact iff_of_true (congrArg some hb.symm) (congrArg some hj.symm)
  · subst hj
    refine iff_of_false (fun hl => hb (Option.some.inj hl).symm) fun hf => ?_
    cases hnew.symm.trans ((h j b).mpr hf)
  · subst hb
    refine iff_of_false (fun hl => ?_) fun he => hj (Option.some.inj he).symm
    cases hnone.symm.trans ((h j b).mp hl)
  · exact h j b

end Inverts

end AList
