/-
# `Urb.Basis.LinkedMap` — maps that keep the order of insertion

A linked hash map enumerates its values in the order in which their keys were
first put in.  An assignment `put` keeps the place of a key that is there and puts a
new one at the END.

Often the key is a field of the value (`Keyed f d`).  Then the map is
determined by the list of its values, and its operations are operations on that
list:

    put       appends, if no value has the key
    erase     filters the value with the key out
    lookup    finds the value with the key
-/
import Urb.Basis.Dict

lemma List.nodup_map_concat {α β : Type*} {f : α → β} {l : List α} {a : α} (h : (l.map f).Nodup)
    (hnew : f a ∉ l.map f) : ((l ++ [a]).map f).Nodup := by
  rw [map_append, map_singleton, ← concat_eq_append]
  exact h.concat hnew

namespace AList

open AList List

variable {κ α : Type}

def Keyed (f : α → κ) (d : Dict κ α) : Prop := ∀ e ∈ d.entries, e.1 = f e.2

lemma Keyed.keys_eq {f : α → κ} {d : Dict κ α} (h : Keyed f d) : d.keys = d.values.map f := by
  rw [values, map_map]
  exact map_congr_left h

variable {f : α → κ} {d : Dict κ α} {k : κ} {v : α}

lemma Keyed.empty (f : α → κ) : Keyed f (∅ : Dict κ α) := fun _ he => absurd he not_mem_nil

lemma Keyed.mem_iff (h : Keyed f d) : k ∈ d ↔ ∃ v ∈ d.values, f v = k := by
  rw [mem_keys, h.keys_eq, mem_map]

lemma Keyed.nodup (h : Keyed f d) : (d.values.map f).Nodup := h.keys_eq ▸ d.keys_nodup

/-! ## Assignments -/

lemma nodupKeys_concat (h : k ∉ d) (v : α) :
    List.NodupKeys (d.entries ++ [(⟨k, v⟩ : Sigma fun _ : κ => α)]) :=
  nodup_map_concat d.keys_nodup fun hk => h (mem_keys.mpr hk)

variable [DecidableEq κ]

def put (k : κ) (v : α) (d : Dict κ α) : Dict κ α :=
  if h : k ∈ d then d.modify k (fun _ => v) else ⟨d.entries ++ [⟨k, v⟩], nodupKeys_concat h v⟩

lemma entries_put_of_not_mem (h : k ∉ d) : (d.put k v).entries = d.entries ++ [⟨k, v⟩] := by
  rw [put, dif_neg h]

lemma values_put_of_not_mem (h : k ∉ d) : (d.put k v).values = d.values ++ [v] := by
  rw [values, entries_put_of_not_mem h, map_append]
  rfl

lemma mapVals_put {β : Type} (g : κ → α → β) (k : κ) (v : α) (d : Dict κ α) :
    (d.put k v).mapVals g = (d.mapVals g).put k (g k v) := by
  refine ext ?_
  by_cases h : k ∈ d
  · rw [put, dif_pos h, put, dif_pos (mem_mapVals.mpr h)]
    simp only [modify, mapVals, map_map]
    refine map_congr_left fun e _ => ?_
    by_cases he : e.1 = k
    · simp [he]
    · simp [he]
  · rw [entries_put_of_not_mem fun hk => h (mem_mapVals.mp hk)]
    show map _ (d.put k v).entries = _
    rw [entries_put_of_not_mem h, map_append]
    rfl

lemma length_values_put_of_mem (h : k ∈ d) : (d.put k v).values.length = d.values.length := by
  rw [put, dif_pos h, values, values, modify, mapVals]
  simp

lemma mem_values_put {x : α} (h : x ∈ (d.put k v).values) : x = v ∨ x ∈ d.values := by
  obtain ⟨e, he, rfl⟩ := mem_map.mp h
  by_cases hk : k ∈ d
  · rw [put, dif_pos hk] at he
    obtain ⟨e', he', rfl⟩ := mem_map.mp he
    dsimp only
    split_ifs
    · exact .inl rfl
    · exact .inr (mem_map_of_mem he')
  · rw [entries_put_of_not_mem hk] at he
    rcases mem_append.mp he with he | he
    · exact .inr (mem_map_of_mem he)
    · rw [mem_singleton.mp he]
      exact .inl rfl

/-! ## Operations on the list of values -/

namespace Keyed

lemma lookup (h : Keyed f d) (hv : v ∈ d.values) : d.lookup (f v) = some v := by
  obtain ⟨e, he, rfl⟩ := mem_map.mp hv
  rw [← h e he]
  exact mem_lookup_iff.mpr he

lemma put (h : Keyed f d) (v : α) : Keyed f (d.put (f v) v) := by
  intro e he
  by_cases hk : f v ∈ d
  · rw [AList.put, dif_pos hk] at he
    obtain ⟨e', he', rfl⟩ := mem_map.mp he
    dsimp only
    split_ifs with heq
    · exact heq
    · exact h e' he'
  · rw [entries_put_of_not_mem hk] at he
    rcases mem_append.mp he with he | he
    · exact h e he
    · rw [mem_singleton.mp he]

lemma erase (h : Keyed f d) (k : κ) : Keyed f (d.erase k) := fun e he =>
  h e ((kerase_sublist k d.entries).subset he)

lemma values_erase (h : Keyed f d) (k : κ) :
    (d.erase k).values = d.values.filter (fun v => f v ≠ k) := by
  have hlist : ∀ l : List (Sigma fun _ : κ => α), l.NodupKeys → (∀ e ∈ l, e.1 = f e.2) →
      (l.kerase k).map (·.2) = (l.map (·.2)).filter (fun v => f v ≠ k) := by
    intro l
    induction l with
    | nil => exact fun _ _ => rfl
    | cons e l ih =>
      intro hnd hkey
      obtain ⟨hnot, hnd'⟩ := nodupKeys_cons.mp hnd
      have hkey' : ∀ e' ∈ l, e'.1 = f e'.2 := fun e' he' => hkey e' (mem_cons_of_mem e he')
      have he := hkey e mem_cons_self
      rw [map_cons]
      by_cases hk : k = e.1
      · -- the keys are pairwise different, so no other value has this one
        rw [kerase_cons_eq hk, filter_cons_of_neg (by simp [← he, hk]), eq_comm, filter_eq_self]
        intro v hv
        obtain ⟨e', he', rfl⟩ := mem_map.mp hv
        have hne : e'.1 ≠ e.1 := fun heq => hnot (heq ▸ mem_keys_of_mem he')
        rw [decide_eq_true_eq, ← hkey' e' he', hk]
        exact hne
      · rw [kerase_cons_ne hk, map_cons, ih hnd' hkey',
          filter_cons_of_pos (by simpa [← he] using Ne.symm hk)]
  exact hlist d.entries d.nodupKeys h

end Keyed

end AList
