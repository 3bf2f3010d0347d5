/-
# `Urb.Basis.Holdings` — what is held by whom

Things that are handed to owners under keys, and taken back by their keys.  A
key is held at most once: the holdings are a dictionary, so a second holding
under the same key takes the place of the first.

`total o f` adds up `f` over the things that the owner `o` holds.  It moves by
one term, which is zero for another owner's key, when a key is given out or
taken back (`total_insert`, `total_erase`).  `place` gives out a list of
holdings and `settle` takes back a list of keys (`total_place`,
`total_settle`).
-/
import Mathlib.Algebra.BigOperators.Group.List.Basic
import Urb.Basis.Dict

/-- A thing, and who holds it. -/
structure Holding (ο α : Type) where
  owner : ο
  item : α
  deriving Repr, DecidableEq

abbrev Holdings (κ ο α : Type) := Dict κ (Holding ο α)

namespace Holdings

open AList List

variable {κ ο α M : Type}

def term [DecidableEq ο] [Zero M] (o : ο) (f : α → M) (x : Holding ο α) : M :=
  if x.owner = o then f x.item else 0

def total [DecidableEq ο] [Zero M] [Add M] (h : Holdings κ ο α) (o : ο) (f : α → M) : M :=
  (h.entries.map (fun e => term o f e.2)).sum

variable [DecidableEq κ]

def place (h : Holdings κ ο α) (l : List (κ × Holding ο α)) : Holdings κ ο α :=
  l.foldl (fun h p => h.insert p.1 p.2) h

def settle (h : Holdings κ ο α) (ks : List κ) : Holdings κ ο α :=
  ks.foldl (fun h k => h.erase k) h

/-! ## Keys -/

section Keys

variable {h : Holdings κ ο α} {k : κ}

lemma erase_of_not_mem (hk : k ∉ h) : h.erase k = h :=
  ext (kerase_of_notMem_keys fun hm => hk hm)

lemma lookup_settle (h : Holdings κ ο α) (ks : List κ) (k : κ) :
    (settle h ks).lookup k = if k ∈ ks then none else h.lookup k := by
  induction ks generalizing h with
  | nil => rfl
  | cons j ks ih =>
    rw [settle, foldl_cons]
    refine (ih (h.erase j)).trans ?_
    rw [lookup_erase_eq_ite]
    by_cases hj : k = j
    · simp [hj]
    · simp [hj]

lemma place_append (h : Holdings κ ο α) (l m : List (κ × Holding ο α)) :
    place h (l ++ m) = place (place h l) m :=
  foldl_append

lemma mem_place {l : List (κ × Holding ο α)} : k ∈ place h l ↔ k ∈ h ∨ k ∈ l.map (·.1) := by
  induction l generalizing h with
  | nil => simp [place]
  | cons p l ih =>
    rw [place, foldl_cons]
    refine (ih (h := h.insert p.1 p.2)).trans ?_
    rw [mem_insert, map_cons, mem_cons]
    tauto

lemma lookup_place_of_not_mem {l : List (κ × Holding ο α)} (hk : k ∉ l.map (·.1)) :
    (place h l).lookup k = h.lookup k := by
  induction l generalizing h with
  | nil => rfl
  | cons p l ih =>
    rw [map_cons, mem_cons, not_or] at hk
    rw [place, foldl_cons]
    exact (ih hk.2).trans (lookup_insert_ne hk.1)

lemma lookup_place_of_mem {l : List (κ × Holding ο α)} {x : Holding ο α}
    (hnodup : (l.map (·.1)).Nodup) (hk : k ∈ l.map (·.1)) (hx : (place h l).lookup k = some x) :
    (k, x) ∈ l := by
  induction l generalizing h with
  | nil => cases hk
  | cons p l ih =>
    rw [map_cons, nodup_cons] at hnodup
    rw [place, foldl_cons] at hx
    by_cases hl : k ∈ l.map (·.1)
    · exact mem_cons_of_mem _ (ih hnodup.2 hl hx)
    · have hp : k = p.1 := (mem_cons.mp hk).resolve_right hl
      have hx' : (h.insert p.1 p.2).lookup k = some x := (lookup_place_of_not_mem hl).symm.trans hx
      rw [hp, lookup_insert] at hx'
      cases hx'
      rw [hp]
      exact mem_cons_self

end Keys

/-! ## Totals -/

section Totals

variable [DecidableEq ο]

lemma term_self [Zero M] (o : ο) (f : α → M) (a : α) : term o f ⟨o, a⟩ = f a := if_pos rfl

lemma term_ne [Zero M] {o : ο} {x : Holding ο α} (h : x.owner ≠ o) (f : α → M) : term o f x = 0 :=
  if_neg h

variable [AddCommMonoid M] {h : Holdings κ ο α} {k : κ} {x : Holding ο α} (o : ο) (f : α → M)

lemma total_insert (hk : k ∉ h) : total (h.insert k x) o f = term o f x + total h o f := by
  rw [total, entries_insert_of_notMem hk, map_cons, sum_cons]
  rfl

lemma total_erase (hk : h.lookup k = some x) : total h o f = term o f x + total (h.erase k) o f := by
  have hlist : ∀ l : List (Sigma fun _ : κ => Holding ο α), l.dlookup k = some x →
      (l.map (fun e => term o f e.2)).sum =
        term o f x + ((l.kerase k).map (fun e => term o f e.2)).sum := by
    intro l
    induction l with
    | nil =>
      intro hl
      cases hl
    | cons e l ih =>
      intro hl
      obtain ⟨k', y⟩ := e
      by_cases he : k = k'
      · subst he
        rw [dlookup_cons_eq] at hl
        cases hl
        have hrest : kerase k (⟨k, x⟩ :: l) = l := kerase_cons_eq rfl
        rw [hrest, map_cons, sum_cons]
      · rw [dlookup_cons_ne _ _ he] at hl
        rw [kerase_cons_ne he, map_cons, map_cons, sum_cons, sum_cons, ih hl, add_left_comm]
  exact hlist h.entries hk

lemma total_erase_ne (hk : ∀ x, h.lookup k = some x → x.owner ≠ o) :
    total (h.erase k) o f = total h o f := by
  cases hx : h.lookup k with
  | none => rw [erase_of_not_mem (lookup_eq_none.mp hx)]
  | some x => rw [total_erase o f hx, term_ne (hk x hx), zero_add]

lemma total_eq_zero (hh : ∀ k x, h.lookup k = some x → x.owner ≠ o) : total h o f = 0 := by
  refine sum_eq_zero fun y hy => ?_
  obtain ⟨e, he, rfl⟩ := mem_map.mp hy
  exact term_ne (hh e.1 e.2 (mem_lookup_iff.mpr he)) f

lemma total_settle {ks : List κ} (hks : ∀ k ∈ ks, ∀ x, h.lookup k = some x → x.owner ≠ o) :
    total (settle h ks) o f = total h o f := by
  induction ks generalizing h with
  | nil => rfl
  | cons j ks ih =>
    rw [settle, foldl_cons]
    refine (ih fun k hk x hx => ?_).trans (total_erase_ne o f (hks j mem_cons_self))
    exact hks k (mem_cons_of_mem _ hk) x (lookup_erase_eq_some_iff.mp hx).2

lemma total_place {l : List (κ × Holding ο α)} (hnodup : (l.map (·.1)).Nodup)
    (hnew : ∀ p ∈ l, p.1 ∉ h) :
    total (place h l) o f = (l.map (fun p => term o f p.2)).sum + total h o f := by
  induction l generalizing h with
  | nil => simp [place]
  | cons p l ih =>
    rw [map_cons, nodup_cons] at hnodup
    rw [place, foldl_cons, map_cons, sum_cons]
    refine (ih hnodup.2 fun q hq hm => ?_).trans ?_
    · rcases (mem_insert _).mp hm with he | hm
      · exact hnodup.1 (he ▸ mem_map_of_mem hq)
      · exact hnew q (mem_cons_of_mem _ hq) hm
    · rw [total_insert o f (hnew p mem_cons_self), add_left_comm, add_assoc]

end Totals

end Holdings
