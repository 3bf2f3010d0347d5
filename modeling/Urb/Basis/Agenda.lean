/-
# `Urb.Basis.Agenda` — an ordered map from times to lists

An `Agenda` has a list of values for each of finitely many keys, in ascending order
of the keys.  A value is put at the end of the list of its key (`insert`); what is
due at a key is everything under it and the keys below (`due`), and the rest is kept
(`later`).

Its reading is the list of its entries (`entries_insert`, `due_eq`, `entries_later`).  A
log of everything that was ever put in orders the entries by key and, for one key, by
arrival (`Earlier`); the entries stand in that order (`pairwise_insert`).
-/
import Mathlib.Data.List.Basic
import Mathlib.Data.List.Pairwise
import Mathlib.Data.List.TakeWhile
import Mathlib.Order.Lattice

namespace Urb

open List

variable {κ α : Type}

/-- An ordered map to lists. -/
structure Agenda (κ α : Type) [LinearOrder κ] where
  buckets : List (κ × List α)
  sorted : buckets.Pairwise fun b c => b.1 < c.1

namespace Agenda

def bucketEntries (b : κ × List α) : List (κ × α) := b.2.map fun a => (b.1, a)

lemma exists_bucket {bs : List (κ × List α)} {p : κ × α} (h : p ∈ bs.flatMap bucketEntries) :
    ∃ b ∈ bs, p.1 = b.1 := by
  obtain ⟨b, hb, hp⟩ := mem_flatMap.mp h
  obtain ⟨a, _, rfl⟩ := mem_map.mp hp
  exact ⟨b, hb, rfl⟩

variable [LinearOrder κ]

def empty : Agenda κ α := ⟨[], .nil⟩

def insertBucket (k : κ) (a : α) : List (κ × List α) → List (κ × List α)
  | [] => [(k, [a])]
  | (j, as) :: bs =>
    if k < j then (k, [a]) :: (j, as) :: bs
    else if k = j then (j, as ++ [a]) :: bs
    else (j, as) :: insertBucket k a bs

lemma mem_insertBucket {k : κ} {a : α} {bs : List (κ × List α)} {b : κ × List α}
    (h : b ∈ insertBucket k a bs) : b.1 = k ∨ ∃ c ∈ bs, c.1 = b.1 := by
  induction bs with
  | nil =>
    rw [insertBucket, mem_singleton] at h
    exact .inl (h ▸ rfl)
  | cons c bs ih =>
    obtain ⟨j, as⟩ := c
    rw [insertBucket] at h
    split_ifs at h with hlt heq
    · rcases mem_cons.mp h with rfl | h
      · exact .inl rfl
      · exact .inr ⟨b, h, rfl⟩
    · rcases mem_cons.mp h with rfl | h
      · exact .inl heq.symm
      · exact .inr ⟨b, mem_cons_of_mem _ h, rfl⟩
    · rcases mem_cons.mp h with rfl | h
      · exact .inr ⟨_, mem_cons_self, rfl⟩
      · exact (ih h).imp id fun ⟨c, hc, hkey⟩ => ⟨c, mem_cons_of_mem _ hc, hkey⟩

lemma sorted_insertBucket (k : κ) (a : α) {bs : List (κ × List α)}
    (h : bs.Pairwise fun b c => b.1 < c.1) : (insertBucket k a bs).Pairwise fun b c => b.1 < c.1 := by
  induction bs with
  | nil => exact pairwise_singleton _ _
  | cons c bs ih =>
    obtain ⟨j, as⟩ := c
    obtain ⟨hhead, htail⟩ := pairwise_cons.mp h
    rw [insertBucket]
    split_ifs with hlt heq
    · refine pairwise_cons.mpr ⟨fun b hb => ?_, h⟩
      rcases mem_cons.mp hb with rfl | hb
      · exact hlt
      · exact hlt.trans (hhead b hb)
    · exact pairwise_cons.mpr ⟨hhead, htail⟩
    · refine pairwise_cons.mpr ⟨fun b hb => ?_, ih htail⟩
      rcases mem_insertBucket hb with hkey | ⟨c, hc, hkey⟩
      · rw [hkey]
        exact lt_of_le_of_ne (not_lt.mp hlt) (Ne.symm heq)
      · rw [← hkey]
        exact hhead c hc

def insert (k : κ) (a : α) (A : Agenda κ α) : Agenda κ α :=
  ⟨insertBucket k a A.buckets, sorted_insertBucket k a A.sorted⟩

def entries (A : Agenda κ α) : List (κ × α) := A.buckets.flatMap bucketEntries

def due (k : κ) (A : Agenda κ α) : List (κ × α) :=
  (A.buckets.takeWhile fun b => b.1 ≤ k).flatMap bucketEntries

def later (k : κ) (A : Agenda κ α) : Agenda κ α :=
  ⟨A.buckets.dropWhile fun b => b.1 ≤ k, A.sorted.sublist (dropWhile_sublist _)⟩

/-! ## The entries -/

variable {A : Agenda κ α} {bs : List (κ × List α)} {k : κ} {p : κ × α}

lemma filter_le_of_le (bs : List (κ × List α)) (h : ∀ b ∈ bs, b.1 ≤ k) :
    (bs.flatMap bucketEntries).filter (fun p => p.1 ≤ k) = bs.flatMap bucketEntries ∧
      (bs.flatMap bucketEntries).filter (fun p => k < p.1) = [] := by
  have hle (p) (hp : p ∈ bs.flatMap bucketEntries) : p.1 ≤ k := by
    obtain ⟨b, hb, hkey⟩ := exists_bucket hp
    exact hkey ▸ h b hb
  refine ⟨filter_eq_self.mpr fun p hp => decide_eq_true (hle p hp), ?_⟩
  exact filter_eq_nil_iff.mpr fun p hp => by simpa using hle p hp

lemma filter_le_of_lt (bs : List (κ × List α)) (h : ∀ b ∈ bs, k < b.1) :
    (bs.flatMap bucketEntries).filter (fun p => p.1 ≤ k) = [] ∧
      (bs.flatMap bucketEntries).filter (fun p => k < p.1) = bs.flatMap bucketEntries := by
  have hlt (p) (hp : p ∈ bs.flatMap bucketEntries) : k < p.1 := by
    obtain ⟨b, hb, hkey⟩ := exists_bucket hp
    exact hkey ▸ h b hb
  refine ⟨filter_eq_nil_iff.mpr fun p hp => by simpa using hlt p hp, ?_⟩
  exact filter_eq_self.mpr fun p hp => decide_eq_true (hlt p hp)

lemma lt_of_mem_dropWhile (h : bs.Pairwise fun b c => b.1 < c.1) :
    ∀ b ∈ bs.dropWhile (fun b => b.1 ≤ k), k < b.1 := by
  induction bs with
  | nil => exact fun b hb => absurd hb not_mem_nil
  | cons c bs ih =>
    obtain ⟨hhead, htail⟩ := pairwise_cons.mp h
    by_cases hc : c.1 ≤ k
    · rw [dropWhile_cons_of_pos (by simpa using hc)]
      exact ih htail
    · rw [dropWhile_cons_of_neg (by simpa using hc)]
      intro b hb
      rcases mem_cons.mp hb with rfl | hb
      · exact not_le.mp hc
      · exact (not_le.mp hc).trans (hhead b hb)

lemma entries_split (k : κ) (A : Agenda κ α) : A.entries = A.due k ++ (A.later k).entries := by
  rw [entries, due, later, entries, ← flatMap_append, takeWhile_append_dropWhile]

lemma filter_due (k : κ) (A : Agenda κ α) :
    (A.due k).filter (fun p => p.1 ≤ k) = A.due k ∧ (A.due k).filter (fun p => k < p.1) = [] :=
  filter_le_of_le _ fun b hb => by simpa using mem_takeWhile_imp hb

lemma filter_later (k : κ) (A : Agenda κ α) : (A.later k).entries.filter (fun p => p.1 ≤ k) = [] ∧
      (A.later k).entries.filter (fun p => k < p.1) = (A.later k).entries :=
  filter_le_of_lt _ (lt_of_mem_dropWhile A.sorted)

lemma due_eq (k : κ) (A : Agenda κ α) : A.due k = A.entries.filter fun p => p.1 ≤ k := by
  rw [entries_split k A, filter_append, (filter_due k A).1, (filter_later k A).1, append_nil]

lemma entries_later (k : κ) (A : Agenda κ α) :
    (A.later k).entries = A.entries.filter fun p => k < p.1 := by
  rw [entries_split k A, filter_append, (filter_due k A).2, (filter_later k A).2, nil_append]

lemma flatMap_insertBucket (k : κ) (a : α) (h : bs.Pairwise fun b c => b.1 < c.1) :
    (insertBucket k a bs).flatMap bucketEntries =
      (bs.flatMap bucketEntries).filter (fun p => p.1 ≤ k) ++
        (k, a) :: (bs.flatMap bucketEntries).filter (fun p => k < p.1) := by
  induction bs with
  | nil => rfl
  | cons c bs ih =>
    obtain ⟨j, as⟩ := c
    obtain ⟨hhead, htail⟩ := pairwise_cons.mp h
    rw [insertBucket]
    split_ifs with hlt heq
    · have habove := filter_le_of_lt (k := k) ((j, as) :: bs) fun b hb => by
        rcases mem_cons.mp hb with rfl | hb
        · exact hlt
        · exact hlt.trans (hhead b hb)
      rw [habove.1, habove.2]
      rfl
    · subst heq
      have habove := filter_le_of_lt bs hhead
      have hown := filter_le_of_le (k := k) [(k, as)] (by simp)
      rw [flatMap_singleton] at hown
      rw [flatMap_cons, flatMap_cons, filter_append, filter_append, habove.1, habove.2, hown.1, hown.2]
      simp [bucketEntries]
    · have hle : j ≤ k := not_lt.mp hlt
      have hown := filter_le_of_le (k := k) [(j, as)] (by simpa using hle)
      rw [flatMap_singleton] at hown
      rw [flatMap_cons, flatMap_cons, filter_append, filter_append, hown.1,
        hown.2, ih htail, append_assoc, nil_append]

lemma entries_insert (k : κ) (a : α) (A : Agenda κ α) : (A.insert k a).entries =
      A.entries.filter (fun p => p.1 ≤ k) ++ (k, a) :: A.entries.filter (fun p => k < p.1) :=
  flatMap_insertBucket k a A.sorted

lemma mem_entries_insert {a : α} : p ∈ (A.insert k a).entries ↔ p = (k, a) ∨ p ∈ A.entries := by
  rw [entries_insert, mem_append, mem_cons, mem_filter, mem_filter]
  have htotal : p.1 ≤ k ∨ k < p.1 := le_or_gt _ _
  simp only [decide_eq_true_eq]
  tauto

lemma entries_insert_perm (k : κ) (a : α) (A : Agenda κ α) :
    (A.insert k a).entries.Perm ((k, a) :: A.entries) := by
  rw [entries_insert]
  refine perm_middle.trans (List.Perm.cons _ ?_)
  rw [← due_eq, ← entries_later, ← entries_split]

/-! ## The order of arrival -/

variable [DecidableEq α] {log : List (κ × α)}

def Earlier (log : List (κ × α)) (p q : κ × α) : Prop :=
  p.1 < q.1 ∨ p.1 = q.1 ∧ log.idxOf p < log.idxOf q

lemma Earlier.append {q : κ × α} (h : Earlier log p q) (hp : p ∈ log) (hq : q ∈ log)
    (l : List (κ × α)) : Earlier (log ++ l) p q := by
  refine h.imp id (And.imp id fun hlt => ?_)
  rwa [idxOf_append_of_mem hp, idxOf_append_of_mem hq]

lemma earlier_new {q : κ × α} (hp : p ∈ log) (hq : q ∉ log) (hle : p.1 ≤ q.1) :
    Earlier (log ++ [q]) p q := by
  refine (lt_or_eq_of_le hle).imp id fun heq => ⟨heq, ?_⟩
  rw [idxOf_append_of_mem hp, idxOf_append_of_notMem hq]
  exact (idxOf_lt_length_iff.mpr hp).trans_le (Nat.le_add_right _ _)

lemma nodup_of_pairwise {l : List (κ × α)} (h : l.Pairwise (Earlier log)) : l.Nodup := by
  refine h.imp fun {p q} hpq heq => ?_
  subst heq
  rcases hpq with hlt | ⟨_, hlt⟩
  · exact lt_irrefl _ hlt
  · exact lt_irrefl _ hlt

lemma pairwise_insert (h : A.entries.Pairwise (Earlier log)) (hlog : ∀ p ∈ A.entries, p ∈ log)
    {a : α} (hnew : (k, a) ∉ log) : (A.insert k a).entries.Pairwise (Earlier (log ++ [(k, a)])) := by
  have hgrown : A.entries.Pairwise (Earlier (log ++ [(k, a)])) :=
    h.imp_of_mem fun hp hq hpq => hpq.append (hlog _ hp) (hlog _ hq) _
  rw [entries_insert]
  refine pairwise_append.mpr ⟨hgrown.filter _, pairwise_cons.mpr ⟨?_, hgrown.filter _⟩, ?_⟩
  · intro q hq
    exact .inl (of_decide_eq_true (mem_filter.mp hq).2)
  · intro p hp q hq
    obtain ⟨hmem, hle⟩ := mem_filter.mp hp
    have hle : p.1 ≤ k := of_decide_eq_true hle
    rcases mem_cons.mp hq with rfl | hq
    · exact earlier_new (hlog p hmem) hnew hle
    · exact .inl (hle.trans_lt (of_decide_eq_true (mem_filter.mp hq).2))

end Agenda

end Urb
