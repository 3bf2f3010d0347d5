/-
# `Urb.FinishedFrameworks` — the finished frameworks that the tracker keeps

`FrameworkTracker.remove` puts the record of a framework into a dictionary and its id into
a queue, from which the oldest id goes when it is full.  The two are to be in step.

`add` does not look at the finished frameworks.  A framework that registers again under
the id of a finished one is active and finished; when it is removed again its id is in the
queue twice, and when the first of the two is taken out, the record goes with it, and
the removal that takes out the second one raises.

**Proved here.**  The tracker is consistent after every operation of a sequence exactly
if no framework is added under the id of one that is kept as finished
(`tracker_consistent_iff`).
-/
import Urb.Basis.Recent
import Urb.Tracker

namespace Urb

open List AList

namespace FrameworkTracker

variable {ω : Type}

/-! ## Sequences of operations -/

inductive Op (ω : Type) where
  | add (id : String) (o : ω)
  | remove (id : String)

structure Use (ω : Type) where
  tracker : FrameworkTracker ω := {}
  raised : Bool := false
  removed : List String := []

namespace Use

def step (u : Use ω) : Op ω → Use ω
  | .add id o => { u with tracker := u.tracker.add id o }
  | .remove id =>
    { tracker := (remove id u.tracker).1
      raised := u.raised || decide ((remove id u.tracker).2 ≠ .next)
      removed := if id ∈ u.tracker.active then u.removed ++ [id] else u.removed }

def inactive (u : Use ω) (id : String) : Bool := decide (id ∉ u.tracker.active)

structure Consistent (u : Use ω) : Prop where
  raised : u.raised = false
  keys : ∀ id, id ∈ u.tracker.finished ↔ id ∈ u.tracker.finishedIds
  nodup : u.tracker.finishedIds.Nodup
  length : u.tracker.finishedIds.length ≤ maxFinished
  recent : u.tracker.finishedIds = u.removed.recent maxFinished u.inactive
  apart : ∀ id ∈ u.tracker.active, id ∉ u.tracker.finished

def Fresh (u : Use ω) : Op ω → Prop
  | .add id _ => id ∉ u.tracker.finished
  | .remove _ => True

end Use

/-! ## One operation -/

def kept (t : FrameworkTracker ω) : List String :=
  if t.finishedIds.length = maxFinished then t.finishedIds.tail else t.finishedIds

lemma mem_retire {t : FrameworkTracker ω} {id k : String} {o : ω} :
    k ∈ (t.retire id o).finished ↔ k = id ∨ k ∈ t.finished := mem_insert _

lemma remove_of_keys {t : FrameworkTracker ω} {id : String} {o : ω} (ho : t.get id = some o)
    (hkeys : ∀ k, k ∈ t.finished ↔ k ∈ t.finishedIds) (hnodup : t.finishedIds.Nodup)
    (hid : id ∉ t.finishedIds) : (remove id t).2 = .next ∧ (remove id t).1.active = t.active.erase id ∧
      (remove id t).1.finishedIds = t.kept ++ [id] ∧
      ∀ k, k ∈ (remove id t).1.finished ↔ k ∈ t.kept ++ [id] := by
  have hids : (t.retire id o).finishedIds = t.finishedIds := rfl
  simp only [remove, ho, enqueue, hids, kept]
  cases hq : t.finishedIds with
  | nil =>
    refine ⟨rfl, rfl, rfl, fun k => ?_⟩
    rw [mem_retire, hkeys, hq]
    simp [maxFinished]
  | cons oldest rest =>
    rw [hq] at hnodup hid
    have hrest : oldest ∉ rest := (nodup_cons.mp hnodup).1
    by_cases hfull : (oldest :: rest).length = maxFinished
    · have hmem : oldest ∈ (t.retire id o).finished := by
        rw [mem_retire, hkeys, hq]
        exact .inr mem_cons_self
      simp only [if_pos hfull, if_pos hmem, tail_cons]
      refine ⟨trivial, rfl, trivial, fun k => ?_⟩
      rw [mem_erase, mem_retire, hkeys, hq, mem_append, mem_cons, mem_singleton]
      constructor
      · rintro ⟨hne, rfl | rfl | hk⟩
        · exact .inr rfl
        · exact absurd rfl hne
        · exact .inl hk
      · rintro (hk | rfl)
        · exact ⟨fun heq => hrest (heq ▸ hk), .inr (.inr hk)⟩
        · exact ⟨fun heq => hid (heq ▸ mem_cons_self), .inl rfl⟩
    · simp only [if_neg hfull]
      refine ⟨trivial, rfl, trivial, fun k => ?_⟩
      rw [mem_retire, hkeys, hq, mem_append, mem_singleton, or_comm]

namespace Use

variable {u : Use ω}

lemma Consistent.add {id : String} (h : u.Consistent) (hid : id ∉ u.tracker.finished) (o : ω) :
    (u.step (.add id o)).Consistent := by
  have hinactive : ∀ k, (u.step (.add id o)).inactive k = (u.inactive k && decide (k ≠ id)) := by
    intro k
    simp only [inactive, step, FrameworkTracker.add, mem_insert, not_or, Bool.decide_and]
    exact Bool.and_comm _ _
  refine ⟨h.raised, h.keys, h.nodup, h.length, ?_, fun k hk => ?_⟩
  · refine h.recent.trans (recent_and_of_not_mem hinactive ?_).symm
    rw [← h.recent, ← h.keys]
    exact hid
  · rcases (mem_insert _).mp hk with rfl | hk
    · exact hid
    · exact h.apart k hk

lemma Consistent.remove (h : u.Consistent) (id : String) : (u.step (.remove id)).Consistent := by
  cases ho : u.tracker.get id with
  | none =>
    -- nothing is removed
    have hid : id ∉ u.tracker.active := lookup_eq_none.mp ho
    have hsame : FrameworkTracker.remove id u.tracker = (u.tracker, .next) := by
      simp only [FrameworkTracker.remove, ho]
    have hstep : u.step (.remove id) = u := by simp [step, hsame, hid]
    rw [hstep]
    exact h
  | some o =>
    have hid : id ∈ u.tracker.active := mem_of_lookup ho
    have hnot : id ∉ u.tracker.finishedIds := by
      rw [← h.keys]
      exact h.apart id hid
    obtain ⟨hnext, hactive, hids, hkeys⟩ := remove_of_keys ho h.keys h.nodup hnot
    have hinactive : ∀ k, (u.step (.remove id)).inactive k = (u.inactive k || decide (k = id)) := by
      intro k
      simp only [inactive, step, hactive, mem_erase, not_and_or, not_not, Bool.decide_or]
      exact Bool.or_comm _ _
    have hrecent : u.tracker.kept ++ [id] =
        (u.removed ++ [id]).recent maxFinished (u.step (.remove id)).inactive := by
      rw [kept, h.recent, maxFinished, recent_concat (by simp [inactive, hid]) hinactive]
    have hremoved : (u.step (.remove id)).removed = u.removed ++ [id] := if_pos hid
    refine ⟨?_, fun k => ?_, ?_, ?_, ?_, fun k hk => ?_⟩
    · show (u.raised || decide ((FrameworkTracker.remove id u.tracker).2 ≠ .next)) = false
      rw [h.raised, hnext]
      rfl
    · show k ∈ (FrameworkTracker.remove id u.tracker).1.finished ↔ _
      rw [hkeys, ← hids]
      rfl
    · show (FrameworkTracker.remove id u.tracker).1.finishedIds.Nodup
      rw [hids, hrecent]
      exact nodup_recent
    · show (FrameworkTracker.remove id u.tracker).1.finishedIds.length ≤ maxFinished
      rw [hids, hrecent]
      exact length_recent_le
    · rw [hremoved, ← hrecent, ← hids]
      rfl
    · have hk' : k ∈ u.tracker.active.erase id := hactive ▸ hk
      obtain ⟨hne, hkact⟩ := mem_erase.mp hk'
      show k ∉ (FrameworkTracker.remove id u.tracker).1.finished
      rw [hkeys, ← hids, hids, mem_append, mem_singleton]
      rintro (hkept | rfl)
      · have hkin : k ∈ u.tracker.finishedIds := by
          rw [kept] at hkept
          split_ifs at hkept
          · exact mem_of_mem_tail hkept
          · exact hkept
        exact h.apart k hkact ((h.keys k).mpr hkin)
      · exact hne rfl

lemma consistent_step_iff (h : u.Consistent) (op : Op ω) : (u.step op).Consistent ↔ u.Fresh op := by
  cases op with
  | add id o =>
    refine ⟨fun hstep => ?_, fun hid => h.add hid o⟩
    exact hstep.apart id ((mem_insert _).mpr (.inl rfl))
  | remove id => exact iff_of_true (h.remove id) trivial

end Use

/-! ## Consistency -/

theorem tracker_consistent_iff (ops : List (Op ω)) :
    (∀ done, done <+: ops → (Machine.run Use.step ({} : Use ω) done).Consistent) ↔
      Machine.Guarded Use.step Use.Fresh {} ops := by
  have hempty : ({} : Use ω).Consistent := by
    refine ⟨rfl, fun id => ?_, nodup_nil, Nat.zero_le _, rfl, fun id hid => ?_⟩
    · exact iff_of_false (AList.notMem_empty id) not_mem_nil
    · exact absurd hid (AList.notMem_empty id)
  exact Machine.prefixes_iff (I := fun _ => True) (Q := Use.Consistent) (G := Use.Fresh)
    (P := fun _ _ => True) (fun _ _ _ _ _ => trivial) (fun _ op _ hu _ => Use.consistent_step_iff hu op)
    trivial hempty (Machine.guarded_of_forall (fun _ _ => trivial) _ ops)

def reregistered : List (Op Unit) := [.add "a" (), .remove "a", .add "a" ()]

def othersRemoved (n : ℕ) : List (Op Unit) :=
  (List.range n).flatMap (fun k => [.add (toString k) (), .remove (toString k)])

theorem tracker_inconsistent :
    ¬ (Machine.run Use.step ({} : Use Unit) reregistered).Consistent ∧
      (Machine.run Use.step ({} : Use Unit)
        (reregistered ++ .remove "a" :: othersRemoved 25)).raised = true := by
  refine ⟨fun h => ?_, by decide +kernel⟩
  have hactive : "a" ∈ (Machine.run Use.step ({} : Use Unit) reregistered).tracker.active := by
    decide +kernel
  exact h.apart "a" hactive (by decide +kernel)

end FrameworkTracker

end Urb
