/-
# `Urb.AtLeastOnce` — no copy of a message disappears before its handling has ended

A popped message stays in the processing list until its handling has ended.
What takes it out is `message_processed`, by `LREM queue.processing 0 text`,
which removes every copy of the text, also one whose handling is under way.

**Proved here.**  Over any sequence of pushes, pops, ends of handlings, calls of
`message_processed`, crashes and restores, every copy whose handling has not
ended is in one of the two lists in every state, exactly when no
`message_processed` finds another copy of its text in the processing list whose
handling has not ended (`copies_kept_iff`).
-/
import Mathlib.Data.List.Nodup
import Mathlib.Data.List.Perm.Subperm
import Urb.Broker

namespace Urb.Delivery

open List

def Kept (s : Delivery) : Prop := ∀ c ∈ s.pushed, c ∉ s.ended → s.Holds c

structure Numbered (s : Delivery) : Prop where
  nodup : (s.broker.queue ++ s.broker.processing).Nodup
  known : ∀ c, s.Holds c → c ∈ s.pushed
  numbers : s.pushed.map (·.number) = List.range s.pushed.length

variable {s : Delivery}

lemma numbered_start : Numbered {} :=
  ⟨nodup_nil, fun _ h => h.elim id id, rfl⟩

lemma Numbered.lt (hs : s.Numbered) {c : Copy} (hc : c ∈ s.pushed) : c.number < s.pushed.length := by
  have hmem : c.number ∈ s.pushed.map (·.number) := mem_map_of_mem hc
  rw [hs.numbers] at hmem
  exact mem_range.mp hmem

lemma Numbered.nodup_pushed (hs : s.Numbered) : s.pushed.Nodup := by
  apply List.Nodup.of_map (·.number)
  rw [hs.numbers]
  exact nodup_range

lemma Numbered.not_mem_queue (hs : s.Numbered) {c : Copy} (hc : c ∈ s.broker.processing) :
    c ∉ s.broker.queue := fun hq => (disjoint_of_nodup_append hs.nodup) hq hc

/-! ## What one event does -/

lemma Numbered.push (hs : s.Numbered) (text : String) : (s.push text).Numbered := by
  have hfresh : ¬ s.Holds { number := s.pushed.length, text := text } :=
    fun h => absurd (hs.lt (hs.known _ h)) (Nat.lt_irrefl _)
  refine ⟨?_, fun c hc => ?_, ?_⟩
  · show (_ :: (s.broker.queue ++ s.broker.processing)).Nodup
    exact nodup_cons.mpr ⟨fun h => hfresh (mem_append.mp h), hs.nodup⟩
  · rcases (holds_push text c).mp hc with rfl | hc
    · exact mem_append_right _ (mem_singleton.mpr rfl)
    · exact mem_append_left _ (hs.known c hc)
  · simp only [Delivery.push, map_append, hs.numbers, map_cons, map_nil,
      length_append, length_singleton, range_succ]

lemma Numbered.pop (hs : s.Numbered) (consumer : ℕ) (blocking : Bool) :
    (s.pop consumer blocking).Numbered := by
  refine ⟨?_, fun c hc => hs.known c ((holds_pop consumer blocking c).mp hc), hs.numbers⟩
  have hnodup := hs.nodup
  rcases s.pop_eq_or consumer blocking with hpop | ⟨queue, m, new, hq, -, hpop⟩
  · rw [hpop]
    exact hnodup
  · rw [hq, append_assoc] at hnodup
    rw [hpop]
    exact hnodup

lemma Numbered.processed (hs : s.Numbered) (h : Handling) : (s.processed h).Numbered := by
  refine ⟨hs.nodup.sublist (filter_sublist.append_left _), fun c hc => ?_, hs.numbers⟩
  rcases (holds_processed h c).mp hc with hc | hc
  · exact hs.known c (.inl hc)
  · exact hs.known c (.inr hc.1)

lemma Numbered.restore (hs : s.Numbered) : s.restore.Numbered := by
  refine ⟨?_, fun c hc => hs.known c ((holds_restore c).mp hc), hs.numbers⟩
  simp only [Delivery.restore, MessageQueue.restoreLostMessages_eq, append_nil]
  exact hs.nodup

lemma Numbered.step (hs : s.Numbered) (e : Event) : (s.step e).Numbered := by
  cases e with
  | push text => exact hs.push text
  | pop consumer blocking => exact hs.pop consumer blocking
  | returned n =>
    simp only [Delivery.step]
    cases s.handling? n false with
    | none => exact hs
    | some h => exact ⟨hs.nodup, hs.known, hs.numbers⟩
  | raised n =>
    simp only [Delivery.step]
    cases s.handling? n false with
    | none => exact hs
    | some h => exact ⟨hs.nodup, hs.known, hs.numbers⟩
  | processed n =>
    simp only [Delivery.step]
    cases s.handling? n true with
    | none => exact hs
    | some h => exact hs.processed h
  | crash consumer => exact ⟨hs.nodup, hs.known, hs.numbers⟩
  | restore => exact hs.restore

def Unshared (s : Delivery) : Event → Prop
  | .processed n => ∀ h ∈ s.handling? n true, ∀ c ∈ s.broker.processing,
      c.text = h.copy.text → c ∈ s.ended
  | _ => True

lemma Kept.end (hk : s.Kept) (h : Handling) : (s.returned h).Kept ∧ (s.raised h).Kept :=
  ⟨fun c hc hend => hk c hc fun hmem => hend (mem_cons_of_mem _ hmem),
    fun c hc hend => hk c hc fun hmem => hend (mem_cons_of_mem _ hmem)⟩

lemma kept_processed_iff (hs : s.Numbered) (hk : s.Kept) (h : Handling) : (s.processed h).Kept ↔
      ∀ c ∈ s.broker.processing, c.text = h.copy.text → c ∈ s.ended := by
  constructor
  · intro hk' c hc htext
    by_contra hend
    rcases (holds_processed h c).mp (hk' c (hs.known c (.inr hc)) hend) with hq | ⟨_, hne⟩
    · exact hs.not_mem_queue hc hq
    · exact hne htext
  · intro hall c hc hend
    refine (holds_processed h c).mpr ((hk c hc hend).imp_right fun hp => ⟨hp, fun htext => ?_⟩)
    exact hend (hall c hp htext)

lemma kept_step_iff (hs : s.Numbered) (hk : s.Kept) (e : Event) : (s.step e).Kept ↔ s.Unshared e := by
  cases e with
  | push text =>
    refine iff_of_true (fun c hc hend => (holds_push text c).mpr ?_) trivial
    rcases mem_append.mp hc with hc | hc
    · exact .inr (hk c hc hend)
    · exact .inl (mem_singleton.mp hc)
  | pop consumer blocking =>
    exact iff_of_true (fun c hc hend => (holds_pop consumer blocking c).mpr (hk c hc hend)) trivial
  | returned n =>
    refine iff_of_true ?_ trivial
    simp only [Delivery.step]
    cases s.handling? n false with
    | none => exact hk
    | some h => exact (hk.end h).1
  | raised n =>
    refine iff_of_true ?_ trivial
    simp only [Delivery.step]
    cases s.handling? n false with
    | none => exact hk
    | some h => exact (hk.end h).2
  | processed n =>
    simp only [Delivery.step, Unshared]
    cases s.handling? n true with
    | none => simp [hk]
    | some h => simpa using kept_processed_iff hs hk h
  | crash consumer => exact iff_of_true hk trivial
  | restore => exact iff_of_true (fun c hc hend => (holds_restore c).mpr (hk c hc hend)) trivial

/-! ## In terms of the texts Redis holds -/

def unended (t : String) (s : Delivery) : List Copy :=
  s.pushed.filter (fun c => c.text = t ∧ c ∉ s.ended)

def textCount (t : String) (s : Delivery) : ℕ :=
  (s.broker.map Copy.text).queue.count t + (s.broker.map Copy.text).processing.count t

lemma textCount_eq (t : String) :
    s.textCount t = ((s.broker.queue ++ s.broker.processing).filter (·.text = t)).length := by
  have hcount : ∀ l : List Copy, (l.map Copy.text).count t = (l.filter (·.text = t)).length := by
    intro l
    rw [List.count, countP_map, countP_eq_length_filter]
    rfl
  rw [filter_append, length_append, ← hcount, ← hcount]
  rfl

lemma Kept.unended_le (hs : s.Numbered) (hk : s.Kept) (t : String) :
    (s.unended t).length ≤ s.textCount t := by
  rw [textCount_eq]
  refine List.Subperm.length_le (subperm_of_subset (hs.nodup_pushed.filter _) fun c hc => ?_)
  obtain ⟨hc, hboth⟩ := mem_filter.mp hc
  obtain ⟨htext, hend⟩ := of_decide_eq_true hboth
  exact mem_filter.mpr ⟨mem_append.mpr (hk c hc hend), decide_eq_true htext⟩

lemma numbered_run (es : List Event) : (Machine.run Delivery.step {} es).Numbered :=
  Machine.run_inv (I := Numbered) (G := fun _ _ => True) (fun _ e hs _ => Numbered.step hs e) numbered_start
    (Machine.guarded_of_forall (fun _ _ => trivial) _ _)

theorem copies_kept_iff (es : List Event) :
    ((∀ fs, fs <+: es → (Machine.run step {} fs).Kept) ↔ Machine.Guarded step Unshared {} es) ∧
      (Machine.Guarded step Unshared {} es → ∀ fs, fs <+: es → ∀ t,
        ((Machine.run step {} fs).unended t).length ≤ (Machine.run step {} fs).textCount t) := by
  have hiff := Machine.prefixes_iff (I := Numbered) (Q := Kept) (P := fun _ _ => True) (G := Unshared)
    (fun _ e hs _ _ => hs.step e) (fun _ e hs hk _ => kept_step_iff hs hk e) numbered_start
    (fun c hc => absurd hc not_mem_nil)
    (Machine.guarded_of_forall (fun _ _ => trivial) ({} : Delivery) es)
  exact ⟨hiff, fun hg fs hfs t => (hiff.mpr hg fs hfs).unended_le (numbered_run fs) t⟩

instance (s : Delivery) (e : Event) : Decidable (s.Unshared e) := by
  cases e <;> unfold Unshared <;> infer_instance

instance (s : Delivery) : Decidable s.Kept := by unfold Kept Holds; infer_instance

theorem copy_lost_equalTexts :
    let es : List Event :=
      [.push "x", .push "x", .pop 0 true, .pop 1 true, .returned 0, .processed 0]
    let s := Machine.run step {} (es ++ [.crash 1, .restore])
    ¬ (Machine.run step {} es).Kept ∧ ¬ s.Kept ∧
      s.unended "x" = [{ number := 1, text := "x" }] ∧ s.textCount "x" = 0 := by
  decide +kernel

end Urb.Delivery
