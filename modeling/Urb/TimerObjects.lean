/-
# `Urb.TimerObjects` — the class `Timer` over the event loop

A `Timer` of the program is never put into the event loop itself: `delay` makes an
inner timer, sets the flag `active_` of the inner one, keeps it in `inner` and
schedules it.  What looks like a guard looks at the outer one:

    delay                 if (!active_) ...        the flag of the outer timer
    setHeartbeatPayload   if (!getActive()) ...    the same
    cancel, ~Timer        active_ := false, inner->active_ := false

Nothing sets the flag of an outer timer, so every `delay` schedules one more inner
timer, and `cancel` reaches the last of them only.

**Proved here.**  A timer never has more than one callback pending, and none of its
callbacks runs after it was cancelled or destroyed and not delayed again, exactly in the
runs in which every delay finds none of its callbacks pending
(`timers_disciplined_iff`).
-/
import Urb.EventLoop

namespace Urb

open List Function Bool Nat

inductive TimerObject where
  | outer (t : ℕ)
  | inner (t n : ℕ)
  deriving DecidableEq

def TimerObject.isInnerOf (t : ℕ) : TimerObject → Bool
  | .outer _ => false
  | .inner u _ => u = t

def TimerObject.timer : TimerObject → ℕ
  | .outer t => t
  | .inner t _ => t

structure TimerSystem where
  loop : EvHelper TimerObject := { active := fun _ => false }
  destroyed : ℕ → Bool := fun _ => false
  inner : ℕ → Option ℕ := fun _ => none
  made : ℕ := 0
  idle : ℕ → Bool := fun _ => false
  ran : List (ℕ × Bool) := []

namespace TimerSystem

def delay (t : ℕ) (fireTime : TimePoint) (s : TimerSystem) : TimerSystem :=
  if s.destroyed t then s
  else if s.loop.active (.outer t) then { s with idle := Function.update s.idle t false }
  else
    { s with
      loop := (s.loop.setActive (.inner t s.made) true).scheduleTimer fireTime (.inner t s.made)
      inner := Function.update s.inner t (some s.made)
      made := s.made + 1
      idle := Function.update s.idle t false }

def cancel (t : ℕ) (s : TimerSystem) : TimerSystem :=
  let loop := s.loop.setActive (.outer t) false
  { s with
    loop := match s.inner t with
      | some n => loop.setActive (.inner t n) false
      | none => loop
    idle := Function.update s.idle t true }

def destroy (t : ℕ) (s : TimerSystem) : TimerSystem :=
  { s.cancel t with destroyed := Function.update s.destroyed t true }

def setHeartbeatPayload (t : ℕ) (fireTime : TimePoint) (s : TimerSystem) : TimerSystem :=
  if s.loop.active (.outer t) then s else s.delay t fireTime

def sendHeartbeat (t : ℕ) (fireTime : TimePoint) (fails : Bool) (s : TimerSystem) : TimerSystem :=
  if fails then s else s.delay t fireTime

def next (s : TimerSystem) : TimerSystem :=
  { s with
    loop := s.loop.next
    ran := match s.loop.executes with
      | some (_, o) => (o.timer, s.idle o.timer) :: s.ran
      | none => s.ran }

/-! ## The system -/

inductive Event where
  | delay (t : ℕ) (fireTime : TimePoint)
  | cancel (t : ℕ)
  | destroy (t : ℕ)
  | setHeartbeatPayload (t : ℕ) (fireTime : TimePoint)
  | sendHeartbeat (t : ℕ) (fireTime : TimePoint) (fails : Bool)
  | timeout (now : TimePoint)
  | next

def step (s : TimerSystem) : Event → TimerSystem
  | .delay t fireTime => s.delay t fireTime
  | .cancel t => s.cancel t
  | .destroy t => s.destroy t
  | .setHeartbeatPayload t fireTime => s.setHeartbeatPayload t fireTime
  | .sendHeartbeat t fireTime fails => s.sendHeartbeat t fireTime fails
  | .timeout now => { s with loop := s.loop.timeout now }
  | .next => s.next

def queue (s : TimerSystem) : List (TimePoint × TimerObject) := s.loop.timers.entries ++ s.loop.callbacks

def pending (s : TimerSystem) (t : ℕ) : ℕ :=
  s.queue.countP fun p => p.2.isInnerOf t && s.loop.active p.2

structure Disciplined (s : TimerSystem) : Prop where
  single : ∀ t, s.pending t ≤ 1
  silent : ∀ r ∈ s.ran, r.2 = false

def Event.delays : Event → Option ℕ
  | .delay t _ => some t
  | .setHeartbeatPayload t _ => some t
  | .sendHeartbeat t _ fails => if fails then none else some t
  | _ => none

def Permits (s : TimerSystem) (e : Event) : Prop :=
  ∀ t ∈ e.delays, s.destroyed t = false → s.pending t = 0

/-! ## What a step does to the pending callbacks -/

variable {s s' : TimerSystem}

structure Inv (s : TimerSystem) : Prop where
  outer : ∀ t, s.loop.active (.outer t) = false
  objects : ∀ p ∈ s.queue, ∃ t n, p.2 = .inner t n ∧ n < s.made
  last : ∀ t, s.pending t ≤ 1 → ∀ p ∈ s.queue, ∀ n, p.2 = .inner t n → s.loop.active p.2 = true →
    s.inner t = some n
  idle : ∀ t, s.idle t = true → s.pending t = 0

/-- Nothing becomes pending. -/
structure Shrinks (s s' : TimerSystem) : Prop where
  queue : ∀ p ∈ s'.queue, p ∈ s.queue
  active : ∀ o, s'.loop.active o = true → s.loop.active o = true
  pending : ∀ t, s'.pending t ≤ s.pending t
  inner : s'.inner = s.inner
  made : s'.made = s.made

lemma Inv.shrinks (h : s.Inv) (hq : ∀ t, s.pending t ≤ 1) (hs : Shrinks s s')
    (hidle : ∀ t, s'.idle t → s.idle t ∨ s'.pending t = 0) : s'.Inv := by
  refine ⟨?_, ?_, ?_, ?_⟩
  · intro t
    exact eq_false_iff.mpr fun ha => false_ne_true ((h.outer t).symm.trans (hs.active _ ha))
  · intro p hp
    rw [hs.made]
    exact h.objects p (hs.queue p hp)
  · intro t _ p hp n hn ha
    rw [hs.inner]
    exact h.last t (hq t) p (hs.queue p hp) n hn (hs.active _ ha)
  · intro t ht
    rcases hidle t ht with hold | hnone
    · exact le_zero.mp ((hs.pending t).trans (h.idle t hold).le)
    · exact hnone

lemma pending_le_of_sublist {s s' : TimerSystem} (hq : s'.queue.Sublist s.queue)
    (ha : ∀ o, s'.loop.active o → s.loop.active o) (t : ℕ) : s'.pending t ≤ s.pending t := by
  refine (countP_mono_left fun p _ hp => ?_).trans (hq.countP_le)
  rw [and_eq_true] at hp ⊢
  exact ⟨hp.1, ha _ hp.2⟩

lemma shrinks_timeout (now : TimePoint) : Shrinks s (s.step (.timeout now)) := by
  by_cases hbusy : (s.loop.inTimeout || !s.loop.enabled)
  · have hsame : s.step (.timeout now) = s := by
      simp only [step, EvHelper.timeout, hbusy, if_true]
    rw [hsame]
    exact ⟨fun _ => id, fun _ => id, fun _ => le_rfl, rfl, rfl⟩
  · have hqueue : (s.step (.timeout now)).queue.Perm s.loop.timers.entries := by
      simp only [step, EvHelper.timeout, hbusy, false_eq_true, if_false, queue]
      rw [Agenda.entries_split now s.loop.timers]
      exact perm_append_comm
    have hactive : (s.step (.timeout now)).loop.active = s.loop.active := by
      simp only [step, EvHelper.timeout, hbusy, false_eq_true, if_false]
    refine ⟨fun p hp => mem_append_left _ (hqueue.mem_iff.mp hp), fun o ho => hactive ▸ ho, ?_,
      rfl, rfl⟩
    intro t
    rw [pending, hactive, hqueue.countP_eq]
    exact (sublist_append_left _ _).countP_le

lemma shrinks_next : Shrinks s s.next := by
  have hqueue : s.next.queue.Sublist s.queue := by
    show (s.loop.next.timers.entries ++ s.loop.next.callbacks).Sublist _
    unfold EvHelper.next
    split
    · exact .refl _
    · rename_i p callbacks hc
      rw [queue, hc]
      split_ifs <;> exact (sublist_cons_self p callbacks).append_left _
  have hactive : ∀ o, s.loop.next.active o → s.loop.active o := by
    intro o ho
    unfold EvHelper.next at ho
    split at ho
    · exact ho
    · split_ifs at ho
      · exact EvHelper.active_of_setActive_false ho
      · exact ho
  exact ⟨fun p hp => hqueue.subset hp, hactive, pending_le_of_sublist hqueue hactive, rfl, rfl⟩

lemma active_cancel {t : ℕ} {o : TimerObject} (ho : (s.cancel t).loop.active o) : s.loop.active o := by
  unfold cancel at ho
  cases hinner : s.inner t with
  | none =>
    rw [hinner] at ho
    exact EvHelper.active_of_setActive_false ho
  | some n =>
    rw [hinner] at ho
    exact EvHelper.active_of_setActive_false (EvHelper.active_of_setActive_false ho)

lemma queue_cancel (t : ℕ) : (s.cancel t).queue = s.queue := by
  unfold cancel
  split <;> rfl

lemma shrinks_cancel (t : ℕ) : Shrinks s (s.cancel t) :=
  ⟨fun p hp => queue_cancel (s := s) t ▸ hp, fun _ => active_cancel,
    pending_le_of_sublist (queue_cancel (s := s) t ▸ .refl _) fun _ => active_cancel, rfl, rfl⟩

lemma Inv.pending_cancel (h : s.Inv) {t : ℕ} (hq : s.pending t ≤ 1) : (s.cancel t).pending t = 0 := by
  refine countP_eq_zero.mpr fun p hp hpending => ?_
  rw [queue_cancel] at hp
  obtain ⟨hown, hactive⟩ := and_eq_true_iff.mp hpending
  obtain ⟨u, n, hobj, _⟩ := h.objects p hp
  obtain rfl : u = t := by
    rw [hobj] at hown
    exact of_decide_eq_true hown
  have hinner := h.last u hq p hp n hobj (active_cancel hactive)
  rw [hobj] at hactive
  unfold cancel at hactive
  rw [hinner] at hactive
  exact false_ne_true ((update_self _ _ _).symm.trans hactive)

lemma Inv.cancel (h : s.Inv) (hq : ∀ t, s.pending t ≤ 1) (t : ℕ) : (s.cancel t).Inv := by
  refine h.shrinks hq (shrinks_cancel t) fun u hu => ?_
  have hu : update s.idle t true u := hu
  by_cases heq : u = t
  · subst heq
    exact .inr (h.pending_cancel (hq u))
  · rw [update_of_ne heq] at hu
    exact .inl hu

/-! ## Delays -/

section

variable (h : s.Inv)
include h

lemma delay_eq {t : ℕ} (ht : s.destroyed t = false) (fireTime : TimePoint) : s.delay t fireTime =
      { s with
        loop := (s.loop.setActive (.inner t s.made) true).scheduleTimer fireTime (.inner t s.made)
        inner := update s.inner t (some s.made)
        made := s.made + 1
        idle := update s.idle t false } := by
  simp [delay, ht, h.outer t]

lemma queue_delay {t : ℕ} (ht : s.destroyed t = false) (fireTime : TimePoint) :
    (s.delay t fireTime).queue.Perm ((fireTime, .inner t s.made) :: s.queue) := by
  rw [delay_eq h ht]
  exact (Agenda.entries_insert_perm _ _ _).append_right _

lemma active_delay {t : ℕ} (ht : s.destroyed t = false) (fireTime : TimePoint)
    {p : TimePoint × TimerObject} (hp : p ∈ s.queue) :
    (s.delay t fireTime).loop.active p.2 = s.loop.active p.2 := by
  obtain ⟨u, n, hobj, hn⟩ := h.objects p hp
  rw [delay_eq h ht]
  refine Function.update_of_ne ?_ _ _
  rw [hobj]
  rintro ⟨⟩
  exact lt_irrefl _ hn

lemma pending_delay {t : ℕ} (ht : s.destroyed t = false) (fireTime : TimePoint) (u : ℕ) :
    (s.delay t fireTime).pending u = s.pending u + if u = t then 1 else 0 := by
  rw [pending, (queue_delay h ht fireTime).countP_eq, countP_cons]
  have hold : (s.queue.countP fun p => p.2.isInnerOf u && (s.delay t fireTime).loop.active p.2) =
      s.pending u :=
    countP_congr fun p hp => by rw [active_delay h ht fireTime hp]
  have hnew : (s.delay t fireTime).loop.active (.inner t s.made) := by
    rw [delay_eq h ht]
    exact update_self _ _ _
  rw [hold, hnew, Bool.and_true]
  simp [TimerObject.isInnerOf, eq_comm]

lemma Inv.delay (t : ℕ) (fireTime : TimePoint) : (s.delay t fireTime).Inv := by
  by_cases ht : s.destroyed t
  · rw [TimerSystem.delay, if_pos ht]
    exact h
  have ht : s.destroyed t = false := eq_false_iff.mpr ht
  refine ⟨fun u => ?_, ?_, ?_, ?_⟩
  · have hne : TimerObject.outer u ≠ .inner t s.made := nofun
    rw [delay_eq h ht]
    show update s.loop.active (.inner t s.made) true (.outer u) = false
    rw [update_of_ne hne]
    exact h.outer u
  · intro p hp
    have hmade : (s.delay t fireTime).made = s.made + 1 := by rw [delay_eq h ht]
    rw [hmade]
    rcases mem_cons.mp ((queue_delay h ht fireTime).mem_iff.mp hp) with rfl | hp
    · exact ⟨t, s.made, rfl, lt_succ_self _⟩
    · obtain ⟨u, n, hobj, hn⟩ := h.objects p hp
      exact ⟨u, n, hobj, hn.trans (lt_succ_self _)⟩
  · intro u hu p hp n hn ha
    have hinner : (s.delay t fireTime).inner = update s.inner t (some s.made) := by
      rw [delay_eq h ht]
    rw [hinner]
    rw [pending_delay h ht] at hu
    rcases mem_cons.mp ((queue_delay h ht fireTime).mem_iff.mp hp) with rfl | hold
    · cases hn
      exact update_self _ _ _
    · rw [active_delay h ht fireTime hold] at ha
      -- an old callback of the same timer would be the second one
      have hne : u ≠ t := by
        rintro rfl
        have hnone : s.pending u = 0 := by simpa using hu
        refine countP_eq_zero.mp hnone p hold ?_
        simp [hn, TimerObject.isInnerOf, hn ▸ ha]
      rw [update_of_ne hne]
      rw [if_neg hne] at hu
      exact h.last u hu p hold n hn ha
  · intro u hu
    have hidle : (s.delay t fireTime).idle = update s.idle t false := by rw [delay_eq h ht]
    rw [hidle] at hu
    have hne : u ≠ t := by
      rintro rfl
      rw [update_self] at hu
      cases hu
    rw [update_of_ne hne] at hu
    rw [pending_delay h ht, if_neg hne]
    exact h.idle u hu

lemma step_delays {e : Event} {t : ℕ} (he : e.delays = some t) :
    ∃ fireTime, s.step e = s.delay t fireTime := by
  cases e with
  | delay u fireTime =>
    cases he
    exact ⟨fireTime, rfl⟩
  | setHeartbeatPayload u fireTime =>
    cases he
    exact ⟨fireTime, by simp [step, setHeartbeatPayload, h.outer t]⟩
  | sendHeartbeat u fireTime fails =>
    cases fails with
    | true => cases he
    | false =>
      cases he
      exact ⟨fireTime, rfl⟩
  | _ => cases he

lemma Inv.step (hq : s.Disciplined) (e : Event) : (s.step e).Inv := by
  cases hd : e.delays with
  | some t =>
    obtain ⟨fireTime, hstep⟩ := step_delays h hd
    rw [hstep]
    exact h.delay t fireTime
  | none =>
    cases e with
    | delay t fireTime => cases hd
    | setHeartbeatPayload t fireTime => cases hd
    | sendHeartbeat t fireTime fails =>
      cases fails with
      | true => exact h
      | false => cases hd
    | cancel t => exact h.cancel hq.single t
    | destroy t =>
      have hcancel := h.cancel hq.single t
      exact ⟨hcancel.outer, hcancel.objects, hcancel.last, hcancel.idle⟩
    | timeout now => exact h.shrinks hq.single (shrinks_timeout now) fun t ht => .inl ht
    | next => exact h.shrinks hq.single shrinks_next fun t ht => .inl ht

lemma Inv.silent_next (hq : s.Disciplined) : ∀ r ∈ s.next.ran, r.2 = false := by
  unfold TimerSystem.next
  split
  · rename_i fireTime o hexec
    refine forall_mem_cons.mpr ⟨eq_false_iff.mpr fun hidle => ?_, hq.silent⟩
    obtain ⟨hmem, hactive⟩ := EvHelper.of_executes hexec
    have hhead : (fireTime, o) ∈ s.queue ∧ s.loop.active o := ⟨mem_append_right _ hmem, hactive⟩
    obtain ⟨t, n, hobj, _⟩ := h.objects _ hhead.1
    have hnone := countP_eq_zero.mp (h.idle _ hidle) _ hhead.1
    have hobj : o = .inner t n := hobj
    subst hobj
    exact hnone (by simp [TimerObject.isInnerOf, TimerObject.timer, hhead.2])
  · exact hq.silent

lemma disciplined_step_iff (hq : s.Disciplined) (e : Event) : (s.step e).Disciplined ↔ s.Permits e := by
  cases hd : e.delays with
  | some t =>
    obtain ⟨fireTime, hstep⟩ := step_delays h hd
    rw [hstep, Permits, hd]
    by_cases ht : s.destroyed t
    · rw [delay, if_pos ht]
      refine iff_of_true hq fun u hu hlive => ?_
      cases hu
      exact absurd (ht.symm.trans hlive) nofun
    · have ht : s.destroyed t = false := eq_false_iff.mpr ht
      constructor
      · rintro h' u hu _
        cases hu
        have hone := h'.single t
        rw [pending_delay h ht, if_pos rfl] at hone
        exact le_zero.mp (le_of_succ_le_succ hone)
      · intro hp
        refine ⟨fun u => ?_, ?_⟩
        · rw [pending_delay h ht]
          split_ifs with heq
          · rw [heq, hp t rfl ht]
          · exact hq.single u
        · rw [delay_eq h ht]
          exact hq.silent
  | none =>
    refine iff_of_true ?_ fun t ht => absurd (hd.symm.trans ht) nofun
    have shrunk {s' : TimerSystem} (hs : Shrinks s s') (hran : ∀ r ∈ s'.ran, r.2 = false) :
        s'.Disciplined :=
      ⟨fun t => (hs.pending t).trans (hq.single t), hran⟩
    cases e with
    | delay t fireTime => cases hd
    | setHeartbeatPayload t fireTime => cases hd
    | sendHeartbeat t fireTime fails =>
      cases fails with
      | true => exact hq
      | false => cases hd
    | cancel t => exact shrunk (shrinks_cancel t) hq.silent
    | destroy t =>
      have hcancel := shrunk (shrinks_cancel t) hq.silent
      exact ⟨hcancel.single, hcancel.silent⟩
    | timeout now => exact shrunk (shrinks_timeout now) hq.silent
    | next => exact shrunk shrinks_next (h.silent_next hq)

end

end TimerSystem

end Urb
