/-
# `Urb.EventLoop` — the timers of the event loop

`EvHelper` keeps the timers in a map from fire times to lists.  `timeout_cb` takes
out of the map what is due, lets go of the lock and calls the timers one by one,
passing over those whose `active_` is not set any more.  Meanwhile timers are scheduled
and deactivated, so a run of `timeout_cb` is a step that takes out what is due
(`timeout`) and one step for each timer (`next`).

**Proved here.**  If every timer is scheduled once and the times of the runs do not
decrease, then in every state each run has executed, in order of fire time and of
scheduling, timers that were due for the first time, all of these that have stayed
active once it is over, and what is kept is what was not due in the last run or came
after its start (`timers_served`).
-/
import Mathlib.Data.List.Nodup
import Urb.Basis.Agenda
import Urb.Basis.Exec

namespace Urb

open List Function

abbrev TimePoint := ℤ

structure EvHelper (α : Type) where
  enabled : Bool := true
  timers : Agenda TimePoint α := Agenda.empty
  active : α → Bool
  inTimeout : Bool := false
  callbacks : List (TimePoint × α) := []

namespace EvHelper

variable {α : Type} [DecidableEq α]

def scheduleTimer (fireTime : TimePoint) (t : α) (s : EvHelper α) : EvHelper α :=
  { s with timers := s.timers.insert fireTime t }

def setActive (t : α) (b : Bool) (s : EvHelper α) : EvHelper α :=
  { s with active := Function.update s.active t b }

lemma active_of_setActive_false {s : EvHelper α} {t u : α}
    (h : (s.setActive t false).active u) : s.active u := by
  have h : update s.active t false u := h
  by_cases heq : u = t
  · rw [heq, update_self] at h
    cases h
  · rwa [update_of_ne heq] at h

def timeout (now : TimePoint) (s : EvHelper α) : EvHelper α :=
  if s.inTimeout || !s.enabled then s
  else
    { s with
      inTimeout := true
      callbacks := s.timers.due now
      timers := s.timers.later now }

def executes (s : EvHelper α) : Option (TimePoint × α) :=
  match s.callbacks with
  | [] => none
  | p :: _ => if s.active p.2 then some p else none

lemma of_executes {s : EvHelper α} {p : TimePoint × α} (h : s.executes = some p) :
    p ∈ s.callbacks ∧ s.active p.2 := by
  unfold executes at h
  split at h
  · cases h
  · rename_i q callbacks hc
    split_ifs at h with hq
    cases h
    exact ⟨hc ▸ mem_cons_self, hq⟩

def next (s : EvHelper α) : EvHelper α :=
  match s.callbacks with
  | [] => { s with inTimeout := false }
  | p :: callbacks =>
    if s.active p.2 then { s.setActive p.2 false with callbacks := callbacks }
    else { s with callbacks := callbacks }

def shutdown (s : EvHelper α) : EvHelper α := { s with enabled := false }

/-! ## The system -/

inductive Event (α : Type) where
  | scheduleTimer (fireTime : TimePoint) (t : α)
  | deactivate (t : α)
  | timeout (now : TimePoint)
  | next
  | shutdown

def step (s : EvHelper α) : Event α → EvHelper α
  | .scheduleTimer fireTime t => s.scheduleTimer fireTime t
  | .deactivate t => s.setActive t false
  | .timeout now => s.timeout now
  | .next => s.next
  | .shutdown => s.shutdown

end EvHelper

structure TimeoutRun (α : Type) where
  now : TimePoint
  before : ℕ
  executed : List (TimePoint × α) := []

structure LoopWatch (α : Type) where
  loop : EvHelper α
  scheduled : List (TimePoint × α) := []
  runs : List (TimeoutRun α) := []
  off : α → Bool
  stale : List α := []

namespace LoopWatch

open EvHelper (Event)

variable {α : Type}

def record (p : TimePoint × α) : List (TimeoutRun α) → List (TimeoutRun α)
  | [] => []
  | r :: earlier => { r with executed := r.executed ++ [p] } :: earlier

lemma mem_record {p q : TimePoint × α} {runs : List (TimeoutRun α)}
    (hq : q ∈ runs.flatMap (·.executed)) : q ∈ (record p runs).flatMap (·.executed) := by
  cases runs with
  | nil => exact hq
  | cons r earlier =>
    rw [record, flatMap_cons, append_assoc]
    rcases mem_append.mp hq with hq | hq
    · exact mem_append_left _ hq
    · exact mem_append_right _ (mem_append_right _ hq)

variable [DecidableEq α]

def new (active : α → Bool) : LoopWatch α :=
  { loop := { active := active }, off := fun t => !active t }

def step (w : LoopWatch α) (e : Event α) : LoopWatch α :=
  let w' := { w with loop := w.loop.step e }
  match e with
  | .scheduleTimer fireTime t => { w' with scheduled := w.scheduled ++ [(fireTime, t)] }
  | .deactivate t => { w' with off := Function.update w.off t true }
  | .timeout now =>
    if w.loop.inTimeout || !w.loop.enabled then w'
    else { w' with runs := ⟨now, w.scheduled.length, []⟩ :: w.runs }
  | .next =>
    match w.loop.executes with
    | none => w'
    | some p =>
      { w' with
        runs := record p w.runs
        stale := if w.off p.2 then p.2 :: w.stale else w.stale }
  | .shutdown => w'

def Orderly (w : LoopWatch α) : Event α → Prop
  | .scheduleTimer _ t => ∀ p ∈ w.scheduled, p.2 ≠ t
  | .timeout now => ∀ r ∈ w.runs, r.now ≤ now
  | .shutdown => False
  | _ => True

def DueIn (log : List (TimePoint × α)) (r : TimeoutRun α) (p : TimePoint × α) : Prop :=
  log.idxOf p < r.before ∧ p.1 ≤ r.now

def executions (w : LoopWatch α) : List (TimePoint × α) := w.runs.flatMap (·.executed)

/-- What the event loop is for. -/
structure Served (w : LoopWatch α) : Prop where
  order : ∀ r ∈ w.runs, r.executed.Pairwise (Agenda.Earlier w.scheduled)
  first : ∀ later r earlier, w.runs = later ++ r :: earlier → ∀ p ∈ r.executed,
    p ∈ w.scheduled ∧ DueIn w.scheduled r p ∧ ∀ r' ∈ earlier, ¬ DueIn w.scheduled r' p
  all : ∀ later r earlier, w.runs = later ++ r :: earlier →
    (later ≠ [] ∨ w.loop.inTimeout = false) → ∀ p ∈ w.scheduled, DueIn w.scheduled r p →
      (∀ r' ∈ earlier, ¬ DueIn w.scheduled r' p) → w.off p.2 = false → p ∈ r.executed
  once : w.executions.Nodup
  /-- None is that has been deactivated. -/
  inactive : w.stale = []
  kept : ∀ r earlier, w.runs = r :: earlier → ∀ p, p ∈ w.loop.timers.entries ↔
    p ∈ w.scheduled ∧ (r.now < p.1 ∨ r.before ≤ w.scheduled.idxOf p)

/-! ## The invariant -/

variable {log : List (TimePoint × α)} {off : α → Bool} {r : TimeoutRun α}
  {earlier : List (TimeoutRun α)} {pending : List (TimePoint × α)} {w : LoopWatch α}

structure RunOk (log : List (TimePoint × α)) (off : α → Bool) (earlier : List (TimeoutRun α))
    (r : TimeoutRun α) (pending : List (TimePoint × α)) : Prop where
  order : (r.executed ++ pending).Pairwise (Agenda.Earlier log)
  sound : ∀ p ∈ r.executed ++ pending,
    p ∈ log ∧ DueIn log r p ∧ ∀ r' ∈ earlier, ¬ DueIn log r' p
  complete : ∀ p ∈ log, DueIn log r p → (∀ r' ∈ earlier, ¬ DueIn log r' p) → off p.2 = false →
    p ∈ r.executed ++ pending

def RunsOk (log : List (TimePoint × α)) (off : α → Bool) :
    List (TimePoint × α) → List (TimeoutRun α) → Prop
  | pending, [] => pending = []
  | pending, r :: earlier => RunOk log off earlier r pending ∧ RunsOk log off [] earlier

lemma dueIn_append {p q : TimePoint × α} (hq : q ∈ log) : DueIn (log ++ [p]) r q ↔ DueIn log r q := by
  rw [DueIn, DueIn, idxOf_append_of_mem hq]

lemma not_dueIn_new {p : TimePoint × α} (hp : p ∉ log) (hr : r.before ≤ log.length) :
    ¬ DueIn (log ++ [p]) r p := by
  rintro ⟨hlt, _⟩
  rw [idxOf_append_of_notMem hp] at hlt
  omega

lemma RunOk.schedule (h : RunOk log off earlier r pending) {p : TimePoint × α} (hp : p ∉ log)
    (hr : r.before ≤ log.length) : RunOk (log ++ [p]) off earlier r pending := by
  refine ⟨?_, ?_, ?_⟩
  · exact h.order.imp_of_mem fun ha hb hab => hab.append (h.sound _ ha).1 (h.sound _ hb).1 _
  · intro q hq
    obtain ⟨hlog, hdue, hfirst⟩ := h.sound q hq
    exact ⟨mem_append_left _ hlog, (dueIn_append hlog).mpr hdue,
      fun r' hr' => mt (dueIn_append hlog).mp (hfirst r' hr')⟩
  · intro q hq hdue hfirst
    rcases mem_append.mp hq with hlog | hnew
    · exact h.complete q hlog ((dueIn_append hlog).mp hdue)
        fun r' hr' => mt (dueIn_append hlog).mpr (hfirst r' hr')
    · obtain rfl := mem_singleton.mp hnew
      exact absurd hdue (not_dueIn_new hp hr)

lemma RunsOk.schedule {runs : List (TimeoutRun α)} {p : TimePoint × α} (hp : p ∉ log) :
    ∀ {pending}, RunsOk log off pending runs → (∀ r ∈ runs, r.before ≤ log.length) →
      RunsOk (log ++ [p]) off pending runs := by
  induction runs with
  | nil => exact fun h _ => h
  | cons r earlier ih =>
    intro pending h hr
    exact ⟨h.1.schedule hp (hr r mem_cons_self), ih h.2 fun r' hr' => hr r' (mem_cons_of_mem _ hr')⟩

lemma RunsOk.deactivate {runs : List (TimeoutRun α)} {off' : α → Bool}
    (hoff : ∀ t, off' t = false → off t = false) :
    ∀ {pending}, RunsOk log off pending runs → RunsOk log off' pending runs := by
  induction runs with
  | nil => exact id
  | cons r earlier ih =>
    intro pending h
    refine ⟨⟨h.1.order, h.1.sound, fun p hp hdue hfirst ht => ?_⟩, ih h.2⟩
    exact h.1.complete p hp hdue hfirst (hoff _ ht)

lemma RunOk.execute {p : TimePoint × α} (h : RunOk log off earlier r (p :: pending)) :
    RunOk log off earlier { r with executed := r.executed ++ [p] } pending := by
  have hlist : (r.executed ++ [p]) ++ pending = r.executed ++ p :: pending := append_assoc _ [p] pending
  refine ⟨?_, ?_, ?_⟩
  · exact hlist.symm ▸ h.order
  · exact hlist.symm ▸ h.sound
  · exact hlist.symm ▸ h.complete

lemma RunOk.skip {p : TimePoint × α} (h : RunOk log off earlier r (p :: pending))
    (hp : off p.2) : RunOk log off earlier r pending := by
  have hsub : (r.executed ++ pending).Sublist (r.executed ++ p :: pending) :=
    (sublist_cons_self p pending).append_left _
  refine ⟨h.order.sublist hsub, fun q hq => h.sound q (hsub.subset hq), ?_⟩
  intro q hq hdue hfirst hoff
  have hmem := h.complete q hq hdue hfirst hoff
  rw [mem_append, mem_cons] at hmem
  rcases hmem with hexec | rfl | hpend
  · exact mem_append_left _ hexec
  · rw [hp] at hoff
    cases hoff
  · exact mem_append_right _ hpend

/-- What every orderly step keeps. -/
structure Inv (w : LoopWatch α) : Prop where
  enabled : w.loop.enabled = true
  distinct : (w.scheduled.map (·.2)).Nodup
  bounded : ∀ r ∈ w.runs, r.before ≤ w.scheduled.length
  rising : w.runs.Pairwise fun r r' => r'.now ≤ r.now ∧ r'.before ≤ r.before
  order : w.loop.timers.entries.Pairwise (Agenda.Earlier w.scheduled)
  mem : ∀ p, p ∈ w.loop.timers.entries ↔
    p ∈ w.scheduled ∧ ∀ r ∈ w.runs, ¬ DueIn w.scheduled r p
  runs : RunsOk w.scheduled w.off w.loop.callbacks w.runs
  idle : w.loop.inTimeout = false → w.loop.callbacks = []
  flags : ∀ t, (∀ p ∈ w.executions, p.2 ≠ t) → w.loop.active t = !w.off t
  inactive : w.stale = []

lemma inv_new (active : α → Bool) : (new active).Inv where
  enabled := rfl
  distinct := nodup_nil
  bounded := fun _ hr => absurd hr not_mem_nil
  rising := .nil
  order := .nil
  mem := fun _ => iff_of_false not_mem_nil fun h => absurd h.1 not_mem_nil
  runs := rfl
  idle := fun _ => rfl
  flags := fun _ _ => (Bool.not_not _).symm
  inactive := rfl

lemma Inv.schedule (h : w.Inv) {fireTime : TimePoint} {t : α} (ht : ∀ p ∈ w.scheduled, p.2 ≠ t) :
    (w.step (.scheduleTimer fireTime t)).Inv := by
  have hnew : (fireTime, t) ∉ w.scheduled := fun hmem => ht _ hmem rfl
  have hlog : ∀ p ∈ w.loop.timers.entries, p ∈ w.scheduled := fun p hp => ((h.mem p).mp hp).1
  refine ⟨h.enabled, ?_, ?_, h.rising, Agenda.pairwise_insert h.order hlog hnew, ?_,
    h.runs.schedule hnew h.bounded, h.idle, h.flags, h.inactive⟩
  · show ((w.scheduled ++ [(fireTime, t)]).map (·.2)).Nodup
    rw [map_append, map_singleton, nodup_append]
    refine ⟨h.distinct, nodup_singleton _, fun a ha b hb => ?_⟩
    obtain ⟨p, hp, rfl⟩ := mem_map.mp ha
    rw [mem_singleton.mp hb]
    exact ht p hp
  · intro r hr
    exact (h.bounded r hr).trans (by simp [step])
  · intro p
    show p ∈ (w.loop.timers.insert fireTime t).entries ↔
      p ∈ w.scheduled ++ [(fireTime, t)] ∧ ∀ r ∈ w.runs, ¬ DueIn (w.scheduled ++ [(fireTime, t)]) r p
    rw [Agenda.mem_entries_insert, mem_append, mem_singleton]
    constructor
    · rintro (rfl | hp)
      · exact ⟨.inr rfl, fun r hr => not_dueIn_new hnew (h.bounded r hr)⟩
      · obtain ⟨hmem, hdue⟩ := (h.mem p).mp hp
        exact ⟨.inl hmem, fun r hr => mt (dueIn_append hmem).mp (hdue r hr)⟩
    · rintro ⟨hmem | rfl, hdue⟩
      · exact .inr ((h.mem p).mpr ⟨hmem, fun r hr => mt (dueIn_append hmem).mpr (hdue r hr)⟩)
      · exact .inl rfl

lemma Inv.deactivate (h : w.Inv) (t : α) : (w.step (.deactivate t)).Inv := by
  refine ⟨h.enabled, h.distinct, h.bounded, h.rising, h.order, h.mem, h.runs.deactivate ?_, h.idle, ?_,
    h.inactive⟩
  · intro u hu
    have hu : update w.off t true u = false := hu
    by_cases heq : u = t
    · rw [heq, update_self] at hu
      cases hu
    · rwa [update_of_ne heq] at hu
  · intro u hu
    show update w.loop.active t false u = !update w.off t true u
    by_cases heq : u = t
    · subst heq
      simp
    · rw [update_of_ne heq, update_of_ne heq]
      exact h.flags u hu

lemma Inv.timeout (h : w.Inv) {now : TimePoint} (hnow : ∀ r ∈ w.runs, r.now ≤ now) :
    (w.step (.timeout now)).Inv := by
  by_cases hidle : w.loop.inTimeout
  · have hstep : w.step (.timeout now) = w := by
      simp [step, EvHelper.step, EvHelper.timeout, hidle]
    rw [hstep]
    exact h
  · have hstep : w.step (.timeout now) = { w with
          loop := { w.loop with
            inTimeout := true
            callbacks := w.loop.timers.due now
            timers := w.loop.timers.later now }
          runs := ⟨now, w.scheduled.length, []⟩ :: w.runs } := by
      simp [step, EvHelper.step, EvHelper.timeout, hidle, h.enabled]
    rw [hstep]
    -- every timer in the log was scheduled before the run
    have hdue {p : TimePoint × α} (hp : p ∈ w.scheduled) :
        DueIn w.scheduled ⟨now, w.scheduled.length, []⟩ p ↔ p.1 ≤ now :=
      and_iff_right (idxOf_lt_length_iff.mpr hp)
    have hover : w.loop.callbacks = [] := h.idle (Bool.eq_false_iff.mpr hidle)
    refine ⟨h.enabled, h.distinct, ?_, ?_, ?_, ?_, ⟨⟨?_, ?_, ?_⟩, ?_⟩, nofun, h.flags, h.inactive⟩
    · intro r hr
      rcases mem_cons.mp hr with rfl | hr
      · exact le_rfl
      · exact h.bounded r hr
    · exact pairwise_cons.mpr ⟨fun r hr => ⟨hnow r hr, h.bounded r hr⟩, h.rising⟩
    · show (w.loop.timers.later now).entries.Pairwise _
      rw [Agenda.entries_later]
      exact h.order.filter _
    · intro p
      show p ∈ (w.loop.timers.later now).entries ↔ _
      rw [Agenda.entries_later, mem_filter, h.mem p, decide_eq_true_eq, forall_mem_cons, and_assoc]
      refine and_congr_right fun hp => ?_
      rw [hdue hp, not_le, and_comm]
    · show ([] ++ w.loop.timers.due now).Pairwise _
      rw [nil_append, Agenda.due_eq]
      exact h.order.filter _
    · show ∀ p ∈ [] ++ w.loop.timers.due now, _
      intro p hp
      rw [nil_append, Agenda.due_eq, mem_filter, h.mem p, decide_eq_true_eq] at hp
      exact ⟨hp.1.1, (hdue hp.1.1).mpr hp.2, hp.1.2⟩
    · intro p hp hdue' hfirst _
      show p ∈ [] ++ w.loop.timers.due now
      rw [nil_append, Agenda.due_eq, mem_filter, h.mem p, decide_eq_true_eq]
      exact ⟨⟨hp, hfirst⟩, (hdue hp).mp hdue'⟩
    · rw [← hover]
      exact h.runs

lemma RunsOk.sound {runs : List (TimeoutRun α)} :
    ∀ {pending}, RunsOk log off pending runs → ∀ r ∈ runs, ∀ p ∈ r.executed, p ∈ log ∧ DueIn log r p := by
  induction runs with
  | nil => exact fun _ r hr => absurd hr not_mem_nil
  | cons r earlier ih =>
    intro pending h r' hr' p hp
    rcases mem_cons.mp hr' with rfl | hr'
    · obtain ⟨hlog, hdue, _⟩ := h.1.sound p (mem_append_left _ hp)
      exact ⟨hlog, hdue⟩
    · exact ih h.2 r' hr' p hp

lemma RunsOk.pending_not_mem {runs : List (TimeoutRun α)} {pending : List (TimePoint × α)}
    (h : RunsOk log off pending runs) {p : TimePoint × α} (hp : p ∈ pending) :
    ∀ r ∈ runs, p ∉ r.executed := by
  cases runs with
  | nil =>
    have hnil : pending = [] := h
    exact absurd (hnil ▸ hp) not_mem_nil
  | cons r earlier =>
    intro r' hr' hexec
    rcases mem_cons.mp hr' with rfl | hr'
    · have hnodup := Agenda.nodup_of_pairwise h.1.order
      exact (nodup_append.mp hnodup).2.2 p hexec p hp rfl
    · obtain ⟨_, _, hfirst⟩ := h.1.sound p (mem_append_right _ hp)
      exact hfirst r' hr' (h.2.sound r' hr' p hexec).2

lemma RunsOk.mem_log {runs : List (TimeoutRun α)} {pending : List (TimePoint × α)}
    (h : RunsOk log off pending runs) {p : TimePoint × α} (hp : p ∈ pending) : p ∈ log := by
  cases runs with
  | nil =>
    have hnil : pending = [] := h
    exact absurd (hnil ▸ hp) not_mem_nil
  | cons r earlier => exact (h.1.sound p (mem_append_right _ hp)).1

lemma Inv.active_pending (h : w.Inv) {p : TimePoint × α} (hp : p ∈ w.loop.callbacks) :
    w.loop.active p.2 = !w.off p.2 := by
  refine h.flags p.2 fun q hq heq => ?_
  obtain ⟨r, hr, hexec⟩ := mem_flatMap.mp hq
  have hsame : q = p := inj_on_of_nodup_map h.distinct (h.runs.sound r hr q hexec).1
    (h.runs.mem_log hp) heq
  exact h.runs.pending_not_mem hp r hr (hsame ▸ hexec)

lemma Inv.execute (h : w.Inv) {p : TimePoint × α} {callbacks : List (TimePoint × α)}
    (hc : w.loop.callbacks = p :: callbacks) (hp : w.loop.active p.2) : (w.step .next).Inv := by
  have hoff : w.off p.2 = false := by
    have hflag := h.active_pending (hc ▸ mem_cons_self)
    simpa [hp] using hflag
  have hstep : w.step .next = { w with
        loop := { w.loop.setActive p.2 false with callbacks := callbacks }
        runs := record p w.runs } := by
    simp [step, EvHelper.step, EvHelper.next, EvHelper.executes, hc, hp, hoff]
  rw [hstep]
  have hruns := h.runs
  have hbusy := h.idle
  rw [hc] at hruns hbusy
  obtain ⟨s, log, runs, off, stale⟩ := w
  cases runs with
  | nil => cases hruns
  | cons r earlier =>
    refine ⟨h.enabled, h.distinct, ?_, ?_, h.order, ?_, ⟨hruns.1.execute, hruns.2⟩,
      fun hidle => absurd (hbusy hidle) (cons_ne_nil _ _), ?_, h.inactive⟩
    · exact forall_mem_cons.mpr (forall_mem_cons.mp h.bounded)
    · exact pairwise_cons.mpr (pairwise_cons.mp h.rising)
    · intro q
      exact (h.mem q).trans (and_congr_right' (by simp only [record, forall_mem_cons, DueIn]))
    · intro t ht
      have hne : p.2 ≠ t := ht p (mem_flatMap.mpr
        ⟨_, mem_cons_self, mem_append_right _ (mem_singleton.mpr rfl)⟩)
      show update s.active p.2 false t = !off t
      rw [update_of_ne hne.symm]
      exact h.flags t fun q hq => ht q (mem_record hq)

lemma Inv.skip (h : w.Inv) {p : TimePoint × α} {callbacks : List (TimePoint × α)}
    (hc : w.loop.callbacks = p :: callbacks) (hp : w.loop.active p.2 = false) : (w.step .next).Inv := by
  have hoff : w.off p.2 := by
    have hflag := h.active_pending (hc ▸ mem_cons_self)
    simpa [hp] using hflag
  have hstep : w.step .next = { w with loop := { w.loop with callbacks := callbacks } } := by
    simp [step, EvHelper.step, EvHelper.next, EvHelper.executes, hc, hp]
  rw [hstep]
  have hruns := h.runs
  have hbusy := h.idle
  rw [hc] at hruns hbusy
  refine ⟨h.enabled, h.distinct, h.bounded, h.rising, h.order, h.mem, ?_,
    fun hidle => absurd (hbusy hidle) (cons_ne_nil _ _), h.flags, h.inactive⟩
  obtain ⟨s, log, runs, off, stale⟩ := w
  cases runs with
  | nil => cases hruns
  | cons r earlier => exact ⟨hruns.1.skip hoff, hruns.2⟩

lemma Inv.next (h : w.Inv) : (w.step .next).Inv := by
  cases hc : w.loop.callbacks with
  | nil =>
    have hstep : w.step .next = { w with loop := { w.loop with inTimeout := false } } := by
      simp [step, EvHelper.step, EvHelper.next, EvHelper.executes, hc]
    rw [hstep]
    exact ⟨h.enabled, h.distinct, h.bounded, h.rising, h.order, h.mem, h.runs, fun _ => hc, h.flags,
      h.inactive⟩
  | cons p callbacks =>
    cases hp : w.loop.active p.2 with
    | true => exact h.execute hc hp
    | false => exact h.skip hc hp

lemma Inv.step (h : w.Inv) {e : Event α} (he : w.Orderly e) : (w.step e).Inv := by
  cases e with
  | scheduleTimer fireTime t => exact h.schedule he
  | deactivate t => exact h.deactivate t
  | timeout now => exact h.timeout he
  | next => exact h.next
  | shutdown => exact he.elim

/-! ## What is served -/

lemma RunsOk.split {runs : List (TimeoutRun α)} :
    ∀ {pending later}, RunsOk log off pending runs → runs = later ++ r :: earlier →
      ∃ rest, RunOk log off earlier r rest ∧ (later = [] ∧ rest = pending ∨ later ≠ [] ∧ rest = []) := by
  induction runs with
  | nil => exact fun _ heq => absurd heq.symm (append_ne_nil_of_right_ne_nil _ (cons_ne_nil _ _))
  | cons r' runs ih =>
    intro pending later h heq
    cases later with
    | nil =>
      obtain ⟨rfl, rfl⟩ := List.cons.inj heq
      exact ⟨pending, h.1, .inl ⟨rfl, rfl⟩⟩
    | cons r'' later =>
      obtain ⟨rfl, hrest⟩ := List.cons.inj heq
      obtain ⟨rest, hok, hend⟩ := ih h.2 hrest
      refine ⟨rest, hok, .inr ⟨cons_ne_nil _ _, ?_⟩⟩
      rcases hend with ⟨_, hnil⟩ | ⟨_, hnil⟩ <;> exact hnil

lemma RunsOk.nodup {runs : List (TimeoutRun α)} :
    ∀ {pending}, RunsOk log off pending runs → (runs.flatMap (·.executed)).Nodup := by
  induction runs with
  | nil => exact fun _ => nodup_nil
  | cons r earlier ih =>
    intro pending h
    rw [flatMap_cons, nodup_append]
    refine ⟨(Agenda.nodup_of_pairwise h.1.order).sublist (sublist_append_left _ _), ih h.2, ?_⟩
    rintro p hp q hq rfl
    obtain ⟨r', hr', hexec⟩ := mem_flatMap.mp hq
    obtain ⟨_, _, hfirst⟩ := h.1.sound p (mem_append_left _ hp)
    exact hfirst r' hr' (h.2.sound r' hr' p hexec).2

lemma Inv.served (h : w.Inv) : w.Served where
  order := by
    intro r hr
    obtain ⟨later, earlier, heq⟩ := append_of_mem hr
    obtain ⟨rest, hok, _⟩ := h.runs.split heq
    exact hok.order.sublist (sublist_append_left _ _)
  first := by
    intro later r earlier heq p hp
    obtain ⟨rest, hok, _⟩ := h.runs.split heq
    exact hok.sound p (mem_append_left _ hp)
  all := by
    intro later r earlier heq hover p hp hdue hfirst hoff
    obtain ⟨rest, hok, hend⟩ := h.runs.split heq
    have hnil : rest = [] := by
      rcases hend with ⟨hlast, hrest⟩ | ⟨_, hrest⟩
      · rw [hrest]
        exact h.idle (hover.resolve_left fun hne => hne hlast)
      · exact hrest
    have hmem := hok.complete p hp hdue hfirst hoff
    rwa [hnil, append_nil] at hmem
  once := h.runs.nodup
  inactive := h.inactive
  kept := by
    intro r earlier heq p
    rw [h.mem p, heq, forall_mem_cons]
    refine and_congr_right fun hp => ?_
    have hrise := h.rising
    rw [heq, pairwise_cons] at hrise
    -- a run before the last one is due for less
    have hearlier : ¬ DueIn w.scheduled r p → ∀ r' ∈ earlier, ¬ DueIn w.scheduled r' p :=
      fun hnot r' hr' hdue => hnot ⟨hdue.1.trans_le (hrise.1 r' hr').2, hdue.2.trans (hrise.1 r' hr').1⟩
    rw [and_iff_left_of_imp hearlier, DueIn, not_and_or, not_lt, not_le, or_comm]

theorem timers_served (active : α → Bool) (es : List (Event α))
    (hes : Machine.Guarded step Orderly (new active) es) : (Machine.run step (new active) es).Served :=
  (Machine.run_inv (I := Inv) (fun _ _ h he => h.step he) (inv_new active) hes).served

instance (w : LoopWatch α) : (e : Event α) → Decidable (w.Orderly e)
  | .scheduleTimer _ t => inferInstanceAs (Decidable (∀ p ∈ w.scheduled, p.2 ≠ t))
  | .timeout now => inferInstanceAs (Decidable (∀ r ∈ w.runs, r.now ≤ now))
  | .shutdown => isFalse id
  | .deactivate _ => isTrue trivial
  | .next => isTrue trivial

theorem timers_served_twoRuns :
    ∃ es, Machine.Guarded step Orderly (new fun _ : ℕ => true) es ∧
      (Machine.run step (new fun _ : ℕ => true) es).runs.map (·.executed) =
        [[(4, 3), (5, 0)], [(3, 1)]] ∧
      (Machine.run step (new fun _ : ℕ => true) es).Served :=
  ⟨[.scheduleTimer 5 0, .scheduleTimer 3 1, .scheduleTimer 3 2, .timeout 4, .next, .deactivate 2,
      .scheduleTimer 4 3, .next, .next, .timeout 5, .next, .next, .next],
    by decide +kernel, by decide +kernel, timers_served _ _ (by decide +kernel)⟩

end LoopWatch

end Urb
