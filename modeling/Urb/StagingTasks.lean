/-
# `Urb.StagingTasks` — the tasks the driver asks the master about

The process keeps a table of the tasks that are not at an end.  `launchTasks` enters
a task as TASK_STAGING when it accepts it.  `statusUpdate` calls the scheduler back
first and writes the table when the callback has returned, so what the callback has
done with the same task is overwritten:

    statusUpdate(t, LOST)   callback: launchTasks(t)   the entry is made
                            the callback returns       the entry is erased

`checkReconcile` asks the master about the entries that are TASK_STAGING.

**Proved here.**  If no task is launched or reported while a
status update of the same task is in its callback, a check between callbacks asks
about exactly the tasks that were last accepted or last reported staging
(`reconcile_asks`).
-/
import Urb.SchedulerDriver

namespace Urb

open List AList Function

variable {u : DriverUpdate}

/-- The last thing that has happened to a task. -/
inductive TaskNews where
  | accepted
  | reported (state : TaskState)
  deriving DecidableEq

namespace TaskNews

def staging : TaskNews → Bool
  | .accepted => true
  | .reported state => state = .staging

end TaskNews

namespace SchedulerDriver

def reports (s : SchedulerDriver) (e : Event) : Option (String × TaskState) :=
  match (s.step e).callbacks with
  | (.statusUpdate taskId state, _) :: callbacks =>
    if callbacks.length = s.callbacks.length then some (taskId, state) else none
  | _ => none

def asked (s : SchedulerDriver) : List String :=
  match (s.step .reconcileTimer).sent.take ((s.step .reconcileTimer).sent.length - s.sent.length) with
  | [.reconcileTasks taskIds] => taskIds
  | _ => []

/-- A driver with the last event of each task. -/
structure TaskWatch where
  driver : SchedulerDriver
  news : String → Option TaskNews := fun _ => none

def heard (s : SchedulerDriver) (e : Event) : Option (String × TaskNews) :=
  if s.crashed then none
  else match s.accepts e with
    | some taskId => some (taskId, .accepted)
    | none => (s.reports e).map fun r => (r.1, .reported r.2)

def Event.isReconcileTimer : Event → Bool
  | .reconcileTimer => true
  | _ => false

/-- A check fires in a connected process. -/
structure Checks (s : SchedulerDriver) : Prop where
  live : s.crashed = false
  timer : s.reconcileTimers ≠ 0
  connected : s.connected = true
  master : s.master ≠ ""

namespace TaskWatch

def step (w : TaskWatch) (e : Event) : TaskWatch :=
  { driver := w.driver.step e
    news := match w.driver.heard e with
      | some (taskId, news) => Function.update w.news taskId (some news)
      | none => w.news }

def new (endpointId master : String) (framework : FrameworkInfo) : TaskWatch :=
  { driver := SchedulerDriver.new endpointId master framework }

def Staging (w : TaskWatch) (taskId : String) : Prop := (w.news taskId).any TaskNews.staging = true

structure Apart (w : TaskWatch) (e : Event) : Prop where
  subject : ∀ taskId ∈ w.driver.subject e, ∀ u ∈ w.driver.inCallback, u.taskId ≠ taskId
  check : e.isReconcileTimer = true → w.driver.inCallback = []

end TaskWatch

/-! ## What a step can do to the tasks -/

structure TaskView where
  activeTasks : Dict String TaskState
  inCallback : List DriverUpdate
  callbacks : List (Callback × Bool)

def tasks (s : SchedulerDriver) : TaskView := ⟨s.activeTasks, s.inCallback, s.callbacks⟩

/-- Nothing has happened to a task. -/
structure Untasked (a b : TaskView) : Prop where
  activeTasks : b.activeTasks = a.activeTasks
  inCallback : b.inCallback = a.inCallback
  callbacks : b.callbacks = a.callbacks ∨
    ∃ c, b.callbacks = c :: a.callbacks ∧ ∀ taskId state, c.1 ≠ .statusUpdate taskId state

structure Accepted (taskId : String) (a b : TaskView) : Prop where
  activeTasks : b.activeTasks = a.activeTasks.insert taskId .staging
  inCallback : b.inCallback = a.inCallback

/-- The callback of the update is entered. -/
structure Reported (update : DriverUpdate) (a b : TaskView) : Prop where
  activeTasks : b.activeTasks = a.activeTasks
  inCallback : b.inCallback = update :: a.inCallback
  callbacks : ∃ silenced, b.callbacks =
    (.statusUpdate update.taskId update.state, silenced) :: a.callbacks

/-- The callback of the update has returned. -/
structure Returned (update : DriverUpdate) (a b : TaskView) : Prop where
  activeTasks : b.activeTasks = match update.state with
    | .finished | .failed | .killed | .lost => a.activeTasks.erase update.taskId
    | state => a.activeTasks.insert update.taskId state
  inCallback : a.inCallback = update :: b.inCallback
  callbacks : b.callbacks = a.callbacks

variable {a b : TaskView} {s s' t : SchedulerDriver} {e : Event}

lemma tasks_of_view (h : s'.view = t.view) : s'.tasks = t.tasks :=
  congrArg (fun v : DriverView => TaskView.mk v.activeTasks v.inCallback v.callbacks) h

lemma Effect.untasked (h : Effect s s') : Untasked s.tasks s'.tasks := by
  cases h with
  | quiet h => exact tasks_of_view h ▸ ⟨rfl, rfl, .inl rfl⟩
  | sent hm h => exact tasks_of_view h ▸ ⟨rfl, rfl, .inl rfl⟩
  | called ha hc h => exact tasks_of_view h ▸ ⟨rfl, rfl, .inr ⟨_, rfl, hc⟩⟩

lemma Returned.acknowledge (update : DriverUpdate) :
    Returned update ⟨s.activeTasks, update :: s.inCallback, s.callbacks⟩ (s.acknowledge update).tasks := by
  unfold SchedulerDriver.acknowledge
  split_ifs <;> exact ⟨rfl, rfl, rfl⟩

/-- The kinds of steps. -/
inductive Tasked (s : SchedulerDriver) (e : Event) : Prop where
  | quiet (ha : s.accepts e = none) (h : Untasked s.tasks (s.act e).tasks)
  | accepted {taskId : String} (ha : s.accepts e = some taskId) (hs : s.subject e = some taskId)
      (h : Accepted taskId s.tasks (s.act e).tasks)
  | reported {u : DriverUpdate} (ha : s.accepts e = none) (hs : s.subject e = some u.taskId)
      (h : Reported u s.tasks (s.act e).tasks)
  | returned {u : DriverUpdate} (ha : s.accepts e = none) (h : Returned u s.tasks (s.act e).tasks)

lemma tasked_act (e : Event) : Tasked s e := by
  cases move_act (s := s) e with
  | plain ha hw heffect => exact .quiet ha heffect.untasked
  | flags hflags ha hw htold =>
    exact .quiet ha ⟨htold.activeTasks, htold.inCallback, htold.callbacks⟩
  | reported ha hw hs hl hview => exact .reported ha hs (tasks_of_view hview ▸ ⟨rfl, rfl, _, rfl⟩)
  | accepted ha hw hs hview => exact .accepted ha hs (tasks_of_view hview ▸ ⟨rfl, rfl⟩)
  | @returned u frames ha he hf hview =>
    have htasks : s.tasks = ⟨s.activeTasks, u :: inCallback { s with frames := frames }, s.callbacks⟩ := by
      simp [tasks, inCallback, hf, DriverFrame.update]
    refine .returned (u := u) ha ?_
    rw [htasks, tasks_of_view hview]
    exact .acknowledge (s := { s with frames := frames }) u
  | acknowledged ha he hp hview => exact .quiet ha (tasks_of_view hview ▸ ⟨rfl, rfl, .inl rfl⟩)

/-! ## What is heard of the tasks -/

section

variable (hlive : s.crashed = false)
include hlive

lemma reports_live {c : Callback × Bool} (hc : (s.act e).callbacks = c :: s.callbacks) :
    s.reports e = match c.1 with
      | .statusUpdate taskId state => some (taskId, state)
      | _ => none := by
  obtain ⟨c, silenced⟩ := c
  have hstep : (s.step e).callbacks = (c, silenced) :: s.callbacks := by
    simp [step, hlive, hc]
  cases c <;> simp [reports, hstep]

lemma reports_none (hc : (s.act e).callbacks = s.callbacks) : s.reports e = none := by
  have hstep : (s.step e).callbacks = s.callbacks := by simp [step, hlive, hc]
  unfold reports
  split
  · rename_i taskId state silenced callbacks heq
    refine if_neg fun hlen => ?_
    rw [← hstep, heq, length_cons] at hlen
    omega
  · rfl

lemma heard_untasked (ha : s.accepts e = none) (h : Untasked s.tasks (s.act e).tasks) :
    s.heard e = none := by
  have hreports : s.reports e = none := by
    rcases h.callbacks with hc | ⟨c, hc, hne⟩
    · exact reports_none hlive hc
    · rw [reports_live hlive hc]
      split
      · exact absurd ‹_› (hne _ _)
      · rfl
  simp [heard, hlive, ha, hreports]

lemma heard_accepted {taskId : String} (ha : s.accepts e = some taskId) :
    s.heard e = some (taskId, .accepted) := by
  simp [heard, hlive, ha]

lemma heard_reported (ha : s.accepts e = none) (h : Reported u s.tasks (s.act e).tasks) :
    s.heard e = some (u.taskId, .reported u.state) := by
  obtain ⟨silenced, hc⟩ := h.callbacks
  simp [heard, hlive, ha, reports_live hlive hc]

lemma heard_returned (ha : s.accepts e = none) (h : Returned u s.tasks (s.act e).tasks) :
    s.heard e = none := by
  simp [heard, hlive, ha, reports_none hlive h.callbacks]

end

lemma Returned.staging_iff (h : Returned u a b) (taskId : String) :
    b.activeTasks.lookup taskId = some .staging ↔
      if taskId = u.taskId then u.state = .staging else a.activeTasks.lookup taskId = some .staging := by
  rw [h.activeTasks]
  by_cases hid : taskId = u.taskId
  · subst hid
    cases u.state <;> simp
  · cases u.state <;> simp [lookup_insert_ne hid, lookup_erase_ne hid, hid]

namespace TaskWatch

structure Tracks (w : TaskWatch) : Prop where
  apart : (w.driver.inCallback.map (·.taskId)).Nodup
  pending : ∀ u ∈ w.driver.inCallback, w.news u.taskId = some (.reported u.state)
  settled : ∀ taskId, (∀ u ∈ w.driver.inCallback, u.taskId ≠ taskId) →
    (w.driver.activeTasks.lookup taskId = some .staging ↔ w.Staging taskId)

variable {w : TaskWatch}

lemma step_driver (hlive : w.driver.crashed = false) : (w.step e).driver = w.driver.act e := by
  simp [step, SchedulerDriver.step, hlive]

lemma news_quiet (hh : w.driver.heard e = none) : (w.step e).news = w.news := by
  simp [step, hh]

lemma news_heard {taskId : String} {news : TaskNews} (hh : w.driver.heard e = some (taskId, news)) :
    (w.step e).news = update w.news taskId (some news) := by
  simp [step, hh]

section

variable (h : w.Tracks) (hlive : w.driver.crashed = false)
include h hlive

lemma Tracks.quiet (ha : w.driver.accepts e = none)
    (hq : Untasked w.driver.tasks (w.driver.act e).tasks) : (w.step e).Tracks := by
  have hdriver := step_driver (e := e) hlive
  have hnews := news_quiet (heard_untasked hlive ha hq)
  have htasks : (w.driver.act e).activeTasks = w.driver.activeTasks := hq.activeTasks
  have hin : (w.driver.act e).inCallback = w.driver.inCallback := hq.inCallback
  refine ⟨?_, ?_, ?_⟩
  · rw [hdriver, hin]
    exact h.apart
  · rw [hdriver, hin, hnews]
    exact h.pending
  · rw [hdriver, hin, htasks]
    simp only [Staging, hnews]
    exact h.settled

lemma Tracks.accepted {taskId : String} (ha : w.driver.accepts e = some taskId)
    (hapart : ∀ u ∈ w.driver.inCallback, u.taskId ≠ taskId)
    (hq : Accepted taskId w.driver.tasks (w.driver.act e).tasks) : (w.step e).Tracks := by
  have hdriver := step_driver (e := e) hlive
  have hnews := news_heard (heard_accepted hlive ha)
  have htasks : (w.driver.act e).activeTasks = w.driver.activeTasks.insert taskId .staging :=
    hq.activeTasks
  have hin : (w.driver.act e).inCallback = w.driver.inCallback := hq.inCallback
  refine ⟨?_, ?_, ?_⟩
  · rw [hdriver, hin]
    exact h.apart
  · rw [hdriver, hin, hnews]
    intro u hu
    rw [update_of_ne (hapart u hu)]
    exact h.pending u hu
  · rw [hdriver, hin, htasks]
    intro id hid
    by_cases heq : id = taskId
    · subst heq
      simp [Staging, hnews, TaskNews.staging]
    · rw [lookup_insert_ne heq, h.settled id hid, Staging, Staging, hnews, update_of_ne heq]

lemma Tracks.reported (ha : w.driver.accepts e = none)
    (hapart : ∀ v ∈ w.driver.inCallback, v.taskId ≠ u.taskId)
    (hq : Reported u w.driver.tasks (w.driver.act e).tasks) : (w.step e).Tracks := by
  have hdriver := step_driver (e := e) hlive
  have hnews := news_heard (heard_reported hlive ha hq)
  have htasks : (w.driver.act e).activeTasks = w.driver.activeTasks := hq.activeTasks
  have hin : (w.driver.act e).inCallback = u :: w.driver.inCallback := hq.inCallback
  refine ⟨?_, ?_, ?_⟩
  · rw [hdriver, hin, map_cons, nodup_cons]
    exact ⟨fun hmem => by
      obtain ⟨v, hv, heq⟩ := mem_map.mp hmem
      exact hapart v hv heq, h.apart⟩
  · rw [hdriver, hin, hnews]
    intro v hv
    rcases mem_cons.mp hv with rfl | hv
    · exact update_self ..
    · rw [update_of_ne (hapart v hv)]
      exact h.pending v hv
  · rw [hdriver, hin, htasks]
    intro id hid
    have hne : id ≠ u.taskId := (hid u mem_cons_self).symm
    rw [h.settled id fun v hv => hid v (mem_cons_of_mem _ hv), Staging, Staging, hnews,
      update_of_ne hne]

lemma Tracks.returned (ha : w.driver.accepts e = none)
    (hq : Returned u w.driver.tasks (w.driver.act e).tasks) : (w.step e).Tracks := by
  have hdriver := step_driver (e := e) hlive
  have hnews := news_quiet (heard_returned hlive ha hq)
  have hin : w.driver.inCallback = u :: (w.driver.act e).inCallback := hq.inCallback
  have hapart := h.apart
  rw [hin, map_cons, nodup_cons] at hapart
  refine ⟨?_, ?_, ?_⟩
  · rw [hdriver]
    exact hapart.2
  · rw [hdriver, hnews]
    exact fun v hv => h.pending v (hin ▸ mem_cons_of_mem _ hv)
  · rw [hdriver]
    intro id hid
    have hstaging : (w.driver.act e).activeTasks.lookup id = some .staging ↔ _ := hq.staging_iff id
    rw [hstaging, Staging, hnews]
    by_cases heq : id = u.taskId
    · rw [if_pos heq, heq, h.pending u (hin ▸ mem_cons_self)]
      simp [TaskNews.staging]
    · rw [if_neg heq]
      refine h.settled id fun v hv => ?_
      rcases mem_cons.mp (hin ▸ hv) with rfl | hv
      · exact Ne.symm heq
      · exact hid v hv

end

lemma Tracks.step (h : w.Tracks) (he : w.Apart e) : (w.step e).Tracks := by
  cases hcrashed : w.driver.crashed with
  | true =>
    have hsame : w.step e = w := by simp [TaskWatch.step, SchedulerDriver.step, heard, hcrashed]
    rw [hsame]
    exact h
  | false =>
    cases tasked_act (s := w.driver) e with
    | quiet ha hq => exact h.quiet hcrashed ha hq
    | accepted ha hs hq => exact h.accepted hcrashed ha (he.subject _ hs) hq
    | reported ha hs hq => exact h.reported hcrashed ha (he.subject _ hs) hq
    | returned ha hq => exact h.returned hcrashed ha hq

end TaskWatch

/-! ## The check -/

lemma asked_eq (h : s.Checks) :
    s.asked = (s.activeTasks.entries.filter (fun e => e.2 = .staging)).map (·.1) := by
  have hsent : (s.step .reconcileTimer).sent =
      let staging := (s.activeTasks.entries.filter (fun e => e.2 = .staging)).map (·.1)
      if staging = [] then s.sent else .reconcileTasks staging :: s.sent := by
    obtain ⟨hlive, htimer, hconnected, hmaster⟩ := h
    simp only [step, hlive, act, if_neg htimer, checkReconcile]
    split_ifs <;> simp_all [forward, check, send]
  rw [asked, hsent]
  dsimp only
  split_ifs with hnil
  · simp [hnil]
  · simp

lemma mem_asked_iff (h : s.Checks) (taskId : String) :
    taskId ∈ s.asked ↔ s.activeTasks.lookup taskId = some .staging := by
  rw [asked_eq h]
  constructor
  · intro hmem
    obtain ⟨⟨id, state⟩, hentry, rfl⟩ := mem_map.mp hmem
    obtain ⟨hentry, hstate⟩ := mem_filter.mp hentry
    obtain rfl : state = .staging := of_decide_eq_true hstate
    exact mem_lookup_iff.mpr hentry
  · intro hl
    exact mem_map.mpr ⟨⟨taskId, .staging⟩,
      mem_filter.mpr ⟨mem_lookup_iff.mp hl, decide_eq_true rfl⟩, rfl⟩

lemma asked_nodup (h : s.Checks) : s.asked.Nodup := by
  rw [asked_eq h]
  have hkeys : s.activeTasks.keys.Nodup := s.activeTasks.keys_nodup
  exact hkeys.sublist (filter_sublist.map _)

theorem reconcile_asks (endpointId master : String) (framework : FrameworkInfo) (es : List Event)
    (hes : Machine.Guarded TaskWatch.step TaskWatch.Apart (TaskWatch.new endpointId master framework)
      (es ++ [.reconcileTimer]))
    (hcheck : (Machine.run TaskWatch.step (TaskWatch.new endpointId master framework) es).driver.Checks) :
    let w := Machine.run TaskWatch.step (TaskWatch.new endpointId master framework) es
    w.driver.asked.Nodup ∧ ∀ taskId, taskId ∈ w.driver.asked ↔ w.Staging taskId := by
  obtain ⟨hrun, hlast, _⟩ := Machine.guarded_append.mp hes
  have hinit : (TaskWatch.new endpointId master framework).Tracks :=
    ⟨nodup_nil, fun u hu => absurd hu not_mem_nil, fun taskId _ => by
      simp [TaskWatch.Staging, TaskWatch.new, SchedulerDriver.new]⟩
  have htracks := Machine.run_inv (I := TaskWatch.Tracks) (fun _ _ h he => h.step he) hinit hrun
  refine ⟨asked_nodup hcheck, fun taskId => ?_⟩
  rw [mem_asked_iff hcheck]
  refine htracks.settled taskId fun u hu => ?_
  rw [hlast.check rfl] at hu
  exact absurd hu not_mem_nil

instance (w : TaskWatch) (e : Event) : Decidable (w.Apart e) :=
  decidable_of_iff ((∀ taskId ∈ w.driver.subject e, ∀ u ∈ w.driver.inCallback, u.taskId ≠ taskId) ∧
      (e.isReconcileTimer = true → w.driver.inCallback = []))
    ⟨fun h => ⟨h.1, h.2⟩, fun h => ⟨h.subject, h.check⟩⟩

instance (w : TaskWatch) (taskId : String) : Decidable (w.Staging taskId) :=
  inferInstanceAs (Decidable (_ = true))

def registeredEvents : List Event :=
  [.start, .registrationTimer false, .input (.registered "framework-9")]

def updateOf (taskId : String) (state : TaskState) : Event :=
  .input (.statusUpdate { frameworkId := some "framework-9", taskId := taskId, state := state })

theorem reconcile_asks_second :
    let es := registeredEvents ++ [.launchTasks ["offer-1"] [{ taskId := "1" }], .resume, .resume,
      updateOf "1" .running, .launchTasks ["offer-2"] [{ taskId := "2" }], .resume, .resume, .resume]
    let w := Machine.run TaskWatch.step (TaskWatch.new "9" "urb://localhost" { name := "sleep" }) es
    w.driver.asked = ["2"] ∧ w.driver.asked.Nodup ∧
      ∀ taskId, taskId ∈ w.driver.asked ↔ w.Staging taskId :=
  ⟨by decide +kernel, reconcile_asks "9" "urb://localhost" { name := "sleep" } _ (by decide +kernel)
    ⟨by decide +kernel, by decide +kernel, by decide +kernel, by decide +kernel⟩⟩

theorem relaunched_notAsked :
    let es := registeredEvents ++ [.launchTasks ["offer-1"] [{ taskId := "1" }], .resume, .resume,
      updateOf "1" .lost, .launchTasks ["offer-2"] [{ taskId := "1" }], .resume, .resume, .resume]
    let w := Machine.run TaskWatch.step (TaskWatch.new "9" "urb://localhost" { name := "sleep" }) es
    w.driver.frames.length = 0 ∧ w.driver.connected = true ∧ w.driver.aborted = false ∧
      w.driver.reconcileTimers = 1 ∧ w.news "1" = some .accepted ∧ w.Staging "1" ∧
      w.driver.asked = [] := by
  decide +kernel

end SchedulerDriver

end Urb
