/-
# `Urb.RunningDriver` — what a driver at status RUNNING is waiting for

The status is the driver's, the flags are its process's, and `start`, `stop` and
`abort` write some of them, depending on the status before:

    start    NOT_STARTED, STOPPED   a registration timer, RUNNING
             ABORTED                RUNNING, and nothing else
    stop     RUNNING, ABORTED       connected_ := false, STOPPED
    abort    RUNNING                connected_ := false and aborted_ := true if the
                                    process was connected, ABORTED

So a start after an abort finds the process as the abort has left it, and only a
registration timer clears `aborted_`.

**Proved here.**  With a master to register with, a driver at status RUNNING or
ABORTED has an aborted process or one that is connected, about to register or
waiting for an answer, whatever happens (`Fit.step`); and the process of a driver
at status RUNNING is never aborted exactly if no start finds it so
(`running_works_iff`).
-/
import Urb.SchedulerDriver

namespace Urb

open Bool Nat

namespace SchedulerDriver

def ToMaster.isRegistration : ToMaster → Bool
  | .registration _ => true
  | _ => false

def requests (s : SchedulerDriver) : ℕ := s.sent.countP ToMaster.isRegistration

def Event.losesBroker : Event → Bool
  | .brokerError => true
  | _ => false

def Event.isStart : Event → Bool
  | .start => true
  | _ => false

def disconnects (s : SchedulerDriver) (e : Event) : Bool :=
  s.connected && !(s.step e).connected || e.losesBroker

structure RegistrationWatch where
  driver : SchedulerDriver
  requested : Bool := false

/-! ## What a step can do to the flags -/

structure Flags where
  status : DriverStatus
  connected : Bool
  aborted : Bool
  timers : ℕ
  master : String
  requests : ℕ

def flags (s : SchedulerDriver) : Flags :=
  ⟨s.status, s.connected, s.aborted, s.registrationTimers, s.master, s.requests⟩

structure Stays (a b : Flags) : Prop where
  connected : b.connected = a.connected
  aborted : b.aborted = a.aborted
  timers : b.timers = a.timers
  master : b.master = a.master
  requests : a.requests ≤ b.requests

structure Idle (a b : Flags) : Prop extends Stays a b where
  status : b.status = a.status

variable {a b c : Flags} {s s' t : SchedulerDriver}

lemma Stays.refl (a : Flags) : Stays a a := ⟨rfl, rfl, rfl, rfl, le_rfl⟩

lemma Idle.refl (a : Flags) : Idle a a := ⟨.refl a, rfl⟩

lemma idle_send (m : ToMaster) : Idle s.flags (s.send m).flags := by
  refine ⟨⟨rfl, rfl, rfl, rfl, ?_⟩, rfl⟩
  show s.requests ≤ List.countP _ (m :: s.sent)
  rw [List.countP_cons]
  exact le_add_right _ _

lemma requests_registration (call : RegistrationCall) :
    (s.send (.registration call)).requests = s.requests + 1 :=
  List.countP_cons_of_pos rfl

lemma flags_of_view (h : s'.view = t.view) : s'.flags = t.flags :=
  congrArg (fun v : DriverView => Flags.mk v.status v.connected v.aborted v.registrationTimers v.master
    (v.sent.countP ToMaster.isRegistration)) h

lemma Effect.idle (h : Effect s s') : Idle s.flags s'.flags := by
  cases h with
  | quiet h => exact flags_of_view h ▸ .refl _
  | sent hm h => exact flags_of_view h ▸ idle_send _
  | called ha hc h => exact flags_of_view h ▸ .refl _

lemma idle_acknowledge (update : DriverUpdate) : Idle s.flags (s.acknowledge update).flags := by
  unfold acknowledge
  split_ifs
  · exact .refl _
  · exact idle_send (.acknowledge _ _ _)

lemma idle_act {e : Event} (he : e.writesFlags = false) : Idle s.flags (s.act e).flags := by
  cases move_act (s := s) e with
  | plain ha hw heffect => exact heffect.idle
  | flags hflags ha hw htold => exact absurd (he.symm.trans hflags) false_ne_true
  | reported ha hw hs hl hview => exact flags_of_view hview ▸ .refl _
  | accepted ha hw hs hview => exact flags_of_view hview ▸ .refl _
  | @returned u frames ha hr hf hview =>
    rw [flags_of_view hview]
    exact idle_acknowledge (s := { s with frames := frames }) u
  | acknowledged ha hr hp hview =>
    rw [flags_of_view hview]
    exact idle_send _

/-! ## The events that write the flags -/

lemma Event.eq_start {e : Event} (h : e.isStart) : e = .start := by
  cases e with
  | start => rfl
  | _ => cases h

inductive Flagged (e : Event) (a b : Flags) : Prop where
  | idle (h : Idle a b) (he : e.losesBroker = false)
  | started (he : e = .start) (hmaster : b.master = a.master) (hstatus : b.status = .running)
      (haborted : b.aborted = a.aborted)
      (h : Stays a b ∧ (a.status = .running ∨ a.status = .aborted) ∨ 0 < b.timers)
  | resting (hmaster : b.master = a.master) (h : b.status = .notStarted ∨ b.status = .stopped)
  | aborted (he : e.losesBroker = false) (hmaster : b.master = a.master) (hstatus : a.status = .running)
      (hstatus' : b.status = .aborted) (h : Stays a b ∨ b.aborted = true)
  | gained (he : e ≠ .start) (hmaster : b.master = a.master) (hstatus : b.status = a.status)
      (haborted : b.aborted = true → a.aborted = true)
      (h : b.connected = true ∨ 0 < b.timers ∨ a.requests < b.requests)

variable {e : Event}

lemma Flagged.master (h : Flagged e a b) : b.master = a.master := by
  cases h with
  | idle h he => exact h.master
  | started he hmaster hstatus haborted h => exact hmaster
  | resting hmaster h => exact hmaster
  | aborted he hmaster hstatus hstatus' h => exact hmaster
  | gained he hmaster hstatus haborted h => exact hmaster

lemma flagged_ite {p : Prop} [Decidable p] {t u : SchedulerDriver} (ht : p → Flagged e a t.flags)
    (hu : ¬p → Flagged e a u.flags) : Flagged e a (if p then t else u).flags :=
  iteInduction (motive := fun t : SchedulerDriver => Flagged e a t.flags) ht hu

lemma start_flags : s.start.status = .running ∧ s.start.aborted = s.aborted := by
  unfold start
  split <;> exact ⟨rfl, rfl⟩

lemma flagged_start : Flagged .start s.flags s.start.flags := by
  unfold start
  split
  · exact .started rfl rfl rfl rfl (.inr (succ_pos _))
  · exact .started rfl rfl rfl rfl (.inr (succ_pos _))
  · rename_i hnew hstopped
    refine .started rfl rfl rfl rfl (.inl ⟨⟨rfl, rfl, rfl, rfl, le_rfl⟩, ?_⟩)
    cases hs : s.status with
    | notStarted => exact absurd hs hnew
    | stopped => exact absurd hs hstopped
    | running => exact .inl hs
    | aborted => exact .inr hs

lemma flagged_stop (failover : Bool) : Flagged (.stop failover) s.flags (s.stop failover).flags := by
  refine flagged_ite (fun _ => .resting ?_ (.inr rfl)) fun _ => .idle (.refl _) rfl
  show (s.stopProcess failover).master = s.master
  unfold stopProcess check
  split_ifs <;> rfl

lemma stays_abortProcess (hm : s.master ≠ "") : Stays s.flags s.abortProcess.flags ∨
      s.abortProcess.aborted ∧ s.abortProcess.master = s.master := by
  unfold abortProcess check
  split_ifs
  · exact .inl (.refl _)
  · exact .inr ⟨rfl, rfl⟩

lemma flagged_abort (he : e.losesBroker = false) (hm : s.master ≠ "") :
    Flagged e s.flags s.abort.flags := by
  refine flagged_ite (fun hrunning => ?_) fun _ => .idle (.refl _) he
  rcases stays_abortProcess hm with h | ⟨haborted, hmaster⟩
  · exact .aborted he h.master hrunning rfl
      (.inl ⟨h.connected, h.aborted, h.timers, h.master, h.requests⟩)
  · exact .aborted he hmaster hrunning rfl (.inr haborted)

lemma flagged_error (message : String) (hm : s.master ≠ "") :
    Flagged (.input (.error message)) s.flags (s.error message).flags :=
  flagged_ite (fun _ => .idle (.refl _) rfl) fun _ =>
    flagged_ite (fun _ => flagged_abort rfl hm) fun _ => flagged_abort rfl hm

lemma flagged_registered (frameworkId : String) :
    Flagged (.input (.registered frameworkId)) s.flags (s.registered frameworkId).flags :=
  flagged_ite (fun _ => .idle (.refl _) rfl) fun _ => flagged_ite (fun _ => .idle (.refl _) rfl)
    fun _ => .gained nofun rfl rfl id (.inl rfl)

lemma flagged_reregistered (frameworkId : String) :
    Flagged (.input (.reregistered frameworkId)) s.flags (s.reregistered frameworkId).flags :=
  flagged_ite (fun _ => .idle (.refl _) rfl) fun _ => flagged_ite (fun _ => .idle (.refl _) rfl)
    fun _ => flagged_ite (fun _ => .gained nofun rfl rfl id (.inl rfl)) fun _ => .idle (.refl _) rfl

lemma flagged_onInput {m : FromMaster} (hm : s.master ≠ "")
    (hflags : (Event.input m).writesFlags) : Flagged (.input m) s.flags (s.onInput m).flags := by
  cases m with
  | registered frameworkId => exact flagged_registered frameworkId
  | reregistered frameworkId => exact flagged_reregistered frameworkId
  | error message => exact flagged_error message hm
  | _ => cases hflags

lemma doReliableRegistration_gains (fails : Bool) (hm : s.master ≠ "") :
    (s.doReliableRegistration fails).master = s.master ∧
      (s.doReliableRegistration fails).status = s.status ∧
      ((s.doReliableRegistration fails).aborted → s.aborted) ∧
      ((s.doReliableRegistration fails).connected ∨
        0 < (s.doReliableRegistration fails).registrationTimers ∨
        s.requests < (s.doReliableRegistration fails).requests) := by
  unfold doReliableRegistration
  split_ifs with hconnected haborted hfails
  · have hc : s.connected := by simpa [hm] using hconnected
    exact ⟨rfl, rfl, id, .inl hc⟩
  · exact ⟨rfl, rfl, nofun, .inl rfl⟩
  · exact ⟨rfl, rfl, id, .inr (.inl (succ_pos _))⟩
  · exact ⟨rfl, rfl, id, .inr (.inr (lt_of_succ_le (requests_registration _).ge))⟩

lemma flagged_act (e : Event) (hm : s.master ≠ "") : Flagged e s.flags (s.act e).flags := by
  cases hflags : e.writesFlags with
  | false =>
    refine .idle (idle_act hflags) ?_
    cases e with
    | brokerError => cases hflags
    | _ => rfl
  | true =>
    cases e with
    | start => exact flagged_start
    | stop failover => exact flagged_stop failover
    | abort => exact flagged_abort rfl hm
    | input m => exact flagged_ite (fun _ => .idle (.refl _) rfl) fun _ => flagged_onInput hm hflags
    | brokerError =>
      exact flagged_ite (fun hnew => .resting rfl (.inl hnew)) fun _ =>
        .gained nofun rfl rfl id (.inr (.inl (succ_pos _)))
    | registrationTimer fails =>
      refine flagged_ite (fun _ => .idle (.refl _) rfl) fun _ => ?_
      obtain ⟨hmaster, hstatus, haborted, h⟩ := doReliableRegistration_gains
        (s := { s with registrationTimers := s.registrationTimers - 1 }) fails hm
      exact .gained nofun hmaster hstatus haborted h
    | _ => cases hflags

namespace RegistrationWatch

def step (w : RegistrationWatch) (e : Event) : RegistrationWatch :=
  if w.driver.crashed then w
  else
    { driver := w.driver.step e
      requested := w.driver.requests < (w.driver.step e).requests ||
        w.requested && !w.driver.disconnects e }

def new (endpointId master : String) (framework : FrameworkInfo) : RegistrationWatch :=
  { driver := SchedulerDriver.new endpointId master framework }

def Able (w : RegistrationWatch) : Prop :=
  w.driver.connected = true ∨ 0 < w.driver.registrationTimers ∨ w.requested = true

def Works (w : RegistrationWatch) : Prop :=
  w.driver.status = .running → w.driver.aborted = false ∧ w.Able

def Startable (w : RegistrationWatch) (e : Event) : Prop :=
  w.driver.crashed = false → e.isStart = true → w.driver.aborted = false

structure Fit (w : RegistrationWatch) : Prop where
  master : w.driver.master ≠ ""
  able : w.driver.status = .running ∨ w.driver.status = .aborted → w.driver.aborted = true ∨ w.Able

variable {w : RegistrationWatch}

lemma step_live (hlive : w.driver.crashed = false) :
    w.step e = { driver := w.driver.act e
                 requested := w.driver.requests < (w.driver.act e).requests ||
                   w.requested && !w.driver.disconnects e } := by
  simp [step, SchedulerDriver.step, hlive]

lemma step_crashed (hdead : w.driver.crashed) : w.step e = w := if_pos hdead

lemma able_stays (hlive : w.driver.crashed = false) (he : e.losesBroker = false)
    (h : Stays w.driver.flags (w.driver.act e).flags) (ha : w.Able) : (w.step e).Able := by
  rw [step_live hlive]
  rcases ha with hc | ht | hr
  · exact .inl (h.connected.trans hc)
  · exact .inr (.inl (ht.trans_eq h.timers.symm))
  · refine .inr (.inr ?_)
    have hc : (w.driver.act e).connected = w.driver.connected := h.connected
    simp [hr, disconnects, SchedulerDriver.step, hlive, hc, he]

lemma able_gained (hlive : w.driver.crashed = false)
    (h : (w.driver.act e).connected ∨ 0 < (w.driver.act e).registrationTimers ∨
      w.driver.requests < (w.driver.act e).requests) : (w.step e).Able := by
  rw [step_live hlive]
  refine h.imp id (Or.imp id fun hr => ?_)
  simp [hr]

lemma Fit.step (h : w.Fit) (e : Event) : (w.step e).Fit := by
  cases hcrashed : w.driver.crashed with
  | true =>
    rw [step_crashed hcrashed]
    exact h
  | false =>
    have hdriver : (w.step e).driver = w.driver.act e := by rw [step_live hcrashed]
    have hflags := flagged_act e h.master
    refine ⟨fun hm => h.master (hflags.master.symm.trans (hdriver ▸ hm)), fun hs => ?_⟩
    rw [hdriver] at hs ⊢
    cases hflags with
    | idle hi he =>
      have hs' : w.driver.status = .running ∨ w.driver.status = .aborted :=
        hs.imp hi.status.symm.trans hi.status.symm.trans
      exact (h.able hs').imp hi.aborted.trans (able_stays hcrashed he hi.toStays)
    | started he hmaster hstatus haborted hi =>
      rcases hi with ⟨hi, hs'⟩ | ht
      · subst he
        exact (h.able hs').imp hi.aborted.trans (able_stays hcrashed rfl hi)
      · exact .inr (able_gained hcrashed (.inr (.inl ht)))
    | resting hmaster hrest =>
      rcases hrest with hrest | hrest <;> rcases hs with hs | hs <;> cases hrest.symm.trans hs
    | aborted he hmaster hstatus hstatus' hi =>
      rcases hi with hi | ha
      · exact (h.able (.inl hstatus)).imp hi.aborted.trans (able_stays hcrashed he hi)
      · exact .inl ha
    | gained he hmaster hstatus haborted hi => exact .inr (able_gained hcrashed hi)

lemma works_step_iff (hfit : w.Fit) (h : w.Works) (e : Event) : (w.step e).Works ↔ w.Startable e := by
  have hfit' := hfit.step e
  cases hcrashed : w.driver.crashed with
  | true =>
    rw [step_crashed hcrashed]
    exact iff_of_true h fun hlive => absurd (hcrashed.symm.trans hlive) nofun
  | false =>
    have hdriver : (w.step e).driver = w.driver.act e := by rw [step_live hcrashed]
    -- the process is able if it is not aborted, so the flag decides
    have hworks : (w.step e).Works ↔
        ((w.driver.act e).status = .running → (w.driver.act e).aborted = false) := by
      rw [Works, hdriver]
      refine ⟨fun hw hr => (hw hr).1, fun hw hr => ⟨hw hr, ?_⟩⟩
      exact (hfit'.able (.inl (hdriver ▸ hr))).resolve_left
        fun ha => false_ne_true ((hw hr).symm.trans (hdriver ▸ ha))
    rw [hworks]
    by_cases hstart : e.isStart
    · obtain rfl : e = .start := Event.eq_start hstart
      have hs : (w.driver.act .start).status = .running ∧
          (w.driver.act .start).aborted = w.driver.aborted := start_flags
      rw [hs.2]
      exact ⟨fun ha _ _ => ha hs.1, fun ha _ => ha hcrashed hstart⟩
    · refine iff_of_true (fun hr => ?_) fun _ he => absurd he hstart
      refine eq_false_iff.mpr fun ha => ?_
      have hold (hs : w.driver.status = .running) : w.driver.aborted ≠ true := eq_false_iff.mp (h hs).1
      cases flagged_act e hfit.master with
      | idle hi he => exact hold (hi.status.symm.trans hr) (hi.aborted.symm.trans ha)
      | started he => exact hstart (he ▸ rfl)
      | resting hmaster hrest => rcases hrest with hrest | hrest <;> cases hrest.symm.trans hr
      | aborted he hmaster hstatus hstatus' hi => cases hstatus'.symm.trans hr
      | gained he hmaster hstatus haborted hi => exact hold (hstatus.symm.trans hr) (haborted ha)

end RegistrationWatch

theorem running_works_iff (endpointId : String) {master : String} (framework : FrameworkInfo)
    (hmaster : master ≠ "") (es : List Event) :
    (∀ fs, fs <+: es → (Machine.run RegistrationWatch.step
        (RegistrationWatch.new endpointId master framework) fs).Works) ↔
      Machine.Guarded RegistrationWatch.step RegistrationWatch.Startable
        (RegistrationWatch.new endpointId master framework) es :=
  Machine.prefixes_iff (I := RegistrationWatch.Fit) (Q := RegistrationWatch.Works)
    (G := RegistrationWatch.Startable) (P := fun _ _ => True) (fun _ e hfit _ _ => hfit.step e)
    (fun _ e hfit h _ => RegistrationWatch.works_step_iff hfit h e)
    ⟨hmaster, fun hs => by rcases hs with hs | hs <;> cases hs⟩ (fun hs => by cases hs)
    (Machine.guarded_of_forall (fun _ _ => trivial) _ es)

instance (w : RegistrationWatch) : Decidable w.Able := inferInstanceAs (Decidable (_ ∨ _))

instance (w : RegistrationWatch) : Decidable w.Works := inferInstanceAs (Decidable (_ → _))

instance (w : RegistrationWatch) (e : Event) : Decidable (w.Startable e) :=
  inferInstanceAs (Decidable (_ → _))

theorem running_works_restarted :
    ∃ es, Machine.Guarded RegistrationWatch.step RegistrationWatch.Startable
        (RegistrationWatch.new "9" "urb://localhost" { name := "sleep" }) es ∧
      (Machine.run RegistrationWatch.step
        (RegistrationWatch.new "9" "urb://localhost" { name := "sleep" }) es).driver.status = .running ∧
      ∀ fs, fs <+: es → (Machine.run RegistrationWatch.step
        (RegistrationWatch.new "9" "urb://localhost" { name := "sleep" }) fs).Works :=
  ⟨[.start, .registrationTimer false, .input (.registered "framework-9"), .stop true, .start,
      .brokerError, .registrationTimer true, .registrationTimer false, .abort, .start],
    by decide +kernel, by decide +kernel,
    (running_works_iff "9" { name := "sleep" } (by decide) _).mpr (by decide +kernel)⟩

theorem started_afterAbort :
    let w := RegistrationWatch.new "9" "urb://localhost" { name := "sleep" }
    let registered := [.start, .registrationTimer false, .input (.registered "framework-9")]
    ¬(Machine.run RegistrationWatch.step w (registered ++ [.abort, .start])).Works ∧
    (Machine.run RegistrationWatch.step w (registered ++ [.abort, .start])).driver.registrationTimers
      = 0 ∧
    ¬(Machine.run RegistrationWatch.step w (registered ++ [.abort, .stop false, .start])).Works ∧
    ¬(Machine.run RegistrationWatch.step (RegistrationWatch.new "9" "" { name := "sleep" })
      [.start, .registrationTimer false]).Works := by
  decide +kernel

end SchedulerDriver

end Urb
