/-
# `Urb.ChannelExpiry` — a channel expires, and its framework goes with it

The channel monitor removes a channel that has not been renewed for the initial
time to live and a grace period, 240 seconds together; if the framework of the
channel listens on it, the framework is removed as well.  Between the test and
the removal stands the wait for the lock of the framework:

    monitor     age, channel name ... waits for the lock ............ removes the framework
    another     holds the lock ............................ released
    framework                registers on a new channel

**Proved here.**  In every run in which nothing arrives for a framework or a
channel while the channel's expiry is under way, a framework is removed for the
channel it listens on, and only when nothing has been handled for that channel in
the last 240 seconds (`expiries_due`).
-/
import Urb.Lifecycle

namespace Urb

open AList List

namespace Lifecycle

open Greenlet (Result Discipline)

def Expiry.Due (x : Expiry) : Prop :=
  x.current = x.channel ∧ ∀ t ∈ x.handled, t + 240 < x.time

instance (x : Expiry) : Decidable x.Due := inferInstanceAs (Decidable (_ ∧ _))

def Outside.heartbeatChannel : Outside → Option String
  | .heartbeat c _ _ => some c
  | _ => none

def Undisturbed (a : Act) (i : Outside) (_ : ℕ) (l : Local) (s : State) : Prop :=
  ∀ x ∈ s.expiring.values,
    (a = .register → x.id ≠ l.hub.id ∧ x.channel ≠ l.channel) ∧
    (a = .heartbeat → i.heartbeatChannel ≠ some x.channel)

instance (a : Act) (i : Outside) (g : ℕ) (l : Local) (s : State) : Decidable (Undisturbed a i g l s) :=
  inferInstanceAs (Decidable (∀ x ∈ s.expiring.values, _ ∧ _))

/-! ## The invariant -/

structure ExpirySound (s : State) : Prop extends Registered s where
  past : ∀ c t, (c, t) ∈ s.handled → t ≤ s.clock
  lives : ∀ c info, s.channels.lookup c = some info → ∀ t, (c, t) ∈ s.handled →
    t + channelInitialTtl ≤ info.timeToLive
  quiet : ∀ g x, s.expiring.lookup g = some x → ∀ t, (x.channel, t) ∈ s.handled → t + 240 < s.clock
  listens : ∀ g x, s.expiring.lookup g = some x → ∀ o, s.framework x.id = some o →
    s.channelName o = x.channel
  due : ∀ x ∈ s.expiries, x.Due

namespace ExpirySound

variable {s : State} {l : Local} {g : ℕ}

lemma start : ExpirySound {} :=
  ⟨Registered.start, fun _ _ ht => absurd ht not_mem_nil,
    fun _ _ hc => absurd hc (not_mem_none _), fun _ _ hx => absurd hx (not_mem_none _),
    fun _ _ hx => absurd hx (not_mem_none _), fun _ hx => absurd hx not_mem_nil⟩

variable (h : ExpirySound s)
include h

lemma of_eq {s' : State} (hhub : s'.hub = s.hub) (hid : s'.frameworkId = s.frameworkId)
    (hname : s'.channelName = s.channelName) (hclock : s'.clock = s.clock)
    (hchannels : s'.channels = s.channels) (hexpiring : s'.expiring = s.expiring)
    (hhandled : s'.handled = s.handled) (hexpiries : s'.expiries = s.expiries) : ExpirySound s' := by
  have hframework : s'.framework = s.framework := framework_congr hhub
  constructor
  · exact h.toRegistered.of_eq hhub hid
  · rw [hhandled, hclock]
    exact h.past
  · rw [hchannels, hhandled]
    exact h.lives
  · rw [hexpiring, hhandled, hclock]
    exact h.quiet
  · rw [hexpiring, hframework, hname]
    exact h.listens
  · rw [hexpiries]
    exact h.due

lemma removes {hub : Shared} (hr : Removes s.hub hub) : ExpirySound { s with hub := hub } :=
  ⟨h.toRegistered.removes hr, h.past, h.lives, h.quiet,
    fun g x hx o ho => h.listens g x hx o (hr.get_some ho), h.due⟩

lemma past_cons {c c' : String} {t : ℚ} (ht : (c', t) ∈ (c, s.clock) :: s.handled) : t ≤ s.clock := by
  rcases mem_cons.mp ht with he | ht
  · cases he
    exact le_rfl
  · exact h.past c' t ht

lemma lives_insert {c : String} {info : ChannelInfo}
    (hinfo : info.timeToLive = s.clock + channelInitialTtl) {c' : String} {info' : ChannelInfo}
    (hc' : (s.channels.insert c info).lookup c' = some info') {t : ℚ}
    (ht : (c', t) ∈ (c, s.clock) :: s.handled) : t + channelInitialTtl ≤ info'.timeToLive := by
  rcases lookup_insert_eq_some_iff.mp hc' with ⟨-, rfl⟩ | ⟨hc, hold⟩
  · have hle : t ≤ s.clock := h.past_cons ht
    rw [hinfo]
    exact add_le_add_left hle _
  · refine h.lives c' info' hold t ((mem_cons.mp ht).resolve_left fun he => hc ?_)
    exact (Prod.mk.inj he).1

lemma quiet_cons {c : String} (hfree : ∀ x ∈ s.expiring.values, x.channel ≠ c) {g : ℕ}
    {x : Expiring} (hx : s.expiring.lookup g = some x) {t : ℚ}
    (ht : (x.channel, t) ∈ (c, s.clock) :: s.handled) : t + 240 < s.clock := by
  have hne : x.channel ≠ c := hfree x (mem_values_iff.mpr ⟨g, hx⟩)
  exact h.quiet g x hx t ((mem_cons.mp ht).resolve_left fun he => hne (Prod.mk.inj he).1)

lemma watch (c : String) (id : Option String) : ExpirySound (startChannelMonitoring c id s) :=
  ⟨⟨h.fresh, h.ids⟩, h.past,
    fun _ _ hc' _ ht => h.lives_insert rfl hc' (mem_cons_of_mem _ ht), h.quiet, h.listens, h.due⟩

lemma heartbeat {c : String} (hfree : ∀ x ∈ s.expiring.values, x.channel ≠ c) (id : Option String)
    (type : EndpointType) : ExpirySound (handleHeartbeat c id type s) :=
  ⟨⟨h.fresh, h.ids⟩, fun _ _ ht => h.past_cons ht, fun _ _ hc' _ ht => h.lives_insert rfl hc' ht,
    fun _ _ hx _ ht => h.quiet_cons hfree hx ht, h.listens, h.due⟩

lemma register (hfree : ∀ x ∈ s.expiring.values, x.id ≠ l.hub.id ∧ x.channel ≠ l.channel) :
    ExpirySound (registerFramework l s).2 := by
  refine ⟨h.toRegistered.registerFramework, fun _ _ ht => h.past_cons ht,
    fun _ _ hc' _ ht => h.lives_insert rfl hc' ht,
    fun _ _ hx _ ht => h.quiet_cons (fun x hx => (hfree x hx).2) hx ht, fun g x hx o ho => ?_, h.due⟩
  have hne : x.id ≠ l.hub.id := (hfree x (mem_values_iff.mpr ⟨g, hx⟩)).1
  rw [framework_registerFramework, if_neg hne] at ho
  show Function.update s.channelName (registered l s) l.channel o = _
  rw [Function.update_of_ne (h.toRegistered.ne_registered ho hne)]
  exact h.listens g x hx o ho

lemma examine (c : String) : ExpirySound (examineChannel g c l s).2 := by
  have herase : ExpirySound { s with channels := s.channels.erase c } :=
    ⟨⟨h.fresh, h.ids⟩, h.past,
      fun c' info hc' => h.lives c' info (lookup_erase_eq_some_iff.mp hc').2, h.quiet, h.listens,
      h.due⟩
  unfold examineChannel
  split
  · exact herase
  · next info hinfo =>
      split_ifs with hage
      · dsimp only
        split
        · exact herase
        · next id hgoes =>
            have hquiet : ∀ t, (c, t) ∈ s.handled → t + 240 < s.clock := by
              intro t ht
              have hlives := h.lives c info hinfo t ht
              simp only [channelInitialTtl] at hlives
              simp only [ChannelMonitor.channelTtlGracePeriod] at hage
              linarith
            have hlistens : (s.framework id).map s.channelName = some c := by
              unfold State.goesWith at hgoes
              split at hgoes
              · split_ifs at hgoes with hname
                cases hgoes
                exact hname
              · cases hgoes
            refine ⟨⟨h.fresh, h.ids⟩, herase.past, herase.lives, fun g' x hx => ?_,
              fun g' x hx o ho => ?_, h.due⟩
            · rcases lookup_insert_eq_some_iff.mp hx with ⟨-, rfl⟩ | ⟨-, hold⟩
              · exact hquiet
              · exact h.quiet g' x hold
            · rcases lookup_insert_eq_some_iff.mp hx with ⟨-, rfl⟩ | ⟨-, hold⟩
              · have ho' : s.framework id = some o := ho
                rw [ho'] at hlistens
                exact Option.some.inj hlistens
              · exact h.listens g' x hold o ho
      · exact h

lemma expire : (expireFramework g l s).Leaves ExpirySound := by
  unfold expireFramework
  split
  · exact h
  · next x hx =>
      have hdue : ∀ y ∈ (s.framework x.id).toList.map (fun o =>
          ({ channel := x.channel, current := s.channelName o, time := s.clock
             handled := (s.handled.filter (·.1 = x.channel)).map (·.2) } : Expiry)), y.Due := by
        intro y hy
        obtain ⟨o, ho, rfl⟩ := mem_map.mp hy
        refine ⟨h.listens g x hx o (Option.mem_toList.mp ho), fun t ht => ?_⟩
        obtain ⟨⟨c, t'⟩, hmem, rfl⟩ := mem_map.mp ht
        obtain ⟨hmem, hc⟩ := mem_filter.mp hmem
        have hc' : c = x.channel := of_decide_eq_true hc
        exact h.quiet g x hx t' (hc' ▸ hmem)
      have hremoved := h.removes (.remove s.hub x.id)
      have hfinal := fun y hy => (mem_append.mp hy).elim (h.due y) (hdue y)
      dsimp only
      split_ifs <;>
        exact ⟨⟨hremoved.fresh, hremoved.ids⟩, h.past, h.lives, h.quiet, hremoved.listens, hfinal⟩

lemma settle (g : ℕ) : ExpirySound { s with expiring := s.expiring.erase g } := by
  have hlook : ∀ {k x}, (s.expiring.erase g).lookup k = some x → s.expiring.lookup k = some x :=
    fun hx => (lookup_erase_eq_some_iff.mp hx).2
  exact ⟨⟨h.fresh, h.ids⟩, h.past, h.lives, fun k x hx => h.quiet k x (hlook hx),
    fun k x hx => h.listens k x (hlook hx), h.due⟩

lemma tick (t : ℚ) : ExpirySound { s with clock := max s.clock t } :=
  ⟨⟨h.fresh, h.ids⟩, fun c t' ht => (h.past c t' ht).trans (le_max_left _ _), h.lives,
    fun g x hx t' ht => (h.quiet g x hx t' ht).trans_le (le_max_left _ _), h.listens, h.due⟩

lemma eff {a : Act} {wait : Bool} (ha : awaited a wait) {i : Outside}
    (hallow : Undisturbed a i g l s) : (eff a i g l s).Leaves ExpirySound := by
  cases a with
  | hub a =>
    have hne : a ≠ .register := by
      rintro rfl
      cases ha
    exact leaves_eff_hub (fun _ => h.removes) hne i g l
  | register => exact h.register fun x hx => (hallow x hx).1 rfl
  | begin =>
    simp only [Lifecycle.eff, beginOffers]
    split_ifs
    · trivial
    · split <;> exact h.of_eq rfl rfl rfl rfl rfl rfl rfl rfl
  | check => exact h.of_eq rfl rfl rfl rfl rfl rfl rfl rfl
  | quit =>
    simp only [Lifecycle.eff, quitOffers]
    split <;> exact h.of_eq rfl rfl rfl rfl rfl rfl rfl rfl
  | leave => exact h.of_eq rfl rfl rfl rfl rfl rfl rfl rfl
  | clear =>
    simp only [Lifecycle.eff, clearEvent]
    split <;> exact h.of_eq rfl rfl rfl rfl rfl rfl rfl rfl
  | rest => exact h.of_eq rfl rfl rfl rfl rfl rfl rfl rfl
  | expire => exact h.expire
  | settle => exact h.settle g
  | examine =>
    cases i with
    | channel c id => exact h.examine c
    | _ => exact h
  | heartbeat =>
    cases i with
    | heartbeat c id type =>
      exact h.heartbeat (fun x hx he => (hallow x hx).2 rfl (congrArg some he.symm)) id type
    | _ => exact h
  | watch =>
    cases i with
    | channel c id => exact h.watch c id
    | _ => exact h
  | tick =>
    cases i with
    | time t => exact h.tick t
    | _ => exact h
  | elect => cases i <;> exact h.of_eq rfl rfl rfl rfl rfl rfl rfl rfl

end ExpirySound

/-! ## Runs -/

abbrev expiryDiscipline : Discipline lang := .ofInv lang ExpirySound Undisturbed

theorem expiries_due (es : List Event)
    (hes : Machine.Guarded step (Greenlet.World.Allowed expiryDiscipline) start es) :
    ∀ x ∈ (Machine.run step start es).shared.expiries, x.Due := by
  have hsound : ExpirySound (Machine.run step start es).shared :=
    Greenlet.World.run_ofInv jobs_awaited (fun _ _ _ _ _ => awaited_of_block)
      (fun _ _ _ _ _ _ ha hinv hallow => hinv.eff ha hallow) .start hes
  exact hsound.due

def grownOld : List Event :=
  registers 0 "fw" "fw-1" ++
    .spawn 1 .heartbeat :: List.replicate 4 (goWith 1 (.heartbeat "fw-1" (some "fw") .framework)) ++
    .spawn 2 .clock :: List.replicate 4 (goWith 2 (.time 300))

def expires : List Event :=
  grownOld ++ .spawn 3 .monitor :: List.replicate 32 (goWith 3 (.channel "fw-1" none))

theorem expiries_due_old :
    Machine.Guarded step (Greenlet.World.Allowed expiryDiscipline) start expires ∧
      (∀ x ∈ (Machine.run step start expires).shared.expiries, x.Due) ∧
      (Machine.run step start expires).shared.expiries =
        [{ channel := "fw-1", current := "fw-1", time := 300, handled := [0, 0] }] := by
  have hallowed : Machine.Guarded step (Greenlet.World.Allowed expiryDiscipline) start expires := by
    decide +kernel
  exact ⟨hallowed, expiries_due _ hallowed, by decide +kernel⟩

def expiresDuringRegistration : List Event :=
  grownOld ++ .spawn 4 (.native .launchTasks "fw" "") :: goes 4 12 ++
    .spawn 3 .monitor :: List.replicate 15 (goWith 3 (.channel "fw-1" none)) ++
    .spawn 5 (.native .reregisterFramework "fw" "fw-2") :: goes 5 8 ++ goes 4 5 ++ goes 3 10

theorem expires_registered :
    ∃ x ∈ (Machine.run step start expiresDuringRegistration).shared.expiries,
      x.channel = "fw-1" ∧ x.current = "fw-2" ∧ ¬ x.Due := by
  have hlast : (Machine.run step start expiresDuringRegistration).shared.expiries =
      [{ channel := "fw-1", current := "fw-2", time := 300, handled := [0, 0] }] := by
    decide +kernel
  rw [hlast]
  decide

end Lifecycle

end Urb
