/-
# `Urb.Lifecycle` — registration, offer loops and the expiry of channels

The greenlets of `Urb.Greenlets`, for native frameworks, with the parts of the
state that decide how long a framework lives and who makes its offers:

    the framework       its id, `channel_name` and `offer_event`
    the offer loops     `__generate_offers`; a loop takes the event of its framework once,
                        and asks the tracker for the framework in every round
    the channels        a time to live, renewed by registrations and heartbeats
    the monitor         removes the framework of a channel that has expired, if it
                        listens on that channel

All other requests are those of `Urb.Greenlets`, lifted to this state.

NOTE on channels: a registration puts the channel under monitoring WITHOUT an
`endpoint_type`.  Only a heartbeat of the framework gives it one, and without it
the expiry of the channel leaves the framework alone.
-/
import Urb.BackgroundLoops
import Urb.Greenlets

namespace Urb

open Greenlet (Exit Code Result Lang Jobs)

namespace Lifecycle

/-! ## What is shared -/

inductive EndpointType where
  | framework
  | executor
  | executorRunner
  deriving Repr, DecidableEq

/-- `channel_info`. -/
structure ChannelInfo where
  frameworkId : Option String := none
  endpointType : Option EndpointType := none
  timeToLive : ℚ
  deriving Repr, DecidableEq

inductive Phase where
  | idle
  | pausing
  | offering
  deriving Repr, DecidableEq

structure OfferLoop where
  id : String
  event : Option ℕ
  phase : Phase := .idle
  framework : Option ℕ := none
  deriving Repr, DecidableEq

structure Expiring where
  channel : String
  id : String
  deriving Repr, DecidableEq

structure Expiry where
  channel : String
  current : String
  time : ℚ
  handled : List ℚ
  deriving Repr, DecidableEq

structure State where
  hub : Shared := {}
  clock : ℚ := 0
  master : Bool := true
  frameworkId : ℕ → String := fun _ => ""
  channelName : ℕ → String := fun _ => ""
  offerEvent : ℕ → Option ℕ := fun _ => none
  nextEvent : ℕ := 0
  spawned : String → ℕ := fun _ => 0
  loops : Dict ℕ OfferLoop := ∅
  channels : Dict String ChannelInfo := ∅
  expiring : Dict ℕ Expiring := ∅
  handled : List (String × ℚ) := []
  expiries : List Expiry := []

structure Local where
  hub : Urb.Local := {}
  channel : String := ""
  expires : Bool := false
  deriving Repr, DecidableEq

def State.framework (s : State) (id : String) : Option ℕ := s.hub.tracker.get id

def State.wakes (s : State) (id : String) : Option ℕ := (s.framework id).bind s.offerEvent

/-! ## Actions -/

inductive Act where
  | hub (a : Urb.Act)
  | register
  | begin
  | check
  | quit
  | leave
  | clear
  | rest
  | heartbeat
  | watch
  | examine
  | expire
  | settle
  | tick
  | elect
  deriving Repr, DecidableEq

/-- What an action takes from outside. -/
inductive Outside where
  | hub (i : Urb.Outside)
  | heartbeat (channel : String) (frameworkId : Option String) (endpointType : EndpointType)
  | channel (channel : String) (frameworkId : Option String)
  | time (t : ℚ)
  | master (b : Bool)
  deriving Repr, DecidableEq

inductive Test where
  | hub (t : Urb.Test)
  | isMaster
  | expires
  deriving Repr, DecidableEq

def channelInitialTtl : ℚ := 60

def startChannelMonitoring (channel : String) (frameworkId : Option String) (s : State) : State :=
  { s with channels := s.channels.insert channel
            { frameworkId := frameworkId, timeToLive := s.clock + channelInitialTtl } }

def registerFramework (l : Local) (s : State) : Local × State :=
  let known := s.framework l.hub.id
  let o := known.getD s.hub.nextFramework
  let event := known.bind s.offerEvent
  let r := Urb.registerFramework l.hub s.hub
  let s := startChannelMonitoring l.channel (some l.hub.id) s
  ({ l with hub := r.1 },
    { s with
      hub := r.2
      frameworkId := Function.update s.frameworkId o l.hub.id
      channelName := Function.update s.channelName o l.channel
      offerEvent := Function.update s.offerEvent o (some (event.getD s.nextEvent))
      nextEvent := if event = none then s.nextEvent + 1 else s.nextEvent
      spawned :=
        if event = none then Function.update s.spawned l.hub.id (s.spawned l.hub.id + 1) else s.spawned
      handled := (l.channel, s.clock) :: s.handled })

def beginOffers (g : ℕ) (l : Local) (s : State) : Result Local State :=
  if s.spawned l.hub.id = 0 then .block
  else
    let s := { s with spawned := Function.update s.spawned l.hub.id (s.spawned l.hub.id - 1) }
    match s.framework l.hub.id with
    | none => .raise l s
    | some o => .ok l { s with loops := s.loops.insert g { id := l.hub.id, event := s.offerEvent o } }

def checkFramework (g : ℕ) (l : Local) (s : State) : Local × State :=
  let framework := (s.loops.lookup g).bind (fun L => s.framework L.id)
  ({ l with hub := { l.hub with framework := framework } },
    { s with loops := s.loops.modify g (fun L =>
        { L with framework := framework
                 phase := if framework.isSome then .pausing else .idle }) })

def quitOffers (g : ℕ) (s : State) : State :=
  match (s.loops.lookup g).bind (·.framework) with
  | none => { s with loops := s.loops.erase g }
  | some o =>
    { s with offerEvent := Function.update s.offerEvent o none, loops := s.loops.erase g }

def clearEvent (g : ℕ) (l : Local) (s : State) : Result Local State :=
  match (s.loops.lookup g).bind (·.event) with
  | none => .raise l s
  | some _ => .ok l { s with loops := s.loops.modify g (fun L => { L with phase := .offering }) }

def handleHeartbeat (channel : String) (frameworkId : Option String) (endpointType : EndpointType)
    (s : State) : State :=
  { s with
    channels := s.channels.insert channel
      { frameworkId := frameworkId, endpointType := some endpointType
        timeToLive := s.clock + channelInitialTtl }
    handled := (channel, s.clock) :: s.handled }

def State.goesWith (s : State) (channel : String) (info : ChannelInfo) : Option String :=
  match info.frameworkId, info.endpointType with
  | some id, some .framework =>
    if (s.framework id).map s.channelName = some channel then some id else none
  | _, _ => none

def examineChannel (g : ℕ) (channel : String) (l : Local) (s : State) : Local × State :=
  match s.channels.lookup channel with
  | none => ({ l with expires := false }, { s with channels := s.channels.erase channel })
  | some info =>
    if s.clock > info.timeToLive + ChannelMonitor.channelTtlGracePeriod then
      let s := { s with channels := s.channels.erase channel }
      match s.goesWith channel info with
      | none => ({ l with expires := false }, s)
      | some id =>
        ({ l with hub := { l.hub with id := id }, expires := true },
          { s with expiring := s.expiring.insert g { channel := channel, id := id } })
    else ({ l with expires := false }, s)

def expireFramework (g : ℕ) (l : Local) (s : State) : Result Local State :=
  match s.expiring.lookup g with
  | none => .ok l s
  | some x =>
    let expiries := (s.framework x.id).toList.map (fun o =>
      { channel := x.channel, current := s.channelName o, time := s.clock
        handled := (s.handled.filter (·.1 = x.channel)).map (·.2) })
    let r := FrameworkTracker.remove x.id s.hub.tracker
    let s := { s with hub := { s.hub with tracker := r.1 }, expiries := s.expiries ++ expiries }
    if r.2 = .raise then .raise l s else .ok l s

def liftResult (l : Local) (s : State) : Result Urb.Local Shared → Result Local State
  | .ok l' h => .ok { l with hub := l' } { s with hub := h }
  | .raise l' h => .raise { l with hub := l' } { s with hub := h }
  | .block => .block

def Outside.toHub : Outside → Urb.Outside
  | .hub i => i
  | _ => .nothing

def eff (a : Act) (i : Outside) (g : ℕ) (l : Local) (s : State) : Result Local State :=
  match a with
  | .hub a => liftResult l s (Urb.eff a i.toHub g l.hub s.hub)
  | .register => let r := registerFramework l s; .ok r.1 r.2
  | .begin => beginOffers g l s
  | .check => let r := checkFramework g l s; .ok r.1 r.2
  | .quit => .ok l (quitOffers g s)
  | .leave => .ok l { s with loops := s.loops.erase g }
  | .clear => clearEvent g l s
  | .rest =>
    .ok l { s with loops := s.loops.modify g (fun L => { L with phase := .idle, framework := none }) }
  | .heartbeat =>
    match i with
    | .heartbeat channel id type => .ok l (handleHeartbeat channel id type s)
    | _ => .ok l s
  | .watch =>
    match i with
    | .channel channel id => .ok l (startChannelMonitoring channel id s)
    | _ => .ok l s
  | .examine =>
    match i with
    | .channel channel _ => let r := examineChannel g channel l s; .ok r.1 r.2
    | _ => .ok l s
  | .expire => expireFramework g l s
  | .settle => .ok l { s with expiring := s.expiring.erase g }
  | .tick =>
    match i with
    | .time t => .ok l { s with clock := max s.clock t }
    | _ => .ok l s
  | .elect =>
    match i with
    | .master b => .ok l { s with master := b }
    | _ => .ok l s

def testLocal (t : Test) (l : Local) (s : State) : Bool :=
  match t with
  | .hub t => Urb.testLocal t l.hub s.hub
  | .isMaster => s.master
  | .expires => l.expires

def lang : Lang Act Test Switch Outside Local State where
  eff := eff
  test := testLocal
  exits := Switch.exits

/-! ## Code -/

abbrev Prog := Code Act Test Switch

open Greenlet.Code Function Shared

def lift (p : Hub.Prog) : Prog := p.map .hub .hub

def handleRegistration : Prog :=
  seq (tryExcept
      (seq (switch .io) (seq (act .register)
        (seq (switch .io) (seq (await (.hub .acquire)) (lift (Hub.work .io)))))) skip)
    (seq (switch .response) (tryExcept (seq (switch .db) (act (.hub .postprocess))) skip))

def offerRound : Prog :=
  seq (act .check)
    (ite (.hub .hasFramework)
      (seq (choose skip (switch .wait))
        (seq (ite .isMaster skip (seq (act .quit) (exit .brk)))
          (seq (act .clear)
            (seq (await (.hub .acquire))
              (seq (switch .unprotected)
                (seq (tryFinally (tryExcept (lift (Hub.work .inTry)) skip) (act (.hub .release)))
                  (seq (act .rest) (switch .wait))))))))
      (seq (switch .db) (seq (act .leave) (exit .brk))))

def generateOffers : Prog := seq (await .begin) (loop (tryExcept offerRound skip))

def deleteExpired : Prog :=
  seq (act (.hub .get))
    (ite (.hub .hasFramework)
      (seq (await (.hub .acquire))
        (tryFinally (seq (lift (Hub.work .inTry)) (act .expire)) (act (.hub .release))))
      skip)

def monitor : Prog :=
  loop (seq (choose skip (exit .brk))
    (seq (act .examine)
      (ite .expires
        (seq (tryExcept deleteExpired skip) (act .settle))
        (seq (tryExcept (switch .io) skip) (choose skip (switch .wait))))))

inductive Job where
  | native (t : Hub.Target) (id channel : String)
  | teardown (id : String)
  | deleteJob (id : String)
  | generateOffers (id : String)
  | heartbeat
  | watch
  | monitor
  | clock
  | election
  deriving Repr, DecidableEq

def jobs : Jobs Job Act Test Switch Local where
  code
    | .native .registerFramework _ _ | .native .reregisterFramework _ _ => handleRegistration
    | .native t _ _ => lift (Hub.handle t)
    | .teardown _ => lift (Hub.httpRequest .teardown)
    | .deleteJob _ => lift Hub.deleteJob
    | .generateOffers _ => generateOffers
    | .heartbeat => seq (switch .io) (act .heartbeat)
    | .watch => act .watch
    | .monitor => monitor
    | .clock => loop (seq (act .tick) (switch .wait))
    | .election => loop (seq (act .elect) (switch .wait))
  init
    | .native _ id channel => { hub := { id := id, origin := .native }, channel := channel }
    | .teardown id => { hub := { id := id, origin := .http } }
    | .deleteJob id | .generateOffers id => { hub := { id := id } }
    | .heartbeat | .watch | .monitor | .clock | .election => {}

abbrev World := Greenlet.World Act Test Switch Local State

abbrev Event := Greenlet.Event Job Outside

def step : World → Event → World := Greenlet.World.step lang jobs

def start : World := .idle {} {}

def go (g : ℕ) : Event := .step g { arg := .hub .nothing }

def goes (g n : ℕ) : List Event := List.replicate n (go g)

def goWith (g : ℕ) (i : Outside) : Event := .step g { arg := i }

def other (g : ℕ) : Event := .step g { arg := .hub .nothing, left := false }

def registers (g : ℕ) (id channel : String) : List Event :=
  .spawn g (.native .registerFramework id channel) :: goes g 20

/-! ## Who is registered -/

structure Removes (s s' : Shared) : Prop where
  nextFramework : s'.nextFramework = s.nextFramework
  get : ∀ id, s'.tracker.get id = s.tracker.get id ∨ s'.tracker.get id = none

lemma Removes.of_eq {s s' : Shared} (hnext : s'.nextFramework = s.nextFramework)
    (htracker : s'.tracker = s.tracker) : Removes s s' :=
  ⟨hnext, fun _ => .inl (by rw [htracker])⟩

lemma Removes.get_some {s s' : Shared} (h : Removes s s') {id : String} {o : ℕ}
    (ho : s'.tracker.get id = some o) : s.tracker.get id = some o := by
  rcases h.get id with he | he
  · exact he.symm.trans ho
  · rw [he] at ho
    cases ho

lemma Removes.remove (s : Shared) (id : String) :
    Removes s { s with tracker := (FrameworkTracker.remove id s.tracker).1 } := by
  refine ⟨rfl, fun k => ?_⟩
  rw [FrameworkTracker.get_remove]
  split_ifs
  · exact .inr rfl
  · exact .inl rfl

lemma removes_release (g : ℕ) (framework : Option ℕ) (s : Shared) :
    Removes s (releaseFramework g framework s).1 :=
  .of_eq (releaseFramework_frame (f := nextFramework) (fun _ _ _ => rfl) g framework s)
    (releaseFramework_frame (f := tracker) (fun _ _ _ => rfl) g framework s)

lemma leaves_hub {a : Urb.Act} (ha : a ≠ .register) (i : Urb.Outside) (g : ℕ) (l : Urb.Local)
    (s : Shared) : (Urb.eff a i g l s).Leaves (Removes s) := by
  have hsame : Removes s s := .of_eq rfl rfl
  cases a with
  | get => exact hsame
  | storeAndGet => exact hsame
  | getAny => exact hsame
  | register => exact absurd rfl ha
  | remove => exact leaves_ofEnding (.remove s l.id)
  | acquire =>
    simp only [Urb.eff]
    split
    · exact hsame
    · split
      · next hlock =>
          exact .of_eq (acquireLock_frame (f := nextFramework) (fun _ _ => rfl) hlock)
            (acquireLock_frame (f := tracker) (fun _ _ => rfl) hlock)
      · trivial
  | release => exact leaves_ofEnding (removes_release g l.framework s)
  | postprocess =>
    refine leaves_ofEnding ?_
    have hflush : (s.flush g).nextFramework = s.nextFramework ∧ (s.flush g).tracker = s.tracker :=
      ⟨flush_frame (f := nextFramework) (fun _ _ _ _ => rfl) g s,
        flush_frame (f := tracker) (fun _ _ _ _ => rfl) g s⟩
    have hrelease := removes_release g (postFramework l s) (s.flush g)
    refine ⟨hrelease.nextFramework.trans hflush.1, fun id => ?_⟩
    rw [← hflush.2]
    exact hrelease.get id
  | edit =>
    exact .of_eq (editRecords_frame (f := nextFramework) (fun _ _ _ _ => rfl) g l.framework s i)
      (editRecords_frame (f := tracker) (fun _ _ _ _ => rfl) g l.framework s i)
  | notify =>
    exact .of_eq (notifyFramework_frame (f := nextFramework) (fun _ _ => rfl) l.framework s i)
      (notifyFramework_frame (f := tracker) (fun _ _ => rfl) l.framework s i)
  | renew =>
    simp only [Urb.eff]
    split <;> exact .of_eq rfl rfl
  | read =>
    simp only [Urb.eff]
    split <;> exact .of_eq rfl rfl

lemma framework_congr {s s' : State} (h : s'.hub = s.hub) : s'.framework = s.framework := by
  funext id
  unfold State.framework
  rw [h]

lemma leaves_eff_hub {P : State → Prop} {s : State}
    (h : ∀ hub, Removes s.hub hub → P { s with hub := hub }) {a : Urb.Act}
    (ha : a ≠ .register) (i : Outside) (g : ℕ) (l : Local) :
    (eff (.hub a) i g l s).Leaves P := by
  have hhub := leaves_hub ha i.toHub g l.hub s.hub
  simp only [eff]
  generalize Urb.eff a i.toHub g l.hub s.hub = r at hhub
  cases r with
  | ok l' s' => exact h s' hhub
  | raise l' s' => exact h s' hhub
  | block => trivial

structure Registered (s : State) : Prop where
  fresh : ∀ id o, s.framework id = some o → o < s.hub.nextFramework
  ids : ∀ id o, s.framework id = some o → s.frameworkId o = id

def registered (l : Local) (s : State) : ℕ := (s.framework l.hub.id).getD s.hub.nextFramework

lemma framework_registerFramework (l : Local) (s : State) (k : String) :
    (registerFramework l s).2.framework k =
      if k = l.hub.id then some (registered l s) else s.framework k :=
  AList.lookup_insert_eq_ite _ _ _ _

lemma nextFramework_registerFramework (l : Local) (s : State) :
    (registerFramework l s).2.hub.nextFramework =
      if s.framework l.hub.id = none then s.hub.nextFramework + 1 else s.hub.nextFramework := rfl

lemma framework_of_registered {l : Local} {s : State} {o : ℕ} (ho : o < s.hub.nextFramework)
    (he : o = registered l s) : s.framework l.hub.id = some o := by
  unfold registered at he
  cases hknown : s.framework l.hub.id with
  | none =>
    rw [hknown] at he
    exact absurd he ho.ne
  | some o' => rw [he, hknown, getD_some]

namespace Registered

variable {s : State} {l : Local}

lemma start : Registered {} :=
  ⟨fun _ _ ho => absurd ho (not_mem_none _), fun _ _ ho => absurd ho (not_mem_none _)⟩

lemma of_eq (h : Registered s) {s' : State} (hhub : s'.hub = s.hub)
    (hid : s'.frameworkId = s.frameworkId) : Registered s' := by
  refine ⟨fun id o ho => ?_, fun id o ho => ?_⟩
  · rw [hhub]
    exact h.fresh id o (by rwa [← framework_congr hhub])
  · rw [hid]
    exact h.ids id o (by rwa [← framework_congr hhub])

lemma ne_registered (h : Registered s) {k : String} {o : ℕ} (ho : s.framework k = some o)
    (hk : k ≠ l.hub.id) : o ≠ registered l s := by
  intro he
  have hid := h.ids _ _ (framework_of_registered (h.fresh k o ho) he)
  exact hk ((h.ids k o ho).symm.trans hid)

lemma le_nextFramework (l : Local) (s : State) :
    s.hub.nextFramework ≤ (registerFramework l s).2.hub.nextFramework := by
  rw [nextFramework_registerFramework]
  split_ifs
  · exact Nat.le_succ _
  · exact le_rfl

lemma frameworkId_registerFramework (h : Registered s) {o : ℕ} (ho : o < s.hub.nextFramework) :
    (registerFramework l s).2.frameworkId o = s.frameworkId o := by
  show update s.frameworkId (registered l s) l.hub.id o = _
  by_cases he : o = registered l s
  · rw [← he, update_self]
    exact (h.ids _ _ (framework_of_registered ho he)).symm
  · rw [update_of_ne he]

lemma registerFramework (h : Registered s) : Registered (registerFramework l s).2 := by
  have hself : registered l s < (Lifecycle.registerFramework l s).2.hub.nextFramework := by
    rw [nextFramework_registerFramework, registered]
    cases hknown : s.framework l.hub.id with
    | none => simp
    | some o => simpa using h.fresh _ _ hknown
  constructor
  · intro k o ho
    rw [framework_registerFramework] at ho
    split_ifs at ho
    · cases ho
      exact hself
    · exact (h.fresh k o ho).trans_le (le_nextFramework l s)
  · intro k o ho
    rw [framework_registerFramework] at ho
    split_ifs at ho with hk
    · cases ho
      rw [hk]
      exact update_self ..
    · rw [h.frameworkId_registerFramework (h.fresh k o ho)]
      exact h.ids k o ho

lemma removes (h : Registered s) {hub : Shared} (hr : Removes s.hub hub) :
    Registered { s with hub := hub } := by
  refine ⟨fun id o ho => ?_, fun id o ho => h.ids id o (hr.get_some ho)⟩
  rw [hr.nextFramework]
  exact h.fresh id o (hr.get_some ho)

end Registered

def awaited : Act → Bool → Bool
  | .hub .register, _ => false
  | .hub .acquire, wait | .begin, wait => wait
  | _, _ => true

lemma jobs_awaited (j : Job) : (jobs.code j).all awaited := by
  cases j with
  | native t id channel => cases t <;> rfl
  | _ => rfl

lemma awaited_of_block {a : Act} {i : Outside} {g : ℕ} {l : Local} {s : State}
    (h : eff a i g l s = .block) : awaited a false = false := by
  have hlift : ∀ r : Result Urb.Local Shared, liftResult l s r = .block → r = .block := by
    rintro (_ | _ | _) hr <;> first | rfl | cases hr
  cases a with
  | hub a =>
    rw [acquire_of_block (hlift _ h)]
    rfl
  | begin => rfl
  | clear =>
    simp only [eff, clearEvent] at h
    split at h <;> cases h
  | expire =>
    simp only [eff, expireFramework] at h
    split at h
    · cases h
    · split_ifs at h
  | heartbeat => cases i <;> cases h
  | watch => cases i <;> cases h
  | examine => cases i <;> cases h
  | tick => cases i <;> cases h
  | elect => cases i <;> cases h
  | _ => cases h

end Lifecycle

end Urb
