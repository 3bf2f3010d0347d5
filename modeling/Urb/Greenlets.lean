/-
# `Urb.Greenlets` — requests, loops and callbacks as greenlets

The service runs every native message, every HTTP request, the offer loop of every
framework, every event stream and every callback of the monitors in a greenlet of
its own.  Here the handlers are reduced to what the greenlets share:

    the tracker         which framework object an id stands for
    the lock            one RLock for each framework, beside it the flag
                        `lock_acquired`, which `__release_framework_lock` goes by
    the deletions       ONE list for all frameworks, worked off by the
                        post-processor of any native request
    the event cell      the AsyncResult `offer_event` of a framework that has
                        subscribed over HTTP

What a handler does besides is `work`: any number of writes and waits, in any order.
A framework object is a number, so that a framework that registers again after its
removal is another object with a lock of its own.
-/
import Urb.Basis.Greenlet
import Urb.Tracker

namespace Urb

open Greenlet (Exit Code Result Lang Jobs)

/-! ## What is shared -/

/-- The lock of a framework and its flag. -/
structure FrameworkLock where
  owner : Option ℕ := none
  count : ℕ := 0
  acquired : Bool := false
  deriving Repr, DecidableEq

structure Deletion where
  queuer : ℕ
  framework : Option ℕ
  dict : ℕ
  key : String
  record : Option ℕ
  deriving Repr, DecidableEq

structure Removal where
  deletion : Deletion
  flusher : ℕ
  locked : Bool
  removed : Option ℕ
  deriving Repr, DecidableEq

/-- What is sent to a framework over HTTP. -/
inductive HttpEvent where
  | update (status : String)
  | message (data : String)
  | rescind (offerId : String)
  deriving Repr, DecidableEq

structure EventCell where
  value : Option HttpEvent := none
  listening : Bool := false
  produced : List HttpEvent := []
  yielded : List HttpEvent := []
  deriving Repr, DecidableEq

structure Shared where
  tracker : FrameworkTracker ℕ := {}
  nextFramework : ℕ := 0
  http : ℕ → Bool := fun _ => false
  lock : ℕ → FrameworkLock := fun _ => {}
  faults : List (ℕ × ℕ) := []
  records : ℕ → Dict String ℕ := fun _ => ∅
  nextRecord : ℕ := 0
  deleteElements : List Deletion := []
  removals : List Removal := []
  cell : ℕ → EventCell := fun _ => {}

inductive Origin where
  | native
  | http
  | service
  deriving Repr, DecidableEq

structure Local where
  id : String := ""
  origin : Origin := .service
  stored : Bool := false
  framework : Option ℕ := none
  held : Bool := false
  data : Option HttpEvent := none
  deriving Repr, DecidableEq

/-! ## Actions -/

inductive Act where
  | get
  | storeAndGet
  | getAny
  | register
  | remove
  | acquire
  | release
  | postprocess
  | edit
  | notify
  | renew
  | read
  deriving Repr, DecidableEq

inductive Outside where
  | nothing
  | put (dict : ℕ) (key : String)
  | delete (dict : ℕ) (key : String)
  | set (event : HttpEvent)
  | wake
  deriving Repr, DecidableEq

inductive Test where
  | hasFramework
  | isHttp
  | isHeld
  | hasData
  deriving Repr, DecidableEq

inductive Switch where
  | io
  | httpWork
  | inTry
  | unprotected
  | response
  | db
  | wait
  | heartbeat
  | offers
  | data
  deriving Repr, DecidableEq

def Switch.exits : Switch → Exit → Bool
  | .io, .raise | .httpWork, .raise | .inTry, .raise | .unprotected, .raise | .db, .raise => true
  | .heartbeat, .close | .offers, .close | .data, .close => true
  | _, _ => false

lemma Switch.exits_brk (k : Switch) : k.exits .brk = false := by
  cases k <;> rfl

namespace Shared

def acquireLock (g o : ℕ) (s : Shared) : Option Shared :=
  if (s.lock o).owner = none ∨ (s.lock o).owner = some g then
    some { s with lock := Function.update s.lock o
                    { owner := some g, count := (s.lock o).count + 1, acquired := true } }
  else none

def releaseLock (g o : ℕ) (s : Shared) : Shared × Ending :=
  if !(s.lock o).acquired then (s, .next)
  else if (s.lock o).owner = some g then
    let count := (s.lock o).count - 1
    ({ s with lock := Function.update s.lock o
                { owner := if count = 0 then none else some g, count := count, acquired := false } },
      .next)
  else
    ({ s with lock := Function.update s.lock o { s.lock o with acquired := false }
              faults := s.faults ++ [(g, o)] }, .raise)

def flushOne (g : ℕ) (s : Shared) (d : Deletion) : Shared :=
  { s with
    records := Function.update s.records d.dict ((s.records d.dict).erase d.key)
    removals := s.removals ++
      [{ deletion := d
         flusher := g
         locked := d.framework.any (fun o => (s.lock o).owner = some g)
         removed := (s.records d.dict).lookup d.key }] }

def flush (g : ℕ) (s : Shared) : Shared :=
  { s.deleteElements.foldl (flushOne g) s with deleteElements := [] }

def modifyCell (o : ℕ) (f : EventCell → EventCell) (s : Shared) : Shared :=
  { s with cell := Function.update s.cell o (f (s.cell o)) }

end Shared

namespace EventCell

def set (e : HttpEvent) (c : EventCell) : EventCell :=
  { c with value := some e, produced := c.produced ++ [e] }

def wake (c : EventCell) : EventCell := { c with value := none }

def renew (c : EventCell) : EventCell := { c with value := none, listening := true }

def read (c : EventCell) : EventCell :=
  { c with listening := false, yielded := c.yielded ++ c.value.toList }

end EventCell

def ofEnding (l : Local) : Shared × Ending → Result Local Shared
  | (s, .raise) => .raise l s
  | (s, _) => .ok l s

def registerFramework (l : Local) (s : Shared) : Local × Shared :=
  let known := s.tracker.get l.id
  let o := known.getD s.nextFramework
  ({ l with framework := some o, stored := decide (l.origin = .native) },
    { s with tracker := s.tracker.add l.id o
             nextFramework := if known = none then s.nextFramework + 1 else s.nextFramework
             http := Function.update s.http o (decide (l.origin = .http)) })

def postFramework (l : Local) (s : Shared) : Option ℕ :=
  if l.stored then s.tracker.getActiveOrFinished l.id else none

def releaseFramework (g : ℕ) (framework : Option ℕ) (s : Shared) : Shared × Ending :=
  match framework with
  | none => (s, .next)
  | some o => s.releaseLock g o

def editRecords (g : ℕ) (framework : Option ℕ) (s : Shared) : Outside → Shared
  | .put dict key =>
    { s with records := Function.update s.records dict ((s.records dict).insert key s.nextRecord)
             nextRecord := s.nextRecord + 1 }
  | .delete dict key =>
    { s with deleteElements := s.deleteElements ++
              [{ queuer := g, framework := framework, dict := dict, key := key
                 record := (s.records dict).lookup key }] }
  | _ => s

def notifyFramework (framework : Option ℕ) (s : Shared) : Outside → Shared
  | .set e => match framework with
      | some o => if s.http o then s.modifyCell o (.set e) else s
      | none => s
  | .wake => match framework with
      | some o => if s.http o then s.modifyCell o .wake else s
      | none => s
  | _ => s

def eff (a : Act) (i : Outside) (g : ℕ) (l : Local) (s : Shared) : Result Local Shared :=
  match a with
  | .get => .ok { l with framework := s.tracker.get l.id } s
  | .storeAndGet =>
    .ok { l with framework := s.tracker.get l.id, stored := decide (l.origin = .native) } s
  | .getAny => .ok { l with framework := s.tracker.getActiveOrFinished l.id } s
  | .register => let r := registerFramework l s; .ok r.1 r.2
  | .remove =>
    ofEnding l ({ s with tracker := (FrameworkTracker.remove l.id s.tracker).1 },
      (FrameworkTracker.remove l.id s.tracker).2)
  | .acquire =>
    match l.framework with
    | none => .ok l s
    | some o =>
      match s.acquireLock g o with
      | some s' => .ok { l with held := true } s'
      | none => .block
  | .release => ofEnding { l with held := false } (releaseFramework g l.framework s)
  | .postprocess =>
    ofEnding { l with held := false } (releaseFramework g (postFramework l s) (s.flush g))
  | .edit => .ok l (editRecords g l.framework s i)
  | .notify => .ok l (notifyFramework l.framework s i)
  | .renew =>
    match l.framework with
    | none => .ok l s
    | some o => .ok l (s.modifyCell o .renew)
  | .read =>
    match l.framework with
    | none => .ok { l with data := none } s
    | some o => .ok { l with data := (s.cell o).value } (s.modifyCell o .read)

/-! What does not depend on the parts that an action writes stays. -/

lemma editRecords_frame {β : Type} {f : Shared → β}
    (h : ∀ records n queue s, f { s with records := records, nextRecord := n, deleteElements := queue } = f s)
    (g : ℕ) (framework : Option ℕ) (s : Shared) (i : Outside) : f (editRecords g framework s i) = f s := by
  cases i with
  | put dict key => exact h _ _ _ s
  | delete dict key => exact h _ _ _ s
  | _ => rfl

lemma notifyFramework_frame {β : Type} {f : Shared → β}
    (h : ∀ cell s, f { s with cell := cell } = f s) (framework : Option ℕ) (s : Shared) (i : Outside) :
    f (notifyFramework framework s i) = f s := by
  unfold notifyFramework
  split
  · split
    · split_ifs
      · exact h _ s
      · rfl
    · rfl
  · split
    · split_ifs
      · exact h _ s
      · rfl
    · rfl
  · rfl

lemma flush_frame {β : Type} {f : Shared → β} (h : ∀ records removals queue s,
      f { s with records := records, removals := removals, deleteElements := queue } = f s)
    (g : ℕ) (s : Shared) : f (s.flush g) = f s := by
  have hfold : ∀ (ds : List Deletion) (s : Shared), f (ds.foldl (Shared.flushOne g) s) = f s := by
    intro ds
    induction ds with
    | nil => exact fun _ => rfl
    | cons d ds ih => exact fun s => (ih _).trans (h _ _ _ s)
  exact (h _ _ _ _).trans (hfold _ s)

lemma acquireLock_frame {β : Type} {f : Shared → β} (h : ∀ lock s, f { s with lock := lock } = f s)
    {g o : ℕ} {s s' : Shared} (hs : s.acquireLock g o = some s') : f s' = f s := by
  simp only [Shared.acquireLock] at hs
  split_ifs at hs
  cases hs
  exact h _ s

lemma releaseFramework_frame {β : Type} {f : Shared → β}
    (h : ∀ lock faults s, f { s with lock := lock, faults := faults } = f s) (g : ℕ)
    (framework : Option ℕ) (s : Shared) : f (releaseFramework g framework s).1 = f s := by
  cases framework with
  | none => rfl
  | some o =>
    simp only [releaseFramework]
    unfold Shared.releaseLock
    split
    · rfl
    · split <;> exact h _ _ s

lemma leaves_ofEnding {P : Shared → Prop} {l : Local} {r : Shared × Ending} (h : P r.1) :
    (ofEnding l r).Leaves P := by
  obtain ⟨s, flow⟩ := r
  cases flow <;> exact h

lemma acquire_of_block {a : Act} {i : Outside} {g : ℕ} {l : Local} {s : Shared}
    (h : eff a i g l s = .block) : a = .acquire := by
  have hending : ∀ (l : Local) (r : Shared × Ending), ofEnding l r ≠ .block := by
    rintro l ⟨s, _ | _ | _⟩ <;> exact nofun
  cases a with
  | acquire => rfl
  | remove => exact absurd h (hending _ _)
  | release => exact absurd h (hending _ _)
  | postprocess => exact absurd h (hending _ _)
  | renew =>
    simp only [eff] at h
    split at h <;> cases h
  | read =>
    simp only [eff] at h
    split at h <;> cases h
  | _ => cases h

def testLocal (t : Test) (l : Local) (s : Shared) : Bool :=
  match t with
  | .hasFramework => l.framework.isSome
  | .isHttp => l.framework.any s.http
  | .isHeld => l.held
  | .hasData => l.data.isSome

def lang : Lang Act Test Switch Outside Local Shared where
  eff := eff
  test := testLocal
  exits := Switch.exits

/-! ## Code -/

namespace Hub

abbrev Prog := Code Act Test Switch

open Greenlet.Code

def work (k : Switch) : Prog :=
  loop (choose (exit .brk) (choose (act .edit) (choose (act .notify) (switch k))))

def lockingHandler (k : Switch) : Prog :=
  seq (act .storeAndGet)
    (ite .hasFramework (seq (await .acquire) (work k)) (switch .io))

def messageHandler (sent : Prog) (k : Switch) : Prog :=
  seq (act .storeAndGet)
    (ite .hasFramework
      (ite .isHttp (seq sent (switch .io)) (seq (await .acquire) (work k)))
      (switch .io))

def frameworkToExecutor (k : Switch) : Prog := messageHandler skip k

def executorToFramework (k : Switch) : Prog := messageHandler (act .notify) k

def registrationHandler : Prog :=
  seq (switch .io) (seq (act .register) (seq (switch .io) (seq (await .acquire) (work .io))))

def deleteFramework : Prog :=
  seq (act .get)
    (ite .hasFramework
      (seq (await .acquire) (tryFinally (seq (work .inTry) (act .remove)) (act .release)))
      skip)

/-- The targets of native messages. -/
inductive Target where
  | killTask
  | launchTasks
  | reconcileTasks
  | reviveOffers
  | statusUpdate
  | statusUpdateAcknowledgement
  | registerExecutor
  | reregisterExecutor
  | registerExecutorRunner
  | frameworkToExecutor
  | executorToFramework
  | registerFramework
  | reregisterFramework
  | unregisterFramework
  | withoutFramework
  deriving Repr, DecidableEq

def targetExecutor : Target → Prog
  | .killTask | .launchTasks | .reconcileTasks | .reviveOffers | .statusUpdate
  | .statusUpdateAcknowledgement | .registerExecutor | .reregisterExecutor
  | .registerExecutorRunner => lockingHandler .io
  | .frameworkToExecutor => frameworkToExecutor .io
  | .executorToFramework => executorToFramework .io
  | .registerFramework | .reregisterFramework => registrationHandler
  | .unregisterFramework => deleteFramework
  | .withoutFramework => switch .io

def handle (t : Target) : Prog :=
  seq (tryExcept (targetExecutor t) skip)
    (seq (switch .response) (tryExcept (seq (switch .db) (act .postprocess)) skip))

open Greenlet.Discipline (ends) in
lemma handle_triple {d : Greenlet.Discipline lang} {g : ℕ} {P R D : Local → Shared → Prop} {t : Target}
    (htarget : d.Triple g P (targetExecutor t) (ends R D R D)) (hst : d.Stable g R)
    (hdb : ∀ l s, d.allowExit .db .raise g l s → R l s → D l s)
    (hpost : d.Triple g R (act .postprocess) (ends D D D D)) : d.Triple g P (handle t) fun _ => D := by
  have hresponse : d.Triple g R (switch .response) (ends R D D D) :=
    .switch_ends hst rfl (fun _ _ h => h) (fun _ _ hx => by cases hx) fun _ _ hx => by cases hx
  have hswitch : d.Triple g R (switch .db) (ends R D D D) :=
    .switch_ends hst rfl (fun _ _ h => h) (fun l s _ hallow h => hdb l s hallow h) fun _ _ hx => by cases hx
  have hdone : d.Triple g R (tryExcept (seq (switch .db) (act .postprocess)) skip) (ends D D D D) :=
    .tryExcept (hswitch.seq hpost) (.skip fun _ _ _ h => h)
  have hcaught : d.Triple g P (tryExcept (targetExecutor t) skip) (ends R D D D) :=
    .tryExcept htarget (.skip fun _ _ _ h => h)
  exact (hcaught.seq (hresponse.seq hdone)).always fun _ _ h => h

def releaseReturned (handler : Prog) : Prog := seq handler (ite .isHeld (act .release) skip)

def httpLocking : Prog := releaseReturned (lockingHandler .httpWork)

inductive HttpCall where
  | kill
  | decline
  | acceptLaunch
  | reconcile
  | acknowledge
  | revive
  | message
  | subscribe
  | teardown
  | shutdown
  | subscribeExecutor
  | updateExecutor
  | messageExecutor
  deriving Repr, DecidableEq

def httpRequest : HttpCall → Prog
  | .kill | .decline | .acceptLaunch | .reconcile | .acknowledge => httpLocking
  | .revive => exit .raise
  | .message => releaseReturned (frameworkToExecutor .httpWork)
  | .subscribe => seq (switch .io) (act .register)
  | .teardown => seq deleteFramework (ite .hasFramework (act .release) skip)
  | .shutdown =>
    seq (act .get)
      (ite .hasFramework
        (seq (await .acquire) (tryFinally (tryExcept (work .inTry) skip) (act .release)))
        skip)
  | .subscribeExecutor =>
    seq (act .get)
      (ite .hasFramework (seq (lockingHandler .httpWork) (act .release)) skip)
  | .updateExecutor => seq httpLocking (switch .wait)
  | .messageExecutor =>
    seq (act .get)
      (ite .hasFramework (releaseReturned (executorToFramework .httpWork)) skip)

def offerRound : Prog :=
  seq (act .get)
    (ite .hasFramework
      (seq (choose skip (switch .wait))
        (seq (choose skip (exit .brk))
          (seq (await .acquire)
            (seq (switch .unprotected)
              (seq (tryFinally (tryExcept (work .inTry) skip) (act .release))
                (switch .wait))))))
      (exit .brk))

def generateOffers : Prog := loop (tryExcept offerRound skip)

def yieldData : Prog := seq (act .read) (ite .hasData (switch .data) skip)

def streamRound : Prog :=
  seq (act .get)
    (ite .hasFramework
      (seq (choose skip (exit .brk))
        (seq (act .renew)
          (seq (await .acquire)
            (seq (switch .unprotected)
              (seq (choose skip (switch .heartbeat))
                (seq (tryFinally (tryExcept (seq (work .inTry) (choose skip (switch .offers))) skip)
                    (act .release))
                  (seq (switch .wait) yieldData)))))))
      (exit .brk))

def httpGenerateOffers : Prog := loop (tryExcept streamRound skip)

def deleteJob : Prog :=
  seq (act .getAny)
    (ite .hasFramework
      (seq (await .acquire) (seq (work .unprotected) (tryFinally (work .inTry) (act .release))))
      skip)

inductive Job where
  | native (t : Target) (id : String)
  | http (c : HttpCall) (id : String)
  | generateOffers (id : String)
  | httpGenerateOffers (id : String)
  | deleteJob (id : String)
  | deleteChannel (id : String)
  deriving Repr, DecidableEq

def jobs : Jobs Job Act Test Switch Local where
  code
    | .native t _ => handle t
    | .http c _ => httpRequest c
    | .generateOffers _ => generateOffers
    | .httpGenerateOffers _ => httpGenerateOffers
    | .deleteJob _ => deleteJob
    | .deleteChannel _ => deleteFramework
  init
    | .native _ id => { id := id, origin := .native }
    | .http _ id => { id := id, origin := .http }
    | .generateOffers id | .httpGenerateOffers id | .deleteJob id | .deleteChannel id => { id := id }

abbrev World := Greenlet.World Act Test Switch Local Shared

abbrev Event := Greenlet.Event Job Outside

def step : World → Event → World := Greenlet.World.step lang jobs

def start : World := .idle {} {}

def go (g : ℕ) : Event := .step g { arg := .nothing }

def goes (g n : ℕ) : List Event := List.replicate n (go g)

def other (g : ℕ) : Event := .step g { arg := .nothing, left := false }

def edits (g : ℕ) (i : Outside) : List Event := [go g, other g, go g, .step g { arg := i }]

def notifies (g : ℕ) (i : Outside) : List Event := [go g, other g, other g, go g, .step g { arg := i }]

def close (g : ℕ) : Event := .step g { arg := .nothing, exit := some .close }

end Hub

end Urb
