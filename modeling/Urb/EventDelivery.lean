/-
# `Urb.EventDelivery` — what reaches a framework that has subscribed over HTTP

Events pass through one AsyncResult, which keeps the last value set:

    renew ---- acquire ---- heartbeat, offers ---- wait ---- read ---- [yield data]
      |<------------------ listening ------------------------>|

An update or a message is lost when it is set before the first round or while the
loop yields its data, and when it is overwritten before it is read, by another event
or by an empty `set()`.  Two loops for one framework read a value twice.  `EventAct`
excludes just these.

**Proved here.**  In every run whose steps meet it the updates and messages produced
are those yielded, in order, and the one that has been set and not been read; and
the event loop yields that one when it goes on from its wait (`events_delivered`).
-/
import Urb.Greenlets

namespace Urb

open Greenlet (Exit Discipline Post)

def HttpEvent.owed : HttpEvent → Bool
  | .update _ | .message _ => true
  | .rescind _ => false

/-! ## The cell -/

namespace EventCell

variable {c : EventCell}

def pending (c : EventCell) : List HttpEvent := if c.listening then c.value.toList.filter (·.owed) else []

def Delivered (c : EventCell) : Prop :=
  c.produced.filter (·.owed) = c.yielded.filter (·.owed) ++ c.pending

lemma pending_of_not_listening (h : c.listening = false) : c.pending = [] := by
  simp [pending, h]

lemma pending_wake (c : EventCell) : c.wake.pending = [] := by
  cases h : c.listening <;> simp [pending, wake, h]

lemma pending_renew (c : EventCell) : c.renew.pending = [] := by
  simp [pending, renew]

lemma Delivered.set (h : c.Delivered) (hfree : c.pending = []) {e : HttpEvent}
    (he : e.owed → c.listening) : (c.set e).Delivered := by
  have hpending : (c.set e).pending = [e].filter (·.owed) := by
    cases hlisten : c.listening with
    | true => simp [pending, EventCell.set, hlisten]
    | false =>
      have hrescind : e.owed = false := by
        by_contra howed
        have hlisten' := he (by simpa using howed)
        rw [hlisten] at hlisten'
        cases hlisten'
      simp [pending, EventCell.set, hlisten, hrescind]
  unfold Delivered at h ⊢
  rw [hpending]
  show (c.produced ++ [e]).filter (·.owed) = c.yielded.filter (·.owed) ++ _
  rw [List.filter_append, h, hfree, List.append_nil]

lemma Delivered.wake (h : c.Delivered) (hfree : c.pending = []) : c.wake.Delivered := by
  unfold Delivered at h ⊢
  rw [pending_wake, ← hfree]
  exact h

lemma Delivered.renew (h : c.Delivered) (hfree : c.pending = []) : c.renew.Delivered := by
  unfold Delivered at h ⊢
  rw [pending_renew, ← hfree]
  exact h

lemma filter_yielded_read (hread : c.listening ∨ c.value.toList.filter (·.owed) = []) :
    c.read.yielded.filter (·.owed) = c.yielded.filter (·.owed) ++ c.pending := by
  show (c.yielded ++ c.value.toList).filter (·.owed) = _
  rw [List.filter_append]
  congr 1
  cases hlisten : c.listening with
  | true => simp [pending, hlisten]
  | false =>
    rcases hread with h | h
    · rw [hlisten] at h
      cases h
    · rw [pending_of_not_listening hlisten, h]

lemma Delivered.read (h : c.Delivered) (hread : c.listening ∨ c.value.toList.filter (·.owed) = []) :
    c.read.Delivered := by
  have hpending : c.read.pending = [] := pending_of_not_listening rfl
  unfold Delivered at h ⊢
  rw [hpending, List.append_nil, filter_yielded_read hread]
  exact h

end EventCell

namespace Hub

/-! ## The discipline -/

def EventAct (a : Act) (i : Outside) (l : Local) (s : Shared) : Prop :=
  match a, i with
  | .notify, .set e => ∀ o ∈ l.framework, s.http o = true →
      (s.cell o).pending = [] ∧ (e.owed = true → (s.cell o).listening = true)
  | .notify, .wake => ∀ o ∈ l.framework, s.http o = true → (s.cell o).pending = []
  | .renew, _ => ∀ o ∈ l.framework, (s.cell o).pending = []
  | .read, _ => ∀ o ∈ l.framework,
      (s.cell o).listening = true ∨ (s.cell o).value.toList.filter (·.owed) = []
  | _, _ => True

instance (a : Act) (i : Outside) (l : Local) (s : Shared) : Decidable (EventAct a i l s) := by
  unfold EventAct
  split <;> infer_instance

def eventDiscipline : Discipline lang where
  Inv s := ∀ o, (s.cell o).Delivered
  Rely _ _ _ := True
  Done _ _ := True
  allowAct a i _ l s := EventAct a i l s
  allowExit _ _ _ _ _ := True
  rely_refl _ _ := trivial
  rely_trans _ _ := trivial
  done_stable _ _ := trivial

instance (a : Act) (i : Outside) (g : ℕ) (l : Local) (s : Shared) :
    Decidable (eventDiscipline.allowAct a i g l s) :=
  inferInstanceAs (Decidable (EventAct a i l s))

instance (k : Switch) (x : Exit) (g : ℕ) (l : Local) (s : Shared) :
    Decidable (eventDiscipline.allowExit k x g l s) :=
  inferInstanceAs (Decidable True)

variable {g : ℕ} {l : Local} {s : Shared}

lemma delivered_modifyCell (h : ∀ o, (s.cell o).Delivered) {o : ℕ} {f : EventCell → EventCell}
    (hf : (f (s.cell o)).Delivered) : ∀ o', ((s.modifyCell o f).cell o').Delivered := by
  intro o'
  by_cases ho : o' = o
  · subst ho
    simpa only [Shared.modifyCell, Function.update_self] using hf
  · simpa only [Shared.modifyCell, Function.update_of_ne ho] using h o'

lemma delivered_notify (h : ∀ o, (s.cell o).Delivered) {i : Outside} (hallow : EventAct .notify i l s) :
    ∀ o, ((notifyFramework l.framework s i).cell o).Delivered := by
  cases i with
  | set e =>
    cases hfw : l.framework with
    | none => exact h
    | some o =>
      simp only [notifyFramework]
      split_ifs with hhttp
      · obtain ⟨hfree, hlisten⟩ := hallow o hfw hhttp
        exact delivered_modifyCell h ((h o).set hfree hlisten)
      · exact h
  | wake =>
    cases hfw : l.framework with
    | none => exact h
    | some o =>
      simp only [notifyFramework]
      split_ifs with hhttp
      · exact delivered_modifyCell h ((h o).wake (hallow o hfw hhttp))
      · exact h
  | _ => exact h

def awaited : Act → Bool → Bool
  | .acquire, wait => wait
  | _, _ => true

lemma leaves_event (a : Act) {i : Outside} (h : ∀ o, (s.cell o).Delivered) (hallow : EventAct a i l s) :
    (eff a i g l s).Leaves fun s => ∀ o, (s.cell o).Delivered := by
  have hsame : ∀ {s' : Shared}, s'.cell = s.cell → ∀ o, (s'.cell o).Delivered := fun he o => he ▸ h o
  cases a with
  | get => exact h
  | storeAndGet => exact h
  | getAny => exact h
  | register => exact h
  | remove => exact leaves_ofEnding h
  | acquire =>
    simp only [eff]
    split
    · exact h
    · split
      · next hlock => exact hsame (acquireLock_frame (fun _ _ => rfl) hlock)
      · trivial
  | release => exact leaves_ofEnding (hsame (releaseFramework_frame (fun _ _ _ => rfl) g l.framework s))
  | postprocess =>
    refine leaves_ofEnding (hsame ?_)
    rw [releaseFramework_frame (f := Shared.cell) (fun _ _ _ => rfl),
      flush_frame (f := Shared.cell) (fun _ _ _ _ => rfl)]
  | edit => exact hsame (editRecords_frame (fun _ _ _ _ => rfl) g l.framework s i)
  | notify => exact delivered_notify h hallow
  | renew =>
    cases hfw : l.framework with
    | none =>
      simp only [eff, hfw]
      exact h
    | some o =>
      simp only [eff, hfw]
      exact delivered_modifyCell h ((h o).renew (hallow o hfw))
  | read =>
    cases hfw : l.framework with
    | none =>
      simp only [eff, hfw]
      exact h
    | some o =>
      simp only [eff, hfw]
      exact delivered_modifyCell h ((h o).read (hallow o hfw))

lemma jobs_awaited (j : Job) : (jobs.code j).all awaited := by
  cases j with
  | native t id => cases t <;> rfl
  | http c id => cases c <;> rfl
  | _ => rfl

lemma jobs_deliver : Greenlet.World.Sound eventDiscipline jobs :=
  Greenlet.World.sound_ofInv jobs_awaited (fun _ _ _ _ _ hblock => acquire_of_block hblock ▸ rfl)
    (fun a _ _ _ _ _ _ hinv hallow => leaves_event a hinv hallow)

/-! ## Runs -/

open Greenlet.Code Function

lemma cell_of_wait {w : World} {k : List (Greenlet.Frame Act Test Switch)} {o : ℕ}
    (hctl : (w.threads g).ctl = .run (switch .wait) (.seq yieldData :: k))
    (hfw : (w.threads g).loc.framework = some o) (hrun : w.running = none) :
    (Machine.run step w (goes g 3)).shared.cell o = (w.shared.cell o).read := by
  have ht : w.threads g = ⟨.run (switch .wait) (.seq yieldData :: k), (w.threads g).loc⟩ :=
    congrArg (fun ctl => Greenlet.Thread.mk ctl (w.threads g).loc) hctl
  have hread : Greenlet.stepCode lang g { arg := .nothing } (.seq (ite .hasData (switch .data) skip) :: k)
      (w.threads g).loc w.shared (act .read) = some (.run (ite .hasData (switch .data) skip) k,
        { (w.threads g).loc with data := (w.shared.cell o).value }, w.shared.modifyCell o .read) := by
    simp only [Greenlet.stepCode, lang, eff, hfw]
    rfl
  -- the wait is over, the sequence is entered, the cell is read
  have hwait : step w (go g) =
      { shared := w.shared
        threads := update w.threads g ⟨.run yieldData k, (w.threads g).loc⟩
        running := some g } := Greenlet.World.step_run (.inl hrun) ht rfl
  have hseq : step (step w (go g)) (go g) =
      { shared := w.shared
        threads := update (step w (go g)).threads g
          ⟨.run (act .read) (.seq (ite .hasData (switch .data) skip) :: k), (w.threads g).loc⟩
        running := some g } := by
    rw [hwait]
    exact Greenlet.World.step_run (.inr rfl) (update_self ..) rfl
  have hshared : (step (step w (go g)) (go g)).shared = w.shared := by rw [hseq]
  have hrunning : (step (step w (go g)) (go g)).running = some g := by rw [hseq]
  have hthread : (step (step w (go g)) (go g)).threads g =
      ⟨.run (act .read) (.seq (ite .hasData (switch .data) skip) :: k), (w.threads g).loc⟩ := by
    rw [hseq]
    exact update_self ..
  rw [← hshared] at hread
  have hlast : (step (step (step w (go g)) (go g)) (go g)).shared =
      (step (step w (go g)) (go g)).shared.modifyCell o .read :=
    congrArg (·.shared) (Greenlet.World.step_run (.inr hrunning) hthread hread)
  show (step (step (step w (go g)) (go g)) (go g)).shared.cell o = _
  rw [hlast, hshared]
  exact update_self ..

theorem events_delivered (es : List Event)
    (hes : Machine.Guarded step (Greenlet.World.Allowed eventDiscipline) start es) (o : ℕ) :
    ((Machine.run step start es).shared.cell o).produced.filter (·.owed) =
        ((Machine.run step start es).shared.cell o).yielded.filter (·.owed) ++
          ((Machine.run step start es).shared.cell o).pending ∧
      ∀ g k, ((Machine.run step start es).threads g).ctl = .run (switch .wait) (.seq yieldData :: k) →
        ((Machine.run step start es).threads g).loc.framework = some o →
        (Machine.run step start es).running = none →
        Machine.Guarded step (Greenlet.World.Allowed eventDiscipline) (Machine.run step start es) (goes g 3) →
        ((Machine.run step start (es ++ goes g 3)).shared.cell o).yielded.filter (·.owed) =
          ((Machine.run step start es).shared.cell o).produced.filter (·.owed) := by
  have hstart : start.Ok eventDiscipline := Greenlet.World.ok_idle (fun _ => rfl) fun _ => trivial
  have hok : (Machine.run step start es).Ok eventDiscipline := hstart.run jobs_deliver hes
  refine ⟨hok.inv o, fun g k hctl hfw hrun hgo => ?_⟩
  have hok' : (Machine.run step (Machine.run step start es) (goes g 3)).Ok eventDiscipline :=
    hok.run jobs_deliver hgo
  have hcell := cell_of_wait hctl hfw hrun
  have hdelivered := hok'.inv o
  rw [hcell] at hdelivered
  rw [Machine.run_append, hcell]
  -- what has been read is no longer pending
  have hpending : ((Machine.run step start es).shared.cell o).read.pending = [] :=
    EventCell.pending_of_not_listening rfl
  unfold EventCell.Delivered at hdelivered
  rw [hpending, List.append_nil] at hdelivered
  exact hdelivered.symm

def subscribed : List Event :=
  [.spawn 0 (.http .subscribe "f")] ++ goes 0 4 ++ [.spawn 1 (.httpGenerateOffers "f")] ++ goes 1 29

def statusUpdate (g : ℕ) (status : String) : List Event :=
  [.spawn g (.native .statusUpdate "f")] ++ goes g 8 ++ notifies g (.set (.update status)) ++ goes g 9

theorem events_delivered_oneUpdate :
    ((Machine.run step start (subscribed ++ statusUpdate 2 "a")).shared.cell 0).produced = [.update "a"] ∧
      ((Machine.run step start (subscribed ++ statusUpdate 2 "a" ++ goes 1 3)).shared.cell 0).yielded.filter
          (·.owed) =
        ((Machine.run step start (subscribed ++ statusUpdate 2 "a")).shared.cell 0).produced.filter (·.owed) :=
  ⟨by decide +kernel, (events_delivered (subscribed ++ statusUpdate 2 "a") (by decide +kernel) 0).2 1
    [.exc skip, .loop (tryExcept streamRound skip)] (by decide +kernel) (by decide +kernel)
    (by decide +kernel) (by decide +kernel)⟩

def updateDuringYield : List Event :=
  subscribed ++ statusUpdate 2 "a" ++ goes 1 4 ++ statusUpdate 3 "b" ++ goes 1 29

theorem update_lost_updateDuringYield :
    ((Machine.run step start updateDuringYield).shared.cell 0).produced = [.update "a", .update "b"] ∧
      ((Machine.run step start updateDuringYield).shared.cell 0).yielded = [.update "a"] ∧
      ((Machine.run step start updateDuringYield).shared.cell 0).pending = [] ∧
      ((Machine.run step start updateDuringYield).threads 1).ctl =
        .run (switch .wait) [.seq yieldData, .exc skip, .loop (tryExcept streamRound skip)] := by
  decide +kernel

end Hub

end Urb
