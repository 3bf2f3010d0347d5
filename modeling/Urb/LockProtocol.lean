/-
# `Urb.LockProtocol` — who holds and releases the framework locks

Acquiring and releasing are linked by the flag `lock_acquired` alone, which belongs
to the framework and not to the greenlet.  That goes wrong where

    a native request that has taken no lock comes to its post-processor while
    another greenlet owns the lock: the owner will find no flag and keep the lock;
    code raises, or the stream is closed, between an acquisition and its release
    with no `finally` around it;
    the id of a native request no longer stands for the framework it has locked.

`LockAct` and `LockExit` exclude just these.

**Proved here.**  In every run whose steps meet them, whatever the interleaving, no
release raises and every greenlet that has ended owns no lock (`locks_kept`).
-/
import Urb.Greenlets

namespace Urb

open Greenlet (Exit Result Discipline)

/-! ## The discipline -/

def FrameworkLock.Sound (lk : FrameworkLock) : Prop :=
  (lk.owner = none ∧ lk.count = 0 ∧ lk.acquired = false) ∨
    (lk.owner ≠ none ∧ lk.count = 1 ∧ lk.acquired = true)

namespace Hub

/-- No release has raised, and every flag is right. -/
structure LocksSound (s : Shared) : Prop where
  faults : s.faults = []
  lock : ∀ o, (s.lock o).Sound

structure LocksLeft (g : ℕ) (s s' : Shared) : Prop where
  owner : ∀ o, (s'.lock o).owner = some g ↔ (s.lock o).owner = some g
  known : ∀ o id, (s.lock o).owner = some g → s.tracker.getActiveOrFinished id = some o →
    s'.tracker.getActiveOrFinished id = some o

def Free (g : ℕ) (s : Shared) : Prop := ∀ o, (s.lock o).owner ≠ some g

def LockAct (g : ℕ) (a : Act) (l : Local) (s : Shared) : Prop :=
  match a with
  | .register => s.tracker.get l.id = none →
      ∀ o ∈ s.tracker.finished.lookup l.id, (s.lock o).owner = none
  | .remove => s.tracker.finishedIds.length = FrameworkTracker.maxFinished →
      ∀ oldest ∈ s.tracker.finishedIds.head?, s.tracker.get oldest = none ∨ oldest = l.id →
        ∀ o ∈ s.tracker.getActiveOrFinished oldest,
          (s.lock o).owner = none ∨ (s.lock o).owner = some g
  | .acquire => l.stored = true → ∀ o ∈ l.framework, (s.lock o).owner = none →
      s.tracker.getActiveOrFinished l.id = some o
  | .postprocess => l.held = false → ∀ o ∈ postFramework l s, (s.lock o).owner = none
  | _ => True

def LockExit (k : Switch) (l : Local) : Prop :=
  match k with
  | .httpWork | .unprotected | .heartbeat => False
  | .db => l.held = false
  | _ => True

instance (g : ℕ) (a : Act) (l : Local) (s : Shared) : Decidable (LockAct g a l s) := by
  cases a <;> (simp only [LockAct]; infer_instance)

instance (k : Switch) (l : Local) : Decidable (LockExit k l) := by
  cases k <;> (simp only [LockExit]; infer_instance)

def lockDiscipline : Discipline lang where
  Inv := LocksSound
  Rely := LocksLeft
  Done := Free
  allowAct a _ g l s := LockAct g a l s
  allowExit k _ _ l _ := LockExit k l
  rely_refl _ _ := ⟨fun _ => Iff.rfl, fun _ _ _ h => h⟩
  rely_trans h h' := ⟨fun o => (h'.owner o).trans (h.owner o),
    fun o id ho hid => h'.known o id ((h.owner o).mpr ho) (h.known o id ho hid)⟩
  done_stable h hfree o ho := hfree o ((h.owner o).mp ho)

instance (a : Act) (i : Outside) (g : ℕ) (l : Local) (s : Shared) :
    Decidable (lockDiscipline.allowAct a i g l s) :=
  inferInstanceAs (Decidable (LockAct g a l s))

instance (k : Switch) (x : Exit) (g : ℕ) (l : Local) (s : Shared) :
    Decidable (lockDiscipline.allowExit k x g l s) :=
  inferInstanceAs (Decidable (LockExit k l))

/-! ## Assertions -/

section Assertions

variable (g : ℕ)

structure Idle (stored : Bool) (l : Local) (s : Shared) : Prop where
  held : l.held = false
  stored_eq : l.stored = stored
  free : Free g s

def Found (stored : Bool) (l : Local) (s : Shared) : Prop := Idle g stored l s ∧ l.framework.isSome = true

structure Holds (stored : Bool) (l : Local) (s : Shared) : Prop where
  held : l.held = true
  stored_eq : l.stored = stored
  locked : ∃ o, l.framework = some o ∧ (s.lock o).owner = some g ∧
    (∀ o', (s.lock o').owner = some g → o' = o) ∧
    (stored = true → s.tracker.getActiveOrFinished l.id = some o)

def Released (stored : Bool) (l : Local) (s : Shared) : Prop :=
  Idle g stored l s ∧ ∀ o, l.framework = some o → (s.lock o).owner = none

def Fresh (native : Bool) (l : Local) (s : Shared) : Prop :=
  Idle g false l s ∧ decide (l.origin = .native) = native

def Due (l : Local) (s : Shared) : Prop := (∃ stored, Idle g stored l s) ∨ Holds g true l s

end Assertions

variable {g : ℕ} {l : Local} {s s' : Shared} {stored : Bool}

lemma Idle.left (h : Idle g stored l s) (hr : LocksLeft g s s') : Idle g stored l s' :=
  ⟨h.held, h.stored_eq, fun o ho => h.free o ((hr.owner o).mp ho)⟩

lemma Holds.left (h : Holds g stored l s) (hr : LocksLeft g s s') : Holds g stored l s' := by
  obtain ⟨o, hfw, hown, honly, hid⟩ := h.locked
  exact ⟨h.held, h.stored_eq, o, hfw, (hr.owner o).mpr hown,
    fun o' ho' => honly o' ((hr.owner o').mp ho'), fun hst => hr.known o l.id hown (hid hst)⟩

lemma stable_idle : lockDiscipline.Stable g (Idle g stored) := fun _ _ _ _ hr h => h.left hr

lemma stable_found : lockDiscipline.Stable g (Found g stored) := fun _ _ _ _ hr h => ⟨h.1.left hr, h.2⟩

lemma stable_holds : lockDiscipline.Stable g (Holds g stored) := fun _ _ _ _ hr h => h.left hr

lemma stable_fresh {native : Bool} : lockDiscipline.Stable g (Fresh g native) :=
  fun _ _ _ _ hr h => ⟨h.1.left hr, h.2⟩

lemma stable_due : lockDiscipline.Stable g (Due g) := by
  rintro l s s' - hr (⟨stored, h⟩ | h)
  · exact .inl ⟨stored, h.left hr⟩
  · exact .inr (h.left hr)

lemma LocksLeft.of_eq (hlock : s'.lock = s.lock) (htracker : s'.tracker = s.tracker) (g : ℕ) :
    LocksLeft g s s' :=
  ⟨fun o => by rw [hlock], fun o id _ h => by rw [htracker]; exact h⟩

lemma LocksSound.of_eq (h : LocksSound s) (hlock : s'.lock = s.lock) (hfaults : s'.faults = s.faults) :
    LocksSound s' :=
  ⟨hfaults.trans h.faults, fun o => hlock ▸ h.lock o⟩

/-! ## What the actions do to the locks -/

lemma acquireLock_free {o : ℕ} (hinv : LocksSound s) (hfree : (s.lock o).owner = none) :
    s.acquireLock g o =
      some { s with lock := Function.update s.lock o { owner := some g, count := 1, acquired := true } } := by
  have hcount : (s.lock o).count = 0 := by
    rcases hinv.lock o with h | h
    · exact h.2.1
    · exact absurd hfree h.1
  rw [Shared.acquireLock, if_pos (.inl hfree), hcount]

lemma releaseLock_own {o : ℕ} (hinv : LocksSound s) (hown : (s.lock o).owner = some g) :
    s.releaseLock g o = ({ s with lock := Function.update s.lock o {} }, .next) := by
  rcases hinv.lock o with h | h
  · exact absurd (h.1.symm.trans hown) (by simp)
  · simp [Shared.releaseLock, h.2.1, h.2.2, hown]

lemma releaseLock_free {o : ℕ} (hinv : LocksSound s) (hfree : (s.lock o).owner = none) :
    s.releaseLock g o = (s, .next) := by
  rcases hinv.lock o with h | h
  · simp [Shared.releaseLock, h.2.2]
  · exact absurd hfree h.1

lemma LocksLeft.update {o : ℕ} {lk : FrameworkLock}
    (hbefore : (s.lock o).owner = none ∨ (s.lock o).owner = some g)
    (hafter : lk.owner = none ∨ lk.owner = some g) {g' : ℕ} (hne : g' ≠ g) :
    LocksLeft g' s { s with lock := Function.update s.lock o lk } := by
  refine ⟨fun o' => ?_, fun o' id _ h => h⟩
  have hother : ∀ {x : Option ℕ}, x = none ∨ x = some g → x ≠ some g' := by
    rintro x (rfl | rfl) h
    · cases h
    · exact hne (Option.some.inj h).symm
  by_cases ho : o' = o
  · subst ho
    simp only [Function.update_self]
    exact iff_of_false (hother hafter) (hother hbefore)
  · simp only [Function.update_of_ne ho]

lemma LocksSound.update {o : ℕ} {lk : FrameworkLock} (h : LocksSound s) (hlk : lk.Sound) :
    LocksSound { s with lock := Function.update s.lock o lk } := by
  refine ⟨h.faults, fun o' => ?_⟩
  by_cases ho : o' = o
  · subst ho
    simpa only [Function.update_self] using hlk
  · simpa only [Function.update_of_ne ho] using h.lock o'

/-! ## Triples for the actions -/

open Greenlet (Post)
open Greenlet.Discipline (ends never)
open Greenlet.Code Function FrameworkTracker Shared

variable {B E F : Local → Shared → Prop} {native : Bool} {k : Switch}

lemma after_same_locks {Q : Post Local Shared} {wait : Prop} {l' : Local} (hinv : LocksSound s)
    (hlock : s'.lock = s.lock) (htracker : s'.tracker = s.tracker) (hfaults : s'.faults = s.faults)
    (hQ : Q none l' s') : lockDiscipline.After g Q s wait (.ok l' s') :=
  ⟨hinv.of_eq hlock hfaults, fun g' _ => .of_eq hlock htracker g', hQ⟩

lemma triple_edit : lockDiscipline.Triple g (Holds g stored) (act .edit) (ends (Holds g stored) B E F) := by
  refine .act fun l s i hinv h _ => ?_
  have hlock := editRecords_frame (f := lock) (fun _ _ _ _ => rfl) g l.framework s i
  have htracker := editRecords_frame (f := tracker) (fun _ _ _ _ => rfl) g l.framework s i
  have hfaults := editRecords_frame (f := faults) (fun _ _ _ _ => rfl) g l.framework s i
  exact after_same_locks hinv hlock htracker hfaults (h.left (.of_eq hlock htracker g))

lemma triple_notify {P : Local → Shared → Prop} (hP : ∀ l s s', LocksLeft g s s' → P l s → P l s') :
    lockDiscipline.Triple g P (act .notify) (ends P B E F) := by
  refine .act fun l s i hinv h _ => ?_
  have hlock := notifyFramework_frame (f := lock) (fun _ _ => rfl) l.framework s i
  have htracker := notifyFramework_frame (f := tracker) (fun _ _ => rfl) l.framework s i
  have hfaults := notifyFramework_frame (f := faults) (fun _ _ => rfl) l.framework s i
  exact after_same_locks hinv hlock htracker hfaults (hP l s _ (.of_eq hlock htracker g) h)

lemma triple_renew :
    lockDiscipline.Triple g (Found g stored) (act .renew) (ends (Found g stored) B E F) := by
  refine .act fun l s i hinv h _ => ?_
  obtain ⟨o, ho⟩ := Option.isSome_iff_exists.mp h.2
  simp only [lang, eff, ho]
  exact after_same_locks hinv rfl rfl rfl ⟨⟨h.1.held, h.1.stored_eq, h.1.free⟩, h.2⟩

lemma triple_read : lockDiscipline.Triple g (Idle g stored) (act .read) (ends (Idle g stored) B E F) := by
  refine .act fun l s i hinv h _ => ?_
  cases ho : l.framework with
  | none =>
    simp only [lang, eff, ho]
    exact after_same_locks hinv rfl rfl rfl ⟨h.held, h.stored_eq, h.free⟩
  | some o =>
    simp only [lang, eff, ho]
    exact after_same_locks hinv rfl rfl rfl ⟨h.held, h.stored_eq, h.free⟩

lemma triple_get : lockDiscipline.Triple g (Idle g stored) (act .get) (ends (Idle g stored) B E F) :=
  .act fun _ _ _ hinv h _ => after_same_locks hinv rfl rfl rfl ⟨h.held, h.stored_eq, h.free⟩

lemma triple_getAny : lockDiscipline.Triple g (Idle g stored) (act .getAny) (ends (Idle g stored) B E F) :=
  .act fun _ _ _ hinv h _ => after_same_locks hinv rfl rfl rfl ⟨h.held, h.stored_eq, h.free⟩

lemma triple_get_fresh :
    lockDiscipline.Triple g (Fresh g native) (act .get) (ends (Fresh g native) B E F) :=
  .act fun _ _ _ hinv h _ =>
    after_same_locks hinv rfl rfl rfl ⟨⟨h.1.held, h.1.stored_eq, h.1.free⟩, h.2⟩

lemma triple_storeAndGet :
    lockDiscipline.Triple g (Fresh g native) (act .storeAndGet) (ends (Idle g native) B E F) :=
  .act fun _ _ _ hinv h _ => after_same_locks hinv rfl rfl rfl ⟨h.1.held, h.2, h.1.free⟩

lemma triple_register :
    lockDiscipline.Triple g (Fresh g native) (act .register) (ends (Found g native) B E F) := by
  refine .act fun l s i hinv h hallow => ⟨⟨hinv.faults, hinv.lock⟩, fun g' _ => ⟨fun o => .rfl, ?_⟩, ?_⟩
  · intro o id hown hid
    simp only [registerFramework, getActiveOrFinished_add]
    split_ifs with heq
    · subst heq
      cases hget : s.tracker.get l.id with
      | some o' =>
        rw [getActiveOrFinished, hget] at hid
        exact hid
      | none =>
        rw [getActiveOrFinished, hget] at hid
        exact absurd ((hallow hget o hid).symm.trans hown) (by simp)
    · exact hid
  · exact ⟨⟨h.1.held, h.2, h.1.free⟩, rfl⟩

lemma remove_left (hallow : LockAct g .remove l s) {g' : ℕ} (hne : g' ≠ g) :
    LocksLeft g' s { s with tracker := (remove l.id s.tracker).1 } := by
  refine ⟨fun o => .rfl, fun o id' hown hid => getActiveOrFinished_remove hid ?_⟩
  intro hfull hhead
  by_contra hgone
  have hgone : s.tracker.get id' = none ∨ id' = l.id := by
    rw [not_and_or, not_not, not_not] at hgone
    exact hgone
  rcases hallow hfull id' hhead hgone o hid with hfree | hmine
  · exact absurd (hfree.symm.trans hown) (by simp)
  · exact hne (Option.some.inj (hown.symm.trans hmine))

lemma triple_remove :
    lockDiscipline.Triple g (Holds g false) (act .remove) (ends (Holds g false) B (Holds g false) F) := by
  refine .act fun l s i hinv h hallow => ?_
  have hleft := fun g' (hne : g' ≠ g) => remove_left hallow hne
  obtain ⟨o, hfw, hown, honly, -⟩ := h.locked
  have hholds : Holds g false l { s with tracker := (remove l.id s.tracker).1 } :=
    ⟨h.held, h.stored_eq, o, hfw, hown, honly, nofun⟩
  simp only [lang, eff]
  cases hflow : (remove l.id s.tracker).2 with
  | raise => exact ⟨⟨hinv.faults, hinv.lock⟩, hleft, hholds⟩
  | _ => exact ⟨⟨hinv.faults, hinv.lock⟩, hleft, hholds⟩

lemma triple_acquire :
    lockDiscipline.Triple g (Found g stored) (await .acquire) (ends (Holds g stored) B E F) := by
  refine .await stable_found fun l s i hinv h hallow => ?_
  obtain ⟨o, ho⟩ := Option.isSome_iff_exists.mp h.2
  simp only [lang, eff, ho]
  cases hown : (s.lock o).owner with
  | some g' =>
    -- another greenlet owns it, since this one owns none
    have hblock : s.acquireLock g o = none := by
      rw [acquireLock, if_neg]
      rintro (h' | h')
      · exact absurd (h'.symm.trans hown) (by simp)
      · exact h.1.free o h'
    rw [hblock]
    exact trivial
  | none =>
    rw [acquireLock_free hinv hown]
    refine ⟨hinv.update (.inr ⟨by simp, rfl, rfl⟩), fun g' hne => ?_, ?_⟩
    · exact LocksLeft.update (.inl hown) (.inr rfl) hne
    · refine ⟨rfl, h.1.stored_eq, o, rfl, by simp, fun o' ho' => ?_, fun hst => ?_⟩
      · by_contra hne
        simp only [Function.update_of_ne hne] at ho'
        exact h.1.free o' ho'
      · exact hallow (h.1.stored_eq.trans hst) o ho hown

lemma free_of_release {o : ℕ} (honly : ∀ o', (s.lock o').owner = some g → o' = o) :
    Free g { s with lock := update s.lock o {} } := by
  intro o' ho'
  by_cases hne : o' = o
  · subst hne
    simp only [update_self] at ho'
    cases ho'
  · simp only [update_of_ne hne] at ho'
    exact hne (honly o' ho')

lemma after_release {Q : Post Local Shared} {o : ℕ} {l' : Local} (hinv : LocksSound s)
    (hown : (s.lock o).owner = some g) (hQ : Q none l' { s with lock := Function.update s.lock o {} }) :
    lockDiscipline.After g Q s False (ofEnding l' (s.releaseLock g o)) := by
  rw [releaseLock_own hinv hown]
  exact ⟨hinv.update (.inl ⟨rfl, rfl, rfl⟩),
    fun g' hne => LocksLeft.update (.inr hown) (.inl rfl) hne, hQ⟩

lemma triple_release :
    lockDiscipline.Triple g (Holds g stored) (act .release) (ends (Released g stored) B E F) := by
  refine .act fun l s i hinv h _ => ?_
  obtain ⟨o, hfw, hown, honly, -⟩ := h.locked
  simp only [lang, eff, hfw]
  refine after_release hinv hown ⟨⟨rfl, h.stored_eq, free_of_release honly⟩, fun o' ho' => ?_⟩
  cases ho'
  simp

lemma triple_release_again :
    lockDiscipline.Triple g (Released g stored) (act .release) (ends (Idle g stored) B E F) := by
  refine .act fun l s i hinv h _ => ?_
  simp only [lang, eff]
  cases ho : l.framework with
  | none => exact after_same_locks hinv rfl rfl rfl ⟨rfl, h.1.stored_eq, h.1.free⟩
  | some o =>
    simp only [releaseFramework, releaseLock_free hinv (h.2 o ho)]
    exact after_same_locks hinv rfl rfl rfl ⟨rfl, h.1.stored_eq, h.1.free⟩

lemma triple_postprocess :
    lockDiscipline.Triple g (Due g) (act .postprocess) (ends (fun _ => Free g) B E F) := by
  refine .act fun l s i hinv h hallow => ?_
  have hlock : (s.flush g).lock = s.lock := flush_frame (fun _ _ _ _ => rfl) g s
  have htracker : (s.flush g).tracker = s.tracker := flush_frame (fun _ _ _ _ => rfl) g s
  have hfaults : (s.flush g).faults = s.faults := flush_frame (fun _ _ _ _ => rfl) g s
  have hinv' : LocksSound (s.flush g) := LocksSound.of_eq hinv hlock hfaults
  have hleft : ∀ g', LocksLeft g' s (s.flush g) := LocksLeft.of_eq hlock htracker
  refine .of_rely (fun g' _ => hleft g') ?_
  simp only [lang, eff]
  rcases h with ⟨stored, h⟩ | h
  · have hfree : Free g (s.flush g) := (h.left (hleft g)).free
    cases hpost : postFramework l s with
    | none => exact after_same_locks hinv' rfl rfl rfl hfree
    | some o =>
      have hnone : ((s.flush g).lock o).owner = none := hlock ▸ hallow h.held o hpost
      simp only [releaseFramework, releaseLock_free hinv' hnone]
      exact after_same_locks hinv' rfl rfl rfl hfree
  · obtain ⟨o, -, hown, honly, hid⟩ := (h.left (hleft g)).locked
    have hpost : postFramework l s = some o := by
      rw [postFramework, if_pos h.stored_eq, ← htracker]
      exact hid rfl
    simp only [hpost]
    exact after_release hinv' hown (free_of_release honly)

/-! ## Triples for the code of the jobs -/

section Switches

variable {P N : Local → Shared → Prop}

lemma triple_io (hk : k.exits .close = false) (hst : lockDiscipline.Stable g P)
    (hN : ∀ l s, P l s → N l s) (hE : ∀ l s, k.exits .raise → LockExit k l → P l s → E l s) :
    lockDiscipline.Triple g P (switch k) (ends N B E F) := by
  refine .switch_ends hst k.exits_brk hN hE fun l s hx => ?_
  cases hk.symm.trans hx

lemma triple_yield (hk : k.exits .raise = false) (hst : lockDiscipline.Stable g P)
    (hN : ∀ l s, P l s → N l s) (hF : ∀ l s, k.exits .close → LockExit k l → P l s → F l s) :
    lockDiscipline.Triple g P (switch k) (ends N B E F) := by
  refine .switch_ends hst k.exits_brk hN (fun l s hx => ?_) hF
  cases hk.symm.trans hx

lemma triple_wait (hk : k.exits .close = false) (hk' : k.exits .raise = false)
    (hst : lockDiscipline.Stable g P) : lockDiscipline.Triple g P (switch k) (ends P B E F) := by
  refine triple_io hk hst (fun _ _ h => h) fun l s hx => ?_
  cases hk'.symm.trans hx

end Switches

lemma triple_work (hk : k.exits .close = false)
    (hE : ∀ l s, k.exits .raise → LockExit k l → Holds g stored l s → E l s) :
    lockDiscipline.Triple g (Holds g stored) (work k) (ends (Holds g stored) B E F) := by
  refine .loop (.choose (.brk fun _ _ _ h => h) (.choose triple_edit (.choose ?_ ?_)))
  · exact triple_notify fun _ _ _ hr h => h.left hr
  · exact triple_io hk stable_holds (fun _ _ h => h) hE

lemma triple_work_inTry :
    lockDiscipline.Triple g (Holds g stored) (work .inTry) (ends (Holds g stored) B (Holds g stored) F) :=
  triple_work rfl fun _ _ _ _ h => h

lemma triple_release_idle :
    lockDiscipline.Triple g (Holds g stored) (act .release) (ends (Idle g stored) B E F) :=
  triple_release.weaken (fun _ _ h => h.1) fun _ _ h => h

lemma triple_finally_release {p : Prog} {C : Local → Shared → Prop}
    (hp : lockDiscipline.Triple g (Holds g stored) p (ends (Holds g stored) never (Holds g stored) C))
    (hclose : lockDiscipline.Triple g C (act .release) (ends F B (Idle g stored) F)) :
    lockDiscipline.Triple g (Holds g stored) (tryFinally p (act .release))
      (ends (Released g stored) B (Idle g stored) F) :=
  .tryFinally hp triple_release .of_never triple_release_idle hclose

lemma triple_try_work :
    lockDiscipline.Triple g (Holds g stored) (tryFinally (tryExcept (work .inTry) skip) (act .release))
      (ends (Released g stored) B (Idle g stored) F) :=
  triple_finally_release (.tryExcept triple_work_inTry (.skip fun _ _ _ h => h)) .of_never

lemma released_of_not_found (h : Idle g stored l s ∧ lang.test .hasFramework l s = false) :
    Released g stored l s := by
  refine ⟨h.1, fun o ho => ?_⟩
  have hnone : l.framework.isSome = false := h.2
  rw [ho] at hnone
  cases hnone

lemma triple_not_found (hE : ∀ l s, Idle g stored l s → E l s) :
    lockDiscipline.Triple g (fun l s => Idle g stored l s ∧ lang.test .hasFramework l s = false) (switch .io)
      (ends (Released g stored) B E F) :=
  triple_io rfl (fun _ _ _ _ hr h => ⟨h.1.left hr, h.2⟩) (fun _ _ h => released_of_not_found h)
    fun l s _ _ h => hE l s h.1

lemma triple_lockingHandler (hk : k.exits .close = false)
    (hE : ∀ l s, k.exits .raise → LockExit k l → Holds g native l s → E l s)
    (hidle : ∀ l s, Idle g native l s → E l s) :
    lockDiscipline.Triple g (Fresh g native) (lockingHandler k)
      (ends (fun l s => Holds g native l s ∨ Released g native l s) B E F) := by
  refine .seq triple_storeAndGet (.ite (.seq triple_acquire ?_) ?_)
  · exact (triple_work hk hE).weaken (fun _ _ h => .inl h) fun _ _ h => h
  · exact (triple_not_found hidle).weaken (fun _ _ h => .inr h) fun _ _ h => h

lemma triple_messageHandler {sent : Prog}
    (hsent : lockDiscipline.Triple g (Idle g native) sent (ends (Idle g native) B E F))
    (hk : k.exits .close = false)
    (hE : ∀ l s, k.exits .raise → LockExit k l → Holds g native l s → E l s)
    (hidle : ∀ l s, Idle g native l s → E l s) :
    lockDiscipline.Triple g (Fresh g native) (messageHandler sent k)
      (ends (fun l s => Holds g native l s ∨ Idle g native l s) B E F) := by
  refine .seq triple_storeAndGet (.ite (.ite (.seq (hsent.pre fun _ _ _ h => h.1.1) ?_)
    (.seq (M := Holds g native) ?_ ?_)) ?_)
  · exact triple_io rfl stable_idle (fun _ _ h => .inr h) fun l s _ _ h => hidle l s h
  · exact triple_acquire.pre fun _ _ _ h => h.1
  · exact (triple_work hk hE).weaken (fun _ _ h => .inl h) fun _ _ h => h
  · exact (triple_not_found hidle).weaken (fun _ _ h => .inr h.1) fun _ _ h => h

lemma triple_deleteFramework : lockDiscipline.Triple g (Idle g false) deleteFramework
      (ends (Released g false) B (Idle g false) F) := by
  refine .seq triple_get (.ite (.seq triple_acquire (triple_finally_release ?_ .of_never)) ?_)
  · exact .seq triple_work_inTry triple_remove
  · exact .skip fun _ _ _ h => released_of_not_found h

/-! ### Native requests -/

lemma triple_registrationHandler :
    lockDiscipline.Triple g (Fresh g true) registrationHandler (ends (Due g) B (Due g) F) := by
  refine .seq (M := Fresh g true) ?_ (.seq triple_register
    (.seq (M := Found g true) ?_ (.seq triple_acquire ?_)))
  · exact triple_io rfl stable_fresh (fun _ _ h => h) fun _ _ _ _ h => .inl ⟨false, h.1⟩
  · exact triple_io rfl stable_found (fun _ _ h => h) fun _ _ _ _ h => .inl ⟨true, h.1⟩
  · exact (triple_work rfl fun _ _ _ _ h => .inr h).weaken (fun _ _ h => .inr h) fun _ _ h => h

lemma triple_targetExecutor (t : Target) :
    lockDiscipline.Triple g (Fresh g true) (targetExecutor t) (ends (Due g) B (Due g) F) := by
  have hidle : ∀ l s, Idle g true l s → Due g l s := fun _ _ h => .inl ⟨true, h⟩
  have hwork : ∀ l s, Switch.exits .io .raise → LockExit .io l → Holds g true l s → Due g l s :=
    fun _ _ _ _ h => .inr h
  have hmessage : ∀ sent : Prog, lockDiscipline.Triple g (Idle g true) sent
      (ends (Idle g true) B (Due g) F) →
      lockDiscipline.Triple g (Fresh g true) (messageHandler sent .io) (ends (Due g) B (Due g) F) := by
    intro sent hsent
    refine (triple_messageHandler hsent rfl hwork hidle).weaken ?_ fun _ _ h => h
    rintro l s (h | h)
    · exact .inr h
    · exact hidle l s h
  cases t with
  | frameworkToExecutor => exact hmessage skip (.skip fun _ _ _ h => h)
  | executorToFramework => exact hmessage (act .notify) (triple_notify fun _ _ _ hr h => h.left hr)
  | registerFramework => exact triple_registrationHandler
  | reregisterFramework => exact triple_registrationHandler
  | unregisterFramework =>
    exact (triple_deleteFramework.pre fun _ _ _ h => h.1).weaken (fun _ _ h => .inl ⟨false, h.1⟩)
      fun _ _ h => .inl ⟨false, h⟩
  | withoutFramework =>
    exact triple_io rfl stable_fresh (fun _ _ h => .inl ⟨false, h.1⟩) fun _ _ _ _ h => .inl ⟨false, h.1⟩
  | _ =>
    refine (triple_lockingHandler rfl hwork hidle).weaken ?_ fun _ _ h => h
    rintro l s (h | h)
    · exact .inr h
    · exact hidle l s h.1

lemma triple_handle (t : Target) :
    lockDiscipline.Triple g (Fresh g true) (handle t) fun _ _ => Free g := by
  refine handle_triple (triple_targetExecutor t) stable_due ?_ triple_postprocess
  rintro l s hheld (⟨stored, h⟩ | h)
  · exact h.free
  · exact absurd (h.held.symm.trans hheld) (by simp)

/-! ### Requests over HTTP -/

lemma triple_releaseReturned {handler : Prog} (h : lockDiscipline.Triple g (Fresh g false) handler
      (ends (fun l s => Holds g false l s ∨ Idle g false l s) B (Idle g false) F)) :
    lockDiscipline.Triple g (Fresh g false) (releaseReturned handler)
      (ends (Idle g false) B (Idle g false) F) := by
  refine .seq h (.ite ?_ (.skip ?_))
  · refine triple_release_idle.pre ?_
    rintro l s - ⟨h | h, hheld⟩
    · exact h
    · exact absurd (h.held.symm.trans hheld) (by simp)
  · rintro l s - ⟨h | h, hheld⟩
    · exact absurd (h.held.symm.trans hheld) (by simp)
    · exact h

lemma triple_httpLocking :
    lockDiscipline.Triple g (Fresh g false) httpLocking (ends (Idle g false) B (Idle g false) F) := by
  have hhandler := triple_lockingHandler (g := g) (k := .httpWork) (B := B) (F := F) (E := Idle g false) rfl
    (fun _ _ _ h => h.elim) fun _ _ h => h
  refine triple_releaseReturned (hhandler.weaken ?_ fun _ _ h => h)
  rintro l s (h | h)
  · exact .inl h
  · exact .inr h.1

lemma triple_http_message {sent : Prog}
    (hsent : lockDiscipline.Triple g (Idle g false) sent (ends (Idle g false) B (Idle g false) F)) :
    lockDiscipline.Triple g (Fresh g false) (releaseReturned (messageHandler sent .httpWork))
      (ends (Idle g false) B (Idle g false) F) :=
  triple_releaseReturned (triple_messageHandler hsent rfl (fun _ _ _ h => h.elim) fun _ _ h => h)

lemma triple_subscribeExecutor :
    lockDiscipline.Triple g (Fresh g false) (seq (lockingHandler .httpWork) (act .release))
      (ends (Idle g false) B (Idle g false) F) := by
  refine .seq (triple_lockingHandler rfl (fun _ _ _ h => h.elim) fun _ _ h => h) ?_
  intro l s hinv h
  rcases h with h | h
  · exact triple_release_idle l s hinv h
  · exact triple_release_again l s hinv h

lemma triple_httpRequest (c : HttpCall) : lockDiscipline.Triple g (Fresh g false) (httpRequest c)
      (ends (Idle g false) (Idle g false) (Idle g false) (Idle g false)) := by
  have hskip : ∀ {P : Local → Shared → Prop}, (∀ l s, P l s → Idle g false l s) →
      lockDiscipline.Triple g P skip
        (ends (Idle g false) (Idle g false) (Idle g false) (Idle g false)) :=
    fun h => .skip fun l s _ hp => h l s hp
  cases c with
  | revive => exact .raise fun _ _ _ h => h.1
  | message => exact triple_http_message (.skip fun _ _ _ h => h)
  | subscribe =>
    refine .seq (triple_io rfl stable_fresh (fun _ _ h => h) fun _ _ _ _ h => h.1) ?_
    exact triple_register.weaken (fun _ _ h => h.1) fun _ _ h => h
  | teardown =>
    refine .seq (triple_deleteFramework.pre fun _ _ _ h => h.1) (.ite ?_ (hskip fun _ _ h => h.1.1))
    exact triple_release_again.pre fun _ _ _ h => h.1
  | shutdown =>
    refine .seq (triple_get.pre fun _ _ _ h => h.1) (.ite (.seq triple_acquire ?_) (hskip fun _ _ h => h.1))
    exact triple_try_work.weaken (fun _ _ h => h.1) fun _ _ h => h
  | subscribeExecutor =>
    refine .seq triple_get_fresh (.ite ?_ (hskip fun _ _ h => h.1.1))
    exact triple_subscribeExecutor.pre fun _ _ _ h => h.1
  | updateExecutor => exact .seq triple_httpLocking (triple_wait rfl rfl stable_idle)
  | messageExecutor =>
    refine .seq triple_get_fresh (.ite ?_ (hskip fun _ _ h => h.1.1))
    exact (triple_http_message (triple_notify fun _ _ _ hr h => h.left hr)).pre fun _ _ _ h => h.1
  | _ => exact triple_httpLocking

/-! ### Loops and callbacks -/

lemma triple_unprotected :
    lockDiscipline.Triple g (Holds g stored) (switch .unprotected) (ends (Holds g stored) B E F) :=
  triple_io rfl stable_holds (fun _ _ h => h) fun _ _ _ h => h.elim

lemma triple_generateOffers : lockDiscipline.Triple g (Idle g false) generateOffers
      (ends (Idle g false) (Idle g false) (Idle g false) (Idle g false)) := by
  refine .loop (.tryExcept (E := Idle g false) ?_ (.skip fun _ _ _ h => h))
  refine .seq triple_get (.ite (.seq (M := Found g false) ?_ (.seq (M := Found g false) ?_
    (.seq triple_acquire (.seq triple_unprotected (.seq triple_try_work ?_))))) (.brk fun _ _ _ h => h.1))
  · exact .choose (.skip fun _ _ _ h => h) (triple_wait rfl rfl stable_found)
  · exact .choose (.skip fun _ _ _ h => h) (.brk fun _ _ _ h => h.1)
  · exact (triple_wait rfl rfl stable_idle).pre fun _ _ _ h => h.1

lemma triple_httpGenerateOffers : lockDiscipline.Triple g (Idle g false) httpGenerateOffers
      (ends (Idle g false) (Idle g false) (Idle g false) (Idle g false)) := by
  refine .loop (.tryExcept (E := Idle g false) ?_ (.skip fun _ _ _ h => h))
  refine .seq triple_get (.ite (.seq (M := Found g false) ?_ (.seq triple_renew (.seq triple_acquire
    (.seq triple_unprotected (.seq (M := Holds g false) ?_ (.seq (triple_finally_release ?_ triple_release_idle)
      (.seq (M := Idle g false) ?_ (.seq triple_read (.ite ?_ ?_)))))))))
    (.brk fun _ _ _ h => h.1))
  · exact .choose (.skip fun _ _ _ h => h) (.brk fun _ _ _ h => h.1)
  · refine .choose (.skip fun _ _ _ h => h) (triple_yield rfl stable_holds (fun _ _ h => h) ?_)
    exact fun _ _ _ h => h.elim
  · refine .tryExcept (.seq triple_work_inTry (.choose (.skip fun _ _ _ h => h) ?_)) (.skip fun _ _ _ h => h)
    exact triple_yield rfl stable_holds (fun _ _ h => h) fun _ _ _ _ h => h
  · exact (triple_wait rfl rfl stable_idle).pre fun _ _ _ h => h.1
  · exact (triple_yield rfl stable_idle (fun _ _ h => h) fun _ _ _ _ h => h).pre fun _ _ _ h => h.1
  · exact .skip fun _ _ _ h => h.1

lemma triple_deleteJob : lockDiscipline.Triple g (Idle g false) deleteJob
      (ends (Idle g false) (Idle g false) (Idle g false) (Idle g false)) := by
  refine .seq triple_getAny (.ite (.seq triple_acquire (.seq (M := Holds g false) ?_ ?_))
    (.skip fun _ _ _ h => h.1))
  · exact triple_work rfl fun _ _ _ h => h.elim
  · exact (triple_finally_release triple_work_inTry .of_never).weaken (fun _ _ h => h.1) fun _ _ h => h

lemma jobs_sound : Greenlet.World.Sound lockDiscipline jobs := by
  intro j g
  have hidle : ∀ (id : String) (p : Prog), lockDiscipline.Triple g (Idle g false) p
      (ends (Idle g false) (Idle g false) (Idle g false) (Idle g false)) →
      lockDiscipline.Triple g (fun l s => l = { id := id } ∧ Free g s) p fun _ _ => Free g := by
    intro id p hp
    refine (hp.always fun _ _ h => h.free).pre ?_
    rintro l s - ⟨rfl, hfree⟩
    exact ⟨rfl, rfl, hfree⟩
  cases j with
  | native t id =>
    refine (triple_handle t).pre ?_
    rintro l s - ⟨rfl, hfree⟩
    exact ⟨⟨rfl, rfl, hfree⟩, rfl⟩
  | http c id =>
    refine ((triple_httpRequest c).always fun _ _ h => h.free).pre ?_
    rintro l s - ⟨rfl, hfree⟩
    exact ⟨⟨rfl, rfl, hfree⟩, rfl⟩
  | generateOffers id => exact hidle id _ triple_generateOffers
  | httpGenerateOffers id => exact hidle id _ triple_httpGenerateOffers
  | deleteJob id => exact hidle id _ triple_deleteJob
  | deleteChannel id => exact hidle id _ (triple_deleteFramework.weaken (fun _ _ h => h.1) fun _ _ h => h)

/-! ## Runs -/

theorem locks_kept (es : List Event)
    (hes : Machine.Guarded step (Greenlet.World.Allowed lockDiscipline) start es) :
    (Machine.run step start es).shared.faults = [] ∧
      ∀ g, ((Machine.run step start es).threads g).ctl = .done →
        Free g (Machine.run step start es).shared := by
  have hstart : start.Ok lockDiscipline :=
    Greenlet.World.ok_idle ⟨rfl, fun _ => Or.inl ⟨rfl, rfl, rfl⟩⟩ fun _ _ => nofun
  have hok : (Machine.run step start es).Ok lockDiscipline := hstart.run jobs_sound hes
  exact ⟨hok.inv.faults, fun g hdone => hok.done hdone⟩

def offersAfterRequest : List Event :=
  [.spawn 0 (.native .registerFramework "f")] ++ goes 0 20 ++
    [.spawn 1 (.native .killTask "f"), .spawn 2 (.generateOffers "f")] ++ goes 1 15 ++ goes 2 14 ++
    goes 1 2 ++ goes 2 12

theorem locks_kept_offersAfterRequest :
    (Machine.run step start offersAfterRequest).shared.faults = [] ∧
      Free 1 (Machine.run step start offersAfterRequest).shared := by
  have h := locks_kept offersAfterRequest (by decide +kernel)
  exact ⟨h.1, h.2 1 (by decide +kernel)⟩

def messageDuringOffers : List Event :=
  [.spawn 0 (.http .subscribe "f")] ++ goes 0 4 ++
    [.spawn 1 (.httpGenerateOffers "f")] ++ goes 1 25 ++ [other 1] ++
    [.spawn 2 (.native .executorToFramework "f")] ++ goes 2 17 ++ [close 1, go 1]

theorem lock_lost_messageDuringOffers :
    (Machine.run step start messageDuringOffers).shared.faults = [(2, 0)] ∧
      ((Machine.run step start messageDuringOffers).threads 1).ctl = .done ∧
      ((Machine.run step start messageDuringOffers).shared.lock 0).owner = some 1 := by
  decide +kernel

end Hub

end Urb
