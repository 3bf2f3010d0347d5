/-
# `Urb.Basis.Greenlet` — cooperative threads with exceptions

A greenlet runs until it comes to a switch point, waits for something, or ends;
only then does another one run.  Its code is structured:

    act a            one action on the shared state; no other greenlet in between
    await a          the same, but the action may not be possible yet
    switch k         other greenlets run; it may come back with an exception
    seq, ite, loop, choose, tryFinally, tryExcept

All that is open (who runs next, which branch of a `choose`, whether an exception
comes, what an action reads from outside) is in the events of a run.

A `Discipline` says what the greenlets owe each other: an invariant of the shared
state, what each may rely on while it is switched out, what is left when it has
ended, and which actions and exceptions are allowed.  `wp` is the precondition
that code needs under a discipline, `Triple` its form for the proofs.

**Proved here.**  If there is a triple for the code of every job, the invariant
holds in every state of a run with allowed steps, and every greenlet that has
ended satisfies what it owes (`World.Ok.run`, `World.Ok.done`).  For an invariant that
every allowed action keeps no triple is needed (`World.sound_ofInv`, `World.run_ofInv`).
-/
import Urb.Basis.Exec

namespace Greenlet

open Function Bool

/-! ## Code -/

inductive Exit where
  | brk
  | raise
  | close
  deriving Repr, DecidableEq

inductive Code (A C K : Type) where
  | skip
  | exit (x : Exit)
  | act (a : A)
  | await (a : A)
  | switch (k : K)
  | seq (p q : Code A C K)
  | choose (p q : Code A C K)
  | ite (c : C) (p q : Code A C K)
  | loop (p : Code A C K)
  | tryFinally (p q : Code A C K)
  | tryExcept (p q : Code A C K)
  deriving DecidableEq

def Code.all {A C K : Type} (f : A → Bool → Bool) : Code A C K → Bool
  | .skip | .exit _ | .switch _ => true
  | .act a => f a false
  | .await a => f a true
  | .seq p q | .choose p q | .ite _ p q | .tryFinally p q | .tryExcept p q => p.all f && q.all f
  | .loop p => p.all f

def Code.map {A A' C C' K : Type} (f : A → A') (h : C → C') : Code A C K → Code A' C' K
  | .skip => .skip
  | .exit x => .exit x
  | .act a => .act (f a)
  | .await a => .await (f a)
  | .switch k => .switch k
  | .seq p q => .seq (p.map f h) (q.map f h)
  | .choose p q => .choose (p.map f h) (q.map f h)
  | .ite c p q => .ite (h c) (p.map f h) (q.map f h)
  | .loop p => .loop (p.map f h)
  | .tryFinally p q => .tryFinally (p.map f h) (q.map f h)
  | .tryExcept p q => .tryExcept (p.map f h) (q.map f h)

def Code.leaves {A C K : Type} (exits : K → Exit → Bool) (x : Exit) : Code A C K → Bool
  | .skip => false
  | .exit y => decide (x = y)
  | .act _ | .await _ => decide (x = .raise)
  | .switch κ => exits κ x
  | .seq p q | .choose p q | .ite _ p q | .tryFinally p q => p.leaves exits x || q.leaves exits x
  | .loop p => decide (x ≠ .brk) && p.leaves exits x
  | .tryExcept p q => decide (x ≠ .raise) && p.leaves exits x || q.leaves exits x

inductive Frame (A C K : Type) where
  | seq (q : Code A C K)
  | loop (p : Code A C K)
  | fin (q : Code A C K)
  | exc (q : Code A C K)
  | after (x : Option Exit)
  deriving DecidableEq

/-- Where a greenlet stands. -/
inductive Ctl (A C K : Type) where
  | ready (p : Code A C K)
  | run (p : Code A C K) (k : List (Frame A C K))
  | done
  deriving DecidableEq

/-- What an action comes to. -/
inductive Result (L S : Type) where
  | ok (l : L) (s : S)
  | raise (l : L) (s : S)
  | block

def Result.Leaves {L S : Type} (P : S → Prop) : Result L S → Prop
  | .ok _ s | .raise _ s => P s
  | .block => True

structure Lang (A C K I L S : Type) where
  eff : A → I → ℕ → L → S → Result L S
  test : C → L → S → Bool
  exits : K → Exit → Bool

/-- What is open in a step. -/
structure Input (I : Type) where
  exit : Option Exit := none
  left : Bool := true
  arg : I

section Semantics

variable {A C K I L S : Type}

def resume : Option Exit → List (Frame A C K) → Ctl A C K
  | _, [] => .done
  | none, .seq q :: k => .run q k
  | some x, .seq _ :: k => resume (some x) k
  | none, .loop p :: k => .run (.loop p) k
  | some .brk, .loop _ :: k => resume none k
  | some x, .loop _ :: k => resume (some x) k
  | x, .fin q :: k => .run q (.after x :: k)
  | some .raise, .exc q :: k => .run q k
  | x, .exc _ :: k => resume x k
  | none, .after x :: k => resume x k
  | some x, .after _ :: k => resume (some x) k

def settle (k : List (Frame A C K)) : Result L S → Option (Ctl A C K × L × S)
  | .ok l s => some (resume none k, l, s)
  | .raise l s => some (resume (some .raise) k, l, s)
  | .block => none

def stepCode (lang : Lang A C K I L S) (g : ℕ) (i : Input I) (k : List (Frame A C K)) (l : L) (s : S) :
    Code A C K → Option (Ctl A C K × L × S)
  | .skip => some (resume none k, l, s)
  | .exit x => some (resume (some x) k, l, s)
  | .act a => settle k (lang.eff a i.arg g l s)
  | .await a => settle k (lang.eff a i.arg g l s)
  | .switch κ =>
    match i.exit with
    | some x => some (resume (if lang.exits κ x then some x else none) k, l, s)
    | none => some (resume none k, l, s)
  | .seq p q => some (.run p (.seq q :: k), l, s)
  | .choose p q => some (.run (if i.left then p else q) k, l, s)
  | .ite c p q => some (.run (if lang.test c l s then p else q) k, l, s)
  | .loop p => some (.run p (.loop p :: k), l, s)
  | .tryFinally p q => some (.run p (.fin q :: k), l, s)
  | .tryExcept p q => some (.run p (.exc q :: k), l, s)

def Ctl.switches : Ctl A C K → Bool
  | .run (.switch _) _ | .done => true
  | _ => false

def Ctl.Waits : Ctl A C K → Prop
  | .ready _ | .run (.switch _) _ | .run (.await _) _ | .done => True
  | _ => False

structure Thread (A C K L : Type) where
  ctl : Ctl A C K
  loc : L

structure World (A C K L S : Type) where
  shared : S
  threads : ℕ → Thread A C K L
  running : Option ℕ := none

inductive Event (J I : Type) where
  | spawn (g : ℕ) (j : J)
  | step (g : ℕ) (i : Input I)

/-- What the greenlets can be asked to do. -/
structure Jobs (J A C K L : Type) where
  code : J → Code A C K
  init : J → L

variable {J : Type}

namespace World

def Turn (w : World A C K L S) (g : ℕ) : Prop := w.running = none ∨ w.running = some g

instance (w : World A C K L S) (g : ℕ) : Decidable (w.Turn g) := inferInstanceAs (Decidable (_ ∨ _))

def setThread (w : World A C K L S) (g : ℕ) (t : Thread A C K L) : World A C K L S :=
  { w with threads := Function.update w.threads g t }

def stepThread (lang : Lang A C K I L S) (w : World A C K L S) (g : ℕ) (i : Input I) :
    World A C K L S :=
  match (w.threads g).ctl with
  | .done => w
  | .ready p => { w.setThread g ⟨.run p [], (w.threads g).loc⟩ with running := some g }
  | .run p k =>
    match stepCode lang g i k (w.threads g).loc w.shared p with
    | none => { w with running := none }
    | some (ctl, l, s) =>
      { shared := s
        threads := Function.update w.threads g ⟨ctl, l⟩
        running := if ctl.switches then none else some g }

def step (lang : Lang A C K I L S) (jobs : Jobs J A C K L) (w : World A C K L S) :
    Event J I → World A C K L S
  | .spawn g j =>
    match (w.threads g).ctl with
    | .done => w.setThread g ⟨.ready (jobs.code j), jobs.init j⟩
    | _ => w
  | .step g i => if w.Turn g then stepThread lang w g i else w

lemma step_run {lang : Lang A C K I L S} {jobs : Jobs J A C K L} {w : World A C K L S} {g : ℕ} {i : Input I}
    {p : Code A C K} {k : List (Frame A C K)} {l l' : L} {s' : S} {ctl : Ctl A C K} (hturn : w.Turn g)
    (ht : w.threads g = ⟨.run p k, l⟩) (hstep : stepCode lang g i k l w.shared p = some (ctl, l', s')) :
    w.step lang jobs (.step g i) =
      { shared := s'
        threads := update w.threads g ⟨ctl, l'⟩
        running := if ctl.switches then none else some g } := by
  simp only [World.step, if_pos hturn, stepThread, ht, hstep]

end World

end Semantics

/-! ## Disciplines -/

section Logic

variable {A C K I L S J : Type} {lang : Lang A C K I L S}

/-- What greenlets owe each other. -/
structure Discipline (lang : Lang A C K I L S) where
  Inv : S → Prop
  Rely : ℕ → S → S → Prop
  Done : ℕ → S → Prop
  allowAct : A → I → ℕ → L → S → Prop
  allowExit : K → Exit → ℕ → L → S → Prop
  rely_refl : ∀ g s, Rely g s s
  rely_trans : ∀ {g s s' s''}, Rely g s s' → Rely g s' s'' → Rely g s s''
  done_stable : ∀ {g s s'}, Rely g s s' → Done g s → Done g s'

abbrev Post (L S : Type) := Option Exit → L → S → Prop

namespace Discipline

variable (d : Discipline lang) (g : ℕ)

def After (Q : Post L S) (s : S) (wait : Prop) : Result L S → Prop
  | .ok l' s' => d.Inv s' ∧ (∀ g', g' ≠ g → d.Rely g' s s') ∧ Q none l' s'
  | .raise l' s' => d.Inv s' ∧ (∀ g', g' ≠ g → d.Rely g' s s') ∧ Q (some .raise) l' s'
  | .block => wait

def loopPost (J : L → S → Prop) (Q : Post L S) : Post L S
  | none => J
  | some .brk => Q none
  | some x => Q (some x)

def seqPost (M : L → S → Prop) (Q : Post L S) : Post L S
  | none => M
  | some x => Q (some x)

def exceptPost (E : L → S → Prop) (Q : Post L S) : Post L S
  | some .raise => E
  | x => Q x

def finallyPost (x : Option Exit) (Q : Post L S) : Post L S
  | none => Q x
  | some y => Q (some y)

def wp : Code A C K → Post L S → L → S → Prop
  | .skip, Q => Q none
  | .exit x, Q => Q (some x)
  | .act a, Q => fun l s => ∀ i, d.allowAct a i g l s → d.After g Q s False (lang.eff a i g l s)
  | .await a, Q => fun l s => ∀ s', d.Rely g s s' → d.Inv s' → ∀ i, d.allowAct a i g l s' →
      d.After g Q s' True (lang.eff a i g l s')
  | .switch κ, Q => fun l s => ∀ s', d.Rely g s s' → d.Inv s' → Q none l s' ∧
      ∀ x, lang.exits κ x = true → d.allowExit κ x g l s' → Q (some x) l s'
  | .seq p q, Q => wp p (seqPost (wp q Q) Q)
  | .choose p q, Q => fun l s => wp p Q l s ∧ wp q Q l s
  | .ite c p q, Q => fun l s => if lang.test c l s then wp p Q l s else wp q Q l s
  | .loop p, Q => fun l s => ∃ J : L → S → Prop, J l s ∧
      ∀ l s, d.Inv s → J l s → wp p (loopPost J Q) l s
  | .tryFinally p q, Q => wp p fun x => wp q (finallyPost x Q)
  | .tryExcept p q, Q => wp p (exceptPost (wp q Q) Q)

def framesPost : List (Frame A C K) → Post L S
  | [] => fun _ _ s => d.Done g s
  | .seq q :: k => seqPost (d.wp g q (framesPost k)) (framesPost k)
  | .loop p :: k => loopPost (d.wp g (.loop p) (framesPost k)) (framesPost k)
  | .fin q :: k => fun x => d.wp g q (finallyPost x (framesPost k))
  | .exc q :: k => exceptPost (d.wp g q (framesPost k)) (framesPost k)
  | .after x :: k => finallyPost x (framesPost k)

def need : Ctl A C K → L → S → Prop
  | .ready p => fun l s => ∀ s', d.Rely g s s' → d.Inv s' → d.wp g p (fun _ _ s => d.Done g s) l s'
  | .run p k => d.wp g p (d.framesPost g k)
  | .done => fun _ s => d.Done g s

variable {d g}

lemma After.imp {Q Q' : Post L S} (h : ∀ x l s, d.Inv s → Q x l s → Q' x l s) {s : S} {wait : Prop}
    {r : Result L S} (hr : d.After g Q s wait r) : d.After g Q' s wait r := by
  cases r with
  | ok l' s' => exact ⟨hr.1, hr.2.1, h none l' s' hr.1 hr.2.2⟩
  | raise l' s' => exact ⟨hr.1, hr.2.1, h (some .raise) l' s' hr.1 hr.2.2⟩
  | block => exact hr

lemma After.of_rely {Q : Post L S} {s₀ s : S} {wait : Prop} {r : Result L S}
    (hr : ∀ g', g' ≠ g → d.Rely g' s₀ s) (h : d.After g Q s wait r) : d.After g Q s₀ wait r := by
  cases r with
  | ok l' s' => exact ⟨h.1, fun g' hne => d.rely_trans (hr g' hne) (h.2.1 g' hne), h.2.2⟩
  | raise l' s' => exact ⟨h.1, fun g' hne => d.rely_trans (hr g' hne) (h.2.1 g' hne), h.2.2⟩
  | block => exact h

lemma wp_imp {p : Code A C K} : ∀ {Q Q' : Post L S}, (∀ x l s, d.Inv s → Q x l s → Q' x l s) →
    ∀ {l : L} {s : S}, d.Inv s → d.wp g p Q l s → d.wp g p Q' l s := by
  induction p with
  | skip => exact fun h l s => h none l s
  | exit x => exact fun h l s => h (some x) l s
  | act a => exact fun h l s _ hp i hi => (hp i hi).imp h
  | await a => exact fun h l s _ hp s' hr hinv i hi => (hp s' hr hinv i hi).imp h
  | switch κ =>
    intro Q Q' h l s _ hp s' hr hinv
    exact ⟨h none l s' hinv (hp s' hr hinv).1,
      fun x hx hallow => h (some x) l s' hinv ((hp s' hr hinv).2 x hx hallow)⟩
  | seq p q ihp ihq =>
    intro Q Q' h l s hinv hp
    refine ihp ?_ hinv hp
    rintro (_ | x) l s hinv hx
    · exact ihq h hinv hx
    · exact h (some x) l s hinv hx
  | choose p q ihp ihq => exact fun h l s hinv hp => ⟨ihp h hinv hp.1, ihq h hinv hp.2⟩
  | ite c p q ihp ihq =>
    intro Q Q' h l s hinv hp
    simp only [wp] at hp ⊢
    split_ifs at hp ⊢
    · exact ihp h hinv hp
    · exact ihq h hinv hp
  | loop p ih =>
    rintro Q Q' h l s _ ⟨J, hJ, hbody⟩
    refine ⟨J, hJ, fun l s hinv hj => ih ?_ hinv (hbody l s hinv hj)⟩
    rintro (_ | _ | _ | _) l s hinv hx
    · exact hx
    · exact h none l s hinv hx
    · exact h (some .raise) l s hinv hx
    · exact h (some .close) l s hinv hx
  | tryFinally p q ihp ihq =>
    intro Q Q' h l s hinv hp
    refine ihp (fun x l s hinv hx => ihq ?_ hinv hx) hinv hp
    rintro (_ | y) l s hinv hy
    · exact h x l s hinv hy
    · exact h (some y) l s hinv hy
  | tryExcept p q ihp ihq =>
    intro Q Q' h l s hinv hp
    refine ihp ?_ hinv hp
    rintro (_ | _ | _ | _) l s hinv hx
    · exact h none l s hinv hx
    · exact h (some .brk) l s hinv hx
    · exact ihq h hinv hx
    · exact h (some .close) l s hinv hx

lemma need_resume {k : List (Frame A C K)} : ∀ {x : Option Exit} {l : L} {s : S},
    d.framesPost g k x l s → d.need g (resume x k) l s := by
  induction k with
  | nil =>
    rintro (_ | _) l s h
    · exact h
    · exact h
  | cons f k ih =>
    cases f with
    | seq q =>
      rintro (_ | _) l s h
      · exact h
      · exact ih h
    | loop p =>
      rintro (_ | _ | _ | _) l s h
      · exact h
      · exact ih (x := none) h
      · exact ih (x := some .raise) h
      · exact ih (x := some .close) h
    | fin q =>
      rintro (_ | _) l s h
      · exact h
      · exact h
    | exc q =>
      rintro (_ | _ | _ | _) l s h
      · exact ih (x := none) h
      · exact ih (x := some .brk) h
      · exact h
      · exact ih (x := some .close) h
    | after y =>
      rintro (_ | _) l s h
      · exact ih h
      · exact ih h

lemma need_stable {ctl : Ctl A C K} (hw : ctl.Waits) {l : L} {s s' : S} (hr : d.Rely g s s')
    (h : d.need g ctl l s) : d.need g ctl l s' := by
  cases ctl with
  | ready p => exact fun s'' hr' hinv => h s'' (d.rely_trans hr hr') hinv
  | done => exact d.done_stable hr h
  | run p k =>
    cases p with
    | switch κ => exact fun s'' hr' hinv => h s'' (d.rely_trans hr hr') hinv
    | await a => exact fun s'' hr' hinv => h s'' (d.rely_trans hr hr') hinv
    | _ => exact hw.elim

/-! ### Rules -/

def Triple (d : Discipline lang) (g : ℕ) (P : L → S → Prop) (p : Code A C K) (Q : Post L S) : Prop :=
  ∀ l s, d.Inv s → P l s → d.wp g p Q l s

def Stable (d : Discipline lang) (g : ℕ) (P : L → S → Prop) : Prop :=
  ∀ l s s', d.Inv s' → d.Rely g s s' → P l s → P l s'

def ends (N B E C : L → S → Prop) : Post L S
  | none => N
  | some .brk => B
  | some .raise => E
  | some .close => C

def never : L → S → Prop := fun _ _ => False

namespace Triple

variable {P P' M N B E F N' B' E' F' : L → S → Prop} {Q Q' : Post L S} {p q : Code A C K}

lemma pre (h : d.Triple g P p Q) (hP : ∀ l s, d.Inv s → P' l s → P l s) : d.Triple g P' p Q :=
  fun l s hinv hp => h l s hinv (hP l s hinv hp)

lemma post (h : d.Triple g P p Q) (hQ : ∀ x l s, d.Inv s → Q x l s → Q' x l s) : d.Triple g P p Q' :=
  fun l s hinv hp => wp_imp hQ hinv (h l s hinv hp)

lemma of_never : d.Triple g never p Q := fun _ _ _ h => h.elim

lemma weaken (h : d.Triple g P p (ends N B E F)) (hN : ∀ l s, N l s → N' l s)
    (hE : ∀ l s, E l s → E' l s) : d.Triple g P p (ends N' B E' F) := by
  refine h.post ?_
  rintro (_ | _ | _ | _) l s - hx
  · exact hN l s hx
  · exact hx
  · exact hE l s hx
  · exact hx

lemma always (h : d.Triple g P p (ends N N N N)) (hN : ∀ l s, N l s → N' l s) :
    d.Triple g P p fun _ => N' := by
  refine h.post ?_
  rintro (_ | _ | _ | _) l s - hx
  · exact hN l s hx
  · exact hN l s hx
  · exact hN l s hx
  · exact hN l s hx

lemma skip (h : ∀ l s, d.Inv s → P l s → N l s) : d.Triple g P .skip (ends N B E F) := h

lemma brk (h : ∀ l s, d.Inv s → P l s → B l s) : d.Triple g P (.exit .brk) (ends N B E F) := h

lemma raise (h : ∀ l s, d.Inv s → P l s → E l s) : d.Triple g P (.exit .raise) (ends N B E F) := h

lemma switch {κ : K} (hst : d.Stable g P) (h : ∀ l s, d.Inv s → P l s → Q none l s)
    (hx : ∀ x l s, d.Inv s → lang.exits κ x → d.allowExit κ x g l s → P l s → Q (some x) l s) :
    d.Triple g P (.switch κ) Q := by
  intro l s _ hp s' hr hinv
  have hp' := hst l s s' hinv hr hp
  exact ⟨h l s' hinv hp', fun x hexits hallow => hx x l s' hinv hexits hallow hp'⟩

lemma switch_ends {κ : K} (hst : d.Stable g P) (hbrk : lang.exits κ .brk = false)
    (hN : ∀ l s, P l s → N l s)
    (hE : ∀ l s, lang.exits κ .raise → d.allowExit κ .raise g l s → P l s → E l s)
    (hF : ∀ l s, lang.exits κ .close → d.allowExit κ .close g l s → P l s → F l s) :
    d.Triple g P (.switch κ) (ends N B E F) := by
  refine .switch hst (fun l s _ hp => hN l s hp) ?_
  rintro (_ | _ | _) l s - hx hallow hp
  · rw [hbrk] at hx
    cases hx
  · exact hE l s hx hallow hp
  · exact hF l s hx hallow hp

lemma await {a : A} (hst : d.Stable g P)
    (h : ∀ l s i, d.Inv s → P l s → d.allowAct a i g l s → d.After g Q s True (lang.eff a i g l s)) :
    d.Triple g P (.await a) Q :=
  fun l s _ hp s' hr hinv i hallow => h l s' i hinv (hst l s s' hinv hr hp) hallow

lemma act {a : A}
    (h : ∀ l s i, d.Inv s → P l s → d.allowAct a i g l s → d.After g Q s False (lang.eff a i g l s)) :
    d.Triple g P (.act a) Q :=
  fun l s hinv hp i hallow => h l s i hinv hp hallow

lemma seq (hp : d.Triple g P p (ends M B E F)) (hq : d.Triple g M q (ends N B E F)) :
    d.Triple g P (.seq p q) (ends N B E F) := by
  intro l s hinv h
  refine wp_imp (p := p) ?_ hinv (hp l s hinv h)
  rintro (_ | _ | _ | _) l s hinv hx
  · exact hq l s hinv hx
  · exact hx
  · exact hx
  · exact hx

lemma choose (hp : d.Triple g P p Q) (hq : d.Triple g P q Q) : d.Triple g P (.choose p q) Q :=
  fun l s hinv h => ⟨hp l s hinv h, hq l s hinv h⟩

lemma ite {c : C} (hp : d.Triple g (fun l s => P l s ∧ lang.test c l s) p Q)
    (hq : d.Triple g (fun l s => P l s ∧ lang.test c l s = false) q Q) : d.Triple g P (.ite c p q) Q := by
  intro l s hinv h
  simp only [wp]
  split_ifs with hc
  · exact hp l s hinv ⟨h, hc⟩
  · exact hq l s hinv ⟨h, by simpa using hc⟩

lemma loop (hp : d.Triple g P p (ends P N E F)) : d.Triple g P (.loop p) (ends N B E F) := by
  intro l s _ h
  refine ⟨P, h, fun l s hinv h => wp_imp ?_ hinv (hp l s hinv h)⟩
  rintro (_ | _ | _ | _) l s - hx <;> exact hx

lemma tryFinally (hp : d.Triple g P p (ends N B E F)) (hn : d.Triple g N q (ends N' B' E' F'))
    (hb : d.Triple g B q (ends B' B' E' F')) (he : d.Triple g E q (ends E' B' E' F'))
    (hf : d.Triple g F q (ends F' B' E' F')) : d.Triple g P (.tryFinally p q) (ends N' B' E' F') := by
  have hpost : ∀ (R : L → S → Prop) (x : Option Exit), (∀ l s, R l s → ends N' B' E' F' x l s) →
      ∀ y l s, d.Inv s → ends R B' E' F' y l s → finallyPost x (ends N' B' E' F') y l s := by
    rintro R x hR (_ | _ | _ | _) l s - hy
    · exact hR l s hy
    · exact hy
    · exact hy
    · exact hy
  intro l s hinv h
  refine wp_imp (p := p) ?_ hinv (hp l s hinv h)
  rintro (_ | _ | _ | _) l s hinv hx
  · exact wp_imp (hpost N' none fun _ _ h => h) hinv (hn l s hinv hx)
  · exact wp_imp (hpost B' (some .brk) fun _ _ h => h) hinv (hb l s hinv hx)
  · exact wp_imp (hpost E' (some .raise) fun _ _ h => h) hinv (he l s hinv hx)
  · exact wp_imp (hpost F' (some .close) fun _ _ h => h) hinv (hf l s hinv hx)

lemma tryExcept (hp : d.Triple g P p (ends N B E F)) (hq : d.Triple g E q (ends N B E' F)) :
    d.Triple g P (.tryExcept p q) (ends N B E' F) := by
  intro l s hinv h
  refine wp_imp (p := p) ?_ hinv (hp l s hinv h)
  rintro (_ | _ | _ | _) l s hinv hx
  · exact hx
  · exact hx
  · exact hq l s hinv hx
  · exact hx

def leavesPost (lang : Lang A C K I L S) (P : L → S → Prop) (p : Code A C K) : Post L S :=
  fun x l s => P l s ∧ ∀ y, x = some y → p.leaves lang.exits y = true

lemma of_acts {f : A → Bool → Bool} (hst : d.Stable g P)
    (h : ∀ a wait, f a wait → ∀ l s i, d.Inv s → P l s → d.allowAct a i g l s →
      d.After g (fun _ => P) s (wait) (lang.eff a i g l s)) :
    p.all f → d.Triple g P p (leavesPost lang P p) := by
  have hact : ∀ {a : A} (wait : Bool) {w : Prop} {l : L} {s : S} {i : I} {q : Code A C K},
      (wait → w) → (q.leaves lang.exits .raise) →
      d.After g (fun _ => P) s (wait) (lang.eff a i g l s) →
      d.After g (leavesPost lang P q) s w (lang.eff a i g l s) := by
    intro a wait w l s i q hw hq hafter
    generalize lang.eff a i g l s = r at hafter
    cases r with
    | ok l' s' => exact ⟨hafter.1, hafter.2.1, hafter.2.2, nofun⟩
    | raise l' s' =>
      refine ⟨hafter.1, hafter.2.1, hafter.2.2, fun y hy => ?_⟩
      cases hy
      exact hq
    | block => exact hw hafter
  induction p with
  | skip => exact fun _ _ _ _ hp => ⟨hp, nofun⟩
  | exit x =>
    intro _ l s _ hp
    refine ⟨hp, fun y hy => ?_⟩
    cases hy
    exact decide_eq_true rfl
  | act a =>
    intro hall
    exact .act fun l s i hinv hp hallow => hact false nofun rfl (h a false hall l s i hinv hp hallow)
  | await a =>
    intro hall
    exact .await hst fun l s i hinv hp hallow =>
      hact true (fun _ => trivial) rfl (h a true hall l s i hinv hp hallow)
  | switch κ =>
    intro _
    refine .switch hst (fun l s _ hp => ⟨hp, nofun⟩) fun x l s _ hx _ hp => ⟨hp, fun y hy => ?_⟩
    cases hy
    exact hx
  | seq p q ihp ihq =>
    intro hall l s hinv hp
    obtain ⟨hallp, hallq⟩ := and_eq_true_iff.mp hall
    refine wp_imp (p := p) ?_ hinv (ihp hallp l s hinv hp)
    rintro (_ | x) l s hinv hx
    · refine wp_imp (p := q) (fun y l s _ hy => ⟨hy.1, fun z hz => ?_⟩) hinv (ihq hallq l s hinv hx.1)
      exact or_inr (hy.2 z hz)
    · exact ⟨hx.1, fun z hz => or_inl (hx.2 z hz)⟩
  | choose p q ihp ihq =>
    intro hall
    obtain ⟨hallp, hallq⟩ := and_eq_true_iff.mp hall
    refine .choose ((ihp hallp).post fun y l s _ hy => ⟨hy.1, fun z hz => ?_⟩)
      ((ihq hallq).post fun y l s _ hy => ⟨hy.1, fun z hz => ?_⟩)
    · exact or_inl (hy.2 z hz)
    · exact or_inr (hy.2 z hz)
  | ite c p q ihp ihq =>
    intro hall
    obtain ⟨hallp, hallq⟩ := and_eq_true_iff.mp hall
    refine .ite (((ihp hallp).pre fun _ _ _ hp => hp.1).post fun y l s _ hy => ⟨hy.1, fun z hz => ?_⟩)
      (((ihq hallq).pre fun _ _ _ hp => hp.1).post fun y l s _ hy => ⟨hy.1, fun z hz => ?_⟩)
    · exact or_inl (hy.2 z hz)
    · exact or_inr (hy.2 z hz)
  | loop p ih =>
    intro hall l s _ hp
    refine ⟨P, hp, fun l s hinv hp => wp_imp ?_ hinv (ih hall l s hinv hp)⟩
    rintro (_ | _ | _ | _) l s - hx
    · exact hx.1
    · exact ⟨hx.1, nofun⟩
    · refine ⟨hx.1, fun z hz => ?_⟩
      cases hz
      exact and_eq_true_iff.mpr ⟨rfl, hx.2 _ rfl⟩
    · refine ⟨hx.1, fun z hz => ?_⟩
      cases hz
      exact and_eq_true_iff.mpr ⟨rfl, hx.2 _ rfl⟩
  | tryFinally p q ihp ihq =>
    intro hall l s hinv hp
    obtain ⟨hallp, hallq⟩ := and_eq_true_iff.mp hall
    refine wp_imp (p := p) (fun x l s hinv hx => ?_) hinv (ihp hallp l s hinv hp)
    refine wp_imp (p := q) ?_ hinv (ihq hallq l s hinv hx.1)
    rintro (_ | y) l s - hy
    · exact ⟨hy.1, fun z hz => or_inl (hx.2 z hz)⟩
    · exact ⟨hy.1, fun z hz => or_inr (hy.2 z hz)⟩
  | tryExcept p q ihp ihq =>
    intro hall l s hinv hp
    obtain ⟨hallp, hallq⟩ := and_eq_true_iff.mp hall
    have hleft : ∀ {x : Exit}, x ≠ .raise → p.leaves lang.exits x →
        (Code.tryExcept p q).leaves lang.exits x := fun hne hx =>
      or_eq_true_iff.mpr (.inl (and_eq_true_iff.mpr ⟨decide_eq_true hne, hx⟩))
    refine wp_imp (p := p) ?_ hinv (ihp hallp l s hinv hp)
    rintro (_ | _ | _ | _) l s hinv hx
    · exact ⟨hx.1, nofun⟩
    · refine ⟨hx.1, fun z hz => ?_⟩
      cases hz
      exact hleft nofun (hx.2 _ rfl)
    · refine wp_imp (p := q) (fun y l s _ hy => ⟨hy.1, fun z hz => ?_⟩) hinv (ihq hallq l s hinv hx.1)
      exact or_inr (hy.2 z hz)
    · refine ⟨hx.1, fun z hz => ?_⟩
      cases hz
      exact hleft nofun (hx.2 _ rfl)

lemma of_leaves (h : d.Triple g P p (leavesPost lang N p)) (hbrk : p.leaves lang.exits .brk = false)
    (hclose : p.leaves lang.exits .close = false) : d.Triple g P p (ends N B N F) := by
  refine h.post ?_
  rintro (_ | _ | _ | _) l s - hx
  · exact hx.1
  · cases hbrk.symm.trans (hx.2 _ rfl)
  · exact hx.1
  · cases hclose.symm.trans (hx.2 _ rfl)

end Triple

/-! ### Steps -/

def Allows (d : Discipline lang) (g : ℕ) (i : Input I) (t : Thread A C K L) (s : S) : Prop :=
  match t.ctl with
  | .run (.act a) _ | .run (.await a) _ => d.allowAct a i.arg g t.loc s
  | .run (.switch κ) _ => ∀ x ∈ i.exit, lang.exits κ x = true → d.allowExit κ x g t.loc s
  | _ => True

instance (d : Discipline lang) [∀ a i g l s, Decidable (d.allowAct a i g l s)]
    [∀ κ x g l s, Decidable (d.allowExit κ x g l s)] (g : ℕ) (i : Input I) (t : Thread A C K L) (s : S) :
    Decidable (d.Allows g i t s) := by
  unfold Allows
  split <;> infer_instance

lemma After.settle {s : S} {wait : Prop} {r : Result L S} {k : List (Frame A C K)}
    (h : d.After g (d.framesPost g k) s wait r) {ctl : Ctl A C K} {l' : L} {s' : S}
    (hstep : Greenlet.settle k r = some (ctl, l', s')) :
    d.Inv s' ∧ (∀ g', g' ≠ g → d.Rely g' s s') ∧ d.need g ctl l' s' := by
  cases r with
  | ok l'' s'' =>
    cases hstep
    exact ⟨h.1, h.2.1, need_resume h.2.2⟩
  | raise l'' s'' =>
    cases hstep
    exact ⟨h.1, h.2.1, need_resume h.2.2⟩
  | block => cases hstep

lemma need_step {p : Code A C K} {k : List (Frame A C K)} {i : Input I} {l : L} {s : S}
    (hinv : d.Inv s) (h : d.need g (.run p k) l s) (hallow : d.Allows g i ⟨.run p k, l⟩ s)
    {ctl : Ctl A C K} {l' : L} {s' : S} (hstep : stepCode lang g i k l s p = some (ctl, l', s')) :
    d.Inv s' ∧ (∀ g', g' ≠ g → d.Rely g' s s') ∧ d.need g ctl l' s' := by
  have hsame : ∀ ctl' : Ctl A C K, some (ctl', l, s) = some (ctl, l', s') → d.need g ctl' l s →
      d.Inv s' ∧ (∀ g', g' ≠ g → d.Rely g' s s') ∧ d.need g ctl l' s' := by
    intro ctl' heq hneed
    cases heq
    exact ⟨hinv, fun g' _ => d.rely_refl g' s, hneed⟩
  cases p with
  | skip => exact hsame _ hstep (need_resume h)
  | exit x => exact hsame _ hstep (need_resume h)
  | act a => exact (h i.arg hallow).settle hstep
  | await a => exact (h s (d.rely_refl g s) hinv i.arg hallow).settle hstep
  | switch κ =>
    obtain ⟨hnone, hexit⟩ := h s (d.rely_refl g s) hinv
    simp only [stepCode] at hstep
    cases hx : i.exit with
    | none =>
      rw [hx] at hstep
      exact hsame _ hstep (need_resume hnone)
    | some x =>
      rw [hx] at hstep
      simp only at hstep
      split_ifs at hstep with hexits
      · exact hsame _ hstep (need_resume (hexit x hexits (hallow x hx hexits)))
      · exact hsame _ hstep (need_resume hnone)
  | seq p q => exact hsame (.run p (.seq q :: k)) hstep h
  | choose p q =>
    refine hsame (.run (if i.left then p else q) k) hstep ?_
    split_ifs
    · exact h.1
    · exact h.2
  | ite c p q =>
    refine hsame (.run (if lang.test c l s then p else q) k) hstep ?_
    have h' : if lang.test c l s then d.wp g p (d.framesPost g k) l s
        else d.wp g q (d.framesPost g k) l s := h
    split_ifs at h' ⊢
    · exact h'
    · exact h'
  | loop p =>
    obtain ⟨J, hJ, hbody⟩ := h
    refine hsame (.run p (.loop p :: k)) hstep (wp_imp ?_ hinv (hbody l s hinv hJ))
    rintro (_ | _ | _ | _) l s - hx
    · exact ⟨J, hx, hbody⟩
    · exact hx
    · exact hx
    · exact hx
  | tryFinally p q => exact hsame (.run p (.fin q :: k)) hstep h
  | tryExcept p q => exact hsame (.run p (.exc q :: k)) hstep h

lemma waits_of_block {p : Code A C K} {k : List (Frame A C K)} {i : Input I} {l : L} {s : S}
    (h : d.need g (.run p k) l s) (hallow : d.Allows g i ⟨.run p k, l⟩ s)
    (hstep : stepCode lang g i k l s p = none) : (Ctl.run p k).Waits := by
  cases p with
  | await a => trivial
  | switch κ => trivial
  | act a =>
    have hafter := h i.arg hallow
    simp only [stepCode] at hstep
    cases hr : lang.eff a i.arg g l s with
    | ok l' s' =>
      rw [hr] at hstep
      cases hstep
    | raise l' s' =>
      rw [hr] at hstep
      cases hstep
    | block =>
      rw [hr] at hafter
      exact hafter.elim
  | _ => cases hstep

end Discipline

namespace World

variable {d : Discipline lang} {jobs : Jobs J A C K L} {w : World A C K L S}

/-- Every greenlet has what it needs. -/
structure Ok (d : Discipline lang) (w : World A C K L S) : Prop where
  inv : d.Inv w.shared
  need : ∀ g, d.need g (w.threads g).ctl (w.threads g).loc w.shared
  waits : ∀ g, w.running ≠ some g → (w.threads g).ctl.Waits

def Allowed (d : Discipline lang) (w : World A C K L S) : Event J I → Prop
  | .spawn _ _ => True
  | .step g i => w.Turn g → d.Allows g i (w.threads g) w.shared

instance (d : Discipline lang) [∀ a i g l s, Decidable (d.allowAct a i g l s)]
    [∀ κ x g l s, Decidable (d.allowExit κ x g l s)] (w : World A C K L S) (e : Event J I) :
    Decidable (w.Allowed d e) := by
  unfold Allowed
  split <;> infer_instance

lemma waits_of_switches {ctl : Ctl A C K} (h : ctl.switches) : ctl.Waits := by
  cases ctl with
  | ready p => trivial
  | done => trivial
  | run p k =>
    cases p with
    | switch κ => trivial
    | _ => cases h

lemma Ok.stepThread (h : w.Ok d) {g : ℕ} {i : Input I} (hturn : w.Turn g)
    (hallow : d.Allows g i (w.threads g) w.shared) : (stepThread lang w g i).Ok d := by
  have hothers : ∀ g', g' ≠ g → (w.threads g').ctl.Waits := by
    intro g' hne
    refine h.waits g' fun hrun => ?_
    rcases hturn with hturn | hturn
    · exact absurd (hrun.symm.trans hturn) (by simp)
    · exact hne (Option.some.inj (hrun.symm.trans hturn))
  have hneed := h.need g
  unfold World.stepThread
  generalize ht : w.threads g = t at hneed hallow
  obtain ⟨ctl, l⟩ := t
  cases ctl with
  | done => exact h
  | ready p =>
    refine ⟨h.inv, fun g' => ?_, fun g' hne => ?_⟩
    · by_cases hg : g' = g
      · subst hg
        simp only [setThread, update_self]
        exact hneed w.shared (d.rely_refl g' w.shared) h.inv
      · simp only [setThread, update_of_ne hg]
        exact h.need g'
    · have hg : g' ≠ g := fun heq => hne (heq ▸ rfl)
      simp only [setThread, update_of_ne hg]
      exact hothers g' hg
  | run p k =>
    cases hstep : stepCode lang g i k l w.shared p with
    | none =>
      simp only [hstep]
      refine ⟨h.inv, h.need, fun g' _ => ?_⟩
      by_cases hg : g' = g
      · subst hg
        show (w.threads g').ctl.Waits
        rw [ht]
        exact Discipline.waits_of_block hneed hallow hstep
      · exact hothers g' hg
    | some r =>
      obtain ⟨ctl', l', s'⟩ := r
      obtain ⟨hinv, hrely, hneed'⟩ := Discipline.need_step h.inv hneed hallow hstep
      simp only [hstep]
      refine ⟨hinv, fun g' => ?_, fun g' hne => ?_⟩
      · by_cases hg : g' = g
        · subst hg
          simp only [update_self]
          exact hneed'
        · simp only [update_of_ne hg]
          exact Discipline.need_stable (hothers g' hg) (hrely g' hg) (h.need g')
      · by_cases hg : g' = g
        · subst hg
          simp only [update_self]
          cases hsw : ctl'.switches with
          | true => exact waits_of_switches hsw
          | false => exact absurd (by simp [hsw]) hne
        · simp only [update_of_ne hg]
          exact hothers g' hg

lemma Ok.spawn (h : w.Ok d) {g : ℕ} {p : Code A C K} {l : L} (hdone : (w.threads g).ctl = .done)
    (hp : ∀ s, d.Inv s → d.Done g s → d.wp g p (fun _ _ s => d.Done g s) l s) :
    (w.setThread g ⟨.ready p, l⟩).Ok d := by
  refine ⟨h.inv, fun g' => ?_, fun g' hne => ?_⟩
  · by_cases hg : g' = g
    · subst hg
      have hend := h.need g'
      rw [hdone] at hend
      simp only [setThread, update_self]
      exact fun s' hr hinv => hp s' hinv (d.done_stable hr hend)
    · simp only [setThread, update_of_ne hg]
      exact h.need g'
  · by_cases hg : g' = g
    · subst hg
      simp only [setThread, update_self]
      trivial
    · simp only [setThread, update_of_ne hg]
      exact h.waits g' hne

def Sound (d : Discipline lang) (jobs : Jobs J A C K L) : Prop :=
  ∀ j g, d.Triple g (fun l s => l = jobs.init j ∧ d.Done g s) (jobs.code j) fun _ _ s => d.Done g s

lemma Ok.step (hjobs : Sound d jobs) (h : w.Ok d) {e : Event J I} (hallow : w.Allowed d e) :
    (w.step lang jobs e).Ok d := by
  cases e with
  | spawn g j =>
    simp only [World.step]
    cases hctl : (w.threads g).ctl with
    | done => exact h.spawn hctl fun s hinv hdone => hjobs j g _ s hinv ⟨rfl, hdone⟩
    | ready p => exact h
    | run p k => exact h
  | step g i =>
    simp only [World.step]
    split_ifs with hturn
    · exact h.stepThread hturn (hallow hturn)
    · exact h

lemma Ok.run (hjobs : Sound d jobs) (h : w.Ok d) {es : List (Event J I)}
    (hes : Machine.Guarded (World.step lang jobs) (Allowed d) w es) :
    (Machine.run (World.step lang jobs) w es).Ok d :=
  Machine.run_inv (I := Ok d) (fun _ _ h hg => h.step hjobs hg) h hes

lemma Ok.done (h : w.Ok d) {g : ℕ} (hg : (w.threads g).ctl = .done) : d.Done g w.shared := by
  have hneed := h.need g
  rw [hg] at hneed
  exact hneed

def idle (s : S) (l : L) : World A C K L S := { shared := s, threads := fun _ => ⟨.done, l⟩ }

lemma ok_idle {s : S} {l : L} (hinv : d.Inv s) (hdone : ∀ g, d.Done g s) :
    (idle s l : World A C K L S).Ok d :=
  ⟨hinv, hdone, fun _ _ => trivial⟩

end World

/-! ## Invariants

Where what holds is a property of the shared state alone, kept by every action that is allowed, the
greenlets owe each other nothing else. -/

def Discipline.ofInv (lang : Lang A C K I L S) (Inv : S → Prop) (allow : A → I → ℕ → L → S → Prop) :
    Discipline lang where
  Inv := Inv
  Rely _ _ _ := True
  Done _ _ := True
  allowAct := allow
  allowExit _ _ _ _ _ := True
  rely_refl _ _ := trivial
  rely_trans _ _ := trivial
  done_stable _ _ := trivial

section Invariants

variable {Inv : S → Prop} {allow : A → I → ℕ → L → S → Prop} {jobs : Jobs J A C K L}

instance [∀ a i g l s, Decidable (allow a i g l s)] (a : A) (i : I) (g : ℕ) (l : L) (s : S) :
    Decidable ((Discipline.ofInv lang Inv allow).allowAct a i g l s) :=
  inferInstanceAs (Decidable (allow a i g l s))

instance (k : K) (x : Exit) (g : ℕ) (l : L) (s : S) :
    Decidable ((Discipline.ofInv lang Inv allow).allowExit k x g l s) :=
  inferInstanceAs (Decidable True)

lemma World.sound_ofInv {f : A → Bool → Bool} (hcode : ∀ j, (jobs.code j).all f)
    (hwait : ∀ a i g l s, lang.eff a i g l s = .block → f a false = false)
    (hact : ∀ a wait i g l s, f a wait → Inv s → allow a i g l s → (lang.eff a i g l s).Leaves Inv) :
    World.Sound (Discipline.ofInv lang Inv allow) jobs := by
  intro j g
  have htriple := Discipline.Triple.of_acts (d := Discipline.ofInv lang Inv allow) (g := g)
    (P := fun _ _ => True) (fun _ _ _ _ _ _ => trivial) (fun a wait ha l s i hinv _ hallow => ?_)
    (hcode j)
  · exact (htriple.pre fun _ _ _ _ => trivial).post fun _ _ _ _ _ => trivial
  · have hleaves := hact a wait i g l s ha hinv hallow
    have hblock := hwait a i g l s
    generalize lang.eff a i g l s = r at hleaves hblock
    cases r with
    | ok l' s' => exact ⟨hleaves, fun _ _ => trivial, trivial⟩
    | raise l' s' => exact ⟨hleaves, fun _ _ => trivial, trivial⟩
    | block =>
      cases wait with
      | true => rfl
      | false => cases ha.symm.trans (hblock rfl)

lemma World.run_ofInv {f : A → Bool → Bool} (hcode : ∀ j, (jobs.code j).all f)
    (hwait : ∀ a i g l s, lang.eff a i g l s = .block → f a false = false)
    (hact : ∀ a wait i g l s, f a wait → Inv s → allow a i g l s → (lang.eff a i g l s).Leaves Inv)
    {s : S} {l : L} (hstart : Inv s) {es : List (Event J I)}
    (hes : Machine.Guarded (World.step lang jobs) (World.Allowed (Discipline.ofInv lang Inv allow))
      (World.idle s l) es) : Inv (Machine.run (World.step lang jobs) (World.idle s l) es).shared :=
  ((World.ok_idle hstart fun _ => trivial).run (World.sound_ofInv hcode hwait hact) hes).inv

end Invariants

end Logic

end Greenlet
