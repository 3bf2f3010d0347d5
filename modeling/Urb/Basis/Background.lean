/-
# `Urb.Basis.Background` — loops that are meant to run for ever

A background loop is a thread of its own.  Its rounds go on as long as a flag is set,
which others clear to stop it:

    while flag:
        <what comes before the items of the round>
        for item in items:
            <body>

The loop makes CALLS, and a call returns or raises.  Between two calls the thread runs
alone; during a call anything else may happen.  So the state of a loop is the call it is
in, with the items of the round that it has not come to yet.  An exception that nothing
catches is a result without a continuation; it ends the thread.

**The rule.**  A loop must not end while its flag is set, and no round may end before
all its items have been reached (`Kept`).  It is so in all states of a run exactly if
every exception that escapes does so with the flag cleared and no item left
(`survives_iff`).
-/
import Urb.Basis.Exec

inductive LoopNext (ι κ : Type) where
  | call (c : κ)
  | items (l : List ι)
  | done

structure BackgroundLoop (ι κ ρ ε σ : Type) where
  start : σ → σ × LoopNext ι κ
  body : ι → σ → σ × LoopNext ι κ
  returns : κ → ρ → σ → σ × Option (LoopNext ι κ)
  raises : κ → ε → σ → σ × Option (LoopNext ι κ)
  rank : κ → ℕ
  rank_returns : ∀ c r d c', (returns c r d).2 = some (.call c') → rank c' < rank c
  rank_raises : ∀ c e d c', (raises c e d).2 = some (.call c') → rank c' < rank c

inductive LoopPc (κ : Type) where
  | top
  | between
  | inCall (c : κ)
  | exited
  | died
  deriving DecidableEq

structure LoopState (ι κ σ : Type) where
  flag : Bool := true
  pc : LoopPc κ := .top
  left : List ι := []
  data : σ

inductive LoopEvent (ρ ε σ : Type) where
  | stop
  | environment (f : σ → σ)
  | go
  | returns (result : ρ)
  | raises (exception : ε)

def LoopEvent.isResult {ρ ε σ : Type} : LoopEvent ρ ε σ → Bool
  | .returns _ => true
  | .raises _ => true
  | _ => false

namespace LoopState

variable {ι κ σ : Type}

def continueWith (next : LoopNext ι κ) (s : LoopState ι κ σ) : LoopState ι κ σ :=
  match next with
  | .call c => { s with pc := .inCall c }
  | .items l => { s with pc := .between, left := s.left ++ l }
  | .done => { s with pc := .between }

def resume (r : σ × Option (LoopNext ι κ)) (s : LoopState ι κ σ) : LoopState ι κ σ :=
  match r.2 with
  | some next => { s with data := r.1 }.continueWith next
  | none => { s with data := r.1, pc := .died }

def Ended (s : LoopState ι κ σ) : Prop := s.pc = .exited ∨ s.pc = .died

structure Kept (s : LoopState ι κ σ) : Prop where
  flag : s.Ended → s.flag = false
  round : s.pc = .top ∨ s.Ended → s.left = []

lemma Kept.of_round {s : LoopState ι κ σ} (h : s.pc = .between ∨ ∃ c, s.pc = .inCall c) : s.Kept := by
  have hpc : s.pc ≠ .top ∧ ¬ s.Ended := by
    unfold Ended
    rcases h with h | ⟨c, h⟩ <;> simp [h]
  exact ⟨fun hend => absurd hend hpc.2, fun hround => absurd hround (not_or.mpr hpc)⟩

lemma kept_continueWith (next : LoopNext ι κ) (s : LoopState ι κ σ) : (s.continueWith next).Kept := by
  cases next with
  | call c => exact .of_round (.inr ⟨c, rfl⟩)
  | items l => exact .of_round (.inl rfl)
  | done => exact .of_round (.inl rfl)

def Contained {ρ ε : Type} (A : κ → ρ → Prop) (B : κ → ε → Prop) (s : LoopState ι κ σ) :
    LoopEvent ρ ε σ → Prop
  | .returns result => ∀ c, s.pc = .inCall c → A c result → s.flag = false ∧ s.left = []
  | .raises exception => ∀ c, s.pc = .inCall c → B c exception → s.flag = false ∧ s.left = []
  | _ => True

lemma kept_resume_iff (r : σ × Option (LoopNext ι κ)) (s : LoopState ι κ σ) :
    (s.resume r).Kept ↔ (r.2 = none → s.flag = false ∧ s.left = []) := by
  unfold resume
  cases r.2 with
  | some next => exact iff_of_true (kept_continueWith _ _) fun h => by cases h
  | none =>
    refine ⟨fun h _ => ⟨h.flag (.inr rfl), h.round (.inr (.inr rfl))⟩, fun h => ?_⟩
    exact ⟨fun _ => (h rfl).1, fun _ => (h rfl).2⟩

end LoopState

namespace BackgroundLoop

variable {ι κ ρ ε σ : Type} (L : BackgroundLoop ι κ ρ ε σ)

def goOn (s : LoopState ι κ σ) : LoopState ι κ σ :=
  match s.pc with
  | .top =>
    if s.flag then
      let r := L.start s.data
      { s with data := r.1 }.continueWith r.2
    else { s with pc := .exited }
  | .between =>
    match s.left with
    | [] => { s with pc := .top }
    | i :: rest =>
      let r := L.body i s.data
      { s with data := r.1, left := rest }.continueWith r.2
  | _ => s

def step (s : LoopState ι κ σ) : LoopEvent ρ ε σ → LoopState ι κ σ
  | .stop => { s with flag := false }
  | .environment f => { s with data := f s.data }
  | .go => L.goOn s
  | .returns result =>
    match s.pc with
    | .inCall c => s.resume (L.returns c result s.data)
    | _ => s
  | .raises exception =>
    match s.pc with
    | .inCall c => s.resume (L.raises c exception s.data)
    | _ => s

def started (d : σ) : LoopState ι κ σ := { data := d }

def Moves (s : LoopState ι κ σ) : Prop :=
  ∃ n, ∀ es : List (LoopEvent ρ ε σ), n ≤ es.countP LoopEvent.isResult →
    ∃ fs, fs <+: es ∧ ∀ c, (Machine.run L.step s fs).pc ≠ .inCall c

structure Survives (d : σ) (es : List (LoopEvent ρ ε σ)) : Prop where
  kept : ∀ fs, fs <+: es → (Machine.run L.step (started d) fs).Kept
  moves : ∀ fs, fs <+: es → L.Moves (Machine.run L.step (started d) fs)

variable {L}

/-! ## Progress -/

lemma pc_step_of_result {s : LoopState ι κ σ} {c : κ} (hpc : s.pc = .inCall c) {e : LoopEvent ρ ε σ}
    (he : e.isResult) : (∀ c', (L.step s e).pc ≠ .inCall c') ∨
      ∃ c', (L.step s e).pc = .inCall c' ∧ L.rank c' < L.rank c := by
  have hresume : ∀ r : σ × Option (LoopNext ι κ), (∀ c', r.2 = some (.call c') → L.rank c' < L.rank c) →
      (∀ c', (s.resume r).pc ≠ .inCall c') ∨
        ∃ c', (s.resume r).pc = .inCall c' ∧ L.rank c' < L.rank c := by
    intro r hr
    unfold LoopState.resume
    match hnext : r.2 with
    | none => exact .inl fun _ h => by cases h
    | some (.items _) => exact .inl fun _ h => by cases h
    | some .done => exact .inl fun _ h => by cases h
    | some (.call c') => exact .inr ⟨c', rfl, hr c' hnext⟩
  cases e with
  | stop => cases he
  | environment f => cases he
  | go => cases he
  | returns r =>
    simp only [step, hpc]
    exact hresume _ (L.rank_returns c r s.data)
  | raises e =>
    simp only [step, hpc]
    exact hresume _ (L.rank_raises c e s.data)

lemma pc_step_of_not_result {s : LoopState ι κ σ} {c : κ} (hpc : s.pc = .inCall c)
    {e : LoopEvent ρ ε σ} (he : e.isResult = false) : (L.step s e).pc = .inCall c := by
  cases e with
  | stop => exact hpc
  | environment f => exact hpc
  | go =>
    simp only [step, goOn, hpc]
  | returns r => cases he
  | raises e => cases he

lemma leaves_call : ∀ (es : List (LoopEvent ρ ε σ)) {s : LoopState ι κ σ} {c : κ}, s.pc = .inCall c →
    L.rank c < es.countP LoopEvent.isResult →
      ∃ fs, fs <+: es ∧ ∀ c', (Machine.run L.step s fs).pc ≠ .inCall c'
  | [], _, _, _, hlt => absurd hlt (Nat.not_lt_zero _)
  | e :: es, s, c, hpc, hlt => by
    cases he : e.isResult with
    | false =>
      rw [List.countP_cons_of_neg (by simp [he])] at hlt
      obtain ⟨fs, hfs, hleft⟩ := leaves_call es (pc_step_of_not_result hpc he) hlt
      exact ⟨e :: fs, List.cons_prefix_cons.mpr ⟨rfl, hfs⟩, hleft⟩
    | true =>
      rw [List.countP_cons_of_pos he] at hlt
      rcases pc_step_of_result hpc he with hleft | ⟨c', hpc', hrank⟩
      · exact ⟨[e], List.cons_prefix_cons.mpr ⟨rfl, List.nil_prefix⟩, hleft⟩
      · obtain ⟨fs, hfs, hleft⟩ := leaves_call es hpc' (by omega)
        exact ⟨e :: fs, List.cons_prefix_cons.mpr ⟨rfl, hfs⟩, hleft⟩

lemma moves (s : LoopState ι κ σ) : L.Moves s := by
  cases hpc : s.pc with
  | inCall c => exact ⟨L.rank c + 1, fun es hlt => leaves_call es hpc hlt⟩
  | _ =>
    refine ⟨0, fun es _ => ⟨[], List.nil_prefix, fun c hc => ?_⟩⟩
    rw [Machine.run_nil, hpc] at hc
    cases hc

/-! ## Survival -/

lemma kept_goOn {s : LoopState ι κ σ} (h : s.Kept) : (L.goOn s).Kept := by
  unfold goOn
  cases hpc : s.pc with
  | top =>
    dsimp only
    split_ifs with hflag
    · exact LoopState.kept_continueWith _ _
    · exact ⟨fun _ => Bool.eq_false_iff.mpr hflag, fun _ => h.round (.inl hpc)⟩
  | between =>
    dsimp only
    split
    · next hleft =>
        refine ⟨?_, fun _ => hleft⟩
        rintro (hpc' | hpc') <;> cases hpc'
    · exact LoopState.kept_continueWith _ _
  | inCall c => exact h
  | exited => exact h
  | died => exact h

section Escapes

variable {A : κ → ρ → Prop} {B : κ → ε → Prop} (hA : ∀ c r d, (L.returns c r d).2 = none ↔ A c r)
  (hB : ∀ c e d, (L.raises c e d).2 = none ↔ B c e)

include hA hB

lemma kept_step_iff {s : LoopState ι κ σ} (h : s.Kept) (e : LoopEvent ρ ε σ) :
    (L.step s e).Kept ↔ s.Contained A B e := by
  have hcall : ∀ r : κ → σ × Option (LoopNext ι κ), LoopState.Kept (match s.pc with
        | .inCall c => s.resume (r c)
        | _ => s) ↔ ∀ c, s.pc = .inCall c → (r c).2 = none → s.flag = false ∧ s.left = [] := by
    intro r
    cases s.pc with
    | inCall c =>
      rw [LoopState.kept_resume_iff]
      refine ⟨?_, fun hr => hr c rfl⟩
      rintro hr _ ⟨⟩
      exact hr
    | top => exact iff_of_true h fun _ hc => by cases hc
    | between => exact iff_of_true h fun _ hc => by cases hc
    | exited => exact iff_of_true h fun _ hc => by cases hc
    | died => exact iff_of_true h fun _ hc => by cases hc
  cases e with
  | stop => exact iff_of_true ⟨fun _ => rfl, h.round⟩ trivial
  | environment f => exact iff_of_true ⟨h.flag, h.round⟩ trivial
  | go => exact iff_of_true (kept_goOn h) trivial
  | returns result =>
    refine (hcall fun c => L.returns c result s.data).trans ?_
    simp only [hA, LoopState.Contained]
  | raises exception =>
    refine (hcall fun c => L.raises c exception s.data).trans ?_
    simp only [hB, LoopState.Contained]

lemma survives_iff (d : σ) (es : List (LoopEvent ρ ε σ)) :
    L.Survives d es ↔ Machine.Guarded L.step (LoopState.Contained A B) (started d) es := by
  have hstart : (started d : LoopState ι κ σ).Kept := by
    refine ⟨?_, fun _ => rfl⟩
    rintro (hpc | hpc) <;> cases hpc
  have hkept := Machine.prefixes_iff (I := fun _ => True) (Q := LoopState.Kept)
    (G := LoopState.Contained A B) (P := fun _ _ => True) (fun _ _ _ _ _ => trivial)
    (fun _ e _ hk _ => kept_step_iff hA hB hk e) trivial hstart
    (Machine.guarded_of_forall (fun _ _ => trivial) _ es)
  exact ⟨fun h => hkept.mp h.kept, fun h => ⟨hkept.mpr h, fun _ _ => moves _⟩⟩

end Escapes

lemma survives_of_caught (hreturns : ∀ c r d, (L.returns c r d).2 ≠ none)
    (hraises : ∀ c e d, (L.raises c e d).2 ≠ none) (d : σ) (es : List (LoopEvent ρ ε σ)) :
    L.Survives d es := by
  refine (survives_iff (A := fun _ _ => False) (B := fun _ _ => False)
    (fun c r d => iff_false_intro (hreturns c r d))
    (fun c e d => iff_false_intro (hraises c e d)) d es).mpr ?_
  refine Machine.guarded_of_forall (fun s e => ?_) _ es
  cases e with
  | stop => trivial
  | environment f => trivial
  | go => trivial
  | returns r => exact fun _ _ h => h.elim
  | raises e => exact fun _ _ h => h.elim

end BackgroundLoop
