/-
# `Urb.ElectionCallbacks` — the elected and the demoted callback take turns

The loop of the elector compares what it believed at the start of a round with what
the broker has answered.  An exception of the broker ends the round before the belief
is changed; one of the refresh or of a callback is only logged.

    belief before   answer         callback
    not master      own id         elected, after the refresh
    master          another id     demoted
    otherwise                      none

**Proved here.**  Whatever the broker answers and whichever calls raise, the callbacks
are invoked by turns, starting with elected; and whenever no round is under way, the last
one invoked is elected exactly if the elector believes to be the master
(`callbacks_alternate`).
-/
import Urb.BackgroundLoops

namespace Urb.MasterElector

abbrev ElectorEvent := LoopEvent (Option String) Unit (Option String)

abbrev new (id : String) : Config := { serverId := id }

def Call.callback : LoopPc Call → Option Call
  | .inCall .elected => some .elected
  | .inCall .demoted => some .demoted
  | _ => none

structure CallbackLog where
  loop : LoopState Empty Call (Option String)
  invoked : List Call := []

def CallbackLog.step (cfg : Config) (w : CallbackLog) (e : ElectorEvent) : CallbackLog :=
  let loop := (elect cfg).step w.loop e
  { loop := loop
    invoked := if loop.pc = w.loop.pc then w.invoked
      else (Call.callback loop.pc).toList ++ w.invoked }

def Own : ElectorEvent → Prop
  | .environment _ => False
  | _ => True

def callbackAt (i : ℕ) : Call := if i % 2 = 0 then .elected else .demoted

def turns (n : ℕ) : List Call := ((List.range n).map callbackAt).reverse

def CallbackLog.isMaster (cfg : Config) (w : CallbackLog) : Bool := w.loop.data = some cfg.serverId

def CallbackLog.atRest (w : CallbackLog) : Prop :=
  w.loop.pc = .top ∨ w.loop.pc = .between ∨ w.loop.pc = .exited

/-! ## One step -/

def Agrees (master last : Bool) : LoopPc Call → Prop
  | .inCall (.determineMaster were) => were = master ∧ last = master
  | .inCall (.refreshMaster were) => master = true ∧ last = were
  | .inCall .elected => master = true ∧ last = true
  | .inCall .demoted => master = false ∧ last = false
  | .died => False
  | _ => last = master

def CallbackLog.Inv (cfg : Config) (w : CallbackLog) : Prop :=
  ∃ n, w.invoked = turns n ∧ Agrees (w.isMaster cfg) (n % 2 = 1) w.loop.pc

lemma turns_succ (n : ℕ) : turns (n + 1) = callbackAt n :: turns n := by
  simp [turns, List.range_succ]

namespace CallbackLog

variable {id : String} {w : CallbackLog} {e : ElectorEvent} {n : ℕ}
  {loop : LoopState Empty Call (Option String)}

lemma inv_of_silent (hstep : (elect (new id)).step w.loop e = loop)
    (hn : w.invoked = turns n) (hc : loop.pc = w.loop.pc ∨ Call.callback loop.pc = none)
    (ha : Agrees (loop.data = some id) (n % 2 = 1) loop.pc) : (w.step (new id) e).Inv (new id) := by
  subst hstep
  refine ⟨n, ?_, ha⟩
  rcases hc with hc | hc
  · exact (if_pos hc).trans hn
  · simp [step, hc, hn]

lemma inv_of_turn (hstep : (elect (new id)).step w.loop e = loop) (hn : w.invoked = turns n)
    (hpc : loop.pc ≠ w.loop.pc) (hc : Call.callback loop.pc = some (callbackAt n))
    (ha : Agrees (loop.data = some id) ((n + 1) % 2 = 1) loop.pc) :
    (w.step (new id) e).Inv (new id) := by
  subst hstep
  refine ⟨n + 1, ?_, ha⟩
  have hnew : (w.step (new id) e).invoked = _ := if_neg hpc
  rw [hnew, hc, hn, turns_succ]
  rfl

lemma step_returns {c : Call} (hpc : w.loop.pc = .inCall c) (r : Option String) :
    (elect (new id)).step w.loop (.returns r) =
      w.loop.resume ((elect (new id)).returns c r w.loop.data) := by
  simp only [BackgroundLoop.step, hpc]

lemma step_raises {c : Call} (hpc : w.loop.pc = .inCall c) (r : Unit) :
    (elect (new id)).step w.loop (.raises r) =
      w.loop.resume ((elect (new id)).raises c r w.loop.data) := by
  simp only [BackgroundLoop.step, hpc]

lemma inv_answer {were : Bool} (hn : w.invoked = turns n)
    (hpc : w.loop.pc = .inCall (.determineMaster were))
    (hlast : decide (n % 2 = 1) = were)
    (master : Option String) : (w.step (new id) (.returns master)).Inv (new id) := by
  have hstep : (elect (new id)).step w.loop (.returns master) =
      { w.loop with data := master }.continueWith (afterDetermine (new id) were master) :=
    step_returns hpc master
  by_cases hm : master = some id
  · have hnext : afterDetermine (new id) were master = .call (.refreshMaster were) := if_pos hm
    rw [hnext] at hstep
    exact inv_of_silent hstep hn (.inr rfl) ⟨decide_eq_true hm, hlast⟩
  · cases were with
    | true =>
      have hnext : afterDetermine (new id) true master = .call .demoted := if_neg hm
      have hodd : n % 2 = 1 := of_decide_eq_true hlast
      rw [hnext] at hstep
      exact inv_of_turn hstep hn (by simp [hpc, LoopState.continueWith])
        (by simp [LoopState.continueWith, Call.callback, callbackAt, hodd])
        ⟨decide_eq_false hm, decide_eq_false (by omega)⟩
    | false =>
      have hnext : afterDetermine (new id) false master = .done := if_neg hm
      rw [hnext] at hstep
      exact inv_of_silent hstep hn (.inr rfl) (hlast.trans (decide_eq_false hm).symm)

lemma inv_refreshed {were : Bool} (hn : w.invoked = turns n)
    (hpc : w.loop.pc = .inCall (.refreshMaster were)) (hm : decide (w.loop.data = some id))
    (hlast : decide (n % 2 = 1) = were)
    (hstep : (elect (new id)).step w.loop e = w.loop.continueWith (afterRefresh (new id) were)) :
    (w.step (new id) e).Inv (new id) := by
  cases were with
  | true => exact inv_of_silent hstep hn (.inr rfl) (hlast.trans hm.symm)
  | false =>
    have heven : n % 2 = 0 := by simpa using hlast
    exact inv_of_turn hstep hn (by simp [hpc, afterRefresh, LoopState.continueWith])
      (by simp [afterRefresh, LoopState.continueWith, Call.callback, callbackAt, heven])
      ⟨hm, decide_eq_true (by omega)⟩

lemma Inv.step (h : w.Inv (new id)) (he : Own e) : (w.step (new id) e).Inv (new id) := by
  obtain ⟨n, hn, ha⟩ := h
  -- most events change neither the place nor the belief
  have same {loop : LoopState Empty Call (Option String)} (hpc : loop.pc = w.loop.pc)
      (hdata : loop.data = w.loop.data) (hstep : (elect (new id)).step w.loop e = loop) :
      (w.step (new id) e).Inv (new id) :=
    inv_of_silent hstep hn (.inl hpc) (by rw [hpc, hdata]; exact ha)
  have ends (hstep : (elect (new id)).step w.loop e = { w.loop with pc := .between })
      (hlast : decide (n % 2 = 1) = decide (w.loop.data = some id)) :
      (w.step (new id) e).Inv (new id) :=
    inv_of_silent hstep hn (.inr rfl) hlast
  cases e with
  | stop =>
    have hstep : (elect (new id)).step w.loop .stop = { w.loop with flag := false } := rfl
    exact inv_of_silent hstep hn (.inl rfl) ha
  | environment f => exact he.elim
  | go =>
    cases hpc : w.loop.pc with
    | top =>
      rw [hpc] at ha
      cases hflag : w.loop.flag with
      | true =>
        have hstep : (elect (new id)).step w.loop .go =
            { w.loop with pc := .inCall (.determineMaster (w.loop.data = some id)) } := by
          simp [BackgroundLoop.step, BackgroundLoop.goOn, hpc, hflag, elect, LoopState.continueWith]
        exact inv_of_silent hstep hn (.inr rfl) ⟨rfl, ha⟩
      | false =>
        have hstep : (elect (new id)).step w.loop .go = { w.loop with pc := .exited } := by
          simp [BackgroundLoop.step, BackgroundLoop.goOn, hpc, hflag]
        exact inv_of_silent hstep hn (.inr rfl) ha
    | between =>
      rw [hpc] at ha
      have hleft : w.loop.left = [] := List.eq_nil_iff_forall_not_mem.mpr fun i => i.elim
      have hstep : (elect (new id)).step w.loop .go = { w.loop with pc := .top } := by
        simp [BackgroundLoop.step, BackgroundLoop.goOn, hpc, hleft]
      exact inv_of_silent hstep hn (.inr rfl) ha
    | _ => exact same rfl rfl (by simp [BackgroundLoop.step, BackgroundLoop.goOn, hpc])
  | returns master =>
    cases hpc : w.loop.pc with
    | inCall c =>
      rw [hpc] at ha
      have hstep : (elect (new id)).step w.loop (.returns master) = _ := step_returns hpc master
      cases c with
      | determineMaster were => exact inv_answer hn hpc (ha.2.trans ha.1.symm) master
      | refreshMaster were => exact inv_refreshed hn hpc ha.1 ha.2 hstep
      | elected => exact ends hstep (ha.2.trans ha.1.symm)
      | demoted => exact ends hstep (ha.2.trans ha.1.symm)
    | _ => exact same rfl rfl (by simp [BackgroundLoop.step, hpc])
  | raises exception =>
    cases hpc : w.loop.pc with
    | inCall c =>
      rw [hpc] at ha
      have hstep : (elect (new id)).step w.loop (.raises exception) = _ := step_raises hpc exception
      cases c with
      | determineMaster were => exact ends hstep ha.2
      | refreshMaster were => exact inv_refreshed hn hpc ha.1 ha.2 hstep
      | elected => exact ends hstep (ha.2.trans ha.1.symm)
      | demoted => exact ends hstep (ha.2.trans ha.1.symm)
    | _ => exact same rfl rfl (by simp [BackgroundLoop.step, hpc])

end CallbackLog

theorem callbacks_alternate (id : String) (es : List (ElectorEvent))
    (hes : ∀ e ∈ es, Own e) :
    let w := Machine.run (CallbackLog.step (new id)) { loop := BackgroundLoop.started none } es
    (∃ n, w.invoked = turns n) ∧
      (w.atRest → (w.invoked.head? = some .elected ↔ w.isMaster (new id) = true)) := by
  intro w
  have hinv : w.Inv (new id) :=
    List.foldlRecOn es _ (motive := CallbackLog.Inv (new id)) ⟨0, rfl, rfl⟩
      fun _ h e he => h.step (hes e he)
  obtain ⟨n, hn, ha⟩ := hinv
  refine ⟨⟨n, hn⟩, fun hrest => ?_⟩
  have hlast : decide (n % 2 = 1) = w.isMaster (new id) := by
    rcases hrest with hpc | hpc | hpc <;> rw [hpc] at ha <;> exact ha
  rw [← hlast, hn, decide_eq_true_iff]
  cases n with
  | zero => simp [turns]
  | succ n =>
    rw [turns_succ, List.head?_cons, callbackAt]
    split_ifs with heven
    · exact iff_of_true rfl (by omega)
    · exact iff_of_false (by simp) (by omega)

theorem callbacks_alternate_demoted :
    let es := [.go, .returns (some "me"), .returns none, .raises (), .go, .go, .raises (), .go, .go,
      .returns (some "other"), .raises ()]
    let w := Machine.run (CallbackLog.step (new "me")) { loop := BackgroundLoop.started none } es
    w.invoked = [.demoted, .elected] ∧ ((∃ n, w.invoked = turns n) ∧
      (w.atRest → (w.invoked.head? = some .elected ↔ w.isMaster (new "me") = true))) :=
  ⟨by decide +kernel, callbacks_alternate "me" _ (by simp [Own])⟩

end Urb.MasterElector
