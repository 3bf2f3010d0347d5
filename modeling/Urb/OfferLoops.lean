/-
# `Urb.OfferLoops` — one offer loop for a framework

A registration that finds no `offer_event` in the framework makes one and spawns
`__generate_offers`.  An id that is removed and registers AGAIN while the old loop
waits gets a second one, and the old one goes on, with the event of the old
framework:

    loop 1      waits for event 0 ........................... wakes, finds the framework
    the id                  removed     registers, event 1
    loop 2                                       starts, waits for event 1

`Anew` is what the registrations must meet.

**Proved here.**  In every run whose registrations meet it, at most one loop of
an id will still make offers, and it waits on the event that the other requests
set (`one_offer_loop`).
-/
import Urb.Lifecycle

namespace Urb

open AList Function

namespace Lifecycle

open Greenlet (Result Discipline)

def OfferLoop.Live (s : State) (L : OfferLoop) : Prop :=
  L.event ≠ none ∧
    match L.phase with
    | .idle => s.master = true ∧ s.framework L.id ≠ none
    | .pausing => s.master = true
    | .offering => True

instance (s : State) (L : OfferLoop) : Decidable (L.Live s) :=
  match h : L.phase with
  | .idle => decidable_of_iff (L.event ≠ none ∧ s.master = true ∧ s.framework L.id ≠ none)
      (by simp only [OfferLoop.Live, h])
  | .pausing => decidable_of_iff (L.event ≠ none ∧ s.master = true) (by simp only [OfferLoop.Live, h])
  | .offering => decidable_of_iff (L.event ≠ none) (by simp only [OfferLoop.Live, h, and_true])

structure State.OneLoop (s : State) : Prop where
  one : ∀ g g' L L', s.loops.lookup g = some L → s.loops.lookup g' = some L' → L.Live s → L'.Live s →
    L.id = L'.id → g = g'
  event : ∀ g L, s.loops.lookup g = some L → L.Live s → ∀ e ∈ s.wakes L.id, L.event = some e

def Anew (l : Local) (s : State) : Prop :=
  s.framework l.hub.id = none → s.spawned l.hub.id = 0 ∧ ∀ L ∈ s.loops.values, L.id ≠ l.hub.id

instance (l : Local) (s : State) : Decidable (Anew l s) := inferInstanceAs (Decidable (_ → _))

def LoopAct (a : Act) (_ : Outside) (_ : ℕ) (l : Local) (s : State) : Prop :=
  a = .register → Anew l s

instance (a : Act) (i : Outside) (g : ℕ) (l : Local) (s : State) : Decidable (LoopAct a i g l s) :=
  inferInstanceAs (Decidable (_ → _))

/-! ## A registration -/

lemma spawned_registerFramework (l : Local) (s : State) (k : String) :
    (registerFramework l s).2.spawned k =
      if (s.framework l.hub.id).bind s.offerEvent = none ∧ k = l.hub.id then s.spawned k + 1
      else s.spawned k := by
  show (if (s.framework l.hub.id).bind s.offerEvent = none then
    update s.spawned l.hub.id (s.spawned l.hub.id + 1) else s.spawned) k = _
  by_cases hnone : (s.framework l.hub.id).bind s.offerEvent = none
  · by_cases hk : k = l.hub.id
    · subst hk
      simp [hnone]
    · simp [hnone, hk]
  · simp [hnone]

lemma offerEvent_registered (l : Local) (s : State) :
    (registerFramework l s).2.offerEvent (registered l s) =
      some (((s.framework l.hub.id).bind s.offerEvent).getD s.nextEvent) := update_self ..

/-! ## The invariant -/

structure LoopsSound (s : State) : Prop extends Registered s where
  spawned : ∀ id, s.spawned id ≤ 1
  apart : ∀ id, s.spawned id ≠ 0 → ∀ g L, s.loops.lookup g = some L → L.id ≠ id
  waits : ∀ id, s.spawned id ≠ 0 → ∀ o, s.framework id = some o → s.offerEvent o ≠ none
  one : ∀ g g' L L', s.loops.lookup g = some L → s.loops.lookup g' = some L' → L.id = L'.id → g = g'
  event : ∀ g L, s.loops.lookup g = some L → L.event ≠ none ∧
    ∀ o, s.framework L.id = some o → s.offerEvent o = L.event
  held : ∀ g L, s.loops.lookup g = some L → ∀ o ∈ L.framework,
    o < s.hub.nextFramework ∧ s.frameworkId o = L.id

namespace LoopsSound

variable {s : State} {l : Local} {g : ℕ}

lemma start : LoopsSound {} :=
  ⟨Registered.start, fun _ => Nat.zero_le 1, fun _ h => absurd rfl h, fun _ h => absurd rfl h,
    fun _ _ _ _ hL => absurd hL (not_mem_none _), fun _ _ hL => absurd hL (not_mem_none _),
    fun _ _ hL => absurd hL (not_mem_none _)⟩

variable (h : LoopsSound s)
include h

lemma oneLoop : s.OneLoop := by
  refine ⟨fun g g' L L' hL hL' _ _ => h.one g g' L L' hL hL', fun g L hL _ e he => ?_⟩
  obtain ⟨o, ho, hevent⟩ := bind_eq_some_iff.mp he
  exact ((h.event g L hL).2 o ho).symm.trans hevent

lemma of_eq {s' : State} (hhub : s'.hub = s.hub) (hid : s'.frameworkId = s.frameworkId)
    (hevent : s'.offerEvent = s.offerEvent) (hspawned : s'.spawned = s.spawned)
    (hloops : s'.loops = s.loops) : LoopsSound s' := by
  have hframework : s'.framework = s.framework := framework_congr hhub
  constructor
  · exact h.toRegistered.of_eq hhub hid
  · rw [hspawned]
    exact h.spawned
  · rw [hspawned, hloops]
    exact h.apart
  · rw [hspawned, hframework, hevent]
    exact h.waits
  · rw [hloops]
    exact h.one
  · rw [hloops, hframework, hevent]
    exact h.event
  · rw [hloops, hhub, hid]
    exact h.held

lemma removes {hub : Shared} (hr : Removes s.hub hub) : LoopsSound { s with hub := hub } := by
  refine ⟨h.toRegistered.removes hr, h.spawned, h.apart, fun id hid o ho => ?_, h.one,
    fun g L hL => ⟨(h.event g L hL).1, fun o ho => ?_⟩, fun g L hL o ho => ?_⟩
  · exact h.waits id hid o (hr.get_some ho)
  · exact (h.event g L hL).2 o (hr.get_some ho)
  · rw [hr.nextFramework]
    exact h.held g L hL o ho

lemma modifyLoop {f : OfferLoop → OfferLoop} (hid : ∀ L, (f L).id = L.id)
    (hevent : ∀ L, (f L).event = L.event)
    (hheld : ∀ L, s.loops.lookup g = some L → ∀ o ∈ (f L).framework,
      o < s.hub.nextFramework ∧ s.frameworkId o = L.id) :
    LoopsSound { s with loops := s.loops.modify g f } := by
  have hlook : ∀ {k L'}, (s.loops.modify g f).lookup k = some L' →
      ∃ L, s.loops.lookup k = some L ∧ L'.id = L.id ∧ L'.event = L.event ∧
        ∀ o ∈ L'.framework, o < s.hub.nextFramework ∧ s.frameworkId o = L.id := by
    intro k L' hL'
    rcases lookup_modify_cases hL' with ⟨rfl, L, hL, rfl⟩ | ⟨-, hL'⟩
    · exact ⟨L, hL, hid L, hevent L, hheld L hL⟩
    · exact ⟨L', hL', rfl, rfl, h.held k L' hL'⟩
  refine ⟨⟨h.fresh, h.ids⟩, h.spawned, fun id hs k L' hL' => ?_, h.waits,
    fun k k' L₁ L₂ h₁ h₂ he => ?_, fun k L' hL' => ?_, fun k L' hL' => ?_⟩
  · obtain ⟨L, hL, hi, -⟩ := hlook hL'
    exact hi ▸ h.apart id hs k L hL
  · obtain ⟨M₁, hM₁, hi₁, -⟩ := hlook h₁
    obtain ⟨M₂, hM₂, hi₂, -⟩ := hlook h₂
    exact h.one k k' M₁ M₂ hM₁ hM₂ (hi₁ ▸ hi₂ ▸ he)
  · obtain ⟨L, hL, hi, he, -⟩ := hlook hL'
    rw [hi, he]
    exact h.event k L hL
  · obtain ⟨L, hL, hi, -, hh⟩ := hlook hL'
    rw [hi]
    exact hh

lemma leave (g : ℕ) : LoopsSound { s with loops := s.loops.erase g } := by
  have hlook : ∀ {k L}, (s.loops.erase g).lookup k = some L → s.loops.lookup k = some L :=
    fun hL => (lookup_erase_eq_some_iff.mp hL).2
  exact ⟨⟨h.fresh, h.ids⟩, h.spawned, fun id hs k L hL => h.apart id hs k L (hlook hL), h.waits,
    fun k k' L L' hL hL' => h.one k k' L L' (hlook hL) (hlook hL'),
    fun k L hL => h.event k L (hlook hL), fun k L hL => h.held k L (hlook hL)⟩

lemma quit (g : ℕ) : LoopsSound (quitOffers g s) := by
  unfold quitOffers
  split
  · exact h.leave g
  · next o ho =>
      obtain ⟨L, hL, hheld⟩ := bind_eq_some_iff.mp ho
      have hid : s.frameworkId o = L.id := (h.held g L hL o hheld).2
      have hleave := h.leave g
      -- the framework of another id is another one
      have hother : ∀ {k o'}, k ≠ L.id → s.framework k = some o' →
          update s.offerEvent o none o' = s.offerEvent o' := by
        intro k o' hk ho'
        refine update_of_ne (fun he => hk ?_) _ _
        rw [← h.ids k o' ho', he, hid]
      refine ⟨⟨h.fresh, h.ids⟩, h.spawned, hleave.apart, fun k hk o' ho' => ?_, hleave.one,
        fun g' L' hL' => ⟨(hleave.event g' L' hL').1, fun o' ho' => ?_⟩, hleave.held⟩
      · have hne : k ≠ L.id := fun he => h.apart k hk g L hL he.symm
        show update s.offerEvent o none o' ≠ none
        rw [hother hne ho']
        exact h.waits k hk o' ho'
      · have hne : L'.id ≠ L.id := by
          intro he
          obtain ⟨hg, hL'⟩ := lookup_erase_eq_some_iff.mp hL'
          exact hg (h.one g' g L' L hL' hL he)
        exact (hother hne ho').trans ((hleave.event g' L' hL').2 o' ho')

lemma none_left (hanew : Anew l s) (hnone : (s.framework l.hub.id).bind s.offerEvent = none) :
    s.spawned l.hub.id = 0 ∧ ∀ g L, s.loops.lookup g = some L → L.id ≠ l.hub.id := by
  cases hknown : s.framework l.hub.id with
  | none =>
    obtain ⟨hspawned, hloops⟩ := hanew hknown
    exact ⟨hspawned, fun g L hL => hloops L (mem_values_iff.mpr ⟨g, hL⟩)⟩
  | some o =>
    rw [hknown] at hnone
    have hevent : s.offerEvent o = none := hnone
    refine ⟨by_contra fun hs => h.waits _ hs o hknown hevent, fun g L hL he => ?_⟩
    obtain ⟨hsome, hsame⟩ := h.event g L hL
    exact hsome ((hsame o (he ▸ hknown)).symm.trans hevent)

lemma register (hanew : Anew l s) : LoopsSound (registerFramework l s).2 := by
  have hfree := h.none_left hanew
  have hother : ∀ {k o}, k ≠ l.hub.id → s.framework k = some o →
      (registerFramework l s).2.offerEvent o = s.offerEvent o := fun hk ho =>
    update_of_ne (h.toRegistered.ne_registered ho hk) _ _
  refine ⟨h.toRegistered.registerFramework, fun k => ?_, fun k hk g L hL => ?_, fun k hk o ho => ?_,
    h.one, fun g L hL => ⟨(h.event g L hL).1, fun o ho => ?_⟩, fun g L hL o ho => ?_⟩
  · rw [spawned_registerFramework]
    split_ifs with hnew
    · rw [hnew.2, (hfree hnew.1).1]
    · exact h.spawned k
  · rw [spawned_registerFramework] at hk
    split_ifs at hk with hnew
    · rw [hnew.2]
      exact (hfree hnew.1).2 g L hL
    · exact h.apart k hk g L hL
  · rw [framework_registerFramework] at ho
    split_ifs at ho with hid
    · cases ho
      rw [offerEvent_registered]
      exact some_ne_none _
    · rw [hother hid ho]
      rw [spawned_registerFramework, if_neg fun hnew => hid hnew.2] at hk
      exact h.waits k hk o ho
  · rw [framework_registerFramework] at ho
    split_ifs at ho with hid
    · cases ho
      rw [offerEvent_registered]
      cases hknown : (s.framework l.hub.id).bind s.offerEvent with
      | none => exact absurd hid ((hfree hknown).2 g L hL)
      | some e =>
        obtain ⟨o, ho, hevent⟩ := bind_eq_some_iff.mp hknown
        exact hevent.symm.trans ((h.event g L hL).2 o (hid ▸ ho))
    · rw [hother hid ho]
      exact (h.event g L hL).2 o ho
  · obtain ⟨hlt, hid⟩ := h.held g L hL o ho
    exact ⟨hlt.trans_le (Registered.le_nextFramework l s),
      (h.toRegistered.frameworkId_registerFramework hlt).trans hid⟩

lemma unspawn (id : String) : LoopsSound { s with spawned := update s.spawned id 0 } := by
  have hless : ∀ {k}, update s.spawned id 0 k ≠ 0 → s.spawned k ≠ 0 := by
    intro k hk hzero
    rw [update_apply, hzero, ite_self] at hk
    exact hk rfl
  refine ⟨⟨h.fresh, h.ids⟩, fun k => ?_, fun k hk => h.apart k (hless hk),
    fun k hk => h.waits k (hless hk), h.one, h.event, h.held⟩
  show update s.spawned id 0 k ≤ 1
  rw [update_apply]
  split_ifs
  · exact Nat.zero_le 1
  · exact h.spawned k

lemma enter {id : String} {o : ℕ} (ho : s.framework id = some o) (hevent : s.offerEvent o ≠ none)
    (hspawned : s.spawned id = 0) (hmine : ∀ g L, s.loops.lookup g = some L → L.id ≠ id) (g : ℕ) :
    LoopsSound { s with loops := s.loops.insert g { id := id, event := s.offerEvent o } } := by
  refine ⟨⟨h.fresh, h.ids⟩, h.spawned, fun k hk g' L hL => ?_, h.waits, fun k k' L L' hL hL' he => ?_,
    fun k L hL => ?_, fun k L hL o' ho' => ?_⟩
  · rcases lookup_insert_eq_some_iff.mp hL with ⟨-, rfl⟩ | ⟨-, hold⟩
    · rintro rfl
      exact hk hspawned
    · exact h.apart k hk g' L hold
  · rcases lookup_insert_eq_some_iff.mp hL with ⟨rfl, rfl⟩ | ⟨-, hold⟩
    · rcases lookup_insert_eq_some_iff.mp hL' with ⟨rfl, -⟩ | ⟨-, hold'⟩
      · rfl
      · exact absurd he.symm (hmine k' L' hold')
    · rcases lookup_insert_eq_some_iff.mp hL' with ⟨-, rfl⟩ | ⟨-, hold'⟩
      · exact absurd he (hmine k L hold)
      · exact h.one k k' L L' hold hold' he
  · rcases lookup_insert_eq_some_iff.mp hL with ⟨-, rfl⟩ | ⟨-, hold⟩
    · refine ⟨hevent, fun o' ho' => ?_⟩
      cases ho.symm.trans ho'
      rfl
    · exact h.event k L hold
  · rcases lookup_insert_eq_some_iff.mp hL with ⟨-, rfl⟩ | ⟨-, hold⟩
    · cases ho'
    · exact h.held k L hold o' ho'

lemma beginOffers : (beginOffers g l s).Leaves LoopsSound := by
  unfold Lifecycle.beginOffers
  split_ifs with hzero
  · trivial
  · have hone : s.spawned l.hub.id - 1 = 0 := Nat.sub_eq_zero_of_le (h.spawned _)
    rw [hone]
    dsimp only
    split
    · exact h.unspawn l.hub.id
    · next o ho =>
        exact (h.unspawn l.hub.id).enter ho (h.waits _ hzero o ho) (update_self ..)
          (h.apart l.hub.id hzero) g

lemma checkFramework : LoopsSound (checkFramework g l s).2 := by
  refine h.modifyLoop (fun _ => rfl) (fun _ => rfl) fun L hL o ho => ?_
  have ho' : s.framework L.id = some o := by
    have hbind : (s.loops.lookup g).bind (fun L => s.framework L.id) = some o := ho
    rwa [hL] at hbind
  exact ⟨h.fresh _ _ ho', h.ids _ _ ho'⟩

lemma eff {a : Act} {wait : Bool} (ha : awaited a wait) {i : Outside}
    (hallow : LoopAct a i g l s) : (eff a i g l s).Leaves LoopsSound := by
  cases a with
  | hub a =>
    have hne : a ≠ .register := by
      rintro rfl
      cases ha
    exact leaves_eff_hub (fun _ => h.removes) hne i g l
  | register => exact h.register (hallow rfl)
  | begin => exact h.beginOffers
  | check => exact h.checkFramework
  | quit => exact h.quit g
  | leave => exact h.leave g
  | clear =>
    simp only [Lifecycle.eff, clearEvent]
    split
    · exact h
    · exact h.modifyLoop (fun _ => rfl) (fun _ => rfl) fun L hL => h.held g L hL
  | rest => exact h.modifyLoop (fun _ => rfl) (fun _ => rfl) fun _ _ o ho => absurd ho (not_mem_none o)
  | expire =>
    simp only [Lifecycle.eff, expireFramework]
    split
    · exact h
    · next x _ =>
        have hremoved := h.removes (.remove s.hub x.id)
        split_ifs <;> exact hremoved.of_eq rfl rfl rfl rfl rfl
  | settle => exact h.of_eq rfl rfl rfl rfl rfl
  | examine =>
    cases i with
    | channel c id =>
      simp only [Lifecycle.eff, examineChannel]
      split
      · exact h.of_eq rfl rfl rfl rfl rfl
      · split_ifs
        · split <;> exact h.of_eq rfl rfl rfl rfl rfl
        · exact h
    | _ => exact h
  | heartbeat => cases i <;> first | exact h | exact h.of_eq rfl rfl rfl rfl rfl
  | watch => cases i <;> first | exact h | exact h.of_eq rfl rfl rfl rfl rfl
  | tick => cases i <;> first | exact h | exact h.of_eq rfl rfl rfl rfl rfl
  | elect => cases i <;> first | exact h | exact h.of_eq rfl rfl rfl rfl rfl

end LoopsSound

/-! ## Runs -/

abbrev loopDiscipline : Discipline lang := .ofInv lang LoopsSound LoopAct

theorem one_offer_loop (es : List Event)
    (hes : Machine.Guarded step (Greenlet.World.Allowed loopDiscipline) start es) :
    (Machine.run step start es).shared.OneLoop := by
  have hsound : LoopsSound (Machine.run step start es).shared :=
    Greenlet.World.run_ofInv jobs_awaited (fun _ _ _ _ _ => awaited_of_block)
      (fun _ _ _ _ _ _ ha hinv hallow => hinv.eff ha hallow) .start hes
  exact hsound.oneLoop

def offersOnce (g : ℕ) (id : String) : List Event := .spawn g (.generateOffers id) :: goes g 29

def unregisters (g : ℕ) (id : String) : List Event :=
  .spawn g (.native .unregisterFramework id "") :: goes g 21

def registersAnew : List Event :=
  registers 0 "fw" "fw-1" ++ offersOnce 1 "fw" ++ unregisters 2 "fw" ++ goes 1 11 ++
    registers 3 "fw" "fw-2" ++ offersOnce 4 "fw"

theorem one_offer_loop_anew :
    Machine.Guarded step (Greenlet.World.Allowed loopDiscipline) start registersAnew ∧
      (Machine.run step start registersAnew).shared.OneLoop ∧
      (Machine.run step start registersAnew).shared.loops.entries =
        [⟨4, { id := "fw", event := some 1 }⟩] := by
  have hallowed : Machine.Guarded step (Greenlet.World.Allowed loopDiscipline) start registersAnew := by
    decide +kernel
  exact ⟨hallowed, one_offer_loop _ hallowed, by decide +kernel⟩

def registersDuringWait : List Event :=
  registers 0 "fw" "fw-1" ++ offersOnce 1 "fw" ++ unregisters 2 "fw" ++
    registers 3 "fw" "fw-2" ++ offersOnce 4 "fw" ++ goes 1 14

theorem two_offer_loops : ¬ (Machine.run step start registersDuringWait).shared.OneLoop := by
  have hold : (Machine.run step start registersDuringWait).shared.loops.lookup 1 =
      some { id := "fw", event := some 0, phase := .offering, framework := some 1 } := by
    decide +kernel
  have hnew : (Machine.run step start registersDuringWait).shared.loops.lookup 4 =
      some { id := "fw", event := some 1 } := by
    decide +kernel
  intro h
  have hsame : 1 = 4 := h.one 1 4 _ _ hold hnew (by decide +kernel) (by decide +kernel) rfl
  cases hsame

end Lifecycle

end Urb
