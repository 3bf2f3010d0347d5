/-
# `Urb.DeferredDeletion` — who carries out the queued deletions

`__delete_elements` is one list for all frameworks, and the post-processor of
whichever native request comes first works it off.  So a queued deletion

    is carried out by another greenlet, without the lock of its framework, when
    another native request ends first, and always when it was queued by a request
    over HTTP or by `delete_job`, which have no post-processor;
    stays queued when the database update of the post-processor fails;
    takes another record with it when its key has been written again meanwhile.

`DeletionAct` and `DeletionExit` exclude just these.

**Proved here.**  In every run whose steps meet them every deletion is carried out
by the greenlet that has queued it, with the lock of its framework, on the record
that was there, and before the request ends (`deletions_safe`).
-/
import Urb.Greenlets

namespace Urb

open List Function Shared

open Greenlet (Exit Result Discipline Post)

variable {Q : Post Local Shared}

structure Removal.Safe (r : Removal) : Prop where
  flusher : r.flusher = r.deletion.queuer
  locked : r.locked = true
  record : ∀ n ∈ r.removed, r.deletion.record = some n

namespace Hub

/-! ## The discipline -/

structure DeletionsSound (s : Shared) : Prop where
  removals : ∀ r ∈ s.removals, r.Safe
  queue : ∀ d ∈ s.deleteElements, ∀ n ∈ (s.records d.dict).lookup d.key, d.record = some n

structure DeletionsLeft (g : ℕ) (s s' : Shared) : Prop where
  owner : ∀ o, (s.lock o).owner = some g → (s'.lock o).owner = some g
  queued : ∀ d ∈ s'.deleteElements, d.queuer = g → d ∈ s.deleteElements

def Settled (g : ℕ) (s : Shared) : Prop := ∀ d ∈ s.deleteElements, d.queuer ≠ g

def DeletionAct (g : ℕ) (a : Act) (i : Outside) (l : Local) (s : Shared) : Prop :=
  match a, i with
  | .edit, .delete _ _ => l.stored = true ∧ l.held = true
  | .edit, .put dict key => ∀ d ∈ s.deleteElements, ¬ (d.dict = dict ∧ d.key = key)
  | .postprocess, _ => ∀ d ∈ s.deleteElements, d.queuer = g
  | _, _ => True

def DeletionExit (g : ℕ) (k : Switch) (s : Shared) : Prop :=
  match k with
  | .db => Settled g s
  | _ => True

instance (g : ℕ) (s : Shared) : Decidable (Settled g s) :=
  inferInstanceAs (Decidable (∀ d ∈ s.deleteElements, d.queuer ≠ g))

instance (g : ℕ) (a : Act) (i : Outside) (l : Local) (s : Shared) : Decidable (DeletionAct g a i l s) := by
  unfold DeletionAct
  split <;> infer_instance

instance (g : ℕ) (k : Switch) (s : Shared) : Decidable (DeletionExit g k s) := by
  unfold DeletionExit
  split <;> infer_instance

def deletionDiscipline : Discipline lang where
  Inv := DeletionsSound
  Rely := DeletionsLeft
  Done := Settled
  allowAct a i g l s := DeletionAct g a i l s
  allowExit k _ g _ s := DeletionExit g k s
  rely_refl _ _ := ⟨fun _ h => h, fun _ h _ => h⟩
  rely_trans h h' := ⟨fun o ho => h'.owner o (h.owner o ho),
    fun d hd hg => h.queued d (h'.queued d hd hg) hg⟩
  done_stable h hdone d hd hg := hdone d (h.queued d hd hg) hg

instance (a : Act) (i : Outside) (g : ℕ) (l : Local) (s : Shared) :
    Decidable (deletionDiscipline.allowAct a i g l s) :=
  inferInstanceAs (Decidable (DeletionAct g a i l s))

instance (k : Switch) (x : Exit) (g : ℕ) (l : Local) (s : Shared) :
    Decidable (deletionDiscipline.allowExit k x g l s) :=
  inferInstanceAs (Decidable (DeletionExit g k s))

variable {g : ℕ} {l : Local} {s s' : Shared}

lemma Settled.left (h : Settled g s) (hr : DeletionsLeft g s s') : Settled g s' :=
  deletionDiscipline.done_stable hr h

/-! ## What the actions do -/

/-- Records, queue and removals are the same. -/
structure SameDeletions (s s' : Shared) : Prop where
  records : s'.records = s.records
  queue : s'.deleteElements = s.deleteElements
  removals : s'.removals = s.removals

lemma SameDeletions.sound (h : SameDeletions s s') (hinv : DeletionsSound s) : DeletionsSound s' := by
  refine ⟨h.removals ▸ hinv.removals, ?_⟩
  rw [h.records, h.queue]
  exact hinv.queue

lemma SameDeletions.settled (h : SameDeletions s s') (hs : Settled g s) : Settled g s' := by
  intro d hd
  rw [h.queue] at hd
  exact hs d hd

def OwnersKept (g : ℕ) (s s' : Shared) : Prop :=
  ∀ g', g' ≠ g → ∀ o, (s.lock o).owner = some g' → (s'.lock o).owner = some g'

lemma OwnersKept.of_eq (h : s'.lock = s.lock) : OwnersKept g s s' := fun _ _ _ ho => h ▸ ho

lemma OwnersKept.update {o : ℕ} {lk : FrameworkLock} (hs' : s'.lock = update s.lock o lk)
    (h : ∀ g', g' ≠ g → (s.lock o).owner = some g' → lk.owner = some g') : OwnersKept g s s' := by
  intro g' hne o' ho'
  rw [hs']
  by_cases ho : o' = o
  · subst ho
    simp only [update_self]
    exact h g' hne ho'
  · simp only [update_of_ne ho]
    exact ho'

lemma SameDeletions.left (h : SameDeletions s s') (hown : OwnersKept g s s') {g' : ℕ} (hne : g' ≠ g) :
    DeletionsLeft g' s s' :=
  ⟨hown g' hne, fun _ hd _ => h.queue ▸ hd⟩

lemma acquireLock_kept {o : ℕ} (h : s.acquireLock g o = some s') :
    SameDeletions s s' ∧ (∀ g' o', (s.lock o').owner = some g' → (s'.lock o').owner = some g') ∧
      (s'.lock o).owner = some g := by
  simp only [acquireLock] at h
  split_ifs at h with howner
  cases h
  refine ⟨⟨rfl, rfl, rfl⟩, fun g' o' ho' => ?_, by simp⟩
  by_cases ho : o' = o
  · subst ho
    rcases howner with h | h
    · cases h.symm.trans ho'
    · rw [← ho', h]
      simp
  · simpa only [update_of_ne ho] using ho'

lemma releaseLock_kept (g o : ℕ) (s : Shared) :
    SameDeletions s (s.releaseLock g o).1 ∧ OwnersKept g s (s.releaseLock g o).1 := by
  unfold releaseLock
  split
  · exact ⟨⟨rfl, rfl, rfl⟩, .of_eq rfl⟩
  · split
    · next hown =>
        refine ⟨⟨rfl, rfl, rfl⟩, OwnersKept.update rfl fun g' hne ho => ?_⟩
        exact absurd (Option.some.inj (ho.symm.trans hown)) hne
    · exact ⟨⟨rfl, rfl, rfl⟩, OwnersKept.update rfl fun g' _ ho => ho⟩

lemma releaseFramework_kept (g : ℕ) (framework : Option ℕ) (s : Shared) :
    SameDeletions s (releaseFramework g framework s).1 ∧
      OwnersKept g s (releaseFramework g framework s).1 := by
  cases framework with
  | none => exact ⟨⟨rfl, rfl, rfl⟩, .of_eq rfl⟩
  | some o => exact releaseLock_kept g o s

lemma notifyFramework_kept (framework : Option ℕ) (s : Shared) (i : Outside) :
    SameDeletions s (notifyFramework framework s i) ∧ (notifyFramework framework s i).lock = s.lock :=
  ⟨⟨notifyFramework_frame (f := records) (fun _ _ => rfl) framework s i,
    notifyFramework_frame (f := deleteElements) (fun _ _ => rfl) framework s i,
    notifyFramework_frame (f := removals) (fun _ _ => rfl) framework s i⟩,
    notifyFramework_frame (f := lock) (fun _ _ => rfl) framework s i⟩

lemma after_same {wait : Prop} {l' : Local} (hinv : DeletionsSound s) (hsame : SameDeletions s s')
    (hown : OwnersKept g s s') (hQ : Q none l' s') : deletionDiscipline.After g Q s wait (.ok l' s') :=
  ⟨hsame.sound hinv, fun _ hne => hsame.left hown hne, hQ⟩

lemma after_ofEnding {wait : Prop} {l' : Local} {r : Shared × Ending} (hinv : DeletionsSound s)
    (hsame : SameDeletions s r.1) (hown : OwnersKept g s r.1) (hQ : ∀ x, Q x l' r.1)
    : deletionDiscipline.After g Q s wait (ofEnding l' r) := by
  obtain ⟨s', flow⟩ := r
  cases flow with
  | raise => exact ⟨hsame.sound hinv, fun _ hne => hsame.left hown hne, hQ _⟩
  | _ => exact ⟨hsame.sound hinv, fun _ hne => hsame.left hown hne, hQ _⟩

lemma after_other {a : Act} (ha : a ≠ .edit) (ha' : a ≠ .postprocess) {wait : Prop}
    (hwait : a = .acquire → wait) {i : Outside} (hinv : DeletionsSound s)
    (hQ : ∀ x l' s', SameDeletions s s' → l'.origin = l.origin →
      l'.stored = l.stored ∨ (a = .storeAndGet ∨ a = .register) ∧ l'.stored = decide (l.origin = .native) →
      Q x l' s') : deletionDiscipline.After g Q s wait (eff a i g l s) := by
  have hsame : SameDeletions s s := ⟨rfl, rfl, rfl⟩
  cases a with
  | get => exact after_same hinv hsame (.of_eq rfl) (hQ _ _ _ hsame rfl (.inl rfl))
  | getAny => exact after_same hinv hsame (.of_eq rfl) (hQ _ _ _ hsame rfl (.inl rfl))
  | storeAndGet =>
    exact after_same hinv hsame (.of_eq rfl) (hQ _ _ _ hsame rfl (.inr ⟨.inl rfl, rfl⟩))
  | register =>
    exact after_same hinv ⟨rfl, rfl, rfl⟩ (.of_eq rfl)
      (hQ _ _ _ ⟨rfl, rfl, rfl⟩ rfl (.inr ⟨.inr rfl, rfl⟩))
  | remove =>
    exact after_ofEnding hinv ⟨rfl, rfl, rfl⟩ (.of_eq rfl)
      fun x => hQ x _ _ ⟨rfl, rfl, rfl⟩ rfl (.inl rfl)
  | acquire =>
    simp only [eff]
    split
    · exact after_same hinv hsame (.of_eq rfl) (hQ _ _ _ hsame rfl (.inl rfl))
    · split
      · next h =>
          obtain ⟨hsame', hown, -⟩ := acquireLock_kept h
          exact after_same hinv hsame' (fun g' _ o ho => hown g' o ho) (hQ _ _ _ hsame' rfl (.inl rfl))
      · exact hwait rfl
  | release =>
    obtain ⟨hsame', hown⟩ := releaseFramework_kept g l.framework s
    exact after_ofEnding hinv hsame' hown fun x => hQ x _ _ hsame' rfl (.inl rfl)
  | postprocess => exact absurd rfl ha'
  | edit => exact absurd rfl ha
  | notify =>
    obtain ⟨hsame', hlock⟩ := notifyFramework_kept l.framework s i
    exact after_same hinv hsame' (.of_eq hlock) (hQ _ _ _ hsame' rfl (.inl rfl))
  | renew =>
    simp only [eff]
    split
    · exact after_same hinv hsame (.of_eq rfl) (hQ _ _ _ hsame rfl (.inl rfl))
    · exact after_same hinv ⟨rfl, rfl, rfl⟩ (.of_eq rfl) (hQ _ _ _ ⟨rfl, rfl, rfl⟩ rfl (.inl rfl))
  | read =>
    simp only [eff]
    split
    · exact after_same hinv hsame (.of_eq rfl) (hQ _ _ _ hsame rfl (.inl rfl))
    · exact after_same hinv ⟨rfl, rfl, rfl⟩ (.of_eq rfl) (hQ _ _ _ ⟨rfl, rfl, rfl⟩ rfl (.inl rfl))

lemma DeletionsSound.put (hinv : DeletionsSound s) {dict : ℕ} {key : String} {n : ℕ}
    (hkey : ∀ d ∈ s.deleteElements, ¬ (d.dict = dict ∧ d.key = key)) : ∀ d ∈ s.deleteElements,
      ∀ m ∈ (update s.records dict ((s.records dict).insert key n) d.dict).lookup d.key,
        d.record = some m := by
  intro d hd m hm
  refine hinv.queue d hd m ?_
  by_cases hdict : d.dict = dict
  · subst hdict
    have hne : d.key ≠ key := fun h => hkey d hd ⟨rfl, h⟩
    rw [update_self, AList.lookup_insert_ne hne] at hm
    exact hm
  · rw [update_of_ne hdict] at hm
    exact hm

lemma after_edit {i : Outside} (hinv : DeletionsSound s) (hallow : DeletionAct g .edit i l s)
    {wait : Prop} (hQ : ∀ s', s'.lock = s.lock → (∀ d ∈ s'.deleteElements, d ∈ s.deleteElements ∨
        l.stored ∧ l.held ∧ d.framework = l.framework) → Q none l s') :
    deletionDiscipline.After g Q s wait (eff .edit i g l s) := by
  have hsame : deletionDiscipline.After g Q s wait (.ok l s) :=
    after_same hinv ⟨rfl, rfl, rfl⟩ (.of_eq rfl) (hQ s rfl fun _ hd => .inl hd)
  cases i with
  | put dict key =>
    refine ⟨⟨hinv.removals, hinv.put hallow⟩, fun g' _ => ⟨fun _ ho => ho, fun _ hd _ => hd⟩, ?_⟩
    exact hQ _ rfl fun _ hd => .inl hd
  | delete dict key =>
    refine ⟨⟨hinv.removals, fun d hd n hn => ?_⟩, fun g' hne => ⟨fun _ ho => ho, fun d hd hg => ?_⟩,
      hQ _ rfl fun d hd => ?_⟩
    · rcases mem_append.mp hd with hd | hd
      · exact hinv.queue d hd n hn
      · cases mem_singleton.mp hd
        exact hn
    · rcases mem_append.mp hd with hd | hd
      · exact hd
      · cases mem_singleton.mp hd
        exact absurd hg.symm hne
    · rcases mem_append.mp hd with hd | hd
      · exact .inl hd
      · cases mem_singleton.mp hd
        exact .inr ⟨hallow.1, hallow.2, rfl⟩
  | _ => exact hsame

/-! ## The post-processor -/

lemma mem_lookup_flushOne {d d' : Deletion} {n : ℕ}
    (h : n ∈ ((flushOne g s d).records d'.dict).lookup d'.key) :
    n ∈ (s.records d'.dict).lookup d'.key := by
  simp only [flushOne] at h
  by_cases hdict : d'.dict = d.dict
  · rw [hdict, update_self, AList.lookup_erase_eq_ite] at h
    split_ifs at h
    · cases h
    · rw [hdict]
      exact h
  · rw [update_of_ne hdict] at h
    exact h

def Flushable (g : ℕ) (s : Shared) (d : Deletion) : Prop :=
  d.queuer = g ∧ (∃ o, d.framework = some o ∧ (s.lock o).owner = some g) ∧
    ∀ n ∈ (s.records d.dict).lookup d.key, d.record = some n

lemma safe_foldl_flushOne {ds : List Deletion} : ∀ {s : Shared}, (∀ r ∈ s.removals, r.Safe) →
    (∀ d ∈ ds, Flushable g s d) → ∀ r ∈ (ds.foldl (flushOne g) s).removals, r.Safe := by
  induction ds with
  | nil => exact fun h _ => h
  | cons d ds ih =>
    intro s hsafe hds
    refine ih (fun r hr => ?_) fun d' hd' => ?_
    · obtain ⟨hqueuer, ⟨o, ho, hown⟩, hrecord⟩ := hds d mem_cons_self
      rcases mem_append.mp hr with hr | hr
      · exact hsafe r hr
      · cases mem_singleton.mp hr
        refine ⟨hqueuer.symm, ?_, hrecord⟩
        simp [ho, hown]
    · obtain ⟨hqueuer, hown, hrecord⟩ := hds d' (mem_cons_of_mem d hd')
      exact ⟨hqueuer, hown, fun n hn => hrecord n (mem_lookup_flushOne hn)⟩

structure Pending (g : ℕ) (l : Local) (s : Shared) : Prop where
  queued : ∀ d ∈ s.deleteElements, d.queuer = g → ∃ o, d.framework = some o ∧ (s.lock o).owner = some g
  locked : l.stored = true → l.held = true → ∃ o, l.framework = some o ∧ (s.lock o).owner = some g

lemma stable_pending : deletionDiscipline.Stable g (Pending g) := by
  intro l s s' _ hr h
  refine ⟨fun d hd hg => ?_, fun hst hheld => ?_⟩
  · obtain ⟨o, ho, hown⟩ := h.queued d (hr.queued d hd hg) hg
    exact ⟨o, ho, hr.owner o hown⟩
  · obtain ⟨o, ho, hown⟩ := h.locked hst hheld
    exact ⟨o, ho, hr.owner o hown⟩

lemma flush_pending {B F : Local → Shared → Prop} :
    deletionDiscipline.Triple g (Pending g) (.act .postprocess)
      (Discipline.ends (fun _ => Settled g) B (fun _ => Settled g) F) := by
  refine .act fun l s i hinv h hallow => ?_
  have hlock : (s.flush g).lock = s.lock := flush_frame (fun _ _ _ _ => rfl) g s
  have hsound : DeletionsSound (s.flush g) := by
    refine ⟨safe_foldl_flushOne hinv.removals fun d hd => ?_, fun d hd => by cases hd⟩
    exact ⟨hallow d hd, h.queued d hd (hallow d hd), hinv.queue d hd⟩
  have hleft : ∀ g', g' ≠ g → DeletionsLeft g' s (s.flush g) := fun g' _ =>
    ⟨fun o ho => hlock ▸ ho, fun d hd => by cases hd⟩
  obtain ⟨hsame, hown⟩ := releaseFramework_kept g (postFramework l s) (s.flush g)
  have hsettled : Settled g (releaseFramework g (postFramework l s) (s.flush g)).1 :=
    hsame.settled fun d hd => by cases hd
  refine .of_rely hleft ?_
  simp only [lang, eff]
  generalize releaseFramework g (postFramework l s) (s.flush g) = r at hsame hown hsettled
  obtain ⟨s', flow⟩ := r
  cases flow with
  | raise => exact ⟨hsame.sound hsound, fun _ hne => hsame.left hown hne, hsettled⟩
  | _ => exact ⟨hsame.sound hsound, fun _ hne => hsame.left hown hne, hsettled⟩

/-! ## Code -/

def handling : Act → Bool → Bool
  | .acquire, wait => wait
  | .edit, _ | .notify, _ => true
  | _, _ => false

lemma after_handling {a : Act} {wait : Bool} (ha : handling a wait) {i : Outside}
    (hinv : DeletionsSound s) (h : Pending g l s) (hallow : DeletionAct g a i l s) :
    deletionDiscipline.After g (fun _ => Pending g) s (wait) (eff a i g l s) := by
  cases a with
  | acquire =>
    simp only [eff]
    split
    · exact after_same hinv ⟨rfl, rfl, rfl⟩ (.of_eq rfl) h
    · next o ho =>
        split
        · next h' =>
            obtain ⟨hsame, hown, hmine⟩ := acquireLock_kept h'
            refine after_same hinv hsame (fun g' _ o ho => hown g' o ho) ⟨fun d hd hg => ?_, fun _ _ => ?_⟩
            · rw [hsame.queue] at hd
              obtain ⟨o', ho', hown'⟩ := h.queued d hd hg
              exact ⟨o', ho', hown g o' hown'⟩
            · exact ⟨o, ho, hmine⟩
        · exact ha
  | edit =>
    refine after_edit hinv hallow fun s' hlock hqueue => ?_
    refine ⟨fun d hd hg => ?_, fun hst hheld => ?_⟩
    · rw [hlock]
      rcases hqueue d hd with hd | ⟨hst, hheld, hfw⟩
      · exact h.queued d hd hg
      · rw [hfw]
        exact h.locked hst hheld
    · rw [hlock]
      exact h.locked hst hheld
  | notify =>
    obtain ⟨hsame, hlock⟩ := notifyFramework_kept l.framework s i
    refine after_same hinv hsame (.of_eq hlock) ⟨?_, ?_⟩
    · rw [hlock, hsame.queue]
      exact h.queued
    · rw [hlock]
      exact h.locked
  | _ => cases ha

open Greenlet.Discipline (ends)
open Greenlet.Code

variable {B F : Local → Shared → Prop} {native : Bool}

lemma handle_pending {p : Prog} (hall : p.all handling)
    (hbrk : p.leaves lang.exits .brk = false) (hclose : p.leaves lang.exits .close = false) :
    deletionDiscipline.Triple g (Pending g) p (ends (Pending g) B (Pending g) F) :=
  .of_leaves (.of_acts stable_pending
    (fun _ _ ha _ _ _ hinv h hallow => after_handling ha hinv h hallow) hall) hbrk hclose

structure Calm (g : ℕ) (native : Bool) (l : Local) (s : Shared) : Prop where
  settled : Settled g s
  stored : l.stored = false
  origin : native = false → l.origin ≠ .native

def calm (native : Bool) : Act → Bool → Bool
  | .acquire, wait => wait
  | .postprocess, _ => false
  | .storeAndGet, _ | .register, _ => !native
  | _, _ => true

lemma stable_calm : deletionDiscipline.Stable g (Calm g native) :=
  fun _ _ _ _ hr h => ⟨h.settled.left hr, h.stored, h.origin⟩

lemma after_calm {a : Act} {wait : Bool} (ha : calm native a wait) {i : Outside}
    (hinv : DeletionsSound s) (h : Calm g native l s) (hallow : DeletionAct g a i l s) :
    deletionDiscipline.After g (fun _ => Calm g native) s (wait) (eff a i g l s) := by
  by_cases hedit : a = .edit
  · subst hedit
    refine after_edit hinv hallow fun s' _ hqueue => ⟨fun d hd => ?_, h.stored, h.origin⟩
    rcases hqueue d hd with hd | ⟨hst, -, -⟩
    · exact h.settled d hd
    · cases h.stored.symm.trans hst
  · refine after_other hedit ?_ ?_ hinv fun _ l' s' hsame horigin hstored => ?_
    · rintro rfl
      cases ha
    · rintro rfl
      exact ha
    · refine ⟨hsame.settled h.settled, ?_, fun hn => horigin ▸ h.origin hn⟩
      rcases hstored with hstored | ⟨hact, hstored⟩
      · exact hstored.trans h.stored
      · have hn : native = false := by
          rcases hact with rfl | rfl
          · simpa [calm] using ha
          · simpa [calm] using ha
        exact hstored.trans (decide_eq_false (h.origin hn))

lemma triple_calm {p : Prog} (hall : p.all (calm native)) :
    deletionDiscipline.Triple g (Calm g native) p (Discipline.Triple.leavesPost lang (Calm g native) p) :=
  .of_acts stable_calm (fun _ _ ha _ _ _ hinv h hallow => after_calm ha hinv h hallow) hall

def Starting (g : ℕ) (l : Local) (s : Shared) : Prop := Calm g true l s ∧ l.held = false

lemma Starting.pending (h : Starting g l s) : Pending g l s :=
  ⟨fun d hd hg => absurd hg (h.1.settled d hd), fun _ hheld => by cases h.2.symm.trans hheld⟩

lemma stable_starting : deletionDiscipline.Stable g (Starting g) :=
  fun l s s' hinv hr h => ⟨stable_calm l s s' hinv hr h.1, h.2⟩

lemma lookup_pending {a : Act} (ha : a = .storeAndGet ∨ a = .register) {E : Local → Shared → Prop} :
    deletionDiscipline.Triple g (Starting g) (act a) (ends (Pending g) B E F) := by
  refine .act fun l s i hinv h _ => ?_
  have hpending : ∀ {l' : Local} {s' : Shared}, l'.held = l.held → s'.deleteElements = s.deleteElements →
      Pending g l' s' := fun hheld hqueue =>
    ⟨fun d hd hg => absurd hg (h.1.settled d (hqueue ▸ hd)),
      fun _ hheld' => by cases (hheld.trans h.2).symm.trans hheld'⟩
  rcases ha with rfl | rfl
  · exact after_same hinv ⟨rfl, rfl, rfl⟩ (.of_eq rfl) (hpending rfl rfl)
  · exact after_same hinv ⟨rfl, rfl, rfl⟩ (.of_eq rfl) (hpending rfl rfl)

lemma target_pending (t : Target) :
    deletionDiscipline.Triple g (Starting g) (targetExecutor t) (ends (Pending g) B (Pending g) F) := by
  have hstore : ∀ p : Prog, p.all handling → p.leaves lang.exits .brk = false →
      p.leaves lang.exits .close = false → deletionDiscipline.Triple g (Starting g)
        (seq (act .storeAndGet) p) (ends (Pending g) B (Pending g) F) := fun p hall hbrk hclose =>
    .seq (lookup_pending (.inl rfl)) (handle_pending hall hbrk hclose)
  have hregister : deletionDiscipline.Triple g (Starting g) registrationHandler
      (ends (Pending g) B (Pending g) F) := by
    refine .seq (M := Starting g) ?_ (.seq (lookup_pending (.inr rfl)) (handle_pending rfl rfl rfl))
    exact .switch_ends stable_starting rfl (fun _ _ h => h)
      (fun _ _ _ _ h => h.pending) fun _ _ hx => by cases hx
  cases t with
  | registerFramework => exact hregister
  | reregisterFramework => exact hregister
  | unregisterFramework =>
    have hcalm : deletionDiscipline.Triple g (Calm g true) deleteFramework
        (ends (Calm g true) B (Calm g true) F) := .of_leaves (triple_calm rfl) rfl rfl
    have hpending : ∀ l s, Calm g true l s → Pending g l s := fun l s h =>
      ⟨fun d hd hg => absurd hg (h.settled d hd), fun hst => by cases h.stored.symm.trans hst⟩
    exact (hcalm.pre fun _ _ _ h => h.1).weaken hpending hpending
  | withoutFramework =>
    exact .switch_ends stable_starting rfl (fun _ _ h => h.pending)
      (fun _ _ _ _ h => h.pending) fun _ _ hx => by cases hx
  | frameworkToExecutor => exact hstore _ rfl rfl rfl
  | executorToFramework => exact hstore _ rfl rfl rfl
  | _ => exact hstore _ rfl rfl rfl

lemma handle_settled (t : Target) :
    deletionDiscipline.Triple g (Starting g) (handle t) fun _ _ => Settled g :=
  handle_triple (target_pending t) stable_pending (fun _ _ hallow _ => hallow) flush_pending

lemma jobs_settle : Greenlet.World.Sound deletionDiscipline jobs := by
  intro j g
  have hcalm : ∀ p : Prog, p.all (calm false) → ∀ l₀ : Local, l₀.stored = false → l₀.origin ≠ .native →
      deletionDiscipline.Triple g (fun l s => l = l₀ ∧ Settled g s) p fun _ _ => Settled g := by
    intro p hall l₀ hst horigin
    refine ((triple_calm hall).pre ?_).post fun _ _ _ _ h => h.1.settled
    rintro l s - ⟨rfl, hs⟩
    exact ⟨hs, hst, fun _ => horigin⟩
  cases j with
  | native t id =>
    refine (handle_settled t).pre ?_
    rintro l s - ⟨rfl, hs⟩
    exact ⟨⟨hs, rfl, nofun⟩, rfl⟩
  | http c id => exact hcalm (httpRequest c) (by cases c <;> rfl) _ rfl nofun
  | generateOffers id => exact hcalm _ rfl _ rfl nofun
  | httpGenerateOffers id => exact hcalm _ rfl _ rfl nofun
  | deleteJob id => exact hcalm _ rfl _ rfl nofun
  | deleteChannel id => exact hcalm _ rfl _ rfl nofun

/-! ## Runs -/

theorem deletions_safe (es : List Event)
    (hes : Machine.Guarded step (Greenlet.World.Allowed deletionDiscipline) start es) :
    (∀ r ∈ (Machine.run step start es).shared.removals, r.Safe) ∧
      ∀ g, ((Machine.run step start es).threads g).ctl = .done →
        ∀ d ∈ (Machine.run step start es).shared.deleteElements, d.queuer ≠ g := by
  have hstart : start.Ok deletionDiscipline :=
    Greenlet.World.ok_idle ⟨forall_mem_nil _, forall_mem_nil _⟩ fun _ => forall_mem_nil _
  have hok : (Machine.run step start es).Ok deletionDiscipline := hstart.run jobs_settle hes
  exact ⟨hok.inv.removals, fun g hdone => hok.done hdone⟩

def launchAndKill : List Event :=
  [.spawn 0 (.native .registerFramework "f")] ++ goes 0 20 ++
    [.spawn 1 (.native .launchTasks "f")] ++ goes 1 8 ++ edits 1 (.put 0 "t") ++ goes 1 9 ++
    [.spawn 2 (.native .killTask "f")] ++ goes 2 8 ++ edits 2 (.delete 0 "t") ++ goes 2 9

theorem deletions_safe_launchAndKill :
    (∀ r ∈ (Machine.run step start launchAndKill).shared.removals, r.Safe) ∧
      (Machine.run step start launchAndKill).shared.removals ≠ [] :=
  ⟨(deletions_safe launchAndKill (by decide +kernel)).1, by decide +kernel⟩

def relaunchedAfterKill : List Event :=
  [.spawn 0 (.http .subscribe "f")] ++ goes 0 4 ++
    [.spawn 1 (.http .acceptLaunch "f")] ++ goes 1 7 ++ edits 1 (.put 0 "t") ++ goes 1 5 ++
    [.spawn 2 (.http .kill "f")] ++ goes 2 7 ++ edits 2 (.delete 0 "t") ++ goes 2 5 ++
    [.spawn 3 (.http .acceptLaunch "f")] ++ goes 3 7 ++ edits 3 (.put 0 "t") ++ goes 3 5 ++
    [.spawn 4 (.native .killTask "g")] ++ goes 4 13

theorem deletion_unsafe_relaunchedAfterKill :
    ∃ r ∈ (Machine.run step start relaunchedAfterKill).shared.removals,
      r.deletion.queuer = 2 ∧ r.flusher = 4 ∧ r.locked = false ∧
        r.deletion.record = some 0 ∧ r.removed = some 1 := by
  decide +kernel

end Hub

end Urb
