/-
# `Urb.Tracker` — the frameworks the service knows, and the jobs it monitors

`FrameworkTracker` keeps the frameworks that are active, and for a while those
that have finished: their records in a dictionary, their ids in a queue of at
most `MAX_NUMBER_OF_FINISHED_FRAMEWORKS`.

    get                                  active frameworks only
    get_active_or_finished_framework     active frameworks first
    remove                               active to finished; when the queue is full its
                                         oldest id goes, and the record with it

`JobTracker` says for every job which framework it is for and whether the job
monitor should ask for its state.
-/
import Urb.Basis.Dict
import Urb.Basis.Exec

namespace Urb

open AList

variable {id : String}

/-! ## Frameworks -/

/-- `FrameworkTracker`, over records of type `ω`. -/
structure FrameworkTracker (ω : Type) where
  active : Dict String ω := ∅
  finished : Dict String ω := ∅
  finishedIds : List String := []

namespace FrameworkTracker

variable {ω : Type}

def maxFinished : ℕ := 25

def get (t : FrameworkTracker ω) (id : String) : Option ω := t.active.lookup id

def getActiveOrFinished (t : FrameworkTracker ω) (id : String) : Option ω :=
  t.get id <|> t.finished.lookup id

def add (id : String) (o : ω) (t : FrameworkTracker ω) : FrameworkTracker ω :=
  { t with active := t.active.insert id o }

def retire (id : String) (o : ω) (t : FrameworkTracker ω) : FrameworkTracker ω :=
  { t with active := t.active.erase id, finished := t.finished.insert id o }

def enqueue (id : String) : Block (FrameworkTracker ω) := fun t =>
  match t.finishedIds with
  | oldest :: rest =>
    if t.finishedIds.length = maxFinished then
      if oldest ∈ t.finished then
        ({ t with finished := t.finished.erase oldest, finishedIds := rest ++ [id] }, .next)
      else ({ t with finishedIds := rest }, .raise)
    else ({ t with finishedIds := t.finishedIds ++ [id] }, .next)
  | [] => ({ t with finishedIds := [id] }, .next)

def remove (id : String) : Block (FrameworkTracker ω) := fun t =>
  match t.get id with
  | none => (t, .next)
  | some o => enqueue id (t.retire id o)

def HasRoomFor (id : String) (t : FrameworkTracker ω) : Prop :=
  t.finishedIds.length = maxFinished →
    ∃ oldest rest, t.finishedIds = oldest :: rest ∧ oldest ≠ id ∧ oldest ∈ t.finished

lemma enqueue_active (id : String) (t : FrameworkTracker ω) : (enqueue id t).1.active = t.active := by
  unfold enqueue
  split
  · split_ifs <;> rfl
  · rfl

lemma get_remove (t : FrameworkTracker ω) (id k : String) :
    (remove id t).1.get k = if k = id then none else t.get k := by
  unfold remove
  split
  · next hnone =>
      split_ifs with hk
      · rw [hk, hnone]
      · rfl
  · next o _ =>
      have hactive : (enqueue id (t.retire id o)).1.get k = (t.active.erase id).lookup k := by
        unfold get
        rw [enqueue_active]
        rfl
      rw [hactive, lookup_erase_eq_ite]
      rfl

lemma remove_of_room {t : FrameworkTracker ω} {o : ω} (ho : t.get id = some o)
    (hroom : t.HasRoomFor id) :
    (remove id t).2 = .next ∧ (remove id t).1.finished.lookup id = some o := by
  have hself : (t.retire id o).finished.lookup id = some o := lookup_insert _
  simp only [remove, ho, enqueue, show (t.retire id o).finishedIds = t.finishedIds from rfl]
  cases hids : t.finishedIds with
  | nil => exact ⟨rfl, hself⟩
  | cons oldest rest =>
    by_cases hfull : (oldest :: rest).length = maxFinished
    · obtain ⟨oldest', rest', hcons, hne, hmem⟩ := hroom (hids ▸ hfull)
      cases hids.symm.trans hcons
      have hmem' : oldest ∈ (t.retire id o).finished := (mem_insert _).mpr (.inr hmem)
      simp only [if_pos hfull, if_pos hmem']
      exact ⟨trivial, (lookup_erase_ne (Ne.symm hne)).trans hself⟩
    · simp only [if_neg hfull]
      exact ⟨trivial, hself⟩

lemma room_of_remove {t : FrameworkTracker ω} {o : ω} (ho : t.get id = some o)
    (hnext : (remove id t).2 = .next) (hmem : id ∈ (remove id t).1.finished) : t.HasRoomFor id := by
  intro hfull
  simp only [remove, ho, enqueue, show (t.retire id o).finishedIds = t.finishedIds from rfl] at hnext hmem
  cases hids : t.finishedIds with
  | nil =>
    rw [hids] at hfull
    cases hfull
  | cons oldest rest =>
    rw [hids] at hfull hnext hmem
    simp only [if_pos hfull] at hnext hmem
    by_cases hold : oldest ∈ (t.retire id o).finished
    · rw [if_pos hold] at hmem
      have hne : oldest ≠ id := by
        rintro rfl
        exact (mem_erase.mp hmem).1 rfl
      exact ⟨oldest, rest, rfl, hne, ((mem_insert _).mp hold).resolve_left hne⟩
    · rw [if_neg hold] at hnext
      cases hnext

lemma remove_active {t : FrameworkTracker ω} : id ∉ (remove id t).1.active := by
  unfold remove
  split
  · next hnone => exact lookup_eq_none.mp hnone
  · rw [enqueue_active]
    exact fun h => ((mem_erase).mp h).1 rfl

lemma getActiveOrFinished_add (t : FrameworkTracker ω) (id id' : String) (o : ω) :
    (t.add id o).getActiveOrFinished id' = if id' = id then some o else t.getActiveOrFinished id' := by
  simp only [getActiveOrFinished, get, add]
  split_ifs with h
  · subst h
    rw [lookup_insert]
    rfl
  · rw [lookup_insert_ne h]

lemma getActiveOrFinished_retire {t : FrameworkTracker ω} {id' : String} {o o' : ω}
    (ho : t.get id = some o) (h : t.getActiveOrFinished id' = some o') :
    (t.retire id o).getActiveOrFinished id' = some o' := by
  simp only [getActiveOrFinished, get, retire] at ho h ⊢
  by_cases hid : id' = id
  · subst hid
    rw [ho] at h
    rw [lookup_erase, lookup_insert]
    exact h
  · rw [lookup_erase_ne hid, lookup_insert_ne hid]
    exact h

lemma getActiveOrFinished_enqueue {t : FrameworkTracker ω} {id' : String} {o' : ω}
    (h : t.getActiveOrFinished id' = some o')
    (hkeep : t.finishedIds.length = maxFinished → t.finishedIds.head? = some id' → t.get id' ≠ none) :
    (enqueue id t).1.getActiveOrFinished id' = some o' := by
  unfold enqueue
  split
  · next oldest rest hids =>
      split_ifs with hfull hmem
      · simp only [getActiveOrFinished, get] at h ⊢
        by_cases hold : id' = oldest
        · subst hold
          obtain ⟨o'', ho''⟩ := Option.ne_none_iff_exists'.mp (hkeep hfull (by rw [hids]; rfl))
          simp only [get] at ho''
          rw [ho''] at h ⊢
          exact h
        · rw [lookup_erase_ne hold]
          exact h
      · exact h
      · exact h
  · exact h

lemma getActiveOrFinished_remove {t : FrameworkTracker ω} {id' : String} {o' : ω}
    (h : t.getActiveOrFinished id' = some o')
    (hkeep : t.finishedIds.length = maxFinished → t.finishedIds.head? = some id' →
      t.get id' ≠ none ∧ id' ≠ id) : (remove id t).1.getActiveOrFinished id' = some o' := by
  unfold remove
  split
  · exact h
  · next o ho =>
      refine getActiveOrFinished_enqueue (getActiveOrFinished_retire ho h) fun hfull hhead => ?_
      obtain ⟨hget, hne⟩ := hkeep hfull hhead
      simpa only [get, retire, lookup_erase_ne hne] using hget

end FrameworkTracker

/-! ## Jobs -/

/-- An entry of `JobTracker`. -/
structure JobInfo where
  frameworkId : String
  monitorJob : Bool
  deriving DecidableEq, Repr

abbrev JobTracker := Dict String JobInfo

def startJobMonitoring (job frameworkId : String) (jobs : JobTracker) : JobTracker :=
  jobs.insert job { frameworkId := frameworkId, monitorJob := true }

def stopJobMonitoring (jobs : JobTracker) (job : String) : JobTracker :=
  jobs.modify job (fun info => { info with monitorJob := false })

def JobTracker.Monitored (jobs : JobTracker) (job : String) : Prop :=
  ∃ info, jobs.lookup job = some info ∧ info.monitorJob = true

lemma not_monitored_stop_self (jobs : JobTracker) (job : String) :
    ¬ JobTracker.Monitored (stopJobMonitoring jobs job) job := by
  rintro ⟨info, hinfo, hmon⟩
  obtain ⟨info', -, rfl⟩ := of_lookup_modify_self hinfo
  cases hmon

lemma JobTracker.Monitored.of_stop {jobs : JobTracker} {job k : String}
    (h : JobTracker.Monitored (stopJobMonitoring jobs k) job) : JobTracker.Monitored jobs job := by
  obtain ⟨info, hinfo, hmon⟩ := h
  rcases lookup_modify_cases hinfo with ⟨-, info', -, rfl⟩ | ⟨-, hinfo⟩
  · cases hmon
  · exact ⟨info, hinfo, hmon⟩

lemma not_monitored_stopAll : ∀ (ks : List String) (jobs : JobTracker), ∀ k ∈ ks,
    ¬ JobTracker.Monitored (ks.foldl stopJobMonitoring jobs) k
  | k' :: ks, jobs, k, hk => by
    rw [List.foldl_cons]
    by_cases hks : k ∈ ks
    · exact not_monitored_stopAll ks _ k hks
    · obtain rfl : k = k' := (List.mem_cons.mp hk).resolve_right hks
      have hkeep : ∀ (l : List String) (jobs : JobTracker), ¬ JobTracker.Monitored jobs k →
          ¬ JobTracker.Monitored (l.foldl stopJobMonitoring jobs) k := by
        intro l
        induction l with
        | nil => exact fun _ h => h
        | cons j l ih => exact fun jobs h => ih _ fun hm => h hm.of_stop
      exact hkeep ks _ (not_monitored_stop_self jobs k)

end Urb
