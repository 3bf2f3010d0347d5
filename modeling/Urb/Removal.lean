/-
# `Urb.Removal` — job deletion, framework removal and the post-processor

Entries are not taken out of the dictionaries where a handler decides that
they should go.  They are queued (`__delete_elements`), and the
post-processor, which runs after every NATIVE request of any framework, also
after one that raised, removes what is queued.  Requests over HTTP and the
callbacks of the job monitor queue but do not remove.

`delete_job` is such a callback: the job monitor has found that a job is gone.
-/
import Urb.Registration

namespace Urb

open Block List

/-! ## The post-processor -/

def applyDeletion (s : Service) : DeleteElement → Service
  | .slave key => { s with slaveDict := s.slaveDict.erase key }
  | .task dict key =>
    if dict = s.taskDictId then
      { s with taskDict := s.taskDict.erase key, foreign := s.foreign.filter (· ≠ key) }
    else s
  | .offer key => { s with offers := s.offers.erase key }

def postprocess (s : Service) : Service :=
  { s.deleteElements.foldl applyDeletion s with deleteElements := [] }

def Service.setDicts (slaves : Dict String Slave) (tasks : Dict String TaskRecord)
    (keys : List String) (offers : Dict String Offer) (s : Service) : Service :=
  { s with
    slaveDict := slaves
    taskDict := tasks
    foreign := keys
    offers := offers }

lemma applyDeletion_frame {β : Type} {f : Service → β}
    (h : ∀ slaves tasks keys offers s, f (Service.setDicts slaves tasks keys offers s) = f s)
    (s : Service) (e : DeleteElement) : f (applyDeletion s e) = f s := by
  cases e with
  | slave key => exact h (s.slaveDict.erase key) s.taskDict s.foreign s.offers s
  | task dict key =>
    simp only [applyDeletion]
    split_ifs
    · exact h s.slaveDict (s.taskDict.erase key) (s.foreign.filter (· ≠ key)) s.offers s
    · rfl
  | offer key => exact h s.slaveDict s.taskDict s.foreign (s.offers.erase key) s

lemma postprocess_frame {β : Type} {f : Service → β}
    (h : ∀ slaves tasks keys offers s, f (Service.setDicts slaves tasks keys offers s) = f s)
    (hqueue : ∀ s queue, f { s with deleteElements := queue } = f s) (s : Service) :
    f (postprocess s) = f s := by
  have hfold : ∀ (l : List DeleteElement) (s : Service), f (l.foldl applyDeletion s) = f s := by
    intro l
    induction l with
    | nil => exact fun _ => rfl
    | cons e l ih => exact fun s => (ih _).trans (applyDeletion_frame h s e)
  exact (hqueue _ _).trans (hfold _ s)

@[simp] lemma postprocess_wire (s : Service) : (postprocess s).wire = s.wire :=
  postprocess_frame (fun _ _ _ _ _ => rfl) (fun _ _ => rfl) s

@[simp] lemma postprocess_deleteElements (s : Service) : (postprocess s).deleteElements = [] :=
  rfl

lemma lookup_slaveDict_applyDeletion (s : Service) (e : DeleteElement) (k : String) :
    (applyDeletion s e).slaveDict.lookup k = if e = .slave k then none else s.slaveDict.lookup k := by
  cases e with
  | slave key =>
    show (s.slaveDict.erase key).lookup k = _
    rw [AList.lookup_erase_eq_ite]
    simp only [DeleteElement.slave.injEq, eq_comm]
  | task dict key => simp only [applyDeletion]; split_ifs <;> first | rfl | contradiction
  | offer key => rfl

lemma lookup_offers_applyDeletion (s : Service) (e : DeleteElement) (k : String) :
    (applyDeletion s e).offers.lookup k = if e = .offer k then none else s.offers.lookup k := by
  cases e with
  | slave key => rfl
  | task dict key => simp only [applyDeletion]; split_ifs <;> first | rfl | contradiction
  | offer key =>
    show (s.offers.erase key).lookup k = _
    rw [AList.lookup_erase_eq_ite]
    simp only [DeleteElement.offer.injEq, eq_comm]

lemma lookup_taskDict_applyDeletion (s : Service) (e : DeleteElement) (k : String) :
    (applyDeletion s e).taskDict.lookup k =
      if e = .task s.taskDictId k then none else s.taskDict.lookup k := by
  cases e with
  | slave key => rfl
  | task dict key =>
    simp only [applyDeletion]
    by_cases hd : dict = s.taskDictId
    · subst hd
      simp only [if_true, AList.lookup_erase_eq_ite, DeleteElement.task.injEq, true_and, eq_comm]
    · simp only [DeleteElement.task.injEq, hd, false_and, if_false]
  | offer key => rfl

lemma lookup_slaveDict_foldl (l : List DeleteElement) (s : Service) (k : String) :
    (l.foldl applyDeletion s).slaveDict.lookup k =
      if .slave k ∈ l then none else s.slaveDict.lookup k := by
  induction l generalizing s with
  | nil => simp
  | cons e l ih =>
    rw [foldl_cons, ih, lookup_slaveDict_applyDeletion]
    by_cases h : e = .slave k
    · simp [h]
    · simp [h, Ne.symm h]

lemma lookup_slaveDict_postprocess (s : Service) (k : String) : (postprocess s).slaveDict.lookup k =
      if .slave k ∈ s.deleteElements then none else s.slaveDict.lookup k :=
  lookup_slaveDict_foldl s.deleteElements s k

lemma lookup_offers_postprocess (s : Service) (k : String) : (postprocess s).offers.lookup k =
      if .offer k ∈ s.deleteElements then none else s.offers.lookup k := by
  show (s.deleteElements.foldl applyDeletion s).offers.lookup k = _
  generalize s.deleteElements = l
  induction l generalizing s with
  | nil => simp
  | cons e l ih =>
    rw [foldl_cons, ih, lookup_offers_applyDeletion]
    by_cases h : e = .offer k
    · simp [h]
    · simp [h, Ne.symm h]

lemma lookup_taskDict_postprocess (s : Service) (k : String) : (postprocess s).taskDict.lookup k =
      if .task s.taskDictId k ∈ s.deleteElements then none else s.taskDict.lookup k := by
  show (s.deleteElements.foldl applyDeletion s).taskDict.lookup k = _
  generalize s.deleteElements = l
  induction l generalizing s with
  | nil => simp
  | cons e l ih =>
    have hid : (applyDeletion s e).taskDictId = s.taskDictId :=
      applyDeletion_frame (fun _ _ _ _ _ => rfl) s e
    rw [foldl_cons, ih, lookup_taskDict_applyDeletion, hid]
    by_cases h : e = .task s.taskDictId k
    · simp [h]
    · simp [h, Ne.symm h]

lemma foreign_postprocess_subset (s : Service) : (postprocess s).foreign ⊆ s.foreign := by
  show (s.deleteElements.foldl applyDeletion s).foreign ⊆ s.foreign
  generalize s.deleteElements = l
  induction l generalizing s with
  | nil => exact fun _ h => h
  | cons e l ih =>
    refine List.Subset.trans (ih _) ?_
    cases e with
    | slave key => exact fun _ h => h
    | task dict key =>
      simp only [applyDeletion]
      split_ifs
      · exact filter_subset_self _
      · exact fun _ h => h
    | offer key => exact fun _ h => h

/-! ## Job deletion -/

def isSlaveOfJob (job sid : String) : Bool := startsWith sid (createSlaveId job "undefined" "")

def deleteSlaveOfJob (job : String) (s : Service) (sid : String) : Service :=
  match s.slaveDict.lookup sid with
  | none => s
  | some slave => if isSlaveOfJob job sid then deleteSlave sid slave s else s

def removeJob (job : String) (ids : List JobTuple) : List JobTuple :=
  match ids.reverse.find? (·.id = job) with
  | some tuple => ids.erase tuple
  | none => ids

def loseTaskOfJob (job : String) (tid : String) : Block Service := fun s =>
  match s.taskDict.lookup tid with
  | none => (s, .next)
  | some task =>
    if task.jobId = some job then
      (processTaskLostStatusUpdate tid task.taskInfo.slaveId s, .next)
    else (s, .next)

def deleteJob (job : String) : Block Service := fun s =>
  let s := s.slaveDict.keys.foldl (deleteSlaveOfJob job) s
  match s.jobIds with
  | none => (s, .next)
  | some ids =>
    seq (forEach (loseTaskOfJob job) s.taskDict.keys) raiseIfForeign
      { s with jobIds := some (removeJob job ids) }

/-! ## Framework removal -/

def Slave.executorChannels (slave : Slave) : List String :=
  if slave.isCommandExecutor then slave.commandExecutors.values.filterMap (·.channel)
  else slave.executorChannel.toList

def shutdownExecutor (s : Service) (slave : Slave) : Service :=
  match slave.executorChannels with
  | [] => s.send (.slaveShutdown slave.channel)
  | channels => channels.foldl (fun s c => s.send (.shutdownExecutor c)) s

def TaskState.forced : TaskState → TaskState
  | .finished => .finished
  | .staging => .killed
  | _ => .finished

def forceTask (tid : String) : Block Service := fun s =>
  match s.taskDict.lookup tid with
  | none => (s, .next)
  | some task =>
    if task.state = .finished then (s, .next)
    else if task.notValid then (s, .raise)
    else (s.setTaskState tid task.state.forced, .next)

def deleteFramework : Block Service := fun s =>
  let s := s.slaveDict.values.foldl shutdownExecutor s
  let s := s.send (.deleteJobs ((s.jobIds.getD []).map (·.id)))
  if !s.taskDictSet then (s, .raise)
  else seq (forEach forceTask s.taskDict.keys) (seq raiseIfForeign
    (fun s => ({ s with active := false }, .next))) s

end Urb
