/-
# `Urb.JobSlaves` — which slaves a deleted job takes with it

An executor runner builds its slave id from its job id, its array-task id and
the name of its channel.  `delete_job` runs in the service and knows the job id
only; it recognises the slaves of the job by the text

    create_slave_id(job_id, "undefined", "")

with which their ids should start.

**Proved here.**  The ids that start with this text are exactly those built with
the array task `undefined` (`isSlaveOfJob_iff`).  A slave is
removed exactly when it is of this job and its id was built in this way
(`deleteJob_removes_iff`); a runner of an array job has a number in that place.
-/
import Urb.Frames

namespace Urb

open Block List AList

/-! ## Recognising the slaves of a job -/

def BuiltFor (job sid : String) : Prop := ∃ arrayTask channel, sid = createSlaveId job arrayTask channel

lemma createSlaveId_append (job arrayTask channel : String) :
    createSlaveId job arrayTask "" ++ channel = createSlaveId job arrayTask channel := by
  simp only [createSlaveId, String.append_assoc, String.empty_append]

lemma startsWith_iff {v p : String} : startsWith v p ↔ ∃ w, v = p ++ w := by
  rw [startsWith, isPrefixOf_iff_prefix]
  constructor
  · rintro ⟨l, hl⟩
    refine ⟨String.ofList l, ?_⟩
    rw [← String.toList_inj, String.toList_append, String.toList_ofList, hl]
  · rintro ⟨w, rfl⟩
    rw [String.toList_append]
    exact prefix_append _ _

lemma isSlaveOfJob_iff {job sid : String} :
    isSlaveOfJob job sid ↔ ∃ channel, sid = createSlaveId job "undefined" channel := by
  simp only [isSlaveOfJob, startsWith_iff, createSlaveId_append]

lemma BuiltFor.job_eq {job other sid : String} (hjob : '.' ∉ job.toList) (hother : '.' ∉ other.toList)
    (h : BuiltFor job sid) (h' : BuiltFor other sid) : job = other := by
  obtain ⟨t, c, rfl⟩ := h
  obtain ⟨t', c', he⟩ := h'
  have hread := getJobIdFromSlaveId_createSlaveId hjob t c
  rw [he, getJobIdFromSlaveId_createSlaveId hother t' c'] at hread
  exact (Option.some.inj hread).symm

/-! ## What the callback queues -/

def QueuesSlaves (P : String → Prop) (s s' : Service) : Prop :=
  ∃ new, s'.deleteElements = s.deleteElements ++ new ∧ ∀ k, .slave k ∈ new ↔ P k

lemma QueuesSlaves.of_eq {s s' : Service} (h : s'.deleteElements = s.deleteElements) :
    QueuesSlaves (fun _ => False) s s' :=
  ⟨[], by rw [h, append_nil], fun _ => iff_of_false not_mem_nil id⟩

lemma QueuesSlaves.trans {P Q : String → Prop} {s s' s'' : Service} (h : QueuesSlaves P s s')
    (k : QueuesSlaves Q s' s'') : QueuesSlaves (fun sid => P sid ∨ Q sid) s s'' := by
  obtain ⟨new, hs, hP⟩ := h
  obtain ⟨new', hs', hQ⟩ := k
  refine ⟨new ++ new', by rw [hs', hs, append_assoc], fun sid => ?_⟩
  rw [mem_append, hP, hQ]

lemma QueuesSlaves.congr {P Q : String → Prop} {s s' : Service} (h : QueuesSlaves P s s')
    (hPQ : ∀ sid, P sid ↔ Q sid) : QueuesSlaves Q s s' := by
  obtain ⟨new, hs, hP⟩ := h
  exact ⟨new, hs, fun sid => (hP sid).trans (hPQ sid)⟩

lemma deleteSlaveOfJob_queues (job : String) {s : Service} {sid : String} (hsid : sid ∈ s.slaveDict) :
    QueuesSlaves (fun k => k = sid ∧ isSlaveOfJob job k) s (deleteSlaveOfJob job s sid) ∧
      (deleteSlaveOfJob job s sid).slaveDict.keys = s.slaveDict.keys := by
  obtain ⟨slave, hs⟩ := exists_lookup_of_mem hsid
  simp only [deleteSlaveOfJob, hs]
  split_ifs with hjob
  · rw [deleteSlave_slaveDict, keys_modify]
    refine ⟨⟨[.slave sid], deleteSlave_deleteElements sid slave s, fun k => ?_⟩, rfl⟩
    rw [mem_singleton, DeleteElement.slave.injEq]
    exact ⟨fun hk => ⟨hk, hk ▸ hjob⟩, And.left⟩
  · refine ⟨(QueuesSlaves.of_eq rfl).congr fun k => iff_of_false id ?_, rfl⟩
    rintro ⟨rfl, hk⟩
    exact hjob hk

lemma foldl_deleteSlaveOfJob_queues (job : String) :
    ∀ (l : List String) (s : Service), (∀ sid ∈ l, sid ∈ s.slaveDict) →
      QueuesSlaves (fun k => k ∈ l ∧ isSlaveOfJob job k) s (l.foldl (deleteSlaveOfJob job) s)
  | [], s, _ => (QueuesSlaves.of_eq rfl).congr fun _ => iff_of_false id fun h => by cases h.1
  | sid :: l, s, hmem => by
    obtain ⟨hone, hkeys⟩ := deleteSlaveOfJob_queues job (hmem sid mem_cons_self)
    have hrest : ∀ k ∈ l, k ∈ (deleteSlaveOfJob job s sid).slaveDict := by
      intro k hk
      rw [AList.mem_keys, hkeys]
      exact hmem k (mem_cons_of_mem _ hk)
    refine (hone.trans (foldl_deleteSlaveOfJob_queues job l _ hrest)).congr fun k => ?_
    rw [mem_cons, or_and_right]

lemma loseTasksOfJob_queues (job : String) (l : List String) (s : Service) :
    QueuesSlaves (fun _ => False) s (forEach (loseTaskOfJob job) l s).1 := by
  refine forEach_inv (I := QueuesSlaves (fun _ => False) s) (fun tid _ s' hs => ?_) (.of_eq rfl)
  unfold loseTaskOfJob
  split
  · exact hs
  · split_ifs
    · have hlost : QueuesSlaves (fun _ => False) s' (s'.queueTask tid) :=
        ⟨[.task s'.taskDictId tid], rfl, fun _ => iff_of_false (fun h => by cases mem_singleton.mp h) id⟩
      exact (hs.trans hlost).congr fun _ => or_self_iff
    · exact hs

lemma deleteJob_queues (job : String) (s : Service) :
    QueuesSlaves (fun k => k ∈ s.slaveDict ∧ isSlaveOfJob job k) s (deleteJob job s).1 := by
  have hslaves := foldl_deleteSlaveOfJob_queues job s.slaveDict.keys s fun _ hk => hk
  unfold deleteJob
  dsimp only
  generalize s.slaveDict.keys.foldl (deleteSlaveOfJob job) s = s₁ at hslaves ⊢
  split
  · exact hslaves
  · next ids _ =>
      have hjobs : QueuesSlaves (fun _ => False) s₁ { s₁ with jobIds := some (removeJob job ids) } := .of_eq rfl
      refine seq_inv (I := QueuesSlaves _ s) ?_ fun h => h
      refine ((hslaves.trans hjobs).trans (loseTasksOfJob_queues job _ _)).congr fun k => ?_
      rw [or_false, or_false]
      rfl

lemma deleteJob_lookup (job : String) (s : Service) (sid : String) :
    (sid ∈ (deleteJob job s).1.slaveDict ↔ sid ∈ s.slaveDict) ∧ (isSlaveOfJob job sid = false →
      (deleteJob job s).1.slaveDict.lookup sid = s.slaveDict.lookup sid) := by
  refine deleteJob_keeps (I := fun s' : Service => (sid ∈ s'.slaveDict ↔ sid ∈ s.slaveDict) ∧
    (isSlaveOfJob job sid = false → s'.slaveDict.lookup sid = s.slaveDict.lookup sid))
    (fun k slave s' hk _ hs => ?_) (fun _ _ _ hs => hs) (fun _ _ _ _ _ hs => hs) ⟨.rfl, fun _ => rfl⟩
  rw [deleteSlave_slaveDict, AList.mem_keys, AList.keys_modify]
  refine ⟨hs.1, fun hother => ?_⟩
  rw [lookup_modify_ne]
  · exact hs.2 hother
  · rintro rfl
    exact Bool.noConfusion (hk.symm.trans hother)

/-! ## After the deletions -/

def jobDeleted (job : String) (s : Service) : Service :=
  ((deleteJob job s).1.deleteElements.drop s.deleteElements.length).foldl applyDeletion (deleteJob job s).1

lemma lookup_jobDeleted (job : String) (s : Service) (sid : String) :
    (jobDeleted job s).slaveDict.lookup sid =
      if isSlaveOfJob job sid = true then none else s.slaveDict.lookup sid := by
  obtain ⟨new, hqueue, hnew⟩ := deleteJob_queues job s
  rw [jobDeleted, lookup_slaveDict_foldl, hqueue, drop_left]
  simp only [hnew]
  cases hjob : isSlaveOfJob job sid with
  | false => simpa using (deleteJob_lookup job s sid).2 hjob
  | true =>
    simp only [and_true, if_true, ite_eq_left_iff, lookup_eq_none]
    exact fun hs => mt (deleteJob_lookup job s sid).1.mp hs

lemma mem_jobDeleted {job : String} {s : Service} {sid : String} :
    sid ∈ (jobDeleted job s).slaveDict ↔ sid ∈ s.slaveDict ∧ isSlaveOfJob job sid = false := by
  rw [← lookup_isSome, lookup_jobDeleted, ← lookup_isSome]
  cases isSlaveOfJob job sid <;> simp

theorem deleteJob_removes_iff {job : String} (hjob : '.' ∉ job.toList) (s : Service) :
    ((∀ sid, BuiltFor job sid → sid ∉ (jobDeleted job s).slaveDict) ∧
      ∀ other sid, '.' ∉ other.toList → other ≠ job → BuiltFor other sid → sid ∈ s.slaveDict →
        sid ∈ (jobDeleted job s).slaveDict) ↔
    ∀ sid ∈ s.slaveDict, BuiltFor job sid → ∃ channel, sid = createSlaveId job "undefined" channel := by
  constructor
  · rintro ⟨hgone, -⟩ sid hsid hbuilt
    have hnot := hgone sid hbuilt
    rw [mem_jobDeleted, not_and, Bool.not_eq_false] at hnot
    exact isSlaveOfJob_iff.mp (hnot hsid)
  · intro h
    refine ⟨fun sid hbuilt hmem => ?_, fun other sid hother hne hbuilt hsid => ?_⟩
    · obtain ⟨hsid, hjob'⟩ := mem_jobDeleted.mp hmem
      have hyes := isSlaveOfJob_iff.mpr (h sid hsid hbuilt)
      exact Bool.noConfusion (hyes.symm.trans hjob')
    · refine mem_jobDeleted.mpr ⟨hsid, Bool.eq_false_iff.mpr fun hyes => hne ?_⟩
      -- a recognised id was built for this job, so both jobs would be in it
      obtain ⟨channel, hthis⟩ := isSlaveOfJob_iff.mp hyes
      exact BuiltFor.job_eq hother hjob hbuilt ⟨_, channel, hthis⟩

theorem deleteJob_removes_oneSlave :
    slaveOf "7" "c7" ∈ oneSlave.slaveDict ∧
    (∀ sid, BuiltFor "7" sid → sid ∉ (jobDeleted "7" oneSlave).slaveDict) ∧
      ∀ other sid, '.' ∉ other.toList → other ≠ "7" → BuiltFor other sid → sid ∈ oneSlave.slaveDict →
        sid ∈ (jobDeleted "7" oneSlave).slaveDict := by
  have hkeys : oneSlave.slaveDict.keys = [slaveOf "7" "c7"] := by decide +kernel
  refine ⟨by decide +kernel, (deleteJob_removes_iff (by decide) oneSlave).mpr fun sid hsid _ => ?_⟩
  rw [AList.mem_keys, hkeys] at hsid
  exact ⟨"c7", mem_singleton.mp hsid⟩

def oneArraySlave : Service :=
  runFrom smallService [.registerExecutorRunner
    { jobId := "7", arrayTask := "1", channel := "c1", host := "host", jobTuple := { id := "7" } }]

theorem arraySlave_survives :
    BuiltFor "7" (createSlaveId "7" "1" "c1") ∧
      createSlaveId "7" "1" "c1" ∈ (jobDeleted "7" oneArraySlave).slaveDict :=
  ⟨⟨"1", "c1", rfl⟩, by decide +kernel⟩

end Urb
