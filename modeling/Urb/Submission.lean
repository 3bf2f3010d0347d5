/-
# `Urb.Submission` — the submissions behind one call of `scale_up`

`scale_up` asks for a number of jobs.  Three functions take the request to the
batch system and the ids back:

    __submit_jobs             submits in a loop; reads the id out of what `qsub -terse`
                              prints; hands the ids over when the loop has ended
    submit_executor_runner    catches every exception and answers with no ids
    scale_up                  starts the monitoring of each id, records the ids

A submission that raises, or whose output has no readable id, ends the loop with
an exception, and the ids read before it go with it: those jobs run, but nobody
knows them.

**Proved here.**  Every job that it has reported is recorded and
monitored after the call exactly when all submissions of the call gave an id,
or already the first one did not (`scaleUp_noOrphans_iff`).
-/
import Mathlib.Data.List.DropRight
import Urb.JobLimit
import Urb.Tracker

namespace Urb

open Block List

/-! ## What `qsub` prints -/

def isBlank (c : Char) : Bool := c ∈ [' ', '\t', '\n', '\r', '\x0b', '\x0c']

def strip (cs : List Char) : List Char := (cs.dropWhile isBlank).rdropWhile isBlank

def readDigits (cs : List Char) : Option ℕ :=
  if cs ≠ [] ∧ cs.all Char.isDigit then some (Nat.ofDigitChars 10 cs 0) else none

def readInt (cs : List Char) : Option ℤ :=
  match strip cs with
  | '-' :: ds => (readDigits ds).map (fun n => -(n : ℤ))
  | '+' :: ds => (readDigits ds).map Int.ofNat
  | ds => (readDigits ds).map Int.ofNat

def readArray (cs : List Char) : Option ((ℤ × ℤ) × ℤ) :=
  match cs.splitOn ':' with
  | [range, step] =>
    match range.splitOn '-' with
    | first :: last :: _ => do
        let first ← readInt first
        let last ← readInt last
        let step ← readInt step
        return ((first, last), step)
    | _ => none
  | _ => none

def readJobId (text : String) : Option JobTuple :=
  match ((text.toList.splitOn '\n').filter (· ≠ [])).getLast? with
  | none => none
  | some line =>
    let job := String.ofList (strip (line.takeWhile (· ≠ '.')))
    match line.dropWhile (· ≠ '.') with
    | [] => some { id := job }
    | _ :: rest => (readArray rest).map (fun a => { id := job, array := some a })

example : readJobId "jsv: ok\n7\n" = some { id := "7" } := by decide +kernel

example : readJobId "7.1-3:1\n" = some { id := "7", array := some ((1, 3), 1) } := by decide +kernel

/-! ## The loop -/

/-- What a call of `sub_cmd` ends with. -/
inductive Outcome where
  | raised
  | printed (text : String)
  deriving Repr, DecidableEq

def Outcome.job : Outcome → Option JobTuple
  | .raised => none
  | .printed text => readJobId text

structure AdapterCall where
  prepared : Bool := true
  outcome : ℕ → Outcome

def submitJob (maxTasks : ℤ) (outcome : ℕ → Outcome) (i : ℕ) : Block (List JobTuple) := fun ids =>
  if maxTasks ≤ i then (ids, .ret)
  else
    match (outcome i).job with
    | none => (ids, .raise)
    | some job => (ids ++ [job], .next)

def submitJobs (maxTasks concurrentTasks : ℤ) (outcome : ℕ → Outcome) : List JobTuple × Ending :=
  forEach (submitJob maxTasks outcome) (List.range concurrentTasks.toNat) []

def submitExecutorRunner (maxTasks concurrentTasks : ℤ) (call : AdapterCall) : List JobTuple :=
  if call.prepared then
    let r := submitJobs maxTasks concurrentTasks call.outcome
    if r.2 = .raise then [] else r.1
  else []

def scaleUpMonitored (scaleCount : ℤ) (call : AdapterCall) (s : Service) (jobs : JobTracker) :
    Service × JobTracker :=
  let count := requested s.config scaleCount
  let r := scaleUp scaleCount (submitExecutorRunner s.config.maxTasks count call) s
  (r.1, r.2.foldl (fun jobs j => startJobMonitoring j.id s.frameworkId jobs) jobs)

/-! ## The ids that the batch system reports -/

def reportedJobs (outcome : ℕ → Outcome) : List ℕ → List JobTuple
  | [] => []
  | i :: is =>
    match (outcome i).job with
    | none => []
    | some job => job :: reportedJobs outcome is

def AdapterCall.reported (call : AdapterCall) (n : ℕ) : List JobTuple :=
  if call.prepared then reportedJobs call.outcome (List.range n) else []

section Loop

variable {maxTasks : ℤ} {outcome : ℕ → Outcome}

lemma forEach_submitJob : ∀ {is : List ℕ} (ids : List JobTuple), (∀ i ∈ is, (i : ℤ) < maxTasks) →
    (forEach (submitJob maxTasks outcome) is ids).1 = ids ++ reportedJobs outcome is ∧
      (forEach (submitJob maxTasks outcome) is ids).2 =
        if ∀ i ∈ is, (outcome i).job.isSome then .next else .raise
  | [], ids, _ => ⟨(append_nil ids).symm, rfl⟩
  | i :: is, ids, hlt => by
    have hi : ¬ maxTasks ≤ i := not_le.mpr (hlt i mem_cons_self)
    rw [forEach_cons]
    cases hjob : (outcome i).job with
    | none =>
      have hstep : submitJob maxTasks outcome i ids = (ids, .raise) := by
        rw [submitJob, if_neg hi, hjob]
      rw [seq_of_ne (by rw [hstep]; simp), hstep]
      simp only [reportedJobs, hjob, append_nil, forall_mem_cons, Option.isSome_none,
        Bool.false_eq_true, false_and, if_false, and_self]
    | some job =>
      have hstep : submitJob maxTasks outcome i ids = (ids ++ [job], .next) := by
        rw [submitJob, if_neg hi, hjob]
      obtain ⟨hids, hflow⟩ := forEach_submitJob (ids ++ [job])
        fun i' hi' => hlt i' (mem_cons_of_mem i hi')
      rw [seq_of_next (by rw [hstep]), hstep]
      refine ⟨?_, ?_⟩
      · rw [hids, append_assoc]
        simp only [reportedJobs, hjob, singleton_append]
      · rw [hflow]
        simp only [forall_mem_cons, hjob, Option.isSome_some, true_and]

lemma submitJobs_reported {n : ℕ} (hn : (n : ℤ) ≤ maxTasks) : submitJobs maxTasks n outcome =
      (reportedJobs outcome (List.range n),
        if ∀ i < n, (outcome i).job.isSome then .next else .raise) := by
  have hlt : ∀ i ∈ List.range n, (i : ℤ) < maxTasks := fun i hi =>
    lt_of_lt_of_le (Int.ofNat_lt.mpr (mem_range.mp hi)) hn
  obtain ⟨hids, hflow⟩ : (forEach (submitJob maxTasks outcome) (List.range n) []).1 =
      [] ++ reportedJobs outcome (List.range n) ∧ _ := forEach_submitJob [] hlt
  rw [submitJobs, Int.toNat_natCast]
  refine Prod.ext hids (hflow.trans ?_)
  simp

lemma reportedJobs_eq_nil {n : ℕ} (h : (outcome 0).job = none) :
    reportedJobs outcome (List.range n) = [] := by
  cases n with
  | zero => rfl
  | succ n =>
    rw [range_succ_eq_map]
    simp only [reportedJobs, h]

lemma mem_reportedJobs {job : JobTuple} : ∀ {is : List ℕ}, job ∈ reportedJobs outcome is →
    ∃ i, (outcome i).job = some job
  | i :: is, h => by
    unfold reportedJobs at h
    split at h
    · cases h
    · next first hfirst =>
        rcases mem_cons.mp h with rfl | h
        · exact ⟨i, hfirst⟩
        · exact mem_reportedJobs h

lemma mem_reportedJobs_zero {n : ℕ} {job : JobTuple} (hn : n ≠ 0) (h : (outcome 0).job = some job) :
    job ∈ reportedJobs outcome (List.range n) := by
  obtain ⟨n, rfl⟩ := Nat.exists_eq_succ_of_ne_zero hn
  rw [range_succ_eq_map]
  simp only [reportedJobs, h, mem_cons, true_or]

end Loop

lemma requested_le {config : Config} {count : ℤ} (h : requested config count ≠ 0) :
    (requested config count : ℤ) ≤ config.maxTasks := by
  unfold requested at h ⊢
  generalize (if count = 0 then config.scaleCount else count) = n at h ⊢
  dsimp only at h ⊢
  split_ifs at h ⊢ with hnone
  · exact absurd rfl h
  · omega

/-! ## Orphans -/

def IsKept (job : JobTuple) (s : Service) (jobs : JobTracker) : Prop :=
  job ∈ s.jobs ∧ jobs.lookup job.id = some { frameworkId := s.frameworkId, monitorJob := true }

instance (job : JobTuple) (s : Service) (jobs : JobTracker) : Decidable (IsKept job s jobs) :=
  inferInstanceAs (Decidable (_ ∧ _))

lemma lookup_startAll (frameworkId : String) : ∀ (js : List JobTuple) (jobs : JobTracker),
    ∀ k : String, (js.foldl (fun jobs j => startJobMonitoring j.id frameworkId jobs) jobs).lookup k =
      if k ∈ js.map (·.id) then some { frameworkId := frameworkId, monitorJob := true }
      else jobs.lookup k
  | [], _, _ => rfl
  | j :: js, jobs, k => by
    rw [foldl_cons, lookup_startAll frameworkId js, map_cons]
    by_cases hmem : k ∈ js.map (·.id)
    · rw [if_pos hmem, if_pos (mem_cons_of_mem _ hmem)]
    · rw [if_neg hmem, startJobMonitoring, AList.lookup_insert_eq_ite]
      exact if_congr (by simp only [mem_cons, hmem, or_false]) rfl rfl

section Call

variable {count : ℤ} {call : AdapterCall} {s : Service} {jobs : JobTracker}

lemma isKept_scaleUpMonitored_iff {job : JobTuple} (hn : requested s.config count ≠ 0)
    (hnew : job ∉ s.jobs) :
    IsKept job (scaleUpMonitored count call s jobs).1 (scaleUpMonitored count call s jobs).2 ↔
      job ∈ submitExecutorRunner s.config.maxTasks (requested s.config count) call := by
  unfold scaleUpMonitored
  dsimp only
  generalize submitExecutorRunner s.config.maxTasks (requested s.config count) call = ids
  rcases scaleUp_cases count ids s with ⟨hzero, -⟩ | he
  · exact absurd hzero hn
  · rw [he]
    constructor
    · rintro ⟨hjob, -⟩
      exact (mem_append.mp (mem_dedup.mp hjob)).resolve_left hnew
    · intro hjob
      refine ⟨mem_dedup.mpr (mem_append_right _ hjob), ?_⟩
      rw [lookup_startAll, if_pos (mem_map_of_mem hjob)]

theorem scaleUp_noOrphans_iff (hnew : ∀ i job, (call.outcome i).job = some job → job ∉ s.jobs) :
    (∀ job ∈ call.reported (requested s.config count),
      IsKept job (scaleUpMonitored count call s jobs).1 (scaleUpMonitored count call s jobs).2) ↔
    call.prepared = false ∨ (call.outcome 0).job = none ∨
      ∀ i < requested s.config count, (call.outcome i).job.isSome := by
  by_cases hn : requested s.config count = 0
  · rw [hn]
    refine iff_of_true (fun job hjob => ?_) (Or.inr (Or.inr fun i hi => absurd hi (Nat.not_lt_zero i)))
    unfold AdapterCall.reported at hjob
    split_ifs at hjob <;> cases hjob
  · cases hprep : call.prepared with
    | false =>
      refine iff_of_true (fun job hjob => ?_) (Or.inl rfl)
      rw [AdapterCall.reported, hprep] at hjob
      cases hjob
    | true =>
      have hloop : submitJobs s.config.maxTasks (requested s.config count) call.outcome = _ :=
        submitJobs_reported (requested_le hn)
      have hreported : call.reported (requested s.config count) =
          reportedJobs call.outcome (List.range (requested s.config count)) := by
        rw [AdapterCall.reported, hprep, if_pos rfl]
      have hback : submitExecutorRunner s.config.maxTasks (requested s.config count) call =
          if ∀ i < requested s.config count, (call.outcome i).job.isSome then
            call.reported (requested s.config count) else [] := by
        rw [submitExecutorRunner, hprep, if_pos rfl, hloop, hreported]
        split_ifs <;> rfl
      have hmem : ∀ job ∈ call.reported (requested s.config count), job ∉ s.jobs := by
        rw [hreported]
        exact fun job hjob => (mem_reportedJobs hjob).elim fun i hi => hnew i job hi
      rw [forall₂_congr fun job hjob => isKept_scaleUpMonitored_iff hn (hmem job hjob), hback]
      split_ifs with hall
      · exact iff_of_true (fun _ hjob => hjob) (Or.inr (Or.inr hall))
      · constructor
        · intro h
          refine Or.inr (Or.inl ?_)
          cases hfirst : (call.outcome 0).job with
          | none => rfl
          | some job =>
            rw [hreported] at h
            exact absurd (h job (mem_reportedJobs_zero hn hfirst)) not_mem_nil
        · rintro (hfalse | hfirst | hall')
          · cases hfalse
          · rw [hreported, reportedJobs_eq_nil hfirst]
            exact fun _ hjob => hjob
          · exact absurd hall' hall

end Call

/-! ## Two submissions -/

def twoAtOnce : Service := .fresh { smallConfig with scaleCount := 2 } "fw" "host" false

def bothAccepted : AdapterCall := { outcome := fun i => .printed (if i = 0 then "7\n" else "8\n") }

def secondRaises : AdapterCall := { outcome := fun i => if i = 0 then .printed "7\n" else .raised }

theorem scaleUp_noOrphans_both :
    bothAccepted.reported (requested twoAtOnce.config 0) = [{ id := "7" }, { id := "8" }] ∧
      ∀ job ∈ bothAccepted.reported (requested twoAtOnce.config 0),
        IsKept job (scaleUpMonitored 0 bothAccepted twoAtOnce ∅).1
          (scaleUpMonitored 0 bothAccepted twoAtOnce ∅).2 := by
  refine ⟨by decide +kernel, (scaleUp_noOrphans_iff fun _ _ _ => not_mem_nil).mpr ?_⟩
  exact Or.inr (Or.inr (by decide +kernel))

theorem orphan_secondRaises :
    { id := "7" } ∈ secondRaises.reported (requested twoAtOnce.config 0) ∧
      (scaleUpMonitored 0 secondRaises twoAtOnce ∅).1.jobs = [] ∧
      ¬ JobTracker.Monitored (scaleUpMonitored 0 secondRaises twoAtOnce ∅).2 "7" := by
  refine ⟨by decide +kernel, by decide +kernel, ?_⟩
  rintro ⟨info, hinfo, -⟩
  have hnone : (scaleUpMonitored 0 secondRaises twoAtOnce ∅).2.lookup "7" = none := by decide +kernel
  cases hinfo.symm.trans hnone

end Urb
