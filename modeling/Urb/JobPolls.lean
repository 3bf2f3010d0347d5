/-
# `Urb.JobPolls` — how the job monitor gives a job up

The monitor asks the adapter for the state of every job in the tracker.  When
the adapter raises anything but `PendingJob`, the poll has FAILED: the error
counter of the job's entry goes up, and the job is removed and its delete
callback invoked if there is accounting for it, or if the counter has passed
the maximum.  No other poll sets the counter back; only `start_job_monitoring`
does, because it makes a new entry.

A run is one of the loop `JobMonitor.monitor`, with `start_job_monitoring` and
`stop_job_monitoring` at any moment.  Beside it a `Watch` keeps what has happened.

**Proved here.**  In every run every job is given up at most once for each
start, and only in a round in which its poll failed; and it is given up without
accounting after polls that all failed exactly in the runs in which, whenever
the polls of an entry have failed once more than the maximum, no other result
came after the first of them (`job_given_up_iff`).
-/
import Urb.BackgroundLoops

namespace Urb

open List AList Function Nat Prod

namespace JobMonitor

variable {info : MonitoredJob}

/-! ## Polls -/

inductive Poll where
  | status
  | pending
  | failed
  deriving DecidableEq, Repr

def Unbroken (polls : List Poll) : Prop :=
  polls.Pairwise fun newer older => older = .failed → newer = .failed

instance (polls : List Poll) : Decidable (Unbroken polls) :=
  inferInstanceAs (Decidable (polls.Pairwise _))

def failures (polls : List Poll) : ℕ := polls.countP (· = .failed)

lemma failures_le_length (polls : List Poll) : failures polls ≤ polls.length := countP_le_length

lemma unbroken_iff : ∀ polls : List Poll,
    Unbroken polls ↔ polls.take (failures polls) = List.replicate (failures polls) .failed
  | [] => iff_of_true .nil rfl
  | p :: polls => by
    have ih := unbroken_iff polls
    rw [Unbroken, pairwise_cons]
    by_cases hp : p = .failed
    · have hcount : failures (p :: polls) = failures polls + 1 := countP_cons_of_pos (by simpa using hp)
      rw [hcount, take_succ_cons, replicate_succ, hp]
      simp only [List.cons.injEq, true_and, ← ih]
      exact ⟨And.right, fun h => ⟨fun _ _ _ => trivial, h⟩⟩
    · have hcount : failures (p :: polls) = failures polls := countP_cons_of_neg (by simpa using hp)
      rw [hcount]
      rcases Nat.eq_zero_or_pos (failures polls) with hzero | hpos
      · -- no poll failed
        have hnone : ∀ q ∈ polls, q ≠ .failed := by simpa [failures] using hzero
        rw [hzero] at ih ⊢
        exact iff_of_true ⟨fun q hq hf => absurd hf (hnone q hq), ih.mpr rfl⟩ rfl
      · refine iff_of_false (fun h => ?_) fun h => ?_
        · obtain ⟨q, hq, hf⟩ := countP_pos_iff.mp hpos
          exact hp (h.1 q hq (by simpa using hf))
        · obtain ⟨n, hn⟩ := exists_eq_succ_of_ne_zero hpos.ne'
          rw [hn, take_succ_cons, replicate_succ, List.cons.injEq] at h
          exact hp h.1

/-! ## The monitor and what it has done -/

def startJobMonitoring (job frameworkId : String) (serial : ℕ) (jobs : Jobs) : Jobs :=
  jobs.insert job { frameworkId := frameworkId, monitorJob := true, serial := serial }

def stopJobMonitoring (job : String) (jobs : Jobs) : Jobs :=
  jobs.modify job (fun entry => { entry with monitorJob := false })

structure Deletion where
  job : String
  monitored : Bool
  poll : Option Poll
  size : ℕ
  polls : List Poll

structure History where
  serial : ℕ := 0
  polls : String → List Poll := fun _ => []
  entryPolls : String → ℕ → List Poll := fun _ _ => []
  deletes : String → ℕ := fun _ => 0

structure Watch where
  loop : LoopState String MonitorCall Jobs := BackgroundLoop.started ∅
  current : Option Poll := none
  history : History := {}
  deletions : List Deletion := []

inductive Event where
  | start (job frameworkId : String)
  | stop (job : String)
  | go
  | poll (p : Poll)
  | accounting (size : ℕ)
  | callback
  deriving DecidableEq, Repr

namespace History

def start (job : String) (h : History) : History :=
  { h with serial := h.serial + 1, deletes := Function.update h.deletes job 0 }

def poll (job : String) (serial : ℕ) (p : Poll) (h : History) : History :=
  { h with polls := Function.update h.polls job (p :: h.polls job)
           entryPolls := Function.update h.entryPolls job
             (Function.update (h.entryPolls job) serial (p :: h.entryPolls job serial)) }

def delete (job : String) (h : History) : History :=
  { h with deletes := Function.update h.deletes job (h.deletes job + 1) }

lemma deletes_start (job j : String) (h : History) :
    (h.start job).deletes j = if j = job then 0 else h.deletes j := update_apply _ _ _ _

lemma polls_poll (job j : String) (serial : ℕ) (p : Poll) (h : History) :
    (h.poll job serial p).polls j = if j = job then p :: h.polls job else h.polls j :=
  update_apply _ _ _ _

lemma entryPolls_poll (job j : String) (serial k : ℕ) (p : Poll) (h : History) :
    (h.poll job serial p).entryPolls j k =
      if j = job ∧ k = serial then p :: h.entryPolls job serial else h.entryPolls j k := by
  by_cases hj : j = job
  · subst hj
    simp only [poll, update_self, update_apply, true_and]
  · simp only [poll, update_of_ne hj, hj, false_and, if_false]

lemma deletes_delete (job j : String) (h : History) :
    (h.delete job).deletes j = if j = job then h.deletes job + 1 else h.deletes j :=
  update_apply _ _ _ _

end History

def Poll.toEvent : Poll → LoopEvent (Option ℕ) MonitorException Jobs
  | .status => .returns none
  | .pending => .raises .pendingJob
  | .failed => .raises .other

def Watch.afterAccounting (maxCount : ℕ) (job : String) (info : MonitoredJob) (size : ℕ)
    (s : Watch) : Watch :=
  let loop := (monitor maxCount).step s.loop (.returns none)
  if loop.pc = .inCall (.jobDelete job) then
    { s with
      loop := loop
      history := s.history.delete job
      deletions := ⟨job, info.monitorJob, s.current, size, s.history.polls job⟩ :: s.deletions }
  else { s with loop := loop }

def Watch.step (maxCount : ℕ) (s : Watch) : Event → Watch
  | .start job frameworkId =>
    let history := s.history.start job
    { s with
      loop := (monitor maxCount).step s.loop
        (.environment (startJobMonitoring job frameworkId history.serial))
      history := history }
  | .stop job =>
    { s with loop := (monitor maxCount).step s.loop (.environment (stopJobMonitoring job)) }
  | .go =>
    match s.loop.pc with
    | .inCall _ => s
    | _ => { s with loop := (monitor maxCount).step s.loop .go, current := none }
  | .poll p =>
    match s.loop.pc with
    | .inCall (.getJobStatus job info) =>
      { s with
        loop := (monitor maxCount).step s.loop p.toEvent
        current := some p
        history := s.history.poll job info.serial p }
    | _ => s
  | .accounting size =>
    match s.loop.pc with
    | .inCall (.getJobAccounting _ _ _ _) =>
      { s with loop := (monitor maxCount).step s.loop (.returns (some size)) }
    | _ => s
  | .callback =>
    match s.loop.pc with
    | .inCall (.jobStatusUpdate _ _) =>
      { s with loop := (monitor maxCount).step s.loop (.returns none) }
    | .inCall (.jobAccountingUpdate _ job info _ (some size)) =>
      s.afterAccounting maxCount job info size
    | .inCall (.jobDelete _) =>
      { s with loop := (monitor maxCount).step s.loop (.returns none) }
    | _ => s

/-! ## Entries and their polls -/

structure Held where
  job : String
  serial : ℕ
  errors : ℕ
  handling : Bool

def Held.of (job : String) (info : MonitoredJob) (handling : Bool) : Held :=
  ⟨job, info.serial, info.statusRetrievalErrorCount, handling⟩

def held : LoopPc MonitorCall → Option Held
  | .inCall (.getJobStatus job info) => some (.of job info false)
  | .inCall (.jobStatusUpdate job info) => some (.of job info false)
  | .inCall (.getJobAccounting onError job info _) => some (.of job info onError)
  | .inCall (.jobAccountingUpdate onError job info _ _) => some (.of job info onError)
  | _ => none

def entries (jobs : Jobs) (job : String) : Option (ℕ × ℕ) :=
  (jobs.lookup job).map fun info => (info.serial, info.statusRetrievalErrorCount)

structure Sound (maxCount : ℕ) (tracked : String → Option (ℕ × ℕ)) (held : Option Held) (h : History) :
    Prop where
  fresh : ∀ job k, h.serial < k → h.entryPolls job k = []
  tracked_le : ∀ {job k n}, tracked job = some (k, n) → k ≤ h.serial
  tracked_errors : ∀ {job k n}, tracked job = some (k, n) → n = failures (h.entryPolls job k)
  tracked_polls : ∀ {job k n}, tracked job = some (k, n) → h.entryPolls job k <+: h.polls job
  tracked_deletes : ∀ {job k n}, tracked job = some (k, n) → h.deletes job = 0
  tracked_max : ∀ {job k n}, tracked job = some (k, n) → n ≤ maxCount ∨ held = some ⟨job, k, n, true⟩
  held_tracked : ∀ {x}, held = some x → (tracked x.job).isSome = true
  held_le : ∀ {x}, held = some x → x.serial ≤ h.serial
  held_errors : ∀ {x}, held = some x → x.errors = failures (h.entryPolls x.job x.serial)
  held_polls : ∀ {x}, held = some x → h.entryPolls x.job x.serial <+: h.polls x.job
  held_new : ∀ {x}, held = some x → ∀ {k n}, tracked x.job = some (k, n) → k ≠ x.serial →
    h.entryPolls x.job k = []
  held_max : ∀ {x}, held = some x → x.errors ≤ if x.handling then maxCount + 1 else maxCount
  once : ∀ job, h.deletes job ≤ 1

namespace Sound

variable {maxCount : ℕ} {tracked : String → Option (ℕ × ℕ)} {x : Held} {h : History} {job : String}

lemma start {held : Option Held} (hs : Sound maxCount tracked held h) (job : String) :
    Sound maxCount (update tracked job (some (h.serial + 1, 0))) held (h.start job) := by
  have hnew : h.entryPolls job (h.serial + 1) = [] := hs.fresh job _ (lt_succ_self _)
  have hsplit : ∀ {j k n}, update tracked job (some (h.serial + 1, 0)) j = some (k, n) →
      (j = job ∧ k = h.serial + 1 ∧ n = 0) ∨ (j ≠ job ∧ tracked j = some (k, n)) := by
    intro j k n hj
    by_cases hjob : j = job
    · subst hjob
      rw [Function.update_self, Option.some.injEq, Prod.mk.injEq] at hj
      exact .inl ⟨rfl, hj.1.symm, hj.2.symm⟩
    · rw [update_of_ne hjob] at hj
      exact .inr ⟨hjob, hj⟩
  refine ⟨fun j k hk => hs.fresh j k (lt_of_succ_lt hk), fun hj => ?_, fun hj => ?_, fun hj => ?_,
    fun hj => ?_, fun hj => ?_, fun hx => ?_, fun hx => (hs.held_le hx).trans (le_succ _),
    hs.held_errors, hs.held_polls, fun hx k n hj hne => ?_, hs.held_max, fun j => ?_⟩
  · rcases hsplit hj with ⟨-, rfl, -⟩ | ⟨-, hj⟩
    · exact le_rfl
    · exact (hs.tracked_le hj).trans (le_succ _)
  · rcases hsplit hj with ⟨rfl, rfl, rfl⟩ | ⟨-, hj⟩
    · exact (congrArg failures hnew).symm
    · exact hs.tracked_errors hj
  · rcases hsplit hj with ⟨rfl, rfl, -⟩ | ⟨-, hj⟩
    · exact hnew.symm ▸ nil_prefix
    · exact hs.tracked_polls hj
  · rcases hsplit hj with ⟨rfl, -, -⟩ | ⟨hne, hj⟩
    · rw [History.deletes_start, if_pos rfl]
    · rw [History.deletes_start, if_neg hne, hs.tracked_deletes hj]
  · rcases hsplit hj with ⟨-, -, rfl⟩ | ⟨-, hj⟩
    · exact .inl (zero_le _)
    · exact hs.tracked_max hj
  · next x =>
      by_cases hjob : x.job = job
      · rw [hjob, update_self]
        rfl
      · rw [update_of_ne hjob]
        exact hs.held_tracked hx
  · rcases hsplit hj with ⟨rfl, rfl, -⟩ | ⟨-, hj⟩
    · exact hnew
    · exact hs.held_new hx hj hne
  · rw [History.deletes_start]
    split_ifs
    · exact zero_le 1
    · exact hs.once j

lemma take (hs : Sound maxCount tracked none h) {k n : ℕ} (hjob : tracked job = some (k, n)) :
    Sound maxCount tracked (some ⟨job, k, n, false⟩) h := by
  have hmax : ∀ {j k n}, tracked j = some (k, n) → n ≤ maxCount := fun hj =>
    (hs.tracked_max hj).resolve_right nofun
  refine { hs with
    tracked_max := fun hj => .inl (hmax hj), held_tracked := ?_, held_le := ?_, held_errors := ?_
    held_polls := ?_, held_new := ?_, held_max := ?_ } <;> rintro x ⟨⟩
  · rw [hjob]
    rfl
  · exact hs.tracked_le hjob
  · exact hs.tracked_errors hjob
  · exact hs.tracked_polls hjob
  · intro k' n' hj hne
    rw [hjob, Option.some.injEq, Prod.mk.injEq] at hj
    exact absurd hj.1.symm hne
  · exact hmax hjob

variable (hs : Sound maxCount tracked (some x) h)
include hs

lemma release (hmax : x.errors ≤ maxCount) : Sound maxCount tracked none h := by
  refine { hs with
    tracked_max := fun hj => ?_, held_tracked := ?_, held_le := ?_, held_errors := ?_
    held_polls := ?_, held_new := ?_, held_max := ?_ }
  · rcases hs.tracked_max hj with hle | heq
    · exact .inl hle
    · cases heq
      exact .inl hmax
  all_goals rintro _ ⟨⟩

lemma delete : Sound maxCount (update tracked x.job none) none (h.delete x.job) := by
  obtain ⟨⟨k, n⟩, htracked⟩ := isSome_iff_exists.mp (hs.held_tracked rfl)
  have hzero : h.deletes x.job = 0 := hs.tracked_deletes htracked
  have hsplit : ∀ {j e}, update tracked x.job none j = some e → j ≠ x.job ∧ tracked j = some e := by
    intro j e hj
    by_cases hjob : j = x.job
    · rw [hjob, update_self] at hj
      cases hj
    · rw [update_of_ne hjob] at hj
      exact ⟨hjob, hj⟩
  refine ⟨hs.fresh, fun hj => hs.tracked_le (hsplit hj).2, fun hj => hs.tracked_errors (hsplit hj).2,
    fun hj => hs.tracked_polls (hsplit hj).2, fun hj => ?_, fun hj => ?_, nofun, nofun, nofun, nofun,
    nofun, nofun, fun j => ?_⟩
  · rw [History.deletes_delete, if_neg (hsplit hj).1, hs.tracked_deletes (hsplit hj).2]
  · refine .inl ((hs.tracked_max (hsplit hj).2).resolve_right fun heq => (hsplit hj).1 ?_)
    cases heq
    rfl
  · rw [History.deletes_delete, hzero]
    split_ifs
    · exact le_rfl
    · exact hs.once j

lemma entryPolls_of_ne (p : Poll) {j : String} {k n : ℕ} (hj : tracked j = some (k, n))
    (hne : ¬(j = x.job ∧ k = x.serial)) : (h.poll x.job x.serial p).entryPolls j k = h.entryPolls j k ∧
      h.entryPolls j k <+: (h.poll x.job x.serial p).polls j := by
  rw [History.entryPolls_poll, if_neg hne, History.polls_poll]
  refine ⟨rfl, ?_⟩
  split_ifs with hjob
  · subst hjob
    rw [hs.held_new rfl hj fun hk => hne ⟨rfl, hk⟩]
    exact nil_prefix
  · exact hs.tracked_polls hj

lemma poll {p : Poll} {errors : ℕ} (handling : Bool)
    (herrors : errors = failures (p :: h.entryPolls x.job x.serial))
    (hmax : errors ≤ if handling then maxCount + 1 else maxCount) {tracked' : String → Option (ℕ × ℕ)}
    (htracked : ∀ j, tracked' j = (tracked j).map fun e => if j = x.job ∧ e.1 = x.serial then (e.1, errors) else e) :
    Sound maxCount tracked' (some ⟨x.job, x.serial, errors, handling⟩) (h.poll x.job x.serial p) := by
  have hown : (h.poll x.job x.serial p).entryPolls x.job x.serial = p :: h.entryPolls x.job x.serial := by
    rw [History.entryPolls_poll, if_pos ⟨rfl, rfl⟩]
  have hpolls : p :: h.entryPolls x.job x.serial <+: (h.poll x.job x.serial p).polls x.job := by
    rw [History.polls_poll, if_pos rfl]
    exact cons_prefix_cons.mpr ⟨rfl, hs.held_polls rfl⟩
  -- an entry of the tracker is the one that was polled, or is as before
  have hsplit : ∀ {j k n}, tracked' j = some (k, n) → (j = x.job ∧ k = x.serial ∧ n = errors) ∨
      (¬(j = x.job ∧ k = x.serial) ∧ tracked j = some (k, n)) := by
    intro j k n hj
    rw [htracked] at hj
    obtain ⟨e, he, heq⟩ := map_eq_some_iff.mp hj
    split_ifs at heq with hown
    · cases heq
      exact .inl ⟨hown.1, hown.2, rfl⟩
    · cases heq
      exact .inr ⟨hown, he⟩
  refine ⟨fun j k hk => ?_, fun hj => ?_, fun hj => ?_, fun hj => ?_, fun hj => ?_, fun hj => ?_, ?_, ?_,
    ?_, ?_, ?_, ?_, hs.once⟩
  · have hlt : ¬(j = x.job ∧ k = x.serial) := fun heq => by
      exact absurd (hs.held_le rfl) (not_le.mpr (heq.2 ▸ hk))
    rw [History.entryPolls_poll, if_neg hlt]
    exact hs.fresh j k hk
  · rcases hsplit hj with ⟨-, rfl, -⟩ | ⟨-, hj⟩
    · exact hs.held_le rfl
    · exact hs.tracked_le hj
  · rcases hsplit hj with ⟨rfl, rfl, rfl⟩ | ⟨hne, hj⟩
    · rw [hown, herrors]
    · rw [(hs.entryPolls_of_ne p hj hne).1]
      exact hs.tracked_errors hj
  · rcases hsplit hj with ⟨rfl, rfl, rfl⟩ | ⟨hne, hj⟩
    · rw [hown]
      exact hpolls
    · obtain ⟨hsame, hprefix⟩ := hs.entryPolls_of_ne p hj hne
      rw [hsame]
      exact hprefix
  · rcases hsplit hj with ⟨rfl, -, -⟩ | ⟨-, hj⟩
    · obtain ⟨e, he⟩ := isSome_iff_exists.mp (hs.held_tracked rfl)
      exact hs.tracked_deletes he
    · exact hs.tracked_deletes hj
  · rcases hsplit hj with ⟨rfl, rfl, rfl⟩ | ⟨hne, hj⟩
    · cases handling with
      | false => exact .inl hmax
      | true => exact .inr rfl
    · refine .inl ((hs.tracked_max hj).resolve_right fun heq => hne ?_)
      cases heq
      exact ⟨rfl, rfl⟩
  all_goals rintro _ ⟨⟩
  · rw [htracked, Option.isSome_map]
    exact hs.held_tracked (x := x) rfl
  · exact hs.held_le (x := x) rfl
  · rw [hown, herrors]
  · rw [hown]
    exact hpolls
  · intro k n hj hne
    rcases hsplit hj with ⟨-, rfl, -⟩ | ⟨hother, hj⟩
    · exact absurd rfl hne
    · rw [(hs.entryPolls_of_ne p hj hother).1]
      exact hs.held_new rfl hj hne
  · exact hmax

end Sound

/-! ## One step -/

section Entries

variable {jobs : Jobs} {job : String}

lemma entries_start (frameworkId : String) (serial : ℕ) :
    entries (startJobMonitoring job frameworkId serial jobs) =
      update (entries jobs) job (some (serial, 0)) := by
  funext j
  rw [entries, startJobMonitoring, lookup_insert_eq_ite, update_apply]
  split_ifs <;> rfl

lemma entries_modify {f : MonitoredJob → MonitoredJob} (hf : ∀ info, (f info).serial = info.serial ∧
      (f info).statusRetrievalErrorCount = info.statusRetrievalErrorCount) :
    entries (jobs.modify job f) = entries jobs := by
  funext j
  rw [entries, lookup_modify]
  split_ifs
  · rw [Option.map_map, entries]
    exact congrArg (Option.map · _) (funext fun info => Prod.ext (hf info).1 (hf info).2)
  · rfl

lemma entries_erase : entries (jobs.erase job) = update (entries jobs) job none := by
  funext j
  rw [entries, lookup_erase_eq_ite, update_apply]
  split_ifs <;> rfl

lemma entries_count (info : MonitoredJob) (cnt : ℕ) (j : String) :
    entries (jobs.modify job (fun entry =>
      if entry.serial = info.serial then { entry with statusRetrievalErrorCount := cnt } else entry)) j =
      (entries jobs j).map fun e => if j = job ∧ e.1 = info.serial then (e.1, cnt) else e := by
  rw [entries, entries, lookup_modify, Option.map_map]
  by_cases hj : j = job
  · rw [if_pos hj, Option.map_map]
    congr 1
    funext entry
    by_cases hserial : entry.serial = info.serial <;> simp [hj, hserial]
  · rw [if_neg hj]
    congr 1
    funext entry
    simp [hj]

end Entries

def Shape (current : Option Poll) : LoopPc MonitorCall → Prop
  | .inCall (.getJobStatus _ info) => info.monitorJob = true
  | .inCall (.getJobAccounting true _ info cnt) =>
    info.monitorJob = true ∧ cnt = info.statusRetrievalErrorCount ∧ current = some .failed
  | .inCall (.getJobAccounting false _ info _) => info.monitorJob = false
  | .inCall (.jobAccountingUpdate true _ info cnt size) =>
    info.monitorJob = true ∧ cnt = info.statusRetrievalErrorCount ∧ current = some .failed ∧
      size.isSome = true
  | .inCall (.jobAccountingUpdate false _ info _ size) =>
    info.monitorJob = false ∧ size.isSome = true
  | _ => True

structure Fits (maxCount : ℕ) (current : Option Poll) (h : History) (jobs : Jobs)
    (pc : LoopPc MonitorCall) : Prop where
  sound : Sound maxCount (entries jobs) (held pc) h
  shape : Shape current pc

def placeOf : LoopNext String MonitorCall → LoopPc MonitorCall
  | .call c => .inCall c
  | _ => .between

lemma Fits.continueWith {maxCount : ℕ} {current : Option Poll} {h : History}
    {next : LoopNext String MonitorCall} {s : LoopState String MonitorCall Jobs}
    (hf : Fits maxCount current h s.data (placeOf next)) :
    Fits maxCount current h (s.continueWith next).data (s.continueWith next).pc := by
  cases next <;> exact hf

section Steps

variable {maxCount : ℕ} {current : Option Poll} {h : History} {jobs : Jobs} {job : String}
  {info : MonitoredJob}

lemma Fits.body (hs : Sound maxCount (entries jobs) none h) (job : String) :
    Fits maxCount none h ((monitor maxCount).body job jobs).1
      (placeOf ((monitor maxCount).body job jobs).2) := by
  cases hinfo : jobs.lookup job with
  | none =>
    simp only [monitor, hinfo]
    exact ⟨hs, trivial⟩
  | some info =>
    have hentry : entries jobs job = some (info.serial, info.statusRetrievalErrorCount) := by
      rw [entries, hinfo]
      rfl
    cases hmon : info.monitorJob with
    | true =>
      simp only [monitor, hinfo, hmon, if_true]
      exact ⟨hs.take hentry, hmon⟩
    | false =>
      simp only [monitor, hinfo, hmon, Bool.false_eq_true, if_false, retrieveJobAccounting]
      refine ⟨?_, hmon⟩
      rw [entries_modify]
      · exact hs.take hentry
      · exact fun entry => by split_ifs <;> exact ⟨rfl, rfl⟩

lemma Fits.poll_other {p : Poll} (hp : p ≠ .failed)
    (hf : Fits maxCount current h jobs (.inCall (.getJobStatus job info))) :
    Sound maxCount (entries jobs) (some (.of job info false)) (h.poll job info.serial p) := by
  have herrors := hf.sound.held_errors rfl
  refine hf.sound.poll (x := .of job info false) false ?_ (hf.sound.held_max rfl) ?_
  · refine herrors.trans ?_
    rw [failures, failures, countP_cons_of_neg (by simpa using hp)]
  · intro j
    cases hj : entries jobs j with
    | none => rfl
    | some e =>
      rw [map_some]
      split_ifs with hown
      · obtain ⟨rfl, hserial⟩ := hown
        have htracked := hf.sound.tracked_errors hj
        rw [Option.some.injEq]
        refine Prod.ext rfl ?_
        rw [htracked, hserial]
        exact herrors.symm
      · rfl

lemma Fits.poll_failed (hf : Fits maxCount current h jobs (.inCall (.getJobStatus job info))) :
    Fits maxCount (some .failed) (h.poll job info.serial .failed)
      (handleJobStatusRetrievalError job info jobs).1
      (placeOf (handleJobStatusRetrievalError job info jobs).2) := by
  have herrors := hf.sound.held_errors rfl
  have hmax : info.statusRetrievalErrorCount ≤ maxCount := hf.sound.held_max rfl
  refine ⟨?_, hf.shape, rfl, rfl⟩
  refine hf.sound.poll (x := .of job info false) true ?_ (succ_le_succ hmax) (entries_count info _)
  rw [failures, countP_cons_of_pos (by simp)]
  exact congrArg (· + 1) herrors

lemma Fits.afterAccounting {onError : Bool} {cnt size : ℕ} (hf : Fits maxCount current h jobs
      (.inCall (.jobAccountingUpdate onError job info cnt (some size)))) :
    if size > 0 ∨ cnt > maxCount then
      Fits maxCount current (h.delete job) (jobs.erase job) (.inCall (.jobDelete job))
    else Fits maxCount current h jobs .between := by
  split_ifs with hgive
  · refine ⟨?_, trivial⟩
    rw [entries_erase]
    exact hf.sound.delete
  · obtain ⟨-, hcnt⟩ := not_or.mp hgive
    refine ⟨hf.sound.release ?_, trivial⟩
    cases onError with
    | false => exact hf.sound.held_max rfl
    | true =>
      have heq : cnt = info.statusRetrievalErrorCount := hf.shape.2.1
      exact heq.symm.trans_le (not_lt.mp hcnt)

end Steps

/-! ## Runs -/

namespace Watch

variable {maxCount : ℕ} {s : Watch}

def Inv (maxCount : ℕ) (s : Watch) : Prop :=
  Fits maxCount s.current s.history s.loop.data s.loop.pc

lemma Inv.start (h : s.Inv maxCount) (job frameworkId : String) :
    (s.step maxCount (.start job frameworkId)).Inv maxCount := by
  refine ⟨?_, h.shape⟩
  show Sound maxCount (entries (startJobMonitoring job frameworkId _ s.loop.data)) _ _
  rw [entries_start]
  exact h.sound.start job

lemma Inv.stop (h : s.Inv maxCount) (job : String) : (s.step maxCount (.stop job)).Inv maxCount := by
  refine ⟨?_, h.shape⟩
  show Sound maxCount (entries (stopJobMonitoring job s.loop.data)) _ _
  rw [stopJobMonitoring, entries_modify]
  · exact h.sound
  · exact fun info => ⟨rfl, rfl⟩

lemma Inv.go (h : s.Inv maxCount) : (s.step maxCount .go).Inv maxCount := by
  have hsound := h.sound
  unfold Inv
  simp only [step]
  cases hpc : s.loop.pc with
  | inCall c => exact h
  | top =>
    rw [hpc] at hsound
    simp only [BackgroundLoop.step, BackgroundLoop.goOn, hpc]
    split_ifs
    · exact Fits.continueWith ⟨hsound, trivial⟩
    · exact ⟨hsound, trivial⟩
  | between =>
    rw [hpc] at hsound
    simp only [BackgroundLoop.step, BackgroundLoop.goOn, hpc]
    cases s.loop.left with
    | nil => exact ⟨hsound, trivial⟩
    | cons job rest => exact Fits.continueWith (Fits.body hsound job)
  | exited =>
    simp only [BackgroundLoop.step, BackgroundLoop.goOn, hpc]
    exact ⟨hpc ▸ hsound, trivial⟩
  | died =>
    simp only [BackgroundLoop.step, BackgroundLoop.goOn, hpc]
    exact ⟨hpc ▸ hsound, trivial⟩

lemma Inv.poll (h : s.Inv maxCount) (p : Poll) : (s.step maxCount (.poll p)).Inv maxCount := by
  unfold Inv
  simp only [step]
  split
  · next job info hpc =>
      have hf : Fits maxCount s.current s.history s.loop.data (.inCall (.getJobStatus job info)) :=
        hpc ▸ h
      cases p with
      | status =>
        simp only [Poll.toEvent, BackgroundLoop.step, hpc]
        exact ⟨hf.poll_other (p := .status) (by decide), trivial⟩
      | pending =>
        simp only [Poll.toEvent, BackgroundLoop.step, hpc]
        exact ⟨(hf.poll_other (p := .pending) (by decide)).release (hf.sound.held_max rfl), trivial⟩
      | failed =>
        simp only [Poll.toEvent, BackgroundLoop.step, hpc]
        exact hf.poll_failed
  · exact h

lemma Inv.accounting (h : s.Inv maxCount) (size : ℕ) :
    (s.step maxCount (.accounting size)).Inv maxCount := by
  unfold Inv
  simp only [step]
  split
  · next onError job info cnt hpc =>
      have hf : Fits maxCount s.current s.history s.loop.data
        (.inCall (.getJobAccounting onError job info cnt)) := hpc ▸ h
      simp only [BackgroundLoop.step, hpc]
      refine ⟨hf.sound, ?_⟩
      have hshape := hf.shape
      cases onError with
      | false => exact ⟨hshape, rfl⟩
      | true => exact ⟨hshape.1, hshape.2.1, hshape.2.2, rfl⟩
  · exact h

lemma afterAccounting_eq {onError : Bool} {job : String} {cnt size : ℕ}
    (hpc : s.loop.pc = .inCall (.jobAccountingUpdate onError job info cnt (some size))) :
    s.afterAccounting maxCount job info size = if size > 0 ∨ cnt > maxCount then { s with
          loop := { s.loop with data := s.loop.data.erase job, pc := .inCall (.jobDelete job) }
          history := s.history.delete job
          deletions := ⟨job, info.monitorJob, s.current, size, s.history.polls job⟩ :: s.deletions }
      else { s with loop := { s.loop with pc := .between } } := by
  by_cases hgive : size > 0 ∨ cnt > maxCount
  · simp [Watch.afterAccounting, BackgroundLoop.step, hpc, monitor, returned, JobMonitor.afterAccounting,
      continued, LoopState.resume, LoopState.continueWith, hgive]
  · simp [Watch.afterAccounting, BackgroundLoop.step, hpc, monitor, returned, JobMonitor.afterAccounting,
      continued, LoopState.resume, LoopState.continueWith, hgive]

lemma Inv.callback (h : s.Inv maxCount) : (s.step maxCount .callback).Inv maxCount := by
  simp only [step]
  split
  · next job info hpc =>
      have hf : Fits maxCount s.current s.history s.loop.data (.inCall (.jobStatusUpdate job info)) :=
        hpc ▸ h
      unfold Inv
      simp only [BackgroundLoop.step, hpc]
      exact ⟨hf.sound.release (hf.sound.held_max rfl), trivial⟩
  · next onError job info cnt size hpc =>
      have hf := Fits.afterAccounting (hpc ▸ h : Fits maxCount s.current s.history s.loop.data
          (.inCall (.jobAccountingUpdate onError job info cnt (some size))))
      rw [afterAccounting_eq hpc]
      split_ifs at hf ⊢ with hgive
      · exact hf
      · exact hf
  · next job hpc =>
      have hf : Fits maxCount s.current s.history s.loop.data (.inCall (.jobDelete job)) := hpc ▸ h
      unfold Inv
      simp only [BackgroundLoop.step, hpc]
      exact ⟨hf.sound, trivial⟩
  · exact h

lemma Inv.step (h : s.Inv maxCount) (e : Event) : (s.step maxCount e).Inv maxCount := by
  cases e with
  | start job frameworkId => exact h.start job frameworkId
  | stop job => exact h.stop job
  | go => exact h.go
  | poll p => exact h.poll p
  | accounting size => exact h.accounting size
  | callback => exact h.callback

lemma inv_fresh : ({} : Watch).Inv maxCount :=
  ⟨⟨fun _ _ _ => rfl, nofun, nofun, nofun, nofun, nofun, nofun, nofun, nofun, nofun, nofun, nofun,
    fun _ => zero_le 1⟩, trivial⟩

end Watch

/-! ## Giving a job up -/

def Deletion.Justified (maxCount : ℕ) (d : Deletion) : Prop :=
  d.monitored = true → d.poll = some .failed ∧
    (0 < d.size ∨ d.polls.take (maxCount + 1) = List.replicate (maxCount + 1) .failed)

instance (maxCount : ℕ) (d : Deletion) : Decidable (d.Justified maxCount) :=
  inferInstanceAs (Decidable (_ → _ ∧ _))

namespace Watch

variable {maxCount : ℕ} {s : Watch}

structure Tolerant (maxCount : ℕ) (s : Watch) : Prop where
  justified : ∀ d ∈ s.deletions, d.Justified maxCount
  once : ∀ job, s.history.deletes job ≤ 1

def Uninterrupted (maxCount : ℕ) (s : Watch) : Event → Prop
  | .callback => ∀ job info cnt,
      s.loop.pc = .inCall (.jobAccountingUpdate true job info cnt (some 0)) →
      failures (s.history.entryPolls job info.serial) = maxCount + 1 →
      Unbroken (s.history.entryPolls job info.serial)
  | _ => True

lemma deletions_step {e : Event} (he : e ≠ .callback) :
    (s.step maxCount e).deletions = s.deletions := by
  cases e with
  | start job frameworkId => rfl
  | stop job => rfl
  | go =>
    simp only [step]
    split <;> rfl
  | poll p =>
    simp only [step]
    split <;> rfl
  | accounting size =>
    simp only [step]
    split <;> rfl
  | callback => exact absurd rfl he

variable (h : s.Inv maxCount)
include h

lemma take_polls {job : String} {cnt size : ℕ}
    (hpc : s.loop.pc = .inCall (.jobAccountingUpdate true job info cnt (some size))) {n : ℕ}
    (hn : n ≤ failures (s.history.entryPolls job info.serial)) :
    (s.history.polls job).take n = (s.history.entryPolls job info.serial).take n := by
  have hprefix : s.history.entryPolls job info.serial <+: s.history.polls job :=
    (hpc ▸ h.sound : Sound maxCount _ (held (.inCall _)) _).held_polls rfl
  obtain ⟨older, holder⟩ := hprefix
  rw [← holder]
  exact take_append_of_le_length (hn.trans (failures_le_length _))

lemma justified_iff {job : String} {cnt size : ℕ}
    (hpc : s.loop.pc = .inCall (.jobAccountingUpdate true job info cnt (some size)))
    (hgive : size > 0 ∨ cnt > maxCount) :
    Deletion.Justified maxCount ⟨job, info.monitorJob, s.current, size, s.history.polls job⟩ ↔
      s.Uninterrupted maxCount .callback := by
  have hf : Fits maxCount s.current s.history s.loop.data
      (.inCall (.jobAccountingUpdate true job info cnt (some size))) := hpc ▸ h
  obtain ⟨hmon, hcnt, hcurrent, -⟩ := hf.shape
  have herrors : info.statusRetrievalErrorCount = failures (s.history.entryPolls job info.serial) :=
    hf.sound.held_errors rfl
  rw [Deletion.Justified, hmon, hcurrent]
  simp only [true_imp_iff, true_and]
  rcases Nat.eq_zero_or_pos size with rfl | hsize
  · -- without accounting the counter is one more than the maximum
    have hmax : info.statusRetrievalErrorCount ≤ maxCount + 1 := hf.sound.held_max rfl
    have hexact : failures (s.history.entryPolls job info.serial) = maxCount + 1 := by omega
    have hunbroken := unbroken_iff (s.history.entryPolls job info.serial)
    rw [hexact] at hunbroken
    rw [take_polls h hpc hexact.ge, ← hunbroken]
    simp only [lt_irrefl, false_or]
    constructor
    · rintro hun job' info' cnt' hpc'
      cases hpc.symm.trans hpc'
      exact fun _ => hun
    · exact fun hun => hun job info cnt hpc hexact
  · refine iff_of_true (.inl hsize) fun job' info' cnt' hpc' => ?_
    cases hpc.symm.trans hpc'
    exact absurd hsize (lt_irrefl 0)

lemma uninterrupted_of_kept {onError : Bool} {job : String} {cnt size : ℕ}
    (hpc : s.loop.pc = .inCall (.jobAccountingUpdate onError job info cnt (some size)))
    (hkeep : ¬(size > 0 ∨ cnt > maxCount)) : s.Uninterrupted maxCount .callback := by
  intro job' info' cnt' hpc' hexact
  cases hpc.symm.trans hpc'
  have hf : Fits maxCount s.current s.history s.loop.data
      (.inCall (.jobAccountingUpdate true job info cnt (some 0))) := hpc ▸ h
  have hcnt : cnt = info.statusRetrievalErrorCount := hf.shape.2.1
  have herrors : info.statusRetrievalErrorCount = failures (s.history.entryPolls job info.serial) :=
    hf.sound.held_errors rfl
  omega

lemma tolerant_accounting_iff {onError : Bool} {job : String} {cnt size : ℕ} (ht : s.Tolerant maxCount)
    (hpc : s.loop.pc = .inCall (.jobAccountingUpdate onError job info cnt (some size)))
    (honce : ∀ j, (s.afterAccounting maxCount job info size).history.deletes j ≤ 1) :
    (s.afterAccounting maxCount job info size).Tolerant maxCount ↔
      s.Uninterrupted maxCount .callback := by
  rw [afterAccounting_eq hpc] at honce ⊢
  by_cases hgive : size > 0 ∨ cnt > maxCount
  · rw [if_pos hgive] at honce ⊢
    have hone : Tolerant maxCount { s with
          loop := { s.loop with data := s.loop.data.erase job, pc := .inCall (.jobDelete job) }
          history := s.history.delete job
          deletions := ⟨job, info.monitorJob, s.current, size, s.history.polls job⟩ :: s.deletions } ↔
        Deletion.Justified maxCount ⟨job, info.monitorJob, s.current, size, s.history.polls job⟩ :=
      ⟨fun ht' => ht'.justified _ mem_cons_self,
        fun hj => ⟨forall_mem_cons.mpr ⟨hj, ht.justified⟩, honce⟩⟩
    rw [hone]
    cases onError with
    | true => exact justified_iff h hpc hgive
    | false =>
      -- the job was stopped
      have hf : Fits maxCount s.current s.history s.loop.data
          (.inCall (.jobAccountingUpdate false job info cnt (some size))) := hpc ▸ h
      have hmon : info.monitorJob = false := hf.shape.1
      refine iff_of_true (fun hm => absurd (hmon.symm.trans hm) Bool.false_ne_true) ?_
      intro job' info' cnt' hpc'
      cases hpc.symm.trans hpc'
  · rw [if_neg hgive] at honce ⊢
    exact iff_of_true ⟨ht.justified, honce⟩ (uninterrupted_of_kept h hpc hgive)

lemma tolerant_callback_iff (ht : s.Tolerant maxCount) :
    (s.step maxCount .callback).Tolerant maxCount ↔ s.Uninterrupted maxCount .callback := by
  have honce := h.callback.sound.once
  simp only [step] at honce ⊢
  split
  · next hpc =>
      refine iff_of_true ⟨ht.justified, ht.once⟩ fun job info cnt hpc' => ?_
      cases hpc.symm.trans hpc'
  · next hpc =>
      simp only [hpc] at honce
      exact tolerant_accounting_iff h ht hpc honce
  · next hpc =>
      refine iff_of_true ⟨ht.justified, ht.once⟩ fun job info cnt hpc' => ?_
      cases hpc.symm.trans hpc'
  · next hother _ =>
      refine iff_of_true ht fun job info cnt hpc' => ?_
      exact absurd hpc' (hother true job info cnt 0)

lemma tolerant_step_iff (ht : s.Tolerant maxCount) (e : Event) :
    (s.step maxCount e).Tolerant maxCount ↔ s.Uninterrupted maxCount e := by
  by_cases he : e = .callback
  · subst he
    exact tolerant_callback_iff h ht
  · refine iff_of_true ⟨(deletions_step he).symm ▸ ht.justified, (h.step e).sound.once⟩ ?_
    cases e with
    | callback => exact absurd rfl he
    | _ => trivial

end Watch

theorem job_given_up_iff (maxCount : ℕ) (es : List Event) :
    (∀ fs, fs <+: es → (Machine.run (Watch.step maxCount) {} fs).Tolerant maxCount) ↔
      Machine.Guarded (Watch.step maxCount) (Watch.Uninterrupted maxCount) {} es :=
  Machine.prefixes_iff (I := Watch.Inv maxCount) (Q := Watch.Tolerant maxCount)
    (G := Watch.Uninterrupted maxCount) (P := fun _ _ => True) (fun _ e hi _ _ => hi.step e)
    (fun _ e hi ht _ => Watch.tolerant_step_iff hi ht e) Watch.inv_fresh
    ⟨nofun, fun _ => Nat.zero_le 1⟩ (Machine.guarded_of_forall (fun _ _ => trivial) _ es)

def round : Poll → List Event
  | .status => [.go, .go, .poll .status, .callback, .go]
  | .pending => [.go, .go, .poll .pending, .go]
  | .failed => [.go, .go, .poll .failed, .accounting 0, .callback, .go]

def nowAndThen : List Event :=
  .start "1" "fw" :: [.failed, .status, .failed, .status, .failed, .status, .failed].flatMap round

theorem job_given_up_now_and_then :
    ¬(Machine.run (Watch.step 3) {} nowAndThen).Tolerant 3 ∧
      (Machine.run (Watch.step 3) {} nowAndThen).loop.data.lookup "1" = none := by
  refine ⟨fun h => ?_, by decide +kernel⟩
  have hbad : ∃ d ∈ (Machine.run (Watch.step 3) {} nowAndThen).deletions, ¬d.Justified 3 := by
    decide +kernel
  obtain ⟨d, hd, hnot⟩ := hbad
  exact hnot (h.justified d hd)

end JobMonitor

end Urb
