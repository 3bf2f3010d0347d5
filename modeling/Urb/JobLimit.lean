/-
# `Urb.JobLimit` — how many jobs are recorded for a framework

`scale_up` compares the number of jobs with `max_tasks` before it submits:

    job_headroom = max_tasks - len(framework.get("job_id",[]))

but the jobs are recorded under the key `job_ids`.  The headroom is always the
whole of `max_tasks`, and what holds is only that ONE call never asks for more
than `max_tasks` jobs (`requested`).

**Proved here.**  Exactly when a call keeps the number of recorded jobs within the
limit, whatever the adapter answers (`scaleUp_within_iff`).  In every run whose
events all leave room for the jobs they ask for, the number of recorded jobs is
within the limit in every state (`run_jobCount_le`).
-/
import Mathlib.Data.Fintype.EquivFin
import Urb.OfferBook
import Urb.StagingLoop

namespace Urb

open Block List Nat Finset

variable {s : Service}

/-! ## Counting jobs -/

def Service.jobs (s : Service) : List JobTuple := s.jobIds.getD []

def Service.jobCount (s : Service) : ℕ := s.jobs.dedup.length

def requested (config : Config) (scaleCount : ℤ) : ℕ :=
  let count := if scaleCount = 0 then config.scaleCount else scaleCount
  if count = 0 ∨ config.maxTasks ≤ 0 then 0 else (min count config.maxTasks).toNat

lemma length_dedup_append_le {α : Type} [DecidableEq α] (l m : List α) :
    (l ++ m).dedup.length ≤ l.dedup.length + m.length := by
  rw [← card_toFinset, ← card_toFinset, toFinset_append]
  exact (card_union_le _ _).trans (Nat.add_le_add_left (toFinset_card_le m) _)

lemma length_dedup_append_new {α : Type} [DecidableEq α] {l m : List α} (hm : m.Nodup)
    (hnew : ∀ a ∈ m, a ∉ l) : (l ++ m).dedup.length = l.dedup.length + m.length := by
  rw [← card_toFinset, ← card_toFinset, toFinset_append, Finset.card_union_of_disjoint,
    toFinset_card_of_nodup hm]
  rw [Finset.disjoint_left]
  intro a ha hm'
  exact hnew a (mem_toFinset.mp hm') (mem_toFinset.mp ha)

lemma scaleUp_cases (count : ℤ) (submitted : List JobTuple) (s : Service) :
    (requested s.config count = 0 ∧ scaleUp count submitted s = (s, [])) ∨ scaleUp count submitted s =
        ({ s with jobIds := some (s.jobs ++ submitted).dedup }, submitted) := by
  unfold scaleUp requested
  generalize (if count = 0 then s.config.scaleCount else count) = n
  dsimp only
  split_ifs
  · exact .inl ⟨rfl, rfl⟩
  · exact .inr rfl

lemma jobCount_record (ids : List JobTuple) (s : Service) :
    ({ s with jobIds := some ids.dedup } : Service).jobCount = ids.dedup.length :=
  congrArg List.length dedup_idem

lemma scaleUp_jobCount_le {count : ℤ} {submitted : List JobTuple}
    (hsub : submitted.length ≤ requested s.config count) :
    (scaleUp count submitted s).1.jobCount ≤ s.jobCount + requested s.config count := by
  rcases scaleUp_cases count submitted s with ⟨-, h⟩ | h
  · rw [h]
    exact le_add_right _ _
  · rw [h, jobCount_record]
    exact (length_dedup_append_le _ _).trans (Nat.add_le_add_left hsub _)

/-! ## What the handlers record -/

def Service.jobBook (s : Service) : Config × Option (List JobTuple) := (s.config, s.jobIds)

section Book

variable {s s' : Service}

lemma jobCount_of_jobBook (h : s'.jobBook = s.jobBook) : s'.jobCount = s.jobCount :=
  congrArg (fun b : Config × Option (List JobTuple) => (b.2.getD []).dedup.length) h

lemma config_of_jobBook (h : s'.jobBook = s.jobBook) : s'.config = s.config :=
  congrArg Prod.fst h

lemma killTask_jobBook (tid : String) (s : Service) : (killTask tid s).1.jobBook = s.jobBook := by
  by_cases hf : tid ∈ s.foreign
  · rw [killTask, if_pos hf]
  · cases ht : s.taskDict.lookup tid with
    | none => rw [killTask, if_neg hf, ht]
    | some task => exact killTask_frame Service.jobBook (fun _ _ => rfl) (fun _ _ _ => rfl) hf ht

lemma handleStatusUpdate_jobBook (u : StatusUpdate) (s : Service) :
    (handleStatusUpdate u s).1.jobBook = s.jobBook :=
  handleStatusUpdate_rule (I := fun s' => s'.jobBook = s.jobBook) rfl rfl fun _ _ =>
    settleUpdate_frame Service.jobBook (fun _ _ _ => rfl) (fun _ _ => rfl)

lemma offerRound_jobBook (now : ℚ) (s : Service) : (offerRound now s).service.jobBook = s.jobBook :=
  offerRound_marks (I := fun s' => s'.jobBook = s.jobBook) (fun _ _ h => h) (fun _ _ h => h)
    (fun _ _ h => h) (fun _ _ _ h => h) now rfl

lemma processRemainingOffers_jobBook (now : ℚ) (refuse : Option ℚ) (remaining : List String)
    (s : Service) : (processRemainingOffers now refuse remaining s).jobBook = s.jobBook :=
  processRemainingOffers_keeps (I := fun s' => s'.jobBook = s.jobBook) (fun _ _ h => h)
    (fun _ _ h => h) (fun _ _ h => h) (fun _ _ h => h) (fun _ _ _ h => h) (fun _ _ h => h)
    (fun _ _ h => h) now refuse remaining rfl

lemma postprocess_jobBook (s : Service) : (postprocess s).jobBook = s.jobBook :=
  postprocess_frame (fun _ _ _ _ _ => rfl) (fun _ _ => rfl) s

lemma finish_jobBook (native : Bool) (s : Service) : (finish native s).jobBook = s.jobBook := by
  cases native with
  | true => exact postprocess_jobBook s
  | false => rfl

lemma removeJob_subset (job : String) (ids : List JobTuple) : removeJob job ids ⊆ ids := by
  unfold removeJob
  split
  · exact erase_subset
  · exact List.Subset.refl ids

lemma deleteJob_jobCount_le (job : String) (s : Service) :
    (deleteJob job s).1.jobCount ≤ s.jobCount := by
  refine deleteJob_keeps (I := fun s' => s'.jobCount ≤ s.jobCount) (fun sid sl s' _ _ h => ?_)
    (fun ids s' hids h => ?_) (fun _ _ _ _ _ h => h) le_rfl
  · exact deleteSlave_keeps (I := fun s' => s'.jobCount ≤ s.jobCount) (fun _ _ h => h)
      (fun _ _ _ _ h => h) (fun _ _ h => h) sid sl h
  · have hjobs : s'.jobs = ids := congrArg (·.getD []) hids
    refine le_trans ?_ h
    show (removeJob job ids).dedup.length ≤ s'.jobs.dedup.length
    rw [hjobs, ← card_toFinset, ← card_toFinset]
    refine card_le_card fun j hj => ?_
    exact mem_toFinset.mpr (removeJob_subset job ids (mem_toFinset.mp hj))

end Book

/-! ## Launches

Only the first task on a placeholder submits, and a task whose submission was in vain records no
job.  So a message records at most the jobs of one call for each placeholder it names. -/

def LaunchTasksRequest.placeholders (req : LaunchTasksRequest) : List String :=
  ((req.infos.filterMap (·.slaveRef)).filter isPlaceholder).dedup

def Config.perLaunch (config : Config) : ℕ := requested config config.concurrentTasks

lemma mem_placeholders {req : LaunchTasksRequest} {l : LaunchedTask} {sid : String}
    (hl : l ∈ req.tasks) (href : l.info.slaveRef = some sid) (hp : isPlaceholder sid) :
    sid ∈ req.placeholders := by
  refine mem_dedup.mpr (mem_filter.mpr ⟨mem_filterMap.mpr ⟨l.info, ?_, href⟩, hp⟩)
  exact mem_map_of_mem hl

structure LaunchBound (req : LaunchTasksRequest) (s : Service) (st : LaunchState) : Prop where
  config : st.service.config = s.config
  keys : st.placeholderToJobid.keys ⊆ req.placeholders
  count : st.service.jobCount ≤ s.jobCount + st.placeholderToJobid.keys.length * s.config.perLaunch

namespace LaunchBound

variable {req : LaunchTasksRequest} {s : Service} {st : LaunchState}

lemma same {st' : LaunchState} (h : LaunchBound req s st)
    (hs : st'.service.jobBook = st.service.jobBook)
    (hp : st'.placeholderToJobid = st.placeholderToJobid) : LaunchBound req s st' := by
  refine ⟨(config_of_jobBook hs).trans h.config, ?_, ?_⟩
  · rw [hp]
    exact h.keys
  · rw [hp, jobCount_of_jobBook hs]
    exact h.count

lemma sendTaskLost_jobBook (tid sid : String) (s : Service) :
    (sendTaskLost tid sid s).jobBook = s.jobBook := by
  unfold sendTaskLost
  split_ifs <;> rfl

lemma processTaskLostStatusUpdate_jobBook (tid : String) (sid : Option String) (s : Service) :
    (processTaskLostStatusUpdate tid sid s).jobBook = s.jobBook := rfl

lemma setJobId_jobBook (tid job : String) (s : Service) : (setJobId tid job s).jobBook = s.jobBook :=
  rfl

lemma runIfRegistered_jobBook (sid tid : String) (slave : Slave) (s : Service) :
    (runIfRegistered sid tid slave s).jobBook = s.jobBook := by
  unfold runIfRegistered
  split <;> rfl

lemma submission_config (now : ℚ) (l : LaunchedTask) (s : Service) :
    (submission now l s).1.config = s.config :=
  scaleUp_keeps (I := fun s' => s'.config = s.config) (fun _ _ h => h) _ _ rfl

lemma submission_jobCount_of_none {now : ℚ} {l : LaunchedTask}
    (h : firstJobId (submission now l s).2 = none) : (submission now l s).1.jobCount = s.jobCount := by
  have hnil : (submission now l s).2 = [] := by
    cases hids : (submission now l s).2 with
    | nil => rfl
    | cons j js =>
      rw [hids] at h
      cases h
  rcases scaleUp_cases s.config.concurrentTasks l.submitted (enterTask now l s) with ⟨-, he⟩ | he
  · rw [submission, he]
    rfl
  · rw [submission, he] at hnil
    rw [submission, he, jobCount_record, show l.submitted = [] from hnil, append_nil]
    rfl

lemma launchTask {now : ℚ} {l : LaunchedTask} (h : LaunchBound req s st) (hl : l ∈ req.tasks)
    (hsub : l.submitted.length ≤ s.config.perLaunch) :
    LaunchBound req s (launchTask now req l st).1 := by
  have hstep := launchTask_launches now req l st
  generalize Urb.launchTask now req l st = r at hstep ⊢
  cases hstep with
  | noSlave _ => exact h
  | waiting _ _ _ => exact h.same (sendTaskLost_jobBook _ _ _) rfl
  | @unsubmitted sid _ _ _ hnone =>
    have hlost := processTaskLostStatusUpdate_jobBook l.info.taskId (some sid)
      (submission now l st.service).1
    refine ⟨(config_of_jobBook hlost).trans ((submission_config now l st.service).trans h.config),
      h.keys, ?_⟩
    exact (jobCount_of_jobBook hlost).le.trans ((submission_jobCount_of_none hnone).le.trans h.count)
  | @submitted sid job href hp hnew _ =>
    -- the placeholder is new, so one more call is paid for
    have hcount : (submission now l st.service).1.jobCount ≤
        st.service.jobCount + s.config.perLaunch := by
      rw [Config.perLaunch, ← h.config] at hsub ⊢
      exact scaleUp_jobCount_le (s := enterTask now l st.service) hsub
    have hlost := (sendTaskLost_jobBook l.info.taskId sid _).trans
      (setJobId_jobBook l.info.taskId job (submission now l st.service).1)
    have hkeys : (st.placeholderToJobid.insert sid job).keys = sid :: st.placeholderToJobid.keys := by
      rw [AList.keys_insert, erase_of_not_mem]
      exact AList.lookup_eq_none.mp hnew
    refine ⟨?_, ?_, ?_⟩
    · exact (config_of_jobBook hlost).trans ((submission_config now l st.service).trans h.config)
    · show (st.placeholderToJobid.insert sid job).keys ⊆ req.placeholders
      rw [hkeys]
      exact cons_subset.mpr ⟨mem_placeholders hl href hp, h.keys⟩
    · show (sendTaskLost l.info.taskId sid _).jobCount ≤
        s.jobCount + (st.placeholderToJobid.insert sid job).keys.length * s.config.perLaunch
      rw [jobCount_of_jobBook hlost, hkeys, length_cons, add_mul, one_mul, ← add_assoc]
      exact hcount.trans (Nat.add_le_add_right h.count _)
  | unknown _ _ _ => exact h.same rfl rfl
  | noJob _ _ _ _ => exact h.same rfl rfl
  | overdrawn _ _ _ _ _ => exact h.same rfl rfl
  | placed _ _ _ _ _ => exact h.same (runIfRegistered_jobBook _ _ _ _) rfl

end LaunchBound

lemma launchTasks_jobCount_le {now : ℚ} {req : LaunchTasksRequest}
    (hsub : ∀ l ∈ req.tasks, l.submitted.length ≤ s.config.perLaunch) :
    (launchTasks now req s).1.jobCount ≤ s.jobCount + req.placeholders.length * s.config.perLaunch := by
  have hloop : LaunchBound req s (forEach (launchTask now req) req.tasks (launchStart req s)).1 := by
    refine forEach_inv (fun l hl st h => h.launchTask hl (hsub l hl)) ⟨rfl, ?_, ?_⟩
    · exact nil_subset _
    · exact le_add_right _ _
  have hall : (forEach (launchTask now req) req.tasks (launchStart req s)).1.service.jobCount ≤
      s.jobCount + req.placeholders.length * s.config.perLaunch := by
    refine hloop.count.trans (Nat.add_le_add_left (Nat.mul_le_mul_right _ ?_) _)
    exact (subperm_of_subset (AList.keys_nodup _) hloop.keys).length_le
  unfold launchTasks
  dsimp only
  split_ifs
  · exact (jobCount_of_jobBook (processRemainingOffers_jobBook _ _ _ _)).le.trans hall
  · exact hall

/-! ## Registrations -/

def RunnerRegistration.jobCount (reg : RunnerRegistration) (s : Service) : ℕ :=
  (noteJob reg s.jobs).dedup.length

def RunnerRegistration.asksFor (reg : RunnerRegistration) (s : Service) : ℕ :=
  if reg.tasks = [] ∧ stagedIds reg s ≠ [] then requested s.config 0 else 0

lemma registerExecutorRunner_jobCount_le {reg : RunnerRegistration}
    (hsub : reg.submitted.length ≤ requested s.config 0) :
    (registerExecutorRunner reg s).1.jobCount ≤ reg.jobCount s + reg.asksFor s := by
  have hadopt : (adoptTasks reg (enterSlave reg s)).1.jobBook = (enterSlave reg s).jobBook :=
    forEach_inv (I := fun s' : Service => s'.jobBook = (enterSlave reg s).jobBook) (fun t _ s' h =>
      debitSlave_rule (I := fun s' => s'.jobBook = (enterSlave reg s).jobBook) (fun _ _ _ _ h => h)
        reg.slaveId h) rfl
  obtain ⟨hst, -, -, hsome⟩ := stages_loop reg s
  have hloop : (stagingLoop reg s).1.service.jobBook = (enterSlave reg s).jobBook :=
    (congrArg Service.jobBook hst.rest : _)
  have hentered : (stagingLoop reg s).1.service.jobCount = reg.jobCount s := jobCount_of_jobBook hloop
  unfold registerExecutorRunner
  split_ifs with ht
  · have hlaunch : (launchStaged reg (stagingLoop reg s).1).jobCount ≤
        reg.jobCount s + reg.asksFor s := by
      unfold launchStaged
      dsimp only
      split_ifs with hnil
      · exact hentered.le.trans (le_add_right _ _)
      · exact hentered.le.trans (le_add_right _ _)
      · have hstaged : stagedIds reg s ≠ [] := by
          intro hnone
          obtain ⟨x, hx⟩ := exists_mem_of_ne_nil _ hnil
          exact absurd (hnone ▸ hsome x hx) not_mem_nil
        have hconfig : (stagingLoop reg s).1.service.config = s.config :=
          (config_of_jobBook hloop : _ = (enterSlave reg s).config)
        rw [RunnerRegistration.asksFor, if_pos ⟨ht, hstaged⟩, ← hentered, ← hconfig]
        rw [← hconfig] at hsub
        exact scaleUp_jobCount_le (s := (stagingLoop reg s).1.service.send _) hsub
    simp only [stageTasks]
    split_ifs
    · exact hlaunch
    · exact hentered.le.trans (le_add_right _ _)
  · exact (jobCount_of_jobBook hadopt).le.trans (le_add_right _ _)

def ExecutorRegistration.asksFor (reg : ExecutorRegistration) (s : Service) : ℕ :=
  match s.slaveByChannel reg.replyTo with
  | none => 0
  | some (_, slave) => if slave.isCommandExecutor then 0 else requested s.config 0

lemma scaleForExecutor_jobCount_le {reg : ExecutorRegistration} {sid : String} {slave : Slave}
    (hsub : reg.submitted.length ≤ requested s.config 0) :
    (scaleForExecutor reg sid slave s).1.jobCount ≤
      s.jobCount + if slave.isCommandExecutor then 0 else requested s.config 0 := by
  unfold scaleForExecutor
  split
  · exact le_add_right _ _
  · dsimp only
    split
    · exact le_add_right _ _
    · next hscales =>
        have hcustom : slave.isCommandExecutor = false := by
          cases hc : slave.isCommandExecutor with
          | false => rfl
          | true => simp [hc] at hscales
        rw [hcustom]
        exact scaleUp_jobCount_le hsub

lemma registerExecutor_jobCount_le {reg : ExecutorRegistration}
    (hsub : reg.submitted.length ≤ requested s.config 0) :
    (registerExecutor reg s).1.jobCount ≤ s.jobCount + reg.asksFor s := by
  unfold registerExecutor
  split_ifs
  · exact le_add_right _ _
  · split
    · exact le_add_right _ _
    · next sid slave hfound =>
        split_ifs
        · exact le_add_right _ _
        · dsimp only
          split_ifs
          · exact le_add_right _ _
          · have hrun := runStagedTasks_rule (I := fun s' => s'.jobBook = s.jobBook)
              (fun _ _ _ _ h => h) (fun _ _ _ _ h => h) reg sid slave.isCommandExecutor
              (s := (s.modifySlave sid fun sl => { sl with executorChannel := some reg.channel }).send
                (.executorRegistered reg.channel)) rfl
            have hasks : reg.asksFor s =
                if slave.isCommandExecutor then 0 else requested s.config 0 := by
              rw [ExecutorRegistration.asksFor, hfound]
            refine seq_inv (I := fun s' : Service => s'.jobCount ≤ s.jobCount + reg.asksFor s) ?_ fun _ => ?_
            · exact (jobCount_of_jobBook hrun).le.trans (le_add_right _ _)
            · rw [hasks, ← jobCount_of_jobBook hrun, ← config_of_jobBook hrun]
              rw [← config_of_jobBook hrun] at hsub
              exact scaleForExecutor_jobCount_le hsub

/-! ## The limit -/

def Service.WithinMax (s : Service) : Prop := (s.jobCount : ℤ) ≤ s.config.maxTasks

instance (s : Service) : Decidable s.WithinMax := inferInstanceAs (Decidable (_ ≤ _))

lemma exists_new_jobs (ids : List JobTuple) (n : ℕ) :
    ∃ new : List JobTuple, new.Nodup ∧ (∀ j ∈ new, j ∉ ids) ∧ new.length = n := by
  have hinf : Infinite JobTuple := by
    refine Infinite.of_injective (fun n : ℕ => ({ id := offerId "job" n } : JobTuple)) fun a b h => ?_
    exact offerId_injective "job" (congrArg JobTuple.id h)
  obtain ⟨t, hsub, hcard⟩ := Infinite.exists_superset_card_eq ids.toFinset (ids.toFinset.card + n)
    (le_add_right _ _)
  refine ⟨(t \ ids.toFinset).toList, nodup_toList _, fun j hj => ?_, ?_⟩
  · rw [mem_toList, mem_sdiff, mem_toFinset] at hj
    exact hj.2
  · rw [length_toList, card_sdiff_of_subset hsub, hcard, Nat.add_sub_cancel_left]

theorem scaleUp_within_iff (count : ℤ) (s : Service) :
    (∀ submitted : List JobTuple, submitted.Nodup → (∀ j ∈ submitted, j ∉ s.jobs) →
      submitted.length ≤ requested s.config count → (scaleUp count submitted s).1.WithinMax) ↔
    ((s.jobCount + requested s.config count : ℕ) : ℤ) ≤ s.config.maxTasks := by
  have hconfig : ∀ submitted, (scaleUp count submitted s).1.config = s.config := fun submitted =>
    scaleUp_keeps (I := fun s' => s'.config = s.config) (fun _ _ h => h) count submitted rfl
  constructor
  · intro h
    obtain ⟨new, hnodup, hnew, hlen⟩ := exists_new_jobs s.jobs (requested s.config count)
    have hmax := h new hnodup hnew hlen.le
    rw [Service.WithinMax, hconfig] at hmax
    rcases scaleUp_cases count new s with ⟨hzero, he⟩ | he
    · rw [he] at hmax
      rw [hzero]
      exact hmax
    · rw [he, jobCount_record, length_dedup_append_new hnodup hnew, hlen] at hmax
      exact hmax
  · intro h submitted _ _ hsub
    rw [Service.WithinMax, hconfig]
    exact (Int.ofNat_le.mpr (scaleUp_jobCount_le hsub)).trans h

def AdapterAnswers (s : Service) : Event → Prop
  | .launchTasks _ _ req => ∀ l ∈ req.tasks, l.submitted.length ≤ s.config.perLaunch
  | .registerExecutorRunner reg => reg.submitted.length ≤ requested s.config 0
  | .registerExecutor reg => reg.submitted.length ≤ requested s.config 0
  | _ => True

def jobDemand (s : Service) : Event → ℕ
  | .launchTasks _ _ req => s.jobCount + req.placeholders.length * s.config.perLaunch
  | .registerExecutorRunner reg => reg.jobCount s + reg.asksFor s
  | .registerExecutor reg => s.jobCount + reg.asksFor s
  | _ => s.jobCount

def LeavesRoom (s : Service) (e : Event) : Prop :=
  s.active = true → (jobDemand s e : ℤ) ≤ s.config.maxTasks

lemma whenActive_jobBook {handler : Block Service} (h : (handler s).1.jobBook = s.jobBook)
    : (whenActive handler s).jobBook = s.jobBook := by
  unfold whenActive
  split_ifs
  · exact h
  · rfl

lemma generateOffers_jobBook (now : ℚ) (s : Service) : (generateOffers now s).jobBook = s.jobBook :=
  generateOffers_of_round (I := fun s' => s'.jobBook = s.jobBook) (fun _ _ h => h)
    (offerRound_jobBook now s)

lemma reconcileTasks_jobBook (now : ℚ) (http : Bool) (req : ReconcileRequest) (s : Service) :
    (reconcileTasks now http req s).1.jobBook = s.jobBook :=
  reconcileTasks_rule (I := fun s' => s'.jobBook = s.jobBook) (fun _ _ _ _ h => h)
    (fun _ _ _ _ _ h => h) (fun _ _ h => h) (fun _ _ _ _ _ h => h) now http rfl

lemma reregisterExecutor_jobBook (reg : ExecutorReregistration) (s : Service) :
    (reregisterExecutor reg s).1.jobBook = s.jobBook :=
  reregisterExecutor_rule (I := fun s' => s'.jobBook = s.jobBook) (fun _ _ _ _ h => h)
    (fun _ _ _ _ _ h => h) (fun _ _ _ _ _ _ h => h)
    (fun u _ s' h => (handleStatusUpdate_jobBook u s').trans h) (fun _ _ h => h) rfl

lemma deleteFramework_jobBook (s : Service) : (deleteFramework s).1.jobBook = s.jobBook :=
  deleteFramework_keeps (I := fun s' => s'.jobBook = s.jobBook) (fun _ _ h => h) (fun _ _ h => h)
    (fun _ _ h => h) (fun _ _ _ h => h) (fun _ h => h) rfl

lemma step_jobCount_le {e : Event} (ha : AdapterAnswers s e) :
    (step s e).jobCount ≤ if s.active then jobDemand s e else s.jobCount := by
  have hfinish : ∀ native s', (finish native s').jobCount = s'.jobCount := fun native s' =>
    jobCount_of_jobBook (finish_jobBook native s')
  -- the events that record no job
  have hquiet : ∀ {s' : Service}, s'.jobBook = s.jobBook → jobDemand s e = s.jobCount →
      s'.jobCount ≤ if s.active then jobDemand s e else s.jobCount := by
    intro s' hs hd
    rw [hd, ite_self, jobCount_of_jobBook hs]
  cases e with
  | generateOffers now =>
    refine hquiet ?_ rfl
    simp only [step]
    split_ifs
    · exact generateOffers_jobBook now s
    · rfl
  | launchTasks native now req =>
    simp only [step, hfinish, whenActive]
    split_ifs
    · exact launchTasks_jobCount_le ha
    · exact le_rfl
  | killTask native tid =>
    refine hquiet ((finish_jobBook native _).trans ?_) rfl
    exact whenActive_jobBook (killTask_jobBook tid s)
  | statusUpdate native u =>
    refine hquiet ((finish_jobBook native _).trans ?_) rfl
    exact whenActive_jobBook (handleStatusUpdate_jobBook u s)
  | reconcileTasks native now req =>
    refine hquiet ((finish_jobBook native _).trans ?_) rfl
    exact whenActive_jobBook (reconcileTasks_jobBook now _ req s)
  | reviveOffers =>
    refine hquiet ((postprocess_jobBook _).trans ?_) rfl
    split_ifs <;> rfl
  | registerExecutorRunner reg =>
    simp only [step, hfinish true, show ∀ s', postprocess s' = finish true s' from fun _ => rfl]
    split_ifs
    · exact registerExecutorRunner_jobCount_le ha
    · exact le_rfl
  | registerExecutor reg =>
    simp only [step, hfinish true, show ∀ s', postprocess s' = finish true s' from fun _ => rfl]
    split_ifs
    · exact registerExecutor_jobCount_le ha
    · exact le_rfl
  | reregisterExecutor reg =>
    refine hquiet ((postprocess_jobBook _).trans ?_) rfl
    split_ifs
    · exact reregisterExecutor_jobBook reg s
    · rfl
  | deleteJob job =>
    rw [show jobDemand s (.deleteJob job) = s.jobCount from rfl, ite_self]
    exact deleteJob_jobCount_le job s
  | unregisterFramework native =>
    refine hquiet ((finish_jobBook native _).trans ?_) rfl
    split_ifs
    · exact deleteFramework_jobBook s
    · rfl
  | otherRequest => exact hquiet (postprocess_jobBook s) rfl

theorem run_jobCount_le {config : Config} {frameworkId hostname : String} {http : Bool}
    {es : List Event} (hmax : 0 ≤ config.maxTasks)
    (hadapter : Machine.Guarded step AdapterAnswers (.fresh config frameworkId hostname http) es)
    (hroom : Machine.Guarded step LeavesRoom (.fresh config frameworkId hostname http) es) :
    (runFrom (.fresh config frameworkId hostname http) es).WithinMax := by
  refine Machine.run_inv (I := Service.WithinMax) (fun s e hs hg => ?_) hmax
    (Machine.guarded_and hadapter hroom)
  rw [Service.WithinMax, step_config]
  refine (Int.ofNat_le.mpr (step_jobCount_le hg.1)).trans ?_
  split_ifs with hactive
  · exact hg.2 hactive
  · exact hs

/-! ## A limit of one job -/

def oneJob : Service := .fresh { smallConfig with maxTasks := 1 } "fw" "host" false

def launchOnOffer : List Event :=
  [.generateOffers 1,
   .launchTasks true 1 { offerIds := [offerId "fw" 1]
                         tasks := [{ info := oneCpuTask "a" "place-holder-1"
                                     submitted := [{ id := "7" }] }] }]

def runnerScalesUp : Event :=
  .registerExecutorRunner { jobId := "7", channel := "c7", host := "host", jobTuple := { id := "7" }
                            submitted := [{ id := "8" }] }

instance (s : Service) (e : Event) : Decidable (AdapterAnswers s e) := by
  cases e <;> unfold AdapterAnswers <;> infer_instance

instance (s : Service) (e : Event) : Decidable (LeavesRoom s e) :=
  inferInstanceAs (Decidable (_ → _))

theorem run_jobCount_le_launchOnOffer :
    (runFrom oneJob launchOnOffer).jobCount = 1 ∧
      (runFrom oneJob (launchOnOffer ++ [.deleteJob "7"])).WithinMax := by
  refine ⟨by decide +kernel, run_jobCount_le (by decide) ?_ ?_⟩
  · decide +kernel
  · decide +kernel

theorem not_withinMax_runnerUp :
    Machine.Guarded step AdapterAnswers oneJob (launchOnOffer ++ [runnerScalesUp]) ∧
      (runFrom oneJob launchOnOffer).WithinMax ∧
      ¬ (runFrom oneJob (launchOnOffer ++ [runnerScalesUp])).WithinMax := by
  decide +kernel

end Urb
