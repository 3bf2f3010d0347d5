/-
# `Urb.LaunchLoop` — one iteration of the launch loop, case by case

`launch_tasks` treats a task in one of eight ways.  `Launches` lists them
with the state and the flow each leaves; it is the only place where the body
of the loop is taken apart (`launchTask_launches`).

    noSlave       the task names no slave                     raises
    waiting       a placeholder with a job of this message    falls through
    unsubmitted   a placeholder, no job could be submitted    falls through
    submitted     a placeholder, a job has been submitted     falls through
    unknown       no such slave                               falls through
    noJob         a slave whose id holds no job id            returns
    overdrawn     a slave whose debit fails                   raises
    placed        a slave whose debit completes               falls through
-/
import Urb.Frames

namespace Urb

open Block AList Bool Service Slave List

variable {l : LaunchedTask} {now : ℚ} {req : LaunchTasksRequest} {st : LaunchState}

def TaskInfo.onPlaceholder (t : TaskInfo) : Bool := (t.slaveRef.map isPlaceholder).getD false

def submission (now : ℚ) (l : LaunchedTask) (s : Service) : Service × List JobTuple :=
  scaleUp s.config.concurrentTasks l.submitted (enterTask now l s)

inductive Launches (now : ℚ) (req : LaunchTasksRequest) (l : LaunchedTask) (st : LaunchState) :
    LaunchState × Ending → Prop
  | noSlave : l.info.slaveRef = none → Launches now req l st (st, .raise)
  | waiting {sid job : String} : l.info.slaveRef = some sid → isPlaceholder sid = true →
      st.placeholderToJobid.lookup sid = some job →
      Launches now req l st
        ({ st with service := sendTaskLost l.info.taskId sid
                    (setJobId l.info.taskId job (enterTask now l st.service)) }, .next)
  | unsubmitted {sid : String} : l.info.slaveRef = some sid → isPlaceholder sid = true →
      st.placeholderToJobid.lookup sid = none →
      firstJobId (submission now l st.service).2 = none →
      Launches now req l st
        ({ st with service := processTaskLostStatusUpdate l.info.taskId (some sid)
                    (submission now l st.service).1 }, .next)
  | submitted {sid job : String} : l.info.slaveRef = some sid → isPlaceholder sid = true →
      st.placeholderToJobid.lookup sid = none →
      firstJobId (submission now l st.service).2 = some job →
      Launches now req l st
        ({ st with service := sendTaskLost l.info.taskId sid
                    (setJobId l.info.taskId job (submission now l st.service).1)
                   placeholderToJobid := st.placeholderToJobid.insert sid job }, .next)
  | unknown {sid : String} : l.info.slaveRef = some sid → isPlaceholder sid = false →
      st.service.slaveDict.lookup sid = none →
      Launches now req l st ({ st with service := enterTask now l st.service }, .next)
  | noJob {sid : String} {slave : Slave} : l.info.slaveRef = some sid →
      isPlaceholder sid = false → st.service.slaveDict.lookup sid = some slave →
      getJobIdFromSlaveId sid = none →
      Launches now req l st ({ st with service := enterTask now l st.service }, .ret)
  | overdrawn {sid job : String} {slave : Slave} : l.info.slaveRef = some sid →
      isPlaceholder sid = false → st.service.slaveDict.lookup sid = some slave →
      getJobIdFromSlaveId sid = some job → (slave.launch l.info).2 ≠ .next →
      Launches now req l st
        ({ st with service := (forwardLaunch req l.info sid job slave
                     (enterTask now l st.service)).modifySlave sid (fun _ => (slave.launch l.info).1)
                   used := slave.usedOffer req.offerIds ++ st.used }, .raise)
  | placed {sid job : String} {slave : Slave} : l.info.slaveRef = some sid →
      isPlaceholder sid = false → st.service.slaveDict.lookup sid = some slave →
      getJobIdFromSlaveId sid = some job → (slave.launch l.info).2 = .next →
      Launches now req l st
        ({ st with service := runIfRegistered sid l.info.taskId (slave.launch l.info).1
                     ((forwardLaunch req l.info sid job slave
                       (enterTask now l st.service)).modifySlave sid
                         (fun _ => { (slave.launch l.info).1 with offerable := true }))
                   used := slave.usedOffer req.offerIds ++ st.used }, .next)

lemma launchTask_launches (now : ℚ) (req : LaunchTasksRequest) (l : LaunchedTask)
    (st : LaunchState) : Launches now req l st (launchTask now req l st) := by
  unfold launchTask
  cases href : l.info.slaveRef with
  | none => exact .noSlave href
  | some sid =>
    dsimp only
    split
    · next hp =>
        unfold launchOnPlaceholder
        dsimp only
        split
        · next hj => exact .waiting href hp hj
        · next hj =>
            split
            · next hf => exact .unsubmitted href hp hj hf
            · next hf => exact .submitted href hp hj hf
    · next hp =>
        have hp' : isPlaceholder sid = false := eq_false_iff.mpr hp
        split
        · next hs => exact .unknown href hp' hs
        · next hs =>
            unfold launchOnSlave
            split
            · next hj => exact .noJob href hp' hs hj
            · next hj =>
                dsimp only
                split
                · next hd => exact .placed href hp' hs hj hd
                · next hd => exact .overdrawn href hp' hs hj hd

def Slave.launched (t : TaskInfo) (slave : Slave) : Slave :=
  if (slave.launch t).2 = .next then { (slave.launch t).1 with offerable := true }
  else (slave.launch t).1

lemma launchTask_rule {I : Service → Prop}
    (enter : ∀ r s, r.taskInfo = l.info → I s → I (putTask l.info.taskId r s))
    (task : ∀ g s, KeepsNeeds g → I s → I (modifyTask l.info.taskId g s))
    (launch : ∀ k sl s, l.info.slaveRef = some k → s.slaveDict.lookup k = some sl → I s →
      I (modifySlave k (fun _ => sl.launched l.info) s))
    (queue : ∀ s, I s → I (queueTask l.info.taskId s))
    (jobs : ∀ ids s, I s → I { s with jobIds := ids })
    (answer : ∀ st k s, I s → I (send (.statusUpdate l.info.taskId st k) s))
    (forward : ∀ k c ts s, I s → I (send (.forwardedLaunch k c ts) s))
    (run : ∀ k c s, I s → I (send (.runTask k c l.info.taskId) s)) (h : I st.service) :
    I (launchTask now req l st).1.service := by
  have henter : I (enterTask now l st.service) := enter _ _ rfl h
  have hsub : I (submission now l st.service).1 := scaleUp_keeps jobs _ _ henter
  have hlost : ∀ k s, I s → I (processTaskLostStatusUpdate l.info.taskId k s) := fun k s hs =>
    queue _ (task _ _ (fun _ => rfl) (answer .lost k s hs))
  have hsend : ∀ k s, I s → I (sendTaskLost l.info.taskId k s) := by
    intro k s hs
    unfold sendTaskLost
    split_ifs
    · exact hlost _ _ hs
    · exact hs
  have hforward : ∀ k job sl, I (forwardLaunch req l.info k job sl (enterTask now l st.service)) :=
    fun k job sl => forward _ _ _ _ (task _ _ (fun _ => rfl) henter)
  have hl := launchTask_launches now req l st
  generalize launchTask now req l st = r at hl ⊢
  cases hl with
  | noSlave _ => exact h
  | waiting _ _ _ => exact hsend _ _ (task _ _ (fun _ => rfl) henter)
  | unsubmitted _ _ _ _ => exact hlost _ _ hsub
  | submitted _ _ _ _ => exact hsend _ _ (task _ _ (fun _ => rfl) hsub)
  | unknown _ _ _ => exact henter
  | noJob _ _ _ _ => exact henter
  | @overdrawn sid job slave href _ hs _ hd =>
    have hlaunch := launch sid slave (forwardLaunch req l.info sid job slave
      (enterTask now l st.service)) href hs (hforward sid job slave)
    rwa [launched, if_neg hd] at hlaunch
  | @placed sid job slave href _ hs _ hd =>
    have hlaunch := launch sid slave (forwardLaunch req l.info sid job slave
      (enterTask now l st.service)) href hs (hforward sid job slave)
    rw [launched, if_pos hd] at hlaunch
    unfold runIfRegistered
    split
    · exact task _ _ (fun _ => rfl) (run _ _ _ hlaunch)
    · exact hlaunch

lemma launchTasks_rule {I : Service → Prop} {s : Service} (start : I (launchStart req s).service)
    (launch : ∀ l ∈ req.tasks, ∀ st, I st.service → I (launchTask now req l st).1.service)
    (rest : ∀ remaining s, (∀ oid ∈ remaining, oid ∈ req.offerIds) → I s →
      I (processRemainingOffers now req.refuseSeconds remaining s)) : I (launchTasks now req s).1 := by
  have hloop : I (forEach (launchTask now req) req.tasks (launchStart req s)).1.service :=
    forEach_inv (I := fun st : LaunchState => I st.service) launch start
  unfold launchTasks
  dsimp only
  split_ifs
  · exact rest _ _ (fun _ hoid => mem_dedup.mp (mem_filter.mp hoid).1) hloop
  · exact hloop

lemma launchTask_of_slave {sid : String} {slave : Slave} (href : l.info.slaveRef = some sid)
    (hp : isPlaceholder sid = false) (hs : st.service.slaveDict.lookup sid = some slave) :
    launchTask now req l st =
      launchOnSlave req l.info sid slave { st with service := enterTask now l st.service } := by
  have hs' : (enterTask now l st.service).slaveDict.lookup sid = some slave := hs
  simp only [launchTask, href, hp, hs', false_eq_true, if_false]

/-! ## The slaves -/

def launchedSlaves (t : TaskInfo) (d : Dict String Slave) : Dict String Slave :=
  match t.slaveRef with
  | none => d
  | some sid =>
    if isPlaceholder sid then d
    else if getJobIdFromSlaveId sid = none then d
    else d.modify sid (Slave.launched t)

lemma runIfRegistered_slaveDict (sid tid : String) (slave : Slave) (s : Service) :
    (runIfRegistered sid tid slave s).slaveDict = s.slaveDict := by
  unfold runIfRegistered
  split <;> rfl

lemma sendTaskLost_slaveDict (tid sid : String) (s : Service) :
    (sendTaskLost tid sid s).slaveDict = s.slaveDict := by
  unfold sendTaskLost
  split_ifs <;> rfl

lemma submission_slaveDict (now : ℚ) (l : LaunchedTask) (s : Service) :
    (submission now l s).1.slaveDict = s.slaveDict :=
  scaleUp_keeps (I := fun s' => s'.slaveDict = s.slaveDict) (fun _ _ h => h) _ _ rfl

lemma launchTask_slaveDict (now : ℚ) (req : LaunchTasksRequest) (l : LaunchedTask) (st : LaunchState) :
    (launchTask now req l st).1.service.slaveDict = launchedSlaves l.info st.service.slaveDict := by
  have hl := launchTask_launches now req l st
  generalize launchTask now req l st = r at hl ⊢
  unfold launchedSlaves
  cases hl with
  | noSlave href => rw [href]
  | waiting href hp _ =>
    simp only [href, hp, if_true]
    exact sendTaskLost_slaveDict _ _ _
  | unsubmitted href hp _ _ =>
    simp only [href, hp, if_true]
    exact submission_slaveDict now l st.service
  | submitted href hp _ _ =>
    simp only [href, hp, if_true]
    exact (sendTaskLost_slaveDict _ _ _).trans (submission_slaveDict now l st.service)
  | unknown href hp hs =>
    simp only [href, hp, false_eq_true, if_false]
    split_ifs
    · rfl
    · exact (modify_of_not_mem (lookup_eq_none.mp hs) _).symm
  | noJob href hp _ hj =>
    simp only [href, hp, false_eq_true, if_false, hj, if_true]
    rfl
  | overdrawn href hp hs hj hd =>
    simp only [href, hp, false_eq_true, if_false, hj, reduceCtorEq]
    rw [modifySlave_slaveDict]
    exact modify_congr (g := launched l.info) hs (if_neg hd).symm
  | placed href hp hs hj hd =>
    simp only [href, hp, false_eq_true, if_false, hj, reduceCtorEq]
    rw [runIfRegistered_slaveDict]
    rw [modifySlave_slaveDict]
    exact modify_congr (g := launched l.info) hs (if_pos hd).symm

lemma keys_launchedSlaves (t : TaskInfo) (d : Dict String Slave) :
    (launchedSlaves t d).keys = d.keys := by
  unfold launchedSlaves
  split
  · rfl
  · split_ifs
    · rfl
    · rfl
    · exact keys_modify _ _ _

lemma lookup_launchedSlaves_ne {t : TaskInfo} {k : String} (hk : t.slaveRef ≠ some k)
    (d : Dict String Slave) : (launchedSlaves t d).lookup k = d.lookup k := by
  unfold launchedSlaves
  split
  · rfl
  · next sid href =>
      have hne : k ≠ sid := fun he => hk (he ▸ href)
      split_ifs
      · rfl
      · rfl
      · exact lookup_modify_ne hne _ _

lemma lookup_launchedSlaves_cases {t : TaskInfo} {d : Dict String Slave} {k : String} {b : Slave}
    (h : (launchedSlaves t d).lookup k = some b) :
    d.lookup k = some b ∨ t.slaveRef = some k ∧ ∃ a, d.lookup k = some a ∧ b = a.launched t := by
  unfold launchedSlaves at h
  split at h
  · exact .inl h
  · next sid href =>
      split_ifs at h
      · exact .inl h
      · exact .inl h
      · rcases lookup_modify_cases h with ⟨hk, a, ha, rfl⟩ | ⟨-, h⟩
        · exact .inr ⟨hk ▸ href, a, ha, rfl⟩
        · exact .inl h

/-! ## Where the loop falls through -/

def Continues (d : Dict String Slave) (t : TaskInfo) : Prop :=
  ∃ sid, t.slaveRef = some sid ∧ (isPlaceholder sid = false → ∀ slave, d.lookup sid = some slave →
    getJobIdFromSlaveId sid ≠ none ∧ (slave.launch t).2 = .next)

lemma launchTask_continues_iff (now : ℚ) (req : LaunchTasksRequest) (l : LaunchedTask)
    (st : LaunchState) :
    (launchTask now req l st).2 = .next ↔ Continues st.service.slaveDict l.info := by
  have hl := launchTask_launches now req l st
  generalize launchTask now req l st = r at hl ⊢
  have hplace : ∀ {sid : String}, l.info.slaveRef = some sid → isPlaceholder sid →
      Continues st.service.slaveDict l.info := by
    intro sid href hp
    refine ⟨sid, href, fun hp' => ?_⟩
    rw [hp] at hp'
    cases hp'
  have hslave : ∀ {sid : String} {slave : Slave}, l.info.slaveRef = some sid →
      isPlaceholder sid = false → st.service.slaveDict.lookup sid = some slave →
      Continues st.service.slaveDict l.info →
      getJobIdFromSlaveId sid ≠ none ∧ (slave.launch l.info).2 = .next := by
    rintro sid slave href hp hs ⟨sid', href', hgoes⟩
    rw [href] at href'
    cases href'
    exact hgoes hp slave hs
  cases hl with
  | noSlave href =>
    refine iff_of_false (by simp) ?_
    rintro ⟨sid, href', -⟩
    rw [href] at href'
    cases href'
  | waiting href hp _ => exact iff_of_true rfl (hplace href hp)
  | unsubmitted href hp _ _ => exact iff_of_true rfl (hplace href hp)
  | submitted href hp _ _ => exact iff_of_true rfl (hplace href hp)
  | @unknown sid href _ hs =>
    refine iff_of_true rfl ⟨sid, href, fun _ slave hs' => ?_⟩
    rw [hs] at hs'
    cases hs'
  | noJob href hp hs hj =>
    exact iff_of_false (by simp) fun hc => (hslave href hp hs hc).1 hj
  | overdrawn href hp hs _ hd =>
    exact iff_of_false (by simp) fun hc => hd (hslave href hp hs hc).2
  | @placed sid job slave href _ hs hj hd =>
    refine iff_of_true rfl ⟨sid, href, fun _ slave' hs' => ?_⟩
    rw [hs] at hs'
    cases hs'
    exact ⟨by rw [hj]; simp, hd⟩

def LaunchesThrough : List TaskInfo → Dict String Slave → Prop
  | [], _ => True
  | t :: ts, d => Continues d t ∧ LaunchesThrough ts (launchedSlaves t d)

lemma forEach_launchTask_next_iff (now : ℚ) (req : LaunchTasksRequest) :
    ∀ (ls : List LaunchedTask) (st : LaunchState), (forEach (launchTask now req) ls st).2 = .next ↔
        LaunchesThrough (ls.map (·.info)) st.service.slaveDict
  | [], _ => iff_of_true rfl trivial
  | l :: ls, st => by
    rw [forEach_cons, seq_next_iff, launchTask_continues_iff, forEach_launchTask_next_iff now req ls,
      launchTask_slaveDict]
    rfl

/-! ## The offers marked as used -/

lemma mem_used_launchTask {oid : String} (h : oid ∈ (launchTask now req l st).1.used) :
    oid ∈ st.used ∨ ∃ sid slave o, l.info.slaveRef = some sid ∧ isPlaceholder sid = false ∧
      st.service.slaveDict.lookup sid = some slave ∧ slave.offer = some o ∧ o.id = oid := by
  have hown : ∀ {sid : String} {slave : Slave}, l.info.slaveRef = some sid →
      isPlaceholder sid = false → st.service.slaveDict.lookup sid = some slave →
      oid ∈ slave.usedOffer req.offerIds ++ st.used →
      oid ∈ st.used ∨ ∃ sid slave o, l.info.slaveRef = some sid ∧ isPlaceholder sid = false ∧
        st.service.slaveDict.lookup sid = some slave ∧ slave.offer = some o ∧ o.id = oid := by
    intro sid slave href hp hs hmem
    rcases mem_append.mp hmem with hmem | hmem
    · unfold usedOffer at hmem
      split at hmem
      · next o ho =>
          split_ifs at hmem
          · exact .inr ⟨sid, slave, o, href, hp, hs, ho, (mem_singleton.mp hmem).symm⟩
          · cases hmem
      · cases hmem
    · exact .inl hmem
  have hl := launchTask_launches now req l st
  generalize launchTask now req l st = r at hl h
  cases hl with
  | noSlave _ => exact .inl h
  | waiting _ _ _ => exact .inl h
  | unsubmitted _ _ _ _ => exact .inl h
  | submitted _ _ _ _ => exact .inl h
  | unknown _ _ _ => exact .inl h
  | noJob _ _ _ _ => exact .inl h
  | overdrawn href hp hs _ _ => exact hown href hp hs h
  | placed href hp hs _ _ => exact hown href hp hs h

lemma used_subset_launchTask (now : ℚ) (req : LaunchTasksRequest) (l : LaunchedTask)
    (st : LaunchState) : st.used ⊆ (launchTask now req l st).1.used := by
  have hl := launchTask_launches now req l st
  generalize launchTask now req l st = r at hl ⊢
  cases hl with
  | noSlave _ => exact fun _ h => h
  | waiting _ _ _ => exact fun _ h => h
  | unsubmitted _ _ _ _ => exact fun _ h => h
  | submitted _ _ _ _ => exact fun _ h => h
  | unknown _ _ _ => exact fun _ h => h
  | noJob _ _ _ _ => exact fun _ h => h
  | overdrawn _ _ _ _ _ => exact subset_append_right _ _
  | placed _ _ _ _ _ => exact subset_append_right _ _

/-! ## The jobs of the placeholders -/

def JobsSubmitted (req : LaunchTasksRequest) (st : LaunchState) : Prop :=
  ∀ sid job, st.placeholderToJobid.lookup sid = some job →
    ∃ l ∈ req.tasks, l.info.slaveRef = some sid ∧ ∃ j ∈ l.submitted, j.id = job

lemma exists_of_firstJobId : ∀ {ids : List JobTuple} {job : String},
    firstJobId ids = some job → ∃ j ∈ ids, j.id = job
  | j :: js, job, h => by
    have hfold : ∀ (l : List JobTuple) (least : String), (∃ k ∈ j :: js, k.id = least) →
        (∀ k ∈ l, k ∈ j :: js) → ∃ k ∈ j :: js, k.id =
          l.foldl (fun least k => if k.id < least then k.id else least) least := by
      intro l
      induction l with
      | nil => exact fun _ h _ => h
      | cons k l ih =>
        intro least h hl
        refine ih _ ?_ fun k' hk' => hl k' (mem_cons_of_mem _ hk')
        dsimp only
        split_ifs
        · exact ⟨k, hl k mem_cons_self, rfl⟩
        · exact h
    cases h
    exact hfold js j.id ⟨j, mem_cons_self, rfl⟩ fun k hk => mem_cons_of_mem _ hk

lemma mem_submitted_of_submission {s : Service} {j : JobTuple} (h : j ∈ (submission now l s).2)
    : j ∈ l.submitted := by
  rcases scaleUp_jobs s.config.concurrentTasks l.submitted (enterTask now l s) with he | he
  · rw [submission, he] at h
    cases h
  · rwa [submission, he] at h

lemma JobsSubmitted.launchTask (h : JobsSubmitted req st) (hl : l ∈ req.tasks) :
    JobsSubmitted req (launchTask now req l st).1 := by
  have hstep := launchTask_launches now req l st
  generalize Urb.launchTask now req l st = r at hstep ⊢
  cases hstep with
  | @submitted sid job href _ _ hjob =>
    intro sid' job' hlook
    obtain ⟨j, hj, hid⟩ := exists_of_firstJobId hjob
    rcases lookup_insert_cases hlook with ⟨rfl, rfl⟩ | ⟨-, hlook⟩
    · exact ⟨l, hl, href, j, mem_submitted_of_submission hj, hid⟩
    · exact h sid' job' hlook
  | _ => exact h

end Urb
