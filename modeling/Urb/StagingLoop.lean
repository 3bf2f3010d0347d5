/-
# `Urb.StagingLoop` — the tasks a registering runner takes over

A runner that registers without tasks walks over `task_dict` and takes every
STAGING task of its job: the task is debited on the new slave, and if it was
launched on a placeholder it is bound to the slave and put into ONE
LaunchTasks message to the runner.

Nothing but the record of the new slave, and the map from placeholders to
slaves, changes in the loop.  So the loop over the dictionary is the loop of
`Slave.stage` over the waiting tasks on that one record:

    stageTask over task_dict          on the service
    Slave.stage over waitingTasks     on the slave record

and the registration completes exactly when the second loop does
(`registerExecutorRunner_next_iff`).
-/
import Urb.Frames

namespace Urb

open Block List AList Service Slave

/-! ## The loop on the slave record -/

def TaskRecord.waitsFor (job : String) (r : TaskRecord) : Bool :=
  decide (r.state = .staging ∧ r.jobId = some job)

def waitingTasks (job : String) (d : Dict String TaskRecord) : List TaskInfo :=
  (d.values.filter (·.waitsFor job)).map (·.taskInfo)

def Slave.stage (t : TaskInfo) : Block Slave := fun slave =>
  match t.slaveRef with
  | none => (slave, .raise)
  | some ref => debitResources t (if isPlaceholder ref then slave.takePlaceholder ref t else slave)

def TaskInfo.stagedIds (t : TaskInfo) : List String :=
  match t.slaveRef with
  | none => []
  | some ref => if isPlaceholder ref then [t.taskId] else []

def StagesThrough (reg : RunnerRegistration) (s : Service) : Prop :=
  (forEach Slave.stage (waitingTasks reg.jobId s.taskDict)
    (initializeSlaveResources s.config reg.host reg.channel)).2 = .next

instance (reg : RunnerRegistration) (s : Service) : Decidable (StagesThrough reg s) :=
  inferInstanceAs (Decidable (_ = _))

def stagedSlave (reg : RunnerRegistration) (s : Service) : Slave :=
  (forEach Slave.stage (waitingTasks reg.jobId s.taskDict)
    (initializeSlaveResources s.config reg.host reg.channel)).1

/-! ## The loop on the service -/

def Service.unplaced (s : Service) : Service :=
  { s with slaveDict := ∅, placeholderToSlave := ∅ }

structure Stages (sid : String) (s₀ : Service) (slave : Slave) (st : Staging) : Prop where
  slave : st.service.slaveDict.lookup sid = some slave
  others : ∀ k, k ≠ sid → st.service.slaveDict.lookup k = s₀.slaveDict.lookup k
  rest : st.service.unplaced = s₀.unplaced

namespace Stages

variable {s₀ : Service} {slave : Slave} {st : Staging} {reg : RunnerRegistration}

lemma taskDict {sid : String} (h : Stages sid s₀ slave st) : st.service.taskDict = s₀.taskDict :=
  (congrArg Service.taskDict h.rest : _)

lemma stageTask {tid : String} {r : TaskRecord} (h : Stages reg.slaveId s₀ slave st)
    (hr : s₀.taskDict.lookup tid = some r) (hw : r.waitsFor reg.jobId) :
    Stages reg.slaveId s₀ (slave.stage r.taskInfo).1 (stageTask reg tid st).1 ∧
      (Urb.stageTask reg tid st).2 = (slave.stage r.taskInfo).2 ∧
      (Urb.stageTask reg tid st).1.tasks = st.tasks ++ r.taskInfo.stagedIds := by
  have hdebit : ∀ (sl : Slave) (st' : Staging), Stages reg.slaveId s₀ sl st' →
      Stages reg.slaveId s₀ (debitResources r.taskInfo sl).1
        { st' with service := (debitSlave reg.slaveId r.taskInfo st'.service).1 } ∧
      (debitSlave reg.slaveId r.taskInfo st'.service).2 = (debitResources r.taskInfo sl).2 := by
    intro sl st' h'
    simp only [debitSlave, h'.slave]
    refine ⟨⟨?_, fun k hk => ?_, h'.rest⟩, trivial⟩
    · exact lookup_modify_of_some h'.slave _
    · rw [modifySlave_slaveDict, lookup_modify_ne hk]
      exact h'.others k hk
  rw [TaskRecord.waitsFor, decide_eq_true_eq] at hw
  rw [← h.taskDict] at hr
  cases href : r.taskInfo.slaveRef with
  | none =>
    simp only [Urb.stageTask, hr, if_pos hw, href, stage, TaskInfo.stagedIds, append_nil]
    exact ⟨h, trivial, trivial⟩
  | some ref =>
    cases hp : isPlaceholder ref with
    | false =>
      simp only [Urb.stageTask, hr, if_pos hw, href, stage, TaskInfo.stagedIds, hp,
        Bool.false_eq_true, if_false, append_nil, and_true]
      exact hdebit slave st h
    | true =>
      have hbound : Stages reg.slaveId s₀ (slave.takePlaceholder ref r.taskInfo)
          (bindPlaceholder reg.slaveId ref r.taskInfo st) := by
        exact ⟨lookup_modify_of_some h.slave _,
          fun k hk => (lookup_modify_ne hk _ _).trans (h.others k hk), h.rest⟩
      simp only [Urb.stageTask, hr, if_pos hw, href, stage, TaskInfo.stagedIds, hp, if_true]
      exact ⟨(hdebit _ _ hbound).1, (hdebit _ _ hbound).2, rfl⟩

lemma stageTask_skip {sid tid : String} {r : TaskRecord} (h : Stages sid s₀ slave st)
    (hr : s₀.taskDict.lookup tid = some r) (hw : r.waitsFor reg.jobId = false) :
    Urb.stageTask reg tid st = (st, .next) := by
  rw [TaskRecord.waitsFor, decide_eq_false_iff_not] at hw
  rw [← h.taskDict] at hr
  simp only [Urb.stageTask, hr, if_neg hw]

lemma loop : ∀ {l : List (Sigma fun _ : String => TaskRecord)} {slave : Slave} {st : Staging},
    (∀ e ∈ l, s₀.taskDict.lookup e.1 = some e.2) → Stages reg.slaveId s₀ slave st →
    let staged := ((l.map (·.2)).filter (·.waitsFor reg.jobId)).map (·.taskInfo)
    let r := forEach (Urb.stageTask reg) (l.map (·.1)) st
    Stages reg.slaveId s₀ (forEach stage staged slave).1 r.1 ∧ r.2 = (forEach stage staged slave).2 ∧
      (r.2 = .next → r.1.tasks = st.tasks ++ staged.flatMap (·.stagedIds)) ∧
      ∀ x ∈ r.1.tasks, x ∈ st.tasks ∨ x ∈ staged.flatMap (·.stagedIds)
  | [], slave, st, _, h => ⟨h, rfl, fun _ => (append_nil _).symm, fun _ hx => .inl hx⟩
  | e :: l, slave, st, hl, h => by
    have he := hl e mem_cons_self
    have hrest := fun e' he' => hl e' (mem_cons_of_mem _ he')
    dsimp only
    rw [map_cons, map_cons, forEach_cons]
    cases hw : e.2.waitsFor reg.jobId with
    | false =>
      rw [filter_cons_of_neg (by rw [hw]; simp), seq_of_next (by rw [h.stageTask_skip he hw]),
        h.stageTask_skip he hw]
      exact loop hrest h
    | true =>
      obtain ⟨hst, hflow, htasks⟩ := h.stageTask he hw
      rw [filter_cons_of_pos hw, map_cons, forEach_cons, flatMap_cons]
      by_cases hnext : (slave.stage e.2.taskInfo).2 = .next
      · rw [seq_of_next (hflow.trans hnext), seq_of_next hnext]
        obtain ⟨hst', hflow', hall, hsome⟩ := loop hrest hst
        refine ⟨hst', hflow', fun hn => ?_, fun x hx => ?_⟩
        · rw [hall hn, htasks, append_assoc]
        · rcases hsome x hx with hx | hx
          · rw [htasks, mem_append] at hx
            exact hx.imp_right (mem_append_left _)
          · exact .inr (mem_append_right _ hx)
      · rw [seq_of_ne (fun hn => hnext (hflow.symm.trans hn)), seq_of_ne hnext]
        refine ⟨hst, hflow, fun hn => absurd (hflow.symm.trans hn) hnext, fun x hx => ?_⟩
        rw [htasks, mem_append] at hx
        exact hx.imp_right (mem_append_left _)

end Stages

/-! ## The registration -/

def stagedIds (reg : RunnerRegistration) (s : Service) : List String :=
  (waitingTasks reg.jobId s.taskDict).flatMap (·.stagedIds)

def launchNotice (reg : RunnerRegistration) (ids : List String) : List Message :=
  if ids = [] then [] else [.stagedLaunch reg.slaveId reg.channel ids]

def Service.unregistered (s : Service) : Service :=
  { s.unplaced with slaveDictSet := false, jobIds := none, wire := [] }

structure RunnerEntered (reg : RunnerRegistration) (ids : List String) (s s' : Service) : Prop where
  others : ∀ k, k ≠ reg.slaveId → s'.slaveDict.lookup k = s.slaveDict.lookup k
  wire : s'.wire = launchNotice reg ids ++ .executorRunnerReceived reg.jobId reg.slaveId :: s.wire
  rest : s'.unregistered = s.unregistered

def stagingLoop (reg : RunnerRegistration) (s : Service) : Staging × Ending :=
  forEach (stageTask reg) (enterSlave reg s).taskDict.keys { service := enterSlave reg s }

section Runner

variable {reg : RunnerRegistration} {s : Service}

lemma stages_enterSlave (reg : RunnerRegistration) (s : Service) : Stages reg.slaveId (enterSlave reg s)
    (initializeSlaveResources s.config reg.host reg.channel) { service := enterSlave reg s } :=
  ⟨lookup_insert _, fun _ _ => rfl, rfl⟩

lemma stages_loop (reg : RunnerRegistration) (s : Service) :
    Stages reg.slaveId (enterSlave reg s) (stagedSlave reg s) (stagingLoop reg s).1 ∧
    ((stagingLoop reg s).2 = .next ↔ StagesThrough reg s) ∧
    ((stagingLoop reg s).2 = .next → (stagingLoop reg s).1.tasks = stagedIds reg s) ∧
    ∀ x ∈ (stagingLoop reg s).1.tasks, x ∈ stagedIds reg s := by
  obtain ⟨hst, hflow, hall, hsome⟩ :=
    Stages.loop (fun e he => mem_lookup_iff.mpr he) (stages_enterSlave reg s)
  exact ⟨hst, iff_of_eq (congrArg (· = Ending.next) hflow), hall,
    fun x hx => (hsome x hx).resolve_left not_mem_nil⟩

lemma launchStaged_entered {st : Staging} {slave : Slave}
    (h : Stages reg.slaveId (enterSlave reg s) slave st) :
    RunnerEntered reg st.tasks s (launchStaged reg st) ∧
      (launchStaged reg st).slaveDict.lookup reg.slaveId = some slave := by
  have hothers : ∀ k, k ≠ reg.slaveId → st.service.slaveDict.lookup k = s.slaveDict.lookup k :=
    fun k hk => (h.others k hk).trans (lookup_insert_ne hk)
  have hwire : st.service.wire = .executorRunnerReceived reg.jobId reg.slaveId :: s.wire :=
    (congrArg wire h.rest : _)
  have hrest : st.service.unregistered = s.unregistered :=
    congrArg (fun x : Service => { x with slaveDictSet := false, jobIds := none, wire := [] }) h.rest
  have hsent : st.tasks ≠ [] → RunnerEntered reg st.tasks s
      (st.service.send (.stagedLaunch reg.slaveId reg.channel st.tasks)) := by
    intro hne
    refine ⟨hothers, ?_, hrest⟩
    rw [send_wire, hwire, launchNotice, if_neg hne]
    rfl
  unfold launchStaged
  split_ifs with hnil
  · refine ⟨⟨hothers, ?_, hrest⟩, h.slave⟩
    rw [hwire, hnil]
    rfl
  · exact ⟨hsent hnil, h.slave⟩
  · refine scaleUp_keeps (I := fun s' => RunnerEntered reg st.tasks s s' ∧
      s'.slaveDict.lookup reg.slaveId = some slave) (fun ids s' hs' => ?_) _ _ ⟨hsent hnil, h.slave⟩
    exact ⟨⟨hs'.1.others, hs'.1.wire, hs'.1.rest⟩, hs'.2⟩

lemma registerExecutorRunner_entered (ht : reg.tasks = []) : ∃ ids, (∀ x ∈ ids, x ∈ stagedIds reg s) ∧
      RunnerEntered reg ids s (registerExecutorRunner reg s).1 := by
  obtain ⟨hst, -, -, hsome⟩ := stages_loop reg s
  simp only [registerExecutorRunner, if_pos ht, stageTasks]
  split_ifs with h
  · have hentered := (launchStaged_entered hst).1
    refine ⟨_, hsome, ⟨fun k hk => ?_, hentered.wire, hentered.rest⟩⟩
    exact (lookup_modify_ne hk _ _).trans (hentered.others k hk)
  · refine ⟨[], fun _ hx => absurd hx not_mem_nil, ⟨fun k hk => ?_, ?_, ?_⟩⟩
    · exact (hst.others k hk).trans (lookup_insert_ne hk)
    · exact (congrArg wire hst.rest : _)
    · exact congrArg (fun x : Service =>
        { x with slaveDictSet := false, jobIds := none, wire := [] }) hst.rest

lemma registerExecutorRunner_ready (ht : reg.tasks = []) (hthrough : StagesThrough reg s)
    (hforeign : s.foreign = []) :
    RunnerEntered reg (stagedIds reg s) s (registerExecutorRunner reg s).1 ∧
      (registerExecutorRunner reg s).1.slaveDict.lookup reg.slaveId =
        some { stagedSlave reg s with offerable := true } := by
  obtain ⟨hst, hnext, hall, -⟩ := stages_loop reg s
  have hdone : (stagingLoop reg s).2 = .next ∧ (stagingLoop reg s).1.service.foreign = [] :=
    ⟨hnext.mpr hthrough, (congrArg foreign hst.rest : _).trans hforeign⟩
  have hres : (registerExecutorRunner reg s).1 = (launchStaged reg (stagingLoop reg s).1).modifySlave
      reg.slaveId (fun sl => { sl with offerable := true }) := by
    simp only [registerExecutorRunner, if_pos ht, stageTasks]
    exact congrArg Prod.fst (if_pos hdone)
  obtain ⟨hentered, hslave⟩ := launchStaged_entered hst
  rw [hall hdone.1] at hentered
  rw [hres]
  refine ⟨⟨fun k hk => ?_, hentered.wire, hentered.rest⟩, ?_⟩
  · exact (lookup_modify_ne hk _ _).trans (hentered.others k hk)
  · exact lookup_modify_of_some hslave _

end Runner

end Urb
