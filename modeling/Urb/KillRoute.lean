/-
# `Urb.KillRoute` — where a kill request goes

A task that runs has a record in `task_dict`, a slave in `slave_dict` and, on
that slave, the channel of its executor.  A kill starts from the record and has
to find the other two again:

    record        `agent_id` of the task info, else `slave_id`
    slave         the slave of this id; for the name of a placeholder, the slave
                  that took the placeholder
    channel       of the slave's executor, or of the task's command executor

`run_task` deletes `agent_id` from the task info, so a task of an HTTP framework,
which names its slave in `agent_id` only, has no way left to its slave once it runs
(`killTask_httpTask`).

**Proved here.**  What a kill writes, in every state (`killTask_wire`), and that
it reaches the executor exactly when the way from the record leads to a slave
with the executor's channel and the credit on that slave does not raise
(`killTask_routed_iff`).
-/
import Urb.Frames

namespace Urb

open Block Service Slave List

/-! ## What a kill writes -/

def Slave.killNotice (tid : String) (slave : Slave) : List Message :=
  match slave.channelFor tid with
  | some channel => [.killTask channel tid]
  | none => [.retry]

def killNotices (tid : String) (task : TaskRecord) : Option (String × Slave) → List Message
  | some (_, slave) =>
    if slave.isCommandExecutor = true ∨ (creditResources task.taskInfo slave).2 = .next then
      slave.killNotice tid
    else []
  | none => (task.jobId.map (fun job => Message.deleteJobs [job])).toList

lemma sendKillTask_wire (slave : Slave) (tid : String) (s : Service) :
    (sendKillTask slave tid s).wire = slave.killNotice tid ++ s.wire := by
  cases hch : slave.channelFor tid with
  | some channel => simp only [sendKillTask, killNotice, hch, send_wire, singleton_append]
  | none => simp only [sendKillTask, killNotice, hch, send_wire, singleton_append]

lemma killNotice_creditResources (tid : String) (t : TaskInfo) (slave : Slave) :
    (creditResources t slave).1.killNotice tid = slave.killNotice tid := by
  have hsame := creditResources_sameControl t slave
  simp only [killNotice, channelFor, hsame.isCommandExecutor, hsame.commandExecutors,
    hsame.executorChannel]

lemma killOnSlave_wire (tid key : String) (slave : Slave) (task : TaskRecord) (s : Service) :
    (killOnSlave tid key slave task s).1.wire = killNotices tid task (some (key, slave)) ++ s.wire := by
  cases hc : slave.isCommandExecutor with
  | true => simp only [killOnSlave, killNotices, hc, if_true, true_or, sendKillTask_wire]
  | false =>
    by_cases hcredit : (creditResources task.taskInfo slave).2 = .next
    · simp only [killOnSlave, killNotices, hc, hcredit, Bool.false_eq_true, if_false, if_true, or_true,
        sendKillTask_wire, killNotice_creditResources, modifySlave_wire]
    · simp only [killOnSlave, killNotices, hc, hcredit, Bool.false_eq_true, if_false, or_self,
        modifySlave_wire, nil_append]

def Service.killTarget (s : Service) (task : TaskRecord) : Option (String × Slave) :=
  task.taskInfo.killRef.bind s.resolveSlave

lemma killTask_wire {s : Service} {tid : String} {task : TaskRecord} (hf : tid ∉ s.foreign)
    (ht : s.taskDict.lookup tid = some task) :
    (killTask tid s).1.wire = killNotices tid task (s.killTarget task) ++
      .statusUpdate tid .killed task.taskInfo.killRef :: s.wire := by
  unfold killTask killTarget
  rw [if_neg hf, ht]
  dsimp only
  cases task.taskInfo.killRef.bind s.resolveSlave with
  | some p => exact killOnSlave_wire tid p.1 p.2 task _
  | none =>
    unfold deleteJobOf killNotices
    cases task.jobId with
    | some job => rfl
    | none => rfl

/-! ## Routing -/

def written (s s' : Service) : List Message := s'.wire.take (s'.wire.length - s.wire.length)

lemma written_eq {s s' : Service} {new : List Message} (h : s'.wire = new ++ s.wire) :
    written s s' = new := by
  rw [written, h, length_append, Nat.add_sub_cancel, take_left]

def Message.isKill : Message → Bool
  | .killTask _ _ => true
  | _ => false

structure KillRouted (channel tid : String) (new : List Message) : Prop where
  one : new.filter Message.isKill = [.killTask channel tid]
  keepsJobs : ∀ ids, .deleteJobs ids ∉ new

structure Executing (s : Service) (tid sid channel : String) (task : TaskRecord) : Prop where
  sent : .runTask sid channel tid ∈ s.wire
  record : s.taskDict.lookup tid = some task
  live : task.state.isTerminal = false
  slave : ∃ slave, s.slaveDict.lookup sid = some slave ∧ slave.channelFor tid = some channel

def LeadsTo (s : Service) (tid channel : String) (task : TaskRecord) : Prop :=
  ∃ key slave, s.killTarget task = some (key, slave) ∧ slave.channelFor tid = some channel ∧
    (slave.isCommandExecutor = true ∨ (creditResources task.taskInfo slave).2 = .next)

instance (s : Service) (tid channel : String) (task : TaskRecord) :
    Decidable (LeadsTo s tid channel task) :=
  decidable_of_iff (∃ p ∈ s.killTarget task, p.2.channelFor tid = some channel ∧
      (p.2.isCommandExecutor = true ∨ (creditResources task.taskInfo p.2).2 = .next))
    ⟨fun ⟨p, hp, h⟩ => ⟨p.1, p.2, hp, h⟩, fun ⟨key, slave, hp, h⟩ => ⟨(key, slave), hp, h⟩⟩

lemma killRouted_killNotices_iff {s : Service} {tid channel : String} {task : TaskRecord} :
    KillRouted channel tid (killNotices tid task (s.killTarget task) ++
      [.statusUpdate tid .killed task.taskInfo.killRef]) ↔ LeadsTo s tid channel task := by
  unfold LeadsTo killNotices
  cases s.killTarget task with
  | none =>
    refine iff_of_false (fun h => ?_) (fun ⟨_, _, h, _⟩ => by cases h)
    have hone := h.one
    cases hjob : task.jobId with
    | none =>
      rw [hjob] at hone
      cases hone
    | some job =>
      rw [hjob] at hone
      cases hone
  | some p =>
    obtain ⟨key, slave⟩ := p
    by_cases hok : slave.isCommandExecutor ∨ (creditResources task.taskInfo slave).2 = .next
    · simp only [if_pos hok, killNotice]
      constructor
      · rintro ⟨hone, -⟩
        refine ⟨key, slave, rfl, ?_, hok⟩
        cases hch : slave.channelFor tid with
        | none =>
          rw [hch] at hone
          cases hone
        | some c =>
          rw [hch] at hone
          cases hone
          rfl
      · rintro ⟨_, _, hp, hch, -⟩
        cases hp
        rw [hch]
        exact ⟨rfl, fun ids hm => by simp at hm⟩
    · simp only [if_neg hok]
      refine iff_of_false (fun h => ?_) ?_
      · cases h.one
      · rintro ⟨_, _, hp, -, hok'⟩
        cases hp
        exact hok hok'

theorem killTask_routed_iff {s : Service} {tid sid channel : String} {task : TaskRecord}
    (h : Executing s tid sid channel task) (native : Bool) :
    KillRouted channel tid (written s (step s (.killTask native tid))) ↔
      s.active = true ∧ tid ∉ s.foreign ∧ LeadsTo s tid channel task := by
  have hfinish : ∀ s', written s (finish native s') = written s s' := by
    intro s'
    cases native with
    | true => rw [written, written, show (finish true s').wire = s'.wire from postprocess_wire s']
    | false => rfl
  rw [show step s (.killTask native tid) = finish native (whenActive (killTask tid) s) from rfl, hfinish,
    whenActive]
  cases s.active with
  | false =>
    have hretry : written s (s.send .retry) = [.retry] := written_eq rfl
    refine iff_of_false (fun hk => ?_) (fun hk => by cases hk.1)
    rw [if_neg Bool.false_ne_true, hretry] at hk
    cases hk.one
  | true =>
    rw [if_pos rfl]
    by_cases hf : tid ∈ s.foreign
    · refine iff_of_false (fun hk => ?_) (fun hk => hk.2.1 hf)
      have hsame : (killTask tid s).1 = s := congrArg Prod.fst (if_pos hf)
      have hnone : written s s = [] := written_eq rfl
      rw [hsame, hnone] at hk
      cases hk.one
    · rw [written_eq ((killTask_wire hf h.record).trans (List.append_cons _ _ _)),
        killRouted_killNotices_iff]
      exact ⟨fun hl => ⟨rfl, hf, hl⟩, fun hl => hl.2.2⟩

/-! ## Two runs -/

def untilRunTask (t : TaskInfo) : List Event :=
  [runnerUp "7" "c7", launchOf [] [t], executorUp "c7" "e7"]

def executedNative : Service := runFrom smallService (untilRunTask (oneCpuTask "a" (slaveOf "7" "c7")))

def nativeRecord : TaskRecord :=
  { taskInfo := oneCpuTask "a" (slaveOf "7" "c7"), state := .staging, queueTime := some 0, jobId := some "7" }

theorem killTask_routed_native :
    Executing executedNative "a" (slaveOf "7" "c7") "e7" nativeRecord ∧
      KillRouted "e7" "a" (written executedNative (step executedNative (.killTask true "a"))) := by
  have hslave : (executedNative.slaveDict.lookup (slaveOf "7" "c7")).bind (Slave.channelFor "a") =
      some "e7" := by decide +kernel
  have hexec : Executing executedNative "a" (slaveOf "7" "c7") "e7" nativeRecord := by
    refine ⟨?_, ?_, rfl, Option.bind_eq_some_iff.mp hslave⟩
    · decide +kernel
    · decide +kernel
  refine ⟨hexec, (killTask_routed_iff hexec true).mpr ⟨?_, ?_, ?_⟩⟩
  · decide +kernel
  · decide +kernel
  · decide +kernel

def executedHttp : Service :=
  runFrom (.fresh smallConfig "fw" "host" true)
    (untilRunTask { oneCpuTask "a" "" with slaveId := none, agentId := some (slaveOf "7" "c7") })

theorem killTask_httpTask :
    (∃ task, Executing executedHttp "a" (slaveOf "7" "c7") "e7" task) ∧
      (written executedHttp (step executedHttp (.killTask false "a"))).filter Message.isKill = [] ∧
      .deleteJobs ["7"] ∈ written executedHttp (step executedHttp (.killTask false "a")) := by
  have hslave : (executedHttp.slaveDict.lookup (slaveOf "7" "c7")).bind (Slave.channelFor "a") =
      some "e7" := by decide +kernel
  have hrecord : executedHttp.taskDict.lookup "a" = some { nativeRecord with
      taskInfo := { oneCpuTask "a" "" with slaveId := none } } := by
    decide +kernel
  refine ⟨⟨_, ?_, hrecord, rfl, Option.bind_eq_some_iff.mp hslave⟩, ?_, ?_⟩
  · decide +kernel
  · decide +kernel
  · decide +kernel

end Urb
