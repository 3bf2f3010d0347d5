/-
# `Urb.Routing` — which slaves the tasks of a LaunchTasks message reach

A runner should get the tasks that name its slave, each task should go out once
(`Routed`).  The loop forwards the message as it came, once per iteration: with `n`
tasks, each iteration delivers all `n` of them to the slave of one.  So the routing
is right exactly when the loop forwards once and all tasks name that slave
(`RoutesAlone`):

    no task                              nothing is forwarded
    one task                             it is delivered to its slave
    more, all on one slave, and the      the loop ends after the first forward
    debit of the first fails
-/
import Urb.LaunchLoop

namespace Urb

open Block List TaskInfo

variable {sid : String}

/-! ## Deliveries -/

def Message.deliveries : Message → List (Option String × String)
  | .forwardedLaunch sid _ tids => tids.map (fun tid => (some sid, tid))
  | _ => []

def deliveries (wire : List Message) : List (Option String × String) :=
  wire.flatMap Message.deliveries

def TaskInfo.address (t : TaskInfo) : Option String × String := (t.slaveRef, t.taskId)

def Routed (req : LaunchTasksRequest) (s s' : Service) : Prop :=
  ∃ new, deliveries s'.wire = new ++ deliveries s.wire ∧
    new.Perm (req.infos.map TaskInfo.address)

def RoutesAlone (s : Service) : List TaskInfo → Prop
  | [] => True
  | t :: ts => ∃ sid slave, t.slaveRef = some sid ∧ s.slaveDict.lookup sid = some slave ∧
      getJobIdFromSlaveId sid ≠ none ∧ (∀ t' ∈ ts, t'.slaveRef = some sid) ∧
        (ts = [] ∨ (slave.launch t).2 ≠ .next)

def Registered (s : Service) (t : TaskInfo) : Prop :=
  ∃ sid, t.slaveRef = some sid ∧ isPlaceholder sid = false ∧ sid ∈ s.slaveDict

def LaunchTasksRequest.deliveredTo (req : LaunchTasksRequest) (sid : String) :
    List (Option String × String) :=
  req.infos.map (fun t => (some sid, t.taskId))

lemma deliveredTo_perm_iff {req : LaunchTasksRequest} :
    (req.deliveredTo sid).Perm (req.infos.map address) ↔ ∀ t ∈ req.infos, t.slaveRef = some sid := by
  constructor
  · intro h t ht
    have hmem : t.address ∈ req.deliveredTo sid := h.symm.subset (mem_map_of_mem ht)
    obtain ⟨t', -, he⟩ := mem_map.mp hmem
    exact (Prod.mk.inj he).1.symm
  · intro h
    refine List.Perm.of_eq (map_congr_left fun t ht => ?_)
    rw [address, h t ht]

lemma exists_deliveredTo_iff {req : LaunchTasksRequest} {ds : List (Option String × String)} :
    (∃ new, req.deliveredTo sid ++ ds = new ++ ds ∧ new.Perm (req.infos.map address)) ↔
      ∀ t ∈ req.infos, t.slaveRef = some sid := by
  rw [← deliveredTo_perm_iff]
  constructor
  · rintro ⟨new, hnew, hperm⟩
    rwa [← append_cancel_right hnew] at hperm
  · exact fun h => ⟨_, rfl, h⟩

lemma not_routesAlone_cons {s : Service} {t : TaskInfo} {ts : List TaskInfo}
    (href : t.slaveRef = some sid) (hnone : getJobIdFromSlaveId sid = none) :
    ¬ RoutesAlone s (t :: ts) := by
  rintro ⟨sid', _, href', -, hj, -⟩
  cases href.symm.trans href'
  exact hj hnone

lemma routesAlone_cons_iff {s : Service} {t : TaskInfo} {ts : List TaskInfo} {slave : Slave}
    (href : t.slaveRef = some sid) (hs : s.slaveDict.lookup sid = some slave)
    (hj : getJobIdFromSlaveId sid ≠ none) : RoutesAlone s (t :: ts) ↔
      (∀ t' ∈ t :: ts, t'.slaveRef = some sid) ∧ (ts = [] ∨ (slave.launch t).2 ≠ .next) := by
  rw [forall_mem_cons, and_iff_right href]
  constructor
  · rintro ⟨sid', slave', href', hs', -, hall, hend⟩
    cases href.symm.trans href'
    cases hs.symm.trans hs'
    exact ⟨hall, hend⟩
  · rintro ⟨hall, hend⟩
    exact ⟨sid, slave, href, hs, hj, hall, hend⟩

/-! ## One iteration -/

section Iteration

variable (now : ℚ) (req : LaunchTasksRequest) {l : LaunchedTask} {st : LaunchState}

lemma deliveries_runIfRegistered (sid tid : String) (slave : Slave) (s : Service) :
    deliveries (runIfRegistered sid tid slave s).wire = deliveries s.wire := by
  unfold runIfRegistered
  split <;> rfl

lemma deliveries_sendTaskLost (tid sid : String) (s : Service) :
    deliveries (sendTaskLost tid sid s).wire = deliveries s.wire := by
  unfold sendTaskLost
  split_ifs <;> rfl

lemma deliveries_submission (l : LaunchedTask) (s : Service) :
    deliveries (submission now l s).1.wire = deliveries s.wire :=
  scaleUp_keeps (I := fun s' => deliveries s'.wire = deliveries s.wire) (fun _ _ h => h) _ _ rfl

lemma launchTask_registered {slave : Slave} (href : l.info.slaveRef = some sid)
    (hp : isPlaceholder sid = false) (hs : st.service.slaveDict.lookup sid = some slave) :
    (getJobIdFromSlaveId sid = none ∧ (launchTask now req l st).2 = .ret ∧
      deliveries (launchTask now req l st).1.service.wire = deliveries st.service.wire) ∨
    (getJobIdFromSlaveId sid ≠ none ∧
      ((launchTask now req l st).2 = .next ↔ (slave.launch l.info).2 = .next) ∧
      deliveries (launchTask now req l st).1.service.wire =
        req.deliveredTo sid ++ deliveries st.service.wire) := by
  have hsent : ∀ s : Service, deliveries (.forwardedLaunch sid slave.channel
      (req.infos.map (·.taskId)) :: s.wire) = req.deliveredTo sid ++ deliveries s.wire := by
    intro s
    show List.map _ (List.map _ req.infos) ++ _ = _
    rw [map_map]
    rfl
  rw [launchTask_of_slave href hp hs]
  unfold launchOnSlave
  cases hj : getJobIdFromSlaveId sid with
  | none => exact .inl ⟨rfl, rfl, rfl⟩
  | some job =>
    dsimp only
    split_ifs with hd
    · refine .inr ⟨by simp, by simp [hd], ?_⟩
      exact (deliveries_runIfRegistered _ _ _ _).trans (hsent _)
    · exact .inr ⟨by simp, by simp [hd], hsent _⟩

lemma Registered.launchTask {t : TaskInfo} (h : Registered st.service t) (l : LaunchedTask) :
    Registered (launchTask now req l st).1.service t := by
  obtain ⟨sid, href, hp, hin⟩ := h
  refine ⟨sid, href, hp, ?_⟩
  rw [launchTask_slaveDict, AList.mem_keys, keys_launchedSlaves]
  exact AList.mem_keys.mp hin

lemma launchTask_deliveries_suffix (l : LaunchedTask) (st : LaunchState) :
    deliveries st.service.wire <:+ deliveries (launchTask now req l st).1.service.wire := by
  have hl := launchTask_launches now req l st
  generalize launchTask now req l st = r at hl ⊢
  cases hl with
  | noSlave _ => exact suffix_refl _
  | waiting _ _ _ =>
    rw [deliveries_sendTaskLost]
    exact suffix_refl _
  | unsubmitted _ _ _ _ =>
    exact (deliveries_submission now l st.service).symm ▸ suffix_refl _
  | submitted _ _ _ _ =>
    rw [deliveries_sendTaskLost]
    exact (deliveries_submission now l st.service).symm ▸ suffix_refl _
  | unknown _ _ _ => exact suffix_refl _
  | noJob _ _ _ _ => exact suffix_refl _
  | overdrawn _ _ _ _ _ => exact suffix_append _ _
  | placed _ _ _ _ _ =>
    rw [deliveries_runIfRegistered]
    exact suffix_append _ _

lemma forEach_deliveries_suffix (ls : List LaunchedTask) (st : LaunchState) :
    deliveries st.service.wire <:+ deliveries (forEach (launchTask now req) ls st).1.service.wire :=
  forEach_inv (I := fun st' : LaunchState => deliveries st.service.wire <:+ deliveries st'.service.wire)
    (fun l _ st' h => h.trans (launchTask_deliveries_suffix now req l st')) (suffix_refl _)

end Iteration

/-! ## The whole message -/

lemma deliveries_launchTasks (now : ℚ) (req : LaunchTasksRequest) (s : Service) :
    deliveries (launchTasks now req s).1.wire =
      deliveries (forEach (launchTask now req) req.tasks (launchStart req s)).1.service.wire := by
  unfold launchTasks
  dsimp only
  split_ifs
  · exact processRemainingOffers_keeps (I := fun s' => deliveries s'.wire = _) (fun _ _ h => h)
      (fun _ _ h => h) (fun _ _ h => h) (fun _ _ h => h) (fun _ _ _ h => h) (fun _ _ h => h)
      (fun _ _ h => h) _ _ _ rfl
  · rfl

section Message

variable {now : ℚ} {req : LaunchTasksRequest} {s : Service}

lemma not_perm_of_two {l₂ : LaunchedTask} {ls : List LaunchedTask} {st : LaunchState}
    (hreg : Registered st.service l₂.info) (hmem : l₂.info ∈ req.infos)
    (hj : getJobIdFromSlaveId sid ≠ none)
    (hst : deliveries st.service.wire = req.deliveredTo sid ++ deliveries s.wire)
    {new : List (Option String × String)}
    (hnew : deliveries (forEach (launchTask now req) (l₂ :: ls) st).1.service.wire =
      new ++ deliveries s.wire) : ¬ new.Perm (req.infos.map address) := by
  intro hperm
  obtain ⟨sid₂, href, hp, hin⟩ := hreg
  obtain ⟨slave, hs⟩ := AList.exists_lookup_of_mem hin
  rcases launchTask_registered now req href hp hs with
    ⟨hnone, hflow, hdel⟩ | ⟨-, -, hdel⟩
  · rw [forEach_cons, seq_of_ne (by rw [hflow]; simp), hdel, hst] at hnew
    rw [← append_cancel_right hnew, deliveredTo_perm_iff] at hperm
    have hsame := hperm _ hmem
    rw [href] at hsame
    cases hsame
    exact hj hnone
  · have hsuffix : deliveries (launchTask now req l₂ st).1.service.wire <:+
        deliveries (forEach (launchTask now req) (l₂ :: ls) st).1.service.wire := by
      rw [forEach_cons]
      exact seq_inv (I := fun st' : LaunchState => _ <:+ deliveries st'.service.wire)
        (suffix_refl _) fun _ => forEach_deliveries_suffix now req ls _
    have hlen := hsuffix.length_le
    have hpos := length_pos_of_mem hmem
    rw [hnew, hdel, hst] at hlen
    simp only [length_append, LaunchTasksRequest.deliveredTo, length_map, hperm.length_eq] at hlen
    omega

theorem launchTasks_routed_iff (hreg : ∀ t ∈ req.infos, Registered s t) :
    Routed req s (launchTasks now req s).1 ↔ RoutesAlone s req.infos := by
  unfold Routed
  rw [deliveries_launchTasks]
  have hinfos : req.infos = req.tasks.map (·.info) := rfl
  have hstart : deliveries (launchStart req s).service.wire = deliveries s.wire := rfl
  cases htasks : req.tasks with
  | nil =>
    rw [htasks] at hinfos
    rw [hinfos, forEach_nil, hstart]
    exact ⟨fun _ => trivial, fun _ => ⟨[], rfl, .nil⟩⟩
  | cons l ls =>
    rw [htasks] at hinfos
    obtain ⟨sid, href, hp, hin⟩ := hreg l.info (hinfos ▸ mem_cons_self)
    obtain ⟨slave, hs⟩ := AList.exists_lookup_of_mem hin
    have hs' : (launchStart req s).service.slaveDict.lookup sid = some slave := hs
    rcases launchTask_registered now req href hp hs' with
      ⟨hnone, hflow, hdel⟩ | ⟨hj, hflow, hdel⟩
    · -- the loop returns before anything is forwarded
      rw [forEach_cons, seq_of_ne (by rw [hflow]; simp), hdel, hstart, hinfos]
      refine iff_of_false ?_ (not_routesAlone_cons href hnone)
      rintro ⟨new, hnew, hperm⟩
      have hlen := hperm.length_eq
      rw [self_eq_append_left.mp hnew] at hlen
      simp at hlen
    · rw [hstart] at hdel
      have hiff : RoutesAlone s req.infos ↔ (∀ t ∈ req.infos, t.slaveRef = some sid) ∧
          (ls.map (·.info) = [] ∨ (slave.launch l.info).2 ≠ .next) := by
        rw [hinfos]
        exact routesAlone_cons_iff href hs hj
      rw [hiff]
      by_cases hd : (slave.launch l.info).2 = .next
      · rw [forEach_cons, seq_of_next (hflow.mpr hd)]
        cases ls with
        | nil =>
          rw [forEach_nil, hdel, exists_deliveredTo_iff]
          exact ⟨fun h => ⟨h, Or.inl rfl⟩, fun h => h.1⟩
        | cons l₂ ls =>
          -- two tasks, and the first one went through
          have hmem : l₂.info ∈ req.infos := by rw [hinfos]; simp
          have hreg₂ : Registered (launchStart req s).service l₂.info := hreg l₂.info hmem
          refine iff_of_false ?_ ?_
          · rintro ⟨new, hnew, hperm⟩
            exact not_perm_of_two (hreg₂.launchTask now req l) hmem hj hdel hnew hperm
          · rintro ⟨-, hend | hend⟩
            · cases hend
            · exact hend hd
      · rw [forEach_cons, seq_of_ne (fun h => hd (hflow.mp h)), hdel, exists_deliveredTo_iff]
        exact ⟨fun h => ⟨h, Or.inr hd⟩, fun h => h.1⟩

end Message

def twoSlaves : Service := runFrom smallService [runnerUp "7" "c7", runnerUp "8" "c8"]

theorem launchTasks_routed_single :
    Routed { offerIds := [], tasks := [⟨oneCpuTask "a" (slaveOf "7" "c7"), []⟩] } twoSlaves
      (launchTasks 0 { offerIds := [], tasks := [⟨oneCpuTask "a" (slaveOf "7" "c7"), []⟩] } twoSlaves).1 := by
  refine (launchTasks_routed_iff fun t ht => ?_).mpr ?_
  · rw [mem_singleton.mp ht]
    exact ⟨slaveOf "7" "c7", rfl, by decide +kernel, by decide +kernel⟩
  · obtain ⟨slave, hs⟩ := AList.exists_lookup_of_mem
      (show slaveOf "7" "c7" ∈ twoSlaves.slaveDict by decide +kernel)
    refine ⟨slaveOf "7" "c7", slave, rfl, hs, by decide +kernel, ?_, Or.inl rfl⟩
    exact fun t ht => absurd ht not_mem_nil

def taskForEach : LaunchTasksRequest :=
  { offerIds := []
    tasks := [⟨oneCpuTask "a" (slaveOf "7" "c7"), []⟩, ⟨oneCpuTask "b" (slaveOf "8" "c8"), []⟩] }

theorem launchTasks_not_routed :
    deliveries (launchTasks 0 taskForEach twoSlaves).1.wire =
        [(some (slaveOf "8" "c8"), "a"), (some (slaveOf "8" "c8"), "b"),
          (some (slaveOf "7" "c7"), "a"), (some (slaveOf "7" "c7"), "b")] ∧
      ¬ Routed taskForEach twoSlaves (launchTasks 0 taskForEach twoSlaves).1 := by
  have hall : deliveries (launchTasks 0 taskForEach twoSlaves).1.wire =
      [(some (slaveOf "8" "c8"), "a"), (some (slaveOf "8" "c8"), "b"),
        (some (slaveOf "7" "c7"), "a"), (some (slaveOf "7" "c7"), "b")] := by
    decide +kernel
  have hnone : deliveries twoSlaves.wire = [] := by decide +kernel
  refine ⟨hall, ?_⟩
  rintro ⟨new, hnew, hperm⟩
  have hlen := hperm.length_eq
  rw [hall, hnone, append_nil] at hnew
  rw [← hnew] at hlen
  revert hlen
  decide

end Urb
