/-
# `Urb.ReconcileFrame` — what explicit reconciliation leaves of the task dictionary

A reconciliation request asks for states; it should leave the records alone.
`TasksKept` says so: every task stays in the dictionary, the record of a task
the request does not name is untouched, and all values are still records.

It does so in every branch but one.  The branch for a task without a slave
whose grace period is over (`Expires`) replaces the dictionary.  The theorem
of this module is exact: the frame holds after every status of a request if
and only if, walking over the statuses, none expires before one raises, or
there was no record to lose.

    a status that does not expire   keeps the dictionary          (`reconcileTask_kept`)
                                    and what later statuses read  (`reconcileTask_alike`)
    a status that expires           leaves one key                (`reconcileTask_expires`)

Both tests, `Expires` and `Fails`, are evaluated in the state BEFORE the request
(`Alike.expires_iff`).
-/
import Urb.Step

namespace Urb

open Block List AList

variable {t : Option TaskRecord}

/-! ## The frame -/

structure TasksKept (named : List String) (s s' : Service) : Prop where
  kept : ∀ tid, tid ∈ s.taskDict → tid ∈ s'.taskDict
  unnamed : ∀ tid, tid ∉ named → s'.taskDict.lookup tid = s.taskDict.lookup tid
  records : s'.foreign = []

/-! ## The two tests -/

section Tests

variable (now : ℚ) (req : ReconcileRequest) (s : Service) (q : TaskStatus)

def Expires : Prop :=
  statusSlave q (s.taskDict.lookup q.taskId) s = none ∧
    stagingCheck now req none (s.taskDict.lookup q.taskId) = .determine ∧
      lostCheck now q (s.taskDict.lookup q.taskId) s = .expired

def Fails : Prop :=
  stagingCheck now req (statusSlave q (s.taskDict.lookup q.taskId) s)
    (s.taskDict.lookup q.taskId) = .fail

instance : Decidable (Expires now req s q) := by unfold Expires; infer_instance

instance : Decidable (Fails now req s q) := by unfold Fails; infer_instance

def SafeStatuses : List TaskStatus → Prop
  | [] => True
  | q :: qs => ¬ Expires now req s q ∧ (Fails now req s q ∨ SafeStatuses qs)

end Tests

lemma SafeStatuses.of_initial {now : ℚ} {req : ReconcileRequest} {s : Service} :
    ∀ {pre qs : List TaskStatus}, SafeStatuses now req s qs → pre <+: qs → SafeStatuses now req s pre
  | [], _, _, _ => trivial
  | q :: pre, qs, h, hp => by
    obtain ⟨post, rfl⟩ := hp
    refine ⟨h.1, ?_⟩
    rcases h.2 with hf | hs
    · exact .inl hf
    · exact .inr (SafeStatuses.of_initial hs (prefix_append pre post))

/-! ## What the tests read -/

/-- Two records look the same to the tests. -/
structure SameQueue (r r' : TaskRecord) : Prop where
  state : r'.state = r.state
  queueTime : r'.queueTime = r.queueTime
  noSlave : r'.taskInfo.slaveRef = none ↔ r.taskInfo.slaveRef = none

def expired (now : ℚ) : Option ℚ → Bool
  | none => false
  | some since => pastGracePeriod now since

/-- Two states look the same to the tests. -/
structure Alike (now : ℚ) (s s' : Service) : Prop where
  tasks : ∀ tid, (s.taskDict.lookup tid = none ∧ s'.taskDict.lookup tid = none) ∨
    ∃ r r', s.taskDict.lookup tid = some r ∧ s'.taskDict.lookup tid = some r' ∧ SameQueue r r'
  candidates : ∀ tid, expired now (s'.lostCandidate.lookup tid) =
    expired now (s.lostCandidate.lookup tid)

lemma SameQueue.refl (r : TaskRecord) : SameQueue r r := ⟨rfl, rfl, .rfl⟩

lemma SameQueue.trans {a b c : TaskRecord} (h : SameQueue a b) (k : SameQueue b c) : SameQueue a c :=
  ⟨k.state.trans h.state, k.queueTime.trans h.queueTime, k.noSlave.trans h.noSlave⟩

lemma Alike.refl (now : ℚ) (s : Service) : Alike now s s := by
  refine ⟨fun tid => ?_, fun _ => rfl⟩
  cases h : s.taskDict.lookup tid with
  | none => exact .inl ⟨rfl, rfl⟩
  | some r => exact .inr ⟨r, r, rfl, rfl, .refl r⟩

lemma Alike.trans {now : ℚ} {a b c : Service} (h : Alike now a b) (k : Alike now b c) :
    Alike now a c := by
  refine ⟨fun tid => ?_, fun tid => (k.candidates tid).trans (h.candidates tid)⟩
  rcases h.tasks tid with ⟨ha, hb⟩ | ⟨r, r', ha, hb, hr⟩
  · rcases k.tasks tid with ⟨-, hc⟩ | ⟨_, _, hb', _, _⟩
    · exact .inl ⟨ha, hc⟩
    · rw [hb] at hb'; cases hb'
  · rcases k.tasks tid with ⟨hb', -⟩ | ⟨_, r'', hb', hc, hr'⟩
    · rw [hb] at hb'; cases hb'
    · rw [hb] at hb'; cases hb'
      exact .inr ⟨r, r'', ha, hc, hr.trans hr'⟩

lemma slaveRef_resolvePlaceholder (map : Dict String String) (t : TaskInfo) :
    (t.resolvePlaceholder map).slaveRef = none ↔ t.slaveRef = none := by
  unfold TaskInfo.resolvePlaceholder TaskInfo.slaveRef
  cases t.slaveId with
  | some v => simp
  | none => cases t.agentId <;> simp

lemma statusSlave_eq_none {q : TaskStatus} {s : Service} : statusSlave q t s = none ↔
      q.slaveId = none ∧ ∀ r, t = some r → r.taskInfo.slaveRef = none := by
  unfold statusSlave
  cases q.slaveId with
  | some v => simp
  | none =>
    cases t with
    | none => simp
    | some r => simp [slaveRef_resolvePlaceholder]

lemma stagingCheck_congr {now : ℚ} {req : ReconcileRequest} {slave slave' : Option String}
    {r r' : TaskRecord} (hs : slave'.isNone = slave.isNone) (hr : SameQueue r r') :
    stagingCheck now req slave' (some r') = stagingCheck now req slave (some r) := by
  simp only [stagingCheck, hr.state, hr.queueTime, hs]

lemma lostCheck_eq_expired {now : ℚ} {q : TaskStatus} {s : Service} : lostCheck now q t s = .expired ↔
      match t with
      | none => expired now (s.lostCandidate.lookup q.taskId)
      | some r => expired now r.queueTime := by
  cases t with
  | none =>
    simp only [lostCheck]
    cases s.lostCandidate.lookup q.taskId with
    | none => simp [expired]
    | some since => simp [expired]
  | some r =>
    simp only [lostCheck]
    cases r.queueTime with
    | none => simp [expired]
    | some since => simp [expired]

namespace Alike

variable {now : ℚ} {req : ReconcileRequest} {s s' : Service} {q : TaskStatus}

lemma isNone_statusSlave (h : Alike now s s') (q : TaskStatus) :
    (statusSlave q (s'.taskDict.lookup q.taskId) s').isNone =
      (statusSlave q (s.taskDict.lookup q.taskId) s).isNone := by
  rw [Bool.eq_iff_iff, Option.isNone_iff_eq_none, Option.isNone_iff_eq_none, statusSlave_eq_none,
    statusSlave_eq_none]
  rcases h.tasks q.taskId with ⟨hs, hs'⟩ | ⟨r, r', hs, hs', hr⟩
  · simp [hs, hs']
  · simp [hs, hs', hr.noSlave]

lemma expires_iff (h : Alike now s s') : Expires now req s' q ↔ Expires now req s q := by
  have hslave := h.isNone_statusSlave q
  rw [Bool.eq_iff_iff, Option.isNone_iff_eq_none, Option.isNone_iff_eq_none] at hslave
  unfold Expires
  rw [hslave, lostCheck_eq_expired, lostCheck_eq_expired]
  rcases h.tasks q.taskId with ⟨hs, hs'⟩ | ⟨r, r', hs, hs', hr⟩
  · simp only [hs, hs', h.candidates, stagingCheck]
  · simp only [hs, hs', hr.queueTime, stagingCheck_congr rfl hr]

lemma fails_iff (h : Alike now s s') : Fails now req s' q ↔ Fails now req s q := by
  have hslave := h.isNone_statusSlave q
  unfold Fails
  rcases h.tasks q.taskId with ⟨hs, hs'⟩ | ⟨r, r', hs, hs', hr⟩
  · simp only [hs, hs', stagingCheck]
  · rw [hs, hs'] at hslave ⊢
    rw [stagingCheck_congr hslave hr]

end Alike

/-! ## One status -/

section OneStatus

variable {now : ℚ} (http : Bool) {req : ReconcileRequest} {s : Service} {q : TaskStatus}

lemma resolveStatus_alike (now : ℚ) (q : TaskStatus) (s : Service) :
    Alike now s (resolveStatus q s) := by
  unfold resolveStatus
  split
  · exact .refl now s
  · refine ⟨fun tid => ?_, fun _ => rfl⟩
    simp only [Service.modifyTask_taskDict, lookup_modify]
    cases h : s.taskDict.lookup tid with
    | none => exact .inl ⟨rfl, by split <;> rfl⟩
    | some r =>
      refine .inr ⟨r, ?_⟩
      split
      · exact ⟨_, rfl, rfl, rfl, rfl, slaveRef_resolvePlaceholder _ r.taskInfo⟩
      · exact ⟨r, rfl, rfl, .refl r⟩

lemma resolveStatus_lookup {tid : String} (h : tid ≠ q.taskId) :
    (resolveStatus q s).taskDict.lookup tid = s.taskDict.lookup tid := by
  unfold resolveStatus
  split
  · rfl
  · exact lookup_modify_ne h _ _

@[simp] lemma resolveStatus_foreign : (resolveStatus q s).foreign = s.foreign := by
  unfold resolveStatus
  split <;> rfl

lemma pastGracePeriod_self (now : ℚ) : pastGracePeriod now now = false := by
  simp [pastGracePeriod, slaveGracePeriod]

lemma lookup_lostCandidate_of_candidate (h : lostCheck now q t s = .candidate)
    : s.lostCandidate.lookup q.taskId = none := by
  cases t with
  | none =>
    simp only [lostCheck] at h
    cases hl : s.lostCandidate.lookup q.taskId with
    | none => rfl
    | some since => simp only [hl] at h; split at h <;> cases h
  | some r =>
    simp only [lostCheck] at h
    cases hq : r.queueTime with
    | none => simp only [hq] at h; cases h
    | some since => simp only [hq] at h; split at h <;> cases h

lemma reconcileLost_quiet (h : lostCheck now q t s ≠ .expired) :
    (reconcileLost now http q t s).taskDict = s.taskDict ∧
      (reconcileLost now http q t s).foreign = s.foreign ∧
        ∀ tid, expired now ((reconcileLost now http q t s).lostCandidate.lookup tid) =
          expired now (s.lostCandidate.lookup tid) := by
  unfold reconcileLost
  cases hc : lostCheck now q t s with
  | skip => exact ⟨rfl, rfl, fun _ => rfl⟩
  | expired => exact absurd hc h
  | candidate =>
    refine ⟨rfl, rfl, fun tid => ?_⟩
    dsimp only
    rw [lookup_insert_eq_ite]
    split
    · next he =>
        subst he
        rw [lookup_lostCandidate_of_candidate hc]
        exact pastGracePeriod_self now
    · rfl

lemma lostCheck_resolveStatus : lostCheck now q t (resolveStatus q s) = lostCheck now q t s := by
  have hcand : (resolveStatus q s).lostCandidate = s.lostCandidate := by
    unfold resolveStatus
    split <;> rfl
  unfold lostCheck
  rw [hcand]

lemma reconcileTask_quiet (hs : s.foreign = []) (h : ¬ Expires now req s q) :
    (reconcileTask now http req q s).1.taskDict = (resolveStatus q s).taskDict ∧
      (reconcileTask now http req q s).1.foreign = [] ∧
        ∀ tid, expired now ((reconcileTask now http req q s).1.lostCandidate.lookup tid) =
          expired now (s.lostCandidate.lookup tid) := by
  have hcand : ∀ tid, expired now ((resolveStatus q s).lostCandidate.lookup tid) =
      expired now (s.lostCandidate.lookup tid) := (resolveStatus_alike now q s).candidates
  have hforeign : (resolveStatus q s).foreign = [] := by rw [resolveStatus_foreign, hs]
  unfold reconcileTask
  rw [if_neg (by rw [hs]; exact not_mem_nil)]
  dsimp only
  cases hc : stagingCheck now req (statusSlave q (s.taskDict.lookup q.taskId) s)
      (s.taskDict.lookup q.taskId) with
  | skip => exact ⟨rfl, hforeign, hcand⟩
  | fail => exact ⟨rfl, hforeign, hcand⟩
  | answer state => exact ⟨rfl, hforeign, hcand⟩
  | determine =>
    cases hslave : statusSlave q (s.taskDict.lookup q.taskId) s with
    | some sid => exact ⟨rfl, hforeign, hcand⟩
    | none =>
      rw [hslave] at hc
      have hlost : lostCheck now q (s.taskDict.lookup q.taskId) (resolveStatus q s) ≠ .expired := by
        rw [lostCheck_resolveStatus]
        exact fun he => h ⟨hslave, hc, he⟩
      obtain ⟨hd, hf, he⟩ := reconcileLost_quiet http hlost
      exact ⟨hd, hf.trans hforeign, fun tid => (he tid).trans (hcand tid)⟩

lemma reconcileTask_alike (hs : s.foreign = []) (h : ¬ Expires now req s q) :
    Alike now s (reconcileTask now http req q s).1 := by
  obtain ⟨hd, -, hc⟩ := reconcileTask_quiet http hs h
  refine ⟨fun tid => ?_, hc⟩
  rw [hd]
  exact (resolveStatus_alike now q s).tasks tid

lemma reconcileTask_flow (hs : s.foreign = []) :
    (reconcileTask now http req q s).2 = .next ↔ ¬ Fails now req s q := by
  unfold reconcileTask Fails
  rw [if_neg (by rw [hs]; exact not_mem_nil)]
  dsimp only
  cases hc : stagingCheck now req (statusSlave q (s.taskDict.lookup q.taskId) s)
      (s.taskDict.lookup q.taskId) with
  | skip => simp
  | fail => simp
  | answer state => simp
  | determine => cases statusSlave q (s.taskDict.lookup q.taskId) s <;> simp

lemma TasksKept.reconcileTask {s₀ : Service} {named : List String} (h₀ : TasksKept named s₀ s)
    (hq : q.taskId ∈ named) (h : ¬ Expires now req s q) :
    TasksKept named s₀ (reconcileTask now http req q s).1 := by
  obtain ⟨hd, hf, -⟩ := reconcileTask_quiet http h₀.records h
  refine ⟨fun tid ht => ?_, fun tid ht => ?_, hf⟩
  · rw [hd]
    have hk := h₀.kept tid ht
    rw [← lookup_isSome] at hk ⊢
    rcases (resolveStatus_alike now q s).tasks tid with ⟨hn, -⟩ | ⟨r, r', -, hr', -⟩
    · rw [hn] at hk; cases hk
    · rw [hr']; rfl
  · have hne : tid ≠ q.taskId := fun he => ht (he ▸ hq)
    rw [hd, resolveStatus_lookup hne]
    exact h₀.unnamed tid ht

lemma reconcileTask_expires (hs : s.foreign = []) (h : Expires now req s q) :
    (reconcileTask now http req q s).1.taskDict = singleton q.taskId (lostRecord http q.taskId) ∧
      (reconcileTask now http req q s).1.foreign =
        (((s.taskDict.lookup q.taskId).map (·.keys)).getD []).filter (· ≠ q.taskId) := by
  obtain ⟨hslave, hc, hl⟩ := h
  unfold Urb.reconcileTask
  rw [if_neg (by rw [hs]; exact not_mem_nil)]
  dsimp only
  rw [hslave, hc]
  dsimp only
  rw [reconcileLost, lostCheck_resolveStatus, hl]
  exact ⟨rfl, rfl⟩

lemma filter_keys_ne_nil (r : TaskRecord) (tid : String) : r.keys.filter (· ≠ tid) ≠ [] := by
  intro hf
  have hmem : ∀ k ∈ r.keys, k = tid := by
    intro k hk
    have := filter_eq_nil_iff.mp hf k hk
    simpa using this
  have h₁ : "task_info" = tid := hmem _ (by simp [TaskRecord.keys])
  have h₂ : "state" = tid := hmem _ (by simp [TaskRecord.keys])
  exact absurd (h₁.trans h₂.symm) (by decide)

end OneStatus

/-! ## The request -/

section Request

variable {now : ℚ} (http : Bool) {req : ReconcileRequest} {s₀ : Service} {named : List String}

lemma forEach_reconcileTask_kept :
    ∀ {qs : List TaskStatus} {s : Service}, (∀ q ∈ qs, q.taskId ∈ named) →
      SafeStatuses now req s₀ qs → Alike now s₀ s → TasksKept named s₀ s →
      TasksKept named s₀ (forEach (reconcileTask now http req) qs s).1
  | [], _, _, _, _, hk => hk
  | q :: qs, s, hn, hsafe, ha, hk => by
    have hexp : ¬ Expires now req s q := fun h => hsafe.1 (ha.expires_iff.mp h)
    have hk' := hk.reconcileTask http (hn q mem_cons_self) hexp
    rw [forEach_cons]
    by_cases hf : Fails now req s q
    · rw [seq_of_ne (fun h => (reconcileTask_flow http hk.records).mp h hf)]
      exact hk'
    · rw [seq_of_next ((reconcileTask_flow http hk.records).mpr hf)]
      have hrest : SafeStatuses now req s₀ qs := hsafe.2.resolve_left fun h => hf (ha.fails_iff.mpr h)
      exact forEach_reconcileTask_kept (fun p hp => hn p (mem_cons_of_mem _ hp)) hrest
        (ha.trans (reconcileTask_alike http hk.records hexp)) hk'

lemma exists_not_kept {k : String} (hk₀ : k ∈ s₀.taskDict) :
    ∀ {qs : List TaskStatus} {s : Service}, (∀ q ∈ qs, q.taskId ∈ named) →
      ¬ SafeStatuses now req s₀ qs → Alike now s₀ s → TasksKept named s₀ s →
      ∃ pre, pre <+: qs ∧ pre ≠ [] ∧ ¬ TasksKept named s₀ (forEach (reconcileTask now http req) pre s).1
  | [], _, _, hsafe, _, _ => absurd trivial hsafe
  | q :: qs, s, hn, hsafe, ha, hk => by
    by_cases hexp : Expires now req s q
    · -- the dictionary is replaced here
      obtain ⟨hdict, hforeign⟩ := reconcileTask_expires http hk.records hexp
      refine ⟨[q], ⟨qs, rfl⟩, by simp, fun hkept => ?_⟩
      have hone : (forEach (reconcileTask now http req) [q] s).1 =
          (reconcileTask now http req q s).1 := by
        rw [forEach_cons]
        exact seq_inv (I := fun s' => s' = (reconcileTask now http req q s).1) rfl fun _ => rfl
      rw [hone] at hkept
      have hmem := AList.mem_keys.mp (hkept.kept k hk₀)
      rw [hdict, AList.keys_singleton, mem_singleton] at hmem
      obtain ⟨r, hr⟩ := exists_lookup_of_mem (hk.kept k hk₀)
      rw [hkept.records, ← hmem, hr] at hforeign
      exact filter_keys_ne_nil r k hforeign.symm
    · have hk' := hk.reconcileTask http (hn q mem_cons_self) hexp
      have hf : ¬ Fails now req s q := fun hf =>
        hsafe ⟨fun h => hexp (ha.expires_iff.mpr h), .inl (ha.fails_iff.mp hf)⟩
      have hrest : ¬ SafeStatuses now req s₀ qs := fun h =>
        hsafe ⟨fun h' => hexp (ha.expires_iff.mpr h'), .inr h⟩
      obtain ⟨pre, hpre, -, hbad⟩ := exists_not_kept hk₀ (fun p hp => hn p (mem_cons_of_mem _ hp)) hrest
        (ha.trans (reconcileTask_alike http hk.records hexp)) hk'
      refine ⟨q :: pre, cons_prefix_cons.mpr ⟨rfl, hpre⟩, by simp, ?_⟩
      rw [forEach_cons, seq_of_next ((reconcileTask_flow http hk.records).mpr hf)]
      exact hbad

structure OnlyLost (named : List String) (s : Service) : Prop where
  foreign : s.foreign = []
  lost : ∀ tid r, s.taskDict.lookup tid = some r → tid ∈ named ∧ r.queueTime = none

lemma OnlyLost.reconcileTask {s : Service} {q : TaskStatus} (h : OnlyLost named s)
    (hq : q.taskId ∈ named) : OnlyLost named (reconcileTask now http req q s).1 := by
  by_cases hexp : Expires now req s q
  · obtain ⟨hdict, hforeign⟩ := reconcileTask_expires http h.foreign hexp
    have hnone : s.taskDict.lookup q.taskId = none := by
      cases ht : s.taskDict.lookup q.taskId with
      | none => rfl
      | some r =>
        have hl := hexp.2.2
        rw [lostCheck_eq_expired, ht] at hl
        simp only [(h.lost _ r ht).2, expired] at hl
        cases hl
    refine ⟨by rw [hforeign, hnone]; rfl, fun tid r hr => ?_⟩
    rw [hdict] at hr
    have hmem := AList.mem_keys.mp (AList.mem_of_lookup hr)
    rw [AList.keys_singleton, mem_singleton] at hmem
    subst hmem
    have : some (lostRecord http q.taskId) = some r := by
      rw [← hr, ← insert_empty, lookup_insert]
    cases this
    exact ⟨hq, rfl⟩
  · obtain ⟨hd, hf, -⟩ := reconcileTask_quiet http h.foreign hexp
    refine ⟨hf, fun tid r hr => ?_⟩
    rw [hd] at hr
    rcases (resolveStatus_alike now q s).tasks tid with ⟨-, hn⟩ | ⟨r₀, r', hr₀, hr', hsame⟩
    · rw [hn] at hr; cases hr
    · rw [hr'] at hr; cases hr
      exact ⟨(h.lost tid r₀ hr₀).1, hsame.queueTime.trans (h.lost tid r₀ hr₀).2⟩

end Request

theorem reconcileTasks_kept_iff {now : ℚ} {http : Bool} {req : ReconcileRequest} {s : Service}
    (hs : s.foreign = []) :
    (∀ pre, pre <+: req.statuses → pre ≠ [] →
        TasksKept req.named s (reconcileTasks now http { req with statuses := pre } s).1) ↔
      SafeStatuses now req s req.statuses ∨ ∀ tid, tid ∉ s.taskDict := by
  have hnamed : ∀ q ∈ req.statuses, q.taskId ∈ req.named := fun q hq =>
    mem_map.mpr ⟨q, hq, rfl⟩
  have hstart : TasksKept req.named s s := ⟨fun _ h => h, fun _ _ => rfl, hs⟩
  have hexplicit : ∀ pre, pre ≠ [] → reconcileTasks now http { req with statuses := pre } s =
      forEach (reconcileTask now http req) pre s := fun pre hne => if_neg hne
  constructor
  · intro h
    by_contra hcon
    obtain ⟨hexp, hex⟩ := not_or.mp hcon
    obtain ⟨k, hk⟩ := not_forall_not.mp hex
    obtain ⟨pre, hpre, hne, hbad⟩ :=
      exists_not_kept http hk hnamed hexp (.refl now s) hstart
    exact hbad (hexplicit pre hne ▸ h pre hpre hne)
  · intro h pre hpre hne
    rw [hexplicit pre hne]
    have hnamed' : ∀ q ∈ pre, q.taskId ∈ req.named := fun q hq => hnamed q (hpre.subset hq)
    rcases h with hsafe | hempty
    · exact forEach_reconcileTask_kept http hnamed' (hsafe.of_initial hpre) (.refl now s) hstart
    · have honly : OnlyLost req.named s := by
        refine ⟨hs, fun tid r hr => absurd (AList.mem_of_lookup hr) (hempty tid)⟩
      have hend : OnlyLost req.named (forEach (reconcileTask now http req) pre s).1 :=
        forEach_inv (fun q hq _ hi => hi.reconcileTask http (hnamed' q hq)) honly
      refine ⟨fun tid ht => absurd ht (hempty tid), fun tid ht => ?_, hend.foreign⟩
      rw [AList.lookup_eq_none.mpr (hempty tid), AList.lookup_eq_none]
      intro hmem
      obtain ⟨r, hr⟩ := AList.exists_lookup_of_mem hmem
      exact ht (hend.lost tid r hr).1

def askedAboutUnknown : Service :=
  runFrom smallService
    [.launchTasks true 0
       { offerIds := []
         tasks := [⟨{ taskId := "a", slaveId := some "place-holder-1" }, [{ id := "7" }]⟩] },
     .reconcileTasks true 0 { statuses := [{ taskId := "b" }] }]

theorem reconcileTasks_kept_askedAboutUnknown :
    askedAboutUnknown.foreign = [] ∧
      TasksKept ["b"] askedAboutUnknown
        (reconcileTasks 100 false { statuses := [{ taskId := "b" }] } askedAboutUnknown).1 := by
  have hs : askedAboutUnknown.foreign = [] := by decide +kernel
  have hsafe : SafeStatuses 100 { statuses := [{ taskId := "b" }] } askedAboutUnknown
      [{ taskId := "b" }] := ⟨by decide +kernel, Or.inr trivial⟩
  exact ⟨hs, (reconcileTasks_kept_iff hs).mpr (Or.inl hsafe) _ (prefix_refl _) (by simp)⟩

theorem reconcileTasks_drops_task :
    "a" ∈ askedAboutUnknown.taskDict ∧
      ¬ TasksKept ["b"] askedAboutUnknown
        (reconcileTasks 200 false { statuses := [{ taskId := "b" }] } askedAboutUnknown).1 := by
  refine ⟨by decide +kernel, fun h => ?_⟩
  exact absurd (h.kept "a" (by decide +kernel)) (by decide +kernel)

end Urb
