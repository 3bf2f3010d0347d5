/-
# `Urb.Restart` — the state of a slave after a restart of the service

The reports of `Urb.Rebuild` come in any number and order.  What they leave
depends on how many reports of the executor have come since the last one of the
runner (`sinceRunner`):

    none     each task of the runner debited once, no task of the executor's
    k > 0    the same, and each task of the executor that it does not report as
             FINISHED or FAILED debited k times more

**Proved here.**  After a runner's report and a later one of the executor's, in
any order otherwise, the slave is as the service should know it exactly when its
memory is `Rebuildable` for that number (`SlaveSide.rebuilt_iff`).
-/
import Mathlib.Algebra.Order.BigOperators.Group.Finset
import Mathlib.Tactic.Linarith
import Urb.Rebuild

namespace Urb

open Block List Memory

/-! ## Runs of reports -/

/-- Where a run of reports stands. -/
inductive Progress where
  | waiting
  | runner (seen : Bool)
  | executor (again : ℕ)
  deriving Repr, DecidableEq

def Progress.next : Progress → Report → Progress
  | .waiting, .runner => .runner false
  | .waiting, .executor => .waiting
  | .runner seen, .runner => .runner seen
  | .runner _, .executor => .executor 0
  | .executor _, .runner => .runner true
  | .executor k, .executor => .executor (k + 1)

section Run

variable {m : Memory} {config : Config} {place : SlavePlace} {s : Service}

def Memory.owed (m : Memory) (k : ℕ) (name : String) : ℚ :=
  needs m.tracked name + k * (needs m.tasks name - (m.credited.map (m.needOf · name)).sum)

abbrev Memory.RunnerHas (m : Memory) (tid : String) : Prop := tid ∈ m.tracked.map (·.taskId)

abbrev Memory.ExecutorHas (m : Memory) (tid : String) : Prop := tid ∈ m.tasks.map (·.taskId)

def Memory.Stands (m : Memory) (config : Config) (reg : RunnerRegistration) : Progress → Service → Prop
  | .waiting, s => Awaits m config reg (fun _ => False) [] s ∧ s.slaveDict = ∅
  | .runner seen, s => Rebuilds m config reg (m.owed 0)
      (fun tid => m.RunnerHas tid ∨ (seen = true ∧ m.ExecutorHas tid ∧ tid ∉ m.credited)) [] s
  | .executor again, s => Rebuilds m config reg (m.owed (again + 1))
      (fun tid => (m.RunnerHas tid ∨ m.ExecutorHas tid) ∧ tid ∉ m.credited) [] s

lemma Memory.owed_zero (m : Memory) (name : String) : m.owed 0 name = needs m.tracked name := by
  simp [owed]

lemma Memory.owed_succ (m : Memory) (k : ℕ) (name : String) : m.owed (k + 1) name =
    m.owed k name + (needs m.tasks name - (m.credited.map (m.needOf · name)).sum) := by
  simp only [owed, Nat.cast_add, Nat.cast_one]
  ring

lemma step_executor_waiting (hactive : s.active) (hqueue : s.deleteElements = [])
    (hslaves : s.slaveDict = ∅) (m : Memory) (place : SlavePlace) :
    step s (m.event place .executor) = s := by
  have hnone : s.slaveByChannel place.reg.channel = none := by
    rw [Service.slaveByChannel, hslaves]
    rfl
  have hstep : step s (m.event place .executor) = postprocess s := by
    refine congrArg postprocess ((if_pos hactive).trans ?_)
    rw [reregisterExecutor]
    simp only [hnone]
  rw [hstep, postprocess, hqueue]
  cases s
  simp only [foldl_nil] at hqueue ⊢
  rw [← hqueue]

lemma Memory.Stands.step (hports : PortRangeUtility.Apart config.ports)
    (hpay : ∀ t ∈ m.received, t.Payable config) {p : Progress} (h : m.Stands config place.reg p s)
    (r : Report) : m.Stands config place.reg (p.next r) (Urb.step s (m.event place r)) := by
  cases p with
  | waiting =>
    cases r with
    | runner =>
      exact (h.1.runner hports hpay place.executorChannel).congr (m.owed_zero ·) fun tid => by simp
    | executor =>
      rw [step_executor_waiting h.1.active h.1.queued h.2]
      exact h
  | runner seen =>
    have h' : Rebuilds m config place.reg (m.owed 0) _ [] s := h
    cases r with
    | runner =>
      refine (h'.toAwaits.runner hports hpay place.executorChannel).congr (m.owed_zero ·) fun tid => ?_
      constructor
      · exact .inl
      · rintro (hr | hr)
        · exact hr
        · exact .inl hr
    | executor =>
      refine (h'.executor hpay place.executorChannel).congr (m.owed_succ 0 ·) fun tid => ?_
      constructor
      · rintro ⟨hr | he, hc⟩
        · exact ⟨.inl (.inl hr), hc⟩
        · exact ⟨.inr he, hc⟩
      · rintro ⟨(hr | ⟨-, he, -⟩) | he, hc⟩
        · exact ⟨.inl hr, hc⟩
        · exact ⟨.inr he, hc⟩
        · exact ⟨.inr he, hc⟩
  | executor again =>
    have h' : Rebuilds m config place.reg (m.owed (again + 1)) _ [] s := h
    cases r with
    | runner =>
      refine (h'.toAwaits.runner hports hpay place.executorChannel).congr (m.owed_zero ·) fun tid => ?_
      constructor
      · rintro (hr | ⟨-, he, hc⟩)
        · exact .inr hr
        · exact .inl ⟨.inr he, hc⟩
      · rintro (⟨hr | he, hc⟩ | hr)
        · exact .inl hr
        · exact .inr ⟨rfl, he, hc⟩
        · exact .inl hr
    | executor =>
      refine (h'.executor hpay place.executorChannel).congr (m.owed_succ (again + 1) ·) fun tid => ?_
      constructor
      · rintro ⟨hre, hc⟩
        exact ⟨.inl ⟨hre, hc⟩, hc⟩
      · rintro ⟨⟨hre, -⟩ | he, hc⟩
        · exact ⟨hre, hc⟩
        · exact ⟨.inr he, hc⟩

lemma Memory.Stands.run (hports : PortRangeUtility.Apart config.ports)
    (hpay : ∀ t ∈ m.received, t.Payable config) (reports : List Report) :
    ∀ {p : Progress} {s : Service}, m.Stands config place.reg p s →
      m.Stands config place.reg (reports.foldl Progress.next p)
        (runFrom s (reports.map (m.event place))) := by
  induction reports with
  | nil => exact fun h => h
  | cons r reports ih => exact fun h => ih (h.step hports hpay r)

end Run

/-! ## Counting the reports -/

def sinceRunner (reports : List Report) : ℕ :=
  reports.foldl (fun k r => match r with | .runner => 0 | .executor => k + 1) 0

def Progress.At (heard : Bool) (k : ℕ) : Progress → Prop
  | .waiting => False
  | .runner seen => k = 0 ∧ (heard = true → seen = true)
  | .executor again => k = again + 1

lemma Progress.At.next {heard : Bool} {k : ℕ} {p : Progress} (h : p.At heard k) (r : Report) :
    (p.next r).At (heard || decide (r = .executor))
      (match r with | .runner => 0 | .executor => k + 1) := by
  cases p with
  | waiting => exact h.elim
  | runner seen =>
    cases r with
    | runner => exact ⟨rfl, fun hh => h.2 (by simpa using hh)⟩
    | executor => exact congrArg (· + 1) h.1
  | executor again =>
    cases r with
    | runner => exact ⟨rfl, fun _ => rfl⟩
    | executor => exact congrArg (· + 1) h

lemma Progress.At.run (reports : List Report) : ∀ {heard : Bool} {k : ℕ} {p : Progress}, p.At heard k →
    (reports.foldl Progress.next p).At (heard || decide (.executor ∈ reports))
      (reports.foldl (fun k r => match r with | .runner => 0 | .executor => k + 1) k) := by
  induction reports with
  | nil =>
    intro heard k p h
    simpa using h
  | cons r reports ih =>
    intro heard k p h
    have hrest := ih (h.next r)
    have hheard : (heard || decide (Report.executor ∈ r :: reports)) =
        ((heard || decide (r = .executor)) || decide (.executor ∈ reports)) := by
      rw [Bool.or_assoc, ← Bool.decide_or]
      simp only [mem_cons, eq_comm]
    rw [hheard]
    exact hrest

lemma progress_of_reports (l₁ : List Report) {l₂ : List Report} (h : .executor ∈ l₂) :
    ((l₁ ++ .runner :: l₂).foldl Progress.next .waiting).At true (sinceRunner (l₁ ++ .runner :: l₂)) := by
  have hrunner : ∀ p : Progress, (p.next .runner).At false 0 := by
    intro p
    cases p <;> simp [Progress.next, Progress.At]
  have hrest := Progress.At.run l₂ (hrunner (l₁.foldl Progress.next .waiting))
  rw [sinceRunner, foldl_append, foldl_append]
  simpa [h] using hrest

/-! ## Sums over sets of tasks -/

section Sums

variable {α : Type} [DecidableEq α] {R E C F : Finset α} {w : α → ℚ}

lemma sum_eq_sum_union_iff (hw : ∀ x ∈ F, 0 ≤ w x) :
    ∑ x ∈ R, w x = ∑ x ∈ R ∪ F, w x ↔ ∀ x ∈ F, x ∉ R → w x = 0 := by
  have hsplit : ∑ x ∈ R ∪ F, w x = ∑ x ∈ R, w x + ∑ x ∈ F \ R, w x := by
    rw [← Finset.union_sdiff_self_eq_union, Finset.sum_union Finset.disjoint_sdiff]
  have hzero : ∑ x ∈ F \ R, w x = 0 ↔ ∀ x ∈ F \ R, w x = 0 :=
    Finset.sum_eq_zero_iff_of_nonneg fun x hx => hw x (Finset.mem_sdiff.mp hx).1
  rw [hsplit, left_eq_add, hzero]
  constructor
  · intro h x hx hR
    exact h x (Finset.mem_sdiff.mpr ⟨hx, hR⟩)
  · intro h x hx
    exact h x (Finset.mem_sdiff.mp hx).1 (Finset.mem_sdiff.mp hx).2

lemma sum_add_mul_eq_iff (hC : C ⊆ E) (hw : ∀ x ∈ E, 0 ≤ w x) (n : ℕ) :
    ∑ x ∈ R, w x + ((n + 1 : ℕ) : ℚ) * (∑ x ∈ E, w x - ∑ x ∈ C, w x) = ∑ x ∈ (R ∪ E) \ C, w x ↔
      (∀ x ∈ R ∩ E, w x = 0) ∧ (n = 0 ∨ ∀ x ∈ E \ C, w x = 0) := by
  have hunion : ∑ x ∈ R ∪ E, w x + ∑ x ∈ R ∩ E, w x = ∑ x ∈ R, w x + ∑ x ∈ E, w x :=
    Finset.sum_union_inter
  have hsub : C ⊆ R ∪ E := hC.trans Finset.subset_union_right
  have hleft := Finset.sum_sdiff (f := w) hsub
  have hrest := Finset.sum_sdiff (f := w) hC
  have hboth : 0 ≤ ∑ x ∈ R ∩ E, w x := Finset.sum_nonneg fun x hx => hw x (Finset.mem_inter.mp hx).2
  have hmore : 0 ≤ ∑ x ∈ E \ C, w x := Finset.sum_nonneg fun x hx => hw x (Finset.mem_sdiff.mp hx).1
  have hzero : ∑ x ∈ R ∩ E, w x = 0 ↔ ∀ x ∈ R ∩ E, w x = 0 :=
    Finset.sum_eq_zero_iff_of_nonneg fun x hx => hw x (Finset.mem_inter.mp hx).2
  have hzero' : ∑ x ∈ E \ C, w x = 0 ↔ ∀ x ∈ E \ C, w x = 0 :=
    Finset.sum_eq_zero_iff_of_nonneg fun x hx => hw x (Finset.mem_sdiff.mp hx).1
  -- both sides differ by what is counted twice and what is counted again
  have hdiff : ∑ x ∈ R, w x + ((n + 1 : ℕ) : ℚ) * (∑ x ∈ E, w x - ∑ x ∈ C, w x) =
      ∑ x ∈ (R ∪ E) \ C, w x + (∑ x ∈ R ∩ E, w x + n * ∑ x ∈ E \ C, w x) := by
    rw [← hrest]
    push_cast
    linarith
  have hmul : 0 ≤ (n : ℚ) * ∑ x ∈ E \ C, w x := mul_nonneg (Nat.cast_nonneg n) hmore
  rw [hdiff, add_eq_left, add_eq_zero_iff_of_nonneg hboth hmul, mul_eq_zero, Nat.cast_eq_zero, hzero,
    hzero']

end Sums

/-! ## When the state is rebuilt -/

section Rebuilt

variable {m : Memory} {config : Config} {reg : RunnerRegistration} {s : Service}

def Memory.live (m : Memory) : List TaskInfo := m.received.filter (·.taskId ∉ m.ended)

structure Rebuilt (m : Memory) (config : Config) (reg : RunnerRegistration) (s : Service) : Prop where
  amounts : ∃ slave, s.slaveDict.lookup reg.slaveId = some slave ∧
    ∀ name, slave.amount name = (config.initial name).map (· - needs m.live name)
  records : ∀ tid, tid ∈ s.taskDict ↔ tid ∈ m.live.map (·.taskId)

structure Memory.Rebuildable (m : Memory) (k : ℕ) : Prop where
  reported : ∀ t ∈ m.live, m.RunnerHas t.taskId ∨ m.ExecutorHas t.taskId
  executorEnds : ∀ t ∈ m.tasks, t.taskId ∈ m.ended → t.taskId ∈ m.credited
  runnerEnds : ∀ t ∈ m.tracked, t.taskId ∈ m.ended → k ≠ 0 ∧ t.taskId ∈ m.credited
  unreported : k = 0 → ∀ t ∈ m.tasks, t.taskId ∉ m.ended → ¬ m.RunnerHas t.taskId → t.AsksNothing
  once : k ≠ 0 → ∀ t ∈ m.tasks, m.RunnerHas t.taskId → t.AsksNothing
  again : 1 < k → ∀ t ∈ m.tasks, t.taskId ∉ m.ended → t.AsksNothing

lemma Rebuilds.rebuilt_of_owed_iff {owed : String → ℚ} {known : String → Prop} {queue : List String}
    (h : Rebuilds m config reg owed known queue s) : Rebuilt m config reg s ↔
      (∀ name, (config.initial name).isSome → owed name = needs m.live name) ∧
        ∀ tid, known tid ↔ tid ∈ m.live.map (·.taskId) := by
  obtain ⟨slave, hs, -, -, -, ham⟩ := h.slave
  constructor
  · rintro ⟨⟨slave', hs', ham'⟩, hrec⟩
    cases hs.symm.trans hs'
    refine ⟨fun name hname => ?_, fun tid => (h.records tid).symm.trans (hrec tid)⟩
    obtain ⟨v, hv⟩ := isSome_iff_exists.mp hname
    have heq := (ham name).symm.trans (ham' name)
    rw [hv] at heq
    simpa using heq
  · rintro ⟨howed, hknown⟩
    refine ⟨⟨slave, hs, fun name => ?_⟩, fun tid => (h.records tid).trans (hknown tid)⟩
    rw [ham]
    cases hname : config.initial name with
    | none => rfl
    | some v => rw [howed name (by rw [hname]; rfl)]

/-! ### Sets of task ids -/

lemma Memory.needs_eq_sum {ts : List TaskInfo} (hts : ∀ t ∈ ts, t ∈ m.received)
    (hnodup : (ts.map (·.taskId)).Nodup) (name : String) :
    needs ts name = ∑ tid ∈ (ts.map (·.taskId)).toFinset, m.needOf tid name := by
  rw [sum_toFinset _ hnodup, map_map, needs]
  refine congrArg List.sum (map_congr_left fun t ht => ?_)
  exact (needOf_eq (hts t ht) name).symm

lemma Memory.live_received : ∀ t ∈ m.live, t ∈ m.received := fun _ ht => (mem_filter.mp ht).1

lemma Memory.live_nodup : (m.live.map (·.taskId)).Nodup :=
  m.received_nodup.sublist (filter_sublist.map _)

lemma Memory.mem_live_ids {tid : String} :
    tid ∈ m.live.map (·.taskId) ↔ tid ∈ m.received.map (·.taskId) ∧ tid ∉ m.ended := by
  simp only [live, mem_map, mem_filter, decide_eq_true_eq]
  constructor
  · rintro ⟨t, ⟨ht, hend⟩, rfl⟩
    exact ⟨⟨t, ht, rfl⟩, hend⟩
  · rintro ⟨⟨t, ht, rfl⟩, hend⟩
    exact ⟨t, ⟨ht, hend⟩, rfl⟩

lemma Memory.credited_has {tid : String} (h : tid ∈ m.credited) : m.ExecutorHas tid ∧ tid ∈ m.ended := by
  obtain ⟨u, hu, rfl⟩ := mem_map.mp h
  exact m.ended_of_credits u (mem_filter.mp hu).1 (mem_filter.mp hu).2

lemma Memory.credited_nodup : m.credited.Nodup := m.credits_once

lemma Memory.asksNothing_iff (hpay : ∀ t ∈ m.received, t.Payable config) {ts : List TaskInfo}
    (hts : ∀ t ∈ ts, t ∈ m.received) {p : String → Prop} : (∀ t ∈ ts, p t.taskId → t.AsksNothing) ↔
      ∀ name, (config.initial name).isSome →
        ∀ tid ∈ ts.map (·.taskId), p tid → m.needOf tid name = 0 := by
  constructor
  · intro h name hname tid htid hp
    obtain ⟨t, ht, rfl⟩ := mem_map.mp htid
    rw [needOf_eq (hts t ht)]
    exact (hpay t (hts t ht)).asksNothing_iff.mp (h t ht hp) name hname
  · intro h t ht hp
    refine (hpay t (hts t ht)).asksNothing_iff.mpr fun name hname => ?_
    rw [← needOf_eq (hts t ht)]
    exact h name hname t.taskId (mem_map_of_mem ht) hp

lemma Memory.runnerHas_received {tid : String} (h : m.RunnerHas tid) :
    tid ∈ m.received.map (·.taskId) := by
  obtain ⟨t, ht, rfl⟩ := mem_map.mp h
  exact mem_map_of_mem (m.tracked_received t ht)

lemma Memory.executorHas_received {tid : String} (h : m.ExecutorHas tid) :
    tid ∈ m.received.map (·.taskId) := by
  obtain ⟨t, ht, rfl⟩ := mem_map.mp h
  exact mem_map_of_mem (m.tasks_received t ht)

lemma Memory.owed_eq_sum (k : ℕ) (name : String) :
    m.owed k name = ∑ tid ∈ (m.tracked.map (·.taskId)).toFinset, m.needOf tid name +
      k * (∑ tid ∈ (m.tasks.map (·.taskId)).toFinset, m.needOf tid name -
        ∑ tid ∈ m.credited.toFinset, m.needOf tid name) := by
  rw [owed, needs_eq_sum m.tracked_received m.tracked_nodup,
    needs_eq_sum m.tasks_received m.tasks_nodup, sum_toFinset _ credited_nodup]

lemma Memory.needOf_nonneg (hpay : ∀ t ∈ m.received, t.Payable config) (name : String) :
    ∀ tid ∈ (m.tasks.map (·.taskId)).toFinset, 0 ≤ m.needOf tid name := by
  intro tid htid
  obtain ⟨t, ht, rfl⟩ := mem_map.mp (mem_toFinset.mp htid)
  rw [needOf_eq (m.tasks_received t ht)]
  exact (hpay t (m.tasks_received t ht)).need_nonneg name

/-! ### The runner reported last -/

lemma Memory.records_zero_iff :
    (∀ tid, (m.RunnerHas tid ∨ (true ∧ m.ExecutorHas tid ∧ tid ∉ m.credited)) ↔
      tid ∈ m.live.map (·.taskId)) ↔ (∀ t ∈ m.live, m.RunnerHas t.taskId ∨ m.ExecutorHas t.taskId) ∧
      (∀ t ∈ m.tasks, t.taskId ∈ m.ended → t.taskId ∈ m.credited) ∧
        ∀ t ∈ m.tracked, t.taskId ∉ m.ended := by
  constructor
  · intro h
    refine ⟨fun t ht => ?_, fun t ht hend => ?_, fun t ht => ?_⟩
    · exact ((h t.taskId).mpr (mem_map_of_mem ht)).imp_right fun he => he.2.1
    · by_contra hc
      exact (mem_live_ids.mp ((h t.taskId).mp (.inr ⟨rfl, mem_map_of_mem ht, hc⟩))).2 hend
    · exact (mem_live_ids.mp ((h t.taskId).mp (.inl (mem_map_of_mem ht)))).2
  · rintro ⟨hreported, hends, hrunner⟩ tid
    constructor
    · rintro (hr | ⟨-, he, hc⟩)
      · obtain ⟨t, ht, rfl⟩ := mem_map.mp hr
        exact mem_live_ids.mpr ⟨runnerHas_received hr, hrunner t ht⟩
      · obtain ⟨t, ht, rfl⟩ := mem_map.mp he
        exact mem_live_ids.mpr ⟨executorHas_received he, fun hend => hc (hends t ht hend)⟩
    · intro hlive
      obtain ⟨t, ht, rfl⟩ := mem_map.mp hlive
      refine (hreported t ht).imp_right fun he => ⟨rfl, he, fun hc => ?_⟩
      exact (mem_live_ids.mp hlive).2 (credited_has hc).2

lemma Memory.amounts_zero_iff (hpay : ∀ t ∈ m.received, t.Payable config)
    (hrecords : ∀ tid, (m.RunnerHas tid ∨ (true ∧ m.ExecutorHas tid ∧ tid ∉ m.credited)) ↔
      tid ∈ m.live.map (·.taskId)) :
    (∀ name, (config.initial name).isSome → m.owed 0 name = needs m.live name) ↔
      ∀ t ∈ m.tasks, t.taskId ∉ m.ended → ¬ m.RunnerHas t.taskId → t.AsksNothing := by
  have hlive : (m.live.map (·.taskId)).toFinset = (m.tracked.map (·.taskId)).toFinset ∪
      ((m.tasks.map (·.taskId)).toFinset \ m.credited.toFinset) := by
    ext tid
    simp only [Finset.mem_union, Finset.mem_sdiff, mem_toFinset, ← hrecords tid, true_and]
  have hname : ∀ name, m.owed 0 name = needs m.live name ↔
      ∀ tid ∈ m.tasks.map (·.taskId), (tid ∉ m.ended ∧ ¬ m.RunnerHas tid) → m.needOf tid name = 0 := by
    intro name
    rw [owed_eq_sum, needs_eq_sum live_received live_nodup, hlive,
      Nat.cast_zero, zero_mul, add_zero, sum_eq_sum_union_iff fun tid htid =>
        needOf_nonneg hpay name tid (Finset.mem_sdiff.mp htid).1]
    simp only [Finset.mem_sdiff, mem_toFinset]
    constructor
    · rintro h tid htid ⟨hend, hr⟩
      exact h tid ⟨htid, fun hc => hend (credited_has hc).2⟩ hr
    · rintro h tid ⟨htid, hc⟩ hr
      refine h tid htid ⟨?_, hr⟩
      exact (mem_live_ids.mp ((hrecords tid).mp (.inr ⟨rfl, htid, hc⟩))).2
  have hasks := asksNothing_iff hpay m.tasks_received
    (p := fun tid => tid ∉ m.ended ∧ ¬ m.RunnerHas tid)
  simp only [hname]
  exact hasks.symm.trans ⟨fun h t ht hend hr => h t ht ⟨hend, hr⟩, fun h t ht hp => h t ht hp.1 hp.2⟩

lemma Memory.rebuildable_zero_iff (hpay : ∀ t ∈ m.received, t.Payable config) : m.Rebuildable 0 ↔
      (∀ name, (config.initial name).isSome → m.owed 0 name = needs m.live name) ∧
      ∀ tid, (m.RunnerHas tid ∨ (true ∧ m.ExecutorHas tid ∧ tid ∉ m.credited)) ↔
        tid ∈ m.live.map (·.taskId) := by
  constructor
  · intro h
    have hrecords := records_zero_iff.mpr ⟨h.reported, h.executorEnds,
      fun t ht hend => (h.runnerEnds t ht hend).1 rfl⟩
    exact ⟨(amounts_zero_iff hpay hrecords).mpr (h.unreported rfl), hrecords⟩
  · rintro ⟨hamounts, hrecords⟩
    obtain ⟨hreported, hends, hrunner⟩ := records_zero_iff.mp hrecords
    exact ⟨hreported, hends, fun t ht hend => absurd hend (hrunner t ht),
      fun _ => (amounts_zero_iff hpay hrecords).mp hamounts, fun h => absurd rfl h,
      fun h => absurd h (by decide)⟩

/-! ### The executor reported last -/

lemma Memory.records_succ_iff : (∀ tid, ((m.RunnerHas tid ∨ m.ExecutorHas tid) ∧ tid ∉ m.credited) ↔
      tid ∈ m.live.map (·.taskId)) ↔ (∀ t ∈ m.live, m.RunnerHas t.taskId ∨ m.ExecutorHas t.taskId) ∧
      (∀ t ∈ m.tasks, t.taskId ∈ m.ended → t.taskId ∈ m.credited) ∧
        ∀ t ∈ m.tracked, t.taskId ∈ m.ended → t.taskId ∈ m.credited := by
  constructor
  · intro h
    have hends : ∀ {tid}, m.RunnerHas tid ∨ m.ExecutorHas tid → tid ∈ m.ended → tid ∈ m.credited := by
      intro tid hhas hend
      by_contra hc
      exact (mem_live_ids.mp ((h tid).mp ⟨hhas, hc⟩)).2 hend
    exact ⟨fun t ht => ((h t.taskId).mpr (mem_map_of_mem ht)).1,
      fun t ht => hends (.inr (mem_map_of_mem ht)),
      fun t ht => hends (.inl (mem_map_of_mem ht))⟩
  · rintro ⟨hreported, hends, hrunner⟩ tid
    constructor
    · rintro ⟨hr | he, hc⟩
      · obtain ⟨t, ht, rfl⟩ := mem_map.mp hr
        exact mem_live_ids.mpr ⟨runnerHas_received hr, fun hend => hc (hrunner t ht hend)⟩
      · obtain ⟨t, ht, rfl⟩ := mem_map.mp he
        exact mem_live_ids.mpr ⟨executorHas_received he, fun hend => hc (hends t ht hend)⟩
    · intro hlive
      obtain ⟨t, ht, rfl⟩ := mem_map.mp hlive
      refine ⟨hreported t ht, fun hc => ?_⟩
      exact (mem_live_ids.mp hlive).2 (credited_has hc).2

lemma Memory.amounts_succ_iff (hpay : ∀ t ∈ m.received, t.Payable config) (again : ℕ)
    (hrecords : ∀ tid, ((m.RunnerHas tid ∨ m.ExecutorHas tid) ∧ tid ∉ m.credited) ↔
      tid ∈ m.live.map (·.taskId)) :
    (∀ name, (config.initial name).isSome → m.owed (again + 1) name = needs m.live name) ↔
      (∀ t ∈ m.tasks, m.RunnerHas t.taskId → t.AsksNothing) ∧
        (again = 0 ∨ ∀ t ∈ m.tasks, t.taskId ∉ m.ended → t.AsksNothing) := by
  have hlive : (m.live.map (·.taskId)).toFinset = ((m.tracked.map (·.taskId)).toFinset ∪
      (m.tasks.map (·.taskId)).toFinset) \ m.credited.toFinset := by
    ext tid
    simp only [Finset.mem_union, Finset.mem_sdiff, mem_toFinset, ← hrecords tid]
  have hcredited : m.credited.toFinset ⊆ (m.tasks.map (·.taskId)).toFinset := fun tid htid =>
    mem_toFinset.mpr (credited_has (mem_toFinset.mp htid)).1
  have hname : ∀ name, m.owed (again + 1) name = needs m.live name ↔
      (∀ tid ∈ m.tasks.map (·.taskId), m.RunnerHas tid → m.needOf tid name = 0) ∧
      (again = 0 ∨ ∀ tid ∈ m.tasks.map (·.taskId), tid ∉ m.ended → m.needOf tid name = 0) := by
    intro name
    rw [owed_eq_sum, needs_eq_sum live_received live_nodup, hlive,
      sum_add_mul_eq_iff hcredited (needOf_nonneg hpay name)]
    simp only [Finset.mem_sdiff, Finset.mem_inter, mem_toFinset]
    refine and_congr ⟨fun h tid he hr => h tid ⟨hr, he⟩, fun h tid hre => h tid hre.2 hre.1⟩
      (or_congr_right ⟨fun h tid he hend => ?_, fun h tid he => h tid he.1 fun hend => ?_⟩)
    · exact h tid ⟨he, fun hc => hend (credited_has hc).2⟩
    · exact (mem_live_ids.mp ((hrecords tid).mp ⟨.inr he.1, he.2⟩)).2 hend
  have hboth := asksNothing_iff hpay m.tasks_received (p := m.RunnerHas)
  have hmore := asksNothing_iff hpay m.tasks_received (p := fun tid => tid ∉ m.ended)
  simp only [hname, hboth, hmore]
  constructor
  · intro h
    refine ⟨fun name hi => (h name hi).1, ?_⟩
    by_cases hagain : again = 0
    · exact .inl hagain
    · exact .inr fun name hi => (h name hi).2.resolve_left hagain
  · rintro ⟨hr, hagain⟩ name hi
    exact ⟨hr name hi, hagain.imp_right fun h => h name hi⟩

lemma Memory.rebuildable_succ_iff (hpay : ∀ t ∈ m.received, t.Payable config) (again : ℕ) :
    m.Rebuildable (again + 1) ↔
      (∀ name, (config.initial name).isSome → m.owed (again + 1) name = needs m.live name) ∧
      ∀ tid, ((m.RunnerHas tid ∨ m.ExecutorHas tid) ∧ tid ∉ m.credited) ↔
        tid ∈ m.live.map (·.taskId) := by
  constructor
  · intro h
    have hrecords := records_succ_iff.mpr ⟨h.reported, h.executorEnds,
      fun t ht hend => (h.runnerEnds t ht hend).2⟩
    refine ⟨(amounts_succ_iff hpay again hrecords).mpr ⟨h.once again.succ_ne_zero, ?_⟩, hrecords⟩
    rcases again.eq_zero_or_pos with hzero | hpos
    · exact .inl hzero
    · exact .inr (h.again (Nat.succ_lt_succ hpos))
  · rintro ⟨hamounts, hrecords⟩
    obtain ⟨hreported, hends, hrunner⟩ := records_succ_iff.mp hrecords
    obtain ⟨honce, hagain⟩ := (amounts_succ_iff hpay again hrecords).mp hamounts
    exact ⟨hreported, hends, fun t ht hend => ⟨again.succ_ne_zero, hrunner t ht hend⟩,
      fun h => absurd h again.succ_ne_zero, fun _ => honce,
      fun h => hagain.resolve_left (Nat.pos_iff_ne_zero.mp (Nat.lt_of_succ_lt_succ h))⟩

end Rebuilt

structure Restarted (config : Config) (s : Service) : Prop where
  configured : s.config = config
  active : s.active = true
  foreign : s.foreign = []
  slaves : s.slaveDict = ∅
  tasks : s.taskDict = ∅
  queue : s.deleteElements = []

lemma Restarted.awaits {config : Config} {s : Service} (h : Restarted config s) (m : Memory)
    (reg : RunnerRegistration) : Awaits m config reg (fun _ => False) [] s := by
  refine ⟨h.configured, h.active, h.foreign, fun k hk => ?_, fun tid => ?_, fun tid r hr => ?_, h.queue⟩
  · rw [h.slaves] at hk
    exact absurd hk (AList.notMem_empty k)
  · rw [h.tasks]
    exact iff_of_false (AList.notMem_empty tid) id
  · rw [h.tasks] at hr
    cases hr

namespace SlaveSide

theorem rebuilt_iff {es : List SlaveCall} (hes : Machine.Guarded step Protocol {} es)
    {config : Config} (hports : PortRangeUtility.Apart config.ports)
    (hpay : ∀ t ∈ (Machine.run step {} es).received, t.Payable config)
    {s : Service} (hs : Restarted config s) (place : SlavePlace) (l₁ : List Report) {l₂ : List Report}
    (hreports : .executor ∈ l₂) :
    Rebuilt (memory _ (sound_run hes)) config place.reg
        (runFrom s ((l₁ ++ .runner :: l₂).map ((memory _ (sound_run hes)).event place))) ↔
      (memory _ (sound_run hes)).Rebuildable (sinceRunner (l₁ ++ .runner :: l₂)) := by
  generalize hm : memory _ (sound_run hes) = m
  have hpay' : ∀ t ∈ m.received, t.Payable config := by
    rw [← hm]
    exact hpay
  have hstart : m.Stands config place.reg .waiting s := ⟨hs.awaits m place.reg, hs.slaves⟩
  have hstands : m.Stands config place.reg ((l₁ ++ .runner :: l₂).foldl Progress.next .waiting)
      (runFrom s ((l₁ ++ .runner :: l₂).map (m.event place))) := hstart.run hports hpay' _
  have hprogress := progress_of_reports l₁ hreports
  revert hstands hprogress
  generalize (l₁ ++ Report.runner :: l₂).foldl Progress.next .waiting = p
  generalize sinceRunner (l₁ ++ Report.runner :: l₂) = k
  intro hstands hat
  cases p with
  | waiting => exact hat.elim
  | runner seen =>
    obtain ⟨rfl, hseen⟩ := hat
    obtain rfl := hseen rfl
    exact (Rebuilds.rebuilt_of_owed_iff hstands).trans (Memory.rebuildable_zero_iff hpay').symm
  | executor again =>
    obtain rfl : k = again + 1 := hat
    exact (Rebuilds.rebuilt_of_owed_iff hstands).trans (Memory.rebuildable_succ_iff hpay' again).symm

def smallPlace : SlavePlace :=
  { reg := { jobId := "7", channel := "c7", host := "host", jobTuple := { id := "7" } }
    executorChannel := "x7" }

def oneRunning : List SlaveCall :=
  [.launchTasks [oneCpuTask "a" smallPlace.reg.slaveId],
    .executor (.runTask (oneCpuTask "a" smallPlace.reg.slaveId))]

lemma guarded_oneRunning : Machine.Guarded step Protocol {} oneRunning := by decide +kernel

lemma restarted_smallService : Restarted smallConfig smallService := ⟨rfl, rfl, rfl, rfl, rfl, rfl⟩

theorem rebuilt_iff_oneRunning :
    Rebuilt (memory _ (sound_run guarded_oneRunning)) smallConfig smallPlace.reg
      (runFrom smallService ([.runner, .executor, .runner].map
        ((memory _ (sound_run guarded_oneRunning)).event smallPlace))) :=
  (rebuilt_iff guarded_oneRunning (by decide +kernel) (by decide +kernel) restarted_smallService
    smallPlace [] (by decide)).mpr
    ⟨by decide +kernel, by decide +kernel, by decide +kernel, by decide +kernel, by decide +kernel,
      by decide +kernel⟩

theorem not_rebuilt_oneRunning :
    ¬ Rebuilt (memory _ (sound_run guarded_oneRunning)) smallConfig smallPlace.reg
      (runFrom smallService ([.runner, .executor].map
        ((memory _ (sound_run guarded_oneRunning)).event smallPlace))) := by
  rintro ⟨⟨slave, hs, ham⟩, -⟩
  have hcpus : (((runFrom smallService ([.runner, .executor].map
      ((memory _ (sound_run guarded_oneRunning)).event smallPlace))).slaveDict.lookup
      smallPlace.reg.slaveId).bind (·.amount "cpus")) = some 2 := by decide +kernel
  rw [hs] at hcpus
  have hshould : (smallConfig.initial "cpus").map
      (· - needs (memory _ (sound_run guarded_oneRunning)).live "cpus") = some 3 := by decide +kernel
  have htwo := hcpus.symm.trans ((ham "cpus").trans hshould)
  exact absurd htwo (by decide)

end SlaveSide

end Urb
