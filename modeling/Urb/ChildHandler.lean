/-
# `Urb.ChildHandler` — the code with which the executor runner ends

`ExecutorHandler.__sig_child_handler` runs when a SIGCHLD arrives:

    wait      reaps a child; its pid leaves `executor_pids`, its status goes to `executor_rets`
    scan      `waitpid` on every pid left; a pid found is removed, its status is NOT noted
    finish    no pid left: exit with the code of the notes
    error     anything raised: exit with 0 if at most one pid is left

The scan removes from the list it goes over, so it passes by the pid after each one it
removes.  `launch_tasks` puts the pid of a new process into the list some statements
after the fork, and the handler may run in between.

A child that ends raises a signal, or its signal is merged with one that is pending.  Which of
the ended children `os.wait` reaps is open, so the event names it.

**Proved here.**  When every handled signal finds an ended child in the list (or none, with two
pids or more in the list), misses no failure in the scan, and does not empty the list while a
new process is to be put into it, the runner ends only after all its executors, and with a
code other than 0 exactly if one of them failed (`ends_soundly`).
-/
import Urb.Basis.Exec

namespace Urb

open List Function Nat

/-! ## Statuses -/

/-- How a process ended, as `os.wait` reports it. -/
inductive WaitStatus where
  | exited (code : UInt8)
  | signaled (sig : ℕ) (core : Bool)
  deriving Repr, DecidableEq

structure ExecutorRet where
  status : Option UInt8
  sig : Option ℕ
  core : Bool
  deriving Repr, DecidableEq

def WaitStatus.failed : WaitStatus → Bool
  | .exited code => code ≠ 0
  | .signaled _ core => core

def WaitStatus.ret : WaitStatus → ExecutorRet
  | .exited code => ⟨some code, none, false⟩
  | .signaled sig core => ⟨none, some sig, core⟩

namespace ExecutorRet

def failed (r : ExecutorRet) : Bool := r.status.any (· ≠ 0) || r.core

def combine (ret : UInt8) (r : ExecutorRet) : UInt8 :=
  if r.core then 1 else if r.status.any (· ≠ 0) then r.status.getD 0 else ret

def exitCode (rets : List ExecutorRet) : UInt8 := rets.foldl combine 0

lemma combine_ne_zero_iff (ret : UInt8) (r : ExecutorRet) : combine ret r ≠ 0 ↔ ret ≠ 0 ∨ r.failed := by
  obtain ⟨status, sig, core⟩ := r
  cases core with
  | true => simp [combine, failed]
  | false =>
    cases status with
    | none => simp [combine, failed]
    | some code =>
      by_cases hc : code = 0
      · simp [combine, failed, hc]
      · simp [combine, failed, hc]

lemma foldl_combine_ne_zero_iff (rets : List ExecutorRet) :
    ∀ ret : UInt8, rets.foldl combine ret ≠ 0 ↔ ret ≠ 0 ∨ ∃ r ∈ rets, r.failed := by
  induction rets with
  | nil => simp
  | cons r rets ih =>
    intro ret
    rw [foldl_cons, ih, combine_ne_zero_iff, exists_mem_cons_iff, or_assoc]

lemma exitCode_ne_zero_iff (rets : List ExecutorRet) : exitCode rets ≠ 0 ↔ ∃ r ∈ rets, r.failed := by
  rw [exitCode, foldl_combine_ne_zero_iff]
  simp

end ExecutorRet

lemma WaitStatus.failed_ret (st : WaitStatus) : st.ret.failed = st.failed := by
  cases st <;> simp [WaitStatus.ret, WaitStatus.failed, ExecutorRet.failed]

/-! ## The runner and its children -/

structure Runner where
  launched : ℕ := 0
  status : ℕ → Option WaitStatus := fun _ => none
  reaped : ℕ → Bool := fun _ => false
  forked : Option ℕ := none
  executorPids : List ℕ := []
  executorRets : List ExecutorRet := []
  signals : ℕ := 0
  exitCode : Option UInt8 := none

namespace Runner

def waitable (s : Runner) (q : ℕ) : Option WaitStatus := if s.reaped q then none else s.status q

/-- The child has ended, and failed. -/
def failed (s : Runner) (q : ℕ) : Bool := (s.status q).any (·.failed)

structure Scan where
  left : List ℕ := []
  found : List ℕ := []
  raised : Bool := false
  deriving Repr, DecidableEq

def Scan.keep (p : ℕ) (r : Scan) : Scan := { r with left := p :: r.left }

def Scan.remove (p : ℕ) (r : Scan) : Scan := { r with found := p :: r.found }

def scan (s : Runner) : Bool → List ℕ → Scan
  | _, [] => {}
  | true, p :: pids => (s.scan false pids).keep p
  | false, p :: pids =>
    if (s.waitable p).isSome then (s.scan true pids).remove p
    else if s.reaped p then ⟨p :: pids, [], true⟩
    else (s.scan false pids).keep p

def record (s : Runner) (p : ℕ) (st : WaitStatus) : Runner :=
  let s := { s with reaped := Function.update s.reaped p true }
  if p ∈ s.executorPids then
    { s with executorPids := s.executorPids.erase p, executorRets := s.executorRets ++ [st.ret] }
  else s

def cleanZombies (s : Runner) : Runner :=
  { s with
    executorPids := (s.scan false s.executorPids).left
    reaped := fun q => s.reaped q || (s.scan false s.executorPids).found.contains q }

def finish (s : Runner) : Runner :=
  if s.executorPids = [] then { s with exitCode := some (ExecutorRet.exitCode s.executorRets) }
  else s

def error (s : Runner) : Runner :=
  if s.executorPids.length ≤ 1 then { s with exitCode := some 0 } else s

def sigChildHandler (s : Runner) (p : ℕ) : Runner :=
  match s.waitable p with
  | none => s.error
  | some st =>
    let t := s.record p st
    if (t.scan false t.executorPids).raised then t.cleanZombies.error else t.cleanZombies.finish

/-! ## Runs -/

inductive Event where
  | fork
  | append
  | exit (p : ℕ) (st : WaitStatus) (merged : Bool)
  | signal (p : ℕ)
  deriving Repr, DecidableEq

def Delivers (s : Runner) (p : ℕ) : Prop :=
  0 < s.signals ∧ ((s.waitable p).isSome = true ∨ ∀ q < s.launched, s.waitable q = none)

instance (s : Runner) (p : ℕ) : Decidable (s.Delivers p) :=
  inferInstanceAs (Decidable (_ ∧ _))

def fork (s : Runner) : Runner :=
  if s.forked = none then { s with launched := s.launched + 1, forked := some s.launched } else s

def append (s : Runner) : Runner :=
  match s.forked with
  | none => s
  | some p => { s with executorPids := s.executorPids ++ [p], forked := none }

def childExits (s : Runner) (p : ℕ) (st : WaitStatus) (merged : Bool) : Runner :=
  if p < s.launched ∧ s.status p = none then
    { s with
      status := Function.update s.status p (some st)
      signals := if merged ∧ 0 < s.signals then s.signals else s.signals + 1 }
  else s

def step (s : Runner) (e : Event) : Runner :=
  if s.exitCode.isSome then s
  else match e with
    | .fork => s.fork
    | .append => s.append
    | .exit p st merged => s.childExits p st merged
    | .signal p =>
      if s.Delivers p then { s with signals := s.signals - 1 }.sigChildHandler p else s

def Sound (s : Runner) : Prop :=
  ∀ code, s.exitCode = some code →
    (∀ q < s.launched, (s.status q).isSome = true) ∧
      (code ≠ 0 ↔ ∃ q < s.launched, s.failed q = true)

def Reaps (s : Runner) (p : ℕ) : Prop :=
  p ∈ s.executorPids ∧
    ((∃ q ∈ s.executorPids, s.failed q = true) →
      s.failed p = true ∨ ∃ r ∈ s.executorRets, r.failed = true) ∧
    (s.forked ≠ none → ∃ q ∈ s.executorPids, s.status q = none)

instance (s : Runner) (p : ℕ) : Decidable (s.Reaps p) :=
  inferInstanceAs (Decidable (_ ∧ _ ∧ _))

def Orderly (s : Runner) : Event → Prop
  | .signal p => s.Delivers p →
      if (s.waitable p).isSome then s.Reaps p else 2 ≤ s.executorPids.length
  | _ => True

instance (s : Runner) : ∀ e : Event, Decidable (s.Orderly e)
  | .signal _ => inferInstanceAs (Decidable (_ → _))
  | .fork => .isTrue trivial
  | .append => .isTrue trivial
  | .exit .. => .isTrue trivial

/-! ## The scan -/

variable {s : Runner}

lemma scan_perm (s : Runner) (l : List ℕ) :
    ∀ passed, ((s.scan passed l).left ++ (s.scan passed l).found).Perm l := by
  induction l with
  | nil => intro passed; simp [scan]
  | cons p l ih =>
    intro passed
    -- the pid at the head is kept
    have hkeep : (((s.scan false l).keep p).left ++ ((s.scan false l).keep p).found).Perm (p :: l) :=
      (ih false).cons p
    cases passed with
    | true => exact hkeep
    | false =>
      rw [scan]
      split
      · exact perm_middle.trans ((ih true).cons p)
      · split
        · simp
        · exact hkeep

lemma scan_found (s : Runner) (l : List ℕ) :
    ∀ passed, ∀ q ∈ (s.scan passed l).found, (s.waitable q).isSome := by
  induction l with
  | nil => intro passed q hq; exact absurd hq not_mem_nil
  | cons p l ih =>
    intro passed q hq
    cases passed with
    | true => exact ih false q hq
    | false =>
      rw [scan] at hq
      split at hq
      next hp =>
        rcases mem_cons.mp hq with rfl | hq
        · exact hp
        · exact ih true q hq
      next =>
        split at hq
        · exact absurd hq not_mem_nil
        · exact ih false q hq

lemma scan_raised {l : List ℕ} (hl : ∀ q ∈ l, s.reaped q = false) :
    ∀ passed, (s.scan passed l).raised = false := by
  induction l with
  | nil => intro passed; simp [scan]
  | cons p l ih =>
    intro passed
    have ih := ih fun q hq => hl q (mem_cons_of_mem _ hq)
    cases passed with
    | true => exact ih false
    | false =>
      rw [scan, hl p mem_cons_self]
      split
      · exact ih true
      · exact ih false

/-! ## What orderly handling keeps -/

structure Kept (s : Runner) : Prop where
  fresh : ∀ q, s.launched ≤ q → s.status q = none
  ended : ∀ q, s.reaped q = true → s.status q ≠ none
  forked : ∀ q, s.forked = some q → q < s.launched ∧ q ∉ s.executorPids ∧ s.reaped q = false
  pids : ∀ q ∈ s.executorPids, q < s.launched ∧ s.reaped q = false
  nodup : s.executorPids.Nodup
  listed : ∀ q < s.launched, s.reaped q = false → q ∈ s.executorPids ∨ s.forked = some q
  noted : (∃ r ∈ s.executorRets, r.failed = true) ↔ ∃ q, s.reaped q = true ∧ s.failed q = true

lemma kept_start : Kept {} where
  fresh _ _ := rfl
  ended _ h := absurd h Bool.false_ne_true
  forked _ h := absurd h.symm (Option.some_ne_none _)
  pids _ h := absurd h not_mem_nil
  nodup := nodup_nil
  listed _ h := absurd h (not_lt_zero _)
  noted := by simp

lemma Kept.of_signals (hk : s.Kept) (n : ℕ) : Kept { s with signals := n } :=
  ⟨hk.fresh, hk.ended, hk.forked, hk.pids, hk.nodup, hk.listed, hk.noted⟩

lemma Kept.fork (hk : s.Kept) : s.fork.Kept := by
  unfold Runner.fork
  split
  next hf =>
    have hnew : s.reaped s.launched = false := by
      by_contra hr
      exact hk.ended _ (by simpa using hr) (hk.fresh _ le_rfl)
    refine ⟨fun q hq => hk.fresh q (le_of_succ_le hq), hk.ended, ?_, ?_, hk.nodup, ?_, hk.noted⟩
    · rintro q ⟨⟩
      exact ⟨lt_succ_self _, fun hm => absurd (hk.pids _ hm).1 (lt_irrefl _), hnew⟩
    · intro q hq
      exact ⟨lt_succ_of_lt (hk.pids q hq).1, (hk.pids q hq).2⟩
    · intro q hq hr
      rcases Nat.lt_succ_iff_lt_or_eq.mp hq with hq | rfl
      · rcases hk.listed q hq hr with hm | hm
        · exact .inl hm
        · exact absurd (hf.symm.trans hm) (Option.some_ne_none _).symm
      · exact .inr rfl
  next => exact hk

lemma Kept.append (hk : s.Kept) : s.append.Kept := by
  unfold Runner.append
  split
  next => exact hk
  next p hf =>
    obtain ⟨hp, hnot, hr⟩ := hk.forked p hf
    refine ⟨hk.fresh, hk.ended, fun q hq => absurd hq.symm (Option.some_ne_none _), ?_, ?_, ?_,
      hk.noted⟩
    · intro q hq
      rcases mem_append.mp hq with hq | hq
      · exact hk.pids q hq
      · rw [mem_singleton.mp hq]
        exact ⟨hp, hr⟩
    · exact nodup_append.mpr ⟨hk.nodup, pairwise_singleton _ p, by
        rintro a ha b hb rfl
        exact hnot (mem_singleton.mp hb ▸ ha)⟩
    · intro q hq hr
      rcases hk.listed q hq hr with hm | hm
      · exact .inl (mem_append_left _ hm)
      · obtain rfl : p = q := Option.some.inj (hf.symm.trans hm)
        exact .inl (mem_append_right _ (mem_singleton_self p))

lemma Kept.childExits (hk : s.Kept) (p : ℕ) (st : WaitStatus) (merged : Bool) :
    (s.childExits p st merged).Kept := by
  unfold Runner.childExits
  split
  next h =>
    obtain ⟨hp, hrun⟩ := h
    -- a child that runs is not reaped, so the reaped ones have the status they had
    have hne : ∀ q, s.reaped q → q ≠ p := fun q hq heq => hk.ended q hq (heq ▸ hrun)
    have hold : ∀ q, q ≠ p → update s.status p (some st) q = s.status q :=
      fun q hq => update_of_ne hq _ _
    refine ⟨?_, ?_, hk.forked, hk.pids, hk.nodup, hk.listed, ?_⟩
    · intro q hq
      exact (hold q (lt_of_lt_of_le hp hq).ne').trans (hk.fresh q hq)
    · intro q hq hnone
      exact hk.ended q hq ((hold q (hne q hq)).symm.trans hnone)
    · refine hk.noted.trans (exists_congr fun q => and_congr_right fun hq => ?_)
      simp only [failed, hold q (hne q hq)]
  next => exact hk

/-! ## The handler -/

lemma status_of_waitable {p : ℕ} {st : WaitStatus} (h : s.waitable p = some st) :
    s.reaped p = false ∧ s.status p = some st := by
  unfold waitable at h
  split at h
  · exact absurd h.symm (Option.some_ne_none _)
  next hr => exact ⟨by simpa using hr, h⟩

lemma record_of_mem {p : ℕ} (st : WaitStatus) (hp : p ∈ s.executorPids) : s.record p st = { s with
      reaped := update s.reaped p true
      executorPids := s.executorPids.erase p
      executorRets := s.executorRets ++ [st.ret] } :=
  if_pos hp

lemma Kept.record (hk : s.Kept) {p : ℕ} {st : WaitStatus} (hw : s.waitable p = some st)
    (hp : p ∈ s.executorPids) : (s.record p st).Kept := by
  obtain ⟨hr, hst⟩ := status_of_waitable hw
  have hrec := record_of_mem st hp
  have hreaped : ∀ q, update s.reaped p true q ↔ q = p ∨ s.reaped q := by
    intro q
    by_cases hq : q = p
    · simp [hq]
    · simp [hq]
  have hleft : ∀ q, update s.reaped p true q = false ↔ q ≠ p ∧ s.reaped q = false := by
    intro q
    rw [← Bool.not_eq_true, hreaped, not_or, Bool.not_eq_true]
  rw [hrec]
  refine ⟨hk.fresh, ?_, ?_, ?_, hk.nodup.erase p, ?_, ?_⟩
  · intro q hq
    rcases (hreaped q).mp hq with rfl | hq
    · exact fun hnone => Option.some_ne_none _ (hst.symm.trans hnone)
    · exact hk.ended q hq
  · intro q hq
    obtain ⟨hlt, hnot, hqr⟩ := hk.forked q hq
    exact ⟨hlt, fun hm => hnot (mem_of_mem_erase hm), (hleft q).mpr ⟨fun heq => hnot (heq ▸ hp), hqr⟩⟩
  · intro q hq
    obtain ⟨hne, hm⟩ := hk.nodup.mem_erase_iff.mp hq
    exact ⟨(hk.pids q hm).1, (hleft q).mpr ⟨hne, (hk.pids q hm).2⟩⟩
  · intro q hq hqr
    obtain ⟨hne, hqr⟩ := (hleft q).mp hqr
    exact (hk.listed q hq hqr).imp_left (mem_erase_of_ne hne).mpr
  · have hfail : s.failed p = st.ret.failed := by
      rw [failed, hst, WaitStatus.failed_ret]
      rfl
    constructor
    · rintro ⟨r, hm, hrf⟩
      rcases mem_append.mp hm with hm | hm
      · obtain ⟨q, hq, hqf⟩ := hk.noted.mp ⟨r, hm, hrf⟩
        exact ⟨q, (hreaped q).mpr (.inr hq), hqf⟩
      · exact ⟨p, (hreaped p).mpr (.inl rfl), hfail.trans (mem_singleton.mp hm ▸ hrf)⟩
    · rintro ⟨q, hq, hqf⟩
      rcases (hreaped q).mp hq with rfl | hq
      · exact ⟨st.ret, mem_append_right _ (mem_singleton_self _), hfail ▸ hqf⟩
      · obtain ⟨r, hm, hrf⟩ := hk.noted.mpr ⟨q, hq, hqf⟩
        exact ⟨r, mem_append_left _ hm, hrf⟩

lemma Kept.cleanZombies (hk : s.Kept)
    (hseen : (∃ q ∈ s.executorPids, s.failed q) → ∃ r ∈ s.executorRets, r.failed) :
    s.cleanZombies.Kept := by
  have hperm := scan_perm s s.executorPids false
  have hfound := scan_found s s.executorPids false
  revert hperm hfound
  unfold Runner.cleanZombies
  generalize s.scan false s.executorPids = r
  intro hperm hfound
  have hsplit : ∀ q, q ∈ s.executorPids ↔ q ∈ r.left ∨ q ∈ r.found := fun q =>
    hperm.mem_iff.symm.trans mem_append
  have hnodup := nodup_append.mp (hperm.nodup_iff.mpr hk.nodup)
  have hleft : ∀ q, (s.reaped q || r.found.contains q) = false ↔ s.reaped q = false ∧ q ∉ r.found := by
    intro q
    simp
  refine ⟨hk.fresh, ?_, ?_, ?_, hnodup.1, ?_, ?_⟩
  · intro q hq hnone
    rcases Bool.or_eq_true_iff.mp hq with hq | hq
    · exact hk.ended q hq hnone
    · obtain ⟨st, hst⟩ := Option.isSome_iff_exists.mp (hfound q (contains_iff_mem.mp hq))
      exact Option.some_ne_none _ ((status_of_waitable hst).2.symm.trans hnone)
  · intro q hq
    obtain ⟨hlt, hnot, hqr⟩ := hk.forked q hq
    exact ⟨hlt, fun hm => hnot ((hsplit q).mpr (.inl hm)),
      (hleft q).mpr ⟨hqr, fun hm => hnot ((hsplit q).mpr (.inr hm))⟩⟩
  · intro q hq
    obtain ⟨hlt, hqr⟩ := hk.pids q ((hsplit q).mpr (.inl hq))
    exact ⟨hlt, (hleft q).mpr ⟨hqr, fun hm => hnodup.2.2 q hq q hm rfl⟩⟩
  · intro q hq hqr
    obtain ⟨hqr, hnot⟩ := (hleft q).mp hqr
    exact (hk.listed q hq hqr).imp_left fun hm => ((hsplit q).mp hm).resolve_right hnot
  · constructor
    · intro hr
      obtain ⟨q, hq, hqf⟩ := hk.noted.mp hr
      exact ⟨q, Bool.or_eq_true_iff.mpr (.inl hq), hqf⟩
    · rintro ⟨q, hq, hqf⟩
      rcases Bool.or_eq_true_iff.mp hq with hq | hq
      · exact hk.noted.mpr ⟨q, hq, hqf⟩
      · exact hseen ⟨q, (hsplit q).mpr (.inr (contains_iff_mem.mp hq)), hqf⟩

lemma running_mem_cleanZombies {q : ℕ} (hq : q ∈ s.executorPids) (hrun : s.status q = none) :
    q ∈ s.cleanZombies.executorPids := by
  have hm := (scan_perm s s.executorPids false).mem_iff.mpr hq
  refine (mem_append.mp hm).resolve_right fun hf => ?_
  obtain ⟨st, hst⟩ := Option.isSome_iff_exists.mp (scan_found s _ _ q hf)
  exact Option.some_ne_none _ ((status_of_waitable hst).2.symm.trans hrun)

def Inv (s : Runner) : Prop := (s.exitCode = none → s.Kept) ∧ s.Sound

lemma Kept.inv (hk : s.Kept) (halive : s.exitCode = none) : s.Inv :=
  ⟨fun _ => hk, fun _ hc => absurd (halive.symm.trans hc) (Option.some_ne_none _).symm⟩

lemma Kept.sound (hk : s.Kept) (hnil : s.executorPids = []) (hf : s.forked = none) :
    Sound { s with exitCode := some (ExecutorRet.exitCode s.executorRets) } := by
  have hreaped : ∀ q < s.launched, s.reaped q := by
    intro q hq
    by_contra hr
    rcases hk.listed q hq (by simpa using hr) with hm | hm
    · exact absurd (hnil ▸ hm) not_mem_nil
    · exact Option.some_ne_none _ (hm.symm.trans hf)
  rintro code ⟨⟩
  refine ⟨fun q hq => Option.isSome_iff_ne_none.mpr (hk.ended q (hreaped q hq)), ?_⟩
  rw [ExecutorRet.exitCode_ne_zero_iff, hk.noted]
  constructor
  · rintro ⟨q, hq, hqf⟩
    exact ⟨q, lt_of_not_ge fun hge => hk.ended q hq (hk.fresh q hge), hqf⟩
  · rintro ⟨q, hq, hqf⟩
    exact ⟨q, hreaped q hq, hqf⟩

lemma Kept.finish (hk : s.Kept) (halive : s.exitCode = none)
    (hf : s.forked ≠ none → s.executorPids ≠ []) : s.finish.Inv := by
  unfold Runner.finish
  split
  next hnil =>
    refine ⟨fun h => absurd h (Option.some_ne_none _), hk.sound hnil ?_⟩
    by_contra hne
    exact hf hne hnil
  next => exact hk.inv halive

lemma Kept.sigChildHandler (hk : s.Kept) (halive : s.exitCode = none) {p : ℕ} {st : WaitStatus}
    (hw : s.waitable p = some st) (hr : s.Reaps p) : (s.sigChildHandler p).Inv := by
  obtain ⟨hp, hseen, hcome⟩ := hr
  obtain ⟨hpr, hst⟩ := status_of_waitable hw
  have hrec := record_of_mem st hp
  have ht := hk.record hw hp
  have hraised := scan_raised (fun q hq => (ht.pids q hq).2) false
  have hseen' : (∃ q ∈ (s.record p st).executorPids, (s.record p st).failed q) →
      ∃ r ∈ (s.record p st).executorRets, r.failed := by
    rw [hrec]
    rintro ⟨q, hq, hqf⟩
    rcases hseen ⟨q, mem_of_mem_erase hq, hqf⟩ with hpf | ⟨r, hm, hrf⟩
    · refine ⟨st.ret, mem_append_right _ (mem_singleton_self _), ?_⟩
      rw [WaitStatus.failed_ret]
      simpa [failed, hst] using hpf
    · exact ⟨r, mem_append_left _ hm, hrf⟩
  have hhand : s.sigChildHandler p = (s.record p st).cleanZombies.finish := by
    simp only [Runner.sigChildHandler, hw, hraised, Bool.false_eq_true, if_false]
  rw [hhand]
  refine (ht.cleanZombies hseen').finish (by rw [hrec]; exact halive) fun hf hnil => ?_
  obtain ⟨q, hq, hrun⟩ := hcome (by rw [hrec] at hf; exact hf)
  have hne : q ≠ p := by
    rintro rfl
    exact Option.some_ne_none _ (hst.symm.trans hrun)
  have hmem : q ∈ (s.record p st).cleanZombies.executorPids :=
    running_mem_cleanZombies (by rw [hrec]; exact (mem_erase_of_ne hne).mpr hq)
      (by rw [hrec]; exact hrun)
  exact absurd (hnil ▸ hmem) not_mem_nil

lemma inv_step (e : Event) (hi : s.Inv) (ho : s.Orderly e) : (s.step e).Inv := by
  unfold step
  split
  next => exact hi
  next hended =>
    have halive : s.exitCode = none := by simpa using hended
    have hk := hi.1 halive
    cases e with
    | fork => exact hk.fork.inv (by unfold Runner.fork; split <;> exact halive)
    | append => exact hk.append.inv (by unfold Runner.append; split <;> exact halive)
    | exit p st merged =>
      exact (hk.childExits p st merged).inv (by unfold Runner.childExits; split <;> exact halive)
    | signal p =>
      dsimp only
      split
      next hd =>
        have ho := ho hd
        cases hw : s.waitable p with
        | some st =>
          rw [hw, if_pos Option.isSome_some] at ho
          exact (hk.of_signals (s.signals - 1)).sigChildHandler halive hw ho
        | none =>
          -- `os.wait` raises, and the list is too long for the `except` clause to exit
          rw [hw, if_neg (by simp)] at ho
          have hhand : { s with signals := s.signals - 1 }.sigChildHandler p =
              { s with signals := s.signals - 1 } := by
            have hw' : { s with signals := s.signals - 1 }.waitable p = none := hw
            simp only [Runner.sigChildHandler, hw', error]
            exact if_neg (Nat.not_le_of_lt ho)
          rw [hhand]
          exact (hk.of_signals (s.signals - 1)).inv halive
      next => exact hi

theorem ends_soundly (es : List Event) (h : Machine.Guarded step Orderly {} es) :
    (Machine.run step {} es).Sound :=
  (Machine.run_inv (fun _ e hi ho => inv_step e hi ho) (kept_start.inv rfl) h).2

theorem ends_soundly_merged :
    (Machine.run step {} [.fork, .append, .fork, .append, .exit 0 (.exited 3) false,
      .exit 1 (.exited 0) true, .signal 0]).Sound :=
  ends_soundly _ (by decide +kernel)

theorem failure_lost :
    ¬ (Machine.run step {} [.fork, .append, .fork, .append, .exit 0 (.exited 0) false,
      .exit 1 (.exited 3) true, .signal 0]).Sound := by
  intro h
  have hcode := (h 0 (by decide +kernel)).2.mpr ⟨1, by decide +kernel⟩
  exact hcode rfl

end Runner

end Urb
