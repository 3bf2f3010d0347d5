/-
# `Urb.Redelivery` — bounded retries without loss

In every run of `Retrying` whose initial interval is at least one second

    places     no two messages have the same origin or the same id
    told       each message has in it how often, and after what interval, it was tried
    managed    what the manager removes is what it has read

Of the three only the last has to do with the interleaving.  Between reading and
removing, the manager remembers the clock it has read; a `retry` in between adds its
message with a score at least one second after the clock, so the removal passes it
by.

**Proved here.**  `retries_bounded`.
-/
import Urb.Retries

namespace Urb

open List Nat Redis

/-! ## Each message is in one place -/

namespace Retrying

def toHandle (s : Retrying) : List RetryMessage := s.channel ++ s.handlings

def waiting (s : Retrying) : List RetryMessage :=
  s.retryChannel.map (·.1) ++ s.pending ++ s.givenUp

def messages (s : Retrying) : List RetryMessage := s.toHandle ++ s.waiting

structure Places (s : Retrying) : Prop where
  origins : (s.messages.map (·.origin)).Nodup
  ids : (s.messages.filterMap (·.messageId)).Nodup
  originLt : ∀ m ∈ s.messages, m.origin < s.pushed
  idLt : ∀ m ∈ s.messages, ∀ i, m.messageId = some i → i < s.handled

variable {s s' : Retrying} {m m' : RetryMessage} {rest : List RetryMessage}

lemma Places.origin_ne (h : s.Places) (hs : s.messages.Perm (m :: rest)) {x : RetryMessage}
    (hx : x ∈ rest) : m.origin ≠ x.origin := by
  have hnodup := (hs.map (·.origin)).nodup_iff.mp h.origins
  rw [map_cons, nodup_cons] at hnodup
  exact fun heq => hnodup.1 (heq ▸ mem_map_of_mem hx)

lemma Places.replace (h : s.Places) (hs : s.messages.Perm (m :: rest))
    (hs' : s'.messages.Perm (m' :: rest)) (horigin : m'.origin = m.origin)
    (hid : m'.messageId = m.messageId ∨ m'.messageId = some s.handled ∧ s.handled < s'.handled)
    (hpushed : s'.pushed = s.pushed) (hhandled : s.handled ≤ s'.handled) : s'.Places := by
  have hnodup := (hs.filterMap (·.messageId)).nodup_iff.mp h.ids
  have hlt : ∀ x ∈ m :: rest, ∀ i, x.messageId = some i → i < s.handled :=
    fun x hx => h.idLt x (hs.mem_iff.mpr hx)
  refine ⟨?_, ?_, ?_, ?_⟩
  · rw [(hs'.map (·.origin)).nodup_iff, map_cons, horigin, ← map_cons]
    exact (hs.map (·.origin)).nodup_iff.mp h.origins
  · rw [(hs'.filterMap (·.messageId)).nodup_iff, filterMap_cons]
    rcases hid with hid | ⟨hid, -⟩
    · rw [hid, ← filterMap_cons]
      exact hnodup
    · rw [hid]
      refine nodup_cons.mpr ⟨?_, ?_⟩
      · intro hmem
        obtain ⟨x, hx, hxi⟩ := mem_filterMap.mp hmem
        exact (hlt x (mem_cons_of_mem _ hx) _ hxi).ne rfl
      · exact hnodup.sublist ((sublist_cons_self m rest).filterMap _)
  · intro x hx
    rw [hpushed]
    rcases mem_cons.mp (hs'.mem_iff.mp hx) with rfl | hx
    · rw [horigin]
      exact h.originLt m (hs.mem_iff.mpr mem_cons_self)
    · exact h.originLt x (hs.mem_iff.mpr (mem_cons_of_mem _ hx))
  · intro x hx i hi
    rcases mem_cons.mp (hs'.mem_iff.mp hx) with rfl | hx
    · rcases hid with hid | ⟨hid, hnew⟩
      · exact (hlt m mem_cons_self i (hid ▸ hi)).trans_le hhandled
      · rw [hid] at hi
        cases hi
        exact hnew
    · exact (hlt x (mem_cons_of_mem _ hx) i hi).trans_le hhandled

lemma Places.of_perm (h : s.Places) (hs : s'.messages.Perm s.messages) (hpushed : s'.pushed = s.pushed)
    (hhandled : s'.handled = s.handled) : s'.Places where
  origins := (hs.map _).nodup_iff.mpr h.origins
  ids := (hs.filterMap _).nodup_iff.mpr h.ids
  originLt := fun m hm => hpushed ▸ h.originLt m (hs.mem_iff.mp hm)
  idLt := fun m hm => hhandled ▸ h.idLt m (hs.mem_iff.mp hm)

lemma Places.drop (h : s.Places) (hs : s.messages.Perm (m :: s'.messages))
    (hpushed : s'.pushed = s.pushed) (hhandled : s'.handled = s.handled) : s'.Places where
  origins := ((hs.map _).nodup_iff.mp h.origins).sublist ((sublist_cons_self _ _).map _)
  ids := ((hs.filterMap _).nodup_iff.mp h.ids).sublist ((sublist_cons_self _ _).filterMap _)
  originLt := fun x hx => hpushed ▸ h.originLt x (hs.mem_iff.mpr (mem_cons_of_mem _ hx))
  idLt := fun x hx => hhandled ▸ h.idLt x (hs.mem_iff.mpr (mem_cons_of_mem _ hx))

lemma Places.push (h : s.Places) (content : String) : (s.push content).Places := by
  refine ⟨nodup_cons.mpr ⟨?_, h.origins⟩, h.ids, ?_, ?_⟩
  · intro hmem
    obtain ⟨x, hx, hxo⟩ := mem_map.mp hmem
    exact (h.originLt x hx).ne hxo
  · intro x hx
    rcases mem_cons.mp hx with rfl | hx
    · exact lt_succ_self _
    · exact (h.originLt x hx).trans (lt_succ_self _)
  · intro x hx i hi
    rcases mem_cons.mp hx with rfl | hx
    · cases hi
    · exact h.idLt x hx i hi

/-! ### Where each operation moves its message -/

lemma toHandle_handle {l : List RetryMessage} (hl : s.channel = l ++ [m]) :
    s.toHandle.Perm (m :: (l ++ s.handlings)) ∧
      s.handle.toHandle.Perm ({ m with messageId := some s.handled } :: (l ++ s.handlings)) := by
  constructor
  · rw [toHandle, hl, append_assoc]
    exact perm_middle
  · rw [toHandle, handle, hl, List.getLast?_concat, dropLast_concat]
    exact perm_middle

lemma toHandle_erase (hm : m ∈ s.handlings) : s.toHandle.Perm (m :: (s.finish m).toHandle) :=
  ((perm_cons_erase hm).append_left s.channel).trans perm_middle

lemma waiting_retry {d : ℚ} {maxRetryCount : ℕ}
    (hnew : ∀ e ∈ s.retryChannel, e.1.text ≠ (m.retry d maxRetryCount s.now).text) :
    (s.retry d maxRetryCount m).waiting.Perm (m.retry d maxRetryCount s.now :: s.waiting) := by
  have hchannel : (s.retry d maxRetryCount m).waiting =
      (s.retryChannel.map (·.1) ++ [m.retry d maxRetryCount s.now]) ++ s.pending ++ s.givenUp := by
    simp only [waiting, retry, zadd_of_new hnew, map_append, map_cons, map_nil]
    rfl
  rw [hchannel, waiting, append_assoc, append_assoc, append_assoc]
  exact perm_middle

lemma waiting_write (hmanager : s.manager = .write (m :: rest)) :
    s.waiting.Perm (m :: (s.retryChannel.map (·.1) ++ rest ++ s.givenUp)) := by
  rw [waiting, pending, hmanager, append_assoc, append_assoc]
  exact perm_middle

/-! ## What the messages say is true -/

structure Told (d : ℚ) (maxRetryCount : ℕ) (s : Retrying) : Prop where
  toHandle : ∀ m ∈ s.toHandle, m.Tried d (s.failedAt m.origin) (s.redeliveredAt m.origin)
  waiting : ∀ m ∈ s.waiting, m.Failed d (s.failedAt m.origin) (s.redeliveredAt m.origin)
    (s.redeliveredAt m.origin).length
  unborn : ∀ o, s.pushed ≤ o → s.failedAt o = [] ∧ s.redeliveredAt o = []
  onTime : ∀ o, OnTime d (s.failedAt o) (s.redeliveredAt o)
  bounded : ∀ o, (s.redeliveredAt o).length ≤ maxRetryCount

variable {d : ℚ} {maxRetryCount : ℕ}

lemma failedAt_congr (hs' : s'.failures = s.failures) (o : ℕ) : s'.failedAt o = s.failedAt o := by
  rw [failedAt, failedAt, hs']

lemma failedAt_retry (o : ℕ) : (s.retry d maxRetryCount m).failedAt o =
    s.failedAt o ++ if m.origin = o then [s.now] else [] := by
  simp only [failedAt, retry, filter_append, map_append]
  by_cases h : m.origin = o <;> simp [h]

lemma redeliveredAt_append {t : ℚ} (hs' : s'.redeliveries = s.redeliveries ++ [(m, t)]) (o : ℕ) :
    s'.redeliveredAt o = s.redeliveredAt o ++ if m.origin = o then [t] else [] := by
  simp only [redeliveredAt, hs', filter_append, map_append]
  by_cases h : m.origin = o <;> simp [h]

lemma Told.push (h : s.Told d maxRetryCount) (content : String) :
    (s.push content).Told d maxRetryCount := by
  obtain ⟨hfailed, hredelivered⟩ := h.unborn s.pushed le_rfl
  refine ⟨?_, h.waiting, fun o ho => h.unborn o ((le_succ _).trans ho), h.onTime, h.bounded⟩
  intro x hx
  rcases mem_cons.mp hx with rfl | hx
  · change RetryMessage.Tried d (s.failedAt s.pushed) (s.redeliveredAt s.pushed) _
    rw [hfailed, hredelivered]
    exact ⟨rfl, rfl, rfl⟩
  · exact h.toHandle x hx

lemma Told.of_quiet (h : s.Told d maxRetryCount)
    (hto : ∀ x ∈ s'.toHandle, ∃ y ∈ s.toHandle, y.origin = x.origin ∧ y.retryCount = x.retryCount ∧
      y.retryInterval = x.retryInterval)
    (hwaiting : ∀ x ∈ s'.waiting, x ∈ s.waiting) (hfailures : s'.failures = s.failures)
    (hredeliveries : s'.redeliveries = s.redeliveries) (hpushed : s'.pushed = s.pushed) :
    s'.Told d maxRetryCount := by
  have hfailed : ∀ o, s'.failedAt o = s.failedAt o := failedAt_congr hfailures
  have hredelivered : ∀ o, s'.redeliveredAt o = s.redeliveredAt o := by
    intro o
    rw [redeliveredAt, redeliveredAt, hredeliveries]
  refine ⟨?_, ?_, ?_, ?_, ?_⟩
  · intro x hx
    obtain ⟨y, hy, horigin, hcount, hinterval⟩ := hto x hx
    obtain ⟨h1, h2, h3⟩ := h.toHandle y hy
    rw [hfailed, hredelivered, ← horigin]
    exact ⟨hcount ▸ h1, h2, hinterval ▸ h3⟩
  · simp only [hfailed, hredelivered]
    exact fun x hx => h.waiting x (hwaiting x hx)
  · simp only [hfailed, hredelivered, hpushed]
    exact h.unborn
  · simp only [hfailed, hredelivered]
    exact h.onTime
  · simp only [hredelivered]
    exact h.bounded

lemma Told.retry (h : s.Told d maxRetryCount) (hplaces : s.Places) (hm : m ∈ s.handlings)
    (hwaiting : (s.retry d maxRetryCount m).waiting.Perm (m.retry d maxRetryCount s.now :: s.waiting)) :
    (s.retry d maxRetryCount m).Told d maxRetryCount := by
  have hto : s.toHandle.Perm (m :: (s.retry d maxRetryCount m).toHandle) := toHandle_erase hm
  have hmem : m ∈ s.toHandle := hto.mem_iff.mpr mem_cons_self
  -- only the history of the message's own origin is written to, and nobody else has it
  have hother : ∀ x ∈ (s.retry d maxRetryCount m).toHandle ++ s.waiting,
      (s.retry d maxRetryCount m).failedAt x.origin = s.failedAt x.origin := by
    intro x hx
    rw [failedAt_retry, if_neg (hplaces.origin_ne (hto.append_right _) hx), append_nil]
  refine ⟨?_, ?_, ?_, ?_, h.bounded⟩
  · intro x hx
    rw [hother x (mem_append_left _ hx)]
    exact h.toHandle x (hto.mem_iff.mpr (mem_cons_of_mem _ hx))
  · intro x hx
    rcases mem_cons.mp (hwaiting.mem_iff.mp hx) with rfl | hx
    · have htried := h.toHandle m hmem
      have hfailed := htried.retry maxRetryCount s.now
      rw [← htried.both] at hfailed
      change RetryMessage.Failed d ((s.retry d maxRetryCount m).failedAt m.origin)
        (s.redeliveredAt m.origin) _ (s.redeliveredAt m.origin).length
      rw [failedAt_retry, if_pos rfl]
      exact hfailed
    · rw [hother x (mem_append_right _ hx)]
      exact h.waiting x hx
  · intro o ho
    have hlt := hplaces.originLt m (mem_append_left _ hmem)
    obtain ⟨h1, h2⟩ := h.unborn o ho
    refine ⟨?_, h2⟩
    rw [failedAt_retry, if_neg (hlt.trans_le ho).ne, h1]
    rfl
  · intro o
    rw [failedAt_retry]
    by_cases heq : m.origin = o
    · rw [if_pos heq]
      exact (h.onTime o).fail s.now
    · rw [if_neg heq, append_nil]
      exact h.onTime o

lemma Told.redeliver (h : s.Told d maxRetryCount) (hplaces : s.Places)
    (hto : s'.toHandle = m :: s.toHandle) (hwaiting : s.waiting.Perm (m :: s'.waiting))
    (hfailures : s'.failures = s.failures)
    (hredeliveries : s'.redeliveries = s.redeliveries ++ [(m, s.now)])
    (hpushed : s'.pushed = s.pushed) (hcount : m.retryCount.getD 0 ≤ maxRetryCount)
    (hdue : ∀ f k, m.retryTimestamp = some (f + d * 2 ^ k) → f ∈ s.failedAt m.origin →
      ⌊f + d * 2 ^ k⌋ ≤ ⌊s.now⌋) : s'.Told d maxRetryCount := by
  have hfailed : ∀ o, s'.failedAt o = s.failedAt o := failedAt_congr hfailures
  have hmem : m ∈ s.waiting := hwaiting.mem_iff.mpr mem_cons_self
  have hm := h.waiting m hmem
  have hs : s.messages.Perm (m :: (s.toHandle ++ s'.waiting)) :=
    (hwaiting.append_left _).trans perm_middle
  have hown : s'.redeliveredAt m.origin = s.redeliveredAt m.origin ++ [s.now] := by
    rw [redeliveredAt_append hredeliveries, if_pos rfl]
  have hother : ∀ x ∈ s.toHandle ++ s'.waiting,
      s'.redeliveredAt x.origin = s.redeliveredAt x.origin := by
    intro x hx
    rw [redeliveredAt_append hredeliveries, if_neg (hplaces.origin_ne hs hx), append_nil]
  refine ⟨?_, ?_, ?_, ?_, ?_⟩
  · intro x hx
    rw [hto] at hx
    rw [hfailed]
    rcases mem_cons.mp hx with rfl | hx
    · rw [hown]
      exact hm.redeliver s.now
    · rw [hother x (mem_append_left _ hx)]
      exact h.toHandle x hx
  · intro x hx
    rw [hfailed, hother x (mem_append_right _ hx)]
    exact h.waiting x (hwaiting.mem_iff.mpr (mem_cons_of_mem _ hx))
  · intro o ho
    rw [hpushed] at ho
    have hlt := hplaces.originLt m (mem_append_right _ hmem)
    obtain ⟨h1, h2⟩ := h.unborn o ho
    refine ⟨(hfailed o).trans h1, ?_⟩
    rw [redeliveredAt_append hredeliveries, if_neg (hlt.trans_le ho).ne, h2]
    rfl
  · intro o
    rw [hfailed, redeliveredAt_append hredeliveries]
    by_cases heq : m.origin = o
    · subst heq
      obtain ⟨f, hf, htime⟩ := hm.time
      rw [if_pos rfl]
      exact (h.onTime _).redeliver hf (hdue f _ htime (mem_of_getElem? hf))
    · rw [if_neg heq, append_nil]
      exact h.onTime o
  · intro o
    rw [redeliveredAt_append hredeliveries]
    by_cases heq : m.origin = o
    · subst heq
      rw [hm.count] at hcount
      rw [if_pos rfl, length_append]
      exact hcount
    · rw [if_neg heq, append_nil]
      exact h.bounded o

/-! ## What the manager removes is what it has read -/

def ManagerFits (now : ℚ) (z : Redis.ZSet RetryMessage) : ManagerPc → Prop
  | .top => True
  | .read maxTimestamp => maxTimestamp ≤ toInt now
  | .remove maxTimestamp messages =>
    maxTimestamp ≤ toInt now ∧ messages.Perm ((z.filter (Redis.inRange 0 maxTimestamp)).map (·.1))
  | .write _ => True

structure Managed (maxRetryCount : ℕ) (s : Retrying) : Prop where
  clock : 0 ≤ s.now
  past : ∀ e ∈ s.failures, 0 ≤ e.2
  scores : ∀ e ∈ s.retryChannel, e.2 = toInt (e.1.retryTimestamp.getD 0)
  fits : ManagerFits s.now s.retryChannel s.manager
  due : ∀ m ∈ s.pending, toInt (m.retryTimestamp.getD 0) ≤ toInt s.now
  balance : ∀ m, s.removed.count m =
    s.pending.count m + (s.redeliveries.map (·.1)).count m + s.givenUp.count m
  exceeded : ∀ m ∈ s.givenUp, maxRetryCount < m.retryCount.getD 0

lemma managerFits_zadd {now : ℚ} {z : Redis.ZSet RetryMessage} {pc : ManagerPc} {score : ℤ}
    (h : ManagerFits now z pc) (hnew : ∀ e ∈ z, e.1.text ≠ m.text) (hlate : toInt now < score) :
    ManagerFits now (zadd RetryMessage.text score m z) pc := by
  cases pc with
  | top => trivial
  | read maxTimestamp => exact h
  | write messages => trivial
  | remove maxTimestamp messages =>
    obtain ⟨hle, hperm⟩ := h
    have hout : inRange 0 maxTimestamp (m, score) = false := by
      have hlt : ¬ score ≤ maxTimestamp := not_le.mpr (hle.trans_lt hlate)
      simp [inRange, hlt]
    refine ⟨hle, ?_⟩
    rw [filter_inRange_zadd hnew hout]
    exact hperm

lemma managerFits_later {now t : ℚ} {z : Redis.ZSet RetryMessage} {pc : ManagerPc}
    (h : ManagerFits now z pc) (hle : toInt now ≤ toInt t) : ManagerFits t z pc := by
  cases pc with
  | top => trivial
  | read maxTimestamp => exact h.trans hle
  | remove maxTimestamp messages => exact ⟨h.1.trans hle, h.2⟩
  | write messages => trivial

lemma Managed.tick (h : s.Managed maxRetryCount) (t : ℚ) :
    ({ s with now := max s.now t } : Retrying).Managed maxRetryCount := by
  have hle : toInt s.now ≤ toInt (max s.now t) := toInt_le_toInt h.clock (le_max_left _ _)
  exact ⟨h.clock.trans (le_max_left _ _), h.past, h.scores, managerFits_later h.fits hle,
    fun m hm => (h.due m hm).trans hle, h.balance, h.exceeded⟩

lemma Managed.retry (h : s.Managed maxRetryCount) (hd : 1 ≤ d)
    (htried : m.Tried d (s.failedAt m.origin) (s.redeliveredAt m.origin))
    (hnew : ∀ e ∈ s.retryChannel, e.1.text ≠ (m.retry d maxRetryCount s.now).text) :
    (s.retry d maxRetryCount m).Managed maxRetryCount := by
  obtain ⟨f, hf, htime⟩ := (htried.retry maxRetryCount s.now).time
  rw [List.getElem?_concat_length] at hf
  cases hf
  have hinterval : 1 ≤ d * 2 ^ (s.failedAt m.origin).length :=
    one_le_mul_of_one_le_of_one_le hd (one_le_pow₀ one_le_two)
  have hlate : toInt s.now < toInt ((m.retry d maxRetryCount s.now).retryTimestamp.getD 0) := by
    rw [htime]
    exact toInt_lt_of_add_one_le h.clock (add_le_add_right hinterval _)
  refine ⟨h.clock, ?_, ?_, managerFits_zadd h.fits hnew hlate, h.due, h.balance, h.exceeded⟩
  · intro e he
    rcases mem_append.mp he with he | he
    · exact h.past e he
    · cases mem_singleton.mp he
      exact h.clock
  · intro e he
    rw [Retrying.retry, zadd_of_new hnew] at he
    rcases mem_append.mp he with he | he
    · exact h.scores e he
    · cases mem_singleton.mp he
      rfl

lemma Managed.remove (h : s.Managed maxRetryCount) {maxTimestamp : ℤ} {l : List RetryMessage}
    (hmanager : s.manager = .remove maxTimestamp l) : (s.manage maxRetryCount).Managed maxRetryCount ∧
      (s.manage maxRetryCount).waiting.Perm s.waiting := by
  have hstep : s.manage maxRetryCount = { s with
        retryChannel := zremrangebyscore 0 maxTimestamp s.retryChannel
        manager := .write l
        removed := s.removed ++ (s.retryChannel.filter (inRange 0 maxTimestamp)).map (·.1) } := by
    rw [manage, hmanager]
  have hpending : s.pending = [] := by rw [pending, hmanager]
  have hfits := h.fits
  rw [hmanager] at hfits
  obtain ⟨hle, hperm⟩ := hfits
  rw [hstep]
  refine ⟨⟨h.clock, h.past, ?_, trivial, ?_, ?_, h.exceeded⟩, ?_⟩
  · exact fun e he => h.scores e (mem_filter.mp he).1
  · intro x hx
    obtain ⟨e, he, rfl⟩ := mem_map.mp (hperm.mem_iff.mp hx)
    obtain ⟨hmem, hin⟩ := mem_filter.mp he
    rw [← h.scores e hmem]
    simp only [inRange, Bool.and_eq_true, decide_eq_true_eq] at hin
    exact hin.2.trans hle
  · intro x
    have hbalance := h.balance x
    rw [hpending, count_nil] at hbalance
    show (s.removed ++ _).count x = l.count x + (s.redeliveries.map (·.1)).count x + s.givenUp.count x
    rw [count_append, hbalance, hperm.count_eq]
    omega
  · have hsplit : ((s.retryChannel.filter (inRange 0 maxTimestamp)).map (·.1) ++
        (zremrangebyscore 0 maxTimestamp s.retryChannel).map (·.1)).Perm
        (s.retryChannel.map (·.1)) := by
      rw [← map_append]
      exact (filter_append_perm _ _).map _
    rw [waiting, waiting, hpending, append_nil]
    exact (((hperm.append_left _).trans perm_append_comm).trans hsplit).append_right _

lemma Managed.redeliver (h : s.Managed maxRetryCount) (hmanager : s.manager = .write (m :: rest)) :
    (s.redeliver maxRetryCount m rest).Managed maxRetryCount := by
  have hpending : s.pending = m :: rest := by rw [pending, hmanager]
  have hdue : ∀ x ∈ rest, toInt (x.retryTimestamp.getD 0) ≤ toInt s.now :=
    fun x hx => h.due x (by rw [hpending]; exact mem_cons_of_mem _ hx)
  have hbalance := h.balance
  rw [hpending] at hbalance
  by_cases hcount : m.retryCount.getD 0 > maxRetryCount
  · rw [Retrying.redeliver, if_pos hcount]
    refine ⟨h.clock, h.past, h.scores, trivial, hdue, ?_, ?_⟩
    · intro x
      show s.removed.count x =
        rest.count x + (s.redeliveries.map (·.1)).count x + (m :: s.givenUp).count x
      rw [hbalance x, count_cons, count_cons]
      omega
    · intro x hx
      rcases mem_cons.mp hx with rfl | hx
      · exact hcount
      · exact h.exceeded x hx
  · rw [Retrying.redeliver, if_neg hcount]
    refine ⟨h.clock, h.past, h.scores, trivial, hdue, ?_, h.exceeded⟩
    intro x
    have hmap : (s.redeliveries ++ [(m, s.now)]).map (·.1) = s.redeliveries.map (·.1) ++ [m] := by
      rw [map_append]
      rfl
    show s.removed.count x =
      rest.count x + ((s.redeliveries ++ [(m, s.now)]).map (·.1)).count x + s.givenUp.count x
    rw [hmap, hbalance x, count_cons, count_append, count_singleton]
    omega

/-! ## All runs -/

structure Sound (d : ℚ) (maxRetryCount : ℕ) (s : Retrying) : Prop where
  places : s.Places
  told : s.Told d maxRetryCount
  managed : s.Managed maxRetryCount
  identified : ∀ m ∈ s.handlings, m.messageId ≠ none

lemma sound_init (d : ℚ) (maxRetryCount : ℕ) : ({} : Retrying).Sound d maxRetryCount := by
  refine ⟨⟨nodup_nil, nodup_nil, ?_, ?_⟩, ⟨?_, ?_, fun o _ => ⟨rfl, rfl⟩, ?_, ?_⟩,
    ⟨le_rfl, ?_, ?_, trivial, ?_, fun m => rfl, ?_⟩, ?_⟩
  case refine_5 => exact fun o k t ht => by cases ht
  case refine_6 => exact fun o => zero_le _
  all_goals exact fun m hm => absurd hm not_mem_nil

section

variable (h : s.Sound d maxRetryCount)
include h

lemma Sound.text_new (hm : m ∈ s.handlings) :
    ∀ e ∈ s.retryChannel, e.1.text ≠ (m.retry d maxRetryCount s.now).text := by
  intro e he heq
  have hid : e.1.text.messageId = (m.retry d maxRetryCount s.now).text.messageId := by rw [heq]
  change e.1.messageId = m.messageId at hid
  obtain ⟨i, hi⟩ := ne_none_iff_exists'.mp (h.identified m hm)
  have hids := h.places.ids
  rw [messages, filterMap_append] at hids
  have hleft : i ∈ s.toHandle.filterMap (·.messageId) :=
    mem_filterMap.mpr ⟨m, mem_append_right _ hm, hi⟩
  have hright : i ∈ s.waiting.filterMap (·.messageId) := by
    refine mem_filterMap.mpr ⟨e.1, ?_, hid.trans hi⟩
    exact mem_append_left _ (mem_append_left _ (mem_map_of_mem he))
  exact disjoint_of_nodup_append hids hleft hright

lemma Sound.handle : s.handle.Sound d maxRetryCount := by
  rcases eq_nil_or_concat' s.channel with hnil | ⟨l, m, hl⟩
  · rw [Retrying.handle, hnil]
    exact h
  obtain ⟨hbefore, hafter⟩ := toHandle_handle hl
  have hstep : s.handle = { s with
        channel := l
        handlings := { m with messageId := some s.handled } :: s.handlings
        handled := s.handled + 1 } := by
    rw [Retrying.handle, hl, List.getLast?_concat, dropLast_concat]
  rw [hstep] at hafter ⊢
  refine ⟨?_, ?_, ⟨h.managed.clock, h.managed.past, h.managed.scores, h.managed.fits, h.managed.due,
    h.managed.balance, h.managed.exceeded⟩, ?_⟩
  · exact h.places.replace (hbefore.append_right _) (hafter.append_right _) rfl
      (.inr ⟨rfl, lt_succ_self _⟩) rfl (le_succ _)
  · refine h.told.of_quiet ?_ (fun x hx => hx) rfl rfl rfl
    intro x hx
    rcases mem_cons.mp (hafter.mem_iff.mp hx) with rfl | hx
    · exact ⟨m, hbefore.mem_iff.mpr mem_cons_self, rfl, rfl, rfl⟩
    · exact ⟨x, hbefore.mem_iff.mpr (mem_cons_of_mem _ hx), rfl, rfl, rfl⟩
  · intro x hx
    rcases mem_cons.mp hx with rfl | hx
    · exact some_ne_none _
    · exact h.identified x hx

lemma Sound.finish (hm : m ∈ s.handlings) : (s.finish m).Sound d maxRetryCount := by
  have hto := toHandle_erase hm
  refine ⟨h.places.drop (hto.append_right _) rfl rfl, ?_, ⟨h.managed.clock, h.managed.past,
    h.managed.scores, h.managed.fits, h.managed.due, h.managed.balance, h.managed.exceeded⟩,
    fun x hx => h.identified x (mem_of_mem_erase hx)⟩
  exact h.told.of_quiet (fun x hx => ⟨x, hto.mem_iff.mpr (mem_cons_of_mem _ hx), rfl, rfl, rfl⟩)
    (fun x hx => hx) rfl rfl rfl

lemma Sound.retry (hd : 1 ≤ d) (hm : m ∈ s.handlings) :
    (s.retry d maxRetryCount m).Sound d maxRetryCount := by
  have hnew := h.text_new hm
  have hto : s.toHandle.Perm (m :: (s.retry d maxRetryCount m).toHandle) := toHandle_erase hm
  have hwaiting := waiting_retry hnew
  refine ⟨?_, h.told.retry h.places hm hwaiting, ?_, fun x hx => h.identified x (mem_of_mem_erase hx)⟩
  · exact h.places.replace (hto.append_right _)
      ((hwaiting.append_left _).trans perm_middle) rfl (.inl rfl) rfl le_rfl
  · exact h.managed.retry hd (h.told.toHandle m (mem_append_right _ hm)) hnew

lemma Sound.setManager {pc : ManagerPc}
    (hpending : ({ s with manager := pc } : Retrying).pending = s.pending)
    (hfits : ManagerFits s.now s.retryChannel pc) :
    ({ s with manager := pc } : Retrying).Sound d maxRetryCount := by
  have hwaiting : ({ s with manager := pc } : Retrying).waiting = s.waiting := by
    rw [waiting, hpending]
    rfl
  refine ⟨h.places.of_perm ?_ rfl rfl, ?_, ⟨h.managed.clock, h.managed.past, h.managed.scores, hfits,
    ?_, ?_, h.managed.exceeded⟩, h.identified⟩
  · rw [messages, hwaiting]
    exact List.Perm.refl _
  · refine h.told.of_quiet (fun x hx => ⟨x, hx, rfl, rfl, rfl⟩) ?_ rfl rfl rfl
    exact fun x hx => hwaiting ▸ hx
  · rw [hpending]
    exact h.managed.due
  · rw [hpending]
    exact h.managed.balance

lemma Sound.redeliver (hd : 1 ≤ d) (hmanager : s.manager = .write (m :: rest)) :
    (s.redeliver maxRetryCount m rest).Sound d maxRetryCount := by
  have hmanaged := h.managed.redeliver hmanager
  have hbefore := waiting_write hmanager
  by_cases hcount : m.retryCount.getD 0 > maxRetryCount
  · rw [Retrying.redeliver, if_pos hcount] at hmanaged ⊢
    have hwaiting : ({ s with givenUp := m :: s.givenUp, manager := .write rest } : Retrying).waiting.Perm
        s.waiting :=
      perm_middle.trans hbefore.symm
    exact ⟨h.places.of_perm (hwaiting.append_left _) rfl rfl,
      h.told.of_quiet (fun x hx => ⟨x, hx, rfl, rfl, rfl⟩) (fun x hx => hwaiting.mem_iff.mp hx)
        rfl rfl rfl, hmanaged, h.identified⟩
  · have hpending : m ∈ s.pending := by
      rw [pending, hmanager]
      exact mem_cons_self
    rw [Retrying.redeliver, if_neg hcount] at hmanaged ⊢
    refine ⟨?_, ?_, hmanaged, h.identified⟩
    · refine h.places.of_perm ?_ rfl rfl
      exact (perm_middle.symm.trans (hbefore.symm.append_left _))
    · refine h.told.redeliver h.places rfl hbefore rfl rfl rfl (not_lt.mp hcount) ?_
      intro f k htime hf
      -- `due` compares whole seconds as `toInt` has them; both times are after the epoch
      obtain ⟨e, he, rfl⟩ := mem_map.mp hf
      have hpast : 0 ≤ e.2 := h.managed.past e (mem_filter.mp he).1
      have hdelay : 0 ≤ d * 2 ^ k := mul_nonneg (zero_le_one.trans hd) (by positivity)
      have hdue := h.managed.due m hpending
      rw [htime, getD_some, toInt_of_nonneg (add_nonneg hpast hdelay),
        toInt_of_nonneg h.managed.clock] at hdue
      exact hdue

lemma Sound.manage (hd : 1 ≤ d) : (s.manage maxRetryCount).Sound d maxRetryCount := by
  cases hmanager : s.manager with
  | top =>
    rw [Retrying.manage, hmanager]
    exact h.setManager (by simp only [pending, hmanager]) le_rfl
  | read maxTimestamp =>
    have hfits := h.managed.fits
    rw [hmanager] at hfits
    rw [Retrying.manage, hmanager]
    exact h.setManager (by simp only [pending, hmanager]) ⟨hfits, zrangebyscore_perm _ _ _⟩
  | remove maxTimestamp l =>
    obtain ⟨hmanaged, hwaiting⟩ := h.managed.remove hmanager
    refine ⟨?_, ?_, hmanaged, ?_⟩ <;> rw [Retrying.manage, hmanager] at hwaiting ⊢
    · exact h.places.of_perm (hwaiting.append_left _) rfl rfl
    · exact h.told.of_quiet (fun x hx => ⟨x, hx, rfl, rfl, rfl⟩) (fun x hx => hwaiting.mem_iff.mp hx)
        rfl rfl rfl
    · exact h.identified
  | write l =>
    cases l with
    | nil =>
      rw [Retrying.manage, hmanager]
      exact h.setManager (by simp only [pending, hmanager]) trivial
    | cons m rest =>
      rw [Retrying.manage, hmanager]
      exact h.redeliver hd hmanager

end

lemma sound_step (hd : 1 ≤ d) (h : s.Sound d maxRetryCount) (e : Event) :
    (step d maxRetryCount s e).Sound d maxRetryCount := by
  cases e with
  | push content =>
    exact ⟨h.places.push content, h.told.push content, ⟨h.managed.clock, h.managed.past,
      h.managed.scores, h.managed.fits, h.managed.due, h.managed.balance, h.managed.exceeded⟩,
      h.identified⟩
  | handle => exact h.handle
  | retry id =>
    cases hfind : s.handling? id with
    | none =>
      rw [step, hfind]
      exact h
    | some m =>
      rw [step, hfind]
      exact h.retry hd (mem_of_find?_eq_some hfind)
  | finish id =>
    cases hfind : s.handling? id with
    | none =>
      rw [step, hfind]
      exact h
    | some m =>
      rw [step, hfind]
      exact h.finish (mem_of_find?_eq_some hfind)
  | manage => exact h.manage hd
  | tick t =>
    exact ⟨⟨h.places.origins, h.places.ids, h.places.originLt, h.places.idLt⟩,
      ⟨h.told.toHandle, h.told.waiting, h.told.unborn, h.told.onTime, h.told.bounded⟩,
      h.managed.tick t, h.identified⟩

theorem retries_bounded (d : ℚ) (maxRetryCount : ℕ) (hd : 1 ≤ d) (es : List Event) :
    let s := Machine.run (step d maxRetryCount) {} es
    (∀ o, (s.redeliveredAt o).length ≤ maxRetryCount) ∧
      (∀ m ∈ s.givenUp, (s.redeliveredAt m.origin).length = maxRetryCount ∧
        m.retryCount = some (maxRetryCount + 1)) ∧
      (∀ (o k : ℕ) (t : ℚ), (s.redeliveredAt o)[k]? = some t →
        ∃ f, (s.failedAt o)[k]? = some f ∧ ⌊f + d * 2 ^ k⌋ ≤ ⌊t⌋) ∧
      ∀ m, s.removed.count m =
        s.pending.count m + (s.redeliveries.map (·.1)).count m + s.givenUp.count m := by
  intro s
  have h : s.Sound d maxRetryCount :=
    Machine.run_inv (I := Sound d maxRetryCount) (fun _ e h _ => sound_step hd h e)
      (sound_init d maxRetryCount)
      (Machine.guarded_of_forall (G := fun _ _ => True) (fun _ _ => trivial) _ es)
  refine ⟨h.told.bounded, ?_, h.told.onTime, h.managed.balance⟩
  intro m hm
  have hfailed := h.told.waiting m (mem_append_right _ hm)
  have hexceeded := h.managed.exceeded m hm
  rw [hfailed.count, Option.getD_some] at hexceeded
  have hlength : (s.redeliveredAt m.origin).length = maxRetryCount :=
    le_antisymm (h.told.bounded _) (Nat.lt_succ_iff.mp hexceeded)
  exact ⟨hlength, hfailed.count.trans (by rw [hlength])⟩

theorem retries_bounded_failsTwice :
    let s := Machine.run (step 1 1) {}
      [.push "launch", .handle, .retry 0, .manage, .manage, .manage, .manage, .tick 1, .manage, .manage,
        .manage, .manage, .handle, .retry 1, .manage, .tick 3, .manage, .manage, .manage, .manage]
    s.failedAt 0 = [0, 1] ∧ s.redeliveredAt 0 = [1] ∧ s.givenUp.map (·.retryCount) = [some 2] ∧
      ∀ o, (s.redeliveredAt o).length ≤ 1 :=
  ⟨by decide +kernel, by decide +kernel, by decide +kernel, (retries_bounded 1 1 le_rfl _).1⟩

end Retrying

end Urb
