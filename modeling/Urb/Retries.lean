/-
# `Urb.Retries` — messages that are handled again later

A handler that cannot do its work yet gives the message to the `RetryManager`.

    retry      notes in the message how often it has been tried and after what interval to
               try again, and adds it to the retry channel, a sorted set, with the time as
               its score
    manage     reads the messages that are due, removes them, and writes each to the
               handler's own channel, unless it has been tried too often

The count and the interval travel inside the message: the interval is the initial
one at the first retry and is doubled at each further one.  `manage` reads and
removes by two separate commands, both with the clock it read before the first.

A step of the manager is one Redis command; a call of `retry` is one step.  Which
native message a message goes back to (`origin`), and the histories at the end of the
record, are the model's own: Redis compares messages by `text`.

    channel --handle--> handlings --retry--> retryChannel --manage--> channel
                            |                                  \
                            +--finish-->                        +---> givenUp

-/
import Mathlib.Data.Rat.Floor
import Urb.Basis.Redis
import Urb.Offers

namespace Urb

open List

/-! ## Messages -/

structure RetryMessage where
  origin : ℕ
  content : String
  messageId : Option ℕ := none
  retryCount : Option ℕ := none
  maxRetryCount : Option ℕ := none
  retryInterval : Option ℚ := none
  retryTimestamp : Option ℚ := none
  deriving DecidableEq

namespace RetryMessage

def text (m : RetryMessage) : RetryMessage := { m with origin := 0 }

/-- What `RetryManager.retry` writes into the message at the time `now`. -/
def retry (initialRetryInterval : ℚ) (maxRetryCount : ℕ) (now : ℚ) (m : RetryMessage) :
    RetryMessage :=
  let count := m.retryCount.getD 0
  let interval := m.retryInterval.getD initialRetryInterval
  let interval := if count > 0 then interval * 2 else interval
  { m with
    retryCount := some (count + 1)
    maxRetryCount := some maxRetryCount
    retryInterval := some interval
    retryTimestamp := some (now + interval) }

end RetryMessage

/-! ## The system -/

/-- Where `manage` is in its round. -/
inductive ManagerPc where
  | top
  | read (maxTimestamp : ℤ)
  | remove (maxTimestamp : ℤ) (messages : List RetryMessage)
  | write (messages : List RetryMessage)
  deriving DecidableEq

structure Retrying where
  now : ℚ := 0
  channel : List RetryMessage := []
  handlings : List RetryMessage := []
  retryChannel : Redis.ZSet RetryMessage := []
  manager : ManagerPc := .top
  pushed : ℕ := 0
  handled : ℕ := 0
  givenUp : List RetryMessage := []
  failures : List (ℕ × ℚ) := []
  redeliveries : List (RetryMessage × ℚ) := []
  removed : List RetryMessage := []

namespace Retrying

inductive Event where
  | push (content : String)
  | handle
  | retry (messageId : ℕ)
  | finish (messageId : ℕ)
  | manage
  | tick (t : ℚ)

def push (content : String) (s : Retrying) : Retrying :=
  { s with
    channel := Redis.lpush { origin := s.pushed, content := content } s.channel
    pushed := s.pushed + 1 }

def handle (s : Retrying) : Retrying :=
  match s.channel.getLast? with
  | none => s
  | some m =>
    { s with
      channel := s.channel.dropLast
      handlings := { m with messageId := some s.handled } :: s.handlings
      handled := s.handled + 1 }

/-- A handling ends in `retry`. -/
def retry (initialRetryInterval : ℚ) (maxRetryCount : ℕ) (m : RetryMessage) (s : Retrying) :
    Retrying :=
  let m' := m.retry initialRetryInterval maxRetryCount s.now
  { s with
    handlings := s.handlings.erase m
    retryChannel := Redis.zadd RetryMessage.text (toInt (m'.retryTimestamp.getD 0)) m' s.retryChannel
    failures := s.failures ++ [(m.origin, s.now)] }

def finish (m : RetryMessage) (s : Retrying) : Retrying :=
  { s with handlings := s.handlings.erase m }

def redeliver (maxRetryCount : ℕ) (m : RetryMessage) (rest : List RetryMessage) (s : Retrying) :
    Retrying :=
  if m.retryCount.getD 0 > maxRetryCount then
    { s with givenUp := m :: s.givenUp, manager := .write rest }
  else
    { s with
      channel := Redis.lpush m s.channel
      redeliveries := s.redeliveries ++ [(m, s.now)]
      manager := .write rest }

def manage (maxRetryCount : ℕ) (s : Retrying) : Retrying :=
  match s.manager with
  | .top => { s with manager := .read (toInt s.now) }
  | .read maxTimestamp =>
    { s with manager :=
        .remove maxTimestamp (Redis.zrangebyscore 0 maxTimestamp s.retryChannel) }
  | .remove maxTimestamp messages =>
    { s with
      retryChannel := Redis.zremrangebyscore 0 maxTimestamp s.retryChannel
      manager := .write messages
      removed := s.removed ++ (s.retryChannel.filter (Redis.inRange 0 maxTimestamp)).map (·.1) }
  | .write [] => { s with manager := .top }
  | .write (m :: rest) => redeliver maxRetryCount m rest s

def handling? (messageId : ℕ) (s : Retrying) : Option RetryMessage :=
  s.handlings.find? (fun m => m.messageId = some messageId)

def step (initialRetryInterval : ℚ) (maxRetryCount : ℕ) (s : Retrying) : Event → Retrying
  | .push content => s.push content
  | .handle => s.handle
  | .retry id => (s.handling? id).elim s (fun m => s.retry initialRetryInterval maxRetryCount m)
  | .finish id => (s.handling? id).elim s (fun m => s.finish m)
  | .manage => s.manage maxRetryCount
  | .tick t => { s with now := max s.now t }

def pending (s : Retrying) : List RetryMessage :=
  match s.manager with
  | .write messages => messages
  | _ => []

def failedAt (o : ℕ) (s : Retrying) : List ℚ := (s.failures.filter (·.1 = o)).map (·.2)

def redeliveredAt (o : ℕ) (s : Retrying) : List ℚ :=
  (s.redeliveries.filter (·.1.origin = o)).map (·.2)

end Retrying

/-! ## What a message says about its history -/

def intervalAfter (d : ℚ) : ℕ → Option ℚ
  | 0 => none
  | k + 1 => some (d * 2 ^ k)

namespace RetryMessage

structure Tried (d : ℚ) (failed redelivered : List ℚ) (m : RetryMessage) : Prop where
  count : m.retryCount.getD 0 = failed.length
  both : redelivered.length = failed.length
  interval : m.retryInterval = intervalAfter d failed.length

structure Failed (d : ℚ) (failed redelivered : List ℚ) (m : RetryMessage) (k : ℕ) : Prop where
  redeliveries : redelivered.length = k
  failures : failed.length = k + 1
  count : m.retryCount = some (k + 1)
  interval : m.retryInterval = some (d * 2 ^ k)
  time : ∃ f, failed[k]? = some f ∧ m.retryTimestamp = some (f + d * 2 ^ k)

variable {d : ℚ} {failed redelivered : List ℚ} {m : RetryMessage} {k : ℕ}

lemma Tried.retry (h : m.Tried d failed redelivered) (maxRetryCount : ℕ) (now : ℚ) :
    (m.retry d maxRetryCount now).Failed d (failed ++ [now]) redelivered failed.length := by
  have hinterval : (if m.retryCount.getD 0 > 0 then m.retryInterval.getD d * 2
      else m.retryInterval.getD d) = d * 2 ^ failed.length := by
    rw [h.count, h.interval]
    cases failed.length with
    | zero => simp [intervalAfter]
    | succ k =>
      simp only [intervalAfter, Nat.succ_pos, if_true, getD_some, gt_iff_lt, pow_succ]
      ring
  refine ⟨h.both, by rw [length_append]; rfl, ?_, ?_, now, ?_, ?_⟩
  · simp only [RetryMessage.retry, h.count]
  · simp only [RetryMessage.retry, hinterval]
  · simp
  · simp only [RetryMessage.retry, hinterval]

lemma Failed.redeliver (h : m.Failed d failed redelivered k) (now : ℚ) :
    m.Tried d failed (redelivered ++ [now]) := by
  refine ⟨?_, ?_, ?_⟩
  · rw [h.count, h.failures]
    rfl
  · rw [length_append, h.redeliveries, h.failures]
    rfl
  · rw [h.interval, h.failures]
    rfl

end RetryMessage

def OnTime (d : ℚ) (failed redelivered : List ℚ) : Prop :=
  ∀ (k : ℕ) (t : ℚ), redelivered[k]? = some t →
    ∃ f, failed[k]? = some f ∧ ⌊f + d * 2 ^ k⌋ ≤ ⌊t⌋

lemma OnTime.fail {d : ℚ} {failed redelivered : List ℚ} (h : OnTime d failed redelivered) (now : ℚ) :
    OnTime d (failed ++ [now]) redelivered := by
  intro k t ht
  obtain ⟨f, hf, hle⟩ := h k t ht
  have hlt : k < failed.length := (List.getElem?_eq_some_iff.mp hf).1
  exact ⟨f, by rw [getElem?_append_left hlt]; exact hf, hle⟩

lemma OnTime.redeliver {d f now : ℚ} {failed redelivered : List ℚ} (h : OnTime d failed redelivered)
    (hf : failed[redelivered.length]? = some f) (hle : ⌊f + d * 2 ^ redelivered.length⌋ ≤ ⌊now⌋) :
    OnTime d failed (redelivered ++ [now]) := by
  intro k t ht
  rcases Nat.lt_trichotomy k redelivered.length with hlt | rfl | hlt
  · rw [getElem?_append_left hlt] at ht
    exact h k t ht
  · rw [getElem?_concat_length] at ht
    cases ht
    exact ⟨f, hf, hle⟩
  · have hlen : (redelivered ++ [now]).length ≤ k := by
      rw [length_append, length_singleton]
      omega
    rw [getElem?_eq_none hlen] at ht
    cases ht

/-! ## Whole seconds -/

lemma toInt_of_nonneg {q : ℚ} (h : 0 ≤ q) : toInt q = ⌊q⌋ := by
  rw [toInt, if_neg (not_lt.mpr h)]
  rfl

lemma toInt_lt_of_add_one_le {t u : ℚ} (ht : 0 ≤ t) (h : t + 1 ≤ u) : toInt t < toInt u := by
  rw [toInt_of_nonneg ht, toInt_of_nonneg (by linarith)]
  have hstep : ⌊t⌋ + 1 ≤ ⌊u⌋ := by
    rw [← Int.floor_add_one]
    exact Int.floor_le_floor h
  omega

lemma toInt_le_toInt {t u : ℚ} (ht : 0 ≤ t) (h : t ≤ u) : toInt t ≤ toInt u := by
  rw [toInt_of_nonneg ht, toInt_of_nonneg (ht.trans h)]
  exact Int.floor_le_floor h

end Urb
