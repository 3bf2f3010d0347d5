/-
# `Urb.Broker` — one message queue in Redis and what its consumers do with it

`RedisMessageBroker` keeps a queue in two Redis lists, the queue itself and
its processing list.

    push                     LPUSH queue
    pop, pop_blocking        RPOPLPUSH queue processing
    message_processed        LREM processing 0 text
    restore_lost_messages    a script: LPOP processing, RPUSH queue, until the processing
                             list is empty

`Channel` pops a message and spawns a greenlet for it, which calls the read callback
and, when that has RETURNED, `message_processed` with the text.

`Delivery` is the system around one queue: Redis, the handlings that are under way in
any number of consumers, and the history.  Every push makes a `Copy` with a number of
its own, which the broker does not see: it works on the texts.
-/
import Urb.Basis.Exec
import Urb.Basis.Redis

namespace Urb

open Redis List

/-! ## The broker -/

/-- The two lists of a queue. -/
structure MessageQueue (α : Type) where
  queue : List α := []
  processing : List α := []
  deriving DecidableEq

namespace MessageQueue

variable {α β : Type}

def push (m : α) (q : MessageQueue α) : MessageQueue α :=
  { q with queue := Redis.lpush m q.queue }

/-- `pop`. -/
def pop (q : MessageQueue α) : Option α × MessageQueue α :=
  match Redis.rpoplpush q.queue q.processing with
  | none => (none, q)
  | some (m, queue, processing) => (some m, { queue := queue, processing := processing })

def popBlocking (text : α → String) (q : MessageQueue α) : Option α × MessageQueue α :=
  (q.pop.1.filter (fun m => text m ≠ ""), q.pop.2)

def messageProcessed (text : α → String) (m : String) (q : MessageQueue α) : MessageQueue α :=
  { q with processing := Redis.lrem text m q.processing }

def restoreScript : List α → List α → ℕ × List α
  | [], queue => (0, queue)
  | value :: processing, queue =>
    let r := restoreScript processing (Redis.rpush value queue)
    (r.1 + 1, r.2)

def restoreLostMessages (q : MessageQueue α) : ℕ × MessageQueue α :=
  let r := restoreScript q.processing q.queue
  (r.1, { queue := r.2, processing := [] })

def reply (text : α → String) (blocking : Bool) (q : MessageQueue α) : Option α :=
  if blocking then (q.popBlocking text).1 else q.pop.1

def popTimes (text : α → String) (blocking : Bool) : ℕ → MessageQueue α → List α
  | 0, _ => []
  | n + 1, q => (q.reply text blocking).toList ++ popTimes text blocking n q.pop.2

def map (f : α → β) (q : MessageQueue α) : MessageQueue β :=
  { queue := q.queue.map f, processing := q.processing.map f }

@[simp] lemma pop_concat (queue processing : List α) (m : α) :
    pop { queue := queue ++ [m], processing := processing } =
      (some m, { queue := queue, processing := m :: processing }) := by
  simp only [pop, rpoplpush_concat]

lemma pop_cases (q : MessageQueue α) : q.queue = [] ∧ q.pop = (none, q) ∨
    ∃ queue m, q.queue = queue ++ [m] ∧
      q.pop = (some m, { queue := queue, processing := m :: q.processing }) := by
  obtain ⟨queue, processing⟩ := q
  rcases queue.eq_nil_or_concat' with rfl | ⟨queue, m, rfl⟩
  · exact .inl ⟨rfl, rfl⟩
  · exact .inr ⟨queue, m, rfl, pop_concat queue processing m⟩

lemma restoreScript_eq : ∀ processing queue : List α,
    restoreScript processing queue = (processing.length, queue ++ processing)
  | [], queue => by rw [restoreScript, append_nil, length_nil]
  | value :: processing, queue => by
    rw [restoreScript, restoreScript_eq processing, rpush, append_assoc]
    rfl

lemma restoreLostMessages_eq (q : MessageQueue α) : q.restoreLostMessages =
      (q.processing.length, { queue := q.queue ++ q.processing, processing := [] }) := by
  rw [restoreLostMessages, restoreScript_eq]

lemma popTimes_eq (text : α → String) (blocking : Bool) (n : ℕ) (q : MessageQueue α) :
    q.popTimes text blocking n =
      (q.queue.reverse.take n).filter (fun m => !(blocking && text m == "")) := by
  induction n generalizing q with
  | zero => rfl
  | succ n ih =>
    rw [popTimes, ih]
    rcases q.pop_cases with ⟨hq, hpop⟩ | ⟨queue, m, hq, hpop⟩
    · cases blocking <;> simp [reply, popBlocking, hpop, hq]
    · cases blocking
      · simp [reply, hpop, hq]
      · by_cases hm : text m = "" <;> simp [reply, popBlocking, Option.filter, hpop, hq, hm]

lemma restoreLostMessages_map (f : α → β) (q : MessageQueue α) :
    (q.map f).restoreLostMessages = (q.restoreLostMessages.1, q.restoreLostMessages.2.map f) := by
  simp only [restoreLostMessages_eq, map, length_map, map_append, map_nil]

end MessageQueue

/-! ## Copies and handlings -/

/-- A message that has been pushed. -/
structure Copy where
  number : ℕ
  text : String
  deriving Repr, DecidableEq

structure Handling where
  number : ℕ
  consumer : ℕ
  copy : Copy
  complete : Bool := false
  deriving Repr, DecidableEq

structure Delivery where
  broker : MessageQueue Copy := {}
  handlings : List Handling := []
  started : ℕ := 0
  pushed : List Copy := []
  popped : List Copy := []
  inFlight : List Copy := []
  ended : List Copy := []
  finished : List Copy := []

namespace Delivery

inductive Event where
  | push (text : String)
  | pop (consumer : ℕ) (blocking : Bool)
  | returned (handling : ℕ)
  | raised (handling : ℕ)
  | processed (handling : ℕ)
  | crash (consumer : ℕ)
  | restore
  deriving Repr, DecidableEq

def handling? (n : ℕ) (complete : Bool) (s : Delivery) : Option Handling :=
  s.handlings.find? (fun h => h.number = n ∧ h.complete = complete)

/-- `push`. -/
def push (text : String) (s : Delivery) : Delivery :=
  let c : Copy := { number := s.pushed.length, text := text }
  { s with broker := s.broker.push c, pushed := s.pushed ++ [c] }

/-- `read` or `read_blocking`: what the pop returns is handled in a new greenlet. -/
def pop (consumer : ℕ) (blocking : Bool) (s : Delivery) : Delivery :=
  let moved := s.broker.pop.1.toList
  let reply := s.broker.reply Copy.text blocking
  { s with
    broker := s.broker.pop.2
    popped := s.popped ++ moved.filter (· ∉ s.popped)
    inFlight := s.inFlight ++ moved
    handlings :=
      reply.toList.map (fun c => { number := s.started, consumer := consumer, copy := c }) ++
        s.handlings
    started := s.started + 1 }

def returned (h : Handling) (s : Delivery) : Delivery :=
  { s with handlings := { h with complete := true } :: s.handlings.erase h, ended := h.copy :: s.ended }

def raised (h : Handling) (s : Delivery) : Delivery :=
  { s with handlings := s.handlings.erase h, ended := h.copy :: s.ended }

def processed (h : Handling) (s : Delivery) : Delivery :=
  { s with
    broker := s.broker.messageProcessed Copy.text h.copy.text
    handlings := s.handlings.erase h
    inFlight := s.inFlight.filter (· ≠ h.copy)
    finished := h.copy :: s.finished }

def crash (consumer : ℕ) (s : Delivery) : Delivery :=
  { s with handlings := s.handlings.filter (fun h => h.consumer ≠ consumer) }

def restore (s : Delivery) : Delivery :=
  { s with broker := s.broker.restoreLostMessages.2, inFlight := [] }

def step (s : Delivery) : Event → Delivery
  | .push text => s.push text
  | .pop consumer blocking => s.pop consumer blocking
  | .returned n => (s.handling? n false).elim s s.returned
  | .raised n => (s.handling? n false).elim s s.raised
  | .processed n => (s.handling? n true).elim s s.processed
  | .crash consumer => s.crash consumer
  | .restore => s.restore

variable {s : Delivery}

/-! ### One lemma for each operation on the lists -/

def Holds (s : Delivery) (c : Copy) : Prop := c ∈ s.broker.queue ∨ c ∈ s.broker.processing

@[simp] lemma holds_push (text : String) (c : Copy) :
    (s.push text).Holds c ↔ c = { number := s.pushed.length, text := text } ∨ s.Holds c := by
  simp only [Holds, push, MessageQueue.push, lpush, mem_cons, or_assoc]

lemma pop_eq_or (s : Delivery) (consumer : ℕ) (blocking : Bool) :
    s.pop consumer blocking = { s with started := s.started + 1 } ∨
    ∃ queue m new, s.broker.queue = queue ++ [m] ∧ (new = [] ∨ ∃ h : Handling, h.copy = m ∧ new = [h]) ∧
      s.pop consumer blocking = { s with
          broker := { queue := queue, processing := m :: s.broker.processing }
          popped := s.popped ++ [m].filter (· ∉ s.popped)
          inFlight := s.inFlight ++ [m]
          handlings := new ++ s.handlings
          started := s.started + 1 } := by
  rcases s.broker.pop_cases with ⟨hq, hpop⟩ | ⟨queue, m, hq, hpop⟩
  · have hreply : s.broker.reply Copy.text blocking = none := by
      cases blocking <;> simp [MessageQueue.reply, MessageQueue.popBlocking, hpop]
    left
    simp [pop, hpop, hreply]
  · right
    refine ⟨queue, m, _, hq, ?_, by simp only [pop, hpop]; rfl⟩
    by_cases hempty : blocking ∧ m.text = ""
    · left
      simp [MessageQueue.reply, MessageQueue.popBlocking, hpop, hempty]
    · refine .inr ⟨{ number := s.started, consumer := consumer, copy := m }, rfl, ?_⟩
      cases blocking
      · simp [MessageQueue.reply, hpop]
      · have hne : m.text ≠ "" := fun h => hempty ⟨rfl, h⟩
        simp [MessageQueue.reply, MessageQueue.popBlocking, Option.filter, hpop, hne]

@[simp] lemma holds_pop (consumer : ℕ) (blocking : Bool) (c : Copy) :
    (s.pop consumer blocking).Holds c ↔ s.Holds c := by
  rcases s.pop_eq_or consumer blocking with hpop | ⟨queue, m, new, hq, -, hpop⟩
  · rw [hpop]
    rfl
  · rw [hpop]
    simp only [Holds, hq, mem_append, mem_cons, not_mem_nil, or_false]
    tauto

@[simp] lemma holds_restore (c : Copy) : s.restore.Holds c ↔ s.Holds c := by
  simp [Holds, restore, MessageQueue.restoreLostMessages_eq]

@[simp] lemma holds_processed (h : Handling) (c : Copy) : (s.processed h).Holds c ↔
      c ∈ s.broker.queue ∨ c ∈ s.broker.processing ∧ c.text ≠ h.copy.text := by
  simp only [Holds, processed, MessageQueue.messageProcessed, mem_lrem]

end Delivery

end Urb
