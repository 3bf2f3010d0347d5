/-
# `Urb.ClientChannel` — how messages reach a callback of the client library

`RedisChannel` listens with one BRPOP at a time: the reply is handed to the callback, and only
then is the next BRPOP queued.  A pop is in one of three places:

    commands   queued by `sendMessage`
    waiting    executed by `async_cb`
    replies    answered, on the way to `onInput`

When the connection breaks, each pop is answered with an ERROR.  The next BRPOP is dropped where
the connection is not valid, and a reply where the broker is not running any more.

**Proved here.**  The callback gets the messages in the order of the pushes, and each at most
once; they are all delivered or still on the way exactly if no message is thrown away
(`messages_iff`).  A channel with no pop left is deaf until a callback is registered again, also
when the connection is back (`deaf_until_registered`).
-/
import Urb.Basis.Exec

namespace Urb

open List

inductive PopReply where
  | message (m : String)
  | nil | error
  deriving DecidableEq

def PopReply.text : PopReply → List String
  | .message m => [m]
  | _ => []

/-- A channel of the client, with its list in Redis from the right end on; every list has the
oldest first. -/
structure ClientChannel where
  queue : List String := []
  running : Bool := true
  valid : Bool := true
  callback : Bool := false
  commands : ℕ := 0
  waiting : ℕ := 0
  replies : List PopReply := []
  inputs : List PopReply := []

namespace ClientChannel

inductive Event where
  | lpush (m : String)
  | registerInputCallback
  | async | answer | timeout | onInput
  | disconnect | setUrl | shutdown

/-- `sendMessage` of a BRPOP. -/
def sendPop (c : ClientChannel) : ClientChannel :=
  if c.valid then { c with commands := c.commands + 1 } else c

def async (c : ClientChannel) : ClientChannel :=
  if ¬c.running then c
  else if c.valid then { c with commands := 0, waiting := c.waiting + c.commands }
  else { c with commands := 0 }

def answer (c : ClientChannel) : ClientChannel :=
  match c.waiting, c.queue with
  | n + 1, m :: queue =>
    { c with queue := queue, waiting := n, replies := c.replies ++ [.message m] }
  | _, _ => c

def timeout (c : ClientChannel) : ClientChannel :=
  match c.waiting with
  | n + 1 => { c with waiting := n, replies := c.replies ++ [.nil] }
  | 0 => c

def onInput (c : ClientChannel) : ClientChannel :=
  match c.replies with
  | [] => c
  | r :: replies =>
    if c.running ∧ c.callback then
      { c with
        replies := replies
        inputs := if r = PopReply.nil then c.inputs else c.inputs ++ [r] }.sendPop
    else { c with replies := replies }

def disconnect (c : ClientChannel) : ClientChannel :=
  { c with valid := false, waiting := 0, replies := replicate (c.replies.length + c.waiting) .error }

def step (c : ClientChannel) : Event → ClientChannel
  | .lpush m => { c with queue := c.queue ++ [m] }
  | .registerInputCallback => { c with callback := true }.sendPop
  | .async => c.async
  | .answer => c.answer
  | .timeout => c.timeout
  | .onInput => c.onInput
  | .disconnect => c.disconnect
  | .setUrl => { c with running := true, valid := true }
  | .shutdown => { c with running := false }

/-- The messages that are delivered or on the way. -/
def messages (c : ClientChannel) : List String :=
  c.inputs.flatMap PopReply.text ++ (c.replies.flatMap PopReply.text ++ c.queue)

def Event.pushed : Event → List String
  | .lpush m => [m]
  | _ => []

/-- A message is thrown away. -/
def Loses (c : ClientChannel) : Event → Prop
  | .onInput => ¬(c.running ∧ c.callback) ∧ (c.replies.take 1).flatMap PopReply.text ≠ []
  | .disconnect => c.replies.flatMap PopReply.text ≠ []
  | _ => False

def pops (c : ClientChannel) : ℕ := c.commands + c.waiting + c.replies.length

lemma messages_sendPop (c : ClientChannel) : c.sendPop.messages = c.messages := by
  unfold sendPop
  split_ifs <;> rfl

/-- What a step makes of the messages: they are kept, in their order, exactly if none is lost. -/
def Keeps (c : ClientChannel) (e : Event) : Prop :=
  (c.step e).messages <+ c.messages ++ e.pushed ∧
    ((c.step e).messages.length = (c.messages ++ e.pushed).length ↔ ¬c.Loses e)

lemma keeps_step (c : ClientChannel) (e : Event) : c.Keeps e := by
  have same : ∀ {e}, ¬c.Loses e → (c.step e).messages = c.messages ++ e.pushed → c.Keeps e :=
    fun hl h => ⟨h ▸ .refl _, iff_of_true (congrArg length h) hl⟩
  cases e with
  | lpush m => exact same id (by simp [step, messages, Event.pushed])
  | registerInputCallback => exact same id ((messages_sendPop _).trans (append_nil _).symm)
  | async =>
    refine same id ?_
    simp only [step, async]
    split_ifs <;> simp [messages, Event.pushed]
  | answer =>
    refine same id ?_
    simp only [step, answer]
    split <;> simp [messages, Event.pushed, PopReply.text, *]
  | timeout =>
    refine same id ?_
    simp only [step, timeout]
    split <;> simp [messages, Event.pushed, PopReply.text]
  | onInput =>
    cases hr : c.replies with
    | nil => exact same (by simp [Loses, hr]) (by simp [step, onInput, hr, Event.pushed])
    | cons r replies =>
      by_cases hc : c.running ∧ c.callback
      · refine same (fun h => h.1 hc) ?_
        simp only [step, onInput, hr, if_pos hc, messages_sendPop]
        cases r <;> simp [messages, Event.pushed, PopReply.text, hr]
      · -- a reply that nobody takes: its message is lost
        simp [Keeps, step, onInput, hr, hc, messages, Event.pushed, Loses]
  | disconnect =>
    have hnone : (replicate (c.replies.length + c.waiting) PopReply.error).flatMap PopReply.text = [] := by
      simp [PopReply.text]
    simp only [Keeps, step, disconnect, messages, Event.pushed, Loses, hnone, append_nil, nil_append,
      not_not]
    refine ⟨(sublist_append_right _ _).append_left _, ?_⟩
    rw [← length_eq_zero_iff]
    simp only [length_append]
    omega
  | setUrl => exact same id (append_nil _).symm
  | shutdown => exact same id (append_nil _).symm

lemma pops_step (c : ClientChannel) {e : Event} (he : e ≠ .registerInputCallback) (h : c.pops = 0) :
    (c.step e).pops = 0 ∧ (c.step e).inputs = c.inputs := by
  cases e <;> grind [pops, step, async, answer, timeout, onInput, disconnect, sendPop]

/-! ## Whole runs -/

lemma messages_run (es : List Event) (c : ClientChannel) :
    (Machine.run step c es).messages <+ c.messages ++ es.flatMap Event.pushed ∧
      ((Machine.run step c es).messages.length = (c.messages ++ es.flatMap Event.pushed).length ↔
        Machine.Guarded step (fun c e => ¬c.Loses e) c es) := by
  induction es generalizing c with
  | nil => exact ⟨by simp [Machine.run_nil], iff_of_true (by simp [Machine.run_nil]) trivial⟩
  | cons e es ih =>
    obtain ⟨hsub, hlen⟩ := c.keeps_step e
    obtain ⟨hsubs, hlens⟩ := ih (c.step e)
    have hrest := hsub.append_right (es.flatMap Event.pushed)
    rw [Machine.run_cons, flatMap_cons, ← append_assoc]
    refine ⟨hsubs.trans hrest, ?_⟩
    have h₁ := hsubs.length_le
    have h₂ := hsub.length_le
    show _ ↔ ¬c.Loses e ∧ _
    rw [← hlen, ← hlens]
    simp only [length_append] at *
    omega

theorem messages_iff (es : List Event) : (Machine.run step {} es).messages <+ es.flatMap Event.pushed ∧
      ((Machine.run step {} es).messages = es.flatMap Event.pushed ↔
        Machine.Guarded step (fun c e => ¬c.Loses e) {} es) := by
  obtain ⟨hsub, hlen⟩ := messages_run es {}
  exact ⟨hsub, hsub.length_eq.symm.trans hlen⟩

theorem deaf_until_registered {c : ClientChannel} (hpops : c.pops = 0) {es : List Event}
    (hes : Event.registerInputCallback ∉ es) : (Machine.run step c es).inputs = c.inputs := by
  induction es generalizing c with
  | nil => rfl
  | cons e es ih =>
    obtain ⟨he, hrest⟩ := not_or.mp (mt mem_cons.mpr hes)
    obtain ⟨hzero, hsame⟩ := c.pops_step (Ne.symm he) hpops
    exact (ih hzero hrest).trans hsame

theorem deaf_afterDisconnect :
    (Machine.run step {} [.registerInputCallback, .async, .disconnect, .onInput, .setUrl, .lpush "m",
      .async, .answer, .onInput]).inputs = [.error] :=
  @deaf_until_registered (Machine.run step {} [.registerInputCallback, .async, .disconnect, .onInput])
    rfl [.setUrl, .lpush "m", .async, .answer, .onInput] (by simp)

end ClientChannel

end Urb
