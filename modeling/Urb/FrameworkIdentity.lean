/-
# `Urb.FrameworkIdentity` — under which id a framework is registered

A scheduler registers its framework in one of three ways

    RegisterFrameworkMessage      native; the first message of a driver, also of one that was
                                  started with the id of an existing framework (`failover_`)
    ReregisterFrameworkMessage    native; every later one
    SUBSCRIBE                     over HTTP

and all three come to `process_registration`, which takes the framework's id as an
argument.  Only `reregister_framework` passes the id in the message; the other two
pass `None`, and a new id is made from the endpoint of the sender, or for an HTTP
scheduler from a new UUID.

The UUID, the name lookup of the host and the reading of the configuration are
parameters; the latter two may raise.

**Proved here.**  A request that carries an id is answered with it, and the
framework is kept, if the request is a re-registration or the id is the one that
would be made for it, and in no other case (`framework_identity_iff`).
-/
import Urb.Service
import Urb.Tracker

namespace Urb

/-! ## Names of endpoints -/

def getEndpointId (uuid : String) : Option String → Option String
  | none => some uuid
  | some channelName =>
    if channelName = "" then some uuid
    else if startsWith channelName "urb.endpoint." then
      -- the third of the parts between the dots
      some (String.ofList ((channelName.toList.drop 13).takeWhile (· ≠ '.')))
    else none

def getNotifyChannelName (replyTo endpointId : Option String) : Option String :=
  replyTo <|> endpointId.map (fun e => "urb.endpoint." ++ e ++ ".notify")

/-! ## The records -/

structure FrameworkInfo where
  name : String
  id : Option String := none

structure MasterInfo where
  id : String
  ip : String
  port : ℕ
  hostname : String

/-- A framework as the tracker has it. -/
structure FrameworkRecord where
  name : String
  service : Service
  endpointId : Option String
  channelName : Option String
  masterInfo : MasterInfo
  extData : Dict String String
  offerEvent : Bool := false

/-- A registration as it comes over a channel. -/
structure RegistrationRequest where
  sourceId : Option String
  replyTo : Option String := none
  messageId : Option String := none
  framework : FrameworkInfo
  extPayload : Option (Dict String String) := some ∅

def RegistrationRequest.http (r : RegistrationRequest) : Bool := r.sourceId.getD "" = ""

structure Response where
  frameworkId : String
  masterInfo : MasterInfo

structure Registration where
  response : Response
  sentTo : Option (Option String)

structure RegistrationEnv where
  schedulerHttpPort : ℕ
  serviceHostname : String
  brokerPort : ℕ
  brokerHost : String
  getHostByName : String → Option String
  configure : String → Dict String String → Option Config

def RegistrationEnv.masterInfo (env : RegistrationEnv) (http : Bool) : Option MasterInfo :=
  let port := if http then env.schedulerHttpPort else env.brokerPort
  let host := if http then env.serviceHostname else env.brokerHost
  (env.getHostByName host).map fun ip =>
    { id := "master-" ++ host, ip := ip, port := port, hostname := host }

/-! ## The registry -/

structure Registry where
  tracker : FrameworkTracker FrameworkRecord := {}
  requestFrameworkIds : Dict String String := ∅
  monitored : Dict (Option String) String := ∅
  offerLoops : List String := []
  filed : ∀ id f, tracker.get id = some f → f.service.frameworkId = id

namespace Registry

def store (f : FrameworkRecord) (s : Registry) : Registry :=
  { s with
    tracker := s.tracker.add f.service.frameworkId f
    filed := by
      intro id g hg
      by_cases hid : id = f.service.frameworkId
      · subst hid
        rw [FrameworkTracker.get, FrameworkTracker.add, AList.lookup_insert] at hg
        cases hg
        rfl
      · rw [FrameworkTracker.get, FrameworkTracker.add, AList.lookup_insert_ne hid] at hg
        exact s.filed id g hg }

def resolve (env : RegistrationEnv) (config : Config) (masterInfo : MasterInfo)
    (r : RegistrationRequest) (id : String) (s : Registry) : FrameworkRecord :=
  (s.tracker.get id).getD
    { name := r.framework.name
      service := Service.fresh config id env.serviceHostname false
      endpointId := none
      channelName := none
      masterInfo := masterInfo
      extData := ∅ }

def nameFor (r : RegistrationRequest) (id : String) (s : Registry) : String :=
  ((s.tracker.get id).map (·.name)).getD r.framework.name

def extDataFor (r : RegistrationRequest) (id : String) (s : Registry) : Dict String String :=
  (r.extPayload.getD ∅).entries.foldl (fun d e => d.insert e.1 e.2)
    (((s.tracker.get id).map (·.extData)).getD ∅)

def update (r : RegistrationRequest) (endpointId : Option String) (masterInfo : MasterInfo)
    (id : String) (s : Registry) (f : FrameworkRecord) : FrameworkRecord :=
  { f with
    extData := s.extDataFor r id
    endpointId := endpointId
    service := { f.service with frameworkId := id, http := f.service.http || r.http }
    channelName := getNotifyChannelName r.replyTo endpointId
    masterInfo := masterInfo }

def updateTracked (r : RegistrationRequest) (endpointId : Option String) (masterInfo : MasterInfo)
    (id : String) (s : Registry) : Registry :=
  (s.tracker.get id).elim s (fun f => s.store (s.update r endpointId masterInfo id f))

end Registry

open Registry in
def processRegistration (env : RegistrationEnv) (uuid : String) (r : RegistrationRequest)
    (frameworkId : Option String) (s : Registry) : Registry × Option Registration :=
  let endpointId := getEndpointId uuid r.sourceId
  match frameworkId <|> endpointId.map ("framework-" ++ ·), env.masterInfo r.http with
  | some id, some masterInfo =>
    match env.configure (s.nameFor r id) (s.extDataFor r id) with
    | none => (s.updateTracked r endpointId masterInfo id, none)
    | some config =>
      let f := s.update r endpointId masterInfo id (s.resolve env config masterInfo r id)
      let f := { f with service := { f.service with config := config }, offerEvent := true }
      let s' := s.store f
      ({ s' with
          requestFrameworkIds :=
            r.messageId.elim s'.requestFrameworkIds (s'.requestFrameworkIds.insert · id)
          monitored := if r.http then s'.monitored else s'.monitored.insert f.channelName id
          offerLoops :=
            if r.http || (s.resolve env config masterInfo r id).offerEvent then s'.offerLoops
            else id :: s'.offerLoops },
        some
          { response := { frameworkId := id, masterInfo := masterInfo }
            sentTo := if r.http then none else some f.channelName })
  | _, _ => (s, none)

/-! ## The three ways in -/

inductive RegistrationCall where
  | register (r : RegistrationRequest)
  | reregister (r : RegistrationRequest)
  | subscribe (messageId : String) (framework : FrameworkInfo)

namespace RegistrationCall

def registerFramework (env : RegistrationEnv) (uuid : String) (r : RegistrationRequest) (s : Registry) :
    Registry × Option Registration :=
  processRegistration env uuid r none s

def reregisterFramework (env : RegistrationEnv) (uuid : String) (r : RegistrationRequest)
    (s : Registry) : Registry × Option Registration :=
  match r.framework.id with
  | none => (s, none)
  | some id => processRegistration env uuid r (some id) s

def subscribeRequest (messageId : String) (framework : FrameworkInfo) : RegistrationRequest :=
  { sourceId := none, replyTo := some "http", messageId := some messageId, framework := framework }

def httpSubscribe (env : RegistrationEnv) (uuid messageId : String) (framework : FrameworkInfo)
    (s : Registry) : Registry × Option Registration :=
  processRegistration env uuid (subscribeRequest messageId framework) none s

def request : RegistrationCall → RegistrationRequest
  | .register r => r
  | .reregister r => r
  | .subscribe messageId framework => subscribeRequest messageId framework

def run (env : RegistrationEnv) (uuid : String) (s : Registry) :
    RegistrationCall → Registry × Option Registration
  | .register r => registerFramework env uuid r s
  | .reregister r => reregisterFramework env uuid r s
  | .subscribe messageId framework => httpSubscribe env uuid messageId framework s

def answer (result : Registry × Option Registration) : RegistrationCall → Option Response
  | .subscribe _ _ => result.2.map (·.response)
  | _ => result.2.bind (fun x => if x.sentTo.isSome then some x.response else none)

end RegistrationCall

def driverCall (failover : Bool) (r : RegistrationRequest) : RegistrationCall :=
  if r.framework.id.getD "" = "" ∨ failover then .register r else .reregister r

def failoverAtStart (framework : FrameworkInfo) : Bool := framework.id.getD "" ≠ ""

lemma driverCall_atStart (r : RegistrationRequest) :
    driverCall (failoverAtStart r.framework) r = .register r := by
  rw [driverCall, if_pos]
  by_cases h : r.framework.id.getD "" = ""
  · exact .inl h
  · exact .inr (by simp [failoverAtStart, h])

/-! ## What a registration does -/

structure Ready (env : RegistrationEnv) (r : RegistrationRequest) (id : String) (s : Registry) : Prop where
  host : env.masterInfo r.http ≠ none
  config : env.configure (s.nameFor r id) (s.extDataFor r id) ≠ none

def registeredId (uuid : String) (r : RegistrationRequest) (frameworkId : Option String) :
    Option String :=
  frameworkId <|> (getEndpointId uuid r.sourceId).map ("framework-" ++ ·)

variable {env : RegistrationEnv} {uuid id : String} {r : RegistrationRequest}
  {frameworkId : Option String} {s : Registry}

lemma processRegistration_of_ready (hid : registeredId uuid r frameworkId = some id)
    (hready : Ready env r id s) :
    ∃ f x, (processRegistration env uuid r frameworkId s).2 = some x ∧ x.response.frameworkId = id ∧
      x.sentTo.isSome = !r.http ∧ f.service.frameworkId = id ∧
      (processRegistration env uuid r frameworkId s).1.tracker = s.tracker.add id f ∧
      ∀ g, s.tracker.get id = some g → ∃ config http,
        f.service = { g.service with frameworkId := id, http := http, config := config } := by
  obtain ⟨masterInfo, hmaster⟩ := ne_none_iff_exists'.mp hready.host
  obtain ⟨config, hconfig⟩ := ne_none_iff_exists'.mp hready.config
  simp only [registeredId] at hid
  simp only [processRegistration, hid, hmaster, hconfig]
  refine ⟨_, _, rfl, rfl, ?_, rfl, rfl, ?_⟩
  · cases r.http <;> rfl
  · intro g hg
    simp only [Registry.update, Registry.resolve, hg, getD_some]
    exact ⟨config, _, rfl⟩

lemma ready_of_processRegistration {x : Registration}
    (h : (processRegistration env uuid r frameworkId s).2 = some x) :
    registeredId uuid r frameworkId = some x.response.frameworkId ∧
      Ready env r x.response.frameworkId s ∧ x.sentTo.isSome = !r.http := by
  cases hid : registeredId uuid r frameworkId with
  | none =>
    simp only [registeredId] at hid
    simp only [processRegistration, hid] at h
    cases h
  | some id =>
    have hid' := hid
    simp only [registeredId] at hid
    cases hmaster : env.masterInfo r.http with
    | none =>
      simp only [processRegistration, hid, hmaster] at h
      cases h
    | some masterInfo =>
      cases hconfig : env.configure (s.nameFor r id) (s.extDataFor r id) with
      | none =>
        simp only [processRegistration, hid, hmaster, hconfig] at h
        cases h
      | some config =>
        have hready : Ready env r id s := ⟨by simp [hmaster], by simp [hconfig]⟩
        obtain ⟨f, y, hy, hyid, hsent, -⟩ := processRegistration_of_ready hid' hready
        cases hy.symm.trans h
        rw [hyid]
        exact ⟨rfl, hready, hsent⟩

/-! ## Identity -/

structure Identified (before after : Registry) (answer : Option Response) (id : String) : Prop where
  answered : ∃ x, answer = some x ∧ x.frameworkId = id
  tracked : ∃ f, after.tracker.get id = some f ∧
    ∀ k g, after.tracker.get k = some g → g.service.frameworkId = id → k = id ∧ g = f
  kept : ∀ f, before.tracker.get id = some f → ∃ g, after.tracker.get id = some g ∧
    g.service.slaveDict = f.service.slaveDict ∧ g.service.taskDict = f.service.taskDict ∧
    g.service.jobIds = f.service.jobIds

namespace RegistrationCall

def Names (uuid id : String) : RegistrationCall → Prop
  | .register r => r.http = false ∧ ∃ e, getEndpointId uuid r.sourceId = some e ∧ id = "framework-" ++ e
  | .reregister r => r.http = false
  | .subscribe _ _ => id = "framework-" ++ uuid

def passes : RegistrationCall → Option String
  | .register _ => none
  | .reregister r => r.framework.id
  | .subscribe _ _ => none

lemma run_eq {call : RegistrationCall} (hcall : call.request.framework.id = some id) :
    call.run env uuid s = processRegistration env uuid call.request call.passes s := by
  cases call with
  | register r => rfl
  | subscribe messageId framework => rfl
  | reregister r =>
    change r.framework.id = some id at hcall
    simp only [run, reregisterFramework, hcall, passes, request]

lemma names_iff {call : RegistrationCall} (hcall : call.request.framework.id = some id) :
    call.Names uuid id ↔ registeredId uuid call.request call.passes = some id ∧
      (call.request.http = false ∨ ∃ messageId framework, call = .subscribe messageId framework) := by
  cases call with
  | register r =>
    have hmade : registeredId uuid r none = some id ↔
        ∃ e, getEndpointId uuid r.sourceId = some e ∧ id = "framework-" ++ e := by
      change (getEndpointId uuid r.sourceId).map _ = some id ↔ _
      rw [map_eq_some_iff]
      exact ⟨fun ⟨e, he, h⟩ => ⟨e, he, h.symm⟩, fun ⟨e, he, h⟩ => ⟨e, he, h.symm⟩⟩
    simp only [Names, request, passes, hmade, reduceCtorEq, exists_false, or_false]
    exact and_comm
  | reregister r =>
    change r.framework.id = some id at hcall
    simp [Names, request, passes, registeredId, hcall]
  | subscribe messageId framework =>
    have hmade : registeredId uuid (subscribeRequest messageId framework) none =
        some ("framework-" ++ uuid) := rfl
    simp only [Names, request, passes, hmade, Option.some.injEq]
    exact ⟨fun h => ⟨h.symm, .inr ⟨_, _, rfl⟩⟩, fun h => h.1.symm⟩

lemma answer_eq_some_iff {call : RegistrationCall} {result : Registry × Option Registration}
    {x : Response} : call.answer result = some x ↔ ∃ y, result.2 = some y ∧ y.response = x ∧
      (y.sentTo.isSome ∨ ∃ messageId framework, call = .subscribe messageId framework) := by
  cases call with
  | subscribe messageId framework =>
    simp only [answer, map_eq_some_iff]
    exact ⟨fun ⟨y, hy, hx⟩ => ⟨y, hy, hx, .inr ⟨_, _, rfl⟩⟩, fun ⟨y, hy, hx, _⟩ => ⟨y, hy, hx⟩⟩
  | register r => simp [answer, bind_eq_some_iff, and_comm]
  | reregister r => simp [answer, bind_eq_some_iff, and_comm]

end RegistrationCall

theorem framework_identity_iff (env : RegistrationEnv) (uuid id : String) (s : Registry)
    (call : RegistrationCall) (hcall : call.request.framework.id = some id) :
    Identified s (call.run env uuid s).1 (call.answer (call.run env uuid s)) id ↔
      call.Names uuid id ∧ Ready env call.request id s := by
  rw [RegistrationCall.run_eq hcall, RegistrationCall.names_iff hcall]
  constructor
  · intro h
    obtain ⟨x, hx, hxid⟩ := h.answered
    obtain ⟨y, hy, rfl, hsent⟩ := RegistrationCall.answer_eq_some_iff.mp hx
    obtain ⟨hid, hready, hhttp⟩ := ready_of_processRegistration hy
    rw [hxid] at hid hready
    refine ⟨⟨hid, ?_⟩, hready⟩
    rcases hsent with hsent | hsub
    · exact .inl (by simpa [hsent] using hhttp)
    · exact .inr hsub
  · rintro ⟨⟨hid, hway⟩, hready⟩
    obtain ⟨f, x, hx, hxid, hsent, hfid, htracker, hkept⟩ := processRegistration_of_ready hid hready
    have hget : (processRegistration env uuid call.request call.passes s).1.tracker.get id = some f := by
      rw [htracker]
      exact AList.lookup_insert _
    refine ⟨⟨x.response, ?_, hxid⟩, ⟨f, hget, ?_⟩, ?_⟩
    · refine RegistrationCall.answer_eq_some_iff.mpr ⟨x, hx, rfl, ?_⟩
      rcases hway with hway | hsub
      · exact .inl (by rw [hsent, hway]; rfl)
      · exact .inr hsub
    · intro k g hg hgid
      have hk : k = id := (Registry.filed _ k g hg).symm.trans hgid
      subst hk
      exact ⟨rfl, Option.some.inj (hg.symm.trans hget)⟩
    · intro g hg
      obtain ⟨config, http, hservice⟩ := hkept g hg
      exact ⟨f, hget, by rw [hservice], by rw [hservice], by rw [hservice]⟩

/-! ## A scheduler that comes back -/

def localService : RegistrationEnv where
  schedulerHttpPort := 5060
  serviceHostname := "localhost"
  brokerPort := 6379
  brokerHost := "localhost"
  getHostByName := fun _ => some "127.0.0.1"
  configure := fun _ _ =>
    some { maxTasks := 1, maxRejectedOffers := 1, cpus := 1, mem := 1, disk := 1, ports := [] }

def Registry.empty : Registry where
  filed := fun id f h => by cases h

def comesBack : RegistrationRequest :=
  { sourceId := some "urb.endpoint.9.notify", framework := { name := "sleep", id := some "framework-7" } }

def registeredBefore : Registry :=
  (processRegistration localService "" { comesBack with sourceId := some "urb.endpoint.7.notify" } none
    .empty).1

theorem framework_identity_reregistered :
    registeredBefore.tracker.active.keys = ["framework-7"] ∧
      Identified registeredBefore
        ((RegistrationCall.reregister comesBack).run localService "" registeredBefore).1
        ((RegistrationCall.reregister comesBack).answer
          ((RegistrationCall.reregister comesBack).run localService "" registeredBefore)) "framework-7" :=
  ⟨by decide +kernel,
    (framework_identity_iff localService "" "framework-7" registeredBefore (.reregister comesBack) rfl).mpr
      ⟨show comesBack.http = false by decide,
        ⟨by simp [RegistrationEnv.masterInfo, localService], by simp [localService]⟩⟩⟩

theorem framework_identity_lost :
    driverCall (failoverAtStart comesBack.framework) comesBack = .register comesBack ∧
      (∀ call ∈ [RegistrationCall.register comesBack, .subscribe "m" comesBack.framework],
        call.request.framework.id = some "framework-7" ∧
        ¬ Identified registeredBefore (call.run localService "1234" registeredBefore).1
          (call.answer (call.run localService "1234" registeredBefore)) "framework-7") ∧
      ((RegistrationCall.register comesBack).run localService "1234" registeredBefore).1.tracker.active.keys =
        ["framework-9", "framework-7"] ∧
      ((RegistrationCall.subscribe "m" comesBack.framework).run localService "1234"
        registeredBefore).1.tracker.active.keys = ["framework-1234", "framework-7"] := by
  refine ⟨driverCall_atStart comesBack, ?_, by decide +kernel, by decide +kernel⟩
  intro call hcall
  have hanswer : call.request.framework.id = some "framework-7" ∧
      ((call.answer (call.run localService "1234" registeredBefore)).map (·.frameworkId) =
        some "framework-9" ∨
      (call.answer (call.run localService "1234" registeredBefore)).map (·.frameworkId) =
        some "framework-1234") := by
    rcases List.mem_cons.mp hcall with rfl | hcall
    · exact ⟨rfl, .inl (by decide +kernel)⟩
    · rcases List.mem_singleton.mp hcall with rfl
      exact ⟨rfl, .inr (by decide +kernel)⟩
  refine ⟨hanswer.1, ?_⟩
  rintro ⟨⟨x, hx, hid⟩, -, -⟩
  simp [hx, hid] at hanswer

end Urb
