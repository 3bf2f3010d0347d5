/-
# `Urb.Offers` — offer rounds, refusals and revived offers

`__generate_offers_for_framework` is one round of the offer loop.  It builds
an offer for every slave that is `offerable`, runs no command executor and is
past its refuse period; when that gives none, and no job is pending, it
offers dummy slaves named `place-holder`, which stand for jobs that would be
submitted if the framework took them.  All offers of a round go out in one
message.

`__process_remaining_offers` is what `launch_tasks` does with the offers of a
message that no task used:

    offer's slave     slave has tasks   refuse_seconds   offer deleted   slave afterwards
    placeholder       —                 > 0              no              —
    placeholder       —                 no               yes             —
    unknown           —                 —                no              —
    registered        yes               —                yes             not offerable
    registered        no                > 0              no              offerable after it
    registered        no                no               yes             offerable after 1 s

`revive_offers` makes every slave offerable at once.
-/
import Mathlib.Data.List.Dedup
import Urb.Resources

namespace Urb

open Block

/-! ## Building an offer -/

def toInt (q : ℚ) : ℤ := if q < 0 then q.ceil else q.floor

def scalarResource (name : String) (v : ℚ) : Resource :=
  { name := name, type := .scalar, scalar := some v }

def rangesResource (name : String) (l : List (ℤ × ℤ)) : Resource :=
  { name := name, type := .ranges, ranges := some (PortRangeUtility.tupleToPortRangeList l) }

def customResource (name : String) : CustomResource → Resource
  | .scalar v => scalarResource name v
  | .ranges l => rangesResource name l

def buildResources (slave : Slave) : List Resource :=
  [scalarResource "cpus" (toInt slave.cpus), scalarResource "mem" (toInt slave.mem),
    scalarResource "disk" (toInt slave.disk), rangesResource "ports" slave.ports] ++
  (match slave.gpus.map toInt with
    | none => []
    | some n => if n = 0 then [] else [scalarResource "gpus" n]) ++
  slave.customResources.entries.map (fun e => customResource e.1 e.2)

def Slave.hasResources (slave : Slave) : Bool :=
  !(decide (slave.cpus = 0) || decide (slave.mem = 0) || decide (slave.disk = 0))

namespace Service

def makeOffer (s : Service) (sid : String) (slave : Slave) : Offer :=
  let n := s.lastOfferId + 1
  { id := offerId s.frameworkId n
    slaveId := if isPlaceholder sid then sid ++ "-" ++ n.repr else sid
    hostname :=
      if isPlaceholder sid && !s.http then slave.hostname ++ "-" ++ n.repr else slave.hostname
    resources := buildResources slave }

@[simps] def storeOffer (o : Offer) (s : Service) : Service :=
  { s with lastOfferId := s.lastOfferId + 1, offers := s.offers.insert o.id o }

end Service

lemma makeOffer_slaveId {sid : String} (h : isPlaceholder sid = false) (s : Service)
    (slave : Slave) : (s.makeOffer sid slave).slaveId = sid := by
  simp only [Service.makeOffer, h, Bool.false_eq_true, if_false]

/-! ## An offer round -/

structure OfferRound where
  service : Service
  offers : List Offer := []
  offerableAfterForPlaceholder : ℚ := 0

def Slave.isOfferable (now : ℚ) (slave : Slave) : Bool :=
  slave.offerable && !slave.isCommandExecutor && decide (now > slave.offerableAfter)

def Slave.markOffered (o : Offer) (slave : Slave) : Slave :=
  { slave with offer := some o, offerable := false }

def offerFromSlave (now : ℚ) (r : OfferRound) (sid : String) : OfferRound :=
  match r.service.slaveDict.lookup sid with
  | none => r
  | some slave =>
    if slave.isOfferable now then
      if slave.hasResources then
        let o := r.service.makeOffer sid slave
        { r with service := (r.service.storeOffer o).modifySlave sid (Slave.markOffered o)
                 offers := r.offers ++ [o] }
      else r
    else { r with offerableAfterForPlaceholder :=
                    max r.offerableAfterForPlaceholder slave.offerableAfter }

def offerPlaceholder (r : OfferRound) : OfferRound :=
  let hostname := if r.service.http then r.service.serviceHostname else "place-holder"
  let dummySlave := initializeSlaveResources r.service.config hostname ""
  let o := r.service.makeOffer "place-holder" dummySlave
  { r with service := r.service.storeOffer o, offers := r.offers ++ [o] }

def adjustPlaceholderTimer (r : OfferRound) : OfferRound :=
  if r.offerableAfterForPlaceholder ≠ 0 ∧
      r.offerableAfterForPlaceholder < r.service.placeholderOfferableAfter then
    { r with service :=
              { r.service with placeholderOfferableAfter := r.offerableAfterForPlaceholder } }
  else r

def offerPlaceholders (now : ℚ) (slaves : ℕ) (r : OfferRound) : OfferRound :=
  if r.offers = [] ∧ (slaves : ℤ) < r.service.config.maxTasks ∧
      ((r.service.jobIds.getD []).length : ℤ) - slaves ≤ 0 then
    let r := adjustPlaceholderTimer r
    if r.service.placeholderOfferableAfter < now then
      offerPlaceholder^[r.service.config.initialTasks.toNat] r
    else r
  else r

def offerRound (now : ℚ) (s : Service) : OfferRound :=
  let slaves := s.slaveDict.keys
  offerPlaceholders now slaves.length
    (slaves.foldl (offerFromSlave now) { service := { s with nextOfferTime := 0 } })

def generateOffers (now : ℚ) (s : Service) : Service :=
  let r := offerRound now s
  if r.offers = [] then r.service else r.service.send (.resourceOffers r.offers)

/-! ## Giving a slave up -/

def deleteSlave (sid : String) (slave : Slave) (s : Service) : Service :=
  let s := (s.addDeleteElement (.slave sid)).modifySlave sid (fun sl => { sl with offerable := false })
  match slave.placeholder with
  | none => s
  | some p => { s with placeholderToSlave := s.placeholderToSlave.erase p }

/-! ## Refused offers -/

def frameworkOfferMinWait : ℚ := 1

def refusePeriod (refuseSeconds : Option ℚ) : Option ℚ := refuseSeconds.filter (fun r => 0 < r)

def earliest (t : ℚ) : Option ℚ → Option ℚ
  | none => some t
  | some r => if r = 0 ∨ t < r then some t else some r

/-- The locals of `__process_remaining_offers`. -/
structure Refusal where
  service : Service
  reofferTime : Option ℚ := none

def refusePlaceholder (now : ℚ) (refuse : Option ℚ) (oid : String) (r : Refusal) : Refusal :=
  match refuse with
  | some period =>
    { service := { r.service with placeholderOfferableAfter := now + period }
      reofferTime := earliest (now + period) r.reofferTime }
  | none => { r with service := r.service.addDeleteElement (.offer oid) }

def Slave.refused (after : ℚ) (slave : Slave) : Slave :=
  { slave with offerable := true, refusedCount := slave.refusedCount + 1, offerableAfter := after }

def refuseSlave (now : ℚ) (refuse : Option ℚ) (oid sid : String) (slave : Slave) (r : Refusal) :
    Refusal :=
  if slave.taskCount > 0 then
    { r with service := (r.service.addDeleteElement (.offer oid)).modifySlave sid
                          (fun sl => { sl with offerable := false }) }
  else
    let after := now + refuse.getD frameworkOfferMinWait
    let s := r.service.modifySlave sid (Slave.refused after)
    let s := match refuse with
      | some _ => s
      | none => s.addDeleteElement (.offer oid)
    { reofferTime := earliest after r.reofferTime
      service :=
        if slave.refusedCount + 1 > s.config.maxRejectedOffers then
          deleteSlave sid slave (s.send (.slaveShutdown slave.channel))
        else s }

def refuseOffer (now : ℚ) (refuse : Option ℚ) (r : Refusal) (oid : String) : Refusal :=
  match r.service.offers.lookup oid with
  | none => r
  | some o =>
    match r.service.slaveDict.lookup o.slaveId with
    | none => if isPlaceholder o.slaveId then refusePlaceholder now refuse oid r else r
    | some slave => refuseSlave now refuse oid o.slaveId slave r

def processRemainingOffers (now : ℚ) (refuseSeconds : Option ℚ) (remaining : List String)
    (s : Service) : Service :=
  let r := remaining.foldl (refuseOffer now (refusePeriod refuseSeconds)) { service := s }
  match r.reofferTime with
  | none => r.service
  | some t => if t = 0 then r.service else { r.service with nextOfferTime := t + 1 / 4 }

/-! ## Revived offers -/

def reviveOffers (s : Service) : Service :=
  { s with slaveDict := s.slaveDict.mapVals
             (fun _ sl => { sl with offerable := true, offerableAfter := 0 })
           placeholderOfferableAfter := 0 }

end Urb
