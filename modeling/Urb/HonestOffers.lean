/-
# `Urb.HonestOffers` — what the offers of registered slaves advertise

`__build_offer` makes no offer for a slave that has no cpus, mem or disk left.
It tests the amounts as they are and advertises their whole parts, so that a
slave with half a cpu is offered with zero cpus.

`Account` is the service with what is left of every slave's last offer.  A framework
that stays within its offers keeps this budget, and so every amount, from going below
zero; when it asks for whole numbers the amounts stay whole too, and a whole amount that
is not zero is advertised as it is (`offers_honest`).
-/
import Urb.Solvency

namespace Urb

open Block List AList Slave

/-! ## Honest offers -/

structure Offer.Honest (o : Offer) (slave : Slave) : Prop where
  advertised : ∀ name ∈ basicScalars, ∃ r ∈ o.resources, r.name = name
  positive : ∀ r ∈ o.resources, r.name ∈ basicScalars → ∃ v ∈ r.scalar, 0 < v
  within : ∀ r ∈ o.resources, ∀ v ∈ r.scalar, ∃ a ∈ slave.amount r.name, v ≤ a

instance (o : Offer) (slave : Slave) : Decidable (o.Honest slave) :=
  decidable_of_iff
    ((∀ name ∈ basicScalars, ∃ r ∈ o.resources, r.name = name) ∧
      (∀ r ∈ o.resources, r.name ∈ basicScalars → ∃ v ∈ r.scalar, 0 < v) ∧
      ∀ r ∈ o.resources, ∀ v ∈ r.scalar, ∃ a ∈ slave.amount r.name, v ≤ a)
    ⟨fun ⟨a, b, c⟩ => ⟨a, b, c⟩, fun ⟨a, b, c⟩ => ⟨a, b, c⟩⟩

/-! ## Whole parts -/

lemma toInt_nonneg {q : ℚ} (h : 0 ≤ q) : 0 ≤ toInt q := by
  rw [toInt, if_neg h.not_gt]
  exact Rat.le_floor_iff.mpr h

lemma toInt_le {q : ℚ} (h : 0 ≤ q) : (toInt q : ℚ) ≤ q := by
  rw [toInt, if_neg h.not_gt]
  exact Rat.floor_le q

lemma toInt_of_whole {q : ℚ} (h : q.den = 1) : (toInt q : ℚ) = q := by
  obtain ⟨n, rfl⟩ : ∃ n : ℤ, (n : ℚ) = q := ⟨q.num, Rat.coe_int_num_of_den_eq_one h⟩
  unfold toInt
  split_ifs
  · rw [Rat.ceil_intCast]
  · rw [Rat.floor_intCast]

/-! ## The account -/

def Budget.Nonneg (left : Budget) : Prop := ∀ sid, ∀ name ∈ knownScalars, 0 ≤ left sid name

def Budget.Affords (left : Budget) (target : TaskInfo → Option String) (ts : List TaskInfo) : Prop :=
  ∀ t ∈ ts, ∀ sid ∈ target t, ∀ name ∈ knownScalars, charges target ts sid name ≤ left sid name

instance (left : Budget) (target : TaskInfo → Option String) (ts : List TaskInfo) :
    Decidable (left.Affords target ts) :=
  inferInstanceAs (Decidable (∀ t ∈ ts, ∀ sid ∈ target t, ∀ name ∈ knownScalars, _))

lemma Budget.Nonneg.spend {left : Budget} (h : left.Nonneg) {target : TaskInfo → Option String}
    {ts : List TaskInfo} (hafford : left.Affords target ts) : (left - charges target ts).Nonneg := by
  intro sid name hname
  by_cases hex : ∃ t ∈ ts, target t = some sid
  · obtain ⟨t, ht, hsid⟩ := hex
    exact sub_nonneg.mpr (hafford t ht sid hsid name hname)
  · have hzero : charges target ts sid name = 0 := by
      rw [charges, Pi.list_sum_apply, Pi.list_sum_apply, map_map, map_map]
      refine sum_eq_zero fun x hx => ?_
      obtain ⟨t, ht, rfl⟩ := mem_map.mp hx
      exact if_neg fun hsid => hex ⟨t, ht, hsid⟩
    rw [Pi.sub_apply, Pi.sub_apply, hzero, sub_zero]
    exact h sid name hname

def Budget.renew (now : ℚ) (s : Service) (left : Budget) : Budget := fun sid name =>
  match s.slaveDict.lookup sid with
  | none => left sid name
  | some slave =>
    if slave.isOfferable now && slave.hasResources then toInt ((slave.amount name).getD 0)
    else left sid name

structure Account where
  service : Service
  left : Budget

namespace Account

def start (a : Account) (reg : RunnerRegistration) : Budget :=
  Function.update a.left reg.slaveId a.service.config.stock

def settle (a : Account) : Event → Budget
  | .generateOffers now => if a.service.active then a.left.renew now a.service else a.left
  | .launchTasks _ _ req =>
    if a.service.active then a.left - charges a.service.target req.infos else a.left
  | .registerExecutorRunner reg =>
    if a.service.active then
      a.start reg - charges (fun _ => some reg.slaveId) (reg.takenOver a.service)
    else a.left
  | .reregisterExecutor reg =>
    if a.service.active then
      a.left - charges (fun _ => a.service.slaveOn reg.replyTo) reg.tasks
    else a.left
  | _ => a.left

def step (a : Account) (e : Event) : Account := { service := Urb.step a.service e, left := a.settle e }

def fresh (config : Config) (frameworkId hostname : String) (http : Bool) : Account :=
  { service := .fresh config frameworkId hostname http, left := 0 }

def Within (a : Account) : Event → Prop
  | .launchTasks _ _ req => a.service.active = true →
      (∀ t ∈ req.infos, t.Positive) ∧ a.left.Affords a.service.target req.infos
  | .registerExecutorRunner reg => a.service.active = true →
      (∀ t ∈ reg.tasks, t.Positive) ∧
        (a.start reg).Affords (fun _ => some reg.slaveId) (reg.takenOver a.service)
  | .reregisterExecutor reg => a.service.active = true → ∀ t ∈ reg.tasks, t.Positive
  | _ => True

def Even (a : Account) : Event → Prop
  | .launchTasks _ _ req => a.service.active = true → ∀ t ∈ req.infos, t.Whole
  | .registerExecutorRunner reg => a.service.active = true → ∀ t ∈ reg.tasks, t.Whole
  | .reregisterExecutor reg => a.service.active = true →
      (∀ t ∈ reg.tasks, t.Whole) ∧ a.left.Affords (fun _ => a.service.slaveOn reg.replyTo) reg.tasks
  | _ => True

instance (a : Account) : DecidablePred a.Within
  | .launchTasks _ _ req => inferInstanceAs (Decidable (a.service.active = true →
      (∀ t ∈ req.infos, t.Positive) ∧ a.left.Affords a.service.target req.infos))
  | .registerExecutorRunner reg => inferInstanceAs (Decidable (a.service.active = true →
      (∀ t ∈ reg.tasks, t.Positive) ∧
        (a.start reg).Affords (fun _ => some reg.slaveId) (reg.takenOver a.service)))
  | .reregisterExecutor reg =>
    inferInstanceAs (Decidable (a.service.active = true → ∀ t ∈ reg.tasks, t.Positive))
  | .generateOffers _ | .killTask _ _ | .statusUpdate _ _ | .reconcileTasks _ _ _ | .reviveOffers
  | .registerExecutor _ | .deleteJob _ | .unregisterFramework _ | .otherRequest =>
    inferInstanceAs (Decidable True)

instance (a : Account) : DecidablePred a.Even
  | .launchTasks _ _ req =>
    inferInstanceAs (Decidable (a.service.active = true → ∀ t ∈ req.infos, t.Whole))
  | .registerExecutorRunner reg =>
    inferInstanceAs (Decidable (a.service.active = true → ∀ t ∈ reg.tasks, t.Whole))
  | .reregisterExecutor reg => inferInstanceAs (Decidable (a.service.active = true →
      (∀ t ∈ reg.tasks, t.Whole) ∧ a.left.Affords (fun _ => a.service.slaveOn reg.replyTo) reg.tasks))
  | .generateOffers _ | .killTask _ _ | .statusUpdate _ _ | .reconcileTasks _ _ _ | .reviveOffers
  | .registerExecutor _ | .deleteJob _ | .unregisterFramework _ | .otherRequest =>
    inferInstanceAs (Decidable True)

end Account

/-! ## Runs -/

lemma Slave.Covers.nonneg {left : String → ℚ} {slave : Slave} (h : slave.Covers left) {name : String}
    (hname : name ∈ knownScalars) (hleft : 0 ≤ left name) {v : ℚ} (hv : v ∈ slave.amount name) :
    0 ≤ v := hleft.trans (h.amounts name hname v hv)

lemma Solvent.renew {left : Budget} {s : Service} (h : Solvent left s) (hleft : left.Nonneg)
    (now : ℚ) : Solvent (left.renew now s) s := by
  refine ⟨h.toWellKept, fun sid slave hs => ?_⟩
  obtain ⟨hcovers, hplace⟩ := h.slaves sid slave hs
  refine ⟨⟨fun name hname v hv => ?_, hcovers.whole, hcovers.custom⟩, hplace⟩
  simp only [Budget.renew, Option.mem_def.mp hs, Option.mem_def.mp hv, getD_some]
  split_ifs
  · exact toInt_le (hcovers.nonneg hname (hleft sid name hname) hv)
  · exact hcovers.amounts name hname v hv

lemma Budget.Nonneg.renew {left : Budget} {s : Service} (hleft : left.Nonneg) (h : Solvent left s)
    (now : ℚ) : (left.renew now s).Nonneg := by
  intro sid name hname
  unfold Budget.renew
  split
  · exact hleft sid name hname
  · next slave hs =>
      split_ifs
      · refine Int.cast_nonneg (toInt_nonneg ?_)
        cases hv : slave.amount name with
        | none => exact le_rfl
        | some v => exact (h.slaves sid slave hs).1.nonneg hname (hleft sid name hname) hv
      · exact hleft sid name hname

structure Account.InOrder (a : Account) : Prop where
  solvent : Solvent a.left a.service
  nonneg : a.left.Nonneg

namespace Account.InOrder

variable {a : Account}

lemma fresh {config : Config} (h : config.Sound) (frameworkId hostname : String) (http : Bool) :
    (Account.fresh config frameworkId hostname http).InOrder :=
  ⟨⟨⟨h, fun _ _ hr => absurd hr (not_mem_none _)⟩,
    fun _ _ hs => absurd hs (not_mem_none _)⟩, fun _ _ _ => le_rfl⟩

lemma whenActive (h : Solvent a.left a.service) {left' : Budget} {handler : Block Service}
    (hactive : a.service.active → Solvent left' (handler a.service).1) :
    Solvent (if a.service.active then left' else a.left) (whenActive handler a.service) := by
  unfold Urb.whenActive
  split_ifs with ha
  · exact hactive ha
  · exact h.send _

lemma both {ts : List TaskInfo} (hpos : ∀ t ∈ ts, t.Positive) (hwhole : ∀ t ∈ ts, t.Whole) :
    ∀ t ∈ ts, t.Positive ∧ t.Whole := fun t ht => ⟨hpos t ht, hwhole t ht⟩

lemma start (h : a.InOrder) (reg : RunnerRegistration) : (a.start reg).Nonneg := by
  intro sid name hname
  unfold Account.start
  by_cases hsid : sid = reg.slaveId
  · rw [hsid, Function.update_self, Config.stock]
    cases hv : a.service.config.initial name with
    | none => exact le_rfl
    | some v => exact h.solvent.config.nonneg name hname v hv
  · rw [Function.update_of_ne hsid]
    exact h.nonneg sid name hname

lemma solvent_step (h : a.InOrder) {e : Event} (hwithin : a.Within e) (heven : a.Even e) :
    Solvent (a.settle e) (Urb.step a.service e) := by
  have hs := h.solvent
  cases e with
  | generateOffers now =>
    simp only [Urb.step, settle]
    split_ifs
    · exact (hs.renew h.nonneg now).generateOffers now
    · exact hs
  | launchTasks native now req =>
    exact (whenActive hs fun ha =>
      hs.launchTasks (both (hwithin ha).1 (heven ha)) now).finish native
  | killTask native tid =>
    have hkill := whenActive hs fun _ => hs.killTask tid
    rw [ite_self] at hkill
    exact hkill.finish native
  | statusUpdate native u =>
    have hupdate := whenActive hs fun _ => hs.handleStatusUpdate u
    rw [ite_self] at hupdate
    exact hupdate.finish native
  | reconcileTasks native now req =>
    have hreconcile := whenActive hs fun _ => hs.reconcileTasks now (!native) req
    rw [ite_self] at hreconcile
    exact hreconcile.finish native
  | reviveOffers =>
    simp only [Urb.step, settle]
    split_ifs
    · exact hs.reviveOffers.postprocess
    · exact hs.postprocess
  | registerExecutorRunner reg =>
    simp only [Urb.step, settle]
    split_ifs with ha
    · exact (hs.registerExecutorRunner (both (hwithin ha).1 (heven ha))).postprocess
    · exact (hs.send _).postprocess
  | registerExecutor reg =>
    simp only [Urb.step, settle]
    split_ifs
    · exact (hs.registerExecutor reg).postprocess
    · exact hs.postprocess
  | reregisterExecutor reg =>
    simp only [Urb.step, settle]
    split_ifs with ha
    · exact (hs.reregisterExecutor (both (hwithin ha) (heven ha).1)).postprocess
    · exact hs.postprocess
  | deleteJob job => exact hs.deleteJob job
  | unregisterFramework native =>
    simp only [Urb.step, settle]
    split_ifs
    · exact hs.deleteFramework.finish native
    · exact hs.finish native
  | otherRequest => exact hs.postprocess

lemma nonneg_step (h : a.InOrder) {e : Event} (hwithin : a.Within e) (heven : a.Even e) :
    (a.settle e).Nonneg := by
  have hn := h.nonneg
  cases e with
  | generateOffers now =>
    simp only [settle]
    split_ifs
    · exact hn.renew h.solvent now
    · exact hn
  | launchTasks native now req =>
    simp only [settle]
    split_ifs with ha
    · exact hn.spend (hwithin ha).2
    · exact hn
  | registerExecutorRunner reg =>
    simp only [settle]
    split_ifs with ha
    · exact (h.start reg).spend (hwithin ha).2
    · exact hn
  | reregisterExecutor reg =>
    simp only [settle]
    split_ifs with ha
    · exact hn.spend (heven ha).2
    · exact hn
  | killTask _ _ | statusUpdate _ _ | reconcileTasks _ _ _ | reviveOffers | registerExecutor _
  | deleteJob _ | unregisterFramework _ | otherRequest => exact hn

lemma step (h : a.InOrder) {e : Event} (he : a.Within e ∧ a.Even e) : (a.step e).InOrder :=
  ⟨h.solvent_step he.1 he.2, h.nonneg_step he.1 he.2⟩

end Account.InOrder

/-! ## The offers of a round -/

lemma mem_buildResources {slave : Slave} {r : Resource} (h : r ∈ buildResources slave) :
    (∃ name ∈ knownScalars, ∃ a ∈ slave.amount name, r = scalarResource name (toInt a)) ∨
      r = rangesResource "ports" slave.ports ∨
      ∃ name, ∃ c ∈ slave.customResources.lookup name, r = customResource name c := by
  unfold buildResources at h
  rw [mem_append, mem_append] at h
  rcases h with (h | h) | h
  · simp only [mem_cons, not_mem_nil, or_false] at h
    rcases h with h | h | h | h
    · exact .inl ⟨"cpus", by decide, slave.cpus, rfl, h⟩
    · exact .inl ⟨"mem", by decide, slave.mem, rfl, h⟩
    · exact .inl ⟨"disk", by decide, slave.disk, rfl, h⟩
    · exact .inr (.inl h)
  · cases hg : slave.gpus with
    | none => simp [hg] at h
    | some g =>
      rw [hg, map_some] at h
      dsimp only at h
      split_ifs at h
      · cases h
      · exact .inl ⟨"gpus", by decide, g, hg, mem_singleton.mp h⟩
  · obtain ⟨e, he, rfl⟩ := mem_map.mp h
    exact .inr (.inr ⟨e.1, e.2, mem_lookup_iff.mpr he, rfl⟩)

lemma Slave.ne_zero_of_hasResources {slave : Slave} (h : slave.hasResources) {name : String}
    (hname : name ∈ basicScalars) {a : ℚ} (ha : a ∈ slave.amount name) : a ≠ 0 := by
  simp only [hasResources, Bool.not_eq_true', Bool.or_eq_false_iff, decide_eq_false_iff_not] at h
  simp only [basicScalars, mem_cons, not_mem_nil, or_false] at hname
  rcases hname with rfl | rfl | rfl <;> cases ha
  · exact h.1.1
  · exact h.1.2
  · exact h.2

lemma basicScalars_subset : basicScalars ⊆ knownScalars := by decide

lemma Slave.Covers.honest {left : String → ℚ} {slave : Slave} {o : Offer} (h : slave.Covers left)
    (hleft : ∀ name ∈ knownScalars, 0 ≤ left name) (hres : slave.hasResources)
    (ho : o.resources = buildResources slave) : o.Honest slave := by
  refine ⟨?_, fun r hr hname => ?_, fun r hr v hv => ?_⟩
  · rw [ho]
    simp [basicScalars, buildResources, scalarResource]
  · rw [ho] at hr
    rcases mem_buildResources hr with ⟨name, hknown, a, ha, rfl⟩ | rfl | ⟨name, c, hc, rfl⟩
    · refine ⟨_, rfl, ?_⟩
      rw [toInt_of_whole (h.whole name hname a ha)]
      exact lt_of_le_of_ne (h.nonneg hknown (hleft name hknown) ha)
        (ne_zero_of_hasResources hres hname ha).symm
    · exact absurd hname (show "ports" ∉ basicScalars by decide)
    · have hcustom : (customResource name c).name = name := by cases c <;> rfl
      rw [hcustom] at hname
      exact absurd (mem_of_lookup hc) (h.custom name (basicScalars_subset hname))
  · rw [ho] at hr
    rcases mem_buildResources hr with ⟨name, hknown, a, ha, rfl⟩ | rfl | ⟨name, c, hc, rfl⟩
    · cases hv
      exact ⟨a, ha, toInt_le (h.nonneg hknown (hleft name hknown) ha)⟩
    · cases hv
    · have hunknown : name ∉ knownScalars := fun hknown =>
        h.custom name hknown (mem_of_lookup hc)
      simp only [knownScalars, mem_cons, not_mem_nil, or_false, not_or] at hunknown
      obtain ⟨h₁, h₂, h₃, h₄⟩ := hunknown
      cases c with
      | scalar w =>
        cases hv
        refine ⟨v, ?_, le_rfl⟩
        show slave.amount name = some v
        simp only [amount, if_neg h₁, if_neg h₂, if_neg h₃, if_neg h₄, Option.mem_def.mp hc]
      | ranges l => cases hv

def MadeOf (s : Service) (o : Offer) : Prop :=
  isPlaceholder o.slaveId = true ∨ ∃ slave ∈ s.slaveDict.lookup o.slaveId,
    slave.hasResources = true ∧ o.resources = buildResources slave

structure RoundOf (s : Service) (r : OfferRound) : Prop where
  slaves : ∀ sid, ∀ slave ∈ r.service.slaveDict.lookup sid,
    ∃ old ∈ s.slaveDict.lookup sid, slave = old ∨ slave.offerable = false
  offers : ∀ o ∈ r.offers, MadeOf s o

lemma RoundOf.offerFromSlave {s : Service} {r : OfferRound} (h : RoundOf s r)
    (hids : ∀ sid ∈ s.slaveDict, isPlaceholder sid = false) (now : ℚ) (sid : String) :
    RoundOf s (offerFromSlave now r sid) := by
  unfold Urb.offerFromSlave
  split
  · exact h
  · next slave hslave =>
      obtain ⟨old, hold, hsame⟩ := h.slaves sid slave hslave
      split_ifs with hoff hres
      · have hslave' : slave = old := by
          refine hsame.resolve_right fun hfalse => ?_
          simp [isOfferable, hfalse] at hoff
        refine ⟨fun k sl hsl => ?_, fun o ho => ?_⟩
        · rcases lookup_modify_cases hsl with ⟨rfl, sl', hsl', rfl⟩ | ⟨-, hsl⟩
          · exact ⟨old, hold, .inr rfl⟩
          · exact h.slaves k sl hsl
        · rcases mem_append.mp ho with ho | ho
          · exact h.offers o ho
          · rw [mem_singleton] at ho
            rw [ho, MadeOf, makeOffer_slaveId (hids sid (mem_of_lookup hold))]
            exact .inr ⟨old, hold, hslave' ▸ hres, hslave' ▸ rfl⟩
      · exact h
      · exact ⟨h.slaves, h.offers⟩

lemma mem_offerRound {now : ℚ} {s : Service} (hids : ∀ sid ∈ s.slaveDict, isPlaceholder sid = false)
    {o : Offer} (ho : o ∈ (offerRound now s).offers) : MadeOf s o := by
  have hround : RoundOf s (offerRound now s) := by
    refine offerRound_inv ⟨fun sid sl hsl => ⟨sl, hsl, .inl rfl⟩, nofun⟩
      (fun sid r hr => hr.offerFromSlave hids now sid) (fun _ _ hr => ⟨hr.slaves, hr.offers⟩)
      (fun r hr => ⟨hr.slaves, fun o ho => ?_⟩)
    rcases mem_append.mp ho with ho | ho
    · exact hr.offers o ho
    · rw [mem_singleton] at ho
      rw [ho]
      exact .inl (isPlaceholder_append (isPlaceholder_append (by decide) _) _)
  exact hround.offers o ho

/-! ## The theorem -/

lemma Account.service_run (es : List Event) (a : Account) :
    (Machine.run Account.step a es).service = runFrom a.service es := by
  induction es generalizing a with
  | nil => rfl
  | cons e es ih =>
    rw [Machine.run_cons]
    exact ih (a.step e)

theorem offers_honest {config : Config} (hconfig : config.Sound) {frameworkId hostname : String}
    {http : Bool} {es : List Event}
    (h : Machine.Guarded Account.step (fun a e => a.Within e ∧ a.Even e)
      (Account.fresh config frameworkId hostname http) es) (now : ℚ) :
    ∀ o ∈ (offerRound now (runFrom (Service.fresh config frameworkId hostname http) es)).offers,
      ∀ slave ∈ (runFrom (Service.fresh config frameworkId hostname http) es).slaveDict.lookup
        o.slaveId, o.Honest slave := by
  have horder : (Machine.run Account.step (Account.fresh config frameworkId hostname http) es).InOrder :=
    Machine.run_inv (fun _ _ ha he => ha.step he)
      (Account.InOrder.fresh hconfig frameworkId hostname http) h
  have hrun := Account.service_run es (Account.fresh config frameworkId hostname http)
  have hsolvent := hrun ▸ horder.solvent
  have hids : ∀ sid ∈ (runFrom (Service.fresh config frameworkId hostname http) es).slaveDict,
      isPlaceholder sid = false := by
    intro sid hsid
    obtain ⟨slave, hslave⟩ := AList.exists_lookup_of_mem hsid
    exact (hsolvent.slaves sid slave hslave).2
  intro o ho slave hslave
  obtain ⟨hcovers, hplace⟩ := hsolvent.slaves o.slaveId slave hslave
  rcases mem_offerRound hids ho with hp | ⟨old, hold, hres, hmade⟩
  · rw [hplace] at hp
    cases hp
  · cases (Option.mem_def.mp hold).symm.trans hslave
    exact hcovers.honest (horder.nonneg o.slaveId) hres hmade

def cpusTask (q : ℚ) : TaskInfo :=
  { oneCpuTask "a" (slaveOf "7" "c7") with
      resources := some [{ name := "cpus", type := .scalar, scalar := some q }] }

def takesCpus (q : ℚ) : List Event :=
  [runnerUp "7" "c7", .generateOffers 1, launchOf [offerId "fw" 1] [cpusTask q]]

theorem offers_honest_whole :
    smallConfig.Sound ∧
      Machine.Guarded Account.step (fun a e => a.Within e ∧ a.Even e)
        (Account.fresh smallConfig "fw" "host" false) (takesCpus 3) ∧
      (offerRound 2 (runFrom smallService (takesCpus 3))).offers ≠ [] ∧
      ∀ o ∈ (offerRound 2 (runFrom smallService (takesCpus 3))).offers,
        ∀ slave ∈ (runFrom smallService (takesCpus 3)).slaveDict.lookup o.slaveId, o.Honest slave :=
  ⟨by decide +kernel, by decide +kernel, by decide +kernel,
    offers_honest (by decide +kernel) (by decide +kernel) 2⟩

theorem offers_honest_half :
    Machine.Guarded Account.step Account.Within (Account.fresh smallConfig "fw" "host" false)
        (takesCpus (7 / 2)) ∧
      ∃ o ∈ (offerRound 2 (runFrom smallService (takesCpus (7 / 2)))).offers,
        ∃ slave ∈ (runFrom smallService (takesCpus (7 / 2))).slaveDict.lookup o.slaveId,
          ¬ o.Honest slave := by
  decide +kernel

end Urb
