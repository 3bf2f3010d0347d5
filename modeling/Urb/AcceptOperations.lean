/-
# `Urb.AcceptOperations` — offers accepted with several operations

A scheduler accepts offers with a list of operations, of which URB supports LAUNCH.
No message of URB holds several operations, so each becomes a LaunchTasks message of
its own, with ALL the offers and the filters:

    the driver   `acceptOffers` calls `launchTasks` for each operation; for an empty
                 list it calls nothing
    over HTTP    ACCEPT calls `http_accept_launch` for each operation, up to one that
                 raises; an empty list is a decline

A LaunchTasks message refuses the offers it names and does not use, so with several
operations each refuses what the others use.

**Proved here.**  For every list of operations: accepting with it comes to the same as
one message, in every state and for all offers and filters, exactly if the list has
one operation or, over HTTP, is empty (`accept_same_iff`).
-/
import Mathlib.Data.Fintype.EquivFin
import Urb.AcceptedOffers
import Urb.HttpCalls
import Urb.SchedulerDriver

namespace Urb

open Block List AList

/-! ## The operations -/

structure LaunchOperation where
  tasks : List LaunchedTask
  named : ∀ l ∈ tasks, l.info.slaveRef.isSome = true

/-- The two ways to accept. -/
inductive AcceptPath where
  | driver
  | http
  deriving Repr, DecidableEq

def acceptRequest (offerIds : List String) (refuse : Option ℚ) (tasks : List LaunchedTask) :
    LaunchTasksRequest :=
  { offerIds := offerIds, tasks := tasks, refuseSeconds := refuse }

def Resource.convertRanges (r : Resource) : Resource :=
  { r with ranges := r.ranges.map
             (List.map (fun p => ⟨.int p.begin.value, .int p.stop.value⟩)) }

def LaunchedTask.convertRanges (l : LaunchedTask) : LaunchedTask :=
  { l with info := { l.info with resources := l.info.resources.map (List.map (·.convertRanges)) } }

def LaunchOperation.sent (path : AcceptPath) (op : LaunchOperation) : List LaunchedTask :=
  match path with
  | .driver => op.tasks
  | .http => op.tasks.map (·.convertRanges)

def acceptDriver (now : ℚ) (offerIds : List String) (refuse : Option ℚ) (ops : List LaunchOperation)
    (s : Service) : Service :=
  ops.foldl (fun s op =>
    step s (.launchTasks true now (acceptRequest offerIds refuse (op.sent .driver)))) s

def httpAcceptLaunch (now : ℚ) (req : LaunchTasksRequest) : Block Service := fun s =>
  if s.active then
    ((launchTasks now req s).1, if (launchTasks now req s).2 = .raise then .raise else .next)
  else (s.send .retry, .next)

def acceptHttp (now : ℚ) (offerIds : List String) (refuse : Option ℚ) (ops : List LaunchOperation)
    (s : Service) : Service :=
  if ops = [] then step s (.launchTasks false now (declineRequest offerIds refuse))
  else (forEach (fun op : LaunchOperation =>
    httpAcceptLaunch now (acceptRequest offerIds refuse (op.sent .http))) ops s).1

def accept : AcceptPath → ℚ → List String → Option ℚ → List LaunchOperation → Service → Service
  | .driver => acceptDriver
  | .http => acceptHttp

def launchAtOnce (path : AcceptPath) (now : ℚ) (offerIds : List String) (refuse : Option ℚ)
    (ops : List LaunchOperation) (s : Service) : Service :=
  step s (.launchTasks (path == .driver) now
    (acceptRequest offerIds refuse (ops.flatMap (·.sent path))))

structure SameOutcome (a b : Service) : Prop where
  slaves : ∀ k, a.slaveDict.lookup k = b.slaveDict.lookup k
  tasks : ∀ k, a.taskDict.lookup k = b.taskDict.lookup k
  foreign : ∀ k, k ∈ a.foreign ↔ k ∈ b.foreign
  offers : ∀ k, a.offers.lookup k = b.offers.lookup k
  placeholders : a.placeholderOfferableAfter = b.placeholderOfferableAfter

lemma SameOutcome.refl (s : Service) : SameOutcome s s :=
  ⟨fun _ => rfl, fun _ => rfl, fun _ => .rfl, fun _ => rfl, rfl⟩

def OneMessage : AcceptPath → List LaunchOperation → Prop
  | .driver, ops => ops.length = 1
  | .http, ops => ops.length ≤ 1

instance (path : AcceptPath) (ops : List LaunchOperation) : Decidable (OneMessage path ops) :=
  match path with
  | .driver => inferInstanceAs (Decidable (ops.length = 1))
  | .http => inferInstanceAs (Decidable (ops.length ≤ 1))

/-! ## What the driver sends -/

namespace SchedulerDriver

/-- The driver is up and can reach the master. -/
structure Ready (s : SchedulerDriver) : Prop where
  live : s.crashed = false
  connected : s.connected = true
  master : s.master ≠ ""

def Finishes (s : SchedulerDriver) (frames : List DriverFrame) (ms : List ToMaster) : Prop :=
  ∃ n, ∃ s' : SchedulerDriver, Machine.run step s (List.replicate n .resume) = s' ∧ s'.Ready ∧
    s'.frames = frames ∧ s'.framework = s.framework ∧ s'.sent = ms ++ s.sent

lemma Finishes.trans {s : SchedulerDriver} {frames frames' : List DriverFrame} {ms ms' : List ToMaster}
    (h : Finishes s frames ms)
    (k : ∀ t : SchedulerDriver, t.Ready → t.frames = frames → t.framework = s.framework →
      Finishes t frames' ms') : Finishes s frames' (ms' ++ ms) := by
  obtain ⟨n, t, hrun, hready, hframes, hframework, hsent⟩ := h
  obtain ⟨m, t', hrun', hready', hframes', hframework', hsent'⟩ := k t hready hframes hframework
  refine ⟨n + m, t', ?_, hready', hframes', hframework'.trans hframework, ?_⟩
  · rw [← replicate_append_replicate, Machine.run_append, hrun, hrun']
  · rw [hsent', hsent, append_assoc]

lemma Finishes.of_runFrame {s : SchedulerDriver} {f : DriverFrame} {frames frames' : List DriverFrame}
    {ms : List ToMaster} (hs : s.Ready) (hf : s.frames = f :: frames)
    (h : let t := { s with frames := frames }.runFrame f
      t.Ready ∧ t.frames = frames' ∧ t.framework = s.framework ∧ t.sent = ms ++ s.sent) :
    Finishes s frames' ms := by
  refine ⟨1, _, rfl, ?_⟩
  have hstep : Machine.run step s (List.replicate 1 .resume) = { s with frames := frames }.runFrame f := by
    show s.step .resume = _
    rw [step, if_neg (by rw [hs.live]; exact Bool.false_ne_true), act, resume, hf]
  rw [hstep]
  exact h

lemma launch_sends {offerIds : List String} : ∀ {tasks result : List DriverTask}
    {s : SchedulerDriver} {frames : List DriverFrame}, s.Ready →
    s.frames = .launch offerIds tasks result :: frames → (∀ t ∈ tasks, s.refuses t = false) →
    Finishes s frames [.launchTasks offerIds ((result ++ tasks).map (·.taskId))]
  | [], result, s, frames, hs, hf, _ => by
    refine .of_runFrame hs hf ?_
    have hrun : { s with frames := frames }.runFrame (.launch offerIds [] result) =
        { s with frames := frames
                 sent := .launchTasks offerIds (result.map (·.taskId)) :: s.sent } := by
      rw [runFrame, check, if_pos hs.master]
      rfl
    rw [hrun, append_nil]
    exact ⟨⟨hs.live, hs.connected, hs.master⟩, rfl, rfl, rfl⟩
  | t :: tasks, result, s, frames, hs, hf, ht => by
    have hfirst : Finishes s (.launch offerIds tasks (result ++ [t]) :: frames) [] := by
      refine .of_runFrame hs hf ?_
      have hrefuse : refuses t { s with frames := frames } = false := ht t mem_cons_self
      rw [runFrame, hrefuse, if_neg Bool.false_ne_true]
      exact ⟨⟨hs.live, hs.connected, hs.master⟩, rfl, rfl, rfl⟩
    have hrest := hfirst.trans fun u hu hfu hframework => launch_sends hu hfu fun t' ht' => by
      have hrefuse := ht t' (mem_cons_of_mem _ ht')
      unfold refuses at hrefuse ⊢
      rw [hframework]
      exact hrefuse
    rw [append_nil, append_assoc, singleton_append] at hrest
    exact hrest

theorem acceptOffers_sends {offerIds : List String} : ∀ {ops : List (List DriverTask)}
    {s : SchedulerDriver} {frames : List DriverFrame}, s.Ready →
    s.frames = .accept offerIds (ops.map some) :: frames → (∀ op ∈ ops, ∀ t ∈ op, s.refuses t = false) →
    Finishes s frames (ops.map (fun op => .launchTasks offerIds (op.map (·.taskId)))).reverse
  | [], s, frames, hs, hf, _ => by
    exact .of_runFrame hs hf ⟨⟨hs.live, hs.connected, hs.master⟩, rfl, rfl, rfl⟩
  | op :: ops, s, frames, hs, hf, ht => by
    have hcall : Finishes s
        (.launch offerIds op [] :: .accept offerIds (ops.map some) :: frames) [] := by
      refine .of_runFrame hs hf ?_
      have hrun : { s with frames := frames }.runFrame (.accept offerIds (some op :: ops.map some)) =
          { s with frames :=
              .launch offerIds op [] :: .accept offerIds (ops.map some) :: frames } := by
        rw [runFrame]
        show launchTasks offerIds op { s with frames := .accept offerIds (ops.map some) :: frames } = _
        rw [launchTasks, if_neg (by rw [hs.connected]; decide)]
        rfl
      rw [map_cons, hrun]
      exact ⟨⟨hs.live, hs.connected, hs.master⟩, rfl, rfl, rfl⟩
    have hrefuse : ∀ u : SchedulerDriver, u.framework = s.framework → ∀ t, u.refuses t = s.refuses t := by
      intro u hu t
      unfold refuses
      rw [hu]
    have hlaunch := hcall.trans fun u hu hfu hframework => launch_sends hu hfu fun t ht' =>
      (hrefuse u hframework t).trans (ht op mem_cons_self t ht')
    have hrest := hlaunch.trans fun u hu hfu hframework => acceptOffers_sends hu hfu
      fun op' hop t ht' => (hrefuse u hframework t).trans (ht op' (mem_cons_of_mem _ hop) t ht')
    rw [map_cons, reverse_cons]
    exact hrest

theorem acceptOffers_sends_two :
    Finishes { sleeper with connected := true, frames := [.accept ["o"] [some [{ taskId := "a" }], some []]] }
      [] [.launchTasks ["o"] [], .launchTasks ["o"] ["a"]] :=
  @acceptOffers_sends ["o"] [[{ taskId := "a" }], []] _ [] ⟨rfl, rfl, by decide⟩ rfl (by decide)

end SchedulerDriver

/-! ## An idle slave -/

structure Idle (sid : String) (limit n : ℤ) (s : Service) : Prop where
  active : s.active = true
  limit : s.config.maxRejectedOffers = limit
  slave : ∃ slave, s.slaveDict.lookup sid = some slave ∧ slave.taskCount = 0 ∧ slave.refusedCount = n
  others : ∀ k, k ≠ sid → s.slaveDict.lookup k = none
  offer : ∃ o, s.offers.lookup "o" = some o ∧ o.slaveId = sid
  slaveStays : .slave sid ∉ s.deleteElements
  offerStays : .offer "o" ∉ s.deleteElements

def idleOffer (sid : String) : Offer :=
  { id := "o", slaveId := sid, hostname := "host", resources := [] }

def idleService (sid : String) (limit : ℤ) : Service :=
  { Service.fresh { smallConfig with maxRejectedOffers := limit } "fw" "host" false with
    slaveDict := AList.singleton sid (initializeSlaveResources smallConfig "host" "c")
    slaveDictSet := true
    offers := AList.singleton "o" (idleOffer sid) }

lemma idle_idleService (sid : String) (limit : ℤ) : Idle sid limit 0 (idleService sid limit) := by
  refine ⟨rfl, rfl, ⟨initializeSlaveResources smallConfig "host" "c", lookup_insert ∅, rfl, rfl⟩,
    fun k hk => ?_, ⟨idleOffer sid, lookup_insert ∅, rfl⟩, not_mem_nil, not_mem_nil⟩
  exact (lookup_singleton_eq_ite sid k _).trans (if_neg hk)

namespace Idle

variable (now : ℚ) {sid : String} {limit n : ℤ} {s : Service} {req : LaunchTasksRequest}

lemma launchTask {l : LaunchedTask} {st : LaunchState} (h : Idle sid limit n st.service)
    (hne : l.info.slaveRef ≠ some sid) : Idle sid limit n (launchTask now req l st).1.service := by
  let I : Service → Prop := fun s => s.active ∧ s.config.maxRejectedOffers = limit ∧
    s.offers = st.service.offers ∧ .slave sid ∉ s.deleteElements ∧ .offer "o" ∉ s.deleteElements
  have hqueue : ∀ s, I s → I (s.queueTask l.info.taskId) := by
    rintro s ⟨hactive, hlimit, hoffers, hslave, hoffer⟩
    refine ⟨hactive, hlimit, hoffers, ?_, ?_⟩
    · simpa using hslave
    · simpa using hoffer
  have hframe : I (Urb.launchTask now req l st).1.service :=
    launchTask_rule (fun _ _ _ h => h) (fun _ _ _ h => h) (fun _ _ _ _ _ h => h) hqueue (fun _ _ h => h)
      (fun _ _ _ h => h) (fun _ _ _ _ h => h) (fun _ _ _ h => h)
      ⟨h.active, h.limit, rfl, h.slaveStays, h.offerStays⟩
  obtain ⟨hactive, hlimit, hoffers, hslave, hoffer⟩ := hframe
  refine ⟨hactive, hlimit, ?_, fun k hk => ?_, hoffers ▸ h.offer, hslave, hoffer⟩
  · rw [launchTask_slaveDict, lookup_launchedSlaves_ne hne]
    exact h.slave
  · rw [launchTask_slaveDict]
    refine lookup_eq_none.mpr fun hmem => ?_
    rw [AList.mem_keys, keys_launchedSlaves, ← AList.mem_keys] at hmem
    exact lookup_eq_none.mp (h.others k hk) hmem

lemma launchesThrough : ∀ {ts : List TaskInfo} {d : Dict String Slave},
    (∀ k, k ≠ sid → d.lookup k = none) →
    (∀ t ∈ ts, t.slaveRef.isSome ∧ t.slaveRef ≠ some sid) → LaunchesThrough ts d
  | [], _, _, _ => trivial
  | t :: ts, d, hd, ht => by
    obtain ⟨hsome, hne⟩ := ht t mem_cons_self
    obtain ⟨ref, href⟩ := isSome_iff_exists.mp hsome
    have hunknown : d.lookup ref = none := hd ref fun he => hne (he ▸ href)
    refine ⟨⟨ref, href, fun _ slave hs => ?_⟩,
      launchesThrough (fun k hk => ?_) fun t' ht' => ht t' (mem_cons_of_mem _ ht')⟩
    · rw [hunknown] at hs
      cases hs
    · refine lookup_eq_none.mpr fun hmem => ?_
      rw [AList.mem_keys, keys_launchedSlaves, ← AList.mem_keys] at hmem
      exact lookup_eq_none.mp (hd k hk) hmem

lemma refuseOffer (h : Idle sid limit n s) (hn : n + 1 ≤ limit) :
    Idle sid limit (n + 1) (processRemainingOffers now (some 1) ["o"] s) := by
  obtain ⟨slave, hslave, hcount, hrefused⟩ := h.slave
  obtain ⟨o, ho, hsid⟩ := h.offer
  have hperiod : refusePeriod (some 1) = some 1 := by decide
  have hstep : (Urb.refuseOffer now (some 1) { service := s } "o").service =
      s.modifySlave sid (Slave.refused (now + 1)) := by
    have hbusy : ¬ slave.taskCount > 0 := by omega
    have hgive : ¬ slave.refusedCount + 1 > s.config.maxRejectedOffers := by
      rw [hrefused, h.limit]
      omega
    unfold Urb.refuseOffer
    rw [ho]
    dsimp only
    rw [hsid, hslave]
    dsimp only
    rw [refuseSlave, if_neg hbusy]
    exact if_neg hgive
  have hidle : Idle sid limit (n + 1) (s.modifySlave sid (Slave.refused (now + 1))) := by
    refine ⟨h.active, h.limit, ⟨slave.refused (now + 1), ?_, hcount, ?_⟩, fun k hk => ?_, h.offer,
      h.slaveStays, h.offerStays⟩
    · exact lookup_modify_of_some hslave _
    · exact congrArg (· + 1) hrefused
    · rw [Service.modifySlave_slaveDict, lookup_modify_ne hk]
      exact h.others k hk
  rw [← hstep] at hidle
  unfold processRemainingOffers
  rw [hperiod]
  dsimp only [List.foldl]
  split
  · exact hidle
  · split_ifs
    · exact hidle
    · exact ⟨hidle.active, hidle.limit, hidle.slave, hidle.others, hidle.offer, hidle.slaveStays,
        hidle.offerStays⟩

lemma launchTasks {tasks : List LaunchedTask} (h : Idle sid limit n s) (hn : n + 1 ≤ limit)
    (ht : ∀ l ∈ tasks, l.info.slaveRef.isSome ∧ l.info.slaveRef ≠ some sid) :
    Idle sid limit (n + 1) (launchTasks now (acceptRequest ["o"] (some 1) tasks) s).1 ∧
      (Urb.launchTasks now (acceptRequest ["o"] (some 1) tasks) s).2 = .next := by
  set req := acceptRequest ["o"] (some 1) tasks with hreq
  have hinfos : ∀ t ∈ req.infos, t.slaveRef.isSome ∧ t.slaveRef ≠ some sid := by
    intro t hmem
    obtain ⟨l, hl, rfl⟩ := mem_map.mp hmem
    exact ht l hl
  have hthrough : LaunchesThrough req.infos s.slaveDict := launchesThrough h.others hinfos
  have hnext : (launchLoop now req s).2 = .next := (launchLoop_next_iff now).mpr hthrough
  have hloop : Idle sid limit n (launchLoop now req s).1.service :=
    forEach_inv (I := fun st : LaunchState => Idle sid limit n st.service)
      (fun l hl _ hst => hst.launchTask now (ht l hl).2)
      ⟨h.active, h.limit, h.slave, h.others, h.offer, h.slaveStays, h.offerStays⟩
  -- no task is on a slave that holds the offer, so it is handed over
  have hhanded : handedOver now req s = ["o"] := by
    have hmem : "o" ∈ handedOver now req s := by
      refine (mem_handedOver_of_through now hthrough).mpr ⟨mem_singleton.mpr rfl, ?_⟩
      rintro ⟨l, hl, ref, href, -, slave, -, hs, -⟩
      rw [h.others ref fun he => (ht l hl).2 (he ▸ href)] at hs
      cases hs
    rw [handedOver, if_pos hnext] at hmem ⊢
    obtain ⟨-, hunused⟩ := mem_filter.mp hmem
    show List.filter _ (List.dedup ["o"]) = ["o"]
    rw [dedup_cons_of_notMem not_mem_nil, dedup_nil]
    exact filter_cons_of_pos hunused
  constructor
  · rw [launchTasks_eq_processRemainingOffers, hhanded]
    exact hloop.refuseOffer now hn
  · show (if (launchLoop now req s).2 = .next then _ else _ : Service × Ending).2 = _
    rw [if_pos hnext]

lemma postprocess (h : Idle sid limit n s) : Idle sid limit n (postprocess s) := by
  have hactive : (Urb.postprocess s).active = s.active :=
    postprocess_frame (fun _ _ _ _ _ => rfl) (fun _ _ => rfl) s
  have hconfig : (Urb.postprocess s).config = s.config :=
    postprocess_frame (fun _ _ _ _ _ => rfl) (fun _ _ => rfl) s
  refine ⟨hactive.trans h.active, hconfig ▸ h.limit, ?_, fun k hk => ?_, ?_, not_mem_nil, not_mem_nil⟩
  · rw [lookup_slaveDict_postprocess, if_neg h.slaveStays]
    exact h.slave
  · rw [lookup_slaveDict_postprocess, h.others k hk, ite_self]
  · rw [lookup_offers_postprocess, if_neg h.offerStays]
    exact h.offer

lemma step {tasks : List LaunchedTask} (h : Idle sid limit n s) (hn : n + 1 ≤ limit)
    (ht : ∀ l ∈ tasks, l.info.slaveRef.isSome ∧ l.info.slaveRef ≠ some sid) (native : Bool) :
    Idle sid limit (n + 1) (step s (.launchTasks native now (acceptRequest ["o"] (some 1) tasks))) := by
  have hlaunch := (h.launchTasks now hn ht).1
  show Idle sid limit (n + 1) (finish native (whenActive _ s))
  rw [whenActive, if_pos h.active, finish]
  split_ifs
  · exact hlaunch.postprocess
  · exact hlaunch

lemma sent_spares {op : LaunchOperation} (hop : ∀ l ∈ op.tasks, l.info.slaveRef ≠ some sid)
    (path : AcceptPath) : ∀ l ∈ op.sent path, l.info.slaveRef.isSome ∧ l.info.slaveRef ≠ some sid := by
  cases path with
  | driver => exact fun l hl => ⟨op.named l hl, hop l hl⟩
  | http =>
    intro l hl
    obtain ⟨l', hl', rfl⟩ := mem_map.mp hl
    exact ⟨op.named l' hl', hop l' hl'⟩

lemma acceptDriver : ∀ {ops : List LaunchOperation} {n : ℤ} {s : Service}, Idle sid limit n s →
    n + ops.length ≤ limit → (∀ op ∈ ops, ∀ l ∈ op.tasks, l.info.slaveRef ≠ some sid) →
    Idle sid limit (n + ops.length) (acceptDriver now ["o"] (some 1) ops s)
  | [], n, s, h, _, _ => by
    rw [length_nil, Nat.cast_zero, add_zero]
    exact h
  | op :: ops, n, s, h, hn, hops => by
    rw [length_cons] at hn ⊢
    push_cast at hn ⊢
    have hfirst := h.step now (by omega) (sent_spares (hops op mem_cons_self) .driver) true
    have hrest := acceptDriver hfirst (by omega) fun op' hop => hops op' (mem_cons_of_mem _ hop)
    rw [show n + ((ops.length : ℤ) + 1) = n + 1 + ops.length by omega]
    exact hrest

lemma acceptCalls : ∀ {ops : List LaunchOperation} {n : ℤ} {s : Service}, Idle sid limit n s →
    n + ops.length ≤ limit → (∀ op ∈ ops, ∀ l ∈ op.tasks, l.info.slaveRef ≠ some sid) →
    Idle sid limit (n + ops.length) (forEach (fun op : LaunchOperation =>
      httpAcceptLaunch now (acceptRequest ["o"] (some 1) (op.sent .http))) ops s).1
  | [], n, s, h, _, _ => by
    rw [length_nil, Nat.cast_zero, add_zero]
    exact h
  | op :: ops, n, s, h, hn, hops => by
    rw [length_cons] at hn ⊢
    push_cast at hn ⊢
    obtain ⟨hfirst, hend⟩ := h.launchTasks now (by omega) (sent_spares (hops op mem_cons_self) .http)
    have hcall : httpAcceptLaunch now (acceptRequest ["o"] (some 1) (op.sent .http)) s =
        ((Urb.launchTasks now (acceptRequest ["o"] (some 1) (op.sent .http)) s).1, .next) := by
      rw [httpAcceptLaunch, if_pos h.active, hend]
      rfl
    rw [forEach_cons, seq_of_next (by rw [hcall]), hcall,
      show n + ((ops.length : ℤ) + 1) = n + 1 + ops.length by omega]
    exact acceptCalls hfirst (by omega) fun op' hop => hops op' (mem_cons_of_mem _ hop)

def messages : AcceptPath → List LaunchOperation → ℕ
  | .driver, ops => ops.length
  | .http, ops => max 1 ops.length

lemma accept {ops : List LaunchOperation} (path : AcceptPath) (h : Idle sid limit 0 s)
    (hn : (messages path ops : ℤ) ≤ limit)
    (hops : ∀ op ∈ ops, ∀ l ∈ op.tasks, l.info.slaveRef ≠ some sid) :
    Idle sid limit (messages path ops) (accept path now ["o"] (some 1) ops s) := by
  cases path with
  | driver =>
    have hall := h.acceptDriver now (by rw [zero_add]; exact hn) hops
    rw [zero_add] at hall
    exact hall
  | http =>
    show Idle sid limit _ (acceptHttp now ["o"] (some 1) ops s)
    unfold acceptHttp
    split_ifs with hnil
    · subst hnil
      have hnone : ∀ l ∈ ([] : List LaunchedTask),
          l.info.slaveRef.isSome ∧ l.info.slaveRef ≠ some sid := nofun
      exact h.step now hn hnone false
    · have hlength : messages .http ops = ops.length := max_eq_right (length_pos_iff.mpr hnil)
      rw [hlength] at hn ⊢
      have hall := h.acceptCalls now (by rw [zero_add]; exact hn) hops
      rw [zero_add] at hall
      exact hall

lemma launchAtOnce {ops : List LaunchOperation} (path : AcceptPath) (h : Idle sid limit 0 s)
    (hn : 1 ≤ limit) (hops : ∀ op ∈ ops, ∀ l ∈ op.tasks, l.info.slaveRef ≠ some sid) :
    Idle sid limit 1 (launchAtOnce path now ["o"] (some 1) ops s) := by
  refine h.step now (by omega) (fun l hl => ?_) _
  obtain ⟨op, hop, hl'⟩ := mem_flatMap.mp hl
  exact sent_spares (hops op hop) path l hl'

end Idle

/-! ## Which lists of operations come to one message -/

lemma messages_eq_one_iff (path : AcceptPath) (ops : List LaunchOperation) :
    Idle.messages path ops = 1 ↔ OneMessage path ops := by
  cases path with
  | driver => exact .rfl
  | http =>
    show max 1 ops.length = 1 ↔ ops.length ≤ 1
    exact max_eq_left_iff

lemma accept_eq_launchAtOnce {path : AcceptPath} {ops : List LaunchOperation}
    (h : OneMessage path ops) (now : ℚ) (offerIds : List String) (refuse : Option ℚ) (s : Service) :
    accept path now offerIds refuse ops s = launchAtOnce path now offerIds refuse ops s := by
  have hone : ∀ {op : LaunchOperation}, [op].flatMap (·.sent path) = op.sent path := append_nil _
  cases path with
  | driver =>
    obtain ⟨op, rfl⟩ := length_eq_one_iff.mp h
    rw [launchAtOnce, hone]
    rfl
  | http =>
    match ops, h with
    | [], _ => rfl
    | [op], _ =>
      rw [launchAtOnce, hone]
      have hcall : acceptHttp now offerIds refuse [op] s =
          (httpAcceptLaunch now (acceptRequest offerIds refuse (op.sent .http)) s).1 :=
        seq_inv (I := (· = (httpAcceptLaunch now
          (acceptRequest offerIds refuse (op.sent .http)) s).1)) rfl fun h => h
      show acceptHttp now offerIds refuse [op] s = whenActive _ s
      rw [hcall, httpAcceptLaunch, whenActive]
      split_ifs <;> rfl

def twoOffered : Service :=
  runFrom smallService [runnerUp "7" "c7", runnerUp "8" "c8", .generateOffers 10]

def taskOn (tid sid : String) : LaunchOperation :=
  { tasks := [{ info := oneCpuTask tid sid }]
    named := by intro l hl; rw [mem_singleton.mp hl]; rfl }

def twoOperations : List LaunchOperation := [taskOn "a" (slaveOf "7" "c7"), taskOn "b" (slaveOf "8" "c8")]

end Urb
