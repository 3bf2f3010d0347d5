/-
# `Urb.Election` — which service instance is the master

Several instances of the service may run against one Redis.  The master is the
instance whose server id is the value of the key `urb.master`, which has a time
to live of 60 s.  Every instance runs the loop of `MasterElector.elect`:

    GET                       the key is there: its value is the master
    SET NX EX                 it is not: try to become the master
    GET                       someone was faster: read who it is
    EXPIRE                    only when the answer was the own id
    wait                      15 s, or until the elector is stopped

An instance considers itself the master when the last answer is its own server id.
A shutdown sends EXPIRE with 0, which deletes the key, in every instance, master or not.

A Redis command, the arrival of its reply and the next command are separate steps
here.  A command may fail before the server has run it (`lost`) or after (`noReply`).

**Proved here.**  No two running instances consider themselves the master, and every
EXPIRE that finds the key is sent by the instance that holds it, in every run
that is `Timely`: server ids are not used twice, the key does not run out while
an instance relies on it, and an instance gives up only its own key
(`single_master`).
-/
import Mathlib.Data.List.Nodup
import Urb.Basis.Exec
import Urb.Basis.Redis

namespace Urb

open List Redis

/-! ## One instance -/

inductive ElectorPc where
  | top
  | get
  | set
  | reget
  | reply (master : Option String)
  | refresh
  | wait
  | exited
  deriving Repr, DecidableEq

/-- What becomes of a Redis command. -/
inductive CommandOutcome where
  | ok
  | lost
  | noReply
  deriving Repr, DecidableEq

def electorTtl : ℚ := 60

structure Instance where
  serverId : String
  serving : Bool := true
  releasing : Bool := false
  run : Bool := true
  masterBroker : Option String := none
  wereMaster : Bool := false
  promoted : Bool := false
  pc : ElectorPc := .top
  deriving Repr, DecidableEq

namespace Instance

def isMaster (x : Instance) : Bool := x.masterBroker = some x.serverId

def learn (master : Option String) (x : Instance) : Instance :=
  let x := { x with masterBroker := master }
  if x.isMaster then { x with pc := .refresh }
  else { x with promoted := x.promoted && !x.wereMaster, pc := .wait }

def elect (now : ℚ) (o : CommandOutcome) (key : Redis.Key String) (x : Instance) :
    Redis.Key String × Instance :=
  match x.pc with
  | .top =>
    (key, if x.run then { x with wereMaster := x.isMaster, pc := .get }
          else { x with pc := .exited })
  | .get =>
    (key, { x with pc :=
      if o = .ok then (Redis.get key).elim .set (fun v => .reply (some v)) else .wait })
  | .set =>
    let r := Redis.setNxEx x.serverId electorTtl now key
    (if o = .lost then key else r.2, { x with pc :=
      if o = .ok then (if r.1 then .reply (some x.serverId) else .reget) else .wait })
  | .reget => (key, { x with pc := if o = .ok then .reply (Redis.get key) else .wait })
  | .reply master => (key, x.learn master)
  | .refresh =>
    (if o = .lost then key else Redis.expire electorTtl now key,
      { x with promoted := x.promoted || !x.wereMaster, pc := .wait })
  | .wait => (key, { x with pc := .top })
  | .exited => (key, x)

def ConsidersMaster (x : Instance) : Prop := x.serving = true ∧ x.isMaster = true

def Relies (x : Instance) : Prop :=
  x.ConsidersMaster ∨ x.pc = .reply (some x.serverId) ∨ x.pc = .refresh

instance (x : Instance) : Decidable x.ConsidersMaster := by unfold ConsidersMaster; infer_instance

instance (x : Instance) : Decidable x.Relies := by unfold Relies; infer_instance

end Instance

/-! ## All instances -/

structure Election where
  now : ℚ := 0
  key : Redis.Key String := none
  instances : List Instance := []
  refreshes : List (String × String) := []

namespace Election

inductive Event where
  | start (serverId : String)
  | elect (i : ℕ) (o : CommandOutcome)
  | shutdown (i : ℕ)
  | release (i : ℕ) (o : CommandOutcome)
  | stop (i : ℕ)
  | crash (i : ℕ)
  | tick (t : ℚ)
  deriving DecidableEq

def noteOf (sender : String) (key : Redis.Key String) : List (String × String) :=
  ((Redis.get key).map (fun holder => (sender, holder))).toList

def modify (i : ℕ) (f : Instance → Instance) (s : Election) : Election :=
  match s.instances[i]? with
  | none => s
  | some x => { s with instances := s.instances.set i (f x) }

def electStep (i : ℕ) (x : Instance) (o : CommandOutcome) (s : Election) : Election :=
  let r := x.elect s.now o s.key
  { s with
    key := r.1
    instances := s.instances.set i r.2
    refreshes :=
      (if x.pc = .refresh ∧ o ≠ .lost then noteOf x.serverId s.key else []) ++ s.refreshes }

def releaseStep (i : ℕ) (x : Instance) (o : CommandOutcome) (s : Election) : Election :=
  if x.releasing then
    { s with
      key := if o = .lost then s.key else Redis.expire 0 s.now s.key
      instances := s.instances.set i { x with releasing := false }
      refreshes := (if o ≠ .lost then noteOf x.serverId s.key else []) ++ s.refreshes }
  else s

def step (s : Election) : Event → Election
  | .start serverId => { s with instances := s.instances ++ [{ serverId := serverId }] }
  | .elect i o => s.instances[i]?.elim s (fun x => electStep i x o s)
  | .shutdown i => s.modify i (fun x => { x with serving := false, releasing := x.serving })
  | .release i o => s.instances[i]?.elim s (fun x => releaseStep i x o s)
  | .stop i => s.modify i (fun x => { x with run := false })
  | .crash i =>
    s.modify i (fun x => { x with serving := false, releasing := false, pc := .exited })
  | .tick t => { s with now := max s.now t, key := Redis.elapse (max s.now t) s.key }

def Timely (s : Election) : Event → Prop
  | .start serverId => ∀ x ∈ s.instances, x.serverId ≠ serverId
  | .tick t => ∀ x ∈ s.instances, x.Relies → ∀ e ∈ s.key, max s.now t < e.2
  | .release i _ => ∀ x ∈ s.instances[i]?, x.releasing = true →
      s.key = none ∨ Redis.get s.key = some x.serverId ∧ ¬ x.Relies
  | _ => True

instance (s : Election) (e : Event) : Decidable (s.Timely e) := by
  cases e <;> unfold Timely <;> infer_instance

/-! ## What a step of the loop does to the key -/

section

variable (now : ℚ) (o : CommandOutcome) (key : Redis.Key String) (x : Instance)

@[simp] lemma serverId_elect : (x.elect now o key).2.serverId = x.serverId := by
  unfold Instance.elect Instance.learn
  split
  all_goals dsimp only
  all_goals split_ifs <;> rfl

lemma get_elect : get (x.elect now o key).1 = get key ∨
    key = none ∧ get (x.elect now o key).1 = some x.serverId := by
  unfold Instance.elect
  split
  case h_3 =>
      -- SET NX EX
      cases key with
      | none => cases o <;> simp [Redis.setNxEx, Redis.get]
      | some e => cases o <;> exact .inl rfl
  case h_6 =>
      have hpos : 0 < electorTtl := by decide +kernel
      cases o with
      | lost => exact .inl rfl
      | ok => exact .inl (get_expire_of_pos hpos now key)
      | noReply => exact .inl (get_expire_of_pos hpos now key)
  all_goals exact .inl rfl

lemma relies_at {x : Instance} {w p : Bool} {pc : ElectorPc}
    (h : ({ x with wereMaster := w, promoted := p, pc := pc } : Instance).Relies) :
    x.Relies ∨ pc = .reply (some x.serverId) ∨ pc = .refresh :=
  h.imp_left .inl

lemma relies_elect (h : (x.elect now o key).2.Relies) :
    x.Relies ∨ get (x.elect now o key).1 = some x.serverId := by
  unfold Instance.elect at h ⊢
  split at h
  case h_1 =>
      split_ifs at h
      · exact .inl ((relies_at h).resolve_right (by simp))
      · exact .inl ((relies_at (w := x.wereMaster) h).resolve_right (by simp))
  case h_2 =>
      refine (relies_at (w := x.wereMaster) (p := x.promoted) h).imp_right fun hpc => ?_
      cases o with
      | ok =>
        show get key = _
        cases hget : get key with
        | none => simp [hget] at hpc
        | some v => simpa [hget] using hpc
      | lost => simp at hpc
      | noReply => simp at hpc
  case h_3 =>
      refine (relies_at (w := x.wereMaster) (p := x.promoted) h).imp_right fun hpc => ?_
      cases key with
      | none =>
        cases o with
        | ok => rfl
        | lost => simp at hpc
        | noReply => simp at hpc
      | some e => cases o <;> simp [setNxEx] at hpc
  case h_4 =>
      refine (relies_at (w := x.wereMaster) (p := x.promoted) h).imp_right fun hpc => ?_
      cases o with
      | ok => simpa using hpc
      | lost => simp at hpc
      | noReply => simp at hpc
  case h_5 master hpc =>
      -- only the answer that the own id is the value leads on to the refresh
      simp only [Instance.learn, Instance.isMaster] at h
      split_ifs at h with hmaster
      · exact .inl (.inr (.inl (hpc.trans (by simpa using hmaster))))
      · simp [Instance.Relies, Instance.ConsidersMaster, Instance.isMaster, hmaster] at h
  case h_6 hpc => exact .inl (.inr (.inr hpc))
  case h_7 => exact .inl ((relies_at (w := x.wereMaster) (p := x.promoted) h).resolve_right (by simp))
  case h_8 => exact .inl h

end

/-! ## Who relies on the key holds it -/

structure Safe (s : Election) : Prop where
  ids : (s.instances.map (·.serverId)).Nodup
  held : ∀ x ∈ s.instances, x.Relies → Redis.get s.key = some x.serverId
  refreshed : ∀ e ∈ s.refreshes, e.1 = e.2

variable {s : Election}

lemma safe_start (key : Redis.Key String) : Safe { key := key } :=
  ⟨nodup_nil, fun _ h => absurd h not_mem_nil, fun _ h => absurd h not_mem_nil⟩

lemma map_serverId_set {l : List Instance} {i : ℕ} {x y : Instance} (hx : l[i]? = some x)
    (hid : y.serverId = x.serverId) : (l.set i y).map (·.serverId) = l.map (·.serverId) := by
  rw [map_set, hid]
  refine ext_getElem? fun j => ?_
  rw [List.getElem?_set]
  split_ifs with hij hlt
  · subst hij
    rw [List.getElem?_map, hx]
    rfl
  · subst hij
    rw [List.getElem?_eq_none (not_lt.mp hlt)]
  · rfl

lemma Safe.set (h : s.Safe) {i : ℕ} {x y : Instance} (hx : s.instances[i]? = some x)
    (hid : y.serverId = x.serverId) (hrely : y.Relies → get s.key = some y.serverId) :
    Safe { s with instances := s.instances.set i y } := by
  refine ⟨?_, fun z hz hz' => ?_, h.refreshed⟩
  · show ((s.instances.set i y).map (·.serverId)).Nodup
    rw [map_serverId_set hx hid]
    exact h.ids
  · rcases mem_or_eq_of_mem_set hz with hz | rfl
    · exact h.held z hz hz'
    · exact hrely hz'

lemma Safe.modify (h : s.Safe) {i : ℕ} {f : Instance → Instance}
    (hid : ∀ x, (f x).serverId = x.serverId) (hrely : ∀ x, (f x).Relies → x.Relies) :
    (s.modify i f).Safe := by
  unfold Election.modify
  cases hx : s.instances[i]? with
  | none => exact h
  | some x =>
    refine h.set hx (hid x) fun hf => ?_
    rw [hid x]
    exact h.held x (mem_of_getElem? hx) (hrely x hf)

lemma Safe.elect (h : s.Safe) {i : ℕ} {x : Instance} (hx : s.instances[i]? = some x)
    (o : CommandOutcome) : (electStep i x o s).Safe := by
  have hmem : x ∈ s.instances := mem_of_getElem? hx
  -- nobody relies on a key that is not there, so who relied keeps it
  have hkeep : ∀ z ∈ s.instances, z.Relies → get (x.elect s.now o s.key).1 = some z.serverId := by
    intro z hz hrely
    have hheld := h.held z hz hrely
    rcases get_elect s.now o s.key x with hsame | ⟨hnone, _⟩
    · rw [hsame]
      exact hheld
    · rw [hnone] at hheld
      cases hheld
  refine ⟨?_, fun z hz hrely => ?_, fun e he => ?_⟩
  · show ((s.instances.set i _).map (·.serverId)).Nodup
    rw [map_serverId_set hx (serverId_elect s.now o s.key x)]
    exact h.ids
  · rcases mem_or_eq_of_mem_set hz with hz | rfl
    · exact hkeep z hz hrely
    · rw [serverId_elect]
      exact (relies_elect s.now o s.key x hrely).elim (hkeep x hmem) id
  · rcases mem_append.mp he with he | he
    · split_ifs at he with hpc
      · have hheld := h.held x hmem (.inr (.inr hpc.1))
        rw [noteOf, hheld] at he
        rw [mem_singleton.mp he]
      · cases he
    · exact h.refreshed e he

lemma Safe.release (h : s.Safe) {i : ℕ} {x : Instance} (hx : s.instances[i]? = some x)
    {o : CommandOutcome} (hown : x.releasing →
      s.key = none ∨ get s.key = some x.serverId ∧ ¬ x.Relies) : (releaseStep i x o s).Safe := by
  by_cases hreleasing : x.releasing
  case neg =>
      rw [releaseStep, if_neg hreleasing]
      exact h
  rw [releaseStep, if_pos hreleasing]
  have hmem : x ∈ s.instances := mem_of_getElem? hx
  have hids : ((s.instances.set i { x with releasing := false }).map (·.serverId)).Nodup := by
    rw [map_serverId_set (y := { x with releasing := false }) hx rfl]
    exact h.ids
  -- the other instances do not rely on a key that is not there or is this instance's
  have hnobody : ∀ z ∈ s.instances.set i { x with releasing := false }, ¬ z.Relies := by
    intro z hz hrely
    have hheld : get s.key = some z.serverId := by
      rcases mem_or_eq_of_mem_set hz with hz | rfl
      · exact h.held z hz hrely
      · exact h.held x hmem hrely
    rcases hown hreleasing with hnone | ⟨hmine, hnot⟩
    · rw [hnone] at hheld
      cases hheld
    · have hsame : z.serverId = x.serverId := Option.some.inj (hheld.symm.trans hmine)
      have hz' : { x with releasing := false } ∈ s.instances.set i { x with releasing := false } :=
        mem_set (List.getElem?_eq_some_iff.mp hx).1 _
      have heq : z = { x with releasing := false } := inj_on_of_nodup_map hids hz hz' hsame
      rw [heq] at hrely
      exact hnot hrely
  refine ⟨hids, fun z hz hrely => absurd hrely (hnobody z hz), fun e he => ?_⟩
  rcases mem_append.mp he with he | he
  · split_ifs at he with ho
    · rcases hown hreleasing with hnone | ⟨hmine, _⟩
      · rw [noteOf, hnone] at he
        cases he
      · rw [noteOf, hmine] at he
        rw [mem_singleton.mp he]
    · cases he
  · exact h.refreshed e he

lemma Safe.step (h : s.Safe) {e : Event} (he : s.Timely e) : (s.step e).Safe := by
  cases e with
  | start serverId =>
    refine ⟨?_, fun x hx hrely => ?_, h.refreshed⟩
    · show ((s.instances ++ [({ serverId := serverId } : Instance)]).map (·.serverId)).Nodup
      rw [map_append]
      refine List.Nodup.append h.ids (nodup_singleton _) fun id hid hid' => ?_
      obtain ⟨x, hx, rfl⟩ := mem_map.mp hid
      exact he x hx (mem_singleton.mp hid')
    · rcases mem_append.mp hx with hx | hx
      · exact h.held x hx hrely
      · rw [mem_singleton.mp hx] at hrely
        simp [Instance.Relies, Instance.ConsidersMaster, Instance.isMaster] at hrely
  | elect i o =>
    simp only [Election.step]
    cases hx : s.instances[i]? with
    | none => exact h
    | some x => exact h.elect hx o
  | shutdown i =>
    refine h.modify (fun x => rfl) fun x hrely => ?_
    rcases hrely with hrely | hrely
    · cases hrely.1
    · exact .inr hrely
  | release i o =>
    simp only [Election.step]
    cases hx : s.instances[i]? with
    | none => exact h
    | some x => exact h.release hx (he x hx)
  | stop i => exact h.modify (fun x => rfl) fun x hrely => hrely
  | crash i =>
    refine h.modify (fun x => rfl) fun x hrely => ?_
    rcases hrely with hrely | hrely | hrely
    · cases hrely.1
    · cases hrely
    · cases hrely
  | tick t =>
    refine ⟨h.ids, fun x hx hrely => ?_, h.refreshed⟩
    have hheld := h.held x hx hrely
    obtain ⟨entry, hkey, hvalue⟩ := Option.map_eq_some_iff.mp hheld
    show get (elapse _ s.key) = _
    rw [hkey, elapse, Option.filter_some, if_pos (decide_eq_true (he x hx hrely entry hkey))]
    exact congrArg some hvalue

theorem single_master (key : Redis.Key String) (es : List Event)
    (hg : Machine.Guarded step Timely { key := key } es) :
    let s := Machine.run step { key := key } es
    (∀ (i j : ℕ) (x y : Instance), s.instances[i]? = some x → s.instances[j]? = some y →
      x.ConsidersMaster → y.ConsidersMaster → i = j) ∧
    ∀ e ∈ s.refreshes, e.1 = e.2 := by
  intro s
  have hs : s.Safe := Machine.run_inv (I := Safe) (fun _ _ h he => h.step he) (safe_start key) hg
  refine ⟨fun i j x y hx hy hmx hmy => ?_, hs.refreshed⟩
  have hheldx := hs.held x (mem_of_getElem? hx) (.inl hmx)
  have hheldy := hs.held y (mem_of_getElem? hy) (.inl hmy)
  have hsame : x.serverId = y.serverId := Option.some.inj (hheldx.symm.trans hheldy)
  have hi : (s.instances.map (·.serverId))[i]? = some x.serverId := by rw [List.getElem?_map, hx]; rfl
  have hj : (s.instances.map (·.serverId))[j]? = some x.serverId := by
    rw [List.getElem?_map, hy, hsame]
    rfl
  obtain ⟨hilt, _⟩ := List.getElem?_eq_some_iff.mp hi
  exact (List.getElem?_inj hilt hs.ids).mp (hi.trans hj.symm)

def round (i : ℕ) (commands : ℕ) : List Event := List.replicate commands (.elect i .ok)

theorem single_master_handOver :
    let es : List Event :=
      [.start "a.1", .start "b.2"] ++ round 0 6 ++ round 1 4 ++ [.tick 30] ++ round 0 5 ++
        [.tick 80, .shutdown 0, .release 0 .ok, .stop 0] ++ round 1 6
    (Machine.run step {} es).instances.map (fun x => decide x.ConsidersMaster) = [false, true] ∧
      ∀ e ∈ (Machine.run step {} es).refreshes, e.1 = e.2 :=
  ⟨by decide +kernel, (single_master none _ (by decide +kernel)).2⟩

theorem two_masters_lateRefresh :
    let late : List Event :=
      [.start "a.1", .start "b.2"] ++ round 0 6 ++ [.tick 61] ++ round 1 6
    let standby : List Event :=
      [.start "a.1", .start "b.2"] ++ round 0 6 ++ round 1 4 ++ [.shutdown 1, .release 1 .ok]
    ((Machine.run step {} late).instances.map (fun x => decide x.ConsidersMaster) = [true, true]) ∧
      (Machine.run step {} standby).refreshes = [("b.2", "a.1"), ("a.1", "a.1")] ∧
      (Machine.run step {} standby).key = none := by
  decide +kernel

end Election

end Urb
