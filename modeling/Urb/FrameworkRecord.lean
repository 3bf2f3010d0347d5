/-
# `Urb.FrameworkRecord` — the framework in the database

`update_framework` turns a framework into a record and merges it with the one in the
database.  The slaves and the tasks go into two dictionaries of the record, under their
ids with `_` for `.`:

    for k1, v1 in slave_dict:             for k3, v3 in command_executors:
        for k2, v2 in v1:                     for k4, v4 in v3:
            d = {k2: ...}                         dd[k3] = {k4: ...}
        slaves[k1.replace('.', '_')] = d

so that only the last field of a slave, and of a command executor, is stored.  A slave without
a field gets the dictionary of the slave before it; before the first slave there is none.

**Proved here.**  The record has every field of every slave and of every command executor,
and the slaves and the tasks are under keys of their own, exactly if no slave and no
command executor has more than one field, the channels are where the code looks for them,
the ids stay different without their dots, and no field takes the place of the two
dictionaries (`record_lossless_iff`).
-/
import Urb.Basis.DictLoop

namespace Urb

open List AList

namespace FrameworkDb

/-! ## What is stored -/

section Model

-- the values that are stored as they are
variable {V : Type}

inductive Field (V : Type) where
  | channel (name : String)
  | value (v : V)

/-- A field of a slave. -/
inductive SlaveField (V : Type) where
  | plain (f : Field V)
  | executors (es : Dict String (Dict String (Field V)))

inductive StoredValue (V : Type) where
  | name (n : String)
  | raw (f : Field V)

inductive StoredField (V : Type) where
  | name (n : String)
  | executors (es : Dict String (Dict String (StoredValue V)))
  | raw (f : SlaveField V)

/-- An entry of the record. -/
inductive RecordValue (V : Type) where
  | value (v : V)
  | jobs (ids : List String)
  | name (n : String)
  | slaves (d : Dict String (Dict String (StoredField V)))
  | tasks (d : Dict String V)

abbrev Record (V : Type) := Dict String (RecordValue V)

structure Framework (V : Type) where
  items : Dict String V
  jobId : Option (List String) := none
  channel : Option String := none
  slaveDict : Dict String (Dict String (SlaveField V)) := ∅
  taskDict : Dict String V := ∅

def replacedKey (k : String) : String :=
  String.ofList (k.toList.map (fun c => if c = '.' then '_' else c))

/-! ## The loops -/

def channelKeys : List String := ["channel", "executor_channel"]

def storeValue (k : String) (f : Field V) : Option (StoredValue V) :=
  if k = "channel" then
    match f with
    | .channel n => some (.name n)
    | .value _ => none
  else some (.raw f)

def lastField {F S : Type} (store : String → F → Option S) :
    Option (Dict String S) → List ((_ : String) × F) → Option (Option (Dict String S))
  | d, [] => some d
  | _, e :: es => (store e.1 e.2).bind (fun s => lastField store (some (AList.singleton e.1 s)) es)

def storeExecutors (es : Dict String (Dict String (Field V))) :
    Option (Dict String (Dict String (StoredValue V))) :=
  AList.storeAll (·.1) (fun (_ : Unit) e => (lastField storeValue none e.2.entries).map (((), ·))) ()
    es.entries ∅

def storeField (k : String) (f : SlaveField V) : Option (StoredField V) :=
  if k ∈ channelKeys then
    match f with
    | .plain (.channel n) => some (.name n)
    | _ => none
  else if k = "command_executors" then
    match f with
    | .executors es => (storeExecutors es).map .executors
    | _ => none
  else some (.raw f)

def storeSlave (d : Option (Dict String (StoredField V))) (e : (_ : String) × Dict String (SlaveField V)) :
    Option (Option (Dict String (StoredField V)) × Option (Dict String (StoredField V))) :=
  (lastField storeField d e.2.entries).bind (fun d => d.map (fun s => (some s, some s)))

def storeSlaves (slaves : Dict String (Dict String (SlaveField V))) :
    Option (Dict String (Dict String (StoredField V))) :=
  AList.storeAll (fun e => replacedKey e.1) storeSlave none slaves.entries ∅

def storeTasks (tasks : Dict String V) : Dict String V :=
  tasks.entries.foldl (fun d e => d.insert (replacedKey e.1) e.2) ∅

/-! ## The merge -/

def filterKeys : List String :=
  ["channel", "slave_dict", "task_dict", "lock", "lock_acquired", "offer_event"]

def isStored (k : String) : Bool := !"__".toList.isPrefixOf k.toList && !filterKeys.contains k

def Framework.filtered (fw : Framework V) : Record V :=
  let d := (fw.items.filterKeys isStored).mapVals (fun _ v => .value v)
  let d := fw.jobId.elim d (fun ids => d.insert "job_id" (.jobs ids))
  fw.channel.elim d (fun n => d.insert "channel" (.name n))

def oldSlaves (existing : Record V) : Option (Dict String (Dict String (StoredField V))) :=
  match existing.lookup "slaves" with
  | none => some ∅
  | some (.slaves d) => some d
  | some _ => none

def oldTasks (existing : Record V) : Option (Dict String V) :=
  match existing.lookup "tasks" with
  | none => some ∅
  | some (.tasks d) => some d
  | some _ => none

def updateFramework (fw : Framework V) (existing : Record V) : Option (Record V) := do
  let slaves ← storeSlaves fw.slaveDict
  let oldSlaves ← oldSlaves existing
  let oldTasks ← oldTasks existing
  let record := existing.insert "slaves" (.slaves (slaves ∪ oldSlaves))
  let record := record.insert "tasks" (.tasks (storeTasks fw.taskDict ∪ oldTasks))
  let record := fw.filtered ∪ record
  return record.erase "_id" ∪ existing

end Model

/-! ## The last field -/

section LastField

variable {F S : Type} {store : String → F → Option S} {d : Option (Dict String S)}
  {es : List ((_ : String) × F)}

lemma isSome_lastField_iff : (lastField store d es).isSome ↔ ∀ e ∈ es, (store e.1 e.2).isSome := by
  induction es generalizing d with
  | nil => exact iff_of_true rfl nofun
  | cons e es ih =>
    rw [forall_mem_cons, lastField]
    cases store e.1 e.2 with
    | none => simp
    | some s => exact ih.trans (by simp)

lemma lastField_cons {r : Option (Dict String S)} {e : (_ : String) × F}
    (h : lastField store d (e :: es) = some r) :
    ∃ e' s, e' ∈ e :: es ∧ store e'.1 e'.2 = some s ∧ r = some (singleton e'.1 s) := by
  induction es generalizing d e with
  | nil =>
    obtain ⟨s, hs, hr⟩ := Option.bind_eq_some_iff.mp h
    exact ⟨e, s, mem_cons_self, hs, (Option.some.inj hr).symm⟩
  | cons e₂ es ih =>
    obtain ⟨s, -, hrest⟩ := Option.bind_eq_some_iff.mp h
    obtain ⟨e', s', he', hs', hr⟩ := ih hrest
    exact ⟨e', s', mem_cons_of_mem _ he', hs', hr⟩

lemma lastField_bound {r : Option (Dict String S)} (h : lastField store d es = some r)
    (hd : d.isSome ∨ es ≠ []) : ∃ stored, r = some stored := by
  cases es with
  | nil =>
    obtain rfl := Option.some.inj h
    exact Option.isSome_iff_exists.mp (hd.resolve_right (· rfl))
  | cons e es =>
    obtain ⟨_, _, -, -, hr⟩ := lastField_cons h
    exact ⟨_, hr⟩

lemma lastField_keeps_iff {fields : Dict String F} {stored : Dict String S} {Keeps : F → S → Prop}
    (h : lastField store d fields.entries = some (some stored)) :
    (∀ e ∈ fields.entries, ∃ s, stored.lookup e.1 = some s ∧ Keeps e.2 s) ↔
      fields.entries.length ≤ 1 ∧ ∀ e ∈ fields.entries, ∃ s, store e.1 e.2 = some s ∧ Keeps e.2 s := by
  have hnodup := fields.nodupKeys
  rcases hentries : fields.entries with _ | ⟨e, es⟩
  · exact iff_of_true nofun ⟨Nat.zero_le 1, nofun⟩
  rw [hentries] at h hnodup
  obtain ⟨e', s', he', hs', hr⟩ := lastField_cons h
  obtain rfl := Option.some.inj hr
  have hlookup (e₁ : (_ : String) × F) (s : S) :
      (singleton e'.1 s' : Dict String S).lookup e₁.1 = some s ↔ e₁.1 = e'.1 ∧ s' = s := by
    rw [lookup_singleton_eq_ite]
    split_ifs with heq <;> simp [heq]
  constructor
  · intro hall
    have hsame : ∀ e₁ ∈ e :: es, e₁.1 = e'.1 := by
      intro e₁ he₁
      obtain ⟨s, hs, -⟩ := hall e₁ he₁
      exact ((hlookup e₁ s).mp hs).1
    have hnil : es = [] := by
      rcases es with _ | ⟨e₂, es⟩
      · rfl
      · have hsecond : e₂ ∈ e :: e₂ :: es := mem_cons_of_mem _ mem_cons_self
        have heq : e.1 = e₂.1 := (hsame e mem_cons_self).trans (hsame e₂ hsecond).symm
        exact absurd (heq ▸ mem_cons_self) (nodupKeys_cons.mp hnodup).1
    subst hnil
    obtain rfl := mem_singleton.mp he'
    refine ⟨le_rfl, fun e₁ he₁ => ?_⟩
    obtain rfl := mem_singleton.mp he₁
    obtain ⟨s, hs, hkeeps⟩ := hall e₁ he₁
    obtain rfl := ((hlookup e₁ s).mp hs).2
    exact ⟨s', hs', hkeeps⟩
  · rintro ⟨hlen, hkeeps⟩ e₁ he₁
    obtain rfl : es = [] := eq_nil_of_length_eq_zero (by simpa using hlen)
    obtain rfl := mem_singleton.mp he'
    obtain rfl := mem_singleton.mp he₁
    obtain ⟨s, hs, hkeep⟩ := hkeeps e₁ he₁
    obtain rfl := Option.some.inj (hs'.symm.trans hs)
    exact ⟨s', (hlookup e₁ s').mpr ⟨rfl, rfl⟩, hkeep⟩

lemma stored_keeps_iff {fields : Dict String F} {o r : Option (Dict String S)} {Keeps : F → S → Prop}
    (h : lastField store d fields.entries = some o) (hr : fields.entries ≠ [] → r = o) :
    (∀ e ∈ fields.entries, ∃ stored s, r = some stored ∧ stored.lookup e.1 = some s ∧ Keeps e.2 s) ↔
      fields.entries.length ≤ 1 ∧ ∀ e ∈ fields.entries, ∃ s, store e.1 e.2 = some s ∧ Keeps e.2 s := by
  rcases hentries : fields.entries with _ | ⟨e, es⟩
  · exact iff_of_true nofun ⟨Nat.zero_le 1, nofun⟩
  have hne : fields.entries ≠ [] := by rw [hentries]; nofun
  obtain ⟨stored, rfl⟩ := lastField_bound h (.inr hne)
  obtain rfl := hr hne
  rw [← hentries, ← lastField_keeps_iff h]
  refine forall₂_congr fun e _ => ?_
  constructor
  · rintro ⟨stored', s, heq, hs⟩
    obtain rfl := Option.some.inj heq
    exact ⟨s, hs⟩
  · rintro ⟨s, hs⟩
    exact ⟨stored, s, rfl, hs⟩

end LastField

/-! ## Losing nothing -/

section Lossless

variable {V : Type}

def KeepsValue : Field V → StoredValue V → Prop
  | .channel n, s => s = .name n
  | .value v, s => s = .raw (.value v)

def KeepsExecutors (es : Dict String (Dict String (Field V)))
    (ds : Dict String (Dict String (StoredValue V))) : Prop :=
  ∀ x ∈ es.entries, ∀ y ∈ x.2.entries,
    ∃ d s, ds.lookup x.1 = some d ∧ d.lookup y.1 = some s ∧ KeepsValue y.2 s

def Keeps : SlaveField V → StoredField V → Prop
  | .plain (.channel n), s => s = .name n
  | .plain (.value v), s => s = .raw (.plain (.value v))
  | .executors es, s => ∃ ds, s = .executors ds ∧ KeepsExecutors es ds

structure Framework.Lossless (fw : Framework V) (record : Record V) : Prop where
  fields : ∀ e ∈ fw.slaveDict.entries, ∀ f ∈ e.2.entries, ∃ slaves stored s,
    record.lookup "slaves" = some (.slaves slaves) ∧ slaves.lookup (replacedKey e.1) = some stored ∧
      stored.lookup f.1 = some s ∧ Keeps f.2 s
  tasks : ∀ e ∈ fw.taskDict.entries, ∃ tasks,
    record.lookup "tasks" = some (.tasks tasks) ∧ tasks.lookup (replacedKey e.1) = some e.2
  slaveKeys : (fw.slaveDict.entries.map (fun e => replacedKey e.1)).Nodup
  taskKeys : (fw.taskDict.entries.map (fun e => replacedKey e.1)).Nodup

def FitsValue (k : String) : Field V → Prop
  | .channel _ => k = "channel"
  | .value _ => k ≠ "channel"

def Fits (k : String) : SlaveField V → Prop
  | .plain (.channel _) => k ∈ channelKeys
  | .plain (.value _) => k ∉ channelKeys ∧ k ≠ "command_executors"
  | .executors es => k = "command_executors" ∧
      ∀ x ∈ es.entries, x.2.entries.length ≤ 1 ∧ ∀ y ∈ x.2.entries, FitsValue y.1 y.2

structure Framework.Storable (fw : Framework V) (existing : Record V) : Prop where
  oldSlaves : ∀ r, existing.lookup "slaves" = some r → ∃ d, r = .slaves d
  oldTasks : ∀ r, existing.lookup "tasks" = some r → ∃ d, r = .tasks d
  first : ∀ e, fw.slaveDict.entries.head? = some e → e.2.entries ≠ []
  single : ∀ e ∈ fw.slaveDict.entries, e.2.entries.length ≤ 1
  fits : ∀ e ∈ fw.slaveDict.entries, ∀ f ∈ e.2.entries, Fits f.1 f.2
  slaveKeys : (fw.slaveDict.entries.map (fun e => replacedKey e.1)).Nodup
  taskKeys : (fw.taskDict.entries.map (fun e => replacedKey e.1)).Nodup
  slavesItem : "slaves" ∈ fw.items → fw.slaveDict.entries = []
  tasksItem : "tasks" ∈ fw.items → fw.taskDict.entries = []

variable {k : String}

lemma storeValue_keeps_iff {f : Field V} :
    (∃ s, storeValue k f = some s ∧ KeepsValue f s) ↔ FitsValue k f := by
  unfold storeValue
  by_cases hk : k = "channel"
  · cases f with
    | channel n => exact iff_of_true ⟨.name n, if_pos hk, rfl⟩ hk
    | value v =>
      refine iff_of_false ?_ fun hno => hno hk
      rintro ⟨s, hs, -⟩
      rw [if_pos hk] at hs
      exact absurd hs nofun
  · cases f with
    | channel n =>
      refine iff_of_false ?_ hk
      rintro ⟨s, hs, hkeeps⟩
      rw [if_neg hk] at hs
      exact absurd ((Option.some.inj hs).trans hkeeps) nofun
    | value v => exact iff_of_true ⟨_, if_neg hk, rfl⟩ hk

lemma storeExecutors_keeps_iff {es : Dict String (Dict String (Field V))} :
    (∃ ds, storeExecutors es = some ds ∧ KeepsExecutors es ds) ↔
      ∀ x ∈ es.entries, x.2.entries.length ≤ 1 ∧ ∀ y ∈ x.2.entries, FitsValue y.1 y.2 := by
  have hkeeps {ds} (hds : storeExecutors es = some ds) : KeepsExecutors es ds ↔
      ∀ x ∈ es.entries, x.2.entries.length ≤ 1 ∧ ∀ y ∈ x.2.entries, FitsValue y.1 y.2 := by
    refine forall₂_congr fun x hx => ?_
    obtain ⟨_, r, hr, hlookup⟩ := lookup_storeAll es.nodupKeys hds hx
    obtain ⟨o, ho, rfl⟩ := Option.map_eq_some_iff.mp hr
    have hstored : x.2.entries ≠ [] → ds.lookup x.1 = o := by
      intro hne
      obtain ⟨stored, rfl⟩ := lastField_bound ho (.inr hne)
      exact hlookup
    simp only [← storeValue_keeps_iff]
    exact stored_keeps_iff ho hstored
  constructor
  · rintro ⟨ds, hds, hkept⟩
    exact (hkeeps hds).mp hkept
  · intro hfits
    have hsome : (storeExecutors es).isSome := by
      refine isSome_storeAll (fun _ => True) trivial fun _ _ x hx => ?_
      have hfields : (lastField storeValue none x.2.entries).isSome :=
        isSome_lastField_iff.mpr fun y hy =>
          Option.isSome_iff_exists.mpr ((storeValue_keeps_iff.mpr ((hfits x hx).2 y hy)).imp fun _ h => h.1)
      obtain ⟨o, ho⟩ := Option.isSome_iff_exists.mp hfields
      exact ⟨((), o), by rw [ho]; rfl, trivial⟩
    obtain ⟨ds, hds⟩ := Option.isSome_iff_exists.mp hsome
    exact ⟨ds, hds, (hkeeps hds).mpr hfits⟩

lemma storeField_keeps_iff {f : SlaveField V} :
    (∃ s, storeField k f = some s ∧ Keeps f s) ↔ Fits k f := by
  unfold storeField
  by_cases hk : k ∈ channelKeys
  · simp only [if_pos hk]
    rcases f with (n | v) | es
    · exact iff_of_true ⟨.name n, rfl, rfl⟩ hk
    · exact iff_of_false nofun fun hno => hno.1 hk
    · refine iff_of_false nofun ?_
      rintro ⟨rfl, -⟩
      exact absurd hk (by decide)
  simp only [if_neg hk]
  by_cases hexec : k = "command_executors"
  · simp only [if_pos hexec]
    rcases f with (n | v) | es
    · exact iff_of_false nofun hk
    · exact iff_of_false nofun fun hno => hno.2 hexec
    · show (∃ s, (storeExecutors es).map _ = some s ∧ _) ↔ _ ∧ _
      rw [← storeExecutors_keeps_iff]
      constructor
      · rintro ⟨s, hs, ds, rfl, hkeeps⟩
        obtain ⟨ds', hds', heq⟩ := Option.map_eq_some_iff.mp hs
        obtain rfl := StoredField.executors.inj heq
        exact ⟨hexec, ds', hds', hkeeps⟩
      · rintro ⟨-, ds, hds, hkeeps⟩
        exact ⟨.executors ds, by rw [hds]; rfl, ds, rfl, hkeeps⟩
  · simp only [if_neg hexec]
    rcases f with (n | v) | es
    · refine iff_of_false ?_ hk
      rintro ⟨s, hs, hkeeps⟩
      exact absurd ((Option.some.inj hs).trans hkeeps) nofun
    · exact iff_of_true ⟨_, rfl, rfl⟩ ⟨hk, hexec⟩
    · refine iff_of_false ?_ fun hno => hexec hno.1
      rintro ⟨s, hs, ds, hkeeps, -⟩
      exact absurd ((Option.some.inj hs).trans hkeeps) nofun

/-! ### The slaves -/

variable {fw : Framework V} {existing record : Record V}

lemma storeSlaves_keeps_iff {slaves : Dict String (Dict String (StoredField V))}
    (hkeys : (fw.slaveDict.entries.map (fun e => replacedKey e.1)).Nodup)
    (h : storeSlaves fw.slaveDict = some slaves) :
    (∀ e ∈ fw.slaveDict.entries, ∀ f ∈ e.2.entries, ∃ stored s,
        slaves.lookup (replacedKey e.1) = some stored ∧ stored.lookup f.1 = some s ∧ Keeps f.2 s) ↔
      ∀ e ∈ fw.slaveDict.entries, e.2.entries.length ≤ 1 ∧ ∀ f ∈ e.2.entries, Fits f.1 f.2 := by
  refine forall₂_congr fun e he => ?_
  obtain ⟨d, r, hr, hlookup⟩ := lookup_storeAll hkeys h he
  obtain ⟨o, ho, hr⟩ := Option.bind_eq_some_iff.mp hr
  obtain ⟨s, rfl, rfl⟩ := Option.map_eq_some_iff.mp hr
  simp only [← storeField_keeps_iff]
  exact stored_keeps_iff ho fun _ => hlookup

lemma isSome_storeSlaves (hfirst : ∀ e, fw.slaveDict.entries.head? = some e → e.2.entries ≠ [])
    (hfits : ∀ e ∈ fw.slaveDict.entries, ∀ f ∈ e.2.entries, Fits f.1 f.2) :
    (storeSlaves fw.slaveDict).isSome := by
  have hfields (d) (e) (he : e ∈ fw.slaveDict.entries) : ∃ o, lastField storeField d e.2.entries = some o :=
    Option.isSome_iff_exists.mp (isSome_lastField_iff.mpr fun f hf =>
      Option.isSome_iff_exists.mpr ((storeField_keeps_iff.mpr (hfits e he f hf)).imp fun _ h => h.1))
  unfold storeSlaves
  rcases hentries : fw.slaveDict.entries with _ | ⟨e, es⟩
  · rfl
  rw [hentries] at hfields hfirst
  -- after the first slave there is a dictionary
  obtain ⟨o, ho⟩ := hfields none e mem_cons_self
  obtain ⟨stored, rfl⟩ := lastField_bound ho (.inr (hfirst e rfl))
  have hstep : storeSlave none e = some (some stored, some stored) := by
    rw [storeSlave, ho]
    rfl
  rw [storeAll, hstep]
  refine isSome_storeAll (fun d => d.isSome) rfl fun d hd e' he' => ?_
  obtain ⟨o', ho'⟩ := hfields d e' (mem_cons_of_mem _ he')
  obtain ⟨stored', rfl⟩ := lastField_bound ho' (.inl hd)
  exact ⟨(some stored', some stored'), by rw [storeSlave, ho']; rfl, rfl⟩

lemma first_of_storeSlaves (h : (storeSlaves fw.slaveDict).isSome) :
    ∀ e, fw.slaveDict.entries.head? = some e → e.2.entries ≠ [] := by
  intro e he hnil
  obtain ⟨es, hes⟩ := List.head?_eq_some_iff.mp he
  have hstep : storeSlave none e = none := by
    rw [storeSlave, hnil]
    rfl
  rw [storeSlaves, hes, storeAll, hstep] at h
  cases h

lemma lookup_slaves_union {slaves old : Dict String (Dict String (StoredField V))}
    (hkeys : (fw.slaveDict.entries.map (fun e => replacedKey e.1)).Nodup)
    (h : storeSlaves fw.slaveDict = some slaves) {e} (he : e ∈ fw.slaveDict.entries) :
    (slaves ∪ old).lookup (replacedKey e.1) = slaves.lookup (replacedKey e.1) := by
  obtain ⟨d, r, hr, hlookup⟩ := lookup_storeAll hkeys h he
  obtain ⟨o, -, hr⟩ := Option.bind_eq_some_iff.mp hr
  obtain ⟨s, -, rfl⟩ := Option.map_eq_some_iff.mp hr
  rw [lookup_union, hlookup]
  rfl

lemma lookup_tasks_union {old : Dict String V}
    (hkeys : (fw.taskDict.entries.map (fun e => replacedKey e.1)).Nodup) {e}
    (he : e ∈ fw.taskDict.entries) :
    (storeTasks fw.taskDict ∪ old).lookup (replacedKey e.1) = some e.2 := by
  obtain ⟨_, r, hr, hlookup⟩ := lookup_storeAll hkeys (storeAll_insert (·.2)) he
  obtain rfl := Option.some.inj hr
  rw [lookup_union, storeTasks, hlookup]
  rfl

/-! ### The record -/

lemma lookup_filtered (hstored : isStored k) (hjob : k ≠ "job_id") (hchannel : k ≠ "channel") :
    fw.filtered.lookup k = (fw.items.lookup k).map .value := by
  have hitems : ((fw.items.filterKeys isStored).mapVals (fun _ v => RecordValue.value v)).lookup k =
      (fw.items.lookup k).map .value := by
    rw [lookup_mapVals, lookup_filterKeys, if_pos hstored]
  unfold Framework.filtered
  cases fw.jobId <;> cases fw.channel <;>
    simp only [Option.elim_none, Option.elim_some, lookup_insert_eq_ite, if_neg hjob,
      if_neg hchannel, hitems]

lemma lookup_record {new : Record V} (hid : k ≠ "_id") (hnew : (new.lookup k).isSome) :
    ((fw.filtered ∪ new).erase "_id" ∪ existing).lookup k =
      (fw.filtered.lookup k).elim (new.lookup k) some := by
  rw [lookup_union, lookup_erase_eq_ite, if_neg hid, lookup_union]
  obtain ⟨v, hv⟩ := Option.isSome_iff_exists.mp hnew
  rw [hv]
  cases fw.filtered.lookup k <;> rfl

lemma updateFramework_iff : updateFramework fw existing = some record ↔
    ∃ slaves old olds, storeSlaves fw.slaveDict = some slaves ∧ oldSlaves existing = some old ∧
      oldTasks existing = some olds ∧
      (fw.filtered ∪ (existing.insert "slaves" (.slaves (slaves ∪ old))).insert "tasks"
        (.tasks (storeTasks fw.taskDict ∪ olds))).erase "_id" ∪ existing = record := by
  unfold updateFramework
  simp only [Option.bind_eq_bind, Option.bind_eq_some_iff, Option.pure_def, Option.some.injEq]
  constructor
  · rintro ⟨slaves, hslaves, old, hold, olds, holds, heq⟩
    exact ⟨slaves, old, olds, hslaves, hold, holds, heq⟩
  · rintro ⟨slaves, old, olds, hslaves, hold, holds, heq⟩
    exact ⟨slaves, hslaves, old, hold, olds, holds, heq⟩

lemma isSome_oldSlaves_iff : (oldSlaves existing).isSome ↔
    ∀ r, existing.lookup "slaves" = some r → ∃ d, r = .slaves d := by
  unfold oldSlaves
  rcases existing.lookup "slaves" with _ | (_ | _ | _ | d | _)
  case none => exact iff_of_true rfl nofun
  case slaves => exact iff_of_true rfl fun r hr => ⟨d, (Option.some.inj hr).symm⟩
  all_goals exact iff_of_false nofun fun h => absurd (h _ rfl) nofun

lemma isSome_oldTasks_iff : (oldTasks existing).isSome ↔
    ∀ r, existing.lookup "tasks" = some r → ∃ d, r = .tasks d := by
  unfold oldTasks
  rcases existing.lookup "tasks" with _ | (_ | _ | _ | _ | d)
  case none => exact iff_of_true rfl nofun
  case tasks => exact iff_of_true rfl fun r hr => ⟨d, (Option.some.inj hr).symm⟩
  all_goals exact iff_of_false nofun fun h => absurd (h _ rfl) nofun

lemma lookup_slaves {slaves : Dict String (Dict String (StoredField V))} {tasks : Dict String V} :
    ((fw.filtered ∪ (existing.insert "slaves" (.slaves slaves)).insert "tasks" (.tasks tasks)).erase "_id" ∪
        existing).lookup "slaves" = ((fw.items.lookup "slaves").map .value).elim (some (.slaves slaves)) some := by
  have hnew : ((existing.insert "slaves" (.slaves slaves)).insert "tasks" (.tasks tasks)).lookup "slaves" =
      some (.slaves slaves) := by
    rw [lookup_insert_eq_ite, if_neg (by decide), lookup_insert_eq_ite, if_pos rfl]
  rw [lookup_record (by decide) (by rw [hnew]; rfl), hnew,
    lookup_filtered (by decide +kernel) (by decide) (by decide)]

lemma lookup_tasks {slaves : Dict String (Dict String (StoredField V))} {tasks : Dict String V} :
    ((fw.filtered ∪ (existing.insert "slaves" (.slaves slaves)).insert "tasks" (.tasks tasks)).erase "_id" ∪
        existing).lookup "tasks" = ((fw.items.lookup "tasks").map .value).elim (some (.tasks tasks)) some := by
  have hnew : ((existing.insert "slaves" (.slaves slaves)).insert "tasks" (.tasks tasks)).lookup "tasks" =
      some (.tasks tasks) := by
    rw [lookup_insert_eq_ite, if_pos rfl]
  rw [lookup_record (by decide) (by rw [hnew]; rfl), hnew,
    lookup_filtered (by decide +kernel) (by decide) (by decide)]

lemma elim_eq_iff {r v : RecordValue V} (hv : ∀ x, v ≠ .value x) :
    ((fw.items.lookup k).map RecordValue.value).elim (some r) some = some v ↔ k ∉ fw.items ∧ r = v := by
  rw [← lookup_eq_none]
  cases fw.items.lookup k with
  | none => exact ⟨fun h => ⟨rfl, Option.some.inj h⟩, fun h => congrArg some h.2⟩
  | some x => exact iff_of_false (fun h => hv x (Option.some.inj h).symm) fun h => absurd h.1 nofun

theorem record_lossless_iff (fw : Framework V) (existing : Record V) :
    (∃ record, updateFramework fw existing = some record ∧ fw.Lossless record) ↔ fw.Storable existing := by
  constructor
  · rintro ⟨record, hupdate, hlossless⟩
    obtain ⟨slaves, old, olds, hslaves, hold, holds, rfl⟩ := updateFramework_iff.mp hupdate
    have hfirst := first_of_storeSlaves (Option.isSome_of_eq_some hslaves)
    have hkept : ∀ e ∈ fw.slaveDict.entries, ∀ f ∈ e.2.entries, "slaves" ∉ fw.items ∧ ∃ stored s,
        slaves.lookup (replacedKey e.1) = some stored ∧ stored.lookup f.1 = some s ∧ Keeps f.2 s := by
      intro e he f hf
      obtain ⟨slaves', stored, s, hrecord, hstored, hs⟩ := hlossless.fields e he f hf
      rw [lookup_slaves, elim_eq_iff nofun] at hrecord
      obtain ⟨hitem, heq⟩ := hrecord
      obtain rfl := RecordValue.slaves.inj heq
      rw [lookup_slaves_union hlossless.slaveKeys hslaves he] at hstored
      exact ⟨hitem, stored, s, hstored, hs⟩
    have hsingle := (storeSlaves_keeps_iff hlossless.slaveKeys hslaves).mp
      fun e he f hf => (hkept e he f hf).2
    refine ⟨isSome_oldSlaves_iff.mp (Option.isSome_of_eq_some hold),
      isSome_oldTasks_iff.mp (Option.isSome_of_eq_some holds), hfirst, fun e he => (hsingle e he).1,
      fun e he => (hsingle e he).2, hlossless.slaveKeys, hlossless.taskKeys, ?_, ?_⟩
    · intro hitem
      by_contra hne
      obtain ⟨e, es, hes⟩ := exists_cons_of_ne_nil hne
      have he : e ∈ fw.slaveDict.entries := by rw [hes]; exact mem_cons_self
      obtain ⟨f, hf⟩ := exists_mem_of_ne_nil _ (hfirst e (by rw [hes]; rfl))
      exact (hkept e he f hf).1 hitem
    · intro hitem
      by_contra hne
      obtain ⟨e, he⟩ := exists_mem_of_ne_nil _ hne
      obtain ⟨tasks, hrecord, -⟩ := hlossless.tasks e he
      rw [lookup_tasks, elim_eq_iff nofun] at hrecord
      exact hrecord.1 hitem
  · intro h
    obtain ⟨slaves, hslaves⟩ := Option.isSome_iff_exists.mp (isSome_storeSlaves h.first h.fits)
    obtain ⟨old, hold⟩ := Option.isSome_iff_exists.mp (isSome_oldSlaves_iff.mpr h.oldSlaves)
    obtain ⟨olds, holds⟩ := Option.isSome_iff_exists.mp (isSome_oldTasks_iff.mpr h.oldTasks)
    refine ⟨_, updateFramework_iff.mpr ⟨slaves, old, olds, hslaves, hold, holds, rfl⟩, ?_⟩
    refine ⟨fun e he f hf => ?_, fun e he => ?_, h.slaveKeys, h.taskKeys⟩
    · obtain ⟨stored, s, hstored, hs⟩ := (storeSlaves_keeps_iff h.slaveKeys hslaves).mpr
        (fun e he => ⟨h.single e he, h.fits e he⟩) e he f hf
      refine ⟨slaves ∪ old, stored, s, ?_, ?_, hs⟩
      · rw [lookup_slaves, elim_eq_iff nofun]
        refine ⟨fun hitem => ?_, rfl⟩
        rw [h.slavesItem hitem] at he
        exact absurd he not_mem_nil
      · rw [lookup_slaves_union h.slaveKeys hslaves he, hstored]
    · refine ⟨storeTasks fw.taskDict ∪ olds, ?_, lookup_tasks_union h.taskKeys he⟩
      rw [lookup_tasks, elim_eq_iff nofun]
      refine ⟨fun hitem => ?_, rfl⟩
      rw [h.tasksItem hitem] at he
      exact absurd he not_mem_nil

def twoFields : Framework ℕ where
  items := ∅
  slaveDict := AList.singleton "slave-1.1"
    ((AList.singleton "channel" (.plain (.channel "c"))).insert "hostname" (.plain (.value 7)))

theorem hostname_lost : ∃ record, updateFramework twoFields ∅ = some record ∧
    record.lookup "slaves" = some (.slaves (AList.singleton "slave-1_1"
      (AList.singleton "channel" (.name "c")))) ∧
    ¬ twoFields.Lossless record := by
  refine ⟨_, rfl, rfl, fun h => ?_⟩
  obtain ⟨slaves, stored, s, hslaves, hstored, hs, -⟩ :=
    h.fields _ mem_cons_self _ mem_cons_self
  obtain rfl := RecordValue.slaves.inj (Option.some.inj hslaves)
  obtain rfl := Option.some.inj hstored
  exact absurd hs nofun

end Lossless

end FrameworkDb

end Urb
