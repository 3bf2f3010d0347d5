/-
# `Urb.FrameworkConfig` — from the texts of the configuration to an offer

The options of a framework are texts.  `configure_framework` checks them once, by the
types of a table; `__initialize_slave_resources` converts the texts whenever a slave
registers; `__build_offer` walks through the result:

    option        accepted                              converted
    mem, disk     digits                                int(text)
    gpus          digits                                int(text)
    cpus          digits, or float(text) works          int(text)
    ports         eval(text) goes over tuples whose     eval(text), then
                  first two components are ints         for begin, end in ports
    custom        a number, or whatever eval(text) is   for begin, end in val, of a list

**Proved here.**  With accepted options, the resources are initialised and offered
without an exception, with the configured cpus, memory and disk, exactly if `cpus` is
written with digits and a sign only and the ports and the lists of the custom resources
consist of pairs (`accepted_usable_iff`).
-/
import Urb.Submission

namespace Urb

open List

/-! ## Numbers as texts -/

inductive FloatValue where
  | num (q : ℚ)
  | infinite
  | nan
  deriving DecidableEq

def readSign : List Char → ℤ × List Char
  | '-' :: cs => (-1, cs)
  | '+' :: cs => (1, cs)
  | cs => (1, cs)

def readMantissa (cs : List Char) : Option ℚ :=
  let fraction := (cs.dropWhile (· ≠ '.')).tail
  (readDigits (cs.takeWhile (· ≠ '.') ++ fraction)).map (fun n : ℕ => (n : ℚ) / 10 ^ fraction.length)

def readExponent : List Char → Option ℤ
  | [] => some 0
  | _ :: cs => (readDigits (readSign cs).2).map (fun n : ℕ => (readSign cs).1 * (n : ℤ))

def scale (q : ℚ) : ℤ → ℚ
  | .ofNat n => q * 10 ^ n
  | .negSucc n => q / 10 ^ (n + 1)

def isExponent (c : Char) : Bool := c = 'e' || c = 'E'

def readUnsigned (cs : List Char) : Option ℚ := do
  let mantissa ← readMantissa (cs.takeWhile (!isExponent ·))
  let exponent ← readExponent (cs.dropWhile (!isExponent ·))
  return scale mantissa exponent

def readFloat (cs : List Char) : Option FloatValue :=
  let (sign, body) := readSign (strip cs)
  let lower := body.map Char.toLower
  if lower = "inf".toList ∨ lower = "infinity".toList then some .infinite
  else if lower = "nan".toList then some .nan
  else (readUnsigned body).map (fun q => .num (sign * q))

example : readFloat " -1.50e1\n".toList = some (.num (-15)) := by decide +kernel

def number (cs : List Char) : Option ℚ :=
  match readFloat cs with
  | some (.num q) => some q
  | _ => none

def isIntChar (c : Char) : Bool := c.isDigit || c = '-' || c = '+'

def IsIntegral (cs : List Char) : Prop := ∀ c ∈ strip cs, isIntChar c = true

instance (cs : List Char) : Decidable (IsIntegral cs) :=
  decidable_of_iff ((strip cs).all isIntChar = true) all_eq_true

variable {cs : List Char}

lemma readDigits_isSome_iff : (readDigits cs).isSome ↔ cs ≠ [] ∧ ∀ c ∈ cs, c.isDigit := by
  unfold readDigits
  split_ifs with h
  · exact iff_of_true rfl ⟨h.1, all_eq_true.mp h.2⟩
  · exact iff_of_false nofun fun hd => h ⟨hd.1, all_eq_true.mpr hd.2⟩

lemma isDigit_of_readDigits {n : ℕ} (h : readDigits cs = some n) : ∀ c ∈ cs, c.isDigit :=
  (readDigits_isSome_iff.mp (Option.isSome_of_eq_some h)).2

lemma readInt_eq (cs : List Char) :
    readInt cs = (readDigits (readSign (strip cs)).2).map (fun n : ℕ => (readSign (strip cs)).1 * (n : ℤ)) := by
  unfold readInt
  split
  · next ds heq =>
      rw [heq]
      show _ = (readDigits ds).map (fun n : ℕ => -1 * (n : ℤ))
      cases readDigits ds with
      | none => rfl
      | some n => exact congrArg some (neg_one_mul (n : ℤ)).symm
  · next ds heq =>
      rw [heq]
      exact Option.map_congr fun n _ => (one_mul (n : ℤ)).symm
  · next hminus hplus =>
      have hsign : readSign (strip cs) = (1, strip cs) := by
        unfold readSign
        split
        · next ds heq => exact absurd heq (hminus ds)
        · next ds heq => exact absurd heq (hplus ds)
        · rfl
      rw [hsign]
      exact Option.map_congr fun n _ => (one_mul (n : ℤ)).symm

lemma mem_readSign {c : Char} (hc : c ∈ (readSign cs).2) : c ∈ cs := by
  unfold readSign at hc
  split at hc
  · exact mem_cons_of_mem _ hc
  · exact mem_cons_of_mem _ hc
  · exact hc

lemma isIntChar_of_readSign (h : ∀ c ∈ (readSign cs).2, c.isDigit) {c : Char} (hc : c ∈ cs) :
    isIntChar c := by
  have hdigit : c.isDigit → isIntChar c := fun hd => by simp [isIntChar, hd]
  unfold readSign at h
  split at h
  · rcases mem_cons.mp hc with rfl | hc
    · decide
    · exact hdigit (h c hc)
  · rcases mem_cons.mp hc with rfl | hc
    · decide
    · exact hdigit (h c hc)
  · exact hdigit (h c hc)

lemma isIntegral_of_readInt {n : ℤ} (h : readInt cs = some n) : IsIntegral cs := by
  rw [readInt_eq] at h
  obtain ⟨k, hk, -⟩ := map_eq_some_iff.mp h
  exact fun c hc => isIntChar_of_readSign (isDigit_of_readDigits hk) hc

lemma toLower_of_isDigit {c : Char} (hc : c.isDigit) : c.toLower = c := by
  simp only [Char.isDigit, Bool.and_eq_true, decide_eq_true_eq] at hc
  unfold Char.toLower
  split
  · next hupper =>
      have hnine := hc.2
      simp at hnine hupper
      grind
  · rfl

lemma toLower_of_isIntChar {c : Char} (hc : isIntChar c) : c.toLower = c := by
  simp only [isIntChar, Bool.or_eq_true, decide_eq_true_eq] at hc
  rcases hc with (hdigit | rfl) | rfl
  · exact toLower_of_isDigit hdigit
  · decide
  · decide

section IntChars

variable (h : ∀ c ∈ cs, isIntChar c = true)
include h

lemma takeWhile_of_isIntChar {p : Char → Bool} (hp : ∀ c, p c = false → isIntChar c = false) :
    cs.takeWhile p = cs ∧ cs.dropWhile p = [] := by
  have hall : ∀ c ∈ cs, p c := by
    intro c hc
    by_contra hno
    exact absurd (h c hc) (by rw [hp c (Bool.eq_false_iff.mpr hno)]; nofun)
  exact ⟨takeWhile_eq_self_iff.mpr hall, dropWhile_eq_nil_iff.mpr hall⟩

lemma readUnsigned_of_isIntChar : readUnsigned cs = (readDigits cs).map (fun n : ℕ => (n : ℚ)) := by
  obtain ⟨htake, hdrop⟩ := takeWhile_of_isIntChar h (p := (!isExponent ·)) fun c hc => by
    rw [Bool.not_eq_false', isExponent, Bool.or_eq_true, decide_eq_true_eq, decide_eq_true_eq] at hc
    rcases hc with rfl | rfl <;> decide
  obtain ⟨hwhole, hfraction⟩ := takeWhile_of_isIntChar h (p := fun c => decide (c ≠ '.')) fun c hc => by
    rw [decide_eq_false_iff_not, not_not] at hc
    subst hc
    decide
  have hmantissa : readMantissa cs = (readDigits cs).map (fun n : ℕ => (n : ℚ)) := by
    rw [readMantissa, hwhole, hfraction, tail_nil, append_nil]
    simp
  rw [readUnsigned, htake, hdrop, hmantissa]
  cases readDigits cs with
  | none => rfl
  | some n => exact congrArg some (by simp [scale])

lemma ne_word {w : List Char} (hletter : ∃ c ∈ w, isIntChar c = false) : cs.map Char.toLower ≠ w := by
  have hlower : cs.map Char.toLower = cs :=
    (map_congr_left fun c hc => toLower_of_isIntChar (h c hc)).trans (map_id cs)
  rw [hlower]
  rintro rfl
  obtain ⟨c, hc, hno⟩ := hletter
  exact absurd (h c hc) (by rw [hno]; nofun)

end IntChars

lemma readFloat_of_isIntegral (h : IsIntegral cs) :
    readFloat cs = (readInt cs).map (fun n : ℤ => .num n) := by
  have hbody : ∀ c ∈ (readSign (strip cs)).2, isIntChar c := fun c hc => h c (mem_readSign hc)
  have hinf := ne_word hbody (w := "inf".toList) ⟨'i', by decide, by decide⟩
  have hinfinity := ne_word hbody (w := "infinity".toList) ⟨'i', by decide, by decide⟩
  have hnan := ne_word hbody (w := "nan".toList) ⟨'n', by decide, by decide⟩
  have hnumber : readFloat cs = (readUnsigned (readSign (strip cs)).2).map
      (fun q => .num ((readSign (strip cs)).1 * q)) :=
    (if_neg (not_or.mpr ⟨hinf, hinfinity⟩)).trans (if_neg hnan)
  rw [hnumber, readUnsigned_of_isIntChar hbody, readInt_eq, Option.map_map, Option.map_map]
  refine Option.map_congr fun n _ => ?_
  simp

lemma number_of_readInt {n : ℤ} (h : readInt cs = some n) : number cs = some (n : ℚ) := by
  rw [number, readFloat_of_isIntegral (isIntegral_of_readInt h), h]
  rfl

/-! ## The check -/

inductive PyValue where
  | int (n : ℤ)
  | bool (b : Bool)
  | float (v : FloatValue)
  | tuple (vs : List PyValue)
  | list (vs : List PyValue)
  | iterable (vs : List PyValue)
  | other

namespace PyValue

def isInt : PyValue → Bool
  | .int _ => true
  | .bool _ => true
  | _ => false

def iterate : PyValue → Option (List PyValue)
  | .tuple vs => some vs
  | .list vs => some vs
  | .iterable vs => some vs
  | _ => none

def unpack (v : PyValue) : Option (PyValue × PyValue) :=
  match v.iterate with
  | some [a, b] => some (a, b)
  | _ => none

end PyValue

abbrev Evaluator := List Char → Option PyValue

/-- The types of the table of `configure_framework`. -/
inductive OptionType where
  | num
  | float
  | str
  | listTupleNum
  | bool
  deriving DecidableEq

def checkRanges : List PyValue → Option Bool
  | [] => some true
  | .tuple [] :: _ => none
  | .tuple [a] :: _ => if a.isInt then none else some false
  | .tuple (a :: b :: _) :: ls => if a.isInt && b.isInt then checkRanges ls else some false
  | _ :: _ => some false

def checkType (eval : Evaluator) (value : List Char) : List OptionType → Option Bool
  | [] => some false
  | .num :: ts => if (readDigits value).isSome then some true else checkType eval value ts
  | .float :: ts => if (readFloat value).isSome then some true else checkType eval value ts
  | .str :: _ => some true
  | .listTupleNum :: _ =>
    match eval value with
    | none => some false
    | some v => v.iterate.bind checkRanges
  | .bool :: ts =>
    if value = "True".toList ∨ value = "False".toList then some true else checkType eval value ts

structure ConfigSection where
  cpus : Option (List Char) := none
  mem : Option (List Char) := none
  disk : Option (List Char) := none
  gpus : Option (List Char) := none
  ports : Option (List Char) := none
  customResources : Option (List Char) := none

structure FrameworkConfig where
  cpus : Option (List Char) := none
  mem : Option (List Char) := none
  disk : Option (List Char) := none
  gpus : Option (List Char) := none
  ports : Option (List Char) := none
  customResources : Option (Dict (List Char) PyValue) := none

def configured (own default : Option (List Char)) : Option (List Char) :=
  own.filter (· ≠ []) <|> default

def checkOption (eval : Evaluator) (types : List OptionType) :
    Option (List Char) → Option (Option (List Char))
  | none => some none
  | some value => (checkType eval value types).map (fun ok => if ok then some value else none)

def looksNumeric (cs : List Char) : Bool :=
  let body :=
    if "..".toList <:+: cs then cs
    else ((cs.dropWhile (fun c => c = '-' || c = '+')).rdropWhile (· = '0')).rdropWhile (· = '.')
  cs = ['0'] || (readDigits body).isSome

def addCustomResource (eval : Evaluator) (d : Dict (List Char) PyValue) (name value : List Char) :
    Option (Dict (List Char) PyValue) :=
  if looksNumeric (strip value) then (readFloat value).map (fun v => d.insert name (.float v))
  else some ((eval value).elim d (d.insert name))

def readCustomPair (cs : List Char) : Option (List Char × List Char) :=
  match cs.splitOn ':' with
  | [name, value] => some (name, value)
  | _ => none

def readCustomResources (eval : Evaluator) (value : List Char) : Option (Dict (List Char) PyValue) := do
  let pairs ← (value.splitOn ';').mapM readCustomPair
  let texts : Dict (List Char) (List Char) := pairs.foldl (fun d p => d.insert p.1 p.2) ∅
  texts.entries.foldlM (fun d e => addCustomResource eval d e.1 e.2) ∅

def optional {α β : Type} (f : α → Option β) : Option α → Option (Option β)
  | none => some none
  | some x => (f x).map some

def configureFramework (eval : Evaluator) (own default : ConfigSection) : Option FrameworkConfig := do
  let mem ← checkOption eval [.num] (configured own.mem default.mem)
  let cpus ← checkOption eval [.num, .float] (configured own.cpus default.cpus)
  let gpus ← checkOption eval [.num] (configured own.gpus default.gpus)
  let disk ← checkOption eval [.num] (configured own.disk default.disk)
  let ports ← checkOption eval [.listTupleNum] (configured own.ports default.ports)
  let customResources ← optional (readCustomResources eval) (own.customResources.filter (· ≠ []))
  return { cpus := cpus, mem := mem, disk := disk, gpus := gpus, ports := ports,
           customResources := customResources }

/-! ## The resources of a slave -/

structure SlaveResources where
  cpus : ℤ
  mem : ℤ
  disk : ℤ
  ports : PyValue
  gpus : Option ℤ := none
  customResources : Option (Dict (List Char) PyValue) := none

def FrameworkConfig.initializeResources (eval : Evaluator) (config : FrameworkConfig) :
    Option SlaveResources := do
  let cpus ← config.cpus.bind readInt
  let mem ← config.mem.bind readInt
  let disk ← config.disk.bind readInt
  let ports ← config.ports.bind eval
  let gpus ← optional readInt config.gpus
  return { cpus := cpus, mem := mem, disk := disk, ports := ports, gpus := gpus,
           customResources := config.customResources }

/-- The value of an entry of an offer. -/
inductive OfferedValue where
  | scalar (v : FloatValue)
  | ranges (l : List (PyValue × PyValue))

def offeredCustom : PyValue → Option (List OfferedValue)
  | .int n => some [.scalar (.num n)]
  | .float v => some [.scalar v]
  | .list vs => (vs.mapM PyValue.unpack).map (fun l => [.ranges l])
  | _ => some []

def offeredEntry (e : (_ : List Char) × PyValue) : Option (List (List Char × OfferedValue)) :=
  (offeredCustom e.2).map (fun l => l.map ((e.1, ·)))

def SlaveResources.buildResources (r : SlaveResources) : Option (List (List Char × OfferedValue)) := do
  let ports ← (← r.ports.iterate).mapM PyValue.unpack
  let custom ← (r.customResources.elim [] (·.entries)).mapM offeredEntry
  return [("cpus".toList, .scalar (.num r.cpus)), ("mem".toList, .scalar (.num r.mem)),
      ("disk".toList, .scalar (.num r.disk)), ("ports".toList, .ranges ports)] ++
    ((r.gpus.filter (· ≠ 0)).toList.map (fun n : ℤ => ("gpus".toList, .scalar (.num n)))) ++
    custom.flatten

/-! ## Accepted and usable -/

lemma isSome_mapM_iff {α β : Type} {f : α → Option β} {l : List α} :
    (l.mapM f).isSome ↔ ∀ x ∈ l, (f x).isSome := by
  induction l with
  | nil => simp
  | cons x l ih =>
    rw [forall_mem_cons, ← ih, mapM_cons]
    cases f x with
    | none => simp
    | some y => cases l.mapM f <;> simp

def PyValue.IsPair (v : PyValue) : Prop := ∃ a b, v.iterate = some [a, b]

lemma PyValue.isSome_unpack_iff {v : PyValue} : v.unpack.isSome ↔ v.IsPair := by
  unfold unpack
  constructor
  · intro h
    split at h
    · next a b heq => exact ⟨a, b, heq⟩
    · exact absurd h nofun
  · rintro ⟨a, b, heq⟩
    rw [heq]
    rfl

lemma isSome_ranges_iff {vs : List PyValue} : (vs.mapM PyValue.unpack).isSome ↔ ∀ v ∈ vs, v.IsPair := by
  rw [isSome_mapM_iff]
  exact forall₂_congr fun v _ => PyValue.isSome_unpack_iff

def PyValue.Offerable (v : PyValue) : Prop := ∀ vs, v = .list vs → ∀ l ∈ vs, l.IsPair

lemma isSome_offeredCustom_iff {v : PyValue} : (offeredCustom v).isSome ↔ v.Offerable := by
  cases v with
  | list vs =>
    show ((vs.mapM PyValue.unpack).map _).isSome ↔ _
    rw [Option.isSome_map, isSome_ranges_iff]
    exact ⟨fun h us heq => PyValue.list.inj heq ▸ h, fun h => h vs rfl⟩
  | _ => exact iff_of_true rfl nofun

namespace SlaveResources

variable {r : SlaveResources}

lemma isSome_buildResources_iff {ls : List PyValue} (hports : r.ports.iterate = some ls) :
    r.buildResources.isSome ↔
      (∀ l ∈ ls, l.IsPair) ∧ ∀ e ∈ r.customResources.elim [] (·.entries), PyValue.Offerable e.2 := by
  have hcustom : ∀ e, (offeredEntry e).isSome ↔ PyValue.Offerable e.2 := by
    intro e
    rw [offeredEntry, Option.isSome_map, isSome_offeredCustom_iff]
  rw [← isSome_ranges_iff, ← forall₂_congr fun e _ => hcustom e, ← isSome_mapM_iff, buildResources, hports]
  simp only [Option.bind_eq_bind, Option.bind_some]
  cases ls.mapM PyValue.unpack with
  | none => simp
  | some l =>
    simp only [Option.bind_some]
    cases (r.customResources.elim [] (·.entries)).mapM offeredEntry <;> simp

lemma lookup_buildResources {offered : List (List Char × OfferedValue)}
    (h : r.buildResources = some offered) :
    offered.lookup "cpus".toList = some (.scalar (.num r.cpus)) ∧
      offered.lookup "mem".toList = some (.scalar (.num r.mem)) ∧
      offered.lookup "disk".toList = some (.scalar (.num r.disk)) := by
  unfold buildResources at h
  obtain ⟨ls, -, h⟩ := bind_eq_some_iff.mp h
  obtain ⟨ports, -, h⟩ := bind_eq_some_iff.mp h
  obtain ⟨custom, -, h⟩ := bind_eq_some_iff.mp h
  obtain rfl := Option.some.inj h
  exact ⟨rfl, rfl, rfl⟩

end SlaveResources

/-! ### The numbers of the service -/

def Resource.entry (r : Resource) : List Char × OfferedValue :=
  (r.name.toList, match r.scalar with
    | some v => .scalar (.num v)
    | none => .ranges ((r.ranges.getD []).map (fun p => (.int p.begin.value, .int p.stop.value))))

def Config.slaveResources (config : Config) : SlaveResources where
  cpus := config.cpus
  mem := config.mem
  disk := config.disk
  gpus := config.gpus
  ports := .list (config.ports.map (fun p => .tuple [.int p.1, .int p.2]))

lemma toInt_intCast (n : ℤ) : toInt (n : ℚ) = n := by
  unfold toInt
  split_ifs
  · exact Rat.ceil_intCast n
  · exact Rat.floor_intCast n

lemma mapM_unpack_tuples (l : List (ℤ × ℤ)) :
    (l.map (fun p => PyValue.tuple [.int p.1, .int p.2])).mapM PyValue.unpack =
      some (l.map (fun p => (.int p.1, .int p.2))) := by
  induction l with
  | nil => rfl
  | cons p l ih =>
    rw [map_cons, mapM_cons, ih]
    rfl

section Accepted

variable {eval : Evaluator} {own default : ConfigSection} {config : FrameworkConfig}

lemma checkType_of_checkOption {types : List OptionType} {o : Option (List Char)} {r : Option (List Char)}
    (h : checkOption eval types o = some r) (v : List Char) (hv : r = some v) :
    checkType eval v types = some true := by
  cases o with
  | none => exact absurd ((Option.some.inj h).trans hv) nofun
  | some value =>
    obtain ⟨ok, hok, rfl⟩ := map_eq_some_iff.mp h
    cases ok with
    | false => exact absurd hv nofun
    | true =>
      obtain rfl : value = v := Option.some.inj hv
      exact hok

/-- The options that have been accepted. -/
structure FrameworkConfig.Checked (eval : Evaluator) (config : FrameworkConfig) : Prop where
  mem : ∀ v, config.mem = some v → checkType eval v [.num] = some true
  cpus : ∀ v, config.cpus = some v → checkType eval v [.num, .float] = some true
  gpus : ∀ v, config.gpus = some v → checkType eval v [.num] = some true
  disk : ∀ v, config.disk = some v → checkType eval v [.num] = some true
  ports : ∀ v, config.ports = some v → checkType eval v [.listTupleNum] = some true

lemma checked_configureFramework (h : configureFramework eval own default = some config) :
    config.Checked eval := by
  unfold configureFramework at h
  obtain ⟨mem, hmem, h⟩ := bind_eq_some_iff.mp h
  obtain ⟨cpus, hcpus, h⟩ := bind_eq_some_iff.mp h
  obtain ⟨gpus, hgpus, h⟩ := bind_eq_some_iff.mp h
  obtain ⟨disk, hdisk, h⟩ := bind_eq_some_iff.mp h
  obtain ⟨ports, hports, h⟩ := bind_eq_some_iff.mp h
  obtain ⟨customResources, -, h⟩ := bind_eq_some_iff.mp h
  obtain rfl := Option.some.inj h
  exact ⟨checkType_of_checkOption hmem, checkType_of_checkOption hcpus, checkType_of_checkOption hgpus,
    checkType_of_checkOption hdisk, checkType_of_checkOption hports⟩

lemma strip_of_isIntChar {cs : List Char} (h : ∀ c ∈ cs, isIntChar c) : strip cs = cs := by
  have hblank : ∀ c : Char, isIntChar c → ¬ isBlank c := by
    intro c hc hb
    simp only [isBlank, decide_eq_true_eq, mem_cons, not_mem_nil, or_false] at hb
    rcases hb with rfl | rfl | rfl | rfl | rfl | rfl <;> exact absurd hc (by decide)
  rw [strip, dropWhile_eq_self_iff.mpr, rdropWhile_eq_self_iff.mpr]
  · exact fun hne => hblank _ (h _ (getLast_mem hne))
  · exact fun hne => hblank _ (h _ (getElem_mem hne))

lemma readInt_of_digits {cs : List Char} (h : ∀ c ∈ cs, c.isDigit) :
    readInt cs = (readDigits cs).map Int.ofNat := by
  have hstrip : strip cs = cs := strip_of_isIntChar fun c hc => by simp [isIntChar, h c hc]
  rw [readInt, hstrip]
  split
  · exact absurd (h '-' mem_cons_self) (by decide)
  · exact absurd (h '+' mem_cons_self) (by decide)
  · rfl

lemma readInt_of_num {v : List Char} (h : checkType eval v [.num] = some true) : (readInt v).isSome := by
  have hdigits : (readDigits v).isSome := by
    by_contra hno
    rw [checkType, if_neg hno] at h
    exact absurd h (by simp [checkType])
  rw [readInt_of_digits (readDigits_isSome_iff.mp hdigits).2, Option.isSome_map]
  exact hdigits

lemma readFloat_of_float {v : List Char} (h : checkType eval v [.num, .float] = some true) :
    (readFloat v).isSome := by
  by_cases hnum : checkType eval v [.num] = some true
  · obtain ⟨n, hn⟩ := isSome_iff_exists.mp (readInt_of_num hnum)
    rw [readFloat_of_isIntegral (isIntegral_of_readInt hn), hn]
    rfl
  · by_contra hno
    have hdigits : ¬ (readDigits v).isSome := fun hd => hnum (if_pos hd)
    rw [checkType, if_neg hdigits, checkType, if_neg hno] at h
    exact absurd h (by simp [checkType])

lemma readInt_of_float {v : List Char} (h : checkType eval v [.num, .float] = some true) :
    (readInt v).isSome ↔ IsIntegral v := by
  constructor
  · intro hsome
    obtain ⟨n, hn⟩ := isSome_iff_exists.mp hsome
    exact isIntegral_of_readInt hn
  · intro hint
    have hfloat := readFloat_of_float h
    rwa [readFloat_of_isIntegral hint, Option.isSome_map] at hfloat

lemma iterate_of_listTupleNum {v : List Char} (h : checkType eval v [.listTupleNum] = some true) :
    ∃ value ls, eval v = some value ∧ value.iterate = some ls := by
  unfold checkType at h
  cases heval : eval v with
  | none =>
    rw [heval] at h
    exact absurd h (by simp)
  | some value =>
    rw [heval] at h
    obtain ⟨ls, hls, -⟩ := bind_eq_some_iff.mp h
    exact ⟨value, ls, rfl, hls⟩

def FrameworkConfig.Usable (eval : Evaluator) (config : FrameworkConfig) (cpus mem disk : List Char) :
    Prop :=
  ∃ slave offered, config.initializeResources eval = some slave ∧ slave.buildResources = some offered ∧
    ∀ p ∈ [("cpus".toList, cpus), ("mem".toList, mem), ("disk".toList, disk)],
      ∃ q, number p.2 = some q ∧ offered.lookup p.1 = some (.scalar (.num q))

def PortPairs (eval : Evaluator) (ports : List Char) : Prop :=
  ∀ value ls, eval ports = some value → value.iterate = some ls → ∀ l ∈ ls, l.IsPair

def FrameworkConfig.CustomPairs (config : FrameworkConfig) : Prop :=
  ∀ d, config.customResources = some d → ∀ e ∈ d.entries, PyValue.Offerable e.2

variable {cpus mem disk ports : List Char}

lemma initializeResources_iff (hcpus : config.cpus = some cpus) (hmem : config.mem = some mem)
    (hdisk : config.disk = some disk) (hports : config.ports = some ports) {slave : SlaveResources} :
    config.initializeResources eval = some slave ↔
      readInt cpus = some slave.cpus ∧ readInt mem = some slave.mem ∧ readInt disk = some slave.disk ∧
        eval ports = some slave.ports ∧ optional readInt config.gpus = some slave.gpus ∧
        config.customResources = slave.customResources := by
  unfold FrameworkConfig.initializeResources
  rw [hcpus, hmem, hdisk, hports]
  simp only [Option.bind_eq_bind, Option.bind_some, bind_eq_some_iff, Option.pure_def]
  constructor
  · rintro ⟨c, hc, m, hm, d, hd, v, hv, g, hg, heq⟩
    obtain rfl := Option.some.inj heq
    exact ⟨hc, hm, hd, hv, hg, rfl⟩
  · rintro ⟨hc, hm, hd, hv, hg, hcustom⟩
    exact ⟨_, hc, _, hm, _, hd, _, hv, _, hg, by rw [hcustom]⟩

theorem accepted_usable_iff (hconfig : configureFramework eval own default = some config)
    (hcpus : config.cpus = some cpus) (hmem : config.mem = some mem) (hdisk : config.disk = some disk)
    (hports : config.ports = some ports) :
    config.Usable eval cpus mem disk ↔
      IsIntegral cpus ∧ PortPairs eval ports ∧ config.CustomPairs := by
  have hchecked := checked_configureFramework hconfig
  obtain ⟨value, ls, heval, hls⟩ := iterate_of_listTupleNum (hchecked.ports ports hports)
  have hpairs : PortPairs eval ports ↔ ∀ l ∈ ls, l.IsPair := by
    constructor
    · exact fun h => h value ls heval hls
    · intro h value' ls' heval' hls'
      obtain rfl := Option.some.inj (heval.symm.trans heval')
      obtain rfl := Option.some.inj (hls.symm.trans hls')
      exact h
  have hcustom : config.CustomPairs ↔
      ∀ e ∈ config.customResources.elim [] (·.entries), PyValue.Offerable e.2 := by
    unfold FrameworkConfig.CustomPairs
    cases config.customResources with
    | none => exact iff_of_true nofun nofun
    | some d => exact ⟨fun h => h d rfl, fun h d' heq => Option.some.inj heq ▸ h⟩
  rw [hpairs, hcustom, ← readInt_of_float (hchecked.cpus cpus hcpus)]
  constructor
  · rintro ⟨slave, offered, hinit, hbuild, -⟩
    obtain ⟨hc, -, -, hv, -, hd⟩ := (initializeResources_iff hcpus hmem hdisk hports).mp hinit
    obtain rfl := Option.some.inj (heval.symm.trans hv)
    have hsome := (SlaveResources.isSome_buildResources_iff hls).mp (Option.isSome_of_eq_some hbuild)
    exact ⟨Option.isSome_of_eq_some hc, hsome.1, hd ▸ hsome.2⟩
  · rintro ⟨hc, hpairs, hoffer⟩
    obtain ⟨c, hc⟩ := Option.isSome_iff_exists.mp hc
    obtain ⟨m, hm⟩ := Option.isSome_iff_exists.mp (readInt_of_num (hchecked.mem mem hmem))
    obtain ⟨d, hd⟩ := Option.isSome_iff_exists.mp (readInt_of_num (hchecked.disk disk hdisk))
    obtain ⟨g, hg⟩ : ∃ g, optional readInt config.gpus = some g := by
      cases hgpus : config.gpus with
      | none => exact ⟨none, rfl⟩
      | some gpus =>
        obtain ⟨n, hn⟩ := Option.isSome_iff_exists.mp (readInt_of_num (hchecked.gpus gpus hgpus))
        exact ⟨some n, by rw [optional, hn]; rfl⟩
    let slave : SlaveResources :=
      { cpus := c, mem := m, disk := d, ports := value, gpus := g, customResources := config.customResources }
    have hinit : config.initializeResources eval = some slave :=
      (initializeResources_iff hcpus hmem hdisk hports).mpr ⟨hc, hm, hd, heval, hg, rfl⟩
    obtain ⟨offered, hoffered⟩ := Option.isSome_iff_exists.mp
      ((SlaveResources.isSome_buildResources_iff (r := slave) hls).mpr ⟨hpairs, hoffer⟩)
    obtain ⟨hcpu, hmemory, hdisks⟩ := SlaveResources.lookup_buildResources hoffered
    refine ⟨slave, offered, hinit, hoffered, ?_⟩
    simp only [forall_mem_cons, not_mem_nil, false_imp_iff, implies_true, and_true]
    exact ⟨⟨c, number_of_readInt hc, hcpu⟩, ⟨m, number_of_readInt hm, hmemory⟩,
      ⟨d, number_of_readInt hd, hdisks⟩⟩

/-! ### Half a cpu -/

def evalPorts : Evaluator := fun cs =>
  if cs = "[(1,2)]".toList then some (.list [.tuple [.int 1, .int 2]]) else none

def smallSection (cpus : String) : ConfigSection where
  cpus := some cpus.toList
  mem := some "64".toList
  disk := some "10".toList
  gpus := some "1".toList
  ports := some "[(1,2)]".toList

def smallOptions (cpus : String) : FrameworkConfig where
  cpus := some cpus.toList
  mem := some "64".toList
  disk := some "10".toList
  gpus := some "1".toList
  ports := some "[(1,2)]".toList

lemma configured_of_ne_nil {value : List Char} (h : value ≠ []) (other : Option (List Char)) :
    configured (some value) other = some value := by
  simp [configured, h]

lemma configureFramework_small {text : String} (hne : text.toList ≠ [])
    (h : checkOption evalPorts [.num, .float] (some text.toList) = some (some text.toList)) :
    configureFramework evalPorts (smallSection text) {} = some (smallOptions text) := by
  have hmem : checkOption evalPorts [.num] (some "64".toList) = some (some "64".toList) := by decide +kernel
  have hdisk : checkOption evalPorts [.num] (some "10".toList) = some (some "10".toList) := by decide +kernel
  have hgpus : checkOption evalPorts [.num] (some "1".toList) = some (some "1".toList) := by decide +kernel
  have hports : checkOption evalPorts [.listTupleNum] (some "[(1,2)]".toList) =
      some (some "[(1,2)]".toList) := by decide +kernel
  unfold configureFramework
  rw [smallSection, configured_of_ne_nil hne, configured_of_ne_nil (by decide), configured_of_ne_nil (by decide),
    configured_of_ne_nil (by decide), configured_of_ne_nil (by decide), hmem, hdisk, hgpus, hports, h]
  rfl

theorem accepted_usable_two :
    (smallOptions "2").Usable evalPorts "2".toList "64".toList "10".toList := by
  refine (accepted_usable_iff (configureFramework_small (by decide) (by decide +kernel)) rfl rfl rfl rfl).mpr
    ⟨by decide +kernel, ?_, nofun⟩
  intro value ls heval hls l hl
  obtain rfl := Option.some.inj heval
  obtain rfl := Option.some.inj hls
  obtain rfl := mem_singleton.mp hl
  exact ⟨.int 1, .int 2, rfl⟩

theorem accepted_half_raises :
    configureFramework evalPorts (smallSection "0.5") {} = some (smallOptions "0.5") ∧
      (smallOptions "0.5").initializeResources evalPorts = none ∧
      ¬ (smallOptions "0.5").Usable evalPorts "0.5".toList "64".toList "10".toList := by
  have hraises : (smallOptions "0.5").initializeResources evalPorts = none := by
    have hcpus : readInt "0.5".toList = none := by decide +kernel
    rw [FrameworkConfig.initializeResources, smallOptions, Option.bind_some, hcpus]
    rfl
  refine ⟨configureFramework_small (by decide) (by decide +kernel), hraises, ?_⟩
  rintro ⟨slave, offered, hinit, -⟩
  exact absurd (hraises.symm.trans hinit) nofun

end Accepted

end Urb
