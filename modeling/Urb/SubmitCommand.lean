/-
# `Urb.SubmitCommand` — the submit command for a task in a Docker container

`register_framework` of the adapter turns the first task of a request into options of
`qsub`, and `__submit_jobs` puts them behind those of the framework:

    -clear -v k=v -terse -jc class  [submit options]
        -pe URBDefaultPE n  -soft|-hard -l m_mem_free=nM
        -hard -l gpu=n  -hard -l custom=n
        -l docker -soft -l docker_images=*image*  -xd ...

`qsub` reads `-soft` and `-hard` as switches.  The request for Docker relies on the mode
that the options before it have left:

    resource_mapping soft, mem 64    gives    -soft -l m_mem_free=64M -l docker ...

**Proved here.**  Docker is asked for in hard mode, and `docker_images` is the only soft
request behind it, exactly if the last option before it that switches the mode, as the
texts of the request have it, is not a soft one, and no text of the container asks for a
resource of its own (`docker_hard_iff`).
-/
import Urb.SubmitOptions

namespace Urb

open List Nat

/-! ## How `qsub` reads its arguments -/

namespace Qsub

inductive Mode where
  | hard
  | soft
  deriving Repr, DecidableEq

def softOption : List Char := "-soft".toList

def hardOption : List Char := "-hard".toList

def requestOption : List Char := "-l".toList

def argv (cs : List Char) : List (List Char) := cs.splitOn ' '

def Mode.next (m : Mode) (w : List Char) : Mode :=
  if w = softOption then .soft else if w = hardOption then .hard else m

def modeAfter (m : Mode) (ws : List (List Char)) : Mode := ws.foldl Mode.next m

def requests (m : Mode) : List (List Char) → List (Mode × List Char)
  | [] => []
  | w :: ws => (if w = requestOption then ws.head?.toList.map (m, ·) else []) ++ requests (m.next w) ws

def softRequests (m : Mode) (ws : List (List Char)) : List (List Char) :=
  (requests m ws).filterMap (fun r => if r.1 = .soft then some r.2 else none)

example : requests .hard (argv "-l a -soft -l b -q c -l d -hard -l e".toList) =
    [(.hard, "a".toList), (.soft, "b".toList), (.soft, "d".toList), (.hard, "e".toList)] := by
  decide +kernel

variable {m : Mode} {w : List Char}

lemma modeAfter_append (us vs : List (List Char)) :
    modeAfter m (us ++ vs) = modeAfter (modeAfter m us) vs := foldl_append

lemma argv_append (us vs : List Char) : argv (us ++ ' ' :: vs) = argv us ++ argv vs :=
  splitOnP_append_cons us vs rfl

lemma argv_ne_nil (cs : List Char) : argv cs ≠ [] := splitOnP_ne_nil _ cs

lemma argv_of_noBlank (h : ' ' ∉ w) : argv w = [w] := by
  refine splitOnP_eq_singleton fun c hc => ?_
  rw [beq_eq_false_iff_ne]
  rintro rfl
  exact h hc

lemma argv_glue (h : ' ' ∉ w) (cs : List Char) : argv (w ++ cs) = (argv cs).modifyHead (w ++ ·) := by
  induction w with
  | nil => exact (congrFun modifyHead_id (argv cs)).symm
  | cons c w ih =>
    have hc : ¬ (c == ' ') := by
      rw [beq_iff_eq]
      rintro rfl
      exact h mem_cons_self
    have hw := ih fun hmem => h (mem_cons_of_mem c hmem)
    rw [cons_append, argv, List.splitOn, splitOnP_cons_eq_if_modifyHead, if_neg hc]
    show (argv (w ++ cs)).modifyHead (List.cons c) = _
    rw [hw, modifyHead_modifyHead]
    rfl

lemma softRequests_cons (ws : List (List Char)) : softRequests m (w :: ws) =
      (if w = requestOption ∧ m = .soft then ws.head?.toList else []) ++ softRequests (m.next w) ws := by
  rw [softRequests, requests, filterMap_append]
  congr 1
  by_cases hw : w = requestOption
  · cases m <;> cases ws <;> simp [hw]
  · simp [hw]

lemma softRequests_eq_nil_iff {ws : List (List Char)} : softRequests m ws = [] ↔
      ∀ us v vs, ws = us ++ requestOption :: v :: vs → modeAfter m us = .hard := by
  induction ws generalizing m with
  | nil => simp [softRequests, requests]
  | cons w ws ih =>
    rw [softRequests_cons, append_eq_nil_iff, ih]
    constructor
    · rintro ⟨hfirst, hrest⟩ us v vs heq
      cases us with
      | nil =>
        obtain ⟨rfl, rfl⟩ := List.cons.inj heq
        cases m with
        | hard => rfl
        | soft => simp at hfirst
      | cons u us =>
        obtain ⟨rfl, rfl⟩ := List.cons.inj heq
        exact hrest us v vs rfl
    · intro h
      refine ⟨?_, fun us v vs heq => h (w :: us) v vs (by rw [heq]; rfl)⟩
      cases ws with
      | nil => simp
      | cons v vs =>
        refine if_neg ?_
        rintro ⟨rfl, rfl⟩
        exact absurd (h [] v vs rfl) nofun

/-! ### The mode behind a text -/

def Mode.read (m : Mode) (cs : List Char) : Mode := modeAfter m (argv cs)

lemma read_append (us vs : List Char) : m.read (us ++ ' ' :: vs) = (m.read us).read vs := by
  rw [Mode.read, argv_append, modeAfter_append]
  rfl

lemma read_of_noBlank (h : ' ' ∉ w) : m.read w = m.next w := by
  rw [Mode.read, argv_of_noBlank h]
  rfl

lemma next_eq (hsoft : w ≠ softOption) (hhard : w ≠ hardOption) : m.next w = m := by
  rw [Mode.next, if_neg hsoft, if_neg hhard]

def NoSwitch (w : List Char) : Prop := ' ' ∉ w ∧ w ≠ softOption ∧ w ≠ hardOption

instance (w : List Char) : Decidable (NoSwitch w) := inferInstanceAs (Decidable (_ ∧ _ ∧ _))

lemma NoSwitch.read (h : NoSwitch w) : m.read w = m := by
  rw [read_of_noBlank h.1, next_eq h.2.1 h.2.2]

lemma NoSwitch.read_append (h : NoSwitch w) (cs : List Char) : m.read (w ++ ' ' :: cs) = m.read cs := by
  rw [Qsub.read_append, h.read]

@[simp] lemma read_nil : m.read [] = m := NoSwitch.read (by decide)

lemma noSwitch_of_mem {c : Char} (hc : c ∈ w) (hblank : ' ' ∉ w) (hsoft : c ∉ softOption)
    (hhard : c ∉ hardOption) : NoSwitch w := by
  refine ⟨hblank, ?_, ?_⟩
  · rintro rfl
    exact hsoft hc
  · rintro rfl
    exact hhard hc

lemma modeAfter_flatMap (ts : List (List Char)) : modeAfter m (ts.flatMap argv) = ts.foldl Mode.read m := by
  induction ts generalizing m with
  | nil => rfl
  | cons t ts ih =>
    rw [flatMap_cons, modeAfter_append, ih]
    rfl

end Qsub

/-! ## The request -/

structure UgeAdapter where
  urbRoot : List Char
  ugeRoot : List Char
  redisHost : List Char
  redisIp : List Char
  home : List Char → List Char

structure PortMapping where
  hostPort : ℕ
  containerPort : ℕ
  protocol : Option (List Char) := none

structure Volume where
  containerPath : Option (List Char) := none
  hostPath : Option (List Char) := none
  mode : Option (List Char) := none

structure Docker where
  image : Option (List Char) := none
  network : Option (List Char) := none
  portMappings : List PortMapping := []
  privileged : Bool := false
  parameters : List (List Char × List Char) := []

inductive ContainerType where
  | docker
  | mesos
  deriving Repr, DecidableEq

structure Container where
  type : Option ContainerType := none
  docker : Option Docker := none
  volumes : List Volume := []
  hostname : Option (List Char) := none
  networkInfos : List (List (Option (List Char))) := []

/-- What `register_framework` reads of a task. -/
structure JobTask where
  resources : Option (List Resource) := none
  container : Option Container := none

structure FrameworkJob where
  jobClass : Option (List Char)
  env : List (List Char × List Char) := []
  submitOptions : Option (List Char) := none
  tasks : Option (List JobTask) := none
  resourceMapping : List Char := []
  customResources : List (List Char) := []
  submitClear : Bool := true
  user : Option (List Char) := none

/-! ## The options for the resources -/

def intText (n : ℤ) : List Char := (toString n).toList

structure Need where
  mem : Option ℤ := none
  slots : Option ℤ := none
  gpus : Option ℤ := none

def Need.add (need : Need) (r : Resource) : Option Need :=
  if r.name = "mem" then r.scalar.map (fun v => { need with mem := some (toInt v) })
  else if r.name = "cpus" then
    -- `round` takes halves up here
    r.scalar.map (fun v : ℚ => if 3 / 2 ≤ v then { need with slots := some (v + 1 / 2).floor } else need)
  else if r.name = "gpus" then r.scalar.map (fun v => { need with gpus := some (toInt v) })
  else some need

def readNeed (rs : List Resource) : Option Need := rs.foldlM Need.add {}

def softEntry : List Char := "soft".toList

def hardEntry : List Char := "hard".toList

def gpusEntry : List Char := "gpus:".toList

def slotOptions (maps : List (List Char)) (need : Need) : List (List Char) :=
  match need.slots with
  | none => []
  | some slots =>
    if softEntry ∈ maps then []
    else if hardEntry ∈ maps then ["-pe URBDefaultPE ".toList ++ intText slots]
    else []

def memOptions (maps : List (List Char)) (need : Need) : List (List Char) :=
  match need.mem with
  | none => []
  | some mem =>
    if softEntry ∈ maps then ["-soft -l m_mem_free=".toList ++ intText mem ++ ['M']]
    else if hardEntry ∈ maps then
      -- scaled down to the slots
      let mem := need.slots.elim mem (mem / ·)
      ["-hard -l m_mem_free=".toList ++ intText mem ++ ['M']]
    else []

def gpuMap (maps : List (List Char)) : Option (List Char) :=
  ((maps.find? gpusEntry.isPrefixOf).map (·.drop 5)).filter (· ≠ [])

def customRequest (name entry : List Char) : Option (List Char) :=
  match entry.splitOn ':' with
  | n :: rsmap :: rest =>
    if n = name ∧ rsmap ≠ [] then
      some (rsmap ++ '=' :: ((rest.head?.filter (· ≠ [])).getD ['1']))
    else none
  | _ => none

def customRequests (maps names : List (List Char)) : List (List Char) :=
  let maps := (maps.erase softEntry).erase hardEntry
  names.flatMap (fun name => maps.filterMap (customRequest name))

def hardRequests (maps : List (List Char)) (need : Need) (names : List (List Char)) :
    Option (List (List Char)) :=
  match need.gpus with
  | none => some (customRequests maps names)
  | some n => (gpuMap maps).map (fun rsmap => (rsmap ++ '=' :: intText n) :: customRequests maps names)

def resourceOptions (maps : List (List Char)) (need : Need) (names : List (List Char)) :
    Option (List (List Char)) :=
  (hardRequests maps need names).map (fun rs =>
    slotOptions maps need ++ memOptions maps need ++ rs.map ("-hard -l ".toList ++ ·))

/-! ## The options for the container -/

def taggedImage (image : List Char) : List Char :=
  if ':' ∈ image.rtakeWhile (· ≠ '/') then image else image ++ ":latest".toList

def imageRequest (image : List Char) : List Char :=
  "docker_images=".toList ++ '*' :: (taggedImage image ++ ['*'])

def xd (cs : List Char) : List Char := "-xd --".toList ++ cs

def volumeOption (host container mode : List Char) : List Char :=
  xd ("volume=".toList ++ host ++ ':' :: container ++ ':' :: mode)

def publishOption (p : PortMapping) : List Char :=
  xd ("publish=".toList ++ intText p.hostPort ++ ':' :: intText p.containerPort ++
    p.protocol.elim [] ('/' :: ·))

def Volume.option (v : Volume) : List Char :=
  let path := v.containerPath.getD []
  volumeOption (v.hostPath.getD path) path ((v.mode.getD "rw".toList).map Char.toLower)

def containerOptions (a : UgeAdapter) (user : List Char) (c : Container) (d : Docker) :
    List (List Char) :=
  let home := a.home ('~' :: user)
  d.network.toList.map (fun n => xd ("net=".toList ++ n.map Char.toLower)) ++
    d.portMappings.map publishOption ++
    (if d.privileged then [xd "privileged".toList] else []) ++
    d.parameters.map (fun p => xd (p.1 ++ '=' :: p.2)) ++
    [home, a.urbRoot, a.ugeRoot].map (fun dir => volumeOption dir dir "rw".toList) ++
    c.volumes.map Volume.option ++
    c.hostname.toList.map (fun h => xd ("hostname=".toList ++ h)) ++
    c.networkInfos.flatMap (·.filterMap (Option.map fun ip => xd ("ip=".toList ++ ip))) ++
    ["-o ".toList ++ home ++ " -e ".toList ++ home,
      xd ("add-host=".toList ++ a.redisHost ++ ':' :: a.redisIp),
      "-pty y".toList]

def dockerArgs (a : UgeAdapter) (user : List Char) (c : Container) (d : Docker) (image : List Char) :
    List Char :=
  Text.join ' ' (("-l docker -soft -l ".toList ++ imageRequest image) :: containerOptions a user c d)

def containerOption (a : UgeAdapter) (user : Option (List Char)) (c : Container) :
    Option (List (List Char)) :=
  match c.type, c.docker with
  | some .docker, some d =>
    match d.image with
    | none => some []
    | some image => user.map (fun user => [dockerArgs a user c d image])
  | _, _ => some []

/-! ## The command -/

namespace FrameworkJob

variable (job : FrameworkJob)

def maps : List (List Char) := job.resourceMapping.splitOn ';'

def mapped (t : JobTask) : Option (List Resource) :=
  if job.resourceMapping = [] then none else t.resources

def filteredOptions : List (List Char) :=
  (job.submitOptions.toList.map filterSubmitOptions).filter (· ≠ [])

def taskResources (t : JobTask) : Option (List (List Char)) :=
  match job.mapped t with
  | none => some []
  | some rs => (readNeed rs).bind (fun need => resourceOptions job.maps need job.customResources)

def taskOptions (a : UgeAdapter) (t : JobTask) : Option (List (List Char)) := do
  let resources ← job.taskResources t
  let container ← t.container.elim (some []) (containerOption a job.user)
  return resources ++ container

def envTexts : List (List Char) := job.env.map (fun p => p.1 ++ '=' :: p.2)

def command (jobClass : List Char) (options : List (List Char)) : List Char :=
  let cmd := (if job.submitClear then "-clear ".toList else []) ++ "-v ".toList ++
    " -v ".toList.intercalate job.envTexts ++ " -terse -jc ".toList ++ jobClass
  if options = [] then cmd else cmd ++ ' ' :: Text.join ' ' options

def submitCommand (a : UgeAdapter) : Option (List Char) := do
  let jobClass ← job.jobClass
  let options ← match job.tasks with
    | none => some []
    | some [] => none
    | some (t :: _) => job.taskOptions a t
  return job.command jobClass (job.filteredOptions ++ options)

end FrameworkJob

/-! ## The mode before the container -/

section Mode

open Qsub

variable {m : Mode}

lemma intText_ofNat (n : ℕ) : intText n = toDigits 10 n := String.toList_ofList

lemma intText_negSucc (n : ℕ) : intText (.negSucc n) = '-' :: toDigits 10 (n + 1) := by
  simp [intText, toString, Int.repr]

lemma mem_intText {n : ℤ} {c : Char} (hc : c ∈ intText n) : c = '-' ∨ c.isDigit := by
  cases n with
  | ofNat n =>
    rw [Int.ofNat_eq_natCast, intText_ofNat] at hc
    exact .inr (isDigit_of_mem_toDigits (by decide) (by decide) hc)
  | negSucc n =>
    rw [intText_negSucc] at hc
    exact (mem_cons.mp hc).imp_right (isDigit_of_mem_toDigits (by decide) (by decide))

lemma noBlank_intText (n : ℤ) : ' ' ∉ intText n := by
  intro hblank
  exact absurd (mem_intText hblank) (by decide)

lemma noSwitch_intText (n : ℤ) : NoSwitch (intText n) := by
  refine ⟨noBlank_intText n, ?_, ?_⟩
  · intro heq
    have hmem : 's' ∈ intText n := by rw [heq]; decide
    exact absurd (mem_intText hmem) (by decide)
  · intro heq
    have hmem : 'h' ∈ intText n := by rw [heq]; decide
    exact absurd (mem_intText hmem) (by decide)

lemma noSwitch_memFree (n : ℤ) : NoSwitch ("m_mem_free=".toList ++ intText n ++ ['M']) := by
  have hblank : ' ' ∉ "m_mem_free=".toList ++ intText n ++ ['M'] := by
    simp [noBlank_intText]
  exact noSwitch_of_mem (mem_append_right _ mem_cons_self) hblank (by decide) (by decide)

lemma read_hard (cs : List Char) : m.read ("-hard -l ".toList ++ cs) = Mode.hard.read cs := by
  have hsplit : "-hard -l ".toList ++ cs = hardOption ++ ' ' :: (requestOption ++ ' ' :: cs) := by
    simp only [hardOption, requestOption, String.reduceToList, cons_append, nil_append]
  have hswitch : m.read hardOption = .hard := by cases m <;> decide
  rw [hsplit, read_append, hswitch, NoSwitch.read_append (by decide)]

lemma read_soft (cs : List Char) : m.read ("-soft -l ".toList ++ cs) = Mode.soft.read cs := by
  have hsplit : "-soft -l ".toList ++ cs = softOption ++ ' ' :: (requestOption ++ ' ' :: cs) := by
    simp only [softOption, requestOption, String.reduceToList, cons_append, nil_append]
  have hswitch : m.read softOption = .soft := by cases m <;> decide
  rw [hsplit, read_append, hswitch, NoSwitch.read_append (by decide)]

lemma read_slotOptions (maps : List (List Char)) (need : Need) :
    (slotOptions maps need).foldl Mode.read m = m := by
  unfold slotOptions
  split
  · rfl
  · next slots _ =>
      split_ifs
      · rfl
      · have hsplit : "-pe URBDefaultPE ".toList ++ intText slots =
            "-pe".toList ++ ' ' :: ("URBDefaultPE".toList ++ ' ' :: intText slots) := by
          simp
        show m.read _ = m
        rw [hsplit, NoSwitch.read_append (by decide), NoSwitch.read_append (by decide), (noSwitch_intText slots).read]
      · rfl

lemma read_memOptions (maps : List (List Char)) (need : Need) :
    (memOptions maps need).foldl Mode.read m = if need.mem = none then m
      else if softEntry ∈ maps then .soft else if hardEntry ∈ maps then .hard else m := by
  unfold memOptions
  cases hmem : need.mem with
  | none => rfl
  | some mem =>
    rw [if_neg nofun]
    show (ite _ _ _ : List (List Char)).foldl Mode.read m = _
    split_ifs
    · show m.read ("-soft -l ".toList ++ ("m_mem_free=".toList ++ intText mem ++ ['M'])) = _
      rw [read_soft, (noSwitch_memFree mem).read]
    · show m.read ("-hard -l ".toList ++ ("m_mem_free=".toList ++ intText _ ++ ['M'])) = _
      rw [read_hard, (noSwitch_memFree _).read]
    · rfl

lemma read_hardRequests (rs : List (List Char)) :
    (rs.map ("-hard -l ".toList ++ ·)).foldl Mode.read m = (rs.getLast?.map Mode.hard.read).getD m := by
  rcases eq_nil_or_concat rs with rfl | ⟨us, r, rfl⟩
  · rfl
  · rw [concat_eq_append, map_append, foldl_append]
    show Mode.read _ ("-hard -l ".toList ++ r) = _
    rw [read_hard, List.getLast?_concat]
    rfl

/-! ### The mode behind a list of texts -/

lemma argv_join {ts : List (List Char)} (hts : ts ≠ []) : argv (Text.join ' ' ts) = ts.flatMap argv := by
  induction ts with
  | nil => exact absurd rfl hts
  | cons t ts ih =>
    cases ts with
    | nil => rw [flatMap_singleton]; rfl
    | cons u us =>
      rw [flatMap_cons, ← ih nofun]
      exact argv_append t _

lemma read_intercalate (ts : List (List Char)) :
    m.read (" -v ".toList.intercalate ts) = ts.foldl Mode.read m := by
  induction ts generalizing m with
  | nil => exact read_nil
  | cons t ts ih =>
    cases ts with
    | nil => simp [List.intercalate]
    | cons u us =>
      have hsplit : " -v ".toList.intercalate (t :: u :: us) =
          t ++ ' ' :: ("-v".toList ++ ' ' :: " -v ".toList.intercalate (u :: us)) := by
        simp [List.intercalate]
      rw [hsplit, read_append, NoSwitch.read_append (by decide), ih]
      rfl

lemma read_command (job : FrameworkJob) (jobClass : List Char) :
    m.read (job.command jobClass []) = (job.envTexts ++ [jobClass]).foldl Mode.read m := by
  have hclear (cs : List Char) :
      m.read ((if job.submitClear then "-clear ".toList else []) ++ cs) = m.read cs := by
    split_ifs
    · exact NoSwitch.read_append (w := "-clear".toList) (by decide) cs
    · rfl
  have hv (cs : List Char) : "-v ".toList ++ cs = "-v".toList ++ ' ' :: cs := by
    simp
  have hterse (cs : List Char) : " -terse -jc ".toList ++ cs =
      ' ' :: ("-terse".toList ++ ' ' :: ("-jc".toList ++ ' ' :: cs)) := by
    simp
  have hcmd : job.command jobClass [] =
      (if job.submitClear then "-clear ".toList else []) ++ "-v ".toList ++
        " -v ".toList.intercalate job.envTexts ++ " -terse -jc ".toList ++ jobClass := by
    rw [FrameworkJob.command, if_pos rfl]
  rw [hcmd, append_assoc, append_assoc, append_assoc, hclear, hv, hterse,
    NoSwitch.read_append (by decide), read_append, read_intercalate, NoSwitch.read_append (by decide),
    NoSwitch.read_append (by decide), foldl_append]
  rfl

lemma read_filteredOptions (job : FrameworkJob) : job.filteredOptions.foldl Mode.read m =
      (job.submitOptions.toList.map filterSubmitOptions).foldl Mode.read m := by
  unfold FrameworkJob.filteredOptions
  cases job.submitOptions with
  | none => rfl
  | some options =>
    by_cases hempty : filterSubmitOptions options = []
    · simp [hempty]
    · simp [hempty]

/-! ## Docker as a requirement -/

def DockerHard (args cmd : List Char) : Prop :=
  ∃ before rest, argv cmd = before ++ argv args ∧ argv args = requestOption :: "docker".toList :: rest ∧
    modeAfter .hard before = .hard ∧ ∃ images, softRequests .hard rest = ["docker_images=".toList ++ images]

def FrameworkJob.frontTexts (job : FrameworkJob) : List (List Char) :=
  job.envTexts ++ job.jobClass.toList ++ job.submitOptions.toList.map filterSubmitOptions

def FrameworkJob.FrontHard (job : FrameworkJob) : Prop := job.frontTexts.foldl Mode.read .hard = .hard

def FrameworkJob.KeepsHard (job : FrameworkJob) (t : JobTask) : Prop :=
  match (job.mapped t).bind readNeed with
  | none => job.FrontHard
  | some need =>
    match (hardRequests job.maps need job.customResources).bind List.getLast? with
    | some text => Mode.hard.read text = .hard
    | none =>
      if need.mem = none then job.FrontHard
      else softEntry ∉ job.maps ∧ (hardEntry ∉ job.maps → job.FrontHard)

def NoSoftRequest (ts : List (List Char)) : Prop :=
  ∀ us v vs, ts.flatMap argv = us ++ requestOption :: v :: vs → modeAfter .soft us = .hard

variable {a : UgeAdapter} {job : FrameworkJob} {t : JobTask}

lemma argv_command (jobClass : List Char) (options : List (List Char)) (args : List Char) :
    argv (job.command jobClass (options ++ [args])) =
      argv (job.command jobClass []) ++ options.flatMap argv ++ argv args := by
  have hne : options ++ [args] ≠ [] := by simp
  have hcmd : job.command jobClass (options ++ [args]) =
      job.command jobClass [] ++ ' ' :: Text.join ' ' (options ++ [args]) := if_neg hne
  rw [hcmd, argv_append, argv_join hne, flatMap_append, flatMap_singleton, append_assoc]

lemma read_taskResources {rs : List (List Char)} (h : job.taskResources t = some rs) :
    rs.foldl Mode.read (job.frontTexts.foldl Mode.read .hard) = .hard ↔ job.KeepsHard t := by
  unfold FrameworkJob.taskResources at h
  unfold FrameworkJob.KeepsHard
  cases hmapped : job.mapped t with
  | none =>
    rw [hmapped] at h
    obtain rfl : [] = rs := Option.some.inj h
    exact .rfl
  | some resources =>
    rw [hmapped] at h
    obtain ⟨need, hneed, hopts⟩ := bind_eq_some_iff.mp h
    obtain ⟨hards, hhards, rfl⟩ := map_eq_some_iff.mp hopts
    rw [Option.bind_some, hneed]
    show _ ↔ (match (hardRequests job.maps need job.customResources).bind List.getLast? with
      | some text => Mode.hard.read text = .hard
      | none => _)
    rw [hhards, Option.bind_some, foldl_append, foldl_append, read_slotOptions,
      read_memOptions, read_hardRequests]
    cases hards.getLast? with
    | some text => exact .rfl
    | none =>
      show (if need.mem = none then _ else _) = Mode.hard ↔ _
      split_ifs with hmem hsoft hhard
      · exact .rfl
      · exact iff_of_false nofun fun hkeeps => hkeeps.1 hsoft
      · exact iff_of_true rfl ⟨hsoft, fun hno => absurd hhard hno⟩
      · exact ⟨fun hfront => ⟨hsoft, fun _ => hfront⟩, fun hkeeps => hkeeps.2 hhard⟩

lemma argv_dockerArgs (user : List Char) (c : Container) (d : Docker) (image : List Char) :
    ∃ images ws, argv (dockerArgs a user c d image) =
        [requestOption, "docker".toList, softOption, requestOption] ++
          ("docker_images=".toList ++ images) :: ws ∧
      (imageRequest image :: containerOptions a user c d).flatMap argv =
        ("docker_images=".toList ++ images) :: ws := by
  have hglue : argv (imageRequest image) =
      (argv ('*' :: (taggedImage image ++ ['*']))).modifyHead ("docker_images=".toList ++ ·) :=
    argv_glue (by decide) _
  obtain ⟨images, vs, himage⟩ : ∃ images vs,
      argv (imageRequest image) = ("docker_images=".toList ++ images) :: vs := by
    rw [hglue]
    generalize hrest : argv ('*' :: (taggedImage image ++ ['*'])) = ws
    cases ws with
    | nil => exact absurd hrest (argv_ne_nil _)
    | cons w ws => exact ⟨w, ws, rfl⟩
  refine ⟨images, vs ++ (containerOptions a user c d).flatMap argv, ?_, ?_⟩
  · have hfour : argv ("-l docker -soft -l ".toList ++ imageRequest image) =
        [requestOption, "docker".toList, softOption, requestOption] ++ argv (imageRequest image) := by
      have hsplit : "-l docker -soft -l ".toList ++ imageRequest image =
          "-l docker -soft -l".toList ++ ' ' :: imageRequest image := by
        simp
      rw [hsplit, argv_append]
      rfl
    rw [dockerArgs, argv_join (cons_ne_nil _ _), flatMap_cons, hfour, himage]
    rfl
  · rw [flatMap_cons, himage]
    rfl

lemma softRequests_dockerArgs {images : List Char} {ws : List (List Char)} :
    (∃ other, softRequests .hard
          (softOption :: requestOption :: ("docker_images=".toList ++ images) :: ws) =
        ["docker_images=".toList ++ other]) ↔
      ∀ us v vs, ("docker_images=".toList ++ images) :: ws = us ++ requestOption :: v :: vs →
        modeAfter .soft us = .hard := by
  generalize hw : "docker_images=".toList ++ images = w
  have hd : w.head? = some 'd' := by rw [← hw]; rfl
  have hrequest : w ≠ requestOption := by
    rintro rfl
    exact absurd hd (by decide)
  have hnext : Mode.soft.next w = .soft := by
    refine next_eq ?_ ?_
    all_goals
      rintro rfl
      exact absurd hd (by decide)
  have hsoft : softRequests .hard (softOption :: requestOption :: w :: ws) =
      w :: softRequests .soft (w :: ws) := by
    rw [softRequests_cons, if_neg (by decide), softRequests_cons, if_pos (by decide)]
    rfl
  rw [hsoft, ← softRequests_eq_nil_iff]
  constructor
  · rintro ⟨other, heq⟩
    exact (List.cons.inj heq).2
  · intro hnil
    rw [hnil, ← hw]
    exact ⟨images, rfl⟩

variable {ts : List JobTask} {c : Container} {d : Docker} {image user cmd : List Char}

lemma submitCommand_eq (htasks : job.tasks = some (t :: ts)) (hcontainer : t.container = some c)
    (htype : c.type = some .docker) (hdocker : c.docker = some d) (himage : d.image = some image)
    (huser : job.user = some user) (hcmd : job.submitCommand a = some cmd) :
    ∃ jobClass rs, job.jobClass = some jobClass ∧ job.taskResources t = some rs ∧
      cmd = job.command jobClass (job.filteredOptions ++ rs ++ [dockerArgs a user c d image]) := by
  have hoption : containerOption a job.user c = some [dockerArgs a user c d image] := by
    simp [containerOption, htype, hdocker, himage, huser]
  unfold FrameworkJob.submitCommand at hcmd
  obtain ⟨jobClass, hclass, hcmd⟩ := bind_eq_some_iff.mp hcmd
  rw [htasks] at hcmd
  obtain ⟨options, hoptions, hcmd⟩ := bind_eq_some_iff.mp hcmd
  obtain ⟨rs, hrs, hoptions⟩ := bind_eq_some_iff.mp hoptions
  rw [hcontainer, Option.elim_some, hoption] at hoptions
  obtain rfl : rs ++ [dockerArgs a user c d image] = options := Option.some.inj hoptions
  refine ⟨jobClass, rs, hclass, hrs, ?_⟩
  rw [append_assoc]
  exact (Option.some.inj hcmd).symm

theorem docker_hard_iff (htasks : job.tasks = some (t :: ts)) (hcontainer : t.container = some c)
    (htype : c.type = some .docker) (hdocker : c.docker = some d) (himage : d.image = some image)
    (huser : job.user = some user) (hcmd : job.submitCommand a = some cmd) :
    DockerHard (dockerArgs a user c d image) cmd ↔
      job.KeepsHard t ∧ NoSoftRequest (imageRequest image :: containerOptions a user c d) := by
  obtain ⟨jobClass, rs, hclass, hrs, rfl⟩ :=
    submitCommand_eq htasks hcontainer htype hdocker himage huser hcmd
  obtain ⟨images, ws, hargs, htexts⟩ := argv_dockerArgs (a := a) user c d image
  have hmode : modeAfter .hard
        (argv (job.command jobClass []) ++ (job.filteredOptions ++ rs).flatMap argv) =
      rs.foldl Mode.read (job.frontTexts.foldl Mode.read .hard) := by
    have hfront : modeAfter .hard (argv (job.command jobClass [])) =
        (job.envTexts ++ [jobClass]).foldl Mode.read .hard := read_command job jobClass
    have hclasses : job.jobClass.toList = [jobClass] := by rw [hclass]; rfl
    rw [modeAfter_append, hfront, modeAfter_flatMap, foldl_append, read_filteredOptions,
      FrameworkJob.frontTexts, hclasses, foldl_append (l := job.envTexts ++ [jobClass])]
  rw [← read_taskResources hrs, ← hmode, NoSoftRequest, htexts, ← softRequests_dockerArgs]
  constructor
  · rintro ⟨before, rest, hcommand, hrest, hbefore, hsoft⟩
    rw [argv_command] at hcommand
    obtain rfl := append_cancel_right hcommand
    have heq := (List.cons.inj (List.cons.inj (hargs.symm.trans hrest)).2).2
    rw [← heq] at hsoft
    exact ⟨hbefore, hsoft⟩
  · rintro ⟨hbefore, hsoft⟩
    exact ⟨_, _, argv_command jobClass _ _, hargs, hbefore, hsoft⟩

/-! ### A wish for memory -/

def installation : UgeAdapter where
  urbRoot := "/urb".toList
  ugeRoot := "/uge".toList
  redisHost := "redis".toList
  redisIp := "10.0.0.1".toList
  home := fun _ => "/home/u".toList

def debian : Docker := { image := some "debian".toList }

def debianContainer : Container := { type := some .docker, docker := some debian }

def debianTask (rs : List Resource) : JobTask := { resources := some rs, container := some debianContainer }

def debianJob (mapping : String) (rs : List Resource) : FrameworkJob where
  jobClass := some "urb".toList
  env := [("A".toList, "b".toList)]
  tasks := some [debianTask rs]
  resourceMapping := mapping.toList
  user := some "u".toList

def debianArgs : List Char := dockerArgs installation "u".toList debianContainer debian "debian".toList

def debianCommand (resources : String) : List Char :=
  "-clear -v A=b -terse -jc urb ".toList ++ resources.toList ++ ' ' :: debianArgs

theorem docker_hard_withGpu :
    DockerHard debianArgs (debianCommand "-soft -l m_mem_free=64M -hard -l gpu=1") := by
  have hcmd : (debianJob "soft;gpus:gpu" [scalarResource "mem" 64, scalarResource "gpus" 1]).submitCommand
      installation = some (debianCommand "-soft -l m_mem_free=64M -hard -l gpu=1") := by decide +kernel
  refine (docker_hard_iff rfl rfl rfl rfl rfl rfl hcmd).mpr
    ⟨?_, softRequests_eq_nil_iff.mp (by decide +kernel)⟩
  have hlast : Mode.hard.read "gpu=1".toList = .hard := by decide
  exact hlast

theorem docker_wish_withMemory :
    (debianJob "soft" [scalarResource "mem" 64]).submitCommand installation =
        some (debianCommand "-soft -l m_mem_free=64M") ∧
      ¬ DockerHard debianArgs (debianCommand "-soft -l m_mem_free=64M") := by
  refine ⟨by decide +kernel, ?_⟩
  rintro ⟨before, rest, hcommand, -, hbefore, -⟩
  have hargv : argv (debianCommand "-soft -l m_mem_free=64M") =
      argv "-clear -v A=b -terse -jc urb -soft -l m_mem_free=64M".toList ++ argv debianArgs := by
    decide +kernel
  rw [← append_cancel_right (hargv.symm.trans hcommand)] at hbefore
  exact absurd hbefore (by decide +kernel)

end Mode

end Urb
