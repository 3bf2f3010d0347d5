/-
# `Urb.Naming` — slave ids, placeholder ids and offer ids

`NamingUtility` packs a job id, an array-task id and the name of the runner's
channel into one text, the slave id, and takes the job id out of it again:

    create_slave_id         "slave-" job "." task ":" channel
    get_job_id_from_slave_id   the text between the first '-' and the next '.'

The executor process, in C++, takes the channel out of it: the text after the
last ':', to which the service replies.

Offers that stand for a job not yet submitted carry the name `place-holder`
in place of a slave id, with the number of the offer appended to it.

**Proved here.**  A slave id never looks like a placeholder
(`isPlaceholder_createSlaveId`), the job id comes back out when it has no dot
(`getJobIdFromSlaveId_createSlaveId`), the channel when it has no colon, and
with them the task id in between, whatever it is (`createSlaveId_codec`);
different offer numbers give different offer ids (`offerId_injective`).
-/
import Urb.Basis.Text

namespace Urb

open Nat List String

/-! ## The texts -/

def startsWith (v p : String) : Bool := p.toList.isPrefixOf v.toList

def isPlaceholder (v : String) : Bool := startsWith v "place-holder"

def createSlaveId (jobId taskId channelName : String) : String :=
  "slave-" ++ jobId ++ "." ++ taskId ++ ":" ++ channelName

def getJobIdFromSlaveId (slaveIdValue : String) : Option String :=
  match slaveIdValue.toList.dropWhile (· ≠ '-') with
  | [] => none
  | _ :: rest =>
    if '.' ∈ rest then some (String.ofList (rest.takeWhile (· ≠ '.'))) else none

def executorRunnerChannel (slaveId : String) : Option String :=
  (slaveId.toList.splitLast ':').map (fun p => String.ofList p.2)

def offerId (frameworkId : String) (n : Nat) : String :=
  "offer-" ++ frameworkId ++ "-" ++ n.repr

/-! ## Reading them back -/

@[simp] lemma isPlaceholder_createSlaveId (jobId taskId channelName : String) :
    isPlaceholder (createSlaveId jobId taskId channelName) = false := by
  simp [isPlaceholder, startsWith, createSlaveId, String.toList_append, List.isPrefixOf]

lemma isPlaceholder_append {v : String} (h : isPlaceholder v) (w : String) :
    isPlaceholder (v ++ w) := by
  rw [isPlaceholder, startsWith, isPrefixOf_iff_prefix] at h ⊢
  rw [toList_append]
  exact h.trans (prefix_append _ _)

lemma dropWhile_createSlaveId (jobId taskId channelName : String) :
    (createSlaveId jobId taskId channelName).toList.dropWhile (· ≠ '-') =
      '-' :: (jobId.toList ++ '.' :: (taskId.toList ++ ':' :: channelName.toList)) := by
  simp [createSlaveId, String.toList_append, List.dropWhile]

lemma getJobIdFromSlaveId_createSlaveId {jobId : String} (h : '.' ∉ jobId.toList)
    (taskId channelName : String) :
    getJobIdFromSlaveId (createSlaveId jobId taskId channelName) = some jobId := by
  have htake : (jobId.toList ++ '.' :: (taskId.toList ++ ':' :: channelName.toList)).takeWhile
      (· ≠ '.') = jobId.toList := by
    rw [takeWhile_append_of_pos]
    · simp
    · intro c hc
      have : c ≠ '.' := fun he => h (he ▸ hc)
      simpa using this
  rw [getJobIdFromSlaveId, dropWhile_createSlaveId]
  simp only [mem_append, mem_cons, true_or, or_true, if_true, htake, ofList_toList]

lemma executorRunnerChannel_createSlaveId {channelName : String} (h : ':' ∉ channelName.toList)
    (jobId taskId : String) :
    executorRunnerChannel (createSlaveId jobId taskId channelName) = some channelName := by
  have hsplit : (createSlaveId jobId taskId channelName).toList =
      ("slave-" ++ jobId ++ "." ++ taskId).toList ++ ':' :: channelName.toList := by
    simp [createSlaveId, toList_append]
  rw [executorRunnerChannel, hsplit, splitLast_append_cons _ h, Option.map_some, ofList_toList]

theorem createSlaveId_codec {jobId channelName : String} (hjob : '.' ∉ jobId.toList)
    (hchannel : ':' ∉ channelName.toList) (taskId : String) :
    getJobIdFromSlaveId (createSlaveId jobId taskId channelName) = some jobId ∧
      executorRunnerChannel (createSlaveId jobId taskId channelName) = some channelName ∧
      ∀ jobId' taskId' channelName', '.' ∉ jobId'.toList → ':' ∉ channelName'.toList →
        createSlaveId jobId taskId channelName = createSlaveId jobId' taskId' channelName' →
        (jobId, taskId, channelName) = (jobId', taskId', channelName') := by
  have hj := getJobIdFromSlaveId_createSlaveId hjob taskId channelName
  have hc := executorRunnerChannel_createSlaveId hchannel jobId taskId
  refine ⟨hj, hc, fun jobId' taskId' channelName' hjob' hchannel' he => ?_⟩
  rw [he, getJobIdFromSlaveId_createSlaveId hjob' taskId' channelName', Option.some_inj] at hj
  rw [he, executorRunnerChannel_createSlaveId hchannel' jobId' taskId', Option.some_inj] at hc
  subst hj hc
  -- with the job and the channel the same, the task id is what is left
  rw [createSlaveId, createSlaveId, String.append_left_inj, String.append_left_inj,
    String.append_right_inj] at he
  rw [he]

theorem createSlaveId_codec_separators :
    '.' ∉ "job-7".toList ∧ ':' ∉ "urb.endpoint.1".toList ∧
      getJobIdFromSlaveId (createSlaveId "job-7" "a.b:c" "urb.endpoint.1") = some "job-7" ∧
      executorRunnerChannel (createSlaveId "job-7" "a.b:c" "urb.endpoint.1") =
        some "urb.endpoint.1" := by
  have hjob : '.' ∉ "job-7".toList := by decide
  have hchannel : ':' ∉ "urb.endpoint.1".toList := by decide
  obtain ⟨hj, hc, -⟩ := createSlaveId_codec hjob hchannel "a.b:c"
  exact ⟨hjob, hchannel, hj, hc⟩

lemma exists_getJobIdFromSlaveId (jobId taskId channelName : String) :
    ∃ job, getJobIdFromSlaveId (createSlaveId jobId taskId channelName) = some job := by
  rw [getJobIdFromSlaveId, dropWhile_createSlaveId]
  simp only [mem_append, mem_cons, true_or, or_true, if_true]
  exact ⟨_, rfl⟩

lemma eq_of_append_repr {v w : String} {m n : ℕ} (h : v ++ "-" ++ m.repr = w ++ "-" ++ n.repr) :
    m = n := by
  have hsplit : ∀ (v : String) (n : ℕ),
      (v ++ "-" ++ n.repr).toList.splitLast '-' = some (v.toList, toDigits 10 n) := by
    intro v n
    have hdash : '-' ∉ toDigits 10 n := fun hc =>
      absurd (isDigit_of_mem_toDigits (by decide) (by decide) hc) (by decide)
    rw [String.toList_append, String.toList_append, toList_repr, List.append_assoc]
    exact splitLast_append_cons _ hdash
  have hpair := (hsplit v m).symm.trans ((congrArg (·.toList.splitLast '-') h).trans (hsplit w n))
  have hdigits : toDigits 10 m = toDigits 10 n := (Prod.mk.inj (Option.some.inj hpair)).2
  -- reading the decimal digits back
  calc m = ofDigitChars 10 (toDigits 10 m) 0 := ofDigitChars_ten_toDigits.symm
    _ = ofDigitChars 10 (toDigits 10 n) 0 := by rw [hdigits]
    _ = n := ofDigitChars_ten_toDigits

lemma offerId_injective (frameworkId : String) : Function.Injective (offerId frameworkId) :=
  fun _ _ h => eq_of_append_repr h

end Urb
