/-
# `Urb.Recovery` — the order in which messages come back after a restore

Read from the right, the queue is in the order of the pushes and the processing list
in the order of the pops:

    queue                    processing
    [ c  b ]  --pop-->  b    [ a ]            pops return a, b, c
    [ c ]                    [ b  a ]
    [ c  b  a ]              [ ]              after restore_lost_messages

**Proved here.**  For messages with pairwise distinct texts, handled and finished in
any order, with restores in between that find no handler running: a restore
empties the processing list, and the pops that follow return first the messages
that were popped and are not finished, in the order they were popped, and then
the others, in the order they were pushed (`restore_order`).
-/
import Urb.AtLeastOnce

namespace Urb.Delivery

open List

def Orderly (s : Delivery) : Event → Prop
  | .push text => ∀ c ∈ s.pushed, c.text ≠ text
  | .restore => s.handlings = []
  | _ => True

def waiting (s : Delivery) : List Copy := s.pushed.drop s.popped.length

structure Ordered (s : Delivery) : Prop where
  popped : s.popped <+: s.pushed
  lists : (s.broker.queue ++ s.broker.processing).reverse =
    s.popped.filter (· ∉ s.finished) ++ s.waiting
  inFlight : s.broker.processing.reverse = s.inFlight
  processing : ∀ c ∈ s.broker.processing, c ∈ s.popped
  finished : ∀ c ∈ s.finished, c ∈ s.popped
  handlings : ∀ h ∈ s.handlings, h.copy ∈ s.broker.processing
  copies : (s.handlings.map (·.copy)).Nodup
  texts : (s.pushed.map (·.text)).Nodup

variable {s : Delivery}

lemma Ordered.pushed_eq (ho : s.Ordered) : s.pushed = s.popped ++ s.waiting := by
  conv_lhs => rw [← take_append_drop s.popped.length s.pushed]
  rw [← prefix_iff_eq_take.mp ho.popped]
  rfl

lemma ordered_start : Ordered {} :=
  ⟨List.nil_prefix, rfl, rfl, fun _ h => h, fun _ h => absurd h not_mem_nil,
    fun _ h => absurd h not_mem_nil, nodup_nil, nodup_nil⟩

lemma Ordered.not_mem_waiting (hs : s.Numbered) (ho : s.Ordered) {c : Copy} (hc : c ∈ s.popped) :
    c ∉ s.waiting := by
  have hnodup := hs.nodup_pushed
  rw [ho.pushed_eq] at hnodup
  exact fun hw => disjoint_of_nodup_append hnodup hc hw

/-! ## One event -/

lemma Ordered.push (ho : s.Ordered) {text : String} (hfresh : ∀ c ∈ s.pushed, c.text ≠ text) :
    (s.push text).Ordered := by
  have hdrop : (s.push text).waiting = s.waiting ++ [{ number := s.pushed.length, text := text }] :=
    drop_append_of_le_length ho.popped.length_le
  refine ⟨ho.popped.trans (prefix_append _ _), ?_, ho.inFlight, ho.processing, ho.finished,
    ho.handlings, ho.copies, ?_⟩
  · rw [hdrop]
    show (_ :: (s.broker.queue ++ s.broker.processing)).reverse = _
    rw [reverse_cons, ho.lists, append_assoc]
    rfl
  · show ((s.pushed ++ [_]).map _).Nodup
    rw [map_append]
    refine List.Nodup.append ho.texts (nodup_singleton _) fun t ht ht' => ?_
    obtain ⟨c, hc, rfl⟩ := mem_map.mp ht
    exact hfresh c hc (mem_singleton.mp ht')

lemma Ordered.waiting_of_new (hs : s.Numbered) (ho : s.Ordered) {queue : List Copy} {m : Copy}
    (hq : s.broker.queue = queue ++ [m]) (hm : m ∉ s.popped) :
    s.popped.filter (· ∉ s.finished) = s.broker.processing.reverse ∧
      s.waiting = m :: queue.reverse := by
  have hlists := ho.lists
  rw [hq] at hlists
  simp only [append_assoc, reverse_append, reverse_cons, singleton_append] at hlists
  -- the lists are cut before `m`, which is not among the popped messages, and after the
  -- processing list, none of whose messages waits
  rcases append_eq_append_iff.mp hlists with ⟨l, hl, hr⟩ | ⟨l, hl, hr⟩
  · cases l with
    | nil => exact ⟨by simpa using hl, by simpa using hr.symm⟩
    | cons a l =>
      have ha : a = m := by simpa using congrArg List.head? hr.symm
      have hmem : m ∈ s.popped.filter (· ∉ s.finished) := by
        rw [hl, ha]
        exact mem_append_right _ mem_cons_self
      exact absurd (mem_filter.mp hmem).1 hm
  · cases l with
    | nil => exact ⟨by simpa using hl.symm, by simpa using hr⟩
    | cons a l =>
      have hmem : a ∈ s.broker.processing.reverse := by
        rw [hl]
        exact mem_append_right _ mem_cons_self
      have hwait : a ∈ s.waiting := by
        rw [hr]
        exact mem_cons_self
      exact absurd hwait (ho.not_mem_waiting hs (ho.processing a (mem_reverse.mp hmem)))

lemma Ordered.handle (ho : s.Ordered) {m : Copy} {new : List Handling} (hm : m ∉ s.broker.processing)
    (hnew : new = [] ∨ ∃ h : Handling, h.copy = m ∧ new = [h]) :
    (∀ h ∈ new ++ s.handlings, h.copy ∈ m :: s.broker.processing) ∧
      ((new ++ s.handlings).map (·.copy)).Nodup := by
  rcases hnew with rfl | ⟨h', hcopy, rfl⟩
  · exact ⟨fun h hh => mem_cons_of_mem _ (ho.handlings h hh), ho.copies⟩
  · refine ⟨fun h hh => ?_, nodup_cons.mpr ⟨fun hmem => ?_, ho.copies⟩⟩
    · rcases mem_cons.mp hh with rfl | hh
      · rw [hcopy]
        exact mem_cons_self
      · exact mem_cons_of_mem _ (ho.handlings h hh)
    · obtain ⟨h, hh, hsame⟩ := mem_map.mp hmem
      have hcopy' : h.copy = m := hsame.trans hcopy
      exact hm (hcopy' ▸ ho.handlings h hh)

lemma Ordered.pop (hs : s.Numbered) (ho : s.Ordered) (consumer : ℕ) (blocking : Bool) :
    (s.pop consumer blocking).Ordered := by
  rcases s.pop_eq_or consumer blocking with hpop | ⟨queue, m, new, hq, hnew, hpop⟩
  · rw [hpop]
    exact ⟨ho.popped, ho.lists, ho.inFlight, ho.processing, ho.finished, ho.handlings, ho.copies,
      ho.texts⟩
  have hlists := ho.lists
  rw [hq, append_assoc, singleton_append] at hlists
  have hm : m ∉ s.broker.processing := by
    have hnodup := hs.nodup
    rw [hq, append_assoc] at hnodup
    exact (nodup_cons.mp (nodup_append.mp hnodup).2.1).1
  have hflight : (m :: s.broker.processing).reverse = s.inFlight ++ [m] := by
    rw [reverse_cons, ho.inFlight]
  obtain ⟨hhandlings, hcopies⟩ := ho.handle hm hnew
  rw [hpop]
  by_cases hold : m ∈ s.popped
  · -- a message that was restored: the lists do not change as a whole
    have hsame : s.popped ++ [m].filter (· ∉ s.popped) = s.popped := by simp [hold]
    rw [hsame]
    refine ⟨ho.popped, hlists, hflight, fun c hc => ?_, ho.finished, hhandlings, hcopies, ho.texts⟩
    rcases mem_cons.mp hc with rfl | hc
    · exact hold
    · exact ho.processing c hc
  · obtain ⟨hdone, hwait⟩ := ho.waiting_of_new hs hq hold
    have hgrown : s.popped ++ [m].filter (· ∉ s.popped) = s.popped ++ [m] := by simp [hold]
    have hpushed : s.pushed = (s.popped ++ [m]) ++ queue.reverse := by
      rw [ho.pushed_eq, hwait, append_assoc, singleton_append]
    have hrest : s.pushed.drop (s.popped ++ [m]).length = queue.reverse := by
      rw [hpushed, drop_left]
    rw [hgrown]
    refine ⟨hpushed ▸ prefix_append _ _, ?_, hflight, fun c hc => ?_, fun c hc => ?_,
      hhandlings, hcopies, ho.texts⟩
    · have hnot : m ∉ s.finished := fun h => hold (ho.finished m h)
      show _ = (s.popped ++ [m]).filter (· ∉ s.finished) ++ s.pushed.drop (s.popped ++ [m]).length
      rw [hrest, filter_append, hdone]
      simp [hnot]
    · rcases mem_cons.mp hc with rfl | hc
      · exact mem_append_right _ (mem_singleton.mpr rfl)
      · exact mem_append_left _ (ho.processing c hc)
    · exact mem_append_left _ (ho.finished c hc)

lemma Ordered.lrem_eq (hs : s.Numbered) (ho : s.Ordered) {c : Copy} (hc : c ∈ s.pushed) :
    Redis.lrem Copy.text c.text s.broker.processing = s.broker.processing.filter (· ≠ c) := by
  refine filter_congr fun b hb => ?_
  have hinj : b.text = c.text ↔ b = c :=
    ⟨fun h => inj_on_of_nodup_map ho.texts (hs.known b (.inr hb)) hc h, fun h => h ▸ rfl⟩
  simp only [ne_eq, decide_not, hinj]

lemma Ordered.processed (hs : s.Numbered) (ho : s.Ordered) {h : Handling} (hh : h ∈ s.handlings) :
    (s.processed h).Ordered := by
  have hproc : h.copy ∈ s.broker.processing := ho.handlings h hh
  have hpop : h.copy ∈ s.popped := ho.processing _ hproc
  have hqueue : s.broker.queue.filter (· ≠ h.copy) = s.broker.queue :=
    filter_eq_self.mpr fun b hb => decide_eq_true fun he => hs.not_mem_queue hproc (he ▸ hb)
  have hwait : s.waiting.filter (· ≠ h.copy) = s.waiting := filter_eq_self.mpr fun b hb =>
      decide_eq_true fun he => ho.not_mem_waiting hs hpop (he ▸ hb)
  have hbroker : (s.processed h).broker =
      { queue := s.broker.queue, processing := s.broker.processing.filter (· ≠ h.copy) } := by
    simp only [Delivery.processed, MessageQueue.messageProcessed,
      ho.lrem_eq hs (hs.known _ (.inr hproc))]
  refine ⟨ho.popped, ?_, ?_, fun c hc => ?_, fun c hc => ?_, fun h' hh' => ?_, ?_, ho.texts⟩
  · -- the copy leaves both sides of the equation
    have hfiltered := congrArg (List.filter (· ≠ h.copy)) ho.lists
    rw [filter_reverse, filter_append, hqueue, filter_append, hwait, filter_filter] at hfiltered
    rw [hbroker, hfiltered]
    show _ = s.popped.filter (· ∉ h.copy :: s.finished) ++ s.waiting
    congr 1
    refine filter_congr fun c _ => ?_
    simp [not_or]
  · rw [hbroker]
    show (s.broker.processing.filter _).reverse = s.inFlight.filter _
    rw [← filter_reverse, ho.inFlight]
  · rw [hbroker] at hc
    exact ho.processing c (mem_filter.mp hc).1
  · rcases mem_cons.mp hc with rfl | hc
    · exact hpop
    · exact ho.finished c hc
  · rw [hbroker]
    have hmem : h' ∈ s.handlings := mem_of_mem_erase hh'
    refine mem_filter.mpr ⟨ho.handlings h' hmem, decide_eq_true fun hsame => ?_⟩
    have heq : h' = h := inj_on_of_nodup_map ho.copies hmem hh hsame
    exact (ho.copies.of_map).not_mem_erase (heq ▸ hh')
  · exact ho.copies.sublist (erase_sublist.map _)

lemma Ordered.restore (ho : s.Ordered) (hnone : s.handlings = []) : s.restore.Ordered := by
  have hbroker : s.restore.broker = { queue := s.broker.queue ++ s.broker.processing } := by
    simp only [Delivery.restore, MessageQueue.restoreLostMessages_eq]
  refine ⟨ho.popped, ?_, ?_, fun c hc => ?_, ho.finished, fun h hh => ?_, ho.copies, ho.texts⟩
  · rw [hbroker, append_nil]
    exact ho.lists
  · rw [hbroker]
    rfl
  · rw [hbroker] at hc
    cases hc
  · have hh' : h ∈ s.handlings := hh
    rw [hnone] at hh'
    cases hh'

lemma mem_of_handling? {n : ℕ} {complete : Bool} {h : Handling} (hh : s.handling? n complete = some h) :
    h ∈ s.handlings := mem_of_find?_eq_some hh

lemma Ordered.step (hs : s.Numbered) (ho : s.Ordered) {e : Event} (he : s.Orderly e) :
    (s.step e).Ordered := by
  cases e with
  | push text => exact ho.push he
  | pop consumer blocking => exact ho.pop hs consumer blocking
  | returned n =>
    simp only [Delivery.step]
    cases hfind : s.handling? n false with
    | none => exact ho
    | some h =>
      -- the same handling with another flag: its copy is what counts
      have hh := mem_of_handling? hfind
      refine ⟨ho.popped, ho.lists, ho.inFlight, ho.processing, ho.finished, fun h' hh' => ?_, ?_,
        ho.texts⟩
      · rcases mem_cons.mp hh' with rfl | hh'
        · exact ho.handlings h hh
        · exact ho.handlings h' (mem_of_mem_erase hh')
      · have hperm := (perm_cons_erase hh).map (·.copy)
        exact hperm.nodup_iff.mp ho.copies
  | raised n =>
    simp only [Delivery.step]
    cases s.handling? n false with
    | none => exact ho
    | some h =>
      exact ⟨ho.popped, ho.lists, ho.inFlight, ho.processing, ho.finished,
        fun h' hh' => ho.handlings h' (mem_of_mem_erase hh'),
        ho.copies.sublist (erase_sublist.map _), ho.texts⟩
  | processed n =>
    simp only [Delivery.step]
    cases hfind : s.handling? n true with
    | none => exact ho
    | some h => exact ho.processed hs (mem_of_handling? hfind)
  | crash consumer =>
    exact ⟨ho.popped, ho.lists, ho.inFlight, ho.processing, ho.finished,
      fun h hh => ho.handlings h (mem_filter.mp hh).1,
      ho.copies.sublist (filter_sublist.map _), ho.texts⟩
  | restore => exact ho.restore he

/-! ## Whole histories -/

lemma ordered_run {es : List Event} (hg : Machine.Guarded step Orderly {} es) :
    (Machine.run step {} es).Ordered := by
  have hboth := Machine.run_inv (I := fun s => s.Numbered ∧ s.Ordered)
    (fun _ e hs he => ⟨hs.1.step e, hs.2.step hs.1 he⟩) ⟨numbered_start, ordered_start⟩ hg
  exact hboth.2

def expected (s : Delivery) : List Copy :=
  s.popped.filter (· ∉ s.finished) ++ s.pushed.filter (· ∉ s.popped)

lemma Ordered.expected_eq (hs : s.Numbered) (ho : s.Ordered) :
    s.expected = (s.broker.queue ++ s.broker.processing).reverse := by
  have hnone : s.popped.filter (· ∉ s.popped) = [] := by simp
  have hall : s.waiting.filter (· ∉ s.popped) = s.waiting :=
    filter_eq_self.mpr fun c hc => decide_eq_true fun hp => ho.not_mem_waiting hs hp hc
  have hwait : s.pushed.filter (· ∉ s.popped) = s.waiting := by
    conv_lhs => rw [ho.pushed_eq]
    rw [filter_append, hnone, hall, nil_append]
  rw [expected, hwait, ho.lists]

lemma Ordered.expected_eq_inFlight (hs : s.Numbered) (ho : s.Ordered) :
    s.expected = s.inFlight ++ s.pushed.filter (fun c => c ∉ s.finished ∧ c ∉ s.inFlight) := by
  have hwait : s.waiting.filter (· ∉ s.finished) = s.waiting := filter_eq_self.mpr fun c hc =>
      decide_eq_true fun hf => ho.not_mem_waiting hs (ho.finished c hf) hc
  have hunfinished : s.pushed.filter (· ∉ s.finished) = s.inFlight ++ s.broker.queue.reverse := by
    conv_lhs => rw [ho.pushed_eq]
    rw [filter_append, hwait, ← ho.lists, reverse_append, ho.inFlight]
  have hqueue : s.broker.queue.reverse.filter (· ∉ s.inFlight) = s.broker.queue.reverse := by
    refine filter_eq_self.mpr fun c hc => decide_eq_true fun hf => ?_
    rw [← ho.inFlight] at hf
    exact hs.not_mem_queue (mem_reverse.mp hf) (mem_reverse.mp hc)
  have hrest : s.pushed.filter (fun c => c ∉ s.finished ∧ c ∉ s.inFlight) = s.broker.queue.reverse := by
    have hnone : s.inFlight.filter (· ∉ s.inFlight) = [] := by simp
    calc s.pushed.filter (fun c => c ∉ s.finished ∧ c ∉ s.inFlight)
        = (s.pushed.filter (· ∉ s.finished)).filter (· ∉ s.inFlight) := by
          rw [filter_filter]
          exact filter_congr fun c _ => by simp [and_comm]
      _ = s.broker.queue.reverse := by
          rw [hunfinished, filter_append, hnone, hqueue, nil_append]
  rw [ho.expected_eq hs, hrest, reverse_append, ho.inFlight]

theorem restore_order (es : List Event) (hg : Machine.Guarded step Orderly {} es) :
    let s := Machine.run step {} es
    let restored := (s.broker.map Copy.text).restoreLostMessages.2
    restored.processing = [] ∧
      (∀ k, restored.popTimes id false k = (s.expected.map Copy.text).take k) ∧
      (∀ k, restored.popTimes id true k = ((s.expected.map Copy.text).take k).filter (· ≠ "")) ∧
      s.expected = s.inFlight ++ s.pushed.filter (fun c => c ∉ s.finished ∧ c ∉ s.inFlight) := by
  intro s restored
  have hs : s.Numbered := numbered_run es
  have ho : s.Ordered := ordered_run hg
  have hrestored : restored = { queue := (s.broker.queue ++ s.broker.processing).map Copy.text } := by
    have hmap := congrArg Prod.snd (MessageQueue.restoreLostMessages_map Copy.text s.broker)
    rw [MessageQueue.restoreLostMessages_eq s.broker] at hmap
    exact hmap
  have hqueue : restored.queue.reverse = s.expected.map Copy.text := by
    rw [hrestored, ho.expected_eq hs, map_reverse]
  refine ⟨by rw [hrestored], fun k => ?_, fun k => ?_, ho.expected_eq_inFlight hs⟩
  · rw [MessageQueue.popTimes_eq, hqueue]
    simp
  · rw [MessageQueue.popTimes_eq, hqueue]
    refine filter_congr fun t _ => ?_
    by_cases ht : t = "" <;> simp [ht]

instance (s : Delivery) : (e : Event) → Decidable (s.Orderly e)
  | .push text => inferInstanceAs (Decidable (∀ c ∈ s.pushed, c.text ≠ text))
  | .restore => decidable_of_iff (s.handlings.isEmpty = true) isEmpty_iff
  | .pop _ _ | .returned _ | .raised _ | .processed _ | .crash _ => .isTrue trivial

def twoRestarts : List Event :=
  [.push "a", .push "b", .push "c", .push "d", .pop 0 true, .pop 0 true, .pop 0 true, .returned 1,
    .processed 1, .crash 0, .restore, .pop 1 true, .push "e", .crash 1]

theorem restore_order_twoRestarts :
    ((Machine.run step {} twoRestarts).broker.map Copy.text).processing = ["a"] ∧
      (((Machine.run step {} twoRestarts).broker.map Copy.text).restoreLostMessages.2).popTimes id
        false 4 = ["a", "c", "d", "e"] :=
  ⟨by decide +kernel, ((restore_order twoRestarts (by decide +kernel)).2.1 4).trans
    (by decide +kernel)⟩

end Urb.Delivery
