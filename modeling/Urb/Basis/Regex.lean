/-
# `Urb.Basis.Regex` — backtracking matches, and texts without them

A regular expression is run on a text with a continuation for what is left of it,
and the first way to a success counts: alternatives in their order, a greedy repeat
from its longest run down, a lazy one from its shortest up.  Repeats are of classes of
characters, so running one is a recursion over the text.

    run (seq r s) k  =  run r (run s k)
    run (alt r s) k  =  run r k, else run s k
    run (star p) k   :  behind as many p as there are, else behind one less, ...

`remove m` takes out of a text, from left to right, everything that the matcher `m`
takes off the front of what is left; both `re.sub(r, '', s)` and `s.replace(w, '')` are of
this kind.  `findAll m` collects what `remove m` takes out.  The words
of a text are the runs between its blanks (`words`).
-/
import Mathlib.Data.List.Basic

namespace Urb

open List Nat

variable {α β : Type}

/-! ## Matches -/

inductive Regex (α : Type) where
  | one (p : α → Bool)
  | look (q : List α → Bool)
  | star (p : α → Bool)
  | lazyStar (p : α → Bool)
  | seq (r s : Regex α)
  | alt (r s : Regex α)

namespace Regex

def runStar (p : α → Bool) (k : List α → Option β) : List α → Option β
  | [] => k []
  | c :: cs => if p c then (runStar p k cs).or (k (c :: cs)) else k (c :: cs)

def runLazy (p : α → Bool) (k : List α → Option β) : List α → Option β
  | [] => k []
  | c :: cs => (k (c :: cs)).or (if p c then runLazy p k cs else none)

def run : Regex α → (List α → Option β) → List α → Option β
  | .one _, _, [] => none
  | .one p, k, c :: cs => if p c then k cs else none
  | .look q, k, cs => if q cs then k cs else none
  | .star p, k, cs => runStar p k cs
  | .lazyStar p, k, cs => runLazy p k cs
  | .seq r s, k, cs => r.run (s.run k) cs
  | .alt r s, k, cs => (r.run k cs).or (s.run k cs)

def after (r : Regex α) (cs : List α) : Option (List α) := r.run some cs

def word [DecidableEq α] (w : List α) (r : Regex α) : Regex α := w.foldr (fun c r => seq (one (· = c)) r) r

variable {p : α → Bool} {k : List α → Option β} {c : α} {cs us : List α}

lemma runStar_none (h : ∀ us vs, cs = us ++ vs → (∀ u ∈ us, p u) → k vs = none) :
    runStar p k cs = none := by
  induction cs with
  | nil => exact h [] [] rfl (fun _ hu => absurd hu not_mem_nil)
  | cons c cs ih =>
    have hstay : k (c :: cs) = none := h [] _ rfl (fun _ hu => absurd hu not_mem_nil)
    rw [runStar, hstay]
    split_ifs with hp
    · rw [ih fun us vs heq hus => h (c :: us) vs (by rw [heq]; rfl) (forall_mem_cons.mpr ⟨hp, hus⟩)]
      rfl
    · rfl

lemma runStar_append {b : β} (hus : ∀ u ∈ us, p u) (h : runStar p k cs = some b) :
    runStar p k (us ++ cs) = some b := by
  induction us with
  | nil => exact h
  | cons u us ih =>
    obtain ⟨hu, hus⟩ := forall_mem_cons.mp hus
    rw [cons_append, runStar, if_pos hu, ih hus]
    rfl

lemma runLazy_append (hus : ∀ u ∈ us, p u)
    (h : ∀ vs u ws, us = vs ++ u :: ws → k (u :: ws ++ cs) = none) :
    runLazy p k (us ++ cs) = runLazy p k cs := by
  induction us with
  | nil => rfl
  | cons u us ih =>
    obtain ⟨hu, hus⟩ := forall_mem_cons.mp hus
    have hfail : k (u :: (us ++ cs)) = none := h [] u us rfl
    rw [cons_append, runLazy, hfail, if_pos hu]
    exact ih hus fun vs u' ws heq => h (u :: vs) u' ws (by rw [heq]; rfl)

lemma runLazy_isSome (hcs : ∀ c ∈ cs, p c) (h : (k []).isSome) : (runLazy p k cs).isSome := by
  induction cs with
  | nil => exact h
  | cons c cs ih =>
    obtain ⟨hc, hcs⟩ := forall_mem_cons.mp hcs
    rw [runLazy, if_pos hc, Option.isSome_or, ih hcs, Bool.or_true]

lemma suffix_of_runStar {b : β} (h : runStar p k cs = some b) : ∃ vs, vs <:+ cs ∧ k vs = some b := by
  induction cs with
  | nil => exact ⟨[], suffix_rfl, h⟩
  | cons c cs ih =>
    rw [runStar] at h
    split_ifs at h
    · rcases Option.or_eq_some_iff.mp h with h | ⟨_, h⟩
      · obtain ⟨vs, hvs, hk⟩ := ih h
        exact ⟨vs, hvs.trans (suffix_cons _ _), hk⟩
      · exact ⟨_, suffix_rfl, h⟩
    · exact ⟨_, suffix_rfl, h⟩

lemma suffix_of_runLazy {b : β} (h : runLazy p k cs = some b) : ∃ vs, vs <:+ cs ∧ k vs = some b := by
  induction cs with
  | nil => exact ⟨[], suffix_rfl, h⟩
  | cons c cs ih =>
    rw [runLazy] at h
    rcases Option.or_eq_some_iff.mp h with h | ⟨_, h⟩
    · exact ⟨_, suffix_rfl, h⟩
    · split_ifs at h
      obtain ⟨vs, hvs, hk⟩ := ih h
      exact ⟨vs, hvs.trans (suffix_cons _ _), hk⟩

lemma suffix_of_run {b : β} (r : Regex α) (h : r.run k cs = some b) :
    ∃ vs, vs <:+ cs ∧ k vs = some b := by
  induction r generalizing k cs with
  | one p =>
    cases cs with
    | nil => cases h
    | cons c cs =>
      rw [run] at h
      split_ifs at h
      exact ⟨cs, suffix_cons _ _, h⟩
  | look q =>
    rw [run] at h
    split_ifs at h
    exact ⟨cs, suffix_rfl, h⟩
  | star p => exact suffix_of_runStar h
  | lazyStar p => exact suffix_of_runLazy h
  | seq r s ihr ihs =>
    obtain ⟨us, hus, hs⟩ := ihr h
    obtain ⟨vs, hvs, hk⟩ := ihs hs
    exact ⟨vs, hvs.trans hus, hk⟩
  | alt r s ihr ihs =>
    rcases Option.or_eq_some_iff.mp h with h | ⟨_, h⟩
    · exact ihr h
    · exact ihs h

variable [DecidableEq α] {w : List α} {r : Regex α}

lemma run_word_append : (word w r).run k (w ++ cs) = r.run k cs := by
  induction w with
  | nil => rfl
  | cons c w ih =>
    show (if decide (c = c) = true then (word w r).run k (w ++ cs) else none) = _
    rw [if_pos (decide_eq_true rfl), ih]

lemma of_run_word {b : β} (h : (word w r).run k cs = some b) :
    ∃ vs, cs = w ++ vs ∧ r.run k vs = some b := by
  induction w generalizing cs with
  | nil => exact ⟨cs, rfl, h⟩
  | cons c w ih =>
    cases cs with
    | nil => cases h
    | cons d cs =>
      have hhead : (if decide (d = c) = true then (word w r).run k cs else none) = some b := h
      split_ifs at hhead with hd
      obtain ⟨vs, rfl, hvs⟩ := ih hhead
      exact ⟨vs, by rw [of_decide_eq_true hd, cons_append], hvs⟩

def literal (w : List α) : List α → Option (List α) := after (word w (.look fun _ => true))

lemma literal_append (w cs : List α) : literal w (w ++ cs) = some cs := run_word_append

lemma of_literal {rest : List α} (h : literal w cs = some rest) : cs = w ++ rest := by
  obtain ⟨vs, rfl, hvs⟩ := of_run_word h
  cases hvs
  rfl

lemma literal_append_cons {b : α} (hb : b ∉ w) (us cs : List α) :
    literal w (us ++ b :: cs) = (literal w us).map (· ++ b :: cs) := by
  cases hus : literal w us with
  | some rest =>
    rw [of_literal hus, append_assoc, literal_append]
    rfl
  | none =>
    cases hall : literal w (us ++ b :: cs) with
    | none => rfl
    | some rest =>
      have heq := of_literal hall
      rcases append_eq_append_iff.mp heq with ⟨ws, hw, hcs⟩ | ⟨ws, hu, _⟩
      · cases ws with
        | nil =>
          have hself := literal_append w []
          rw [append_nil] at hself hw
          rw [← hw, hself] at hus
          cases hus
        | cons d ws =>
          obtain ⟨rfl, _⟩ := List.cons.inj hcs
          exact absurd (hw ▸ mem_append_right _ mem_cons_self) hb
      · rw [hu, literal_append] at hus
        cases hus

end Regex

/-! ## Texts without the matches -/

namespace Text

variable {m : List α → Option (List α)}

def removeFrom (m : List α → Option (List α)) : ℕ → List α → List α
  | _, [] => []
  | n + 1, _ :: cs => removeFrom m n cs
  | 0, c :: cs =>
    match m (c :: cs) with
    | none => c :: removeFrom m 0 cs
    | some rest =>
      -- a match of nothing leaves the character
      if rest.length ≤ cs.length then removeFrom m (cs.length - rest.length) cs
      else c :: removeFrom m 0 cs

def remove (m : List α → Option (List α)) (cs : List α) : List α := removeFrom m 0 cs

def findFrom (m : List α → Option (List α)) : ℕ → List α → List (List α)
  | _, [] => []
  | n + 1, _ :: cs => findFrom m n cs
  | 0, c :: cs =>
    match m (c :: cs) with
    | none => findFrom m 0 cs
    | some rest =>
      -- a match of nothing is left out
      if rest.length ≤ cs.length then
        (c :: cs.take (cs.length - rest.length)) :: findFrom m (cs.length - rest.length) cs
      else findFrom m 0 cs

def findAll (m : List α → Option (List α)) (cs : List α) : List (List α) := findFrom m 0 cs

variable {c : α} {cs us vs : List α}

lemma findAll_eq_nil (h : ∀ c ∈ cs, ∀ ds, m (c :: ds) = none) : findAll m cs = [] := by
  induction cs with
  | nil => rfl
  | cons c cs ih =>
    obtain ⟨hc, hcs⟩ := forall_mem_cons.mp h
    rw [findAll, findFrom, hc]
    exact ih hcs

@[simp] lemma remove_nil : remove m [] = [] := rfl

lemma remove_cons_of_none (h : m (c :: cs) = none) : remove m (c :: cs) = c :: remove m cs := by
  rw [remove, removeFrom, h]
  rfl

lemma removeFrom_append (us vs : List α) : removeFrom m us.length (us ++ vs) = remove m vs := by
  induction us with
  | nil => rfl
  | cons u us ih => exact ih

lemma remove_append_of_some (hus : us ≠ []) (h : m (us ++ vs) = some vs) :
    remove m (us ++ vs) = remove m vs := by
  cases us with
  | nil => exact absurd rfl hus
  | cons u us =>
    have hlen : (us ++ vs).length - vs.length = us.length := by
      rw [length_append, Nat.add_sub_cancel]
    have hle : vs.length ≤ (us ++ vs).length := by
      rw [length_append]
      exact le_add_left _ _
    rw [cons_append] at h ⊢
    rw [remove, removeFrom, h]
    show (if vs.length ≤ (us ++ vs).length then _ else _) = _
    rw [if_pos hle, hlen, removeFrom_append]

lemma remove_append_of_none (h : ∀ xs y ys, us = xs ++ y :: ys → m (y :: ys ++ vs) = none) :
    remove m (us ++ vs) = us ++ remove m vs := by
  induction us with
  | nil => rfl
  | cons u us ih =>
    have hu : m (u :: (us ++ vs)) = none := h [] u us rfl
    rw [cons_append, remove_cons_of_none hu, ih fun xs y ys heq => h (u :: xs) y ys (by rw [heq]; rfl)]
    rfl

lemma remove_eq_self (h : ∀ xs y ys, cs = xs ++ y :: ys → m (y :: ys) = none) : remove m cs = cs := by
  have hall : ∀ xs y ys, cs = xs ++ y :: ys → m (y :: ys ++ []) = none := by
    intro xs y ys heq
    rw [append_nil]
    exact h xs y ys heq
  have hkeep : remove m (cs ++ []) = cs ++ remove m [] := remove_append_of_none hall
  rwa [remove_nil, append_nil] at hkeep

lemma removeFrom_sublist (m : List α → Option (List α)) (n : ℕ) (cs : List α) :
    (removeFrom m n cs).Sublist cs := by
  induction cs generalizing n with
  | nil => cases n <;> exact .slnil
  | cons c cs ih =>
    cases n with
    | succ n => exact (ih n).cons c
    | zero =>
      rw [removeFrom]
      split
      · exact (ih 0).cons_cons c
      · split_ifs
        · exact (ih _).cons c
        · exact (ih 0).cons_cons c

lemma countP_remove_lt {q : α → Bool} (hq : ∀ c cs rest, m (c :: cs) = some rest → q c)
    (hshort : ∀ cs rest, m cs = some rest → rest.length < cs.length) {rest : List α} (hvs : vs ≠ [])
    (h : m vs = some rest) (us : List α) : (remove m (us ++ vs)).countP q < (us ++ vs).countP q := by
  induction us with
  | nil =>
    cases vs with
    | nil => exact absurd rfl hvs
    | cons v vs =>
      rw [nil_append, countP_cons_of_pos (hq v vs rest h), remove, removeFrom, h]
      have hle : rest.length ≤ vs.length := le_of_lt_succ (hshort _ _ h)
      show List.countP q (if rest.length ≤ vs.length then _ else _) < _
      rw [if_pos hle]
      exact lt_succ_of_le (removeFrom_sublist m _ vs).countP_le
  | cons u us ih =>
    rw [cons_append, remove, removeFrom]
    cases hu : m (u :: (us ++ vs)) with
    | none =>
      show (u :: remove m (us ++ vs)).countP q < _
      rw [countP_cons, countP_cons]
      exact Nat.add_lt_add_right ih _
    | some rest' =>
      have hle : rest'.length ≤ (us ++ vs).length := le_of_lt_succ (hshort _ _ hu)
      show List.countP q (if rest'.length ≤ (us ++ vs).length then _ else _) < _
      rw [if_pos hle, countP_cons_of_pos (hq _ _ _ hu)]
      exact lt_succ_of_le (removeFrom_sublist m _ _).countP_le

lemma remove_separated {b : α} {cs : List α} (hb : m (b :: cs) = none)
    (h : ∀ us, us ≠ [] → m (us ++ b :: cs) = (m us).map (· ++ b :: cs)) (us : List α) :
    remove m (us ++ b :: cs) = remove m us ++ b :: remove m cs := by
  have hgen : ∀ us n, n ≤ us.length →
      removeFrom m n (us ++ b :: cs) = removeFrom m n us ++ b :: remove m cs := by
    intro us
    induction us with
    | nil =>
      intro n hn
      rw [le_zero.mp hn]
      exact remove_cons_of_none hb
    | cons u us ih =>
      intro n hn
      cases n with
      | succ n => exact ih n (le_of_succ_le_succ hn)
      | zero =>
        have hu := h (u :: us) (cons_ne_nil _ _)
        rw [cons_append] at hu ⊢
        rw [removeFrom, removeFrom, hu]
        cases hm : m (u :: us) with
        | none =>
          show u :: removeFrom m 0 (us ++ b :: cs) = _
          rw [ih 0 (zero_le _)]
          rfl
        | some rest =>
          show (if (rest ++ b :: cs).length ≤ (us ++ b :: cs).length then _ else _) =
            (if rest.length ≤ us.length then _ else _) ++ _
          rw [length_append, length_append, Nat.add_sub_add_right]
          by_cases hle : rest.length ≤ us.length
          · rw [if_pos (Nat.add_le_add_right hle _), if_pos hle]
            exact ih _ (sub_le _ _)
          · rw [if_neg fun hle' => hle (Nat.le_of_add_le_add_right hle'), if_neg hle, ih 0 (zero_le _)]
            rfl
  exact hgen us 0 (zero_le _)

/-! ## Words -/

variable (blank : α → Bool)

def words (cs : List α) : List (List α) := (cs.splitOnP blank).filter (fun w => !w.isEmpty)

def IsWord (w : List α) : Prop := w ≠ [] ∧ ∀ c ∈ w, blank c = false

variable {blank} {w : List α}

lemma isWord_of_all (hne : w ≠ []) (h : w.all (fun c => !blank c)) : IsWord blank w :=
  ⟨hne, fun c hc => by simpa using all_eq_true.mp h c hc⟩

lemma words_append {b : α} (hb : blank b) (us cs : List α) :
    words blank (us ++ b :: cs) = words blank us ++ words blank cs := by
  rw [words, splitOnP_append_cons us cs hb, filter_append]
  rfl

lemma words_of_isWord (hw : IsWord blank w) : words blank w = [w] := by
  obtain ⟨hne, hblank⟩ := hw
  rw [words, splitOnP_eq_singleton hblank]
  cases w with
  | nil => exact absurd rfl hne
  | cons c w => rfl

lemma flatten_splitOnP (cs : List α) : (cs.splitOnP blank).flatten = cs.filter (fun c => !blank c) := by
  induction cs with
  | nil => rfl
  | cons c cs ih =>
    rw [splitOnP_cons_eq_if_modifyHead]
    split_ifs with hc
    · rw [flatten_cons, ih, filter_cons_of_neg (by simp [hc])]
      rfl
    · rw [filter_cons_of_pos (by simp [hc]), ← ih]
      cases hsplit : cs.splitOnP blank with
      | nil => exact absurd hsplit (splitOnP_ne_nil _ _)
      | cons w ws => rfl

lemma flatten_words (cs : List α) : (words blank cs).flatten = cs.filter (fun c => !blank c) := by
  rw [← flatten_splitOnP, words]
  induction cs.splitOnP blank with
  | nil => rfl
  | cons w ws ih =>
    cases w with
    | nil => exact ih
    | cons c w =>
      show ((c :: w) :: ws.filter _).flatten = _
      rw [flatten_cons, flatten_cons, ih]

def join (b : α) : List (List α) → List α
  | [] => []
  | [w] => w
  | w :: v :: ws => w ++ b :: join b (v :: ws)

end Text

end Urb
