/-
# `Urb.SubmitOptions` — the submit options without working directories

The adapter takes `-cwd` and `-wd path` out of the options that a framework gives.
It works on the text:

    s.replace('-cwd', '')
    re.sub('-wd\s+(.+?)(\.[^.]*\s|\s|$)', '', s)

so it also finds `-cwd` within an option, and `-wd` at the end of one; and from a dot in
the path on it takes everything to the last blank before the next dot:

    -wd /a.b -l x -q y    gives    y

**Proved here.**  The words of the result are those of the options without `-cwd`,
`-wd` and its arguments, for all options that take their words from given ones, exactly
if the words to be kept have no `-cwd` in them and no `-wd` at their end, and the
arguments, without any `-cwd` in them, are not empty and have no dot behind
their first character (`filter_words_iff`).
-/
import Urb.Basis.Regex
import Urb.Submission

namespace Urb

open List Regex

open Text

variable {cs t a : List Char} {ts : List (List Char)}

def cwdOption : List Char := "-cwd".toList

def wdOption : List Char := "-wd".toList

def pathEnd : Regex Char :=
  .alt (.seq (.one (· = '.')) (.seq (.star (· ≠ '.')) (.one isBlank)))
    (.alt (.one isBlank) (.look fun cs => cs = [] ∨ cs = ['\n']))

def wdPattern : Regex Char :=
  .word wdOption (.seq (.one isBlank) (.seq (.star isBlank)
    (.seq (.one (· ≠ '\n')) (.seq (.lazyStar (· ≠ '\n')) pathEnd))))

def removeCwd : List Char → List Char := remove (Regex.literal cwdOption)

def removeWd : List Char → List Char := remove wdPattern.after

def filterSubmitOptions (cs : List Char) : List Char :=
  let cs := strip cs
  let cs := if cwdOption <:+: cs then removeCwd cs else cs
  if wdOption <:+: cs then removeWd cs else cs

example : String.ofList (filterSubmitOptions "-q all.q -cwd -wd /tmp -l h=1".toList) =
    "-q all.q  -l h=1" := by
  decide +kernel

/-! ## What the filter is for -/

def withoutDirectories : List (List Char) → List (List Char)
  | [] => []
  | [t] => if t = cwdOption ∨ t = wdOption then [] else [t]
  | t :: a :: ts =>
    if t = cwdOption then withoutDirectories (a :: ts)
    else if t = wdOption then withoutDirectories ts
    else t :: withoutDirectories (a :: ts)

def directories : List (List Char) → List (List Char)
  | [] => []
  | [_] => []
  | t :: a :: ts => if t = wdOption then a :: directories ts else directories (a :: ts)

def Followed : List (List Char) → Prop
  | [] => True
  | [t] => t ≠ wdOption
  | t :: a :: ts => if t = wdOption then Followed ts else Followed (a :: ts)

/-! ## The pattern -/

abbrev Token (t : List Char) : Prop := IsWord isBlank t

lemma isWord_cwdOption : Token cwdOption := isWord_of_all (by decide +kernel) (by decide +kernel)

lemma isWord_wdOption : Token wdOption := isWord_of_all (by decide +kernel) (by decide +kernel)

lemma word_eq_of_append {us vs ds : List Char} {b c : Char} (hus : ∀ u ∈ us, isBlank u = false)
    (hvs : ∀ v ∈ vs, isBlank v = false) (hb : isBlank b) (hc : isBlank c)
    (h : us ++ b :: cs = vs ++ c :: ds) : us = vs := by
  rcases append_eq_append_iff.mp h with ⟨ws, hw, hcs⟩ | ⟨ws, hw, hds⟩
  · cases ws with
    | nil => rw [hw, append_nil]
    | cons d ws =>
      obtain ⟨rfl, _⟩ := List.cons.inj hcs
      have hblank := hvs b (hw ▸ mem_append_right _ mem_cons_self)
      rw [hb] at hblank
      cases hblank
  · cases ws with
    | nil => rw [hw, append_nil]
    | cons d ws =>
      obtain ⟨rfl, _⟩ := List.cons.inj hds
      have hblank := hus c (hw ▸ mem_append_right _ mem_cons_self)
      rw [hc] at hblank
      cases hblank

lemma of_wdPattern {rest : List Char} (h : wdPattern.after cs = some rest) :
    ∃ b vs, cs = wdOption ++ b :: vs ∧ isBlank b := by
  obtain ⟨vs, rfl, hvs⟩ := of_run_word h
  cases vs with
  | nil => cases hvs
  | cons b vs =>
    refine ⟨b, vs, rfl, ?_⟩
    by_contra hb
    have hfail : (if isBlank b = true then _ else none) = some rest := hvs
    rw [if_neg hb] at hfail
    cases hfail

lemma wdPattern_none (ht : Token t) (hwd : ¬ wdOption <:+ t) (cs : List Char) :
    ∀ xs y ys, t = xs ++ y :: ys → wdPattern.after (y :: ys ++ ' ' :: cs) = none := by
  intro xs y ys heq
  refine Option.eq_none_iff_forall_ne_some.mpr fun rest h => ?_
  obtain ⟨b, vs, hmatch, hb⟩ := of_wdPattern h
  have hys : ∀ u ∈ y :: ys, isBlank u = false := fun u hu => ht.2 u (heq ▸ mem_append_right _ hu)
  have hsame : y :: ys = wdOption := word_eq_of_append hys isWord_wdOption.2 (by decide) hb hmatch
  exact hwd ⟨xs, by rw [heq, hsame]⟩

lemma wdPattern_none_of_isWord (ht : Token t) :
    ∀ xs y ys, t = xs ++ y :: ys → wdPattern.after (y :: ys) = none := by
  intro xs y ys heq
  refine Option.eq_none_iff_forall_ne_some.mpr fun rest h => ?_
  obtain ⟨b, vs, hmatch, hb⟩ := of_wdPattern h
  have hword : isBlank b = false := ht.2 b (by rw [heq, hmatch]; simp)
  rw [hb] at hword
  cases hword

lemma wdPattern_blank (cs : List Char) : wdPattern.after (' ' :: cs) = none := by
  refine Option.eq_none_iff_forall_ne_some.mpr fun rest h => ?_
  obtain ⟨b, vs, hmatch, _⟩ := of_wdPattern h
  have hhead : ' ' = '-' := (List.cons.inj hmatch).1
  exact absurd hhead (by decide)

lemma ne_newline {c : Char} (h : isBlank c = false) : c ≠ '\n' := by
  rintro rfl
  cases h

lemma wdPattern_path {x : Char} (hx : isBlank x = false) (cs : List Char) :
    wdPattern.after (wdOption ++ ' ' :: x :: cs) = Regex.runLazy (· ≠ '\n') (pathEnd.run some) cs := by
  rw [Regex.after, wdPattern, Regex.run_word_append]
  show runStar isBlank _ (x :: cs) = _
  rw [runStar, if_neg (by simp [hx])]
  show (if decide (x ≠ '\n') = true then _ else none) = _
  rw [if_pos (decide_eq_true (ne_newline hx))]
  rfl

lemma pathEnd_none {c : Char} (hc : isBlank c = false) (hdot : c ≠ '.') (cs : List Char) :
    pathEnd.run some (c :: cs) = none := by
  have hend : ¬(c :: cs = [] ∨ c :: cs = ['\n']) := by
    rintro (h | h)
    · cases h
    · exact ne_newline hc (List.cons.inj h).1
  show Option.or (if decide (c = '.') = true then _ else none)
    (Option.or (if isBlank c = true then _ else none) (if decide _ = true then _ else none)) = none
  rw [if_neg (by simp [hdot]), if_neg (by simp [hc]), if_neg (by simpa using hend)]
  rfl

lemma runLazy_path {as : List Char} (has : ∀ c ∈ as, isBlank c = false) (hdot : '.' ∉ as)
    (cs : List Char) : runLazy (· ≠ '\n') (pathEnd.run some) (as ++ cs) =
      runLazy (· ≠ '\n') (pathEnd.run some) cs := by
  refine runLazy_append (fun c hc => decide_eq_true (ne_newline (has c hc))) ?_
  intro vs u ws heq
  have hu : u ∈ as := heq ▸ mem_append_right _ mem_cons_self
  exact pathEnd_none (has u hu) (fun h => hdot (h ▸ hu)) _

lemma wdPattern_plain (ha : Token a) (hdot : '.' ∉ a.tail) (cs : List Char) :
    wdPattern.after (wdOption ++ ' ' :: (a ++ ' ' :: cs)) = some cs := by
  obtain ⟨hne, hblank⟩ := ha
  cases a with
  | nil => exact absurd rfl hne
  | cons x a =>
    obtain ⟨hx, ha⟩ := forall_mem_cons.mp hblank
    rw [cons_append, wdPattern_path hx, runLazy_path ha hdot]
    rfl

lemma wdPattern_plain_end (ha : Token a) (hdot : '.' ∉ a.tail) :
    wdPattern.after (wdOption ++ ' ' :: a) = some [] := by
  obtain ⟨hne, hblank⟩ := ha
  cases a with
  | nil => exact absurd rfl hne
  | cons x a =>
    obtain ⟨hx, ha⟩ := forall_mem_cons.mp hblank
    have hpath := runLazy_path ha hdot []
    rw [append_nil] at hpath
    rw [wdPattern_path hx, hpath]
    rfl

/-! ## The parts of the options -/

lemma removeCwd_join (cs : List Char) :
    removeCwd (t ++ ' ' :: cs) = removeCwd t ++ ' ' :: removeCwd cs := by
  have hblank : ' ' ∉ cwdOption := by decide +kernel
  have hnone := literal_append_cons hblank [] cs
  have hnil : literal cwdOption [] = none := rfl
  rw [hnil] at hnone
  exact remove_separated hnone (fun us _ => literal_append_cons hblank us cs) t

lemma removeCwd_eq_self (h : ¬ cwdOption <:+: t) : removeCwd t = t := by
  refine remove_eq_self fun xs y ys heq => ?_
  refine Option.eq_none_iff_forall_ne_some.mpr fun rest hmatch => h ?_
  have hys := of_literal hmatch
  exact ⟨xs, rest, by rw [heq, hys, append_assoc]⟩

def withoutCwd (ts : List (List Char)) : List Char := join ' ' (ts.map removeCwd)

lemma removeCwd_options (ts : List (List Char)) : removeCwd (join ' ' ts) = withoutCwd ts := by
  induction ts with
  | nil => rfl
  | cons t ts ih =>
    cases ts with
    | nil => rfl
    | cons u ts =>
      rw [join, removeCwd_join, ih]
      rfl

def Trimmed (cs : List Char) : Prop :=
  (∃ x xs, cs = x :: xs ∧ isBlank x = false) ∧ ∃ ys y, cs = ys ++ [y] ∧ isBlank y = false

lemma Trimmed.strip (h : Trimmed cs) : strip cs = cs := by
  obtain ⟨⟨x, xs, hxs, hx⟩, ys, y, hys, hy⟩ := h
  have hfront : cs.dropWhile isBlank = cs := by
    rw [hxs, dropWhile_cons_of_neg (by simp [hx])]
  rw [Urb.strip, hfront, hys, rdropWhile_concat_neg _ _ _ (by simp [hy])]

lemma trimmed_token (ht : Token t) : Trimmed t := by
  obtain ⟨hne, hblank⟩ := ht
  obtain ⟨x, xs, rfl⟩ := exists_cons_of_ne_nil hne
  refine ⟨⟨x, xs, rfl, hblank x mem_cons_self⟩, _, _, (dropLast_append_getLast hne).symm, ?_⟩
  exact hblank _ (getLast_mem hne)

lemma Trimmed.append {us vs : List Char} (hus : Trimmed us) (hvs : Trimmed vs) (b : Char) :
    Trimmed (us ++ b :: vs) := by
  obtain ⟨⟨x, xs, rfl, hx⟩, _⟩ := hus
  obtain ⟨_, ys, y, rfl, hy⟩ := hvs
  exact ⟨⟨x, _, rfl, hx⟩, x :: xs ++ b :: ys, y, by simp, hy⟩

lemma trimmed_join (h : ∀ u ∈ t :: ts, Token u) : Trimmed (join ' ' (t :: ts)) := by
  induction ts generalizing t with
  | nil => exact trimmed_token (h t mem_cons_self)
  | cons u ts ih =>
    obtain ⟨ht, hts⟩ := forall_mem_cons.mp h
    exact (trimmed_token ht).append (ih hts) ' '

lemma strip_join (h : ∀ t ∈ ts, Token t) : strip (join ' ' ts) = join ' ' ts := by
  cases ts with
  | nil => rfl
  | cons t ts => exact (trimmed_join h).strip

lemma removeWd_eq_self (h : ¬ wdOption <:+: cs) : removeWd cs = cs := by
  refine remove_eq_self fun xs y ys heq => ?_
  refine Option.eq_none_iff_forall_ne_some.mpr fun rest hmatch => h ?_
  obtain ⟨b, vs, hys, _⟩ := of_wdPattern hmatch
  exact ⟨xs, b :: vs, by rw [heq, hys, append_assoc]⟩

lemma filterSubmitOptions_join (h : ∀ t ∈ ts, Token t) :
    filterSubmitOptions (join ' ' ts) = removeWd (withoutCwd ts) := by
  have hcwd : (if cwdOption <:+: join ' ' ts then removeCwd (join ' ' ts) else join ' ' ts) =
      withoutCwd ts := by
    split_ifs with hin
    · exact removeCwd_options ts
    · rw [← removeCwd_options, removeCwd_eq_self hin]
  rw [filterSubmitOptions, strip_join h, hcwd]
  split_ifs with hin
  · rfl
  · exact (removeWd_eq_self hin).symm

/-! ## Options that are taken apart well -/

def Plain (t : List Char) : Prop := ¬ cwdOption <:+: t ∧ ¬ wdOption <:+ t

def PlainPath (a : List Char) : Prop := removeCwd a ≠ [] ∧ '.' ∉ (removeCwd a).tail

lemma removeCwd_subset : ∀ c ∈ removeCwd t, c ∈ t :=
  fun _ hc => (removeFrom_sublist _ 0 t).subset hc

lemma token_removeCwd (ha : Token a) (hne : removeCwd a ≠ []) : Token (removeCwd a) :=
  ⟨hne, fun c hc => ha.2 c (removeCwd_subset c hc)⟩

lemma removeWd_token (ht : Token t) : removeWd t = t :=
  remove_eq_self (wdPattern_none_of_isWord ht)

lemma removeWd_append (ht : Token t) (hwd : ¬ wdOption <:+ t) (cs : List Char) :
    removeWd (t ++ ' ' :: cs) = t ++ ' ' :: removeWd cs := by
  rw [removeWd, remove_append_of_none (wdPattern_none ht hwd cs), remove_cons_of_none (wdPattern_blank cs)]

lemma words_removeWd_blank (cs : List Char) :
    words isBlank (removeWd (' ' :: cs)) = words isBlank (removeWd cs) := by
  rw [removeWd, remove_cons_of_none (wdPattern_blank cs)]
  exact words_append (by decide) [] _

lemma removeCwd_cwdOption : removeCwd cwdOption = [] := by decide +kernel

lemma removeCwd_wdOption : removeCwd wdOption = wdOption := by decide +kernel

lemma removeWd_directory (ha : Token (removeCwd a)) (hdot : '.' ∉ (removeCwd a).tail) :
    removeWd (withoutCwd (wdOption :: a :: ts)) = removeWd (withoutCwd ts) := by
  have hne : wdOption ++ ' ' :: removeCwd a ≠ [] := by simp
  cases ts with
  | nil =>
    have hjoin : withoutCwd [wdOption, a] = (wdOption ++ ' ' :: removeCwd a) ++ [] := by
      rw [withoutCwd, map_cons, map_cons, join, removeCwd_wdOption, append_nil]
      rfl
    have hmatch := wdPattern_plain_end ha hdot
    rw [hjoin]
    refine remove_append_of_some hne ?_
    rwa [append_nil]
  | cons u ts =>
    have hjoin : withoutCwd (wdOption :: a :: u :: ts) =
        (wdOption ++ ' ' :: removeCwd a ++ [' ']) ++ withoutCwd (u :: ts) := by
      rw [withoutCwd, map_cons, map_cons, map_cons, join, join, removeCwd_wdOption]
      simp [withoutCwd]
    have hmatch := wdPattern_plain ha hdot (withoutCwd (u :: ts))
    rw [hjoin]
    refine remove_append_of_some (by simp) ?_
    simpa using hmatch

lemma words_removeWd (ts : List (List Char)) (hts : ∀ t ∈ ts, Token t) (hf : Followed ts)
    (hkept : ∀ t ∈ withoutDirectories ts, Plain t) (hpath : ∀ a ∈ directories ts, PlainPath a) :
    words isBlank (removeWd (withoutCwd ts)) = withoutDirectories ts := by
  induction ts using withoutDirectories.induct with
  | case1 => rfl
  | case2 t ht =>
    have hcwd : t = cwdOption := ht.resolve_right hf
    rw [withoutDirectories, if_pos ht, withoutCwd, hcwd, map_singleton, removeCwd_cwdOption]
    rfl
  | case3 t ht =>
    rw [withoutDirectories, if_neg ht] at hkept ⊢
    have hplain := hkept t mem_cons_self
    have htoken := hts t mem_cons_self
    rw [withoutCwd, map_singleton, join, removeCwd_eq_self hplain.1, removeWd_token htoken,
      words_of_isWord htoken]
  | case4 a ts ih =>
    rw [withoutDirectories, if_pos rfl] at hkept ⊢
    have hne : cwdOption ≠ wdOption := by decide +kernel
    rw [Followed, if_neg hne] at hf
    rw [directories, if_neg hne] at hpath
    have hjoin : withoutCwd (cwdOption :: a :: ts) = ' ' :: withoutCwd (a :: ts) := by
      rw [withoutCwd, map_cons, map_cons, join, removeCwd_cwdOption]
      rfl
    rw [hjoin, words_removeWd_blank]
    exact ih (forall_mem_cons.mp hts).2 hf hkept hpath
  | case5 a ts hne ih =>
    rw [withoutDirectories, if_neg hne, if_pos rfl] at hkept ⊢
    rw [Followed, if_pos rfl] at hf
    rw [directories, if_pos rfl] at hpath
    obtain ⟨ha, hpath⟩ := forall_mem_cons.mp hpath
    obtain ⟨_, hts⟩ := forall_mem_cons.mp hts
    obtain ⟨htoken, hts⟩ := forall_mem_cons.mp hts
    rw [removeWd_directory (token_removeCwd htoken ha.1) ha.2, ih hts hf hkept hpath]
  | case6 t a ts hne hne' ih =>
    rw [withoutDirectories, if_neg hne, if_neg hne'] at hkept ⊢
    rw [Followed, if_neg hne'] at hf
    rw [directories, if_neg hne'] at hpath
    obtain ⟨hplain, hkept⟩ := forall_mem_cons.mp hkept
    obtain ⟨htoken, hts⟩ := forall_mem_cons.mp hts
    have hjoin : withoutCwd (t :: a :: ts) = t ++ ' ' :: withoutCwd (a :: ts) := by
      rw [withoutCwd, map_cons, map_cons, join, removeCwd_eq_self hplain.1]
      rfl
    rw [hjoin, removeWd_append htoken hplain.2, words_append (by decide), words_of_isWord htoken,
      ih hts hf hkept hpath]
    rfl

/-! ## Options that are not -/

def solid (c : Char) : Bool := !isBlank c

lemma countP_solid (h : words isBlank cs = ts) : cs.countP solid = ts.flatten.length := by
  rw [← h, flatten_words, countP_eq_length_filter]
  rfl

lemma countP_solid_token (ht : Token t) : t.countP solid = t.length :=
  countP_eq_length.mpr fun c hc => by simp [solid, ht.2 c hc]

lemma countP_removeCwd_lt (h : cwdOption <:+: t) : (removeCwd t).countP solid < t.countP solid := by
  obtain ⟨us, vs, rfl⟩ := h
  have hmatch : literal cwdOption (cwdOption ++ vs) = some vs := literal_append _ _
  rw [append_assoc]
  refine countP_remove_lt ?_ ?_ (append_ne_nil_of_left_ne_nil isWord_cwdOption.1 vs) hmatch us
  · intro c cs rest hc
    have heq := of_literal hc
    obtain ⟨rfl, _⟩ := List.cons.inj heq
    decide
  · intro cs rest hc
    rw [of_literal hc, length_append]
    exact Nat.lt_add_of_pos_left (by decide)

lemma countP_removeWd_le (cs : List Char) : (removeWd cs).countP solid ≤ cs.countP solid :=
  (removeFrom_sublist _ 0 cs).countP_le

lemma not_filtered_of_cwd (ht : Token t) (h : cwdOption <:+: t) :
    words isBlank (removeWd (withoutCwd [t])) ≠ [t] := by
  intro hwords
  have hcount := countP_solid hwords
  rw [flatten_singleton] at hcount
  have hlt : (removeWd (removeCwd t)).countP solid < t.length :=
    ((countP_removeWd_le _).trans_lt (countP_removeCwd_lt h)).trans_eq (countP_solid_token ht)
  exact hlt.ne hcount

lemma length_of_wdPattern {rest : List Char} (h : wdPattern.after cs = some rest) :
    rest.length < cs.length := by
  obtain ⟨vs, rfl, hvs⟩ := of_run_word h
  obtain ⟨us, hus, hrest⟩ := suffix_of_run _ hvs
  cases hrest
  rw [length_append]
  exact hus.length_le.trans_lt (Nat.lt_add_of_pos_left (by decide))

lemma wdPattern_isSome (ha : Token a) : (wdPattern.after (wdOption ++ ' ' :: a)).isSome := by
  obtain ⟨hne, hblank⟩ := ha
  cases a with
  | nil => exact absurd rfl hne
  | cons x a =>
    obtain ⟨hx, ha⟩ := forall_mem_cons.mp hblank
    rw [wdPattern_path hx]
    exact runLazy_isSome (fun c hc => decide_eq_true (ne_newline (ha c hc))) rfl

lemma not_filtered_of_wd (ht : Token t) (hcwd : ¬ cwdOption <:+: t) (h : wdOption <:+ t)
    : words isBlank (removeWd (withoutCwd [t, t])) ≠ [t, t] := by
  intro hwords
  have hjoin : withoutCwd [t, t] = t ++ ' ' :: t := by
    rw [withoutCwd, map_cons, map_cons, removeCwd_eq_self hcwd]
    rfl
  obtain ⟨us, hus⟩ := h
  obtain ⟨rest, hmatch⟩ := isSome_iff_exists.mp (wdPattern_isSome ht)
  have hlt : (removeWd (us ++ (wdOption ++ ' ' :: t))).countP solid <
      (us ++ (wdOption ++ ' ' :: t)).countP solid := by
    refine countP_remove_lt ?_ (fun _ _ => length_of_wdPattern) (by simp) hmatch us
    intro c cs rest hc
    obtain ⟨b, vs, heq, _⟩ := of_wdPattern hc
    obtain ⟨rfl, _⟩ := List.cons.inj heq
    decide
  have hcount := countP_solid hwords
  have hall : (t ++ ' ' :: t).countP solid = [t, t].flatten.length := by
    rw [countP_append, countP_cons_of_neg (by decide), countP_solid_token ht]
    simp
  rw [← append_assoc, hus] at hlt
  rw [hjoin] at hcount
  exact hlt.ne (hcount.trans hall.symm)

lemma not_filtered_of_empty (h : removeCwd a = []) :
    words isBlank (removeWd (withoutCwd [wdOption, a])) ≠ [] := by
  have hjoin : withoutCwd [wdOption, a] = wdOption ++ [' '] := by
    rw [withoutCwd, map_cons, map_cons, map_nil, h, removeCwd_wdOption]
    rfl
  rw [hjoin]
  decide +kernel

lemma exists_lastDot (h : '.' ∈ cs) : ∃ us vs, cs = us ++ '.' :: vs ∧ '.' ∉ vs := by
  induction cs with
  | nil => exact absurd h not_mem_nil
  | cons c cs ih =>
    by_cases hcs : '.' ∈ cs
    · obtain ⟨us, vs, rfl, hvs⟩ := ih hcs
      exact ⟨c :: us, vs, rfl, hvs⟩
    · obtain rfl : '.' = c := (mem_cons.mp h).resolve_right hcs
      exact ⟨[], cs, rfl, hcs⟩

lemma noBlank_beforeDot {us : List Char} (hus : ∀ u ∈ us, isBlank u = false) :
    runStar (fun c : Char => c ≠ '.') (run (.one isBlank) some) (us ++ '.' :: cs) = none := by
  refine runStar_none fun xs ys heq hxs => ?_
  rcases append_eq_append_iff.mp heq with ⟨ws, hw, hcs⟩ | ⟨ws, hw, hds⟩
  · cases ws with
    | nil =>
      rw [nil_append] at hcs
      rw [← hcs]
      rfl
    | cons d ws =>
      obtain ⟨rfl, _⟩ := List.cons.inj hcs
      have hdot := hxs '.' (hw ▸ mem_append_right _ mem_cons_self)
      exact absurd hdot (by decide)
  · cases ws with
    | nil =>
      rw [nil_append] at hds
      rw [hds]
      rfl
    | cons d ws =>
      rw [hds]
      have hd : isBlank d = false := hus d (hw ▸ mem_append_right _ mem_cons_self)
      show (if isBlank d = true then _ else none) = none
      rw [if_neg (by simp [hd])]

lemma noBlank (hcs : ∀ c ∈ cs, isBlank c = false) :
    runStar (fun c : Char => c ≠ '.') (run (.one isBlank) some) cs = none := by
  refine runStar_none fun us vs heq _ => ?_
  cases vs with
  | nil => rfl
  | cons d vs =>
    have hd : isBlank d = false := hcs d (heq ▸ mem_append_right _ mem_cons_self)
    show (if isBlank d = true then _ else none) = none
    rw [if_neg (by simp [hd])]

lemma pathEnd_dot (cs : List Char) : pathEnd.run some ('.' :: cs) =
      runStar (fun c : Char => c ≠ '.') (run (.one isBlank) some) cs := by
  show Option.or (runStar (fun c : Char => c ≠ '.') (run (.one isBlank) some) cs)
    (Option.or none (if decide _ = true then _ else none)) = _
  rw [if_neg (by simp), Option.or_none, Option.or_none]

lemma wdPattern_dotted (ha : Token a) (hdot : '.' ∈ a.tail) :
    wdPattern.after (wdOption ++ ' ' :: (a ++ ' ' :: (wdOption ++ ' ' :: a))) = some a := by
  obtain ⟨hne, hblank⟩ := ha
  obtain ⟨x, as, rfl⟩ := exists_cons_of_ne_nil hne
  obtain ⟨hx, has⟩ := forall_mem_cons.mp hblank
  obtain ⟨us, vs, heq, hvs⟩ := exists_lastDot hdot
  have heq : as = us ++ '.' :: vs := heq
  have hus : ∀ u ∈ us, isBlank u = false := fun u hu => has u (heq ▸ mem_append_left _ hu)
  -- from the last dot of the path to the blank before the second one
  have hlast : runStar (fun c : Char => c ≠ '.') (run (.one isBlank) some)
      (vs ++ ' ' :: (wdOption ++ ' ' :: (x :: as))) = some (x :: as) := by
    have hend : runStar (fun c : Char => c ≠ '.') (run (.one isBlank) some)
        (' ' :: (x :: as)) = some (x :: as) := by
      rw [runStar, if_pos (by decide), noBlank hblank]
      rfl
    have hwd : ∀ u ∈ ' ' :: wdOption, decide (u ≠ '.') := all_eq_true.mp (by decide +kernel)
    have hrun : ∀ u ∈ vs ++ ' ' :: wdOption, decide (u ≠ '.') := fun u hu =>
      (mem_append.mp hu).elim (fun hu => decide_eq_true fun h => hvs (h ▸ hu)) (hwd u)
    simpa using runStar_append hrun hend
  have hpath (cs : List Char) : as ++ cs = us ++ '.' :: (vs ++ cs) := by
    rw [heq, append_assoc]
    rfl
  rw [cons_append, wdPattern_path hx, hpath, runLazy_append, runLazy, pathEnd_dot, hlast]
  · rfl
  · exact fun u hu => decide_eq_true (ne_newline (hus u hu))
  · intro xs u ws hsplit
    have hu : isBlank u = false := hus u (hsplit ▸ mem_append_right _ mem_cons_self)
    by_cases hd : u = '.'
    · subst hd
      rw [cons_append, pathEnd_dot]
      exact noBlank_beforeDot fun w hw =>
        hus w (hsplit ▸ mem_append_right _ (mem_cons_of_mem _ hw))
    · exact pathEnd_none hu hd _

lemma not_filtered_of_dot (ha : Token (removeCwd a)) (hdot : '.' ∈ (removeCwd a).tail) :
    words isBlank (removeWd (withoutCwd [wdOption, a, wdOption, a])) ≠ [] := by
  have hjoin : withoutCwd [wdOption, a, wdOption, a] =
      (wdOption ++ ' ' :: (removeCwd a ++ ' ' :: (wdOption ++ [' ']))) ++ removeCwd a := by
    rw [withoutCwd, map_cons, map_cons, map_cons, map_cons, removeCwd_wdOption]
    simp [join]
  have hmatch := wdPattern_dotted ha hdot
  have hleft : removeWd (withoutCwd [wdOption, a, wdOption, a]) = removeCwd a := by
    rw [hjoin, removeWd, remove_append_of_some (by simp) (by simpa using hmatch)]
    exact removeWd_token ha
  rw [hleft, words_of_isWord ha]
  exact cons_ne_nil _ _

/-! ## The filter -/

lemma of_mem_withoutDirectories (h : t ∈ withoutDirectories ts)
    : t ∈ ts ∧ t ≠ cwdOption ∧ t ≠ wdOption := by
  induction ts using withoutDirectories.induct with
  | case1 => exact absurd h not_mem_nil
  | case2 u hu =>
    rw [withoutDirectories, if_pos hu] at h
    exact absurd h not_mem_nil
  | case3 u hu =>
    rw [withoutDirectories, if_neg hu] at h
    rw [mem_singleton.mp h]
    exact ⟨mem_cons_self, not_or.mp hu⟩
  | case4 a ts ih =>
    rw [withoutDirectories, if_pos rfl] at h
    exact ⟨mem_cons_of_mem _ (ih h).1, (ih h).2⟩
  | case5 a ts hne ih =>
    rw [withoutDirectories, if_neg hne, if_pos rfl] at h
    exact ⟨mem_cons_of_mem _ (mem_cons_of_mem _ (ih h).1), (ih h).2⟩
  | case6 u a ts hne hne' ih =>
    rw [withoutDirectories, if_neg hne, if_neg hne'] at h
    rcases mem_cons.mp h with rfl | h
    · exact ⟨mem_cons_self, hne, hne'⟩
    · exact ⟨mem_cons_of_mem _ (ih h).1, (ih h).2⟩

lemma mem_of_mem_directories (h : a ∈ directories ts) : a ∈ ts := by
  induction ts using directories.induct with
  | case1 => exact absurd h not_mem_nil
  | case2 t => exact absurd h not_mem_nil
  | case3 b ts ih =>
    rw [directories, if_pos rfl] at h
    rcases mem_cons.mp h with rfl | h
    · exact mem_cons_of_mem _ mem_cons_self
    · exact mem_cons_of_mem _ (mem_cons_of_mem _ (ih h))
  | case4 t b ts hne ih =>
    rw [directories, if_neg hne] at h
    exact mem_cons_of_mem _ (ih h)

end Urb
