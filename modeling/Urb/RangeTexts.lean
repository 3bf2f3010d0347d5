/-
# `Urb.RangeTexts` — a range as a text, and back

`__str__` puts the elements of a range, each as `start:stop:step`, between commas:

    -5:-1:2,3:9:2

A range is built from such a text by `_add_str`, which inserts one element after the other, unless
there are tuples in parentheses; then it inserts those alone.

**Proved here.**  The text of an integer is read back as that integer (`readInt_intText`), and the range
that is built from the text of a range has the same elements in the same order (`ofStr_str`): they are
read back one by one, and each lies behind those before it.
-/
import Urb.FrameworkConfig
import Urb.RangeGrid
import Urb.SubmitCommand

namespace Urb

open List Nat

/-! ## The text of an integer -/

lemma readDigits_toDigits (n : ℕ) : readDigits (toDigits 10 n) = some n := by
  have hdigits : (toDigits 10 n).all Char.isDigit :=
    all_eq_true.mpr fun c hc => isDigit_of_mem_toDigits (by decide) (by decide) hc
  rw [readDigits, if_pos ⟨toDigits_ne_nil, hdigits⟩, ofDigitChars_toDigits (by decide) (by decide)]

lemma readInt_intText (n : ℤ) : readInt (intText n) = some n := by
  have hstrip : strip (intText n) = intText n := by
    refine strip_of_isIntChar fun c hc => ?_
    rcases mem_intText hc with rfl | hdigit
    · rfl
    · simp [isIntChar, hdigit]
  cases n with
  | ofNat n =>
    rw [Int.ofNat_eq_natCast, intText_ofNat, readInt_of_digits, readDigits_toDigits]
    · rfl
    · exact fun c hc => isDigit_of_mem_toDigits (by decide) (by decide) hc
  | negSucc n =>
    rw [readInt_eq, hstrip, intText_negSucc]
    show (readDigits (toDigits 10 (n + 1))).map (fun n : ℕ => -1 * (n : ℤ)) = _
    rw [readDigits_toDigits, map_some, neg_one_mul]
    rfl

lemma notMem_intText {c : Char} (hc : ¬(c = '-' ∨ c.isDigit)) (n : ℤ) : c ∉ intText n :=
  fun h => hc (mem_intText h)

/-! ## The text of a range -/

namespace ChoppyRange

def itemText (t : RangeTuple) : List Char :=
  [':'].intercalate [intText t.start, intText t.stop, intText t.step]

/-- `__str__`. -/
def str (cr : ChoppyRange) : List Char := [','].intercalate (cr.items.map itemText)

def sliceFromIdxStr (index : List Char) : Except RangeError RangeTuple :=
  match index.splitOn ':' with
  | [start, stop, step] =>
    match readInt start, readInt stop, readInt step with
    | some start, some stop, some step => .ok ⟨start, stop, step⟩
    | _, _, _ => .error .notIntegerElements
  | _ => .error .notThreeElements

/-- The pattern `\(\d+,\d+,\d+\)`. -/
def tuplePattern : Regex Char :=
  let number := .seq (.one Char.isDigit) (.star Char.isDigit)
  let comma := .one (· = ',')
  .seq (.one (· = '(')) (.seq number (.seq comma (.seq number (.seq comma (.seq number (.one (· = ')')))))))

def tupleFromStr (rg : List Char) : Except RangeError RangeTuple :=
  match (rg.tail.dropLast.splitOn ',').mapM readInt with
  | some [start, stop, step] => .ok ⟨start, stop, step⟩
  | _ => .error .notThreeIntegers

def addStr (cr : ChoppyRange) (initRange : List Char) : Except RangeError ChoppyRange :=
  if initRange = [] then .ok cr
  else
    let stripped := initRange.filter (· ≠ ' ')
    let rgList := Text.findAll tuplePattern.after stripped
    if rgList ≠ [] then rgList.foldlM (fun cr rg => do cr.insert (← tupleFromStr rg)) cr
    else (stripped.splitOn ',').foldlM (fun cr rg => do cr.insert (← sliceFromIdxStr rg)) cr

/-- `ChoppyRange(initRange)`, of a text. -/
def ofStr (initRange : List Char) : Except RangeError ChoppyRange :=
  if initRange = [] then .ok {} else addStr {} initRange

example : ofStr "(7, 9, 1) (1, 5, 1)".toList =
    .ok { items := [⟨1, 5, 1⟩, ⟨7, 9, 1⟩], step := some 1 } := by decide +kernel

variable {cr : ChoppyRange} {c : Char}

lemma notMem_itemText (hint : ¬(c = '-' ∨ c.isDigit)) (hc : c ≠ ':') (t : RangeTuple) :
    c ∉ itemText t := by
  simp [itemText, intercalate_cons_cons, notMem_intText hint, hc]

lemma notMem_str (hint : ¬(c = '-' ∨ c.isDigit)) (hc : c ≠ ':') (hc' : c ≠ ',')
    (cr : ChoppyRange) : c ∉ str cr := by
  unfold str
  induction cr.items with
  | nil => exact not_mem_nil
  | cons t ts ih =>
    cases ts with
    | nil => simpa using notMem_itemText hint hc t
    | cons t' ts =>
      rw [map_cons, map_cons, intercalate_cons_cons]
      simp only [mem_append, mem_singleton, not_or]
      exact ⟨⟨notMem_itemText hint hc t, hc'⟩, ih⟩

lemma sliceFromIdxStr_itemText (t : RangeTuple) : sliceFromIdxStr (itemText t) = .ok t := by
  have hcolon : ∀ l ∈ [intText t.start, intText t.stop, intText t.step], ':' ∉ l := by
    simp [notMem_intText]
  rw [sliceFromIdxStr, itemText, splitOn_intercalate ':' hcolon (cons_ne_nil _ _)]
  simp only [readInt_intText]

lemma splitOn_str (hne : cr.items ≠ []) : (str cr).splitOn ',' = cr.items.map itemText := by
  refine splitOn_intercalate ',' (fun l hl => ?_) (by simpa using hne)
  obtain ⟨t, -, rfl⟩ := mem_map.mp hl
  exact notMem_itemText (by decide) (by decide) t

lemma str_ne_nil (hne : cr.items ≠ []) : str cr ≠ [] := by
  intro hnil
  obtain ⟨t, ts, hitems⟩ := exists_cons_of_ne_nil hne
  have hsplit := splitOn_str hne
  rw [hnil, hitems, map_cons] at hsplit
  have hempty : itemText t = [] := (List.cons.inj hsplit).1.symm
  simp [itemText, intercalate_cons_cons] at hempty

lemma ofStr_eq (cr : ChoppyRange) : ofStr (str cr) = cr.items.foldlM insert {} := by
  by_cases hne : cr.items = []
  · have hempty : str cr = [] := by
      rw [str, hne]
      rfl
    rw [hempty, hne]
    rfl
  have hblank : (str cr).filter (· ≠ ' ') = str cr := by
    refine filter_eq_self.mpr fun c hc => decide_eq_true fun h => ?_
    exact notMem_str (by decide) (by decide) (by decide) cr (h ▸ hc)
  have hnone : Text.findAll tuplePattern.after (str cr) = [] := by
    refine Text.findAll_eq_nil fun c hc ds => if_neg fun h => ?_
    exact notMem_str (by decide) (by decide) (by decide) cr (of_decide_eq_true h ▸ hc)
  rw [ofStr, if_neg (str_ne_nil hne), addStr, if_neg (str_ne_nil hne), hblank]
  show (if Text.findAll tuplePattern.after (str cr) ≠ [] then _ else _) = _
  rw [hnone, if_neg (not_not.mpr rfl), splitOn_str hne, foldlM_map]
  simp only [sliceFromIdxStr_itemText]
  rfl

/-- **The text of a range** gives the range back. -/
theorem ofStr_str {d : ℤ} {ts : List RangeTuple} (hts : ∀ t ∈ ts, t.start ≤ t.stop ∧ t.step = d)
    (hok : ts.foldlM insert {} = .ok cr) : ∃ cr', ofStr (str cr) = .ok cr' ∧ cr'.items = cr.items := by
  have hkept : ∀ t ∈ ts, ∀ c c' : ChoppyRange, c.insert t = .ok c' →
      (∀ x ∈ c.items, x.step = d) ∧ IntervalSet.Valid c.items →
      (∀ x ∈ c'.items, x.step = d) ∧ IntervalSet.Valid c'.items := fun t ht _ _ hone h =>
    insert_all h.1 (hts t ht).2 h.2 (hts t ht).1 hone
  obtain ⟨hsteps, hvalid⟩ := Fallible.inv (b := {}) hkept ⟨nofun, nofun, .nil, .nil⟩ hok
  rw [ofStr_eq]
  exact insertAll_ascending (c := {}) (.inl rfl) hsteps hvalid.nonempty hvalid.before

theorem ofStr_str_negative : ∃ cr, [⟨4, 9, 3⟩, ⟨-7, -2, 3⟩].foldlM insert {} = .ok cr ∧
    ∃ cr', ofStr (str cr) = .ok cr' ∧ cr'.items = cr.items :=
  have hok : [⟨4, 9, 3⟩, ⟨-7, -2, 3⟩].foldlM insert {} =
      .ok { items := [⟨-7, -2, 3⟩, ⟨4, 9, 3⟩], step := some 3 } := by decide
  ⟨_, hok, ofStr_str (d := 3) (by decide) hok⟩

end ChoppyRange

end Urb
