/-
# `Urb.ChoppyRange` — integer ranges with gaps, and the port ranges of a slave

`choppyrange.py` keeps a set of integers as a sorted list of tuples
`(start, stop, step)` with an inclusive stop.  `PortRangeUtility` turns the
port ranges of a slave and of a task into such a set, subtracts or adds, and
turns the result back.

Everything that raises in the source is an `Except.error` here.  Python's
integer division rounds down (`Int.fdiv`), and division by a zero step raises.
The values of a tuple are listed by a loop that does not end if the step is not
positive; they are defined for positive steps, and the pieces for positive chunk sizes.

NOTE on `to_choppy_range_tuple`: it returns the END of the range twice, so
that a range enters the arithmetic as its last port alone; and where the end
is given as a text it reads the begin in its place.
-/
import Mathlib.Data.List.Basic
import Mathlib.Data.Int.Basic

namespace Urb

/-- What the range code raises. -/
inductive RangeError where
  | zeroDivision
  | stepMismatch
  | outOfSync
  | overlap
  | missingElement
  | notThreeIntegers
  | notThreeElements
  | notIntegerElements
  deriving Repr, DecidableEq

/-! ## One tuple -/

structure RangeTuple where
  start : ℤ
  stop : ℤ
  step : ℤ
  deriving Repr, DecidableEq

namespace RangeTuple

def le (a b : RangeTuple) : Bool :=
  decide (a.start < b.start) || (decide (a.start = b.start) &&
    (decide (a.stop < b.stop) || (decide (a.stop = b.stop) && decide (a.step ≤ b.step))))

def fixIndices (t : RangeTuple) : Except RangeError RangeTuple :=
  if t.step = 0 then .error .zeroDivision
  else .ok ⟨t.start, t.start + (t.stop - t.start).fdiv t.step * t.step, t.step⟩

def ckAndFix (a b : RangeTuple) : Except RangeError (RangeTuple × RangeTuple) := do
  if a.step ≠ b.step then throw .stepMismatch
  let fa ← a.fixIndices
  let fb ← b.fixIndices
  return (fa, fb)

/-- `intersection`; `none` for no overlap. -/
def intersection (a b : RangeTuple) : Except RangeError (Option RangeTuple) := do
  let (fa, fb) ← ckAndFix a b
  if fa.stop < fb.start ∨ fb.stop < fa.start then return none
  else return some ⟨max fa.start fb.start, min fa.stop fb.stop, fa.step⟩

def removeOverlap (a b : RangeTuple) : Except RangeError (List RangeTuple) := do
  let (fa, fb) ← ckAndFix a b
  match ← fa.intersection fb with
  | none => return [fa]
  | some i =>
    if (fb.start - fa.start).fmod fa.step ≠ 0 then throw .outOfSync
    if fa.start < i.start then
      let low : RangeTuple := ⟨fa.start, i.start - fa.step, fa.step⟩
      if i.stop < a.stop then return [low, ⟨i.stop + fa.step, fa.stop, fa.step⟩]
      else return [low]
    else if i.stop < fa.stop then return [⟨i.stop + fa.step, fa.stop, fa.step⟩]
    else return []

def sort (a b : RangeTuple) : RangeTuple × RangeTuple := if a.le b then (a, b) else (b, a)

def join (a b : RangeTuple) : List RangeTuple :=
  let (low, high) := sort a b
  if low.stop + low.step = high.start then [⟨low.start, high.stop, low.step⟩] else [low, high]

def isOverlapping (a b : RangeTuple) : Except RangeError Bool := do
  let (fa, fb) ← ckAndFix a b
  let (low, high) := sort fa fb
  return decide (low.start ≤ high.start ∧ high.start ≤ low.stop)

def isAdjacent (a b : RangeTuple) : Except RangeError Bool := do
  let (fa, fb) ← ckAndFix a b
  let (low, high) := sort fa fb
  return decide (low.stop + low.step = high.start)

/-- `union`: one tuple if the two overlap or are adjacent. -/
def union (a b : RangeTuple) : Except RangeError (List RangeTuple) := do
  let (fa, fb) ← ckAndFix a b
  if fa.start ≤ fb.start ∧ fa.stop ≥ fb.stop then return [fa]
  if fb.start ≤ fa.start ∧ fb.stop ≥ fa.stop then return [fb]
  match ← a.intersection fb with
  | none => return fa.join fb
  | some _ =>
    if fb.start < fa.start then return [⟨fb.start, fa.stop, fa.step⟩]
    else return [⟨fa.start, fb.stop, fa.step⟩]

def yieldIndex (next stop step : ℤ) : List ℤ :=
  if 0 < step ∧ next ≤ stop then next :: yieldIndex (next + step) stop step else []
termination_by (stop + 1 - next).toNat

/-- The values of a tuple. -/
def values (t : RangeTuple) : List ℤ := yieldIndex t.start t.stop t.step

def count (t : RangeTuple) : Except RangeError ℤ :=
  if t.step = 0 then .error .zeroDivision else .ok ((t.stop - t.start).fdiv t.step + 1)

def chopLoop (next stop step chunkSize : ℤ) : List RangeTuple :=
  if 0 < step ∧ 0 < chunkSize ∧ next ≤ stop then
    let steps := (stop - next).fdiv step
    if steps ≥ chunkSize then
      ⟨next, next + step * chunkSize - step, step⟩ ::
        chopLoop (next + step * chunkSize) stop step chunkSize
    else [⟨next, next + step * steps, step⟩]
  else []
termination_by (stop + 1 - next).toNat
decreasing_by
  rename_i h _
  have := Int.mul_pos h.1 h.2.1
  omega

def chopChunks (t : RangeTuple) (chunkSize : ℤ) : Except RangeError (List RangeTuple) :=
  if t.step = 0 ∧ t.start ≤ t.stop then .error .zeroDivision
  else .ok (chopLoop t.start t.stop t.step chunkSize)

end RangeTuple

/-! ## The sorted set -/

abbrev IntervalSet := List RangeTuple

namespace IntervalSet

def neighbors (l : IntervalSet) (e : RangeTuple) : Option RangeTuple × Option RangeTuple :=
  ((l.takeWhile (·.le e)).getLast?, (l.dropWhile (·.le e)).head?)

def meets (e : RangeTuple) : Option RangeTuple → Bool
  | none => false
  | some n => !(decide (e.stop < n.start) || decide (e.start > n.stop))

def contains (l : IntervalSet) (e : RangeTuple) : Bool :=
  meets e (neighbors l e).1 || meets e (neighbors l e).2

/-- `add`. -/
def add (l : IntervalSet) (e : RangeTuple) : Except RangeError IntervalSet :=
  if contains l e then .error .overlap
  else if e ∈ l then .ok l
  else .ok (l.takeWhile (·.le e) ++ e :: l.dropWhile (·.le e))

end IntervalSet

/-! ## The range with gaps -/

structure ChoppyRange where
  items : IntervalSet := []
  step : Option ℤ := none
  ignoreOverlaps : Bool := false
  deriving Repr, DecidableEq

namespace ChoppyRange

def insert (cr : ChoppyRange) (t : RangeTuple) : Except RangeError ChoppyRange := do
  let step := if cr.step.getD 0 = 0 then t.step else cr.step.getD 0
  if step ≠ t.step then throw .stepMismatch
  match IntervalSet.add cr.items t with
  | .ok items => return { cr with items := items, step := some step }
  | .error e =>
    if cr.ignoreOverlaps then return { cr with step := some step } else throw e

def updateTupleOverlap (cr : ChoppyRange) (old : Option RangeTuple) (overlap : RangeTuple) :
    Except RangeError ChoppyRange := do
  match old with
  | none => return cr
  | some old =>
    let new ← old.removeOverlap overlap
    if new.head? = some old then return cr
    if old ∉ cr.items then throw .missingElement
    new.foldlM insert { cr with items := cr.items.erase old }

/-- `subtract`: both neighbours are found before either is changed. -/
def subtract (cr : ChoppyRange) (other : List RangeTuple) : Except RangeError ChoppyRange :=
  other.foldlM (fun cr e => do
    let (prev, next) := IntervalSet.neighbors cr.items e
    let cr ← cr.updateTupleOverlap prev e
    cr.updateTupleOverlap next e) cr

def remove (cr : ChoppyRange) (t : RangeTuple) : Except RangeError ChoppyRange := do
  let toRemove ← insert {} t
  cr.subtract toRemove.items

def replacement (e : RangeTuple) : Option RangeTuple →
    Except RangeError (List (RangeTuple × RangeTuple))
  | none => return []
  | some n => do
      if (← e.isOverlapping n) || (← e.isAdjacent n) then
        return (← e.union n).head?.toList.map (fun t => (n, t))
      else return []

def replaceAll (cr : ChoppyRange) (toadd : Option RangeTuple) :
    List (RangeTuple × RangeTuple) → Except RangeError (ChoppyRange × Option RangeTuple)
  | [] => return (cr, toadd)
  | (rem, add) :: repl => do
      let cr ← cr.remove rem
      match toadd with
      | none => cr.replaceAll (some add) repl
      | some t => cr.replaceAll (← t.union add).head? repl

def unite (nextFirst : RangeTuple → Bool) (cr : ChoppyRange) (e : RangeTuple) :
    Except RangeError ChoppyRange := do
  let (prev, next) := IntervalSet.neighbors cr.items e
  let rp ← replacement e prev
  let rn ← replacement e next
  match ← cr.replaceAll none (if nextFirst e then rn ++ rp else rp ++ rn) with
  | (cr, some toadd) => cr.insert toadd
  | (cr, none) => cr.insert e

def copy (cr : ChoppyRange) : ChoppyRange := { items := cr.items, step := cr.step }

/-- `union`: the range that is returned, and `self` after the call. -/
def union (nextFirst : RangeTuple → Bool) (cr : ChoppyRange) (crs : List ChoppyRange)
    (inPlace : Bool) : Except RangeError (ChoppyRange × ChoppyRange) := do
  let start := if inPlace then cr else cr.copy
  let result ← (crs.flatMap (·.items)).foldlM (unite nextFirst) start
  return (result, if inPlace then result else cr)

/-- `intersection`: an element without neighbours is taken over. -/
def intersection (cr other : ChoppyRange) : Except RangeError ChoppyRange :=
  other.items.foldlM (fun result e => do
    let (prev, next) := IntervalSet.neighbors cr.items e
    let nl := prev.toList ++ next.toList
    if nl = [] then result.insert e
    else nl.foldlM (fun result n => do
      match ← n.intersection e with
      | none => return result
      | some overlap => result.insert overlap) result) {}

def addInt (cr : ChoppyRange) (n step : ℤ) : Except RangeError ChoppyRange :=
  let step := if step ≠ 0 then step else cr.step.getD 0
  cr.insert ⟨n, n, if step ≠ 0 then step else 1⟩

/-- The variables of the loop in `_group`. -/
structure Grouping where
  cr : ChoppyRange
  low : Option ℤ := none
  high : Option ℤ := none
  old : Option ℤ := none

def insertGroup (cr : ChoppyRange) (low high : Option ℤ) (step : ℤ) : Except RangeError ChoppyRange :=
  match low, high with
  | some low, some high => cr.insert ⟨low, high, step⟩
  | _, _ => .error .notThreeIntegers

def groupStep (step : ℤ) (s : Grouping) (v : ℤ × ℕ) : Except RangeError Grouping := do
  let indicator := step * v.2 - v.1
  if s.old ≠ some indicator then
    -- `if low:` is not taken for 0 either
    let cr ← (if s.low.getD 0 ≠ 0 then insertGroup s.cr s.low s.high step else return s.cr)
    return { cr := cr, low := some v.1, high := some v.1, old := some indicator }
  else return { s with low := some (s.low.getD v.1), high := some v.1 }

def group (cr : ChoppyRange) (lst : List ℤ) (step : ℤ) : Except RangeError ChoppyRange := do
  let s ← lst.zipIdx.foldlM (groupStep step) { cr := cr }
  insertGroup s.cr s.low s.high step

/-- `_add_list`, of a list of integers. -/
def addList (cr : ChoppyRange) (lst : List ℤ) (step : ℤ) : Except RangeError ChoppyRange :=
  match lst with
  | [] => .ok cr
  | n :: rest =>
    if step ≠ 0 then cr.group lst step
    else
      match rest with
      | [] => cr.addInt n step
      | m :: _ => cr.insert ⟨n, lst.getLastD n, m - n⟩

/-- `values`. -/
def values (cr : ChoppyRange) : List ℤ := cr.items.flatMap RangeTuple.values

def chopup (cr : ChoppyRange) (chunkSize : ℤ) : Except RangeError (List RangeTuple) :=
  return (← cr.items.mapM (·.chopChunks chunkSize)).flatten

def expandElemLst (e : RangeTuple) (lst : List RangeTuple) : Except RangeError (List RangeTuple) := do
  match lst.getLast? with
  | none => return [e]
  | some l =>
    if ← e.isAdjacent l then return lst.dropLast ++ (e.join l).take 1
    else return lst ++ [e]

def fillStep (chunkSize : ℤ) (s : List (List RangeTuple) × List RangeTuple × ℤ) (e : RangeTuple) :
    Except RangeError (List (List RangeTuple) × List RangeTuple × ℤ) := do
  let (yielded, fillL, cklen) := s
  let elemlen ← e.count
  if cklen + elemlen < chunkSize then
    return (yielded, ← expandElemLst e fillL, cklen + elemlen)
  if cklen + elemlen = chunkSize then
    return (yielded ++ [← expandElemLst e fillL], [], 0)
  return (if fillL = [] then yielded else yielded ++ [fillL], [e], elemlen)

def chopFillUp (cr : ChoppyRange) (chunkSize : ℤ) : Except RangeError (List (List RangeTuple)) := do
  let (yielded, fillL, _) ← (← cr.chopup chunkSize).foldlM (fillStep chunkSize) ([], [], 0)
  return if fillL = [] then yielded else yielded ++ [fillL]

end ChoppyRange

/-! ## Port ranges -/

inductive PortValue where
  | int (n : ℤ)
  | text (n : ℤ)
  deriving Repr, DecidableEq

def PortValue.value : PortValue → ℤ
  | .int n => n
  | .text n => n

structure PortRange where
  begin : PortValue
  stop : PortValue
  deriving Repr, DecidableEq

namespace PortRangeUtility

def toChoppyRangeTuple (r : PortRange) : RangeTuple :=
  let b := match r.begin with | .int n => n | .text n => n
  let e := match r.stop with | .int n => n | .text _ => b
  ⟨e, e, 1⟩

def toChoppyRange (l : List PortRange) : Except RangeError ChoppyRange :=
  l.foldlM (fun cr r => cr.insert (toChoppyRangeTuple r)) {}

def toTupleList (cr : ChoppyRange) : List (ℤ × ℤ) :=
  cr.items.map (fun t => (t.start, t.stop))

def tupleToPortRangeList (l : List (ℤ × ℤ)) : List PortRange :=
  l.map (fun t => ⟨.int t.1, .int t.2⟩)

/-- `subtract`, on the pairs a slave keeps. -/
def subtract (ports : List (ℤ × ℤ)) (l : List PortRange) : Except RangeError (List (ℤ × ℤ)) := do
  let cr ← toChoppyRange (tupleToPortRangeList ports)
  let cr ← l.foldlM (fun cr r => cr.remove (toChoppyRangeTuple r)) cr
  return toTupleList cr

/-- `add`, on the pairs a slave keeps. -/
def add (ports : List (ℤ × ℤ)) (l : List PortRange) : Except RangeError (List (ℤ × ℤ)) := do
  let cr ← toChoppyRange (tupleToPortRangeList ports)
  let cr ← l.foldlM (fun cr r => cr.insert (toChoppyRangeTuple r)) { cr with ignoreOverlaps := true }
  return toTupleList cr

def toPortRangeList (cr : ChoppyRange) : List PortRange :=
  cr.items.map (fun t => ⟨.int t.start, .int t.stop⟩)

def portRangeToTupleList (l : List PortRange) : List (ℤ × ℤ) :=
  l.map (fun r => (r.begin.value, r.stop.value))

def subtractRanges (l₁ l₂ : List PortRange) : Except RangeError (List PortRange) := do
  let cr ← toChoppyRange l₁
  let cr ← l₂.foldlM (fun cr r => cr.remove (toChoppyRangeTuple r)) cr
  return toPortRangeList cr

def addRanges (l₁ l₂ : List PortRange) : Except RangeError (List PortRange) := do
  let cr ← toChoppyRange l₁
  let cr ← l₂.foldlM (fun cr r => cr.insert (toChoppyRangeTuple r)) { cr with ignoreOverlaps := true }
  return toPortRangeList cr

end PortRangeUtility

end Urb
