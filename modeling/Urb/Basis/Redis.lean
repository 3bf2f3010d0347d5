/-
# `Urb.Basis.Redis` — the meaning of some Redis commands

Each command is one atomic step of the server.

**Lists.**  The head of a Lean list is the LEFT end of the Redis list.

    LPUSH       lpush        a value is put in at the left end
    RPUSH       rpush        a value is put in at the right end
    RPOPLPUSH   rpoplpush    from the right end of one list to the left end of another
    LREM 0      lrem         all values equal to the given one go

A list may hold more than Redis sees, so that copies of one text can be told
apart; `lrem` compares by a function to what Redis does see.

**Keys.**  A key has a value and may run out; it is gone from that time on.

    GET         get
    SET NX EX   setNxEx      sets the key, with a time to live, unless it is there
    EXPIRE      expire       gives a key that is there another time to live; none is left
                             of it when that is not positive
                elapse       the passing of time

**Sorted sets.**  The members are pairwise different values, each with a score.

    ZADD               zadd               adds a member or gives it another score
    ZRANGEBYSCORE      zrangebyscore      the members in a range of scores, by score
    ZREMRANGEBYSCORE   zremrangebyscore   removes the members in a range of scores

Redis orders members with one score by their texts; here they stand in the order
in which they were added.
-/
import Mathlib.Algebra.Order.Ring.Rat
import Mathlib.Data.List.Basic

namespace Redis

open List

variable {α β τ : Type}

/-! ## Lists -/

def lpush (x : α) (l : List α) : List α := x :: l

def rpush (x : α) (l : List α) : List α := l ++ [x]

def rpoplpush (src dst : List α) : Option (α × List α × List α) :=
  src.getLast?.map (fun x => (x, src.dropLast, lpush x dst))

def lrem [DecidableEq τ] (value : α → τ) (x : τ) (l : List α) : List α := l.filter (value · ≠ x)

@[simp] lemma rpoplpush_concat (src dst : List α) (x : α) :
    rpoplpush (src ++ [x]) dst = some (x, src, x :: dst) := by
  simp [rpoplpush, lpush]

lemma mem_lrem [DecidableEq τ] {value : α → τ} {x : τ} {l : List α} {a : α} :
    a ∈ lrem value x l ↔ a ∈ l ∧ value a ≠ x := by
  simp [lrem]

/-! ## Keys with a time to live -/

abbrev Key (α : Type) := Option (α × ℚ)

def get (key : Key α) : Option α := key.map (·.1)

def setNxEx (value : α) (ttl now : ℚ) (key : Key α) : Bool × Key α :=
  match key with
  | none => (true, some (value, now + ttl))
  | some e => (false, some e)

def expire (ttl now : ℚ) (key : Key α) : Key α :=
  if ttl ≤ 0 then none else key.map (fun e => (e.1, now + ttl))

def elapse (now : ℚ) (key : Key α) : Key α := key.filter (fun e => now < e.2)

lemma get_expire_of_pos {ttl : ℚ} (h : 0 < ttl) (now : ℚ) (key : Key α) :
    get (expire ttl now key) = get key := by
  rw [expire, if_neg (not_le.mpr h), get, Option.map_map]
  rfl

/-! ## Sorted sets -/

abbrev ZSet (α : Type) := List (α × ℤ)

def inRange (lo hi : ℤ) (e : α × ℤ) : Bool := lo ≤ e.2 && e.2 ≤ hi

def zadd [DecidableEq τ] (value : α → τ) (score : ℤ) (x : α) (z : ZSet α) : ZSet α :=
  z.filter (fun e => value e.1 ≠ value x) ++ [(x, score)]

def zrangebyscore (lo hi : ℤ) (z : ZSet α) : List α :=
  ((z.filter (inRange lo hi)).mergeSort (fun a b => a.2 ≤ b.2)).map (·.1)

def zremrangebyscore (lo hi : ℤ) (z : ZSet α) : ZSet α := z.filter (fun e => !inRange lo hi e)

lemma zadd_of_new [DecidableEq τ] {value : α → τ} {x : α} {z : ZSet α}
    (h : ∀ e ∈ z, value e.1 ≠ value x) (score : ℤ) : zadd value score x z = z ++ [(x, score)] := by
  rw [zadd, filter_eq_self.mpr fun e he => decide_eq_true (h e he)]

lemma zrangebyscore_perm (lo hi : ℤ) (z : ZSet α) :
    (zrangebyscore lo hi z).Perm ((z.filter (inRange lo hi)).map (·.1)) :=
  (mergeSort_perm _ _).map _

lemma filter_inRange_zadd [DecidableEq τ] {value : α → τ} {x : α} {z : ZSet α}
    (h : ∀ e ∈ z, value e.1 ≠ value x) {score lo hi : ℤ} (hout : inRange lo hi (x, score) = false) :
    (zadd value score x z).filter (inRange lo hi) = z.filter (inRange lo hi) := by
  rw [zadd_of_new h, filter_append]
  simp [hout]

end Redis
