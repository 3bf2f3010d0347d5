/-
# `Urb.Basis.Exec` — statement blocks that may return or raise, loops, and runs

A block of imperative code is a function from the state to the state it
leaves and the WAY it ends (`Ending`): it falls through, it returns from the
enclosing function, or it raises.  The state is kept in all three cases: an
exception does not undo the assignments made before it.

    seq p q          `p`, then `q` if `p` fell through
    forEach body l   the `for` loop over `l`; `continue` is falling through,
                     `return` and an exception leave the loop

**The rules.**

    forEach_inv      a state property kept by every iteration is kept by the loop
    forEach_rest     the same for a property that may speak about the items still to come
    forEach_iff      exactly which iterations keep it
    forEach_spend    a property of a budget, from which every iteration spends
    forEach_rel      two loops in step

The second half is the run of a step function over a list of events.  A run is
`Guarded` by `G` when each of its steps meets `G`; what guarded steps keep, guarded runs
keep (`Machine.run_inv`), and a guard that says exactly which steps keep a property says
exactly in which runs it always holds (`Machine.prefixes_iff`).  `Fallible` has the same for a
loop that ends with the first error.
-/
import Mathlib.Algebra.Order.BigOperators.Group.List
import Mathlib.Algebra.Order.Group.Unbundled.Basic

/-- How a block of statements ends. -/
inductive Ending where
  | next
  | ret
  | raise
  deriving Repr, DecidableEq

abbrev Block (σ : Type) := σ → σ × Ending

namespace Block

open List

variable {σ α : Type}

def seq (p q : Block σ) : Block σ :=
  fun s => if (p s).2 = .next then q (p s).1 else p s

def forEach (body : α → Block σ) : List α → Block σ
  | [] => fun s => (s, .next)
  | a :: l => seq (body a) (forEach body l)

variable {p q : Block σ} {body : α → Block σ} {s : σ}

lemma seq_of_next (h : (p s).2 = .next) : seq p q s = q (p s).1 :=
  if_pos h

lemma seq_of_ne (h : (p s).2 ≠ .next) : seq p q s = p s :=
  if_neg h

lemma seq_inv {I : σ → Prop} (hp : I (p s).1) (hq : I (p s).1 → I (q (p s).1).1) : I (seq p q s).1 := by
  by_cases h : (p s).2 = .next
  · rw [seq_of_next h]
    exact hq hp
  · rw [seq_of_ne h]
    exact hp

lemma seq_next_iff : (seq p q s).2 = .next ↔ (p s).2 = .next ∧ (q (p s).1).2 = .next := by
  by_cases h : (p s).2 = .next
  · rw [seq_of_next h]
    exact ⟨fun hq => ⟨h, hq⟩, fun hq => hq.2⟩
  · rw [seq_of_ne h]
    exact ⟨fun hp => absurd hp h, fun hp => hp.1⟩

@[simp] lemma forEach_nil : forEach body [] s = (s, .next) := rfl

lemma forEach_cons (a : α) (l : List α) : forEach body (a :: l) = seq (body a) (forEach body l) := rfl

lemma forEach_inv {I : σ → Prop} :
    ∀ {l : List α} {s : σ}, (∀ a ∈ l, ∀ s, I s → I (body a s).1) → I s → I (forEach body l s).1
  | [], _, _, hs => hs
  | a :: l, s, h, hs => by
    refine seq_inv (h a mem_cons_self s hs) fun ha => ?_
    exact forEach_inv (fun b hb => h b (mem_cons_of_mem _ hb)) ha

lemma forEach_rest {I : List α → σ → Prop} {Q : σ → Prop}
    (step : ∀ a rest s, I (a :: rest) s → (body a s).2 = .next → I rest (body a s).1)
    (stop : ∀ a rest s, I (a :: rest) s → (body a s).2 ≠ .next → Q (body a s).1)
    (done : ∀ s, I [] s → Q s) : ∀ {l : List α} {s : σ}, I l s → Q (forEach body l s).1
  | [], s, hs => done s hs
  | a :: l, s, hs => by
    by_cases h : (body a s).2 = .next
    · rw [forEach_cons, seq_of_next h]
      exact forEach_rest step stop done (step a l s hs h)
    · rw [forEach_cons, seq_of_ne h]
      exact stop a l s hs h

def Along (G : σ → α → Prop) (body : α → Block σ) : List α → σ → Prop
  | [], _ => True
  | a :: l, s => G s a ∧ ((body a s).2 = .next → Along G body l (body a s).1)

lemma forEach_inv_along {I : σ → Prop} {G : σ → α → Prop} (step : ∀ a s, G s a → I s → I (body a s).1) :
    ∀ {l : List α} {s : σ}, Along G body l s → I s → I (forEach body l s).1
  | [], _, _, hs => hs
  | a :: l, s, h, hs => by
    have ha := step a s h.1 hs
    by_cases hnext : (body a s).2 = .next
    · rw [forEach_cons, seq_of_next hnext]
      exact forEach_inv_along step (h.2 hnext) ha
    · rw [forEach_cons, seq_of_ne hnext]
      exact ha

lemma forEach_spend {M : Type} [AddCommGroup M] [PartialOrder M] [IsOrderedAddMonoid M]
    {C : M → σ → Prop} {cost : α → M} (less : ∀ {m m' : M} {s : σ}, m' ≤ m → C m s → C m' s)
    {l : List α} (nonneg : ∀ a ∈ l, 0 ≤ cost a)
    (step : ∀ a ∈ l, ∀ m s, C m s → C (m - cost a) (body a s).1) {m : M} (h : C m s) :
    C (m - (l.map cost).sum) (forEach body l s).1 := by
  induction l generalizing m s with
  | nil =>
    rw [map_nil, sum_nil, sub_zero]
    exact h
  | cons a l ih =>
    have hrest : ∀ b ∈ l, 0 ≤ cost b := fun b hb => nonneg b (mem_cons_of_mem a hb)
    have ha := step a mem_cons_self m s h
    rw [map_cons, sum_cons, ← sub_sub, forEach_cons]
    by_cases hnext : (body a s).2 = .next
    · rw [seq_of_next hnext]
      exact ih hrest (fun b hb => step b (mem_cons_of_mem a hb)) ha
    · rw [seq_of_ne hnext]
      refine less (sub_le_self _ (sum_nonneg fun x hx => ?_)) ha
      obtain ⟨b, hb, rfl⟩ := mem_map.mp hx
      exact hrest b hb

lemma forEach_iff {Q : σ → Prop} {G : σ → α → Prop} (lost : ∀ a s, ¬ Q s → ¬ Q (body a s).1)
    (exact_step : ∀ a s, Q s → (Q (body a s).1 ↔ G s a)) :
    ∀ (l : List α) (s : σ), Q s → (Q (forEach body l s).1 ↔ Along G body l s)
  | [], _, hq => iff_of_true hq trivial
  | a :: l, s, hq => by
    have hone := exact_step a s hq
    by_cases hnext : (body a s).2 = .next
    · rw [forEach_cons, seq_of_next hnext]
      by_cases hq' : Q (body a s).1
      · rw [forEach_iff lost exact_step l _ hq']
        exact ⟨fun h => ⟨hone.mp hq', fun _ => h⟩, fun h => h.2 hnext⟩
      · refine iff_of_false ?_ fun h => hq' (hone.mpr h.1)
        exact forEach_inv (I := fun s => ¬ Q s) (fun a _ s hs => lost a s hs) hq'
    · rw [forEach_cons, seq_of_ne hnext, hone]
      exact ⟨fun h => ⟨h, fun h' => absurd h' hnext⟩, fun h => h.1⟩

lemma forEach_congr {G : σ → α → Prop} {body' : α → Block σ} (h : ∀ a s, G s a → body' a s = body a s) :
    ∀ {l : List α} {s : σ}, Along G body l s → forEach body' l s = forEach body l s
  | [], _, _ => rfl
  | a :: l, s, hs => by
    rw [forEach_cons, forEach_cons, seq, seq, h a s hs.1]
    by_cases hnext : (body a s).2 = .next
    · rw [if_pos hnext, if_pos hnext, forEach_congr h (hs.2 hnext)]
    · rw [if_neg hnext, if_neg hnext]

lemma forEach_rel {τ : Type} {R : σ → τ → Prop} {body' : α → Block τ} :
    ∀ {l : List α} {s : σ} {t : τ}, (∀ a ∈ l, ∀ s t, R s t → (body' a t).2 = (body a s).2 ∧
      R (body a s).1 (body' a t).1) → R s t → R (forEach body l s).1 (forEach body' l t).1
  | [], _, _, _, hr => hr
  | a :: l, s, t, h, hr => by
    obtain ⟨hflow, hr'⟩ := h a mem_cons_self s t hr
    rw [forEach_cons, forEach_cons, seq, seq, hflow]
    by_cases hnext : (body a s).2 = .next
    · rw [if_pos hnext, if_pos hnext]
      exact forEach_rel (fun b hb => h b (mem_cons_of_mem _ hb)) hr'
    · rw [if_neg hnext, if_neg hnext]
      exact hr'

lemma forEach_map {β : Type} (f : β → α) :
    ∀ l : List β, forEach body (l.map f) = forEach (fun b => body (f b)) l
  | [] => rfl
  | b :: l => by rw [map_cons, forEach_cons, forEach_cons, forEach_map f l]

end Block

/-! ## Runs -/

namespace Machine

variable {σ ε : Type}

def run (step : σ → ε → σ) (s : σ) (es : List ε) : σ := es.foldl step s

/-- Every step of the run of `es` from `s` meets `G`. -/
def Guarded (step : σ → ε → σ) (G : σ → ε → Prop) : σ → List ε → Prop
  | _, [] => True
  | s, e :: es => G s e ∧ Guarded step G (step s e) es

variable {step : σ → ε → σ} {G : σ → ε → Prop}

@[simp] lemma run_nil (s : σ) : run step s [] = s := rfl

@[simp] lemma run_cons (s : σ) (e : ε) (es : List ε) :
    run step s (e :: es) = run step (step s e) es := rfl

lemma run_append (s : σ) (es fs : List ε) : run step s (es ++ fs) = run step (run step s es) fs :=
  List.foldl_append

lemma run_inv {I : σ → Prop} (h : ∀ s e, I s → G s e → I (step s e)) :
    ∀ {es : List ε} {s : σ}, I s → Guarded step G s es → I (run step s es)
  | [], _, hs, _ => hs
  | e :: es, s, hs, hg => by
    rw [run_cons]
    exact run_inv h (h s e hs hg.1) hg.2

lemma run_simulates {τ δ : Type} {step' : τ → δ → τ} {P : δ → Prop} {f : σ → τ}
    (h : ∀ s e, ∃ ds, (∀ d ∈ ds, P d) ∧ run step' (f s) ds = f (step s e)) :
    ∀ (es : List ε) (s : σ), ∃ ds, (∀ d ∈ ds, P d) ∧ run step' (f s) ds = f (run step s es)
  | [], s => ⟨[], fun _ hd => absurd hd List.not_mem_nil, rfl⟩
  | e :: es, s => by
    obtain ⟨ds, hds, hfirst⟩ := h s e
    obtain ⟨ds', hds', hrest⟩ := run_simulates h es (step s e)
    refine ⟨ds ++ ds', fun d hd => (List.mem_append.mp hd).elim (hds d) (hds' d), ?_⟩
    rw [run_append, hfirst, hrest, run_cons]

instance instDecidableGuarded [∀ s e, Decidable (G s e)] :
    ∀ (s : σ) (es : List ε), Decidable (Guarded step G s es)
  | _, [] => isTrue trivial
  | s, e :: es =>
    have := instDecidableGuarded (step s e) es
    inferInstanceAs (Decidable (_ ∧ _))

lemma guarded_append {s : σ} {es fs : List ε} :
    Guarded step G s (es ++ fs) ↔ Guarded step G s es ∧ Guarded step G (run step s es) fs := by
  induction es generalizing s with
  | nil => simp [Guarded]
  | cons e es ih => simp [Guarded, ih, and_assoc]

lemma guarded_of_forall (h : ∀ s e, G s e) : ∀ (s : σ) (es : List ε), Guarded step G s es
  | _, [] => trivial
  | s, e :: es => ⟨h s e, guarded_of_forall h (step s e) es⟩

/-- **Exact guards.**  When a step keeps `Q` exactly if it meets `G`, all states of a run have `Q`
exactly if the run is guarded by `G`.  `I` is an invariant, and `P` what the steps are known to meet. -/
lemma prefixes_iff {I Q : σ → Prop} {P : σ → ε → Prop} (keep : ∀ s e, I s → Q s → P s e → I (step s e))
    (exact_step : ∀ s e, I s → Q s → P s e → (Q (step s e) ↔ G s e)) :
    ∀ {es : List ε} {s : σ}, I s → Q s → Guarded step P s es →
      ((∀ fs, fs <+: es → Q (run step s fs)) ↔ Guarded step G s es)
  | [], s, _, hq, _ =>
    iff_of_true (fun fs hfs => by rw [List.prefix_nil.mp hfs]; exact hq) trivial
  | e :: es, s, hi, hq, hp => by
    have hone := exact_step s e hi hq hp.1
    have hrec := fun hq' =>
      prefixes_iff keep exact_step (keep s e hi hq hp.1) hq' hp.2
    constructor
    · intro hall
      have hq' : Q (step s e) := hall [e] (List.cons_prefix_cons.mpr ⟨rfl, List.nil_prefix⟩)
      refine ⟨hone.mp hq', (hrec hq').mp fun fs hfs => ?_⟩
      exact hall (e :: fs) (List.cons_prefix_cons.mpr ⟨rfl, hfs⟩)
    · rintro ⟨hg, hrest⟩ fs hfs
      cases fs with
      | nil => exact hq
      | cons f fs =>
        obtain ⟨rfl, hfs'⟩ := List.cons_prefix_cons.mp hfs
        exact (hrec (hone.mpr hg)).mpr hrest fs hfs'

lemma run_iff {Q : σ → Prop} (lost : ∀ s e, ¬ Q s → ¬ Q (step s e))
    (exact_step : ∀ s e, Q s → (Q (step s e) ↔ G s e)) :
    ∀ {es : List ε} {s : σ}, Q s → (Q (run step s es) ↔ Guarded step G s es)
  | [], _, hq => iff_of_true hq trivial
  | e :: es, s, hq => by
    rw [run_cons]
    by_cases hq' : Q (step s e)
    · rw [run_iff lost exact_step hq']
      exact ⟨fun h => ⟨(exact_step s e hq).mp hq', h⟩, fun h => h.2⟩
    · refine iff_of_false ?_ fun h => hq' ((exact_step s e hq).mpr h.1)
      exact run_inv (I := fun s => ¬ Q s) (G := fun _ _ => True) (fun s e hs _ => lost s e hs) hq'
        (guarded_of_forall (fun _ _ => trivial) _ es)

lemma guarded_and {H : σ → ε → Prop} {es : List ε} {s : σ} (hg : Guarded step G s es)
    (hh : Guarded step H s es) : Guarded step (fun s e => G s e ∧ H s e) s es := by
  induction es generalizing s with
  | nil => trivial
  | cons e es ih => exact ⟨⟨hg.1, hh.1⟩, ih hg.2 hh.2⟩

end Machine

/-! ## Loops that may fail -/

namespace Fallible

variable {ε α β : Type}

/-- Every step of `as.foldlM f b` that is come to meets `G`. -/
def Guarded (f : β → α → Except ε β) (G : β → α → Prop) : β → List α → Prop
  | _, [] => True
  | b, a :: as => G b a ∧ ∀ b', f b a = .ok b' → Guarded f G b' as

variable {f : β → α → Except ε β} {G : β → α → Prop} {R : β → List α → β → Prop} {I : β → Prop}
  {P : α → Prop}

lemma inv : ∀ {as : List α} {b c : β}, (∀ a ∈ as, ∀ b c, f b a = .ok c → I b → I c) → I b →
    as.foldlM f b = .ok c → I c
  | [], _, _, _, hb, hc => Except.ok.inj hc ▸ hb
  | a :: as, b, c, h, hb, hc => by
    rw [List.foldlM_cons] at hc
    cases hone : f b a with
    | error e =>
      rw [hone] at hc
      cases hc
    | ok b' =>
      rw [hone] at hc
      exact inv (fun a' ha' => h a' (List.mem_cons_of_mem _ ha')) (h a List.mem_cons_self b b' hone hb) hc

/-- **Exact guards of a loop.**  `R b as c` says that `c` is what `as` should make of `b`.  When a step
is right exactly if it meets `G`, all beginnings of the loop are right exactly if it is guarded. -/
lemma prefixes_iff (nil : ∀ b, I b → R b [] b)
    (exact_step : ∀ b a, I b → P a → ((∃ c, f b a = .ok c ∧ R b [a] c) ↔ G b a))
    (keep : ∀ {b a c}, R b [a] c → I c)
    (cons : ∀ {b a c}, R b [a] c → ∀ as c', R c as c' ↔ R b (a :: as) c') :
    ∀ {as : List α} {b : β}, I b → (∀ a ∈ as, P a) →
      ((∀ es, es <+: as → ∃ c, es.foldlM f b = .ok c ∧ R b es c) ↔ Guarded f G b as)
  | [], b, hi, _ => by
    refine iff_of_true (fun es hes => ?_) trivial
    rw [List.prefix_nil.mp hes]
    exact ⟨b, rfl, nil b hi⟩
  | a :: as, b, hi, hp => by
    obtain ⟨ha, has⟩ := List.forall_mem_cons.mp hp
    have hfold : ∀ {c}, f b a = .ok c → ∀ es, (a :: es).foldlM f b = es.foldlM f c := fun hc es => by
      rw [List.foldlM_cons, hc]
      rfl
    constructor
    · intro hall
      obtain ⟨c, hc, hr⟩ := hall [a] (List.cons_prefix_cons.mpr ⟨rfl, List.nil_prefix⟩)
      have hc : f b a = .ok c := (bind_pure (f b a)).symm.trans hc
      refine ⟨(exact_step b a hi ha).mp ⟨c, hc, hr⟩, fun c' hc' => ?_⟩
      obtain rfl := Except.ok.inj (hc.symm.trans hc')
      refine (prefixes_iff nil exact_step keep cons (keep hr) has).mp fun es hes => ?_
      obtain ⟨c', hc', hr'⟩ := hall (a :: es) (List.cons_prefix_cons.mpr ⟨rfl, hes⟩)
      exact ⟨c', (hfold hc es).symm.trans hc', (cons hr es c').mpr hr'⟩
    · rintro ⟨hg, hrest⟩ es hes
      obtain ⟨c, hc, hr⟩ := (exact_step b a hi ha).mpr hg
      cases es with
      | nil => exact ⟨b, rfl, nil b hi⟩
      | cons e es =>
        obtain ⟨rfl, hes'⟩ := List.cons_prefix_cons.mp hes
        obtain ⟨c', hc', hr'⟩ := (prefixes_iff nil exact_step keep cons (keep hr) has).mpr (hrest c hc) es hes'
        exact ⟨c', (hfold hc es).trans hc', (cons hr es c').mp hr'⟩

end Fallible
