import Mathlib.Data.List.Nodup

/-!
# Runs of a deterministic step function

A system is a step function on states; what the environment decides (which
input comes next, how an outside call ends) is the label of the step. A run is
the fold of the step function over its labels, so "every run" is a quantifier
over label lists and "every reachable state" is one over their prefixes.
-/

namespace Sleepytale.Lib.Machine

variable {σ ε : Type*} (step : σ → ε → σ)

/-- The state after the labels `es`, oldest first. -/
def run (s : σ) (es : List ε) : σ := es.foldl step s

@[simp] theorem run_nil (s : σ) : run step s [] = s := rfl

@[simp] theorem run_cons (s : σ) (e : ε) (es : List ε) :
    run step s (e :: es) = run step (step s e) es := rfl

theorem run_append (s : σ) (es fs : List ε) :
    run step s (es ++ fs) = run step (run step s es) fs := by
  simp only [run, List.foldl_append]

theorem run_snoc (s : σ) (es : List ε) (e : ε) :
    run step s (es ++ [e]) = step (run step s es) e := by
  rw [run_append, run_cons, run_nil]

/-- Every step of the run meets `C`, a condition on the state before the step
and the label of the step. -/
def AllSteps (C : σ → ε → Prop) : σ → List ε → Prop
  | _, [] => True
  | s, e :: es => C s e ∧ AllSteps C (step s e) es

theorem allSteps_append (C : σ → ε → Prop) (s : σ) (es fs : List ε) :
    AllSteps step C s (es ++ fs) ↔
      AllSteps step C s es ∧ AllSteps step C (run step s es) fs := by
  induction es generalizing s with
  | nil => simp [AllSteps]
  | cons e es ih =>
    simp only [List.cons_append, AllSteps, run_cons, ih, and_assoc]

theorem allSteps_snoc (C : σ → ε → Prop) (s : σ) (es : List ε) (e : ε) :
    AllSteps step C s (es ++ [e]) ↔ AllSteps step C s es ∧ C (run step s es) e := by
  rw [allSteps_append]
  simp [AllSteps]

variable {step}

/-- A condition that every reachable state meets is met along every run. -/
theorem allSteps_of_forall {C : σ → ε → Prop} {s : σ} (h : ∀ es e, C (run step s es) e)
    (es : List ε) : AllSteps step C s es := by
  induction es generalizing s with
  | nil => trivial
  | cons e es ih => exact ⟨h [] e, ih fun fs => h (e :: fs)⟩

/-- The invariant rule for runs whose steps all meet a condition. -/
theorem run_invariant_of (Inv : σ → Prop) {C : σ → ε → Prop}
    (hstep : ∀ s e, Inv s → C s e → Inv (step s e)) {s : σ} (hs : Inv s)
    {es : List ε} (hc : AllSteps step C s es) : Inv (run step s es) := by
  induction es generalizing s with
  | nil => exact hs
  | cons e es ih => exact ih (hstep s e hs hc.1) hc.2

/-- The invariant rule: initially and preserved, hence after every run. -/
theorem run_invariant (Inv : σ → Prop) (hstep : ∀ s e, Inv s → Inv (step s e))
    {s : σ} (hs : Inv s) (es : List ε) : Inv (run step s es) := by
  induction es generalizing s with
  | nil => exact hs
  | cons e es ih => exact ih (hstep s e hs)

/-- The invariant rule where a step may use that the state before it is reached
by a run, and with it whatever is known of runs. -/
theorem run_induction_on (Inv : σ → Prop) {s : σ} (hs : Inv s)
    (hstep : ∀ es e, Inv (run step s es) → Inv (step (run step s es) e)) (es : List ε) :
    Inv (run step s es) := by
  refine (run_invariant (fun t => Inv t ∧ ∃ es, t = run step s es) ?_ ⟨hs, [], rfl⟩ es).1
  rintro t e ⟨ht, es, rfl⟩
  exact ⟨hstep es e ht, es ++ [e], (run_snoc step s es e).symm⟩

/-- The same for runs whose steps all meet a condition. -/
theorem run_induction_of (Inv : σ → Prop) {C : σ → ε → Prop} {s : σ} (hs : Inv s)
    (hstep : ∀ es e, Inv (run step s es) → C (run step s es) e → Inv (step (run step s es) e))
    {es : List ε} (hc : AllSteps step C s es) : Inv (run step s es) := by
  refine (run_invariant_of (fun t => Inv t ∧ ∃ es, t = run step s es) ?_ ⟨hs, [], rfl⟩ hc).1
  rintro t e ⟨ht, es, rfl⟩ hce
  exact ⟨hstep es e ht hce, es ++ [e], (run_snoc step s es e).symm⟩

/-- Two runs over the same labels, from states that a relation relates. -/
theorem run_related {τ : Type*} {step' : τ → ε → τ} (R : σ → τ → Prop) {es : List ε}
    (hstep : ∀ s t e, e ∈ es → R s t → R (step s e) (step' t e)) {s : σ} {t : τ} (h : R s t) :
    R (run step s es) (run step' t es) := by
  induction es generalizing s t with
  | nil => exact h
  | cons e es ih =>
    apply ih
    · intro s t e' he' hr
      exact hstep s t e' (List.mem_cons_of_mem _ he') hr
    · exact hstep s t e List.mem_cons_self h

/-- Where a step of a run keeps `P` if it meets `C` and breaks `P` if it does
not: `P` holds all along a run exactly if every step of it meets `C`. -/
theorem forall_prefix_iff_allSteps (P : σ → Prop) {C : σ → ε → Prop} {s : σ} (hp : P s)
    (hkeep : ∀ es e, P (run step s es) → C (run step s es) e → P (step (run step s es) e))
    (hbreak : ∀ es e, ¬ C (run step s es) e → ¬ P (step (run step s es) e)) (es : List ε) :
    (∀ before, before <+: es → P (run step s before)) ↔ AllSteps step C s es := by
  induction es generalizing s with
  | nil =>
    refine ⟨fun _ => trivial, fun _ before hb => ?_⟩
    rw [List.prefix_nil.mp hb]
    exact hp
  | cons e es ih =>
    have hrest := fun hc : C s e => ih (hkeep [] e hp hc) (fun es => hkeep (e :: es))
      (fun es => hbreak (e :: es))
    constructor
    · intro h
      have hc : C s e := by
        by_contra hc
        exact hbreak [] e hc (h [e] (by simp))
      refine ⟨hc, (hrest hc).mp fun before hb => ?_⟩
      exact h (e :: before) (List.cons_prefix_cons.mpr ⟨rfl, hb⟩)
    · rintro ⟨hc, hall⟩ before hb
      cases before with
      | nil => exact hp
      | cons e' before =>
        obtain ⟨rfl, htail⟩ := List.cons_prefix_cons.mp hb
        exact (hrest hc).mpr hall before htail

/-- The run of `es` from `s` comes to the state `t` and takes the step `e` there. -/
def Passes (step : σ → ε → σ) (s : σ) (es : List ε) (t : σ) (e : ε) : Prop :=
  ∃ before later, es = before ++ e :: later ∧ t = run step s before

theorem Passes.mem {s t : σ} {es : List ε} {e : ε} (h : Passes step s es t e) : e ∈ es := by
  obtain ⟨before, later, rfl, _⟩ := h
  exact List.mem_append_right before List.mem_cons_self

theorem Passes.cons {s t : σ} {es : List ε} {e first : ε}
    (h : Passes step (step s first) es t e) : Passes step s (first :: es) t e := by
  obtain ⟨before, later, rfl, ht⟩ := h
  exact ⟨first :: before, later, rfl, ht⟩

theorem passes_cons {s : σ} {es : List ε} {e : ε} : Passes step s (e :: es) s e :=
  ⟨[], es, rfl, rfl⟩

/-- The invariant rule where only the steps of the run have to keep it. -/
theorem run_invariant_passes (Inv : σ → Prop) {s : σ} {es : List ε}
    (hstep : ∀ t e, Passes step s es t e → Inv t → Inv (step t e)) (hs : Inv s) :
    Inv (run step s es) := by
  induction es generalizing s with
  | nil => exact hs
  | cons e es ih => exact ih (fun t e' h => hstep t e' h.cons) (hstep s e passes_cons hs)

/-- If a step of a run meets `Q` there is a first one that does. -/
theorem exists_first_pass {Q : σ → ε → Prop} {s : σ} {es : List ε}
    (h : ∃ t e, Passes step s es t e ∧ Q t e) :
    ∃ before e later, es = before ++ e :: later ∧ Q (run step s before) e ∧
      ∀ t e', Passes step s before t e' → ¬ Q t e' := by
  induction es generalizing s with
  | nil =>
    obtain ⟨t, e, hpass, _⟩ := h
    exact absurd hpass.mem List.not_mem_nil
  | cons first es ih =>
    by_cases hfirst : Q s first
    · refine ⟨[], first, es, rfl, hfirst, ?_⟩
      intro t e' hpass
      exact absurd hpass.mem List.not_mem_nil
    · obtain ⟨t, e, ⟨before, later, heq, ht⟩, hq⟩ := h
      cases before with
      | nil =>
        obtain ⟨rfl, rfl⟩ := List.cons.inj heq
        rw [ht] at hq
        exact absurd hq hfirst
      | cons first' before =>
        obtain ⟨rfl, htail⟩ := List.cons.inj heq
        obtain ⟨before', e', later', heq', hq', hnone⟩ := ih ⟨t, e, ⟨before, later, htail, ht⟩, hq⟩
        refine ⟨first :: before', e', later', by rw [heq']; rfl, hq', ?_⟩
        intro t' e'' hpass
        obtain ⟨pre, post, hpre, ht'⟩ := hpass
        cases pre with
        | nil =>
          obtain ⟨rfl, _⟩ := List.cons.inj hpre
          rw [ht']
          exact hfirst
        | cons first' pre =>
          obtain ⟨rfl, hrest⟩ := List.cons.inj hpre
          exact hnone t' e'' ⟨pre, post, hrest, ht'⟩

/-- Progress through stages: no step of the run falls back, and the step `key[i]`
leads from stage `i` to the next. Then a run that contains the steps of `key` in
order passes all stages, whatever else it contains. -/
theorem run_stages (At : Nat → σ → Prop) {key es : List ε} {s : σ}
    (hkeep : ∀ i t e, Passes step s es t e → At i t → At i (step t e))
    (hnext : ∀ i t e, Passes step s es t e → key[i]? = some e → At i t → At (i + 1) (step t e))
    (hfirst : At 0 s) (hsub : key.Sublist es) : At key.length (run step s es) := by
  have hfrom : ∀ (es : List ε) (i : Nat) (s : σ),
      (∀ i t e, Passes step s es t e → At i t → At i (step t e)) →
      (∀ i t e, Passes step s es t e → key[i]? = some e → At i t → At (i + 1) (step t e)) →
      i ≤ key.length → (key.drop i).Sublist es → At i s → At key.length (run step s es) := by
    intro es
    induction es with
    | nil =>
      intro i s _ _ hi hsub hat
      have hnil := List.length_eq_zero_iff.mpr (List.sublist_nil.mp hsub)
      rw [List.length_drop] at hnil
      have hlen : i = key.length := by omega
      exact hlen ▸ hat
    | cons e es ih =>
      intro i s hkeep hnext hi hsub hat
      have hkeep' := fun j t e' h => hkeep j t e' (Passes.cons h)
      have hnext' := fun j t e' h => hnext j t e' (Passes.cons h)
      rcases List.sublist_cons_iff.mp hsub with hlater | ⟨later, heq, hlater⟩
      · exact ih i _ hkeep' hnext' hi hlater (hkeep i s e passes_cons hat)
      · have hget : key[i]? = some e := by
          rw [← List.head?_drop, heq]
          rfl
        have hdrop : key.drop (i + 1) = later := by
          rw [← List.tail_drop, heq]
          rfl
        have hlt : i < key.length := (List.getElem?_eq_some_iff.mp hget).1
        exact ih (i + 1) _ hkeep' hnext' hlt (hdrop ▸ hlater) (hnext i s e passes_cons hget hat)
  exact hfrom es 0 s hkeep hnext (Nat.zero_le _) (by simpa using hsub) hfirst

end Sleepytale.Lib.Machine
