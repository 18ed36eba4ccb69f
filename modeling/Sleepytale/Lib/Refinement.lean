import Sleepytale.Lib.Machine

/-!
# Refinement of a specification by a machine

A specification is a labelled step relation on abstract states, each label
showing the outside some list of observations, possibly none. A machine refines
it through a function `abs` on its states when whatever one step of the machine
does is a path of the specification, and the observations the machine has
recorded grow by exactly those of the path. A monitor is an automaton over
observations; one that follows the specification accepts what the machine shows.
-/

namespace Sleepytale.Lib.Refinement

open Sleepytale.Lib.Machine

variable {α β ω : Type*}

/-- The labels `acts` lead from one abstract state to another. -/
inductive Path (Step : α → β → α → Prop) : α → List β → α → Prop where
  | nil (a : α) : Path Step a [] a
  | cons {a b c : α} {act : β} {acts : List β} (first : Step a act b)
      (rest : Path Step b acts c) : Path Step a (act :: acts) c

namespace Path

variable {Step : α → β → α → Prop} {a b c : α} {acts acts' : List β}

theorem append (h : Path Step a acts b) (h' : Path Step b acts' c) :
    Path Step a (acts ++ acts') c := by
  induction h with
  | nil => exact h'
  | cons first _ ih => exact .cons first (ih h')

/-- What holds at first and is kept by every step holds at the end of a path. -/
theorem invariant (h : Path Step a acts b) (Inv : α → Prop)
    (hstep : ∀ a act b, Inv a → Step a act b → Inv b) (ha : Inv a) : Inv b := by
  induction h with
  | nil => exact ha
  | cons first _ ih => exact ih (hstep _ _ _ ha first)

end Path

section Simulation

variable {σ ε : Type*} (Step : α → β → α → Prop) (shows : β → List ω) (abs : σ → α)
  (seen : σ → List ω)

/-- From `s` to `s'` the specification has a path that shows what `s'` has
recorded and `s` has not. -/
def Follows (s s' : σ) : Prop :=
  ∃ acts, Path Step (abs s) acts (abs s') ∧ seen s' = seen s ++ acts.flatMap shows

variable {Step shows abs seen}

namespace Follows

/-- Nothing the specification speaks of has changed. -/
theorem of_eq {s s' : σ} (habs : abs s' = abs s) (hseen : seen s' = seen s) :
    Follows Step shows abs seen s s' :=
  ⟨[], by rw [habs]; exact .nil _, by simp [hseen]⟩

theorem of_step {s s' : σ} {act : β} (hstep : Step (abs s) act (abs s'))
    (hseen : seen s' = seen s ++ shows act) : Follows Step shows abs seen s s' :=
  ⟨[act], .cons hstep (.nil _), by simp [hseen]⟩

theorem trans {s s' s'' : σ} (h : Follows Step shows abs seen s s')
    (h' : Follows Step shows abs seen s' s'') : Follows Step shows abs seen s s'' := by
  obtain ⟨acts, hpath, hseen⟩ := h
  obtain ⟨acts', hpath', hseen'⟩ := h'
  refine ⟨acts ++ acts', hpath.append hpath', ?_⟩
  rw [hseen', hseen, List.flatMap_append, List.append_assoc]

end Follows

/-- A machine whose every step follows the specification does so over whole runs. -/
theorem run_follows {step : σ → ε → σ} {s : σ}
    (hstep : ∀ es e, Follows Step shows abs seen (run step s es) (step (run step s es) e))
    (es : List ε) : Follows Step shows abs seen s (run step s es) :=
  run_induction_on (Follows Step shows abs seen s) (.of_eq rfl rfl)
    (fun es e h => h.trans (hstep es e)) es

end Simulation

section Monitor

variable {μ : Type*} (next : μ → ω → Option μ)

/-- The state of a monitor after some observations, if it accepts them. -/
def watch (m : μ) : List ω → Option μ
  | [] => some m
  | o :: rest => (next m o).bind fun m' => watch m' rest

@[simp] theorem watch_nil (m : μ) : watch next m [] = some m := rfl

theorem watch_append (m : μ) (os os' : List ω) :
    watch next m (os ++ os') = (watch next m os).bind fun m' => watch next m' os' := by
  induction os generalizing m with
  | nil => rfl
  | cons o os ih =>
    simp only [List.cons_append, watch]
    cases next m o with
    | none => rfl
    | some m' => exact ih m'

variable {next}

/-- A monitor that follows every step of the specification accepts every path. -/
theorem Path.watched {Step : α → β → α → Prop} {shows : β → List ω} {R : α → μ → Prop}
    (hstep : ∀ a act b m, Step a act b → R a m →
      ∃ m', watch next m (shows act) = some m' ∧ R b m')
    {a b : α} {acts : List β} (h : Path Step a acts b) {m : μ} (hr : R a m) :
    ∃ m', watch next m (acts.flatMap shows) = some m' ∧ R b m' := by
  induction h generalizing m with
  | nil => exact ⟨m, rfl, hr⟩
  | cons first _ ih =>
    obtain ⟨m₁, hm₁, hr₁⟩ := hstep _ _ _ m first hr
    obtain ⟨m₂, hm₂, hr₂⟩ := ih hr₁
    refine ⟨m₂, ?_, hr₂⟩
    rw [List.flatMap_cons, watch_append, hm₁]
    exact hm₂

end Monitor

end Sleepytale.Lib.Refinement
