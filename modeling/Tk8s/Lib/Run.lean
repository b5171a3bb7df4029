import Mathlib.Data.List.Basic

/-!
Runs of a transition system, with the steps they took.

* `Run`: a run from a state, the list of its transitions, and the state it ends in.
* `Run.steps`: the transitions of a run are steps.
* `Run.invariant`: what holds at the start and is kept by every safe transition holds at both ends
  of every transition of a run with safe transitions only.
* `Run.good_iff_safe`: when, in a state with the invariant, a transition is good exactly when it is
  safe, a run has good transitions only exactly when it has safe ones only.
-/

namespace Trace

/-- A transition: the state before, the label, the state after. -/
structure Transition (σ ι : Type*) where
  source : σ
  label : ι
  target : σ

/-- The runs of `step` from `s₀`. -/
inductive Run {σ ι : Type*} (step : Transition σ ι → Prop) (s₀ : σ) :
    List (Transition σ ι) → σ → Prop
  | nil : Run step s₀ [] s₀
  | snoc {ts : List (Transition σ ι)} {s s' : σ} {i : ι} (run : Run step s₀ ts s)
      (last : step ⟨s, i, s'⟩) : Run step s₀ (ts ++ [⟨s, i, s'⟩]) s'

namespace Run

variable {σ ι : Type*} {step : Transition σ ι → Prop} {s₀ s : σ} {ts : List (Transition σ ι)}
  {I : σ → Prop} {safe good : Transition σ ι → Prop}

/-- The transitions of a run are steps. -/
theorem steps (run : Run step s₀ ts s) : ∀ t ∈ ts, step t := by
  induction run with
  | nil => simp
  | snoc run last ih =>
      intro t ht
      rcases List.mem_append.mp ht with ht | ht
      · exact ih t ht
      · exact List.mem_singleton.mp ht ▸ last

/-- **The invariant rule**, for runs with safe transitions. -/
theorem invariant (run : Run step s₀ ts s) (h₀ : I s₀)
    (hstep : ∀ t, step t → safe t → I t.source → I t.target) (hsafe : ∀ t ∈ ts, safe t) :
    I s ∧ ∀ t ∈ ts, I t.source ∧ I t.target := by
  induction run with
  | nil => exact ⟨h₀, by simp⟩
  | snoc run last ih =>
      obtain ⟨hs, hall⟩ := ih fun t ht => hsafe t (List.mem_append_left _ ht)
      have htarget := hstep _ last (hsafe _ (by simp)) hs
      refine ⟨htarget, fun t ht => ?_⟩
      rcases List.mem_append.mp ht with ht | ht
      · exact hall t ht
      · rw [List.mem_singleton.mp ht]
        exact ⟨hs, htarget⟩

/-- **Good exactly when safe**: step by step, as long as the invariant holds. -/
theorem good_iff_safe (run : Run step s₀ ts s) (h₀ : I s₀)
    (hstep : ∀ t, step t → safe t → I t.source → I t.target)
    (hgood : ∀ t, step t → I t.source → (good t ↔ safe t)) :
    (∀ t ∈ ts, good t) ↔ ∀ t ∈ ts, safe t := by
  induction run with
  | nil => simp
  | snoc run last ih =>
      simp only [List.forall_mem_append, List.forall_mem_singleton, ih]
      refine and_congr_right fun hsafe => ?_
      exact hgood _ last (run.invariant h₀ hstep hsafe).1

end Run

end Trace
