import Mathlib.Data.List.Basic

/-! Paths of a step relation, with the list of states they pass. -/
namespace Foundation
variable {σ : Type} {R S : σ → σ → Prop} {a b c : σ} {states more : List σ}

/-- The states lead from `a` to `b`, each one step after the one before. -/
inductive Path (R : σ → σ → Prop) : σ → List σ → σ → Prop
  | refl (a : σ) : Path R a [] a
  | step {a b c : σ} {states : List σ} (first : R a b) (rest : Path R b states c) :
    Path R a (b :: states) c

namespace Path

theorem single (step : R a b) : Path R a [b] b := .step step (.refl b)

theorem append (first : Path R a states b) (second : Path R b more c) :
    Path R a (states ++ more) c := by
  induction first with
  | refl => exact second
  | step one rest ih => exact .step one (ih second)

theorem mono (weaker : ∀ {x y}, R x y → S x y) (path : Path R a states b) : Path S a states b := by
  induction path with
  | refl => exact .refl _
  | step one rest ih => exact .step (weaker one) ih

/-- A property that every step keeps holds at the end of a path from a state that
has it, and in every state passed on the way. -/
theorem invariant {P : σ → Prop} (kept : ∀ {x y}, R x y → P x → P y) (path : Path R a states b)
    (start : P a) : P b ∧ ∀ x ∈ states, P x := by
  induction path with
  | refl => exact ⟨start, by simp⟩
  | step one rest ih =>
    obtain ⟨final, between⟩ := ih (kept one start)
    exact ⟨final, List.forall_mem_cons.mpr ⟨kept one start, between⟩⟩

/-- An invariant that each step keeps as long as `Q` holds after it. -/
theorem invariant_while {P Q : σ → Prop} (kept : ∀ {x y}, R x y → P x → Q y → P y)
    (path : Path R a states b) (start : P a) (along : ∀ x ∈ states, Q x) : P b := by
  induction path with
  | refl => exact start
  | step one rest ih =>
    obtain ⟨now, later⟩ := List.forall_mem_cons.mp along
    exact ih (kept one start now) later

end Path
end Foundation
