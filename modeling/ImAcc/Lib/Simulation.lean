import ImAcc.Lib.Transition
import Mathlib.Logic.Relation

-- A system followed through a view of its states by the moves of another.
namespace Transition
variable {σ ε α : Type} {step : σ → ε → Option σ} {guard : σ → ε → Prop} {move : α → α → Prop} {view : σ → α}

def Simulates (step : σ → ε → Option σ) (guard : σ → ε → Prop) (move : α → α → Prop) (view : σ → α) : Prop :=
  ∀ s event next, guard s event → step s event = some next → Relation.ReflTransGen move (view s) (view next)

theorem Simulates.reached (simulates : Simulates step guard move view) (path : Reached step guard start s) :
    Relation.ReflTransGen move (view start) (view s) := by
  induction path with
  | refl => exact .refl
  | step _ met taken ih => exact ih.trans (simulates _ _ _ met taken)

theorem moves_invariant {I : α → Prop} (kept : ∀ a b, I a → move a b → I b) (base : I a)
    (moves : Relation.ReflTransGen move a b) : I b := by
  induction moves with
  | refl => exact base
  | tail _ moved ih => exact kept _ _ ih moved

theorem Simulates.invariant {I : α → Prop} (simulates : Simulates step guard move view)
    (kept : ∀ a b, I a → move a b → I b) (base : I (view start)) (path : Reached step guard start s) : I (view s) :=
  moves_invariant kept base (simulates.reached path)

end Transition
