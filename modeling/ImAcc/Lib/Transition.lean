import Mathlib.Algebra.Order.Ring.Int

-- Labelled systems whose step is a partial function, and their invariant rules.
namespace Transition
variable {σ ε : Type} {step : σ → ε → Option σ} {guard weaker : σ → ε → Prop}

def run (step : σ → ε → Option σ) : σ → List ε → Option σ
  | s,[] => some s
  | s,event :: rest => (step s event).bind (run step · rest)

inductive Reached (step : σ → ε → Option σ) (guard : σ → ε → Prop) (start : σ) : σ → Prop where
  | refl : Reached step guard start start
  | step : Reached step guard start s → guard s event → step s event = some next →
      Reached step guard start next

def free : σ → ε → Prop := fun _ _ => True

theorem Reached.trans (ab : Reached step guard a b) (bc : Reached step guard b c) :
    Reached step guard a c := by
  induction bc with
  | refl => exact ab
  | step _ met taken ih => exact .step ih met taken

theorem Reached.weaken (path : Reached step guard start s)
    (allowed : ∀ u event, guard u event → weaker u event) : Reached step weaker start s := by
  induction path with
  | refl => exact .refl
  | step _ met taken ih => exact .step ih (allowed _ _ met) taken

theorem Reached.invariant {I : σ → Prop} (path : Reached step guard start s) (base : I start)
    (keep : ∀ u event next, I u → guard u event → step u event = some next → I next) : I s := by
  induction path with
  | refl => exact base
  | step _ met taken ih => exact keep _ _ _ ih met taken

theorem run_append (s : σ) (first rest : List ε) : run step s (first ++ rest) = (run step s first).bind (run step · rest) := by
  induction first generalizing s with
  | nil => rfl
  | cons event first ih =>
    rw [List.cons_append,run,run,Option.bind_assoc]
    exact congrArg (step s event).bind (funext ih)

theorem run_reached (ran : run step s events = some t) : Reached step free s t := by
  induction events generalizing s with
  | nil => cases ran; exact .refl
  | cons event rest ih =>
    obtain ⟨next,taken,later⟩ := Option.bind_eq_some_iff.mp ran
    exact (Reached.step .refl trivial taken).trans (ih later)

def Met (step : σ → ε → Option σ) (guard : σ → ε → Prop) : σ → List ε → Prop
  | _,[] => True
  | s,event :: rest => guard s event ∧ ∀ next ∈ step s event, Met step guard next rest

def Met.decide [∀ s event, Decidable (guard s event)] : (s : σ) → (events : List ε) → Decidable (Met step guard s events)
  | _,[] => isTrue trivial
  | s,event :: rest =>
    have : ∀ next, Decidable (Met step guard next rest) := fun next => Met.decide next rest
    inferInstanceAs (Decidable (guard s event ∧ ∀ next ∈ step s event, Met step guard next rest))

instance [∀ s event, Decidable (guard s event)] : Decidable (Met step guard s events) := Met.decide s events

theorem met_reached (ran : run step s events = some t) (met : Met step guard s events) : Reached step guard s t := by
  induction events generalizing s with
  | nil => cases ran; exact .refl
  | cons event rest ih =>
    obtain ⟨next,taken,later⟩ := Option.bind_eq_some_iff.mp ran
    exact (Reached.step .refl met.1 taken).trans (ih later (met.2 next taken))

end Transition
