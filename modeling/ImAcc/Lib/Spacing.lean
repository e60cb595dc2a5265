import Mathlib.Algebra.Order.Ring.Int
import Mathlib.Tactic.Linarith

-- Times that lie more than a gap apart, and how many of them a window holds.
namespace Spacing

def Spaced (gap : Int) (times : List Int) : Prop := times.Pairwise fun a b => a+gap < b

theorem Spaced.last (spaced : Spaced gap times) (some : 0 ≤ gap) (last : times.getLast? = .some b) : ∀ a ∈ times, a ≤ b := by
  obtain ⟨front,rfl⟩ : ∃ front, times = front ++ [b] := by
    rcases List.eq_nil_or_concat times with rfl | ⟨front,c,rfl⟩
    · cases last
    · rw [List.concat_eq_append,List.getLast?_concat] at last
      cases last
      exact ⟨front,List.concat_eq_append⟩
  intro a member
  rcases List.mem_append.mp member with before | here
  · have less := (List.pairwise_append.mp spaced).2.2 a before b (List.mem_singleton_self b)
    omega
  · rw [List.mem_singleton.mp here]

theorem Spaced.snoc (spaced : Spaced gap times) (some : 0 ≤ gap) (last : times.getLast? = .some b) (beyond : b+gap < c) :
    Spaced gap (times ++ [c]) := by
  refine List.pairwise_append.mpr ⟨spaced,List.pairwise_singleton _ _,fun a member d here => ?_⟩
  have least := spaced.last some last a member
  rw [List.mem_singleton.mp here]
  omega

theorem Spaced.span (spaced : Spaced gap (first :: rest)) (most : ∀ a ∈ first :: rest, a ≤ hi) :
    first+(rest.length : Int)*gap ≤ hi := by
  induction rest generalizing first with
  | nil => simpa using most first List.mem_cons_self
  | cons second rest ih =>
    obtain ⟨here,others⟩ := List.pairwise_cons.mp spaced
    have later := ih others fun a member => most a (List.mem_cons_of_mem _ member)
    have less := here second List.mem_cons_self
    rw [List.length_cons,Nat.cast_succ]
    linarith

theorem Spaced.window (spaced : Spaced gap times) (ordered : lo ≤ hi) (some : 0 ≤ gap)
    (inside : ∀ a ∈ times, lo ≤ a ∧ a ≤ hi) : (times.length : Int)*gap ≤ hi-lo+gap := by
  rcases times with _ | ⟨first,rest⟩
  · rw [List.length_nil,Nat.cast_zero]
    linarith
  · have through := spaced.span fun a member => (inside a member).2
    have least := (inside first List.mem_cons_self).1
    rw [List.length_cons,Nat.cast_succ]
    linarith

end Spacing
