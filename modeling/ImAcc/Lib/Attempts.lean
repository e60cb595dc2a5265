import Mathlib.Logic.Function.Iterate

-- Loops with a limited number of tries: a turn ends the loop, costs a try or costs nothing.
namespace Attempts
variable {α σ ρ : Type}

inductive Turn where
  | ends
  | free
  | costs
  deriving DecidableEq

def cost (kind : α → Turn) (next : α → α) : Nat → α → Nat
  | 0,_ => 0
  | n+1,a => (if kind a = .costs then 1 else 0) + cost kind next n (next a)

theorem cost_succ (kind : α → Turn) (next : α → α) (n : Nat) (a : α) :
    cost kind next (n+1) a = (if kind a = .costs then 1 else 0) + cost kind next n (next a) := rfl

-- Before a turn the loop has some tries left, and the turn that needs one more ends it.
structure Tries (run : Nat → σ → Option ρ) (kind : α → Turn) (next : α → α) (Before : σ → α → Nat → Prop)
    (Ended : ρ → Prop) : Prop where
  unfuelled : ∀ s, run 0 s = none
  ends : ∀ s a left, Before s a left → kind a = .ends → ∃ r, Ended r ∧ ∀ n, run (n+1) s = some r
  free : ∀ s a left, Before s a left → kind a = .free → ∃ s', Before s' (next a) left ∧ ∀ n, run (n+1) s = run n s'
  spent : ∀ s a, Before s a 0 → kind a = .costs → ∃ r, Ended r ∧ ∀ n, run (n+1) s = some r
  costs : ∀ s a left, Before s a (left+1) → kind a = .costs → ∃ s', Before s' (next a) left ∧ ∀ n, run (n+1) s = run n s'

def Concludes (kind : α → Turn) (next : α → α) (a : α) (left : Nat) : Prop :=
  ∃ n, kind (next^[n] a) = .ends ∨ left < cost kind next n a

variable {kind : α → Turn} {next : α → α}

theorem Concludes.free (concludes : Concludes kind next (next a) left) : Concludes kind next a left := by
  obtain ⟨n,done⟩ := concludes
  refine ⟨n+1,?_⟩
  rw [Function.iterate_succ_apply,cost_succ]
  rcases done with ended | more
  · exact .inl ended
  · exact .inr (by omega)

theorem Concludes.costs (turn : kind a = .costs) (concludes : Concludes kind next (next a) left) :
    Concludes kind next a (left+1) := by
  obtain ⟨n,done⟩ := concludes
  refine ⟨n+1,?_⟩
  rw [Function.iterate_succ_apply,cost_succ,if_pos turn]
  rcases done with ended | more
  · exact .inl ended
  · exact .inr (by omega)

theorem Concludes.endless {P : α → Prop} (free : ∀ a, P a → kind a = .free ∧ P (next a)) (start : P a) :
    ¬Concludes kind next a left := by
  rintro ⟨n,done⟩
  induction n generalizing a with
  | zero =>
    rcases done with ended | more
    · rw [Function.iterate_zero_apply,(free a start).1] at ended
      cases ended
    · exact Nat.not_lt_zero _ more
  | succ n ih =>
    obtain ⟨turn,again⟩ := free a start
    rw [Function.iterate_succ_apply,cost_succ,turn,if_neg nofun,Nat.zero_add] at done
    exact ih again done

variable {run : Nat → σ → Option ρ} {Before : σ → α → Nat → Prop} {Ended : ρ → Prop}

theorem Tries.concludes (tries : Tries run kind next Before Ended) (before : Before s a left) (ran : run n s = some r) :
    Concludes kind next a left := by
  induction n generalizing s a left with
  | zero =>
    rw [tries.unfuelled s] at ran
    cases ran
  | succ n ih =>
    cases turn : kind a with
    | ends => exact ⟨0,.inl turn⟩
    | free =>
      obtain ⟨s',kept,same⟩ := tries.free s a left before turn
      rw [same n] at ran
      exact (ih kept ran).free
    | costs =>
      cases left with
      | zero =>
        refine ⟨1,.inr ?_⟩
        rw [cost_succ,if_pos turn]
        omega
      | succ left =>
        obtain ⟨s',kept,same⟩ := tries.costs s a left before turn
        rw [same n] at ran
        exact (ih kept ran).costs turn

theorem ended_now (stops : ∃ r, Ended r ∧ ∀ n, run (n+1) s = some r) : ∃ m r, run m s = some r ∧ Ended r := by
  obtain ⟨r,ended,same⟩ := stops
  exact ⟨1,r,same 0,ended⟩

theorem Tries.ended (tries : Tries run kind next Before Ended) (before : Before s a left)
    (done : kind (next^[n] a) = .ends ∨ left < cost kind next n a) : ∃ m r, run m s = some r ∧ Ended r := by
  induction n generalizing s a left with
  | zero =>
    rcases done with ended | more
    · exact ended_now (tries.ends s a left before ended)
    · exact absurd more (Nat.not_lt_zero _)
  | succ n ih =>
    rw [Function.iterate_succ_apply,cost_succ] at done
    have later {left'} (step : ∃ s', Before s' (next a) left' ∧ ∀ n, run (n+1) s = run n s')
        (done : kind (next^[n] (next a)) = .ends ∨ left' < cost kind next n (next a)) : ∃ m r, run m s = some r ∧ Ended r := by
      obtain ⟨s',kept,same⟩ := step
      obtain ⟨m,r,ran,ended⟩ := ih kept done
      exact ⟨m+1,r,(same m).trans ran,ended⟩
    cases turn : kind a with
    | ends => exact ended_now (tries.ends s a left before turn)
    | free =>
      rw [turn,if_neg nofun,Nat.zero_add] at done
      exact later (tries.free s a left before turn) done
    | costs =>
      rw [turn,if_pos rfl] at done
      cases left with
      | zero => exact ended_now (tries.spent s a before turn)
      | succ left => exact later (tries.costs s a left before turn) (done.imp_right (by omega))

theorem Tries.ends_exact (tries : Tries run kind next Before Ended) (before : Before s a left) :
    (∃ n r, run n s = some r ∧ Ended r) ↔ Concludes kind next a left := by
  constructor
  · rintro ⟨n,r,ran,_⟩
    exact tries.concludes before ran
  · rintro ⟨n,done⟩
    exact tries.ended before done

end Attempts
