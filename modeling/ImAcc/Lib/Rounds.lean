import Mathlib.Algebra.Order.Ring.Int

-- Loops that read their inputs two at a time: a query, and a renewal where it is stale.
namespace Rounds
variable {σ ι ρ : Type}

def upTo (inputs : Nat → ι) (n : Nat) : List ι := (List.range n).map inputs

theorem upTo_succ (inputs : Nat → ι) (n : Nat) : upTo inputs (n+1) = inputs 0 :: upTo (fun i => inputs (i+1)) n := by
  unfold upTo
  rw [List.range_succ_eq_map,List.map_cons,List.map_map]
  rfl

variable {stale renews : ι → Bool}

def afterRounds (stale renews : ι → Bool) : List ι → List ι
  | query :: renewal :: rest =>
    if stale query && renews renewal then afterRounds stale renews rest else query :: renewal :: rest
  | rest => rest

structure Cycles (run : σ → List ι → Option ρ) (stale renews : ι → Bool) (Ready : σ → Prop)
    (Ended : ι → ρ → Prop) (Failed : ρ → Prop) : Prop where
  waits : ∀ s, Ready s → run s [] = none
  waitsAgain : ∀ s query, Ready s → stale query = true → run s [query] = none
  round : ∀ s query renewal, Ready s → stale query = true → renews renewal = true →
    ∃ next, Ready next ∧ ∀ rest, run s (query :: renewal :: rest) = run next rest
  ends : ∀ s query rest, Ready s → stale query = false → ∃ p, run s (query :: rest) = some p ∧ Ended query p
  fails : ∀ s query renewal rest, Ready s → stale query = true → renews renewal = false →
    ∃ p, run s (query :: renewal :: rest) = some p ∧ Failed p

variable {run : σ → List ι → Option ρ} {Ready : σ → Prop} {Ended : ι → ρ → Prop} {Failed : ρ → Prop}

theorem Cycles.settled (cycles : Cycles run stale renews Ready Ended Failed) (ready : Ready s) (inputs : List ι) :
    ∃ next, Ready next ∧ run s inputs = run next (afterRounds stale renews inputs) := by
  match inputs with
  | [] => exact ⟨s,ready,rfl⟩
  | [query] => exact ⟨s,ready,rfl⟩
  | query :: renewal :: rest =>
    unfold afterRounds
    by_cases again : (stale query && renews renewal) = true
    · rw [if_pos again]
      rw [Bool.and_eq_true] at again
      obtain ⟨next,kept,taken⟩ := cycles.round s query renewal ready again.1 again.2
      obtain ⟨last,settled,same⟩ := cycles.settled kept rest
      exact ⟨last,settled,(taken rest).trans same⟩
    · rw [if_neg again]
      exact ⟨s,ready,rfl⟩

theorem Cycles.ended (cycles : Cycles run stale renews Ready Ended Failed) (ready : Ready s) (ran : run s inputs = some p) :
    ∃ query rest, afterRounds stale renews inputs = query :: rest ∧
      (stale query = false ∧ Ended query p ∨ stale query = true ∧ Failed p) := by
  match inputs with
  | [] =>
    rw [cycles.waits s ready] at ran
    cases ran
  | [query] =>
    refine ⟨query,[],rfl,?_⟩
    cases old : stale query with
    | false =>
      obtain ⟨p',same,ended⟩ := cycles.ends s query [] ready old
      cases same.symm.trans ran
      exact .inl ⟨rfl,ended⟩
    | true =>
      rw [cycles.waitsAgain s query ready old] at ran
      cases ran
  | query :: renewal :: rest =>
    unfold afterRounds
    cases old : stale query with
    | false =>
      obtain ⟨p',same,ended⟩ := cycles.ends s query (renewal :: rest) ready old
      cases same.symm.trans ran
      exact ⟨query,renewal :: rest,rfl,.inl ⟨old,ended⟩⟩
    | true =>
      cases new : renews renewal with
      | false =>
        obtain ⟨p',same,failed⟩ := cycles.fails s query renewal rest ready old new
        cases same.symm.trans ran
        exact ⟨query,renewal :: rest,rfl,.inr ⟨old,failed⟩⟩
      | true =>
        obtain ⟨next,kept,taken⟩ := cycles.round s query renewal ready old new
        rw [taken] at ran
        exact cycles.ended kept ran

def Endless (stale renews : ι → Bool) (inputs : Nat → ι) : Prop :=
  ∀ i, stale (inputs (2*i)) = true ∧ renews (inputs (2*i+1)) = true

theorem Endless.later (endless : Endless stale renews inputs) : Endless stale renews fun i => inputs (i+2) := by
  intro i
  exact endless (i+1)

theorem Cycles.endless (cycles : Cycles run stale renews Ready Ended Failed) (ready : Ready s)
    (endless : Endless stale renews inputs) (n : Nat) : run s (upTo inputs n) = none := by
  induction n using Nat.twoStepInduction generalizing s inputs with
  | zero => exact cycles.waits s ready
  | one => exact cycles.waitsAgain s _ ready (endless 0).1
  | more n ih _ =>
    obtain ⟨next,kept,taken⟩ := cycles.round s _ _ ready (endless 0).1 (endless 0).2
    rw [upTo_succ,upTo_succ,taken]
    exact ih kept endless.later

theorem Cycles.stopsAtOnce {inputs : Nat → ι} (cycles : Cycles run stale renews Ready Ended Failed) (ready : Ready s)
    (broken : ¬(stale (inputs 0) = true ∧ renews (inputs 1) = true)) : ∃ n p, run s (upTo inputs n) = some p := by
  cases old : stale (inputs 0) with
  | false =>
    obtain ⟨p,ran,_⟩ := cycles.ends s (inputs 0) [] ready old
    exact ⟨1,p,ran⟩
  | true =>
    have new : renews (inputs 1) = false := Bool.eq_false_iff.mpr fun again => broken ⟨old,again⟩
    obtain ⟨p,ran,_⟩ := cycles.fails s (inputs 0) (inputs 1) [] ready old new
    exact ⟨2,p,ran⟩

theorem Cycles.stops (cycles : Cycles run stale renews Ready Ended Failed) (ready : Ready s)
    (broken : ¬(stale (inputs (2*i)) = true ∧ renews (inputs (2*i+1)) = true)) :
    ∃ n p, run s (upTo inputs n) = some p := by
  induction i generalizing s inputs with
  | zero => exact cycles.stopsAtOnce ready broken
  | succ i ih =>
    by_cases first : stale (inputs 0) = true ∧ renews (inputs 1) = true
    · obtain ⟨next,kept,taken⟩ := cycles.round s (inputs 0) (inputs 1) ready first.1 first.2
      obtain ⟨n,p,ran⟩ : ∃ n p, run next (upTo (fun i => inputs (i+2)) n) = some p := ih kept broken
      refine ⟨n+2,p,?_⟩
      rw [upTo_succ,upTo_succ]
      exact (taken _).trans ran
    · exact cycles.stopsAtOnce ready first

theorem Cycles.stops_exact (cycles : Cycles run stale renews Ready Ended Failed) (ready : Ready s) (inputs : Nat → ι) :
    (∃ n p, run s (upTo inputs n) = some p) ↔ ¬Endless stale renews inputs := by
  constructor
  · rintro ⟨n,p,ran⟩ endless
    rw [cycles.endless ready endless n] at ran
    cases ran
  · intro broken
    obtain ⟨i,broken⟩ := not_forall.mp broken
    exact cycles.stops ready broken

end Rounds
