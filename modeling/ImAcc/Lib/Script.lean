import Mathlib.Algebra.Order.Ring.Int

-- A step taken apart into a list of acts: what every act keeps, the list keeps.
namespace Script
variable {σ α γ : Type}

structure Rules (σ α : Type) where
  apply : σ → α → σ
  allowed : σ → α → Prop

variable {rules : Rules σ α} {I : σ → Prop}

def Plays (rules : Rules σ α) : σ → List α → σ → Prop
  | s,[],t => t = s
  | s,act :: rest,t => rules.allowed s act ∧ Plays rules (rules.apply s act) rest t

theorem Plays.append (first : Plays rules s xs t) (second : Plays rules t ys u) : Plays rules s (xs ++ ys) u := by
  induction xs generalizing s with
  | nil => cases first; exact second
  | cons act rest ih => exact ⟨first.1,ih first.2⟩

def visits (rules : Rules σ α) : σ → List α → List (σ × α)
  | _,[] => []
  | s,act :: rest => (s,act) :: visits rules (rules.apply s act) rest

theorem Plays.keeps (plays : Plays rules s acts t) (base : I s)
    (keep : ∀ s, ∀ act ∈ acts, I s → rules.allowed s act → I (rules.apply s act)) : I t := by
  induction acts generalizing s with
  | nil => cases plays; exact base
  | cons act rest ih =>
    have first := keep s act List.mem_cons_self base plays.1
    exact ih plays.2 first fun s act member => keep s act (List.mem_cons_of_mem _ member)

theorem Plays.visited (plays : Plays rules s acts t) (base : I s)
    (keep : ∀ s, ∀ act ∈ acts, I s → rules.allowed s act → I (rules.apply s act)) :
    ∀ v ∈ visits rules s acts, I v.1 ∧ rules.allowed v.1 v.2 ∧ v.2 ∈ acts := by
  induction acts generalizing s with
  | nil => nofun
  | cons act rest ih =>
    have first := keep s act List.mem_cons_self base plays.1
    intro v visited
    rcases List.mem_cons.mp visited with rfl | later
    · exact ⟨base,plays.1,List.mem_cons_self⟩
    · obtain ⟨held,allowed,member⟩ := ih plays.2 first
        (fun s act member => keep s act (List.mem_cons_of_mem _ member)) v later
      exact ⟨held,allowed,List.mem_cons_of_mem _ member⟩

def watched (rules : Rules σ α) (watch : γ → σ → α → γ) : γ → σ → List α → γ
  | mark,_,[] => mark
  | mark,s,act :: rest => watched rules watch (watch mark s act) (rules.apply s act) rest

def Rules.watching (rules : Rules σ α) (watch : γ → σ → α → γ) : Rules (σ × γ) α :=
  ⟨fun s act => (rules.apply s.1 act,watch s.2 s.1 act),fun s act => rules.allowed s.1 act⟩

theorem Plays.watching (plays : Plays rules s acts t) (watch : γ → σ → α → γ) (mark : γ) :
    Plays (rules.watching watch) (s,mark) acts (t,watched rules watch mark s acts) := by
  induction acts generalizing s mark with
  | nil => cases plays; rfl
  | cons act rest ih => exact ⟨plays.1,ih plays.2 _⟩

end Script
