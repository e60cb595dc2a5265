import Mathlib.Algebra.Order.Group.Multiset
import Mathlib.Algebra.Order.Ring.Int

-- Handles that are taken, used and given back, by one thread and by several at once.
namespace Ledger
variable {κ α : Type} [DecidableEq κ] {counted : κ → Prop} [DecidablePred counted]

inductive Use (κ : Type) where
  | take (handle : κ)
  | use (handle : κ)
  | give (handle : κ)

-- none is a handle used or given back that is not held.
def Use.step (stock : Multiset κ) : Use κ → Option (Multiset κ)
  | .take handle => some (handle ::ₘ stock)
  | .use handle => if handle ∈ stock then some stock else none
  | .give handle => if handle ∈ stock then some (stock.erase handle) else none

def held : Multiset κ → List (Use κ) → Option (Multiset κ)
  | stock,[] => some stock
  | stock,use :: rest => (use.step stock).bind fun next => held next rest

inductive Ran (counted : κ → Prop) [DecidablePred counted] (limit : Nat) : Multiset κ → List (Use κ) → Multiset κ → Prop
  | done (few : stock.countP counted ≤ limit) : Ran counted limit stock [] stock
  | step (few : stock.countP counted ≤ limit) (taken : use.step stock = some next)
      (rest : Ran counted limit next uses left) : Ran counted limit stock (use :: uses) left

theorem Use.step_frame {use : Use κ} {stock : Multiset κ} (taken : use.step stock = some next) (others : Multiset κ) :
    use.step (stock+others) = some (next+others) := by
  cases use with
  | take handle =>
    cases taken
    rw [Use.step,Multiset.cons_add]
  | use handle =>
    rw [Use.step] at taken ⊢
    split at taken
    · rename_i owned
      cases taken
      rw [if_pos (Multiset.mem_add.mpr (.inl owned))]
    · cases taken
  | give handle =>
    rw [Use.step] at taken ⊢
    split at taken
    · rename_i owned
      cases taken
      rw [if_pos (Multiset.mem_add.mpr (.inl owned)),Multiset.erase_add_left_pos _ owned]
    · cases taken

theorem Ran.start {stock : Multiset κ} (ran : Ran counted limit stock uses left) : stock.countP counted ≤ limit := by
  cases ran with
  | done few => exact few
  | step few _ _ => exact few

omit [DecidableEq κ] in
@[simp] theorem countP_one (handle : κ) : ({handle} : Multiset κ).countP counted = if counted handle then 1 else 0 := by
  rw [← Multiset.cons_zero,Multiset.countP_cons,Multiset.countP_zero,Nat.zero_add]

@[simp] theorem ran_nil {stock : Multiset κ} :
    Ran counted limit stock [] left ↔ stock.countP counted ≤ limit ∧ stock = left := by
  constructor
  · intro ran
    cases ran with
    | done few => exact ⟨few,rfl⟩
  · rintro ⟨few,rfl⟩
    exact .done few

@[simp] theorem ran_take {stock : Multiset κ} : Ran counted limit stock (.take handle :: uses) left ↔
    stock.countP counted ≤ limit ∧ Ran counted limit (handle ::ₘ stock) uses left := by
  constructor
  · intro ran
    cases ran with
    | step few taken rest =>
      cases taken
      exact ⟨few,rest⟩
  · rintro ⟨few,rest⟩
    exact .step few rfl rest

@[simp] theorem ran_use {stock : Multiset κ} : Ran counted limit stock (.use handle :: uses) left ↔
    handle ∈ stock ∧ Ran counted limit stock uses left := by
  constructor
  · intro ran
    cases ran with
    | step _ taken rest =>
      rw [Use.step] at taken
      split at taken
      · rename_i owned
        cases taken
        exact ⟨owned,rest⟩
      · cases taken
  · rintro ⟨owned,rest⟩
    exact .step rest.start (if_pos owned) rest

@[simp] theorem ran_give {stock : Multiset κ} : Ran counted limit stock (.give handle :: uses) left ↔
    stock.countP counted ≤ limit ∧ handle ∈ stock ∧ Ran counted limit (stock.erase handle) uses left := by
  constructor
  · intro ran
    cases ran with
    | step few taken rest =>
      rw [Use.step] at taken
      split at taken
      · rename_i owned
        cases taken
        exact ⟨few,owned,rest⟩
      · cases taken
  · rintro ⟨few,owned,rest⟩
    exact .step few (if_pos owned) rest

theorem Ran.held {stock : Multiset κ} (ran : Ran counted limit stock uses left) : held stock uses = some left := by
  induction ran with
  | done => rfl
  | step _ taken _ ih =>
    rw [Ledger.held,taken]
    exact ih

theorem Ran.append {stock : Multiset κ} (first : Ran counted limit stock before left)
    (next : Ran counted limit left behind left') : Ran counted limit stock (before ++ behind) left' := by
  induction first with
  | done => exact next
  | step few taken _ ih => exact .step few taken (ih next)

theorem Ran.loosened {stock : Multiset κ} (ran : Ran counted limit stock uses left) (looser : limit ≤ limit') :
    Ran counted limit' stock uses left := by
  induction ran with
  | done few => exact .done (Nat.le_trans few looser)
  | step few taken _ ih => exact .step (Nat.le_trans few looser) taken ih

omit [DecidableEq κ] in
theorem countP_frame {stock : Multiset κ} (few : stock.countP counted ≤ limit) (others : Multiset κ) :
    (stock+others).countP counted ≤ limit+others.countP counted := by
  rw [Multiset.countP_add]
  exact Nat.add_le_add_right few _

theorem Ran.frame {stock : Multiset κ} (ran : Ran counted limit stock uses left) (others : Multiset κ) :
    Ran counted (limit+others.countP counted) (stock+others) uses (left+others) := by
  induction ran with
  | done few => exact .done (countP_frame few others)
  | step few taken _ ih => exact .step (countP_frame few others) (Use.step_frame taken others) ih

theorem Ran.now {stock : Multiset κ} (ran : Ran counted limit stock (before ++ behind) left) :
    ∃ now, Ledger.held stock before = some now ∧ now.countP counted ≤ limit := by
  induction before generalizing stock with
  | nil => exact ⟨stock,rfl,ran.start⟩
  | cons use rest ih =>
    cases ran with
    | step _ taken later =>
      obtain ⟨now,reached,few⟩ := ih later
      refine ⟨now,?_,few⟩
      rw [Ledger.held,taken]
      exact reached

theorem Ran.all {stock : Multiset κ} (few : stock.countP counted ≤ limit) (calls : List α) (uses : α → List (Use κ))
    (lost : α → Multiset κ)
    (each : ∀ call ∈ calls, Ran counted limit stock (uses call) (stock+lost call) ∧ (lost call).countP counted = 0) :
    Ran counted limit stock (calls.flatMap uses) (stock+(calls.map lost).sum) := by
  induction calls with
  | nil =>
    rw [List.map_nil,List.sum_nil,add_zero]
    exact .done few
  | cons call rest ih =>
    obtain ⟨first,uncounted⟩ := each call List.mem_cons_self
    have later := (ih fun other member => each other (List.mem_cons_of_mem _ member)).frame (lost call)
    rw [uncounted,Nat.add_zero] at later
    rw [List.flatMap_cons,List.map_cons,List.sum_cons,add_comm (lost call),← add_assoc]
    exact first.append later

def Use.by (thread : Nat) : Use κ → Use (Nat × κ)
  | .take handle => .take (thread,handle)
  | .use handle => .use (thread,handle)
  | .give handle => .give (thread,handle)

theorem Use.by_step {use : Use κ} {stock : Multiset κ} (taken : use.step stock = some next) (n : Nat) :
    (use.by n).step (stock.map (Prod.mk n)) = some (next.map (Prod.mk n)) := by
  cases use with
  | take handle =>
    cases taken
    rw [Use.by,Use.step,Multiset.map_cons]
  | use handle =>
    rw [Use.step] at taken
    split at taken
    · rename_i owned
      cases taken
      exact if_pos (Multiset.mem_map_of_mem _ owned)
    · cases taken
  | give handle =>
    rw [Use.step] at taken
    split at taken
    · rename_i owned
      cases taken
      rw [Use.by,Use.step,if_pos (Multiset.mem_map_of_mem _ owned),Multiset.map_erase _ (Prod.mk_right_injective n)]
    · cases taken

theorem Ran.by {stock : Multiset κ} (ran : Ran counted limit stock uses left) (n : Nat) :
    Ran (fun handle : Nat × κ => counted handle.2) limit (stock.map (Prod.mk n)) (uses.map (Use.by n))
      (left.map (Prod.mk n)) := by
  have same (stock : Multiset κ) :
      (stock.map (Prod.mk n)).countP (fun handle => counted handle.2) = stock.countP counted := by
    rw [Multiset.countP_map,Multiset.countP_eq_card_filter]
  induction ran with
  | done few => exact .done ((same _).trans_le few)
  | step few taken _ ih => exact .step ((same _).trans_le few) (Use.by_step taken n) ih

inductive Merges : List α → List α → List α → Prop
  | nil : Merges [] [] []
  | left : Merges a b c → Merges (x :: a) b (x :: c)
  | right : Merges a b c → Merges a (x :: b) (x :: c)

inductive Interleaves : List (List α) → List α → Prop
  | nil : Interleaves [] []
  | cons : Interleaves threads others → Merges thread others trace → Interleaves (thread :: threads) trace

theorem merges_ran {stock stock' : Multiset κ} (merges : Merges a b c) (first : Ran counted limit stock a left)
    (second : Ran counted limit' stock' b left') : Ran counted (limit+limit') (stock+stock') c (left+left') := by
  have few : (stock+stock').countP counted ≤ limit+limit' := by
    rw [Multiset.countP_add]
    exact Nat.add_le_add first.start second.start
  induction merges generalizing stock stock' with
  | nil =>
    cases first
    cases second
    exact .done few
  | left merged ih =>
    cases first with
    | step _ taken rest =>
      refine .step few (Use.step_frame taken stock') (ih rest second ?_)
      rw [Multiset.countP_add]
      exact Nat.add_le_add rest.start second.start
  | right merged ih =>
    cases second with
    | step _ taken rest =>
      refine .step few ?_ (ih first rest ?_)
      · rw [add_comm,Use.step_frame taken stock,add_comm]
      · rw [Multiset.countP_add]
        exact Nat.add_le_add first.start rest.start

theorem merges_behind (a b : List α) : Merges a b (a ++ b) := by
  induction a with
  | nil =>
    induction b with
    | nil => exact .nil
    | cons _ _ ih => exact .right ih
  | cons _ _ ih => exact .left ih

theorem interleaves_flatten (threads : List (List α)) : Interleaves threads threads.flatten := by
  induction threads with
  | nil => exact .nil
  | cons thread rest ih => exact .cons ih (merges_behind thread _)

structure Account (κ : Type) where
  uses : List (Use κ)
  limit : Nat
  left : Multiset κ

def byThreads : Nat → List (Account κ) → List (List (Use (Nat × κ)))
  | _,[] => []
  | n,thread :: rest => thread.uses.map (Use.by n) :: byThreads (n+1) rest

def leftByThreads : Nat → List (Account κ) → Multiset (Nat × κ)
  | _,[] => 0
  | n,thread :: rest => thread.left.map (Prod.mk n)+leftByThreads (n+1) rest

theorem interleaves_ran (threads : List (Account κ)) (each : ∀ t ∈ threads, Ran counted t.limit 0 t.uses t.left)
    (interleaves : Interleaves (byThreads n threads) trace) :
    Ran (fun handle : Nat × κ => counted handle.2) (threads.map Account.limit).sum 0 trace (leftByThreads n threads) := by
  induction threads generalizing n trace with
  | nil =>
    cases interleaves
    exact .done (Nat.zero_le _)
  | cons thread rest ih =>
    cases interleaves with
    | cons others merges =>
      have mine := (each thread List.mem_cons_self).by n
      have both := merges_ran merges mine (ih (fun t member => each t (List.mem_cons_of_mem _ member)) others)
      rwa [Multiset.map_zero,zero_add] at both

end Ledger
