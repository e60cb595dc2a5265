import Mathlib.Algebra.Order.Ring.Int
import Mathlib.Logic.Function.Basic

-- Named arrays of fixed capacity; a value fits strictly below, for its terminator.
namespace Copies

structure Copy (ι α : Type) where
  dest : ι
  value : List α

variable {ι α : Type} [DecidableEq ι] {memory : ι → List α} {capacity : ι → Nat} {copies : List (Copy ι α)}

def Copy.Fits (capacity : ι → Nat) (c : Copy ι α) : Prop := c.value.length < capacity c.dest

instance (capacity : ι → Nat) (c : Copy ι α) : Decidable (c.Fits capacity) :=
  inferInstanceAs (Decidable (_ < _))

def write (memory : ι → List α) (c : Copy ι α) : ι → List α := Function.update memory c.dest c.value

def writes (memory : ι → List α) (copies : List (Copy ι α)) : ι → List α := copies.foldl write memory

@[simp] theorem writes_nil (memory : ι → List α) : writes memory [] = memory := rfl

@[simp] theorem writes_cons (memory : ι → List α) (c : Copy ι α) (rest : List (Copy ι α)) :
    writes memory (c :: rest) = writes (write memory c) rest := rfl

theorem writes_append (memory : ι → List α) (first second : List (Copy ι α)) :
    writes memory (first ++ second) = writes (writes memory first) second := List.foldl_append

theorem write_here (memory : ι → List α) (c : Copy ι α) : write memory c c.dest = c.value :=
  Function.update_self ..

theorem write_other (memory : ι → List α) (c : Copy ι α) (other : i ≠ c.dest) : write memory c i = memory i :=
  Function.update_of_ne other ..

theorem writes_untouched (untouched : ∀ c ∈ copies, c.dest ≠ i) : writes memory copies i = memory i := by
  induction copies generalizing memory with
  | nil => rfl
  | cons c rest ih =>
    rw [writes_cons,ih (fun other member => untouched other (List.mem_cons_of_mem _ member))]
    exact write_other memory c (untouched c List.mem_cons_self).symm

theorem write_short (short : (memory i).length < capacity i) (fits : c.Fits capacity) :
    (write memory c i).length < capacity i := by
  by_cases here : i = c.dest
  · subst here
    rw [write_here]
    exact fits
  · rw [write_other memory c here]
    exact short

theorem writes_short (short : (memory i).length < capacity i) (fits : ∀ c ∈ copies, c.Fits capacity) :
    (writes memory copies i).length < capacity i := by
  induction copies generalizing memory with
  | nil => exact short
  | cons c rest ih =>
    have first := write_short short (fits c List.mem_cons_self)
    exact ih first fun other member => fits other (List.mem_cons_of_mem _ member)

end Copies
