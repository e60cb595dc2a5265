import Mathlib.Data.List.OfFn

-- Data folded block by block as it comes in, however it was split.
namespace Blocks
variable {α σ : Type} {compress : σ → List α → σ} {n : Nat}

def feed (compress : σ → List α → σ) (n : Nat) (s : σ × List α) (x : α) : σ × List α :=
  if s.2.length+1 = n then (compress s.1 (s.2 ++ [x]),[]) else (s.1,s.2 ++ [x])

def absorb (compress : σ → List α → σ) (n : Nat) (s : σ × List α) (data : List α) : σ × List α :=
  data.foldl (feed compress n) s

def foldBlocks (compress : σ → List α → σ) (n : Nat) : Nat → σ → List α → σ × List α
  | 0,s,data => (s,data)
  | k+1,s,data => foldBlocks compress n k (compress s (data.take n)) (data.drop n)

theorem absorb_append (s : σ × List α) (first second : List α) :
    absorb compress n s (first ++ second) = absorb compress n (absorb compress n s first) second :=
  List.foldl_append

theorem absorb_kept (short : pending.length+data.length < n) :
    absorb compress n (s,pending) data = (s,pending ++ data) := by
  induction data generalizing pending with
  | nil => rw [List.append_nil]; rfl
  | cons x rest ih =>
    rw [List.length_cons] at short
    have here : feed compress n (s,pending) x = (s,pending ++ [x]) := if_neg (by dsimp only; omega)
    have later : absorb compress n (s,pending ++ [x]) rest = (s,pending ++ [x] ++ rest) :=
      ih (by rw [List.length_append,List.length_singleton]; omega)
    rw [List.append_assoc] at later
    rw [absorb,List.foldl_cons,here]
    exact later

theorem absorb_filled (filled : pending.length+data.length = n) (more : data ≠ []) :
    absorb compress n (s,pending) data = (compress s (pending ++ data),[]) := by
  rcases List.eq_nil_or_concat data with rfl | ⟨before,x,rfl⟩
  · exact absurd rfl more
  · rw [List.concat_eq_append] at filled ⊢
    rw [List.length_append,List.length_singleton] at filled
    have kept : absorb compress n (s,pending) before = (s,pending ++ before) := absorb_kept (by omega)
    rw [absorb_append,kept]
    have last : (pending ++ before).length+1 = n := by rw [List.length_append]; omega
    have whole : feed compress n (s,pending ++ before) x = (compress s (pending ++ before ++ [x]),[]) := if_pos last
    rw [List.append_assoc] at whole
    exact whole

theorem absorb_blocks (some : 0 < n) (k : Nat) (whole : k*n ≤ data.length) (short : data.length < k*n+n) :
    absorb compress n (s,[]) data = foldBlocks compress n k s data := by
  induction k generalizing s data with
  | zero => exact absorb_kept (by simpa using short)
  | succ k ih =>
    rw [Nat.succ_mul] at whole short
    have first : (data.take n).length = n := List.length_take_of_le (by omega)
    have rest : (data.drop n).length = data.length-n := List.length_drop
    have nonempty : data.take n ≠ [] := by
      intro empty
      rw [empty] at first
      exact absurd first.symm (by simp; omega)
    have block : absorb compress n (s,[]) (data.take n) = (compress s (data.take n),[]) :=
      absorb_filled (by simpa using first) nonempty
    rw [foldBlocks,← ih (by omega) (by omega),← block,← absorb_append,List.take_append_drop]

theorem absorb_length (s : σ × List α) (below : s.2.length < n) (data : List α) :
    (absorb compress n s data).2.length = (s.2.length+data.length)%n := by
  induction data generalizing s with
  | nil => exact (Nat.mod_eq_of_lt below).symm
  | cons x rest ih =>
    change (absorb compress n (feed compress n s x) rest).2.length = _
    unfold feed
    split
    · rename_i filled
      rw [ih _ (by dsimp only [List.length_nil]; omega),List.length_cons,List.length_nil]
      have shifted : s.2.length+(rest.length+1) = n+rest.length := by omega
      rw [shifted,Nat.add_mod_left,Nat.zero_add]
    · rename_i short
      have longer : (s.2 ++ [x]).length = s.2.length+1 := List.length_append
      rw [ih _ (by dsimp only; omega),List.length_cons]
      dsimp only
      rw [longer,Nat.add_assoc,Nat.add_comm 1]

def Holds (buffer : Fin n → α) (pending : List α) : Prop :=
  pending.length ≤ n ∧ ∀ i : Fin n, i < pending.length → pending[i.val]? = some (buffer i)

def memcpy (buffer : Fin n → α) (index : Nat) (source : List α) : Fin n → α :=
  fun i => if index ≤ i then source.getD (i-index) (buffer i) else buffer i

theorem holds_nil (buffer : Fin n → α) : Holds buffer [] := ⟨Nat.zero_le _,nofun⟩

theorem holds_memcpy {buffer : Fin n → α} (holds : Holds buffer pending) (index : Nat) (place : index = pending.length)
    (source : List α) (fits : pending.length+source.length ≤ n) :
    Holds (memcpy buffer index source) (pending ++ source) := by
  subst place
  refine ⟨by rw [List.length_append]; exact fits,?_⟩
  intro i inside
  rw [List.length_append] at inside
  by_cases before : i < pending.length
  · rw [List.getElem?_append_left before,holds.2 i before,memcpy,if_neg (by omega)]
  · have place : i-pending.length < source.length := by omega
    rw [List.getElem?_append_right (by omega),memcpy,if_pos (by omega),List.getD_eq_getElem?_getD,
      List.getElem?_eq_getElem place]
    rfl

theorem holds_full {buffer : Fin n → α} (holds : Holds buffer block) (full : block.length = n) :
    List.ofFn buffer = block := by
  apply List.ext_getElem?
  intro i
  by_cases inside : i < n
  · rw [List.getElem?_ofFn,dif_pos inside]
    exact (holds.2 ⟨i,inside⟩ (by omega)).symm
  · rw [List.getElem?_eq_none (by rw [List.length_ofFn]; omega),List.getElem?_eq_none (by omega)]

end Blocks
