import Mathlib.Algebra.Order.Ring.Int

-- Counted references over a heap of cells, and the accounting that keeps it intact; refs
-- lists the references a cell holds.
namespace RefCount

structure Cell (α : Type) where
  count : Nat
  body : α

abbrev Heap (α : Type) := List (Cell α)

inductive Violation where
  | decrementedAtZero
  | freedInReach
  deriving DecidableEq, Repr

section
variable {α : Type}

def countAt (h : Heap α) (a : Nat) : Nat := (h[a]?.map Cell.count).getD 0
def total (h : Heap α) : Nat := (h.map Cell.count).sum
def heldBy (refs : α → List Nat) (c : Cell α) : List Nat := if c.count = 0 then [] else refs c.body
def held (refs : α → List Nat) (h : Heap α) : List Nat := h.flatMap (heldBy refs)

-- none is a count decremented at zero.
def release (refs : α → List Nat) : Nat → List Nat → Heap α → Option (Heap α)
  | _,[],h => some h
  | 0,_ :: _,_ => none
  | fuel+1,a :: rest,h => match h[a]? with
    | none => none
    | some c => match c.count with
      | 0 => none
      | 1 => release refs fuel (refs c.body ++ rest) (h.set a {c with count := 0})
      | n+2 => release refs fuel rest (h.set a {c with count := n+1})

def Intact (refs : α → List Nat) (h : Heap α) : Prop := ∀ b ∈ held refs h, 0 < countAt h b

instance (refs : α → List Nat) (h : Heap α) : Decidable (Intact refs h) :=
  inferInstanceAs (Decidable (∀ b ∈ held refs h, 0 < countAt h b))

def put (refs : α → List Nat) (a : Nat) (h : Heap α) : Except Violation (Heap α) :=
  match release refs (total h) [a] h with
  | none => .error .decrementedAtZero
  | some h' => if Intact refs h' then .ok h' else .error .freedInReach

def Accounted (refs : α → List Nat) (owned : List Nat) (h : Heap α) : Prop :=
  ∀ a, countAt h a = owned.count a + (held refs h).count a

-- Cells are made after what they refer to.
def Layered (refs : α → List Nat) (h : Heap α) : Prop :=
  ∀ (a : Nat) (c : Cell α), h[a]? = some c → ∀ b ∈ refs c.body, b < a

end

section
variable {α : Type} {refs : α → List Nat} {h h' : Heap α} {a b fuel : Nat} {c : Cell α} {w owned : List Nat}

theorem countAt_live (live : 0 < countAt h a) : ∃ c, h[a]? = some c ∧ c.count = countAt h a := by
  unfold countAt at live ⊢
  cases found : h[a]? with
  | none => simp [found] at live
  | some c => exact ⟨c,rfl,rfl⟩

theorem countAt_of (found : h[a]? = some c) : countAt h a = c.count := by
  simp [countAt,found]

theorem countAt_set (found : h[a]? = some c) (d : Cell α) (b : Nat) :
    countAt (h.set a d) b = if b = a then d.count else countAt h b := by
  obtain ⟨place,_⟩ := List.getElem?_eq_some_iff.mp found
  unfold countAt
  split
  · rename_i same
    subst same
    simp [place]
  · rename_i other
    rw [List.getElem?_set_ne (Ne.symm other)]

theorem held_set (found : h[a]? = some c) (d : Cell α) (b : Nat) :
    (held refs (h.set a d)).count b + (heldBy refs c).count b = (held refs h).count b + (heldBy refs d).count b := by
  induction h generalizing a with
  | nil => simp at found
  | cons first rest ih =>
    cases a with
    | zero =>
      cases found
      simp only [List.set_cons_zero,held,List.flatMap_cons,List.count_append]
      omega
    | succ a =>
      have later := ih found
      simp only [held,List.set_cons_succ,List.flatMap_cons,List.count_append] at later ⊢
      omega

theorem total_set (found : h[a]? = some c) (d : Cell α) : total (h.set a d) + c.count = total h + d.count := by
  induction h generalizing a with
  | nil => simp at found
  | cons first rest ih =>
    cases a with
    | zero =>
      cases found
      simp only [List.set_cons_zero,total,List.map_cons,List.sum_cons]
      omega
    | succ a =>
      have later := ih found
      simp only [total,List.set_cons_succ,List.map_cons,List.sum_cons] at later ⊢
      omega

theorem accounted_intact (accounted : Accounted refs owned h) : Intact refs h := by
  intro b member
  have positive := List.count_pos_iff.mpr member
  rw [accounted b]
  omega

theorem Accounted.perm (accounted : Accounted refs owned h) (same : owned.Perm owned') : Accounted refs owned' h := by
  intro a
  rw [← same.count_eq a]
  exact accounted a

theorem accounted_last (accounted : Accounted refs (a :: owned) h) (found : h[a]? = some c) (last : c.count = 1) :
    Accounted refs (refs c.body ++ owned) (h.set a {c with count := 0}) := by
  intro b
  have before := accounted b
  have moved : _ = (held refs h).count b + _ := held_set found {c with count := 0} b
  rw [countAt_set found]
  simp only [heldBy,last,Nat.one_ne_zero,if_false,if_true,List.count_nil] at moved
  rw [List.count_cons] at before
  rw [List.count_append]
  dsimp only
  split
  · rename_i same
    subst same
    rw [countAt_of found,last] at before
    simp only [beq_self_eq_true,if_true] at before
    omega
  · rename_i other
    rw [if_neg (by simpa using Ne.symm other)] at before
    omega

theorem accounted_shared (accounted : Accounted refs (a :: owned) h) (found : h[a]? = some c) (more : c.count = n+2) :
    Accounted refs owned (h.set a {c with count := n+1}) := by
  intro b
  have before := accounted b
  have moved : _ = (held refs h).count b + _ := held_set found {c with count := n+1} b
  rw [countAt_set found]
  simp only [heldBy,more,Nat.succ_ne_zero,if_false] at moved
  rw [List.count_cons] at before
  dsimp only
  split
  · rename_i same
    subst same
    rw [countAt_of found,more] at before
    simp only [beq_self_eq_true,if_true] at before
    omega
  · rename_i other
    rw [if_neg (by simpa using Ne.symm other)] at before
    omega

theorem accounted_owned (accounted : Accounted refs (a :: owned) h) : ∃ c, h[a]? = some c ∧ 0 < c.count := by
  have positive : 0 < countAt h a := by
    rw [accounted a]
    simp only [List.count_cons_self]
    omega
  obtain ⟨c,found,count⟩ := countAt_live positive
  exact ⟨c,found,count ▸ positive⟩

theorem total_pos (found : h[a]? = some c) (live : 0 < c.count) : 0 < total h := by
  have counted := total_set found {c with count := 0}
  dsimp only at counted
  omega

theorem release_accounted (enough : total h ≤ fuel) (accounted : Accounted refs (w ++ owned) h) :
    ∃ h', release refs fuel w h = some h' ∧ Accounted refs owned h' := by
  induction fuel generalizing w h with
  | zero =>
    cases w with
    | nil => exact ⟨h,by rw [release],accounted⟩
    | cons a rest =>
      obtain ⟨c,found,live⟩ := accounted_owned accounted
      have counted := total_pos found live
      omega
  | succ fuel ih =>
    cases w with
    | nil => exact ⟨h,by rw [release],accounted⟩
    | cons a rest =>
      obtain ⟨c,found,live⟩ := accounted_owned accounted
      unfold release
      simp only [found]
      split
      · omega
      · rename_i last
        have counted := total_set found {c with count := 0}
        dsimp only at counted
        refine ih (by omega) ?_
        rw [List.append_assoc]
        exact accounted_last accounted found last
      · rename_i n more
        have counted := total_set found {c with count := n+1}
        dsimp only at counted
        exact ih (by omega) (accounted_shared accounted found more)

theorem Layered.counted (layered : Layered refs h) (found : h[a]? = some c) (n : Nat) :
    Layered refs (h.set a {c with count := n}) := by
  intro b d here
  rcases Nat.decEq a b with other | same
  · rw [List.getElem?_set_ne other] at here
    exact layered b d here
  · subst same
    obtain ⟨place,_⟩ := List.getElem?_eq_some_iff.mp found
    rw [List.getElem?_set_self place] at here
    cases here
    exact layered a c found

theorem release_above (layered : Layered refs h) (above : ∀ b ∈ w, b < a) (released : release refs fuel w h = some h') :
    h'[a]? = h[a]? := by
  fun_induction release refs fuel w h with
  | case1 => cases released; rfl
  | case2 | case3 | case4 => cases released
  | case5 fuel b rest h c found last ih =>
    have under := above b (by simp)
    rw [ih (layered.counted found 0) (fun d member => ?_) released,List.getElem?_set_ne (by omega)]
    rcases List.mem_append.mp member with child | later
    · exact Nat.lt_trans (layered b c found d child) under
    · exact above d (by simp [later])
  | case6 fuel b rest h c found n more ih =>
    have under := above b (by simp)
    rw [ih (layered.counted found (n+1)) (fun d member => above d (by simp [member])) released,
      List.getElem?_set_ne (by omega)]

theorem release_lowers (released : release refs fuel w h = some h') : countAt h' b ≤ countAt h b := by
  have counted {h : Heap α} {a n : Nat} {c : Cell α} (found : h[a]? = some c) (less : n ≤ c.count) :
      countAt (h.set a {c with count := n}) b ≤ countAt h b := by
    rw [countAt_set found]
    split
    · rename_i same
      subst same
      rw [countAt_of found]
      exact less
    · exact Nat.le_refl _
  fun_induction release refs fuel w h with
  | case1 => cases released; exact Nat.le_refl _
  | case2 | case3 | case4 => cases released
  | case5 fuel a rest h c found last ih => exact Nat.le_trans (ih released) (counted found (by omega))
  | case6 fuel a rest h c found n more ih => exact Nat.le_trans (ih released) (counted found (by omega))

-- The last reference to a cell given up while a live cell made later holds it.
theorem put_held (layered : Layered refs h) (parent : h[b]? = some d) (live : 0 < d.count) (holds : a ∈ refs d.body)
    (last : countAt h a = 1) : ∃ v, put refs a h = .error v := by
  obtain ⟨c,found,count⟩ := countAt_live (by omega : 0 < countAt h a)
  have under : a < b := layered b d parent a holds
  unfold put
  cases released : release refs (total h) [a] h with
  | none => exact ⟨_,rfl⟩
  | some h' =>
    have once : c.count = 1 := count.trans last
    have positive := total_pos found (by omega)
    obtain ⟨fuel,turns⟩ : ∃ fuel, total h = fuel+1 := ⟨total h-1,by omega⟩
    rw [turns,release] at released
    simp only [found,once,List.append_nil] at released
    have gone : countAt h' a = 0 := by
      have lowered := release_lowers (b := a) released
      rw [countAt_set found] at lowered
      simpa using lowered
    have kept : h'[b]? = some d := by
      rw [release_above (layered.counted found 0) (fun e child => Nat.lt_trans (layered a c found e child) under) released,
        List.getElem?_set_ne (by omega),parent]
    refine ⟨.freedInReach,if_neg fun intact => ?_⟩
    have member : a ∈ held refs h' := by
      refine List.mem_flatMap.mpr ⟨d,List.mem_of_getElem? kept,?_⟩
      rw [heldBy,if_neg (by omega)]
      exact holds
    have safe := intact a member
    omega

theorem accounted_alloc (accounted : Accounted refs (refs body ++ owned) h) :
    Accounted refs (h.length :: owned) (h ++ [⟨1,body⟩]) := by
  intro b
  have before := accounted b
  have grown : held refs (h ++ [⟨1,body⟩]) = held refs h ++ refs body := by simp [held,heldBy]
  rw [grown,List.count_append,List.count_cons]
  rw [List.count_append] at before
  rcases Nat.lt_trichotomy b h.length with inside | same | outside
  · have old : countAt (h ++ [⟨1,body⟩]) b = countAt h b := by simp [countAt,List.getElem?_append_left inside]
    have other : (h.length == b) = false := by simpa using (Nat.ne_of_gt inside)
    rw [old,other,before]
    simp only [Bool.false_eq_true,if_false]
    omega
  · subst same
    have fresh : countAt h h.length = 0 := by simp [countAt]
    have new : countAt (h ++ [⟨1,body⟩]) h.length = 1 := by simp [countAt]
    rw [new]
    simp only [beq_self_eq_true,if_true]
    omega
  · have beyond : countAt (h ++ [⟨1,body⟩]) b = 0 := by
      have past : (h ++ [(⟨1,body⟩ : Cell α)]).length ≤ b := by simp; omega
      simp [countAt,List.getElem?_eq_none_iff.mpr past]
    have absent : countAt h b = 0 := by simp [countAt,List.getElem?_eq_none_iff.mpr (Nat.le_of_lt outside)]
    have other : (h.length == b) = false := by simpa using (Nat.ne_of_lt outside)
    rw [beyond,other]
    simp only [Bool.false_eq_true,if_false]
    omega

theorem layered_alloc (layered : Layered refs h) (below : ∀ b ∈ refs body, b < h.length) :
    Layered refs (h ++ [⟨1,body⟩]) := by
  intro a c found b member
  rcases Nat.lt_or_ge a h.length with inside | outside
  · rw [List.getElem?_append_left inside] at found
    exact layered a c found b member
  · rw [List.getElem?_append_right outside] at found
    cases place : a-h.length with
    | zero =>
      rw [place] at found
      cases found
      exact Nat.lt_of_lt_of_le (below b member) outside
    | succ n => rw [place] at found; cases found

theorem put_accounted (accounted : Accounted refs (a :: owned) h) :
    ∃ h', put refs a h = .ok h' ∧ Accounted refs owned h' := by
  obtain ⟨h',released,kept⟩ := release_accounted (w := [a]) (Nat.le_refl _) accounted
  refine ⟨h',?_,kept⟩
  unfold put
  rw [released]
  exact if_pos (accounted_intact kept)

end

end RefCount
