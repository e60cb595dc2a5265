import Mathlib.Data.List.Nodup

-- Arrivals with keys, and a store of bounded size for the first of each.
namespace Arrivals
variable {α κ : Type} (key : α → κ)

def Known (arrivals : List α) (k : κ) : Prop := ∃ x ∈ arrivals, key x = k

theorem known_cons (x : α) (rest : List α) (k : κ) : Known key (x :: rest) k ↔ key x = k ∨ Known key rest k := by
  simp [Known]

variable [DecidableEq κ]

instance (arrivals : List α) (k : κ) : Decidable (Known key arrivals k) :=
  inferInstanceAs (Decidable (∃ x ∈ arrivals, key x = k))

def firsts : List α → List α
  | [] => []
  | x :: rest => x :: (firsts rest).filter (key · ≠ key x)

theorem known_firsts (arrivals : List α) (k : κ) : Known key (firsts key arrivals) k ↔ Known key arrivals k := by
  induction arrivals with
  | nil => rfl
  | cons x rest ih =>
    rw [firsts,known_cons,known_cons,← ih]
    constructor
    · rintro (same | ⟨y,member,same⟩)
      · exact .inl same
      · exact .inr ⟨y,(List.mem_filter.mp member).1,same⟩
    · rintro (same | ⟨y,member,same⟩)
      · exact .inl same
      · by_cases again : key x = k
        · exact .inl again
        · refine .inr ⟨y,List.mem_filter.mpr ⟨member,?_⟩,same⟩
          rw [same]
          exact decide_eq_true (Ne.symm again)

theorem firsts_nodup (arrivals : List α) : ((firsts key arrivals).map key).Nodup := by
  induction arrivals with
  | nil => exact List.nodup_nil
  | cons x rest ih =>
    rw [firsts,List.map_cons,List.nodup_cons]
    constructor
    · intro member
      obtain ⟨y,kept,same⟩ := List.mem_map.mp member
      exact of_decide_eq_true (List.mem_filter.mp kept).2 same
    · exact ih.sublist (List.filter_sublist.map key)

theorem firsts_mem (member : x ∈ firsts key arrivals) : x ∈ arrivals := by
  induction arrivals with
  | nil => cases member
  | cons y rest ih =>
    rcases List.mem_cons.mp member with rfl | later
    · exact List.mem_cons_self
    · exact List.mem_cons_of_mem _ (ih (List.mem_filter.mp later).1)

theorem firsts_snoc (arrivals : List α) (x : α) : firsts key (arrivals ++ [x]) =
    if Known key arrivals (key x) then firsts key arrivals else firsts key arrivals ++ [x] := by
  induction arrivals with
  | nil => rfl
  | cons y rest ih =>
    rw [List.cons_append,firsts,ih,firsts]
    by_cases same : key y = key x
    · rw [if_pos ((known_cons ..).mpr (.inl same))]
      split
      · rfl
      · simp [same]
    · by_cases known : Known key rest (key x)
      · rw [if_pos known,if_pos ((known_cons ..).mpr (.inr known))]
      · rw [if_neg known,if_neg (fun either => ((known_cons ..).mp either).elim same known)]
        simp [Ne.symm same]

theorem firsts_extends (arrivals later : List α) : firsts key arrivals <+: firsts key (arrivals ++ later) := by
  induction later generalizing arrivals with
  | nil => exact ⟨[],by rw [List.append_nil,List.append_nil]⟩
  | cons x rest ih =>
    have step : firsts key arrivals <+: firsts key (arrivals ++ [x]) := by
      rw [firsts_snoc]
      split
      · exact ⟨[],List.append_nil _⟩
      · exact ⟨[x],rfl⟩
    have grown := step.trans (ih (arrivals ++ [x]))
    rwa [List.append_assoc] at grown

def held (size : Nat) (arrivals : List α) : List α := (firsts key arrivals).take size

theorem held_known (known : Known key (held key size arrivals) k) : Known key arrivals k := by
  obtain ⟨x,member,same⟩ := known
  exact (known_firsts ..).mp ⟨x,List.mem_of_mem_take member,same⟩

theorem held_repeated (known : Known key arrivals (key x)) : held key size (arrivals ++ [x]) = held key size arrivals := by
  unfold held
  rw [firsts_snoc,if_pos known]

theorem held_full (full : (held key size arrivals).length = size) :
    held key size (arrivals ++ [x]) = held key size arrivals := by
  have long : size ≤ (firsts key arrivals).length := by
    rw [← full]
    exact (List.take_sublist ..).length_le
  unfold held
  rw [firsts_snoc]
  split
  · rfl
  · exact List.take_append_of_le_length long

theorem held_room (new : ¬Known key arrivals (key x)) (room : (held key size arrivals).length < size) :
    held key size (arrivals ++ [x]) = held key size arrivals ++ [x] := by
  unfold held at room ⊢
  have short : (firsts key arrivals).length < size := by
    rw [List.length_take] at room
    omega
  rw [firsts_snoc,if_neg new,List.take_of_length_le (Nat.le_of_lt short),List.take_of_length_le]
  rw [List.length_append]
  exact short

theorem held_all (room : (held key size arrivals).length < size) :
    Known key (held key size arrivals) k ↔ Known key arrivals k := by
  unfold held at room ⊢
  have short : (firsts key arrivals).length < size := by
    rw [List.length_take] at room
    omega
  rw [List.take_of_length_le (Nat.le_of_lt short),known_firsts]

theorem held_nodup (size : Nat) (arrivals : List α) : ((held key size arrivals).map key).Nodup :=
  (firsts_nodup key arrivals).sublist ((List.take_sublist ..).map key)

theorem held_extends (size : Nat) (arrivals later : List α) :
    held key size arrivals <+: held key size (arrivals ++ later) := by
  obtain ⟨more,grown⟩ := firsts_extends key arrivals later
  unfold held
  rw [← grown,List.take_append]
  exact ⟨_,rfl⟩

end Arrivals
