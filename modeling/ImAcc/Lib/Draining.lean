import Mathlib.Algebra.Order.Ring.Int
import Mathlib.Data.List.Nodup

-- Queues of named entries with a time, drained of what is due: the earliest entry is
-- called, its call removes entries by their names, and it is itself renewed or removed.
namespace Draining
variable {α κ τ : Type} [LinearOrder τ]

structure Agenda (α κ τ : Type) [LinearOrder τ] where
  name : α → κ
  time : α → τ
  limit : τ
  renew : α → Option α
  renamed : ∀ a b, renew a = some b → name b = name a
  later : ∀ a b, renew a = some b → limit ≤ time b

namespace Agenda
variable (g : Agenda α κ τ)

def due (a : α) : Bool := g.time a < g.limit

-- Earlier in time, or at the same time and nearer the head of the queue.
def Precedes (queue : List α) (a b : α) : Prop :=
  g.time a < g.time b ∨ g.time a = g.time b ∧ [g.name a,g.name b].Sublist (queue.map g.name)

theorem Precedes.wider {g : Agenda α κ τ} (precedes : g.Precedes queue a b)
    (fewer : (queue.map g.name).Sublist (queue'.map g.name)) : g.Precedes queue' a b := by
  rcases precedes with earlier | ⟨same,order⟩
  · exact .inl earlier
  · exact .inr ⟨same,order.trans fewer⟩

variable [DecidableEq κ]

def turned (called : κ) (removed : List κ) (a : α) : Option α :=
  if g.name a ∈ removed then none else if g.name a = called then g.renew a else some a

def after (called : κ) (removed : List κ) (queue : List α) : List α := queue.filterMap (g.turned called removed)

inductive Drains : List α → List (α × List κ) → List α → Prop where
  | idle : (∀ a ∈ queue, g.due a = false) → Drains queue [] queue
  | turn : first ∈ queue → g.due first = true → (∀ a ∈ queue, g.name a ≠ g.name first → g.Precedes queue first a) →
      Drains (g.after (g.name first) removed queue) calls left → Drains queue ((first,removed) :: calls) left

def fate (calls : List (α × List κ)) (a : α) : Option α :=
  if ∃ c ∈ calls, g.name a ∈ c.2 then none
  else if g.name a ∈ calls.map fun c => g.name c.1 then g.renew a
  else some a

-- The due entries are called once each and in order, but for those that an earlier call
-- has removed; and every entry meets its fate where it stands.
structure Drained (queue : List α) (calls : List (α × List κ)) (left : List α) : Prop where
  due : ∀ c ∈ calls, c.1 ∈ queue ∧ g.due c.1 = true
  once : (calls.map fun c => g.name c.1).Nodup
  order : calls.Pairwise fun c d => g.Precedes queue c.1 d.1
  live : calls.Pairwise fun c d => g.name d.1 ∉ c.2
  missed : ∀ a ∈ queue, g.due a = true →
    (∃ c ∈ calls, c.1 = a) ∨ ∃ c ∈ calls, g.Precedes queue c.1 a ∧ g.name a ∈ c.2
  left : left = queue.filterMap (g.fate calls)

variable {g}

theorem turned_name (turned : g.turned called removed a = some b) : g.name b = g.name a := by
  unfold Agenda.turned at turned
  split at turned
  · cases turned
  · split at turned
    · exact g.renamed a b turned
    · cases turned
      rfl

theorem after_names (called : κ) (removed : List κ) (queue : List α) :
    ((g.after called removed queue).map g.name).Sublist (queue.map g.name) := by
  induction queue with
  | nil => exact .refl _
  | cons a rest ih =>
    unfold after at ih ⊢
    rw [List.filterMap_cons]
    split
    · exact ih.cons _
    · rename_i b turned
      rw [List.map_cons,List.map_cons,turned_name turned]
      exact ih.cons_cons _

theorem after_due (member : b ∈ g.after called removed queue) (due : g.due b = true) :
    b ∈ queue ∧ g.name b ≠ called ∧ g.name b ∉ removed := by
  obtain ⟨a,queued,turned⟩ := List.mem_filterMap.mp member
  unfold Agenda.turned at turned
  split at turned
  · cases turned
  · rename_i kept
    split at turned
    · exact absurd (of_decide_eq_true due) (not_lt.mpr (g.later a b turned))
    · rename_i other
      cases turned
      exact ⟨queued,other,kept⟩

theorem mem_after (member : a ∈ queue) (other : g.name a ≠ called) (kept : g.name a ∉ removed) :
    a ∈ g.after called removed queue := by
  refine List.mem_filterMap.mpr ⟨a,member,?_⟩
  unfold Agenda.turned
  rw [if_neg kept,if_neg other]

theorem after_atMost (called : κ) (removed : List κ) (queue : List α) :
    (g.after called removed queue).countP g.due ≤ queue.countP g.due := by
  unfold after
  rw [List.countP_filterMap]
  apply List.countP_mono_left
  intro a member counted
  cases turned : g.turned called removed a with
  | none =>
    rw [turned] at counted
    cases counted
  | some b =>
    rw [turned] at counted
    have here : b ∈ g.after called removed [a] := List.mem_filterMap.mpr ⟨a,List.mem_singleton.mpr rfl,turned⟩
    obtain ⟨single,_⟩ := after_due here counted
    rwa [← List.mem_singleton.mp single]

theorem after_fewer (member : first ∈ queue) (due : g.due first = true) (removed : List κ) :
    (g.after (g.name first) removed queue).countP g.due < queue.countP g.due := by
  obtain ⟨front,rear,rfl⟩ := List.append_of_mem member
  have called : (g.after (g.name first) removed [first]).countP g.due = 0 := by
    rw [List.countP_eq_zero]
    intro b member still
    obtain ⟨single,other,_⟩ := after_due member still
    exact other (congrArg g.name (List.mem_singleton.mp single))
  have split : g.after (g.name first) removed (front ++ first :: rear) = g.after (g.name first) removed front ++
      (g.after (g.name first) removed [first] ++ g.after (g.name first) removed rear) := by
    unfold after
    rw [← List.filterMap_append,← List.filterMap_append]
    rfl
  have before := after_atMost (g := g) (g.name first) removed front
  have behind := after_atMost (g := g) (g.name first) removed rear
  rw [split,List.countP_append,List.countP_append,List.countP_append,called,List.countP_cons_of_pos due]
  omega

theorem idle_drained (idle : ∀ a ∈ queue, g.due a = false) : g.Drained queue [] queue := by
  refine ⟨nofun,List.nodup_nil,.nil,.nil,?_,?_⟩
  · intro a member due
    rw [idle a member] at due
    cases due
  · have same : g.fate [] = some := by
      funext a
      simp [fate]
    rw [same,List.filterMap_some]

theorem fate_cons (fresh : g.name first ∉ calls.map fun c => g.name c.1) (removed : List κ) (a : α) :
    (g.turned (g.name first) removed a).bind (g.fate calls) = g.fate ((first,removed) :: calls) a := by
  by_cases now : g.name a ∈ removed
  · have gone : ∃ c ∈ (first,removed) :: calls, g.name a ∈ c.2 := ⟨_,List.mem_cons_self,now⟩
    unfold turned fate
    rw [if_pos now,if_pos gone]
    rfl
  · have later : (∃ c ∈ (first,removed) :: calls, g.name a ∈ c.2) ↔ ∃ c ∈ calls, g.name a ∈ c.2 := by
      rw [List.exists_mem_cons_iff]
      exact or_iff_right now
    by_cases here : g.name a = g.name first
    · have called : g.name a ∈ ((first,removed) :: calls).map fun c => g.name c.1 := by
        rw [here]
        exact List.mem_cons_self
      unfold turned
      rw [if_neg now,if_pos here,fate,if_pos called]
      simp only [later]
      cases renewed : g.renew a with
      | none => exact (ite_self none).symm
      | some b =>
        have absent : g.name a ∉ calls.map fun c => g.name c.1 := by
          rw [here]
          exact fresh
        rw [Option.bind_some,fate,g.renamed a b renewed,if_neg absent]
    · have called : (g.name a ∈ ((first,removed) :: calls).map fun c => g.name c.1) ↔
          g.name a ∈ calls.map fun c => g.name c.1 := by
        rw [List.map_cons,List.mem_cons]
        exact or_iff_right here
      unfold turned
      rw [if_neg now,if_neg here,Option.bind_some,fate,fate]
      simp only [later,called]

theorem drained_turn (drained : g.Drained (g.after (g.name first) removed queue) calls left)
    (distinct : (queue.map g.name).Nodup) (member : first ∈ queue) (due : g.due first = true)
    (least : ∀ a ∈ queue, g.name a ≠ g.name first → g.Precedes queue first a) :
    g.Drained queue ((first,removed) :: calls) left := by
  have known (c) (called : c ∈ calls) := after_due (drained.due c called).1 (drained.due c called).2
  have fewer := after_names (g := g) (g.name first) removed queue
  have fresh : g.name first ∉ calls.map fun c => g.name c.1 := by
    intro again
    obtain ⟨c,called,same⟩ := List.mem_map.mp again
    exact (known c called).2.1 same
  refine ⟨?_,?_,?_,?_,?_,?_⟩
  · rw [List.forall_mem_cons]
    exact ⟨⟨member,due⟩,fun c called => ⟨(known c called).1,(drained.due c called).2⟩⟩
  · exact List.nodup_cons.mpr ⟨fresh,drained.once⟩
  · refine List.pairwise_cons.mpr ⟨?_,drained.order.imp fun precedes => precedes.wider fewer⟩
    exact fun c called => least c.1 (known c called).1 (known c called).2.1
  · exact List.pairwise_cons.mpr ⟨fun c called => (known c called).2.2,drained.live⟩
  · intro a queued awaited
    by_cases here : g.name a = g.name first
    · exact .inl ⟨_,List.mem_cons_self,List.inj_on_of_nodup_map distinct member queued here.symm⟩
    · by_cases now : g.name a ∈ removed
      · exact .inr ⟨_,List.mem_cons_self,least a queued here,now⟩
      · rcases drained.missed a (mem_after queued here now) awaited with ⟨c,called,same⟩ | ⟨c,called,precedes,gone⟩
        · exact .inl ⟨c,List.mem_cons_of_mem _ called,same⟩
        · exact .inr ⟨c,List.mem_cons_of_mem _ called,precedes.wider fewer,gone⟩
  · rw [drained.left,after,List.filterMap_filterMap]
    exact List.filterMap_congr fun a _ => fate_cons fresh removed a

theorem Drains.drained (drains : g.Drains queue calls left) (distinct : (queue.map g.name).Nodup) :
    g.Drained queue calls left := by
  induction drains with
  | idle idle => exact idle_drained idle
  | turn member due least _ ih => exact drained_turn (ih (distinct.sublist (after_names ..))) distinct member due least

end Agenda
end Draining
