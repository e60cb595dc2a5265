import Mathlib.Data.List.Basic

-- Append-only journals.
namespace Journal
variable {ε β : Type}

def Due (rule : List ε → ε → Prop) (log : List ε) : Prop :=
  ∀ before entry after, log = before ++ entry :: after → rule before entry

theorem due_nil (rule : List ε → ε → Prop) : Due rule [] := by
  intro before entry after impossible
  cases before <;> cases impossible

theorem due_snoc {rule : List ε → ε → Prop} : Due rule (log ++ [entry]) ↔ Due rule log ∧ rule log entry := by
  constructor
  · intro due
    refine ⟨fun before e after here => ?_,due log entry [] rfl⟩
    exact due before e (after ++ [entry]) (by rw [here,List.append_assoc]; rfl)
  · rintro ⟨due,last⟩ before e after here
    rcases List.eq_nil_or_concat after with rfl | ⟨front,last',rfl⟩
    · obtain ⟨rfl,same⟩ := List.append_inj' here rfl
      cases same
      exact last
    · rw [List.concat_eq_append,← List.cons_append,← List.append_assoc] at here
      exact due before e front (List.append_inj' here rfl).1

theorem Due.mono {rule weaker : List ε → ε → Prop} (due : Due rule log)
    (weaken : ∀ before entry, rule before entry → weaker before entry) : Due weaker log :=
  fun before entry after here => weaken before entry (due before entry after here)

def latest (read : ε → Option β) (log : List ε) : Option β := log.reverse.findSome? read

@[simp] theorem latest_nil (read : ε → Option β) : latest read [] = none := rfl

theorem latest_append (read : ε → Option β) (log added : List ε) :
    latest read (log ++ added) = (latest read added).or (latest read log) := by
  rw [latest,List.reverse_append,List.findSome?_append]
  rfl

@[simp] theorem latest_snoc (read : ε → Option β) (log : List ε) (entry : ε) :
    latest read (log ++ [entry]) = (read entry).or (latest read log) := by
  rw [latest_append,latest,List.reverse_singleton,List.findSome?_singleton]

end Journal
