import ImAcc.MsgHandle

-- im_get_if_dbytes as a lookup: what it answers for a list of interfaces.
namespace ImAcc
open JsonC

def Ifaddr.compared (ifa : Ifaddr) : Bool := (ifa.up || ifa.running) && ifa.data.isSome

def Ifaddr.offers (ifname : Bytes) (ifa : Ifaddr) : Option Nat :=
  if ifa.up ∨ ifa.running then if ifa.name = ifname then ifa.data else none else none

theorem Ifaddr.offers_compared (offered : Ifaddr.offers ifname ifa = some counter) : ifa.compared = true := by
  unfold Ifaddr.offers at offered
  split at offered
  · rename_i active
    split at offered
    · unfold Ifaddr.compared
      rw [offered]
      simpa using active
    · cases offered
  · cases offered

theorem ifaScan_cons (ifname : Bytes) (ifa : Ifaddr) (rest : List Ifaddr) (obytes : Nat) (ret : Int) :
    ifaScan ifname (ifa :: rest) obytes ret =
      match ifa.offers ifname with
      | some counter => (counter,0)
      | none => ifaScan ifname rest obytes (if ifa.compared then 1 else ret) := by
  rw [ifaScan.eq_2]
  unfold Ifaddr.offers Ifaddr.compared
  by_cases active : ifa.up = true ∨ ifa.running = true
  · have used : ¬(¬ifa.up = true ∧ ¬ifa.running = true) := by
      rw [← not_or,not_not]
      exact active
    rw [if_neg used,if_pos active,Bool.or_eq_true_iff.mpr active,Bool.true_and]
    cases data : ifa.data with
    | none =>
      rw [ite_self]
      rfl
    | some counter =>
      by_cases same : ifa.name = ifname
      · simp only [if_pos same]
      · simp only [if_neg same]
        rfl
  · rw [if_pos (not_or.mp active),if_neg active]
    have idle : (ifa.up || ifa.running) = false := by
      rw [← Bool.not_eq_true,Bool.or_eq_true_iff]
      exact active
    rw [idle]
    rfl

-- The loop finds the first entry on offer; with none, ret is left by the last comparison.
theorem ifaScan_result (ifname : Bytes) (list : List Ifaddr) (obytes : Nat) (ret : Int) :
    ifaScan ifname list obytes ret =
      match list.findSome? (Ifaddr.offers ifname) with
      | some counter => (counter,0)
      | none => (obytes,if list.any Ifaddr.compared then 1 else ret) := by
  induction list generalizing ret with
  | nil => rfl
  | cons ifa rest ih =>
    rw [ifaScan_cons,List.findSome?_cons,List.any_cons]
    cases offered : ifa.offers ifname with
    | some counter => rfl
    | none =>
      dsimp only
      rw [ih]
      cases found : rest.findSome? (Ifaddr.offers ifname) with
      | some counter => rfl
      | none =>
        dsimp only
        cases here : ifa.compared <;> cases later : rest.any Ifaddr.compared <;> rfl

theorem imGetIfDbytes_result (list : List Ifaddr) (ifname : Bytes) (obytes : Nat) :
    imGetIfDbytes (some list) ifname obytes =
      match list.findSome? (Ifaddr.offers ifname) with
      | some counter => (counter,msgCodeSucess)
      | none => (obytes,if list.any Ifaddr.compared then msgCodeUnknown else msgCodeSucess) := by
  unfold imGetIfDbytes
  dsimp only
  rw [ifaScan_result]
  cases list.findSome? (Ifaddr.offers ifname) with
  | some counter => rfl
  | none => cases list.any Ifaddr.compared <;> rfl

structure LookupRight (list : List Ifaddr) (ifname : Bytes) (obytes : Nat) : Prop where
  success : (imGetIfDbytes (some list) ifname obytes).2 = msgCodeSucess ↔ ∃ ifa ∈ list, (ifa.offers ifname).isSome = true
  counter : ∀ c, list.findSome? (Ifaddr.offers ifname) = some c → (imGetIfDbytes (some list) ifname obytes).1 = c
  unchanged : (∀ ifa ∈ list, ifa.offers ifname = none) → (imGetIfDbytes (some list) ifname obytes).1 = obytes

theorem findSome_offered (list : List Ifaddr) (ifname : Bytes) :
    (list.findSome? (Ifaddr.offers ifname)).isSome = true ↔ ∃ ifa ∈ list, (ifa.offers ifname).isSome = true := by
  rw [List.findSome?_isSome_iff]

-- The lookup is right exactly for the lists in which some name is compared.
theorem lookupRight_exact (list : List Ifaddr) (ifname : Bytes) (obytes : Nat) :
    LookupRight list ifname obytes ↔ ∃ ifa ∈ list, (ifa.up ∨ ifa.running) ∧ ifa.data.isSome := by
  have compared : list.any Ifaddr.compared = true ↔ ∃ ifa ∈ list, (ifa.up ∨ ifa.running) ∧ ifa.data.isSome := by
    simp [Ifaddr.compared]
  rw [← compared]
  have result := imGetIfDbytes_result list ifname obytes
  have offered := findSome_offered list ifname
  cases found : list.findSome? (Ifaddr.offers ifname) with
  | some counter =>
    rw [found] at result offered
    obtain ⟨ifa,member,offers⟩ := offered.mp rfl
    obtain ⟨c,offers⟩ := Option.isSome_iff_exists.mp offers
    have any : list.any Ifaddr.compared = true := List.any_eq_true.mpr ⟨ifa,member,Ifaddr.offers_compared offers⟩
    refine ⟨fun _ => any,fun _ => ⟨?_,?_,?_⟩⟩
    · rw [result]
      exact iff_of_true rfl (offered.mp rfl)
    · intro c' same
      rw [found] at same
      rw [result]
      exact Option.some.inj same
    · intro silent
      rw [silent ifa member] at offers
      cases offers
  | none =>
    rw [found] at result offered
    have silent : ¬∃ ifa ∈ list, (ifa.offers ifname).isSome = true := fun there => absurd (offered.mpr there) (by simp)
    constructor
    · intro right
      by_contra skipped
      rw [if_neg skipped] at result
      exact silent (right.success.mp (by rw [result]))
    · intro any
      rw [if_pos any] at result
      refine ⟨?_,?_,?_⟩
      · rw [result]
        dsimp only
        exact iff_of_false (by decide) silent
      · intro c same
        rw [found] at same
        cases same
      · intro _
        rw [result]

-- eth1 is down: the figure that was there is taken for a counter.
theorem lookupRight_skipped : ¬LookupRight [⟨false,false,wanIfname,some 5⟩] wanIfname 7 := by
  intro right
  obtain ⟨ifa,member,offers⟩ := right.success.mp (by decide)
  cases List.mem_singleton.mp member
  exact absurd offers (by decide)

end ImAcc
