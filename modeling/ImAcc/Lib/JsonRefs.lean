import ImAcc.Lib.Json
import ImAcc.Lib.RefCount

-- JSON values as counted objects, by the ownership rules json-c documents: a getter
-- lends a reference, an add takes the caller's over, a put gives one up.
namespace JsonC
open RefCount

inductive Node where
  | leaf (value : Json)
  | array (items : List (Option Nat))
  | object (members : List (Bytes × Option Nat))

def Node.refs : Node → List Nat
  | .leaf _ => []
  | .array items => items.filterMap id
  | .object members => members.filterMap Prod.snd

abbrev Objects := Heap Node

-- Objects of a parsed text, each held by its parent; the NULL pointer is none.
mutual
def load : Json → Objects → Option Nat × Objects
  | .null,h => (none,h)
  | .array items,h =>
    let made := loadItems items h
    (some made.2.length,made.2 ++ [⟨1,.array made.1⟩])
  | .object members,h =>
    let made := loadMembers members h
    (some made.2.length,made.2 ++ [⟨1,.object made.1⟩])
  | value,h => (some h.length,h ++ [⟨1,.leaf value⟩])
def loadItems : List Json → Objects → List (Option Nat) × Objects
  | [],h => ([],h)
  | item :: rest,h =>
    let made := load item h
    let others := loadItems rest made.2
    (made.1 :: others.1,others.2)
def loadMembers : List (Bytes × Json) → Objects → List (Bytes × Option Nat) × Objects
  | [],h => ([],h)
  | member :: rest,h =>
    let made := loadMember member h
    let others := loadMembers rest made.2
    (made.1 :: others.1,others.2)
def loadMember : Bytes × Json → Objects → (Bytes × Option Nat) × Objects
  | (key,value),h =>
    let made := load value h
    ((key,made.1),made.2)
end

abbrev Handling (α : Type) := StateT Objects (Except Violation) α

def parsed (value : Json) : Handling (Option Nat) := fun h => .ok (load value h)
def newObject (body : Node) : Handling Nat := fun h => .ok (h.length,h ++ [⟨1,body⟩])

def objectPut : Option Nat → Handling Unit
  | none => pure ()
  | some a => fun h => (put Node.refs a h).map fun h => ((),h)

def Node.member (key : Bytes) : Node → Option Nat
  | .object members => (members.lookup key).join
  | _ => none

def memberOf (h : Objects) (a : Nat) (key : Bytes) : Option Nat := h[a]?.bind fun c => c.body.member key

def Node.item (index : Nat) : Node → Option Nat
  | .array items => items[index]?.join
  | _ => none

def objectGet (a : Nat) (key : Bytes) : Handling (Option Nat) := fun h => .ok (memberOf h a key,h)
def arrayGetIdx (a index : Nat) : Handling (Option Nat) := fun h => .ok (h[a]?.bind fun c => c.body.item index,h)

def Node.length : Node → Nat
  | .array items => items.length
  | _ => 0

def arrayLength (a : Nat) : Handling Nat := fun h => .ok ((h[a]?.map fun c => c.body.length).getD 0,h)

def edit (a : Nat) (change : Node → Node) : Handling Unit := fun h =>
  let changed := h.modify a fun c => {c with body := change c.body}
  if Intact Node.refs changed then .ok ((),changed) else .error .freedInReach

def objectAdd (a : Nat) (key : Bytes) (value : Option Nat) : Handling Unit := do
  let old ← objectGet a key
  edit a fun
    | .object members => .object (Json.membersAdd key value members)
    | other => other
  objectPut old

def objectDel (a : Nat) (key : Bytes) : Handling Unit := do
  let old ← objectGet a key
  edit a fun
    | .object members => .object (members.filter (·.1 ≠ key))
    | other => other
  objectPut old

def arrayAdd (a : Nat) (value : Option Nat) : Handling Unit :=
  edit a fun
    | .array items => .array (items ++ [value])
    | other => other

structure Loaded (h : Objects) (made : List Nat) (h' : Objects) : Prop where
  grown : ∃ fresh, h' = h ++ fresh ∧ ∀ c ∈ fresh, c.count = 1
  below : ∀ a ∈ made, a < h'.length
  layered : Layered Node.refs h → Layered Node.refs h'
  accounted : ∀ owned, Accounted Node.refs owned h → Accounted Node.refs (made ++ owned) h'

theorem Loaded.refl (h : Objects) : Loaded h [] h :=
  ⟨⟨[],by simp,nofun⟩,nofun,id,fun _ accounted => accounted⟩

theorem Loaded.trans (first : Loaded h made mid) (others : Loaded mid made' h') : Loaded h (made ++ made') h' := by
  obtain ⟨fresh,grown,once⟩ := first.grown
  obtain ⟨fresh',grown',once'⟩ := others.grown
  refine ⟨⟨fresh ++ fresh',by rw [grown',grown,List.append_assoc],?_⟩,?_,others.layered ∘ first.layered,?_⟩
  · intro c member
    rcases List.mem_append.mp member with early | late
    · exact once c early
    · exact once' c late
  · intro a member
    rcases List.mem_append.mp member with early | late
    · have under := first.below a early
      rw [grown',List.length_append]
      omega
    · exact others.below a late
  · intro owned accounted
    have order : (made' ++ (made ++ owned)).Perm (made ++ made' ++ owned) := by
      rw [List.append_assoc]
      exact List.perm_append_comm_assoc ..
    exact (others.accounted _ (first.accounted owned accounted)).perm order

theorem Loaded.alloc (made : Loaded h (Node.refs body) mid) : Loaded h [mid.length] (mid ++ [⟨1,body⟩]) := by
  obtain ⟨fresh,grown,once⟩ := made.grown
  refine ⟨⟨fresh ++ [⟨1,body⟩],by rw [grown,List.append_assoc],?_⟩,by simp,?_,?_⟩
  · intro c member
    rcases List.mem_append.mp member with early | late
    · exact once c early
    · cases List.mem_singleton.mp late; rfl
  · intro layered
    exact layered_alloc (made.layered layered) made.below
  · intro owned accounted
    exact accounted_alloc (made.accounted owned accounted)

mutual
theorem load_loaded : ∀ (v : Json) (h : Objects), Loaded h (load v h).1.toList (load v h).2
  | .null,h => .refl h
  | .array items,h => (loadItems_loaded items h).alloc
  | .object members,h => (loadMembers_loaded members h).alloc
  | .boolean _,h | .int _,h | .double _ _,h | .string _,h => (Loaded.refl h).alloc
theorem loadItems_loaded : ∀ (items : List Json) (h : Objects),
    Loaded h (Node.refs (.array (loadItems items h).1)) (loadItems items h).2
  | [],h => .refl h
  | item :: rest,h => by
    have split : Node.refs (.array (loadItems (item :: rest) h).1) =
        (load item h).1.toList ++ Node.refs (.array (loadItems rest (load item h).2).1) := by
      cases found : (load item h).1 <;> simp [loadItems,Node.refs,found]
    rw [split]
    exact (load_loaded item h).trans (loadItems_loaded rest _)
theorem loadMembers_loaded : ∀ (members : List (Bytes × Json)) (h : Objects),
    Loaded h (Node.refs (.object (loadMembers members h).1)) (loadMembers members h).2
  | [],h => .refl h
  | (key,value) :: rest,h => by
    have split : Node.refs (.object (loadMembers ((key,value) :: rest) h).1) =
        (load value h).1.toList ++ Node.refs (.object (loadMembers rest (load value h).2).1) := by
      cases found : (load value h).1 <;> simp [loadMembers,loadMember,Node.refs,found]
    rw [split]
    exact (load_loaded value h).trans (loadMembers_loaded rest _)
end

theorem memberOf_ref (found : memberOf h a key = some b) : ∃ c, h[a]? = some c ∧ b ∈ Node.refs c.body := by
  obtain ⟨c,here,member⟩ := Option.bind_eq_some_iff.mp found
  refine ⟨c,here,?_⟩
  unfold Node.member at member
  split at member
  · rename_i members body
    have looked := Option.join_eq_some_iff.mp member
    obtain ⟨before,after,split,_⟩ := List.lookup_eq_some_iff.mp looked
    rw [body,split]
    exact List.mem_filterMap.mpr ⟨(key,some b),by simp,rfl⟩
  · cases member

theorem Loaded.grows (made : Loaded h refs h') : h <+: h' := by
  obtain ⟨fresh,grown,_⟩ := made.grown
  exact ⟨fresh,grown.symm⟩

def Holds (h : Objects) (v : Json) (p : Option Nat) : Prop := ∃ g, (load v g).1 = p ∧ (load v g).2 <+: h

theorem loadMembers_lookup (members : List (Bytes × Json)) (g : Objects) (key : Bytes) :
    (members.lookup key = none → (loadMembers members g).1.lookup key = none) ∧
    ∀ u, members.lookup key = some u → ∃ g', (loadMembers members g).1.lookup key = some (load u g').1 ∧
      (load u g').2 <+: (loadMembers members g).2 := by
  induction members generalizing g with
  | nil => exact ⟨fun _ => rfl,nofun⟩
  | cons member rest ih =>
    obtain ⟨name,value⟩ := member
    obtain ⟨absent,present⟩ := ih (load value g).2
    have after : (load value g).2 <+: (loadMembers ((name,value) :: rest) g).2 := (loadMembers_loaded rest _).grows
    simp only [loadMembers,loadMember,List.lookup_cons]
    cases key == name with
    | true => exact ⟨nofun,fun u same => by cases same; exact ⟨g,rfl,after⟩⟩
    | false => exact ⟨absent,present⟩

theorem load_nonNull (found : v.nonNull = some u) (g : Objects) : u = v ∧ ∃ b, (load v g).1 = some b := by
  cases v <;> cases found <;> exact ⟨rfl,_,rfl⟩

theorem Holds.node (holds : Holds h (.object members) (some a)) : ∃ g c, h[a]? = some c ∧
    c.body = .object (loadMembers members g).1 ∧ (loadMembers members g).2 <+: h := by
  obtain ⟨g,same,rest,rfl⟩ := holds
  cases same
  refine ⟨g,⟨1,.object (loadMembers members g).1⟩,?_,rfl,?_⟩
  · simp [load]
  · simp [load]

theorem Holds.other (holds : Holds h v (some a)) (scalar : ∀ members, v ≠ .object members) : memberOf h a key = none := by
  obtain ⟨g,same,rest,rfl⟩ := holds
  cases v with
  | object members => exact absurd rfl (scalar members)
  | null => cases same
  | array | boolean | int | double | string => cases same; simp [load,memberOf,Node.member]

theorem Holds.member (holds : Holds h v (some a)) (key : Bytes) : (v.objectGet key = none → memberOf h a key = none) ∧
    ∀ u, v.objectGet key = some u → ∃ b, memberOf h a key = some b ∧ Holds h u (some b) := by
  cases v with
  | object members =>
    obtain ⟨g,c,found,body,before⟩ := holds.node
    obtain ⟨absent,present⟩ := loadMembers_lookup members g key
    have read : memberOf h a key = ((loadMembers members g).1.lookup key).join := by
      simp [memberOf,found,body,Node.member]
    rw [read]
    simp only [Json.objectGet]
    cases looked : members.lookup key with
    | none => simp [absent looked]
    | some value =>
      obtain ⟨g',stored,inside⟩ := present value looked
      rw [stored]
      constructor
      · intro null
        cases value <;> first | rfl | cases null
      · intro u found
        obtain ⟨rfl,b,pointer⟩ := load_nonNull found g'
        exact ⟨b,pointer,g',pointer,inside.trans before⟩
  | null => obtain ⟨g,same,_⟩ := holds; cases same
  | array | boolean | int | double | string =>
    constructor
    · intro _
      apply holds.other
      intro members same
      cases same
    · intro u found
      cases found

end JsonC
