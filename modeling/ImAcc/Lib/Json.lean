import Mathlib.Algebra.Order.Ring.Int

-- JSON values as json-c hands them to its caller; a parsed string may hold a NUL.
namespace JsonC

abbrev Bytes := List UInt8

def bytes (text : String) : Bytes := text.toUTF8.data.toList

-- What a char pointer to these bytes denotes.
def cString (s : Bytes) : Bytes := s.takeWhile (· ≠ 0)

theorem cString_clean (clean : (0 : UInt8) ∉ data) (rest : Bytes) : cString (data ++ rest) = data ++ cString rest := by
  unfold cString
  refine List.takeWhile_append_of_pos fun b member => ?_
  simp only [ne_eq,decide_not,Bool.not_eq_true',decide_eq_false_iff_not]
  rintro rfl
  exact clean member

theorem cString_whole (clean : (0 : UInt8) ∉ text) : cString text = text := by
  have whole := cString_clean clean []
  rw [List.append_nil] at whole
  exact whole.trans (List.append_nil text)

def decimal (i : Int) : Bytes := bytes (toString i)

-- A double is kept as what its readers see: its integer part and its text.
inductive Json where
  | null
  | boolean (value : Bool)
  | int (value : Int)
  | double (truncated : Int) (text : Bytes)
  | string (value : Bytes)
  | array (items : List Json)
  | object (members : List (Bytes × Json))

namespace Json

-- json-c represents null by the NULL pointer, so a getter cannot tell it from a missing key.
def nonNull : Json → Option Json
  | .null => none
  | value => some value

def objectGet (key : Bytes) : Json → Option Json
  | .object members => (members.lookup key).bind nonNull
  | _ => none

def arrayGetIdx (index : Nat) : Json → Option Json
  | .array items => items[index]?.bind nonNull
  | _ => none

def arrayLength : Json → Nat
  | .array items => items.length
  | _ => 0

def isSpace (b : UInt8) : Bool := b = 32 || (9 ≤ b && b ≤ 13)
def isDigit (b : UInt8) : Bool := 48 ≤ b && b ≤ 57

def clamp (bits : Nat) (value : Int) : Int := max (-2^(bits-1)) (min value (2^(bits-1)-1))

def digitsValue (digits : Bytes) : Int := digits.foldl (fun value d => value*10 + (d.toNat-48 : Int)) 0

-- json_parse_int64: leading blanks, a sign, at least one digit; out of range saturates.
def parseInt64 (s : Bytes) : Option Int :=
  let trimmed := (cString s).dropWhile isSpace
  let negative := trimmed.head? = some 45
  let unsigned := if negative ∨ trimmed.head? = some 43 then trimmed.drop 1 else trimmed
  let digits := unsigned.takeWhile isDigit
  if digits = [] then none
  else some (clamp 64 (if negative then -digitsValue digits else digitsValue digits))

def getInt64 : Json → Int
  | .int value => value
  | .double truncated _ => clamp 64 truncated
  | .boolean value => if value then 1 else 0
  | .string s => (parseInt64 s).getD 0
  | _ => 0

def getInt (value : Json) : Int := clamp 32 value.getInt64

def hexDigit (n : Nat) : UInt8 := (if n < 10 then 48+n else 87+n).toUInt8

def escape (b : UInt8) : Bytes :=
  if b = 34 then bytes "\\\"" else if b = 92 then bytes "\\\\" else if b = 47 then bytes "\\/"
  else if b = 8 then bytes "\\b" else if b = 10 then bytes "\\n" else if b = 13 then bytes "\\r"
  else if b = 9 then bytes "\\t" else if b = 12 then bytes "\\f"
  else if b < 32 then bytes "\\u00" ++ [hexDigit (b.toNat/16),hexDigit (b.toNat%16)]
  else [b]

def quote (s : Bytes) : Bytes := 34 :: (s.flatMap escape ++ [34])

-- json_object_to_json_string, the default spaced layout.
mutual
def toText : Json → Bytes
  | .null => bytes "null"
  | .boolean value => if value then bytes "true" else bytes "false"
  | .int value => decimal value
  | .double _ text => text
  | .string s => quote s
  | .array items => bytes "[" ++ itemsText items ++ bytes " ]"
  | .object members => bytes "\x7b" ++ membersText members ++ bytes " \x7d"
def itemsText : List Json → Bytes
  | [] => []
  | [item] => bytes " " ++ toText item
  | item :: next :: rest => bytes " " ++ toText item ++ bytes "," ++ itemsText (next :: rest)
def membersText : List (Bytes × Json) → Bytes
  | [] => []
  | [member] => memberText member
  | member :: next :: rest => memberText member ++ bytes "," ++ membersText (next :: rest)
def memberText : Bytes × Json → Bytes
  | (key,value) => bytes " " ++ quote key ++ bytes ": " ++ toText value
end

def getString : Json → Bytes
  | .string s => cString s
  | value => cString (toText value)

-- object_add keeps the position of a key that exists and releases its old value.
def membersAdd {α : Type} (key : Bytes) (value : α) : List (Bytes × α) → List (Bytes × α)
  | [] => [(key,value)]
  | (k,old) :: rest => if k = key then (k,value) :: rest else (k,old) :: membersAdd key value rest

def objectAdd (obj : Json) (key : Bytes) (value : Json) : Json :=
  match obj with
  | .object members => .object (membersAdd key value members)
  | other => other

def objectDel (key : Bytes) : Json → Json
  | .object members => .object (members.filter (·.1 ≠ key))
  | other => other

theorem lookup_membersAdd {α : Type} (key : Bytes) (value : α) (members : List (Bytes × α)) (k : Bytes) :
    (membersAdd key value members).lookup k = if k = key then some value else members.lookup k := by
  have other {a b : Bytes} (apart : a ≠ b) : (a == b) = false := beq_eq_false_iff_ne.mpr apart
  induction members with
  | nil =>
    by_cases here : k = key
    · simp [membersAdd,here]
    · simp [membersAdd,List.lookup_cons,here,other here]
  | cons member rest ih =>
    obtain ⟨name,old⟩ := member
    unfold membersAdd
    by_cases same : name = key
    · subst same
      by_cases here : k = name
      · simp [here]
      · simp [List.lookup_cons,here,other here]
    · rw [if_neg same,List.lookup_cons,List.lookup_cons,ih]
      by_cases here : k = name
      · subst here
        simp [same]
      · simp [other here]

theorem mem_membersAdd {α : Type} {key : Bytes} {value : α} {members : List (Bytes × α)} {member : Bytes × α}
    (inside : member ∈ membersAdd key value members) : member = (key,value) ∨ member ∈ members := by
  induction members with
  | nil => exact .inl (List.mem_singleton.mp inside)
  | cons first rest ih =>
    unfold membersAdd at inside
    split at inside
    · rename_i same
      rcases List.mem_cons.mp inside with rfl | later
      · exact .inl (congrArg (·,value) same)
      · exact .inr (List.mem_cons_of_mem _ later)
    · rcases List.mem_cons.mp inside with rfl | later
      · exact .inr List.mem_cons_self
      · exact (ih later).imp_right (List.mem_cons_of_mem _)

theorem objectGet_objectAdd (members : List (Bytes × Json)) (key : Bytes) (value : Json) (k : Bytes) :
    objectGet k (objectAdd (.object members) key value) =
      if k = key then nonNull value else objectGet k (.object members) := by
  simp only [objectAdd,objectGet,lookup_membersAdd]
  split <;> rfl

end Json
end JsonC
