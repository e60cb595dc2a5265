import ImAcc.Lib.Json
import Mathlib.Data.List.TakeWhile

-- The texts of RFC 8259, read one byte at a time; a repeated name replaces its value.
namespace JsonText
open JsonC

inductive Value where
  | null
  | boolean (value : Bool)
  | number (text : Bytes)
  | string (text : Bytes)
  | array (items : List Value)
  | object (members : List (Bytes × Value))

inductive Piece where
  | byte (b : UInt8)
  | unit (code : UInt16)

def utf8 (code : Nat) : Bytes :=
  if code < 0x80 then [code.toUInt8]
  else if code < 0x800 then [(0xC0+code/64).toUInt8,(0x80+code%64).toUInt8]
  else if code < 0x10000 then [(0xE0+code/4096).toUInt8,(0x80+code/64%64).toUInt8,(0x80+code%64).toUInt8]
  else [(0xF0+code/262144).toUInt8,(0x80+code/4096%64).toUInt8,(0x80+code/64%64).toUInt8,(0x80+code%64).toUInt8]

def isHigh (code : UInt16) : Bool := 0xD800 ≤ code && code < 0xDC00
def isLow (code : UInt16) : Bool := 0xDC00 ≤ code && code < 0xE000

-- A surrogate on its own is no character and reads as the replacement character.
def replacement : Bytes := utf8 0xFFFD

def lone : Option UInt16 → Bytes
  | none => []
  | some _ => replacement

def paired (low : UInt16) : Option UInt16 → Bytes
  | none => replacement
  | some high => utf8 (0x10000+(high.toNat-0xD800)*1024+(low.toNat-0xDC00))

-- high is a surrogate that still waits for its second half.
def decodeAfter (high : Option UInt16) : List Piece → Bytes
  | [] => lone high
  | .byte b :: rest => lone high ++ b :: decodeAfter none rest
  | .unit code :: rest =>
    if isHigh code then lone high ++ decodeAfter (some code) rest
    else if isLow code then paired code high ++ decodeAfter none rest
    else lone high ++ utf8 code.toNat ++ decodeAfter none rest

def decode (pieces : List Piece) : Bytes := decodeAfter none pieces

inductive NumberPlace where
  | minus | zero | whole | point | fraction | exponent | sign | power

def isExponent (b : UInt8) : Bool := b = 101 || b = 69

def NumberPlace.next : NumberPlace → UInt8 → Option NumberPlace
  | .minus,b => if b = 48 then some .zero else if Json.isDigit b then some .whole else none
  | .zero,b => if b = 46 then some .point else if isExponent b then some .exponent else none
  | .whole,b =>
    if Json.isDigit b then some .whole
    else if b = 46 then some .point else if isExponent b then some .exponent else none
  | .point,b => if Json.isDigit b then some .fraction else none
  | .fraction,b => if Json.isDigit b then some .fraction else if isExponent b then some .exponent else none
  | .exponent,b => if b = 43 || b = 45 then some .sign else if Json.isDigit b then some .power else none
  | .sign,b | .power,b => if Json.isDigit b then some .power else none

def NumberPlace.complete : NumberPlace → Bool
  | .zero | .whole | .fraction | .power => true
  | .minus | .point | .exponent | .sign => false

-- names and items may follow an opening bracket, name a comma, next a value.
inductive Token where
  | value | items | names | name | colon | next
  | literal (left : Bytes) (value : Value)
  | number (place : NumberPlace) (text : Bytes)
  | string (pieces : List Piece)
  | escape (pieces : List Piece)
  | unicode (pieces : List Piece) (hex : List Nat)
  | root (value : Value)

-- What is open around it; a member is an object whose last name still wants its value.
inductive Frame where
  | array (items : List Value)
  | object (members : List (Bytes × Value))
  | member (members : List (Bytes × Value)) (key : Bytes)

structure State where
  token : Token
  stack : List Frame

def start : State := ⟨.value,[]⟩

def finish (v : Value) : List Frame → Option State
  | [] => some ⟨.root v,[]⟩
  | .array items :: rest => some ⟨.next,.array (items ++ [v]) :: rest⟩
  | .member members key :: rest => some ⟨.next,.object (Json.membersAdd key v members) :: rest⟩
  | .object members :: rest => match v with
    | .string key => some ⟨.colon,.member members key :: rest⟩
    | _ => none

def opening (stack : List Frame) (b : UInt8) : Option State :=
  if b = 123 then some ⟨.names,.object [] :: stack⟩
  else if b = 91 then some ⟨.items,.array [] :: stack⟩
  else if b = 34 then some ⟨.string [],stack⟩
  else if b = 45 then some ⟨.number .minus [b],stack⟩
  else if b = 48 then some ⟨.number .zero [b],stack⟩
  else if Json.isDigit b then some ⟨.number .whole [b],stack⟩
  else if b = 116 then some ⟨.literal (bytes "rue") (.boolean true),stack⟩
  else if b = 102 then some ⟨.literal (bytes "alse") (.boolean false),stack⟩
  else if b = 110 then some ⟨.literal (bytes "ull") .null,stack⟩
  else none

def closeArray : List Frame → Option State
  | .array items :: rest => finish (.array items) rest
  | _ => none

def closeObject : List Frame → Option State
  | .object members :: rest => finish (.object members) rest
  | _ => none

def comma : List Frame → Option State
  | .array items :: rest => some ⟨.value,.array items :: rest⟩
  | .object members :: rest => some ⟨.name,.object members :: rest⟩
  | _ => none

def escaped (b : UInt8) : Option UInt8 :=
  if b = 34 || b = 92 || b = 47 then some b
  else if b = 98 then some 8 else if b = 102 then some 12 else if b = 110 then some 10
  else if b = 114 then some 13 else if b = 116 then some 9 else none

def hexValue (b : UInt8) : Option Nat :=
  if Json.isDigit b then some (b.toNat-48)
  else if 97 ≤ b && b ≤ 102 then some (b.toNat-87)
  else if 65 ≤ b && b ≤ 70 then some (b.toNat-55) else none

def isBlank (b : UInt8) : Bool := b = 32 || b = 9 || b = 10 || b = 13

def State.plain (s : State) (b : UInt8) : Option State :=
  match s.token with
  | .value => if isBlank b then some s else opening s.stack b
  | .items => if isBlank b then some s else if b = 93 then closeArray s.stack else opening s.stack b
  | .names =>
    if isBlank b then some s else if b = 125 then closeObject s.stack
    else if b = 34 then some ⟨.string [],s.stack⟩ else none
  | .name => if isBlank b then some s else if b = 34 then some ⟨.string [],s.stack⟩ else none
  | .colon => if isBlank b then some s else if b = 58 then some ⟨.value,s.stack⟩ else none
  | .next =>
    if isBlank b then some s else if b = 44 then comma s.stack
    else if b = 93 then closeArray s.stack else if b = 125 then closeObject s.stack else none
  | .literal [] _ | .number _ _ => none
  | .literal (c :: left) v =>
    if b ≠ c then none else if left = [] then finish v s.stack else some ⟨.literal left v,s.stack⟩
  | .string pieces =>
    if b = 34 then finish (.string (decode pieces)) s.stack
    else if b = 92 then some ⟨.escape pieces,s.stack⟩
    else if b < 32 then none else some ⟨.string (pieces ++ [.byte b]),s.stack⟩
  | .escape pieces =>
    if b = 117 then some ⟨.unicode pieces [],s.stack⟩
    else (escaped b).map fun c => ⟨.string (pieces ++ [.byte c]),s.stack⟩
  | .unicode pieces hex => (hexValue b).map fun h =>
    if hex.length < 3 then ⟨.unicode pieces (hex ++ [h]),s.stack⟩
    else ⟨.string (pieces ++ [.unit ((hex ++ [h]).foldl (fun n h => n*16+h) 0).toUInt16]),s.stack⟩
  | .root _ => if isBlank b then some s else none

-- A number ends where no byte of it follows, and that byte is read after it.
def step (s : State) (b : UInt8) : Option State :=
  match s.token with
  | .number place text => match place.next b with
    | some place => some ⟨.number place (text ++ [b]),s.stack⟩
    | none => if place.complete then (finish (.number text) s.stack).bind (·.plain b) else none
  | _ => s.plain b

def run : State → Bytes → Option State
  | s,[] => some s
  | s,b :: rest => (step s b).bind (run · rest)

def State.result (s : State) : Option Value :=
  match s.token,s.stack with
  | .root v,[] => some v
  | .number place text,[] => if place.complete then some (.number text) else none
  | _,_ => none

def read (text : Bytes) : Option Value := (run start text).bind State.result

theorem run_append (s : State) (first second : Bytes) : run s (first ++ second) = (run s first).bind (run · second) := by
  induction first generalizing s with
  | nil => rfl
  | cons b rest ih =>
    cases taken : step s b with
    | none => simp [run,taken]
    | some t => simp [run,taken,ih]

def IsSpecial (b : UInt8) : Prop := b = 34 ∨ b = 92 ∨ b < 32
instance (b : UInt8) : Decidable (IsSpecial b) := inferInstanceAs (Decidable (_ ∨ _ ∨ _))

def Plain (text : Bytes) : Prop := ∀ b ∈ text, ¬IsSpecial b
instance (text : Bytes) : Decidable (Plain text) := List.decidableBAll _ text

theorem plain_append : Plain (s ++ t) ↔ Plain s ∧ Plain t := by
  simp only [Plain,List.mem_append,or_imp,forall_and]

theorem run_plain (plain : Plain text) (pieces : List Piece) (stack : List Frame) :
    run ⟨.string pieces,stack⟩ text = some ⟨.string (pieces ++ text.map .byte),stack⟩ := by
  induction text generalizing pieces with
  | nil => simp [run]
  | cons b rest ih =>
    have head := plain b List.mem_cons_self
    have tail : Plain rest := fun c member => plain c (List.mem_cons_of_mem _ member)
    simp only [IsSpecial,not_or] at head
    have taken : step ⟨.string pieces,stack⟩ b = some ⟨.string (pieces ++ [.byte b]),stack⟩ := by
      simp only [step,State.plain,if_neg head.1,if_neg head.2.1,if_neg head.2.2]
    rw [run,taken,Option.bind_some,ih tail]
    simp

theorem decode_bytes (text : Bytes) : decode (text.map .byte) = text := by
  induction text with
  | nil => rfl
  | cons b rest ih => exact congrArg (b :: ·) ih

theorem run_quoted (plain : Plain text) (stack : List Frame) :
    run ⟨.string [],stack⟩ (text ++ [34]) = finish (.string text) stack := by
  rw [run_append,run_plain plain,Option.bind_some,List.nil_append]
  have closed : step ⟨.string (text.map .byte),stack⟩ 34 = finish (.string text) stack := by
    simp only [step,State.plain,if_true,decode_bytes]
  rw [run,closed]
  exact Option.bind_fun_some _

theorem bytes_append (s t : String) : bytes (s ++ t) = bytes s ++ bytes t := by
  simp [bytes]

structure IsDigits (text : Bytes) : Prop where
  digits : ∀ b ∈ text, Json.isDigit b = true
  lead : ∃ b rest, text = b :: rest ∧ (b = 48 → rest = [])

theorem isDigits_repr (n : Nat) : IsDigits (bytes n.repr) ∧ (0 < n → (bytes n.repr).head? ≠ some 48) := by
  have digit : ∀ d < 10, bytes (String.singleton d.digitChar) = [(48+d).toUInt8] ∧
      Json.isDigit (48+d).toUInt8 = true ∧ (0 < d → (48+d).toUInt8 ≠ 48) := by decide
  induction n using Nat.strongRecOn with
  | ind n ih =>
    by_cases small : n < 10
    · obtain ⟨text,valid,lead⟩ := digit n small
      rw [Nat.repr_of_lt small,text]
      refine ⟨⟨?_,_,_,rfl,fun _ => rfl⟩,fun positive same => lead positive (Option.some.inj same)⟩
      intro b member
      rw [List.mem_singleton.mp member]
      exact valid
    · obtain ⟨before,positive⟩ := ih (n/10) (by omega)
      obtain ⟨b,rest,text,_⟩ := before.lead
      have lead := positive (by omega)
      obtain ⟨last,valid,_⟩ := digit (n%10) (Nat.mod_lt _ (by decide))
      have all : ∀ c ∈ bytes (n/10).repr ++ [(48+n%10).toUInt8], Json.isDigit c = true := by
        intro c member
        rcases List.mem_append.mp member with early | late
        · exact before.digits c early
        · rw [List.mem_singleton.mp late]
          exact valid
      rw [Nat.repr_of_ge (by omega),bytes_append,last]
      rw [text] at all lead ⊢
      exact ⟨⟨all,b,_,rfl,fun zero => absurd (congrArg some zero) lead⟩,fun _ => lead⟩

theorem repr_length (n : Nat) : ∀ e, n < 10^(e+1) → (bytes n.repr).length ≤ e+1 := by
  have digit : ∀ d < 10, (bytes (String.singleton d.digitChar)).length = 1 := by decide
  intro e
  induction e generalizing n with
  | zero =>
    intro small
    rw [Nat.repr_of_lt small,digit n small]
  | succ e ih =>
    intro small
    by_cases single : n < 10
    · rw [Nat.repr_of_lt single,digit n single]
      omega
    · have before := ih (n/10) (by rw [Nat.pow_succ] at small; omega)
      rw [Nat.repr_of_ge (by omega),bytes_append,List.length_append,digit _ (Nat.mod_lt _ (by decide))]
      omega

theorem decimal_length (low : -2^63 ≤ i) (high : i < 2^63) : (decimal i).length ≤ 20 := by
  unfold decimal
  rw [Int.toString_eq_repr,Int.repr_eq_if]
  split
  · exact (repr_length _ 18 (by omega)).trans (by decide)
  · rw [bytes_append,List.length_append]
    have digits := repr_length (-i).toNat 18 (by omega)
    have minus : (bytes "-").length = 1 := rfl
    omega

theorem isDigit_apart (digit : Json.isDigit b = true) (other : Json.isDigit c = false) : b ≠ c := by
  rintro rfl
  rw [digit] at other
  cases other

theorem run_whole (digits : ∀ b ∈ rest, Json.isDigit b = true) (text : Bytes) (stack : List Frame) :
    run ⟨.number .whole text,stack⟩ rest = some ⟨.number .whole (text ++ rest),stack⟩ := by
  induction rest generalizing text with
  | nil => simp [run]
  | cons b rest ih =>
    have taken : step ⟨.number .whole text,stack⟩ b = some ⟨.number .whole (text ++ [b]),stack⟩ := by
      simp only [step,NumberPlace.next,digits b List.mem_cons_self,if_true]
    rw [run,taken,Option.bind_some,ih fun c member => digits c (List.mem_cons_of_mem _ member)]
    simp

theorem run_digits (isDigits : IsDigits text) (stack : List Frame) : ∃ place : NumberPlace, place.complete = true ∧
    run ⟨.value,stack⟩ text = some ⟨.number place text,stack⟩ ∧
    run ⟨.number .minus [45],stack⟩ text = some ⟨.number place (45 :: text),stack⟩ := by
  obtain ⟨b,rest,rfl,lead⟩ := isDigits.lead
  by_cases zero : b = 48
  · obtain rfl := zero
    obtain rfl := lead rfl
    exact ⟨.zero,rfl,rfl,rfl⟩
  · have digit := isDigits.digits b List.mem_cons_self
    have tail : ∀ c ∈ rest, Json.isDigit c = true := fun c member => isDigits.digits c (List.mem_cons_of_mem _ member)
    have first : step ⟨.value,stack⟩ b = some ⟨.number .whole [b],stack⟩ := by
      have apart (c : UInt8) (other : Json.isDigit c = false) : b ≠ c := isDigit_apart digit other
      have solid : isBlank b = false := by
        simp [isBlank,apart 32 rfl,apart 9 rfl,apart 10 rfl,apart 13 rfl]
      unfold step State.plain opening
      dsimp only
      rw [solid,if_neg (apart 123 rfl),if_neg (apart 91 rfl),if_neg (apart 34 rfl),if_neg (apart 45 rfl),if_neg zero,if_pos digit]
      rfl
    have second : step ⟨.number .minus [45],stack⟩ b = some ⟨.number .whole [45,b],stack⟩ := by
      simp only [step,NumberPlace.next,if_neg zero,digit,if_true]
      rfl
    refine ⟨.whole,rfl,?_,?_⟩
    · rw [run,first,Option.bind_some,run_whole tail]
      rfl
    · rw [run,second,Option.bind_some,run_whole tail]
      rfl

theorem decimal_digits (i : Int) : IsDigits (decimal i) ∨ ∃ text, IsDigits text ∧ decimal i = 45 :: text := by
  unfold decimal
  rw [Int.toString_eq_repr,Int.repr_eq_if]
  split
  · exact .inl (isDigits_repr _).1
  · exact .inr ⟨_,(isDigits_repr _).1,bytes_append "-" _⟩

theorem plain_decimal (i : Int) : Plain (decimal i) := by
  have each {text : Bytes} (digits : IsDigits text) : Plain text := by
    intro b member
    have digit := digits.digits b member
    rintro (quote | backslash | control)
    · exact isDigit_apart digit (by decide) quote
    · exact isDigit_apart digit (by decide) backslash
    · simp only [Json.isDigit,Bool.and_eq_true,decide_eq_true_eq] at digit
      exact absurd (UInt8.lt_of_le_of_lt digit.1 control) (by decide)
  rcases decimal_digits i with digits | ⟨text,digits,negative⟩
  · exact each digits
  · rw [negative]
    exact List.forall_mem_cons.mpr ⟨by decide,each digits⟩

-- A text that json-c writes holds no NUL: a string's is written as an escape.
theorem escape_clean (b : UInt8) : (0 : UInt8) ∉ Json.escape b := by
  have digit : ∀ n < 16, (0 : UInt8) ≠ Json.hexDigit n := by decide
  have below := b.toNat_lt
  unfold Json.escape
  split_ifs with quote backslash slash back line carriage tab form control
  all_goals try decide
  · rw [List.mem_append]
    rintro (prefixed | digits)
    · exact absurd prefixed (by decide)
    · simp [digit (b.toNat/16) (by omega),digit (b.toNat%16) (by omega)] at digits
  · intro member
    rw [List.mem_singleton] at member
    subst b
    exact control (by decide)

theorem quote_clean (s : Bytes) : (0 : UInt8) ∉ Json.quote s := by
  intro member
  rcases List.mem_cons.mp member with quote | inside
  · cases quote
  · rcases List.mem_append.mp inside with escaped | quote
    · obtain ⟨b,_,here⟩ := List.mem_flatMap.mp escaped
      exact escape_clean b here
    · cases List.mem_singleton.mp quote

theorem decimal_clean (i : Int) : (0 : UInt8) ∉ decimal i := fun member => plain_decimal i 0 member (by decide)

theorem marks_clean : (0 : UInt8) ∉ bytes " " ∧ (0 : UInt8) ∉ bytes "," ∧ (0 : UInt8) ∉ bytes ": " ∧
    (0 : UInt8) ∉ bytes "[" ∧ (0 : UInt8) ∉ bytes " ]" ∧ (0 : UInt8) ∉ bytes "\x7b" ∧ (0 : UInt8) ∉ bytes " \x7d" := by
  decide

theorem itemsText_clean {items : List Json} (clean : ∀ item ∈ items, (0 : UInt8) ∉ item.toText) :
    (0 : UInt8) ∉ Json.itemsText items := by
  induction items with
  | nil => exact List.not_mem_nil
  | cons item rest ih =>
    obtain ⟨first,later⟩ := List.forall_mem_cons.mp clean
    cases rest with
    | nil => simp [Json.itemsText,marks_clean,first]
    | cons next rest => simp [Json.itemsText,marks_clean,first,ih later]

theorem memberText_clean (key : Bytes) {value : Json} (clean : (0 : UInt8) ∉ value.toText) :
    (0 : UInt8) ∉ Json.memberText (key,value) := by
  simp [Json.memberText,marks_clean,quote_clean,clean]

theorem membersText_clean {members : List (Bytes × Json)} (clean : ∀ member ∈ members, (0 : UInt8) ∉ member.2.toText) :
    (0 : UInt8) ∉ Json.membersText members := by
  induction members with
  | nil => exact List.not_mem_nil
  | cons member rest ih =>
    obtain ⟨first,later⟩ := List.forall_mem_cons.mp clean
    have text := memberText_clean member.1 first
    cases rest with
    | nil => exact text
    | cons next rest => simp [Json.membersText,marks_clean,text,ih later]

theorem array_clean {items : List Json} (clean : ∀ item ∈ items, (0 : UInt8) ∉ item.toText) :
    (0 : UInt8) ∉ (Json.array items).toText := by
  simp [Json.toText,marks_clean,itemsText_clean clean]

theorem object_clean {members : List (Bytes × Json)} (clean : ∀ member ∈ members, (0 : UInt8) ∉ member.2.toText) :
    (0 : UInt8) ∉ (Json.object members).toText := by
  simp [Json.toText,marks_clean,membersText_clean clean]

theorem run_decimal (i : Int) (stack : List Frame) : ∃ place : NumberPlace, place.complete = true ∧
    run ⟨.value,stack⟩ (decimal i) = some ⟨.number place (decimal i),stack⟩ := by
  rcases decimal_digits i with digits | ⟨text,digits,negative⟩
  · obtain ⟨place,complete,ran,_⟩ := run_digits digits stack
    exact ⟨place,complete,ran⟩
  · obtain ⟨place,complete,_,ran⟩ := run_digits digits stack
    rw [negative]
    exact ⟨place,complete,ran⟩

theorem number_ends (complete : place.complete = true) (ended : place.next b = none) (text : Bytes) (stack : List Frame) :
    run ⟨.number place text,stack⟩ [b] = (finish (.number text) stack).bind (·.plain b) := by
  have taken : step ⟨.number place text,stack⟩ b = (finish (.number text) stack).bind (·.plain b) := by
    simp only [step,ended,if_pos complete]
  rw [run,taken]
  exact Option.bind_fun_some _

theorem number_close (complete : place.complete = true) (text : Bytes) (members : List (Bytes × Value)) (key : Bytes)
    (stack : List Frame) : run ⟨.number place text,.member members key :: stack⟩ [125] =
      closeObject (.object (Json.membersAdd key (.number text) members) :: stack) := by
  have ended : place.next 125 = none := by cases place <;> rfl
  rw [number_ends complete ended]
  rfl

theorem number_comma (complete : place.complete = true) (text : Bytes) (members : List (Bytes × Value)) (key : Bytes)
    (stack : List Frame) : run ⟨.number place text,.member members key :: stack⟩ [44] =
      some ⟨.name,.object (Json.membersAdd key (.number text) members) :: stack⟩ := by
  have ended : place.next 44 = none := by cases place <;> rfl
  rw [number_ends complete ended]
  rfl

-- strtod gives the integer part of a double.
mutual
def Value.json (truncated : Bytes → Int) : Value → Json
  | .null => .null
  | .boolean value => .boolean value
  | .number text =>
    if text.all fun b => b = 45 || Json.isDigit b then .int ((Json.parseInt64 text).getD 0)
    else .double (truncated text) text
  | .string text => .string text
  | .array items => .array (itemsJson truncated items)
  | .object members => .object (membersJson truncated members)
def itemsJson (truncated : Bytes → Int) : List Value → List Json
  | [] => []
  | v :: rest => v.json truncated :: itemsJson truncated rest
def membersJson (truncated : Bytes → Int) : List (Bytes × Value) → List (Bytes × Json)
  | [] => []
  | (key,v) :: rest => (key,v.json truncated) :: membersJson truncated rest
end

theorem digitsValue_append (text : Bytes) (b : UInt8) :
    Json.digitsValue (text ++ [b]) = Json.digitsValue text*10+(b.toNat-48 : Int) := by
  simp [Json.digitsValue]

theorem digitsValue_repr (n : Nat) : Json.digitsValue (bytes n.repr) = n := by
  have digit : ∀ d : Nat, d < 10 → bytes (String.singleton d.digitChar) = [(48+d).toUInt8] ∧
      ((48+d).toUInt8.toNat : Int)-48 = (d : Int) := by decide
  induction n using Nat.strongRecOn with
  | ind n ih =>
    by_cases small : n < 10
    · obtain ⟨text,value⟩ := digit n small
      rw [Nat.repr_of_lt small,text]
      simpa [Json.digitsValue] using value
    · obtain ⟨last,value⟩ := digit (n%10) (Nat.mod_lt _ (by decide))
      rw [Nat.repr_of_ge (by omega),bytes_append,last,digitsValue_append,ih (n/10) (by omega),value]
      omega

theorem isDigit_solid (digit : Json.isDigit b = true) : Json.isSpace b = false := by
  unfold Json.isSpace
  rw [decide_eq_false (isDigit_apart digit (by decide : Json.isDigit 32 = false)),Bool.false_or]
  unfold Json.isDigit at digit
  simp only [Bool.and_eq_true,decide_eq_true_eq,UInt8.le_iff_toNat_le] at digit
  simp only [Bool.and_eq_false_iff,decide_eq_false_iff_not,UInt8.le_iff_toNat_le]
  right
  have low : (48 : UInt8).toNat = 48 := rfl
  have high : (13 : UInt8).toNat = 13 := rfl
  omega

theorem parseInt64_digits (digits : IsDigits text) :
    Json.parseInt64 text = some (Json.clamp 64 (Json.digitsValue text)) ∧
      Json.parseInt64 (45 :: text) = some (Json.clamp 64 (-Json.digitsValue text)) := by
  have ended : ∀ c ∈ text, decide (c ≠ 0) = true := fun c member =>
    decide_eq_true (isDigit_apart (digits.digits c member) (by decide))
  have positive : cString text = text := List.takeWhile_eq_self_iff.mpr ended
  have negative : cString (45 :: text) = 45 :: text := List.takeWhile_eq_self_iff.mpr (List.forall_mem_cons.mpr ⟨rfl,ended⟩)
  have whole : text.takeWhile Json.isDigit = text := List.takeWhile_eq_self_iff.mpr digits.digits
  obtain ⟨b,rest,rfl,_⟩ := digits.lead
  have digit := digits.digits b List.mem_cons_self
  have trimmed : (b :: rest).dropWhile Json.isSpace = b :: rest := by
    rw [List.dropWhile_cons,isDigit_solid digit]
    rfl
  have minus : b ≠ 45 := isDigit_apart digit rfl
  have plus : b ≠ 43 := isDigit_apart digit rfl
  unfold Json.parseInt64
  rw [positive,negative,trimmed]
  constructor
  · simp [minus,plus,whole]
  · simp [Json.isSpace,whole]

theorem number_json (truncated : Bytes → Int) (fits : Json.clamp 64 i = i) :
    (Value.number (decimal i)).json truncated = .int i := by
  have parsed : Json.parseInt64 (decimal i) = some i ∧ (decimal i).all (fun b => b = 45 || Json.isDigit b) = true := by
    unfold decimal
    rw [Int.toString_eq_repr,Int.repr_eq_if]
    have digits (n : Nat) : (bytes n.repr).all (fun b => b = 45 || Json.isDigit b) = true := by
      rw [List.all_eq_true]
      intro b member
      rw [(isDigits_repr n).1.digits b member,Bool.or_true]
    split
    · rw [(parseInt64_digits (isDigits_repr _).1).1,digitsValue_repr,Int.toNat_of_nonneg ‹_›,fits]
      exact ⟨rfl,digits _⟩
    · have text : bytes ("-" ++ (-i).toNat.repr) = 45 :: bytes (-i).toNat.repr := bytes_append "-" _
      rw [text,(parseInt64_digits (isDigits_repr _).1).2,digitsValue_repr,Int.toNat_of_nonneg (by omega),Int.neg_neg,fits]
      exact ⟨rfl,digits _⟩
  unfold Value.json
  rw [parsed.1,if_pos parsed.2]
  rfl

end JsonText
