import Mathlib.Data.List.Basic

-- UTF-8 of sixteen-bit units: one that is no surrogate encodes as its character does.
namespace Utf8

def WellFormed (text : List UInt8) : Prop := ∃ cs : List Char, text = cs.flatMap String.utf8EncodeChar

def encodeUnit (unit : Nat) : List UInt8 :=
  if unit ≤ 0x7f then [UInt8.ofNat unit]
  else if unit ≤ 0x7ff then [UInt8.ofNat (0xc0+unit/64),UInt8.ofNat (0x80+unit%64)]
  else [UInt8.ofNat (0xe0+unit/4096),UInt8.ofNat (0x80+unit/64%64),UInt8.ofNat (0x80+unit%64)]

def Low (unit : Nat) : Prop := 0xdc00 ≤ unit ∧ unit < 0xe000
def Scalar (unit : Nat) : Prop := unit < 0xd800 ∨ 0xe000 ≤ unit

instance (unit : Nat) : Decidable (Scalar unit) := inferInstanceAs (Decidable (_ ∨ _))

def encodedLength (unit : Nat) : Nat := if unit ≤ 0x7f then 1 else if unit ≤ 0x7ff then 2 else 3

@[simp] theorem encodeUnit_length (unit : Nat) : (encodeUnit unit).length = encodedLength unit := by
  unfold encodeUnit encodedLength
  split
  · rfl
  · split <;> rfl

theorem encodedLength_bounds (unit : Nat) : 1 ≤ encodedLength unit ∧ encodedLength unit ≤ 3 := by
  unfold encodedLength
  split
  · omega
  · split <;> omega

theorem encodeUnit_clean (some : unit ≠ 0) (narrow : unit < 0x10000) : (0 : UInt8) ∉ encodeUnit unit := by
  have byte (x : Nat) (above : x ≠ 0) (below : x < 256) : (0 : UInt8) ≠ UInt8.ofNat x := by
    intro zero
    have value := congrArg UInt8.toNat zero
    rw [UInt8.toNat_ofNat_of_lt' below] at value
    exact above value.symm
  unfold encodeUnit
  split
  · simp only [List.mem_singleton]
    exact byte _ some (by omega)
  split
  · simp only [List.mem_cons,List.not_mem_nil,or_false,not_or]
    exact ⟨byte _ (by omega) (by omega),byte _ (by omega) (by omega)⟩
  · simp only [List.mem_cons,List.not_mem_nil,or_false,not_or]
    exact ⟨byte _ (by omega) (by omega),byte _ (by omega) (by omega),byte _ (by omega) (by omega)⟩

theorem encodeUnit_char (narrow : unit < 0x10000) (scalar : Scalar unit) :
    encodeUnit unit = String.utf8EncodeChar (Char.ofNat unit) := by
  have valid : unit.isValidChar := by
    rcases scalar with below | above
    · exact .inl below
    · exact .inr ⟨by omega,by omega⟩
  have value : (Char.ofNat unit).val.toNat = unit := by
    rw [Char.ofNat,dif_pos valid]
    rfl
  have lead2 : unit ≤ 0x7ff → unit/64%0x20+0xc0 = 0xc0+unit/64 := by omega
  have lead3 : unit/4096%0x10+0xe0 = 0xe0+unit/4096 := by omega
  have low : unit%0x40+0x80 = 0x80+unit%64 := Nat.add_comm _ _
  have mid : unit/64%0x40+0x80 = 0x80+unit/64%64 := Nat.add_comm _ _
  unfold encodeUnit String.utf8EncodeChar
  dsimp only
  rw [value]
  by_cases one : unit ≤ 0x7f
  · rw [if_pos one,if_pos one]
  rw [if_neg one,if_neg one]
  by_cases two : unit ≤ 0x7ff
  · rw [if_pos two,if_pos two,lead2 two,low]
  rw [if_neg two,if_neg two,if_pos (Nat.le_of_lt_succ narrow),lead3,mid,low]

theorem wellFormed_units (units : List Nat) (scalar : ∀ unit ∈ units, unit < 0x10000 ∧ Scalar unit) :
    WellFormed (units.flatMap encodeUnit) := by
  refine ⟨units.map Char.ofNat,?_⟩
  rw [List.flatMap_map]
  exact List.flatMap_congr fun unit member => encodeUnit_char (scalar unit member).1 (scalar unit member).2

theorem char_bound (c : Char) : c.toNat < 0x110000 := by
  rcases c.valid with below | above
  · exact Nat.lt_trans below (by decide)
  · exact above.2

theorem char_scalar (c : Char) : Scalar c.toNat := by
  rcases c.valid with below | above
  · exact .inl below
  · exact .inr above.1

theorem char_narrow (narrow : c.toNat < 0x10000) : String.utf8EncodeChar c = encodeUnit c.toNat := by
  rw [encodeUnit_char narrow (char_scalar c),Char.ofNat_toNat]

def encodeFour (code : Nat) : List UInt8 :=
  [UInt8.ofNat (0xf0+code/262144),UInt8.ofNat (0x80+code/4096%64),UInt8.ofNat (0x80+code/64%64),UInt8.ofNat (0x80+code%64)]

theorem char_wide (wide : 0x10000 ≤ c.toNat) : String.utf8EncodeChar c = encodeFour c.toNat := by
  have bound := char_bound c
  have value : c.val.toNat = c.toNat := rfl
  unfold String.utf8EncodeChar encodeFour
  dsimp only
  rw [value,if_neg (by omega),if_neg (by omega),if_neg (by omega),show c.toNat/262144%8+0xf0 = 0xf0+c.toNat/262144 by omega,
    Nat.add_comm (c.toNat/4096%64),Nat.add_comm (c.toNat/64%64),Nat.add_comm (c.toNat%64)]

end Utf8
