import Mathlib.Algebra.Order.Ring.Int
import ImAcc.Lib.Blocks

-- RFC 1321: blocks of sixteen words, folded into four by sixty-four operations.
namespace Md5

structure State where
  a : UInt32
  b : UInt32
  c : UInt32
  d : UInt32
  deriving DecidableEq

def initial : State := ⟨0x67452301,0xefcdab89,0x98badcfe,0x10325476⟩

def auxiliary (round : Nat) (x y z : UInt32) : UInt32 :=
  match round with
  | 0 => x &&& y ||| ~~~x &&& z
  | 1 => x &&& z ||| y &&& ~~~z
  | 2 => x ^^^ y ^^^ z
  | _ => y ^^^ (x ||| ~~~z)

-- The word each operation takes, its shift, and the integer part of 2^32*|sin (i+1)|.
def wordIndex (i : Nat) : Nat :=
  match i/16 with
  | 0 => i%16
  | 1 => (5*i+1)%16
  | 2 => (3*i+5)%16
  | _ => (7*i)%16

def shift (i : Nat) : Nat :=
  (([[7,12,17,22],[5,9,14,20],[4,11,16,23],[6,10,15,21]].getD (i/16) []).getD (i%4) 0)

def sines : List UInt32 :=
  [0xd76aa478,0xe8c7b756,0x242070db,0xc1bdceee,0xf57c0faf,0x4787c62a,0xa8304613,0xfd469501,
   0x698098d8,0x8b44f7af,0xffff5bb1,0x895cd7be,0x6b901122,0xfd987193,0xa679438e,0x49b40821,
   0xf61e2562,0xc040b340,0x265e5a51,0xe9b6c7aa,0xd62f105d,0x02441453,0xd8a1e681,0xe7d3fbc8,
   0x21e1cde6,0xc33707d6,0xf4d50d87,0x455a14ed,0xa9e3e905,0xfcefa3f8,0x676f02d9,0x8d2a4c8a,
   0xfffa3942,0x8771f681,0x6d9d6122,0xfde5380c,0xa4beea44,0x4bdecfa9,0xf6bb4b60,0xbebfbc70,
   0x289b7ec6,0xeaa127fa,0xd4ef3085,0x04881d05,0xd9d4d039,0xe6db99e5,0x1fa27cf8,0xc4ac5665,
   0xf4292244,0x432aff97,0xab9423a7,0xfc93a039,0x655b59c3,0x8f0ccc92,0xffeff47d,0x85845dd1,
   0x6fa87e4f,0xfe2ce6e0,0xa3014314,0x4e0811a1,0xf7537e82,0xbd3af235,0x2ad7d2bb,0xeb86d391]

def rotated (x : UInt32) (n : Nat) : UInt32 := ⟨x.toBitVec.rotateLeft n⟩

-- a takes the result, and then the four change places.
def operation (x : Nat → UInt32) (s : State) (i : Nat) : State :=
  let sum := s.a+auxiliary (i/16) s.b s.c s.d+x (wordIndex i)+sines.getD i 0
  ⟨s.d,s.b+rotated sum (shift i),s.b,s.c⟩

-- A word has its low-order byte first.
def word (block : List UInt8) (k : Nat) : UInt32 :=
  let byte (i : Nat) : Nat := (block.getD (4*k+i) 0).toNat
  (byte 0+byte 1*2^8+byte 2*2^16+byte 3*2^24).toUInt32

def compress (s : State) (block : List UInt8) : State :=
  let t := (List.range 64).foldl (operation (word block)) s
  ⟨s.a+t.a,s.b+t.b,s.c+t.c,s.d+t.d⟩

def littleEndian (count n : Nat) : List UInt8 := (List.range count).map fun i => (n/2^(8*i)).toUInt8

-- One bit, zeros up to 448 modulo 512 bits, and the length in bits modulo 2^64.
def padding (length : Nat) : List UInt8 :=
  0x80 :: List.replicate ((119-length%64)%64) 0 ++ littleEndian 8 (8*length%2^64)

def State.bytes (s : State) : List UInt8 := [s.a,s.b,s.c,s.d].flatMap fun word => littleEndian 4 word.toNat

def digest (message : List UInt8) : List UInt8 :=
  let padded := message ++ padding message.length
  (Blocks.foldBlocks compress 64 (padded.length/64) initial padded).1.bytes

set_option maxRecDepth 20000 in
example : digest [97,98,99] =
    [0x90,0x01,0x50,0x98,0x3c,0xd2,0x4f,0xb0,0xd6,0x96,0x3f,0x7d,0x28,0xe1,0x7f,0x72] := by decide

def hexDigits : List UInt8 := [48,49,50,51,52,53,54,55,56,57,97,98,99,100,101,102]

def hex (digest : List UInt8) : List UInt8 :=
  digest.flatMap fun b => [hexDigits.getD (b.toNat/16) 0,hexDigits.getD (b.toNat%16) 0]

theorem hex_length (digest : List UInt8) : (hex digest).length = 2*digest.length := by
  induction digest with
  | nil => rfl
  | cons b rest ih =>
    change (hex rest).length+2 = 2*(rest.length+1)
    omega

theorem hex_clean (digest : List UInt8) : (0 : UInt8) ∉ hex digest := by
  have digit : ∀ n < 16, hexDigits.getD n 0 ≠ 0 := by decide
  intro member
  obtain ⟨b,_,here⟩ := List.mem_flatMap.mp member
  have below := b.toNat_lt
  rcases List.mem_cons.mp here with high | low
  · exact digit (b.toNat/16) (by omega) high.symm
  · exact digit (b.toNat%16) (by omega) (List.mem_singleton.mp low).symm

theorem digest_length (message : List UInt8) : (digest message).length = 16 := rfl

theorem padding_length (length : Nat) : 64 ∣ length+(padding length).length := by
  simp only [padding,littleEndian,List.length_append,List.length_cons,List.length_replicate,List.length_map,List.length_range]
  omega

theorem digest_absorb (message : List UInt8) : digest message =
    (Blocks.absorb compress 64 (initial,[]) (message ++ padding message.length)).1.bytes := by
  have whole := padding_length message.length
  rw [← List.length_append] at whole
  unfold digest
  dsimp only
  rw [Blocks.absorb_blocks (by decide) _ (Nat.div_mul_le_self _ 64) (Nat.lt_div_mul_add (by decide))]

end Md5
