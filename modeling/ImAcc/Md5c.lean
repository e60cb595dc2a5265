import ImAcc.Lib.Json
import ImAcc.Lib.Md5

-- im_md5c.c; the counters of an update's loop are naturals, its input being too short.
namespace ImAcc
open JsonC Md5 Blocks

structure Md5Ctx where
  count0 : UInt32
  count1 : UInt32
  state : Md5.State
  buffer : Fin 64 → UInt8

inductive Round where
  | ff | gg | hh | ii
  deriving DecidableEq

inductive Reg where
  | a | b | c | d
  deriving DecidableEq

structure Call where
  round : Round
  a : Reg
  b : Reg
  c : Reg
  d : Reg
  x : Nat
  s : Nat
  ac : UInt32
  deriving DecidableEq

def Round.mix : Round → UInt32 → UInt32 → UInt32 → UInt32
  | .ff,x,y,z => (x &&& y) ||| (~~~x &&& z)
  | .gg,x,y,z => (x &&& z) ||| (y &&& ~~~z)
  | .hh,x,y,z => x ^^^ y ^^^ z
  | .ii,x,y,z => y ^^^ (x ||| ~~~z)

def rotateLeft (x : UInt32) (n : Nat) : UInt32 := (x <<< n.toUInt32) ||| (x >>> (32-n).toUInt32)

def readReg (s : Md5.State) : Reg → UInt32
  | .a => s.a
  | .b => s.b
  | .c => s.c
  | .d => s.d

def writeReg (s : Md5.State) (value : UInt32) : Reg → Md5.State
  | .a => {s with a := value}
  | .b => {s with b := value}
  | .c => {s with c := value}
  | .d => {s with d := value}

def Call.run (x : Nat → UInt32) (locals : Md5.State) (call : Call) : Md5.State :=
  let b := readReg locals call.b
  let a := readReg locals call.a+(call.round.mix b (readReg locals call.c) (readReg locals call.d)+x call.x+call.ac)
  writeReg locals (rotateLeft a call.s+b) call.a

def transformCalls : List Call :=
  [⟨.ff,.a,.b,.c,.d,0,7,0xd76aa478⟩,⟨.ff,.d,.a,.b,.c,1,12,0xe8c7b756⟩,
   ⟨.ff,.c,.d,.a,.b,2,17,0x242070db⟩,⟨.ff,.b,.c,.d,.a,3,22,0xc1bdceee⟩,
   ⟨.ff,.a,.b,.c,.d,4,7,0xf57c0faf⟩,⟨.ff,.d,.a,.b,.c,5,12,0x4787c62a⟩,
   ⟨.ff,.c,.d,.a,.b,6,17,0xa8304613⟩,⟨.ff,.b,.c,.d,.a,7,22,0xfd469501⟩,
   ⟨.ff,.a,.b,.c,.d,8,7,0x698098d8⟩,⟨.ff,.d,.a,.b,.c,9,12,0x8b44f7af⟩,
   ⟨.ff,.c,.d,.a,.b,10,17,0xffff5bb1⟩,⟨.ff,.b,.c,.d,.a,11,22,0x895cd7be⟩,
   ⟨.ff,.a,.b,.c,.d,12,7,0x6b901122⟩,⟨.ff,.d,.a,.b,.c,13,12,0xfd987193⟩,
   ⟨.ff,.c,.d,.a,.b,14,17,0xa679438e⟩,⟨.ff,.b,.c,.d,.a,15,22,0x49b40821⟩,
   ⟨.gg,.a,.b,.c,.d,1,5,0xf61e2562⟩,⟨.gg,.d,.a,.b,.c,6,9,0xc040b340⟩,
   ⟨.gg,.c,.d,.a,.b,11,14,0x265e5a51⟩,⟨.gg,.b,.c,.d,.a,0,20,0xe9b6c7aa⟩,
   ⟨.gg,.a,.b,.c,.d,5,5,0xd62f105d⟩,⟨.gg,.d,.a,.b,.c,10,9,0x2441453⟩,
   ⟨.gg,.c,.d,.a,.b,15,14,0xd8a1e681⟩,⟨.gg,.b,.c,.d,.a,4,20,0xe7d3fbc8⟩,
   ⟨.gg,.a,.b,.c,.d,9,5,0x21e1cde6⟩,⟨.gg,.d,.a,.b,.c,14,9,0xc33707d6⟩,
   ⟨.gg,.c,.d,.a,.b,3,14,0xf4d50d87⟩,⟨.gg,.b,.c,.d,.a,8,20,0x455a14ed⟩,
   ⟨.gg,.a,.b,.c,.d,13,5,0xa9e3e905⟩,⟨.gg,.d,.a,.b,.c,2,9,0xfcefa3f8⟩,
   ⟨.gg,.c,.d,.a,.b,7,14,0x676f02d9⟩,⟨.gg,.b,.c,.d,.a,12,20,0x8d2a4c8a⟩,
   ⟨.hh,.a,.b,.c,.d,5,4,0xfffa3942⟩,⟨.hh,.d,.a,.b,.c,8,11,0x8771f681⟩,
   ⟨.hh,.c,.d,.a,.b,11,16,0x6d9d6122⟩,⟨.hh,.b,.c,.d,.a,14,23,0xfde5380c⟩,
   ⟨.hh,.a,.b,.c,.d,1,4,0xa4beea44⟩,⟨.hh,.d,.a,.b,.c,4,11,0x4bdecfa9⟩,
   ⟨.hh,.c,.d,.a,.b,7,16,0xf6bb4b60⟩,⟨.hh,.b,.c,.d,.a,10,23,0xbebfbc70⟩,
   ⟨.hh,.a,.b,.c,.d,13,4,0x289b7ec6⟩,⟨.hh,.d,.a,.b,.c,0,11,0xeaa127fa⟩,
   ⟨.hh,.c,.d,.a,.b,3,16,0xd4ef3085⟩,⟨.hh,.b,.c,.d,.a,6,23,0x4881d05⟩,
   ⟨.hh,.a,.b,.c,.d,9,4,0xd9d4d039⟩,⟨.hh,.d,.a,.b,.c,12,11,0xe6db99e5⟩,
   ⟨.hh,.c,.d,.a,.b,15,16,0x1fa27cf8⟩,⟨.hh,.b,.c,.d,.a,2,23,0xc4ac5665⟩,
   ⟨.ii,.a,.b,.c,.d,0,6,0xf4292244⟩,⟨.ii,.d,.a,.b,.c,7,10,0x432aff97⟩,
   ⟨.ii,.c,.d,.a,.b,14,15,0xab9423a7⟩,⟨.ii,.b,.c,.d,.a,5,21,0xfc93a039⟩,
   ⟨.ii,.a,.b,.c,.d,12,6,0x655b59c3⟩,⟨.ii,.d,.a,.b,.c,3,10,0x8f0ccc92⟩,
   ⟨.ii,.c,.d,.a,.b,10,15,0xffeff47d⟩,⟨.ii,.b,.c,.d,.a,1,21,0x85845dd1⟩,
   ⟨.ii,.a,.b,.c,.d,8,6,0x6fa87e4f⟩,⟨.ii,.d,.a,.b,.c,15,10,0xfe2ce6e0⟩,
   ⟨.ii,.c,.d,.a,.b,6,15,0xa3014314⟩,⟨.ii,.b,.c,.d,.a,13,21,0x4e0811a1⟩,
   ⟨.ii,.a,.b,.c,.d,4,6,0xf7537e82⟩,⟨.ii,.d,.a,.b,.c,11,10,0xbd3af235⟩,
   ⟨.ii,.c,.d,.a,.b,2,15,0x2ad7d2bb⟩,⟨.ii,.b,.c,.d,.a,9,21,0xeb86d391⟩]

def md5Decode (input : Bytes) (i : Nat) : UInt32 :=
  let j := 4*i
  (input.getD j 0).toUInt32 ||| ((input.getD (j+1) 0).toUInt32 <<< 8) ||| ((input.getD (j+2) 0).toUInt32 <<< 16) |||
    ((input.getD (j+3) 0).toUInt32 <<< 24)

def md5Encode (input : List UInt32) : Bytes := input.flatMap fun (word : UInt32) =>
  [(word &&& 0xFF).toUInt8,((word >>> 8) &&& 0xFF).toUInt8,((word >>> 16) &&& 0xFF).toUInt8,((word >>> 24) &&& 0xFF).toUInt8]

def md5Transform (state : Md5.State) (block : Bytes) : Md5.State :=
  let locals := transformCalls.foldl (Call.run (md5Decode block)) state
  ⟨state.a+locals.a,state.b+locals.b,state.c+locals.c,state.d+locals.d⟩

-- Init leaves the buffer as the stack had it.
def md5Init (context : Md5Ctx) : Md5Ctx :=
  {context with count0 := 0,count1 := 0,state := ⟨0x67452301,0xEFCDAB89,0x98BADCFE,0x10325476⟩}

def Md5Ctx.index (context : Md5Ctx) : Nat := ((context.count0 >>> 3) &&& 0x3F).toNat

def md5Update (context : Md5Ctx) (input : Bytes) : Md5Ctx :=
  let inputlen := input.length.toUInt32
  let index := context.index
  let partlen := 64-index
  let count0 := context.count0+(inputlen <<< 3)
  let carried := if count0 < inputlen <<< 3 then context.count1+1 else context.count1
  let count1 := carried+(inputlen >>> 29)
  if partlen ≤ input.length then
    let buffer := memcpy context.buffer index (input.take partlen)
    let rest := input.drop partlen
    let looped := foldBlocks md5Transform 64 (rest.length/64) (md5Transform context.state (List.ofFn buffer)) rest
    ⟨count0,count1,looped.1,memcpy buffer 0 looped.2⟩
  else ⟨count0,count1,context.state,memcpy context.buffer index input⟩

def paddingBytes : Bytes := 0x80 :: List.replicate 63 0

def md5Final (context : Md5Ctx) : Bytes :=
  let index := context.index
  let padlen := if index < 56 then 56-index else 120-index
  let bits := md5Encode [context.count0,context.count1]
  let context := md5Update (md5Update context (paddingBytes.take padlen)) bits
  md5Encode [context.state.a,context.state.b,context.state.c,context.state.d]

-- fread until it brings nothing; a file is read as it is on the disk.
def freads (size : Nat) (file : Bytes) : List Bytes :=
  (List.range ((file.length+size-1)/size)).map fun i => (file.drop (size*i)).take size

def md5File (context : Md5Ctx) (file : Bytes) : Bytes := md5Final ((freads 1024 file).foldl md5Update (md5Init context))

-- Its len is not read: strlen stops at the first NUL.
def md5 (md5 : Md5Ctx) (str : Bytes) : Bytes := md5Final (md5Update (md5Init md5) (cString str))

theorem rotateLeft_rotated (x : UInt32) (some : 0 < n) (below : n < 32) : rotateLeft x n = rotated x n := by
  apply UInt32.eq_of_toBitVec_eq
  have left : (n.toUInt32.toBitVec%32).toNat = n := by
    simp [BitVec.toNat_umod]
    omega
  have right : ((32-n).toUInt32.toBitVec%32).toNat = 32-n := by
    simp [BitVec.toNat_umod]
    omega
  rw [rotateLeft,rotated,UInt32.toBitVec_or,UInt32.toBitVec_shiftLeft,UInt32.toBitVec_shiftRight,
    BitVec.shiftLeft_eq',BitVec.ushiftRight_eq',left,right,BitVec.rotateLeft_def,Nat.mod_eq_of_lt below]

theorem or_shift (a b k : Nat) (below : a < 2^k) : a ||| b <<< k = a+b*2^k := by
  rw [Nat.or_comm,← Nat.shiftLeft_add_eq_or_of_lt below,Nat.shiftLeft_eq,Nat.add_comm]

theorem md5Decode_word (input : Bytes) (i : Nat) : md5Decode input i = word input i := by
  have byte (b : UInt8) : b.toNat < 256 := b.toNat_lt
  unfold md5Decode word
  dsimp only
  generalize input.getD (4*i+1) 0 = b1
  generalize input.getD (4*i+2) 0 = b2
  generalize input.getD (4*i+3) 0 = b3
  rw [Nat.add_zero]
  generalize input.getD (4*i) 0 = b0
  have h0 := byte b0
  have h1 := byte b1
  have h2 := byte b2
  have h3 := byte b3
  apply UInt32.toNat_inj.mp
  have shifted (b : UInt8) (k : UInt32) (n : Nat) (amount : k.toNat%32 = n) (few : n ≤ 24) :
      (b.toUInt32 <<< k).toNat = b.toNat <<< n := by
    rw [UInt32.toNat_shiftLeft,UInt8.toNat_toUInt32,amount,Nat.shiftLeft_eq]
    apply Nat.mod_eq_of_lt
    have h := byte b
    calc b.toNat*2^n ≤ 255*2^24 := Nat.mul_le_mul (by omega) (Nat.pow_le_pow_right (by decide) few)
      _ < 2^32 := by decide
  rw [UInt32.toNat_or,UInt32.toNat_or,UInt32.toNat_or,shifted b1 8 8 rfl (by decide),shifted b2 16 16 rfl (by decide),
    shifted b3 24 24 rfl (by decide),UInt8.toNat_toUInt32,or_shift _ _ 8 h0,or_shift _ _ 16 (by omega),
    or_shift _ _ 24 (by omega)]
  refine (Nat.mod_eq_of_lt ?_).symm.trans (UInt32.toNat_ofNat' ..).symm
  omega

theorem littleEndian_four (n : Nat) :
    littleEndian 4 n = [n.toUInt8,(n/2^8).toUInt8,(n/2^16).toUInt8,(n/2^24).toUInt8] := by
  simp [littleEndian,List.range_succ]

theorem md5Encode_word (w : UInt32) : md5Encode [w] = littleEndian 4 w.toNat := by
  have masked (v : UInt32) : (v &&& 0xFF).toUInt8 = v.toNat.toUInt8 := by
    apply UInt8.toNat_inj.mp
    rw [UInt32.toNat_toUInt8,UInt32.toNat_and]
    change (v.toNat &&& (2^8-1))%2^8 = v.toNat%2^8
    rw [Nat.and_two_pow_sub_one_eq_mod,Nat.mod_mod]
  have shifted (k : UInt32) (n : Nat) (amount : k.toNat%32 = n) : (w >>> k).toNat = w.toNat/2^n := by
    rw [UInt32.toNat_shiftRight,amount,Nat.shiftRight_eq_div_pow]
  unfold md5Encode
  rw [List.flatMap_singleton,masked,masked,masked,masked,shifted 8 8 rfl,shifted 16 16 rfl,shifted 24 24 rfl]
  exact (littleEndian_four w.toNat).symm

def roundOf (i : Nat) : Round :=
  match i/16 with
  | 0 => .ff
  | 1 => .gg
  | 2 => .hh
  | _ => .ii

def callsOf (j : Nat) : List Call :=
  let call (i : Nat) (p q r s : Reg) : Call := ⟨roundOf i,p,q,r,s,wordIndex i,shift i,sines.getD i 0⟩
  [call (4*j) .a .b .c .d,call (4*j+1) .d .a .b .c,call (4*j+2) .c .d .a .b,call (4*j+3) .b .c .d .a]

theorem transformCalls_groups : transformCalls = (List.range 16).flatMap callsOf := by decide

theorem range_groups : List.range 64 = (List.range 16).flatMap fun j => [4*j,4*j+1,4*j+2,4*j+3] := by decide

theorem mix_auxiliary (x y z : UInt32) : (roundOf i).mix x y z = auxiliary (i/16) x y z := by
  unfold roundOf
  rcases i/16 with _ | _ | _ | _ <;> rfl

theorem shift_inside (inside : i < 64) : 0 < shift i ∧ shift i < 32 := by
  revert i
  decide

theorem call_run (x : Nat → UInt32) (locals : Md5.State) (inside : i < 64) (p q r s : Reg) :
    Call.run x locals ⟨roundOf i,p,q,r,s,wordIndex i,shift i,sines.getD i 0⟩ = writeReg locals
      (operation x ⟨readReg locals p,readReg locals q,readReg locals r,readReg locals s⟩ i).b p := by
  obtain ⟨some,below⟩ := shift_inside inside
  simp only [Call.run,operation,rotateLeft_rotated _ some below,mix_auxiliary]
  rw [UInt32.add_comm,UInt32.add_assoc,UInt32.add_assoc]
  simp only [UInt32.add_assoc]

theorem callsOf_operations (x : Nat → UInt32) (s : Md5.State) (inside : j < 16) :
    (callsOf j).foldl (Call.run x) s = [4*j,4*j+1,4*j+2,4*j+3].foldl (operation x) s := by
  simp only [callsOf,List.foldl_cons,List.foldl_nil]
  rw [call_run x _ (by omega),call_run x _ (by omega),call_run x _ (by omega),call_run x _ (by omega)]
  rfl

theorem md5Transform_compress (state : Md5.State) (block : Bytes) : md5Transform state block = compress state block := by
  have words : md5Decode block = word block := funext (md5Decode_word block)
  have rounds : ∀ (groups : List Nat) (s : Md5.State), (∀ j ∈ groups, j < 16) →
      (groups.flatMap callsOf).foldl (Call.run (word block)) s =
        (groups.flatMap fun j => [4*j,4*j+1,4*j+2,4*j+3]).foldl (operation (word block)) s := by
    intro groups
    induction groups with
    | nil => exact fun _ _ => rfl
    | cons j rest ih =>
      intro s inside
      obtain ⟨first,later⟩ := List.forall_mem_cons.mp inside
      rw [List.flatMap_cons,List.flatMap_cons,List.foldl_append,List.foldl_append,callsOf_operations _ _ first,ih _ later]
  unfold md5Transform compress
  rw [words,transformCalls_groups,range_groups,rounds _ _ fun j member => List.mem_range.mp member]

structure Represents (context : Md5Ctx) (data : Bytes) : Prop where
  count : context.count0.toNat+2^32*context.count1.toNat = 8*data.length%2^64
  state : context.state = (absorb compress 64 (initial,[]) data).1
  buffer : Holds context.buffer (absorb compress 64 (initial,[]) data).2

theorem md5Init_represents (context : Md5Ctx) : Represents (md5Init context) [] := ⟨rfl,rfl,holds_nil _⟩

theorem Represents.index (represents : Represents context data) : context.index = data.length%64 := by
  have count := represents.count
  have low := context.count0.toNat_lt
  change (context.count0 >>> 3 &&& 0x3F).toNat = _
  rw [UInt32.toNat_and,UInt32.toNat_shiftRight]
  change context.count0.toNat >>> 3 &&& (2^6-1) = _
  rw [Nat.and_two_pow_sub_one_eq_mod,Nat.shiftRight_eq_div_pow]
  omega

theorem Represents.pending (represents : Represents context data) :
    (absorb compress 64 (initial,[]) data).2.length = context.index := by
  rw [represents.index,absorb_length _ (by decide)]
  exact congrArg (·%64) (Nat.zero_add _)

theorem count_carried (low high length : UInt32) (total : Nat) (count : low.toNat+2^32*high.toNat = 8*total%2^64) :
    (low+(length <<< 3)).toNat+2^32*((if low+(length <<< 3) < length <<< 3 then high+1 else high)+(length >>> 29)).toNat =
      8*(total+length.toNat)%2^64 := by
  have a := low.toNat_lt
  have b := high.toNat_lt
  have c := length.toNat_lt
  have bits : (length <<< 3).toNat = 8*length.toNat%2^32 := by
    rw [UInt32.toNat_shiftLeft,Nat.shiftLeft_eq,Nat.mul_comm]
    rfl
  have top : (length >>> 29).toNat = length.toNat/2^29 := by
    rw [UInt32.toNat_shiftRight,Nat.shiftRight_eq_div_pow]
    rfl
  have sum : (low+(length <<< 3)).toNat = (low.toNat+8*length.toNat%2^32)%2^32 := by
    rw [UInt32.toNat_add,bits]
  split
  · rename_i carry
    have wrapped := UInt32.lt_iff_toNat_lt.mp carry
    rw [sum,bits] at wrapped
    rw [sum,UInt32.toNat_add,UInt32.toNat_add high 1,top]
    change _+2^32*(((high.toNat+1)%2^32+_)%2^32) = _
    omega
  · rename_i carry
    have kept := mt UInt32.lt_iff_toNat_lt.mpr carry
    rw [sum,bits] at kept
    rw [sum,UInt32.toNat_add,top]
    omega

theorem absorbed_update {words : Md5.State} {buffer : Fin 64 → UInt8} (input : Bytes)
    (state : words = (absorb compress 64 (initial,[]) data).1)
    (holds : Holds buffer (absorb compress 64 (initial,[]) data).2)
    (place : index = (absorb compress 64 (initial,[]) data).2.length) (below : index < 64) :
    if 64-index ≤ input.length then
      let filled := memcpy buffer index (input.take (64-index))
      let rest := input.drop (64-index)
      let looped := foldBlocks md5Transform 64 (rest.length/64) (md5Transform words (List.ofFn filled)) rest
      looped.1 = (absorb compress 64 (initial,[]) (data ++ input)).1 ∧
        Holds (memcpy filled 0 looped.2) (absorb compress 64 (initial,[]) (data ++ input)).2
    else
      words = (absorb compress 64 (initial,[]) (data ++ input)).1 ∧
        Holds (memcpy buffer index input) (absorb compress 64 (initial,[]) (data ++ input)).2 := by
  have same : md5Transform = compress := funext fun t => funext (md5Transform_compress t)
  rw [absorb_append,same]
  generalize absorb compress 64 (initial,[]) data = kept at state holds place ⊢
  obtain ⟨s,pending⟩ := kept
  dsimp only at state holds place
  subst words
  split
  · rename_i enough
    have taken : (input.take (64-index)).length = 64-index := List.length_take_of_le enough
    have full := holds_memcpy holds index place (input.take (64-index)) (by omega)
    have block := holds_full full (by rw [List.length_append]; omega)
    have filled : absorb compress 64 (s,pending) (input.take (64-index)) =
        (compress s (pending ++ input.take (64-index)),[]) :=
      absorb_filled (by omega) fun empty => by rw [empty] at taken; simp at taken; omega
    have looped (t : Md5.State) : absorb compress 64 (t,[]) (input.drop (64-index)) =
        foldBlocks compress 64 ((input.drop (64-index)).length/64) t (input.drop (64-index)) :=
      absorb_blocks (by decide) _ (Nat.div_mul_le_self _ 64) (Nat.lt_div_mul_add (by decide))
    have left : (foldBlocks compress 64 ((input.drop (64-index)).length/64)
        (compress s (pending ++ input.take (64-index))) (input.drop (64-index))).2.length < 64 := by
      rw [← looped,absorb_length _ (Nat.succ_pos 63)]
      exact Nat.mod_lt _ (by decide)
    have whole : absorb compress 64 (s,pending) input = foldBlocks compress 64 ((input.drop (64-index)).length/64)
        (compress s (pending ++ input.take (64-index))) (input.drop (64-index)) := by
      rw [← looped,← filled,← absorb_append,List.take_append_drop]
    rw [whole]
    dsimp only
    rw [block]
    exact ⟨rfl,holds_memcpy (holds_nil _) 0 rfl _ (by rw [List.length_nil]; omega)⟩
  · rename_i short
    have kept : absorb compress 64 (s,pending) input = (s,pending ++ input) := absorb_kept (by omega)
    rw [kept]
    exact ⟨rfl,holds_memcpy holds index place input (by omega)⟩

theorem Represents.update (represents : Represents context data) (input : Bytes) (few : input.length < 2^32) :
    Represents (md5Update context input) (data ++ input) := by
  have below : context.index < 64 := by
    rw [represents.index]
    exact Nat.mod_lt _ (by decide)
  have length : input.length.toUInt32.toNat = input.length := (UInt32.toNat_ofNat' ..).trans (Nat.mod_eq_of_lt few)
  have count := count_carried context.count0 context.count1 input.length.toUInt32 data.length represents.count
  rw [length,← List.length_append] at count
  have absorbed := absorbed_update input represents.state represents.buffer represents.pending.symm below
  unfold md5Update
  dsimp only
  split
  · rename_i enough
    rw [if_pos enough] at absorbed
    exact ⟨count,absorbed.1,absorbed.2⟩
  · rename_i short
    rw [if_neg short] at absorbed
    exact ⟨count,absorbed.1,absorbed.2⟩

theorem Represents.updates {chunks : List Bytes} (represents : Represents context data)
    (few : ∀ chunk ∈ chunks, chunk.length < 2^32) :
    Represents (chunks.foldl md5Update context) (data ++ chunks.flatten) := by
  induction chunks generalizing context data with
  | nil => rwa [List.flatten_nil,List.append_nil]
  | cons chunk rest ih =>
    obtain ⟨first,later⟩ := List.forall_mem_cons.mp few
    rw [List.flatten_cons,← List.append_assoc]
    exact ih (represents.update chunk first) later

theorem md5Encode_count (low high : UInt32) :
    md5Encode [low,high] = littleEndian 8 (low.toNat+2^32*high.toNat) := by
  have a := low.toNat_lt
  have apart : md5Encode [low,high] = md5Encode [low] ++ md5Encode [high] := rfl
  rw [apart,md5Encode_word,md5Encode_word,littleEndian_four,littleEndian_four]
  have eight (n : Nat) : littleEndian 8 n = [n.toUInt8,(n/2^8).toUInt8,(n/2^16).toUInt8,(n/2^24).toUInt8,
      (n/2^32).toUInt8,(n/2^40).toUInt8,(n/2^48).toUInt8,(n/2^56).toUInt8] := by
    simp [littleEndian,List.range_succ]
  have byte {m n : Nat} (same : m%256 = n%256) : m.toUInt8 = n.toUInt8 := UInt8.toNat_inj.mp same
  rw [eight]
  refine congrArg₂ _ (byte ?_) (congrArg₂ _ (byte ?_) (congrArg₂ _ (byte ?_) (congrArg₂ _ (byte ?_)
    (congrArg₂ _ (byte ?_) (congrArg₂ _ (byte ?_) (congrArg₂ _ (byte ?_) (congrArg₂ _ (byte ?_) rfl)))))))
  all_goals omega

theorem md5Encode_state (s : Md5.State) : md5Encode [s.a,s.b,s.c,s.d] = s.bytes := by
  have words : md5Encode [s.a,s.b,s.c,s.d] =
      md5Encode [s.a] ++ (md5Encode [s.b] ++ (md5Encode [s.c] ++ (md5Encode [s.d] ++ []))) := rfl
  rw [words,md5Encode_word,md5Encode_word,md5Encode_word,md5Encode_word]
  rfl

theorem padding_taken (length : Nat) :
    paddingBytes.take (if length%64 < 56 then 56-length%64 else 120-length%64) =
      0x80 :: List.replicate ((119-length%64)%64) 0 := by
  have below : length%64 < 64 := Nat.mod_lt _ (by decide)
  generalize length%64 = index at below ⊢
  revert index
  decide

theorem Represents.final (represents : Represents context data) : md5Final context = digest data := by
  have few : (paddingBytes.take (if context.index < 56 then 56-context.index else 120-context.index)).length < 2^32 := by
    rw [List.length_take]
    exact Nat.lt_of_le_of_lt (Nat.min_le_right ..) (by decide)
  have padded := (represents.update _ few).update (md5Encode [context.count0,context.count1])
    (Nat.lt_of_le_of_lt (Nat.le_refl 8) (by decide))
  rw [represents.index,padding_taken,md5Encode_count,represents.count,List.append_assoc] at padded
  rw [digest_absorb,padding,← padded.state]
  unfold md5Final
  dsimp only
  rw [represents.index,padding_taken,md5Encode_count,represents.count,md5Encode_state]

theorem md5Final_digest (context : Md5Ctx) {chunks : List Bytes} (few : ∀ chunk ∈ chunks, chunk.length < 2^32) :
    md5Final (chunks.foldl md5Update (md5Init context)) = digest chunks.flatten := by
  have represents := (md5Init_represents context).updates few
  rw [List.nil_append] at represents
  exact represents.final

theorem md5_digest (context : Md5Ctx) (few : (cString str).length < 2^32) : md5 context str = digest (cString str) :=
  ((md5Init_represents context).update _ few).final

theorem freads_flatten (some : 0 < size) (file : Bytes) : (freads size file).flatten = file := by
  have upTo (n : Nat) : ((List.range n).map fun i => (file.drop (size*i)).take size).flatten = file.take (size*n) := by
    induction n with
    | zero => rw [Nat.mul_zero]; rfl
    | succ n ih =>
      rw [List.range_succ,List.map_append,List.flatten_append,ih,Nat.mul_succ,List.take_add]
      simp
  rw [freads,upTo]
  apply List.take_of_length_le
  have turns := Nat.lt_div_mul_add (a := file.length+size-1) some
  rw [Nat.mul_comm] at turns
  omega

theorem md5File_digest (context : Md5Ctx) (file : Bytes) : md5File context file = digest file := by
  have few : ∀ chunk ∈ freads 1024 file, chunk.length < 2^32 := by
    intro chunk member
    obtain ⟨i,_,rfl⟩ := List.mem_map.mp member
    rw [List.length_take]
    omega
  rw [md5File,md5Final_digest context few,freads_flatten (by decide)]

end ImAcc
