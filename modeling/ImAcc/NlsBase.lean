import ImAcc.Lib.Json
import ImAcc.Lib.Utf8

-- nls_base.c. Both files redefine wchar_t to sixteen bits.
namespace ImAcc
open JsonC Utf8

structure Utf8Table where
  cmask : Nat
  cval : Nat
  shift : Nat
  lmask : Nat
  lval : Nat

def utf8Table : List Utf8Table :=
  [⟨0x80,0x00,0,0x7f,0⟩,⟨0xe0,0xc0,6,0x7ff,0x80⟩,⟨0xf0,0xe0,12,0xffff,0x800⟩,
    ⟨0xf8,0xf0,18,0x1fffff,0x10000⟩,⟨0xfc,0xf8,24,0x3ffffff,0x200000⟩,⟨0xfe,0xfc,30,0x7fffffff,0x4000000⟩]

-- s stands at the byte read last, behind the text at its NUL; none is the answer -1.
def mbtowcFrom (c0 n : Nat) : List Utf8Table → Nat → Nat → Bytes → Option (UInt16 × Nat)
  | [],_,_,_ => none
  | t :: rest,nc,l,s =>
    if c0 &&& t.cmask = t.cval then
      if l &&& t.lmask < t.lval then none else some (UInt16.ofNat (l &&& t.lmask),nc+1)
    else if n ≤ nc+1 then none
    else
      let c := ((s.drop 1).headD 0 ^^^ 0x80).toNat
      if c &&& 0xc0 ≠ 0 then none else mbtowcFrom c0 n rest (nc+1) (l <<< 6 ||| c) (s.drop 1)

def utf8Mbtowc (s : Bytes) (n : Nat) : Option (UInt16 × Nat) :=
  mbtowcFrom (s.headD 0).toNat n utf8Table 0 (s.headD 0).toNat s

def mbstowcsFrom : Nat → Bytes → Nat → List UInt16
  | turn+1,b :: rest,n+1 =>
    if b = 0 then []
    else if b &&& 0x80 ≠ 0 then match utf8Mbtowc (b :: rest) (n+1) with
      | none => mbstowcsFrom turn rest n
      | some (wc,size) => wc :: mbstowcsFrom turn ((b :: rest).drop size) (n+1-size)
    else b.toUInt16 :: mbstowcsFrom turn rest n
  | _,_,_ => []

def utf8Mbstowcs (s : Bytes) (n : Nat) : List UInt16 := mbstowcsFrom n s n

def continuation (l : Nat) : Nat → Bytes
  | 0 => []
  | more+1 => UInt8.ofNat (0x80 ||| (l >>> (6*more) &&& 0x3f)) :: continuation l more

def wctombFrom (l : Nat) : List Utf8Table → Nat → Option Bytes
  | t :: rest,maxlen+1 =>
    if l ≤ t.lmask then some (UInt8.ofNat (t.cval ||| l >>> t.shift) :: continuation l (t.shift/6))
    else wctombFrom l rest maxlen
  | _,_ => none

-- What is written; nc, the answer, is its length. none is the answer -1.
def utf8Wctomb (wc : UInt16) (maxlen : Nat) : Option Bytes := wctombFrom wc.toNat utf8Table maxlen

-- The list is the text before its terminator. A byte below 0x80 is not counted.
def utf8Wcstombs : List UInt16 → Nat → Bytes
  | ip :: rest,maxlen+1 =>
    if ip = 0 then []
    else if 0x7f < ip then match utf8Wctomb ip (maxlen+1) with
      | none => utf8Wcstombs rest maxlen
      | some s => s ++ utf8Wcstombs rest (maxlen+1-s.length)
    else ip.toUInt8 :: utf8Wcstombs rest (maxlen+1)
  | _,_ => []

theorem or_lead2 : ∀ x < 32, 0xc0 ||| x = 0xc0+x ∧ (0xc0+x) &&& 0x80 ≠ 0 ∧ (0xc0+x) &&& 0xe0 = 0xc0 := by decide
theorem or_lead3 : ∀ x < 16, 0xe0 ||| x = 0xe0+x ∧ (0xe0+x) &&& 0x80 ≠ 0 ∧ (0xe0+x) &&& 0xe0 ≠ 0xc0 ∧
    (0xe0+x) &&& 0xf0 = 0xe0 := by decide
theorem or_tail : ∀ x < 64, 0x80 ||| x = 0x80+x ∧ (UInt8.ofNat (0x80+x) ^^^ 0x80).toNat = x ∧ x &&& 0xc0 = 0 := by decide

theorem joined (l : Nat) (six : c < 64) : l <<< 6 ||| c = l*64+c := by
  rw [← Nat.shiftLeft_add_eq_or_of_lt six,Nat.shiftLeft_eq]

theorem masked (bits : Nat) (ones : mask+1 = 2^bits) (l : Nat) : l &&& mask = l%2^bits := by
  rw [← Nat.and_two_pow_sub_one_eq_mod,← ones,Nat.add_sub_cancel]

theorem utf8Wctomb_unit (wc : UInt16) (above : 0x7f < wc.toNat) (room : encodedLength wc.toNat ≤ maxlen) :
    utf8Wctomb wc maxlen = some (encodeUnit wc.toNat) := by
  have narrow := wc.toNat_lt
  unfold encodedLength at room
  unfold utf8Wctomb encodeUnit
  generalize wc.toNat = u at *
  have tail (shift : Nat) : 0x80 ||| (u >>> shift &&& 0x3f) = 0x80+u/2^shift%64 := by
    rw [masked 6 rfl,Nat.shiftRight_eq_div_pow]
    exact (or_tail _ (Nat.mod_lt _ (by decide))).1
  rw [if_neg (by omega)] at room ⊢
  by_cases two : u ≤ 0x7ff
  · rw [if_pos two] at room ⊢
    obtain ⟨maxlen,rfl⟩ : ∃ more, maxlen = more+2 := ⟨maxlen-2,by omega⟩
    have lead := (or_lead2 (u/64) (by omega)).1
    simp only [utf8Table,wctombFrom,if_neg (show ¬u ≤ 0x7f by omega),if_pos two,continuation,tail]
    simp [Nat.shiftRight_eq_div_pow,lead]
  · rw [if_neg two] at room ⊢
    obtain ⟨maxlen,rfl⟩ : ∃ more, maxlen = more+3 := ⟨maxlen-3,by omega⟩
    have lead := (or_lead3 (u/4096) (by omega)).1
    simp only [utf8Table,wctombFrom,if_neg (show ¬u ≤ 0x7f by omega),if_neg two,if_pos (show u ≤ 0xffff by omega),
      continuation,tail]
    simp [Nat.shiftRight_eq_div_pow,lead]

theorem utf8Mbtowc_unit (wc : UInt16) (above : 0x7f < wc.toNat) (room : encodedLength wc.toNat ≤ n) (rest : Bytes) :
    utf8Mbtowc (encodeUnit wc.toNat ++ rest) n = some (wc,encodedLength wc.toNat) := by
  have narrow := wc.toNat_lt
  have value : UInt16.ofNat wc.toNat = wc := UInt16.ofNat_toNat
  unfold encodedLength at room ⊢
  unfold utf8Mbtowc encodeUnit
  generalize wc.toNat = u at *
  have byte (x : Nat) (small : x < 256) : (UInt8.ofNat x).toNat = x := UInt8.toNat_ofNat_of_lt' small
  rw [if_neg (show ¬u ≤ 0x7f by omega)] at room ⊢
  rw [if_neg (show ¬u ≤ 0x7f by omega)]
  have last := or_tail (u%64) (Nat.mod_lt _ (by decide))
  by_cases two : u ≤ 0x7ff
  · rw [if_pos two] at room
    have lead := or_lead2 (u/64) (by omega)
    have sum : ((0xc0+u/64) <<< 6 ||| u%64) &&& 0x7ff = u := by
      rw [joined _ (Nat.mod_lt _ (by decide)),masked 11 rfl]
      omega
    simp only [if_pos two,List.cons_append,List.nil_append,List.headD_cons,byte (0xc0+u/64) (by omega),utf8Table,mbtowcFrom,
      if_neg lead.2.1,if_neg (show ¬n ≤ 0+1 by omega),List.drop_succ_cons,List.drop_zero,last.2.1,last.2.2,ne_eq,
      not_true_eq_false,if_false,if_pos lead.2.2,sum,if_neg (show ¬u < 0x80 by omega),value]
  · rw [if_neg two] at room
    have lead := or_lead3 (u/4096) (by omega)
    have mid := or_tail (u/64%64) (Nat.mod_lt _ (by decide))
    have sum : (((0xe0+u/4096) <<< 6 ||| u/64%64) <<< 6 ||| u%64) &&& 0xffff = u := by
      rw [joined _ (Nat.mod_lt _ (by decide)),joined _ (Nat.mod_lt _ (by decide)),masked 16 rfl]
      omega
    simp only [if_neg two,List.cons_append,List.nil_append,List.headD_cons,byte (0xe0+u/4096) (by omega),utf8Table,mbtowcFrom,
      if_neg lead.2.1,if_neg lead.2.2.1,if_neg (show ¬n ≤ 0+1 by omega),if_neg (show ¬n ≤ 0+1+1 by omega),List.drop_succ_cons,
      List.drop_zero,mid.2.1,mid.2.2,last.2.1,last.2.2,ne_eq,not_true_eq_false,if_false,if_pos lead.2.2.2,sum,
      if_neg (show ¬u < 0x800 by omega),value]

theorem ascii_wide (wc : UInt16) (low : ¬0x7f < wc.toNat) : wc.toUInt8.toUInt16 = wc ∧ wc.toUInt8 &&& 0x80 = 0 ∧
    encodeUnit wc.toNat = [wc.toUInt8] ∧ (wc ≠ 0 → wc.toUInt8 ≠ 0) := by
  have small : wc.toNat % 2^8 = wc.toNat := Nat.mod_eq_of_lt (by omega)
  have same : wc.toUInt8.toNat = wc.toNat := by rw [UInt16.toNat_toUInt8,small]
  refine ⟨UInt16.toNat_inj.mp (by rw [UInt8.toNat_toUInt16,same]),?_,?_,fun nonzero zero => nonzero ?_⟩
  · have clear : ∀ x < 0x80, x &&& 0x80 = 0 := by decide
    apply UInt8.toNat_inj.mp
    rw [UInt8.toNat_and,same]
    exact clear _ (by omega)
  · rw [encodeUnit,if_pos (by omega),← same,UInt8.ofNat_toNat]
  · apply UInt16.toNat_inj.mp
    rw [← same,zero]
    rfl

theorem encodeUnit_high (above : 0x7f < unit) (narrow : unit < 0x10000) :
    ∃ b more, encodeUnit unit = b :: more ∧ b ≠ 0 ∧ b &&& 0x80 ≠ 0 := by
  have high (x : Nat) (small : x < 256) (bit : x &&& 0x80 ≠ 0) : UInt8.ofNat x ≠ 0 ∧ UInt8.ofNat x &&& 0x80 ≠ 0 := by
    have toNat : (UInt8.ofNat x &&& 0x80).toNat = x &&& 0x80 := by
      rw [UInt8.toNat_and,UInt8.toNat_ofNat_of_lt' small]
      rfl
    have set : UInt8.ofNat x &&& 0x80 ≠ 0 := fun zero => bit (by rw [← toNat,zero]; rfl)
    exact ⟨fun zero => set (by rw [zero]; rfl),set⟩
  unfold encodeUnit
  rw [if_neg (by omega)]
  split
  · exact ⟨_,_,rfl,high _ (by omega) (or_lead2 _ (by omega)).2.1⟩
  · exact ⟨_,_,rfl,high _ (by omega) (or_lead3 _ (by omega)).2.1⟩

def encoded (wide : List UInt16) : Bytes := wide.flatMap fun wc => encodeUnit wc.toNat

theorem encoded_cons (wc : UInt16) (rest : List UInt16) : encoded (wc :: rest) = encodeUnit wc.toNat ++ encoded rest := rfl

theorem encoded_clean (nonzero : (0 : UInt16) ∉ wide) : (0 : UInt8) ∉ encoded wide := by
  intro member
  obtain ⟨wc,unit,zero⟩ := List.mem_flatMap.mp member
  have some : wc.toNat ≠ 0 := fun value => by
    have nul : wc = 0 := UInt16.toNat_inj.mp value
    exact nonzero (nul ▸ unit)
  exact encodeUnit_clean some wc.toNat_lt zero

-- With three bytes of room for each, every unit before a terminator is written.
theorem utf8Wcstombs_encoded (wide : List UInt16) (nonzero : (0 : UInt16) ∉ wide) (room : 3*wide.length ≤ maxlen) :
    utf8Wcstombs wide maxlen = encoded wide := by
  induction wide generalizing maxlen with
  | nil => cases maxlen <;> rfl
  | cons wc rest ih =>
    rw [List.length_cons] at room
    obtain ⟨maxlen,rfl⟩ : ∃ more, maxlen = more+1 := ⟨maxlen-1,by omega⟩
    have here : wc ≠ 0 := fun zero => nonzero (zero ▸ List.mem_cons_self)
    have later : (0 : UInt16) ∉ rest := fun member => nonzero (List.mem_cons_of_mem _ member)
    have size := encodedLength_bounds wc.toNat
    rw [encoded_cons,utf8Wcstombs,if_neg here]
    by_cases above : 0x7f < wc.toNat
    · have shown : 0x7f < wc := above
      rw [if_pos shown,utf8Wctomb_unit wc above (by omega)]
      dsimp only
      rw [encodeUnit_length,ih later (by omega)]
    · have shown : ¬0x7f < wc := above
      rw [if_neg shown,(ascii_wide wc above).2.2.1,ih later (by omega)]
      rfl

theorem continuation_length (l more : Nat) : (continuation l more).length = more := by
  induction more with
  | zero => rfl
  | succ more ih => rw [continuation,List.length_cons,ih]

theorem wctombFrom_some (written : wctombFrom l (t :: rest) maxlen = some s) :
    s.length = t.shift/6+1 ∨ (t.lmask < l ∧ ∃ left, wctombFrom l rest left = some s) := by
  cases maxlen with
  | zero => cases written
  | succ maxlen =>
    rw [wctombFrom] at written
    split at written
    · rw [← Option.some.inj written,List.length_cons,continuation_length]
      exact .inl rfl
    · exact .inr ⟨by omega,maxlen,written⟩

theorem utf8Wctomb_length (written : utf8Wctomb wc maxlen = some s) : s.length ≤ 3 := by
  have narrow := wc.toNat_lt
  rcases wctombFrom_some written with one | ⟨_,_,more⟩
  · exact one ▸ by decide
  rcases wctombFrom_some more with two | ⟨_,_,more⟩
  · exact two ▸ by decide
  rcases wctombFrom_some more with three | ⟨above,_,_⟩
  · exact three ▸ by decide
  · exact absurd narrow (Nat.not_lt.mpr above)

theorem utf8Wcstombs_length (wide : List UInt16) (maxlen : Nat) : (utf8Wcstombs wide maxlen).length ≤ 3*wide.length := by
  fun_induction utf8Wcstombs wide maxlen with
  | case1 => exact Nat.zero_le _
  | case2 ip rest maxlen nonzero above refused ih => rw [List.length_cons]; omega
  | case3 ip rest maxlen nonzero above s written ih =>
    have few := utf8Wctomb_length written
    rw [List.length_append,List.length_cons]
    omega
  | case4 ip rest maxlen nonzero low ih => rw [List.length_cons,List.length_cons]; omega
  | case5 => exact Nat.zero_le _

theorem mbstowcsFrom_encoded (wide : List UInt16) (nonzero : (0 : UInt16) ∉ wide)
    (turns : (encoded wide).length ≤ turn) : mbstowcsFrom turn (encoded wide) (encoded wide).length = wide := by
  induction wide generalizing turn with
  | nil => cases turn <;> rfl
  | cons wc rest ih =>
    have here : wc ≠ 0 := fun zero => nonzero (zero ▸ List.mem_cons_self)
    have later : (0 : UInt16) ∉ rest := fun member => nonzero (List.mem_cons_of_mem _ member)
    have size := encodedLength_bounds wc.toNat
    have length : (encoded (wc :: rest)).length = encodedLength wc.toNat+(encoded rest).length := by
      rw [encoded_cons,List.length_append,encodeUnit_length]
    rw [length] at turns ⊢
    obtain ⟨turn,rfl⟩ : ∃ more, turn = more+1 := ⟨turn-1,by omega⟩
    have next : mbstowcsFrom turn (encoded rest) (encoded rest).length = rest := ih later (by omega)
    by_cases above : 0x7f < wc.toNat
    · obtain ⟨b,more,text,nonzero,high⟩ := encodeUnit_high above wc.toNat_lt
      have decoded := utf8Mbtowc_unit wc above (Nat.le_add_right _ (encoded rest).length) (encoded rest)
      have behind : (encodeUnit wc.toNat ++ encoded rest).drop (encodedLength wc.toNat) = encoded rest := by
        rw [← encodeUnit_length,List.drop_left]
      obtain ⟨n,count⟩ : ∃ n, encodedLength wc.toNat+(encoded rest).length = n+1 :=
        ⟨encodedLength wc.toNat+(encoded rest).length-1,by omega⟩
      have remaining : n+1-encodedLength wc.toNat = (encoded rest).length := by omega
      rw [encoded_cons]
      rw [text,List.cons_append] at decoded behind ⊢
      rw [count] at decoded ⊢
      rw [mbstowcsFrom,if_neg nonzero,if_pos high,decoded]
      dsimp only
      rw [behind,remaining,next]
    · have ascii := ascii_wide wc above
      have one : encodedLength wc.toNat+(encoded rest).length = (encoded rest).length+1 := by
        rw [encodedLength,if_pos (by omega),Nat.add_comm]
      rw [encoded_cons,ascii.2.2.1,List.singleton_append,one,mbstowcsFrom,if_neg (ascii.2.2.2 here),
        if_neg (not_not.mpr ascii.2.1),ascii.1,next]

theorem utf8Mbstowcs_encoded (wide : List UInt16) (nonzero : (0 : UInt16) ∉ wide) :
    utf8Mbstowcs (encoded wide) (encoded wide).length = wide :=
  mbstowcsFrom_encoded wide nonzero (Nat.le_refl _)

end ImAcc
