import ImAcc.LookAhead

-- The characters of GB18030 as char2uni accepts them.
namespace ImAcc
open JsonC Utf8

-- char2uni takes all of it: in one call, or as the two halves of a pair.
def Accepted (tables : Tables) (char : Bytes) : Prop :=
  (∃ u, char2uni tables .clear char char.length = some (.wide char.length u,.clear)) ∨
  ∃ n u half m v, half.predict = true ∧ char2uni tables .clear char char.length = some (.wide n u,half) ∧
    char2uni tables half (char.drop n) (char.drop n).length = some (.wide m v,.clear) ∧ n+m = char.length

def codePoint (tables : Tables) : Bytes → Nat
  | [b] => b.toNat
  | [b0,b1] => (readTable tables.twobyteToUcs ((b0.toNat-0x81)*192+(b1.toNat-0x40))).getD 0
  | [b0,b1,b2,b3] =>
    if Supplementary b0.toNat b1.toNat b2.toNat b3.toNat then
      0x20000 ||| linear 0x95 b0.toNat b1.toNat b2.toNat b3.toNat-skipped
    else (fourbyteUcs tables (linear 0x81 b0.toNat b1.toNat b2.toNat b3.toNat)).getD 0
  | _ => 0

inductive Character (tables : Tables) : Bytes → Nat → Prop
  | ascii (some : b ≠ 0) (low : b.toNat ≤ 0x7f) : Character tables [b] b.toNat
  | twobyte (lead : Lead b0) (second : 0x40 ≤ b1.toNat)
      (entry : readTable tables.twobyteToUcs ((b0.toNat-0x81)*192+(b1.toNat-0x40)) = some u) (mapped : u ≠ 0) :
      Character tables [b0,b1] u
  | fourbyte (lead : Lead b0) (digit : Digit b1) (third : Lead b2) (fourth : Digit b3)
      (basic : ¬Supplementary b0.toNat b1.toNat b2.toNat b3.toNat)
      (entry : fourbyteUcs tables (linear 0x81 b0.toNat b1.toNat b2.toNat b3.toNat) = some u) (mapped : u ≠ 0) :
      Character tables [b0,b1,b2,b3] u
  | supplementary (lead : Lead b0) (digit : Digit b1) (third : Lead b2) (fourth : Digit b3)
      (plane : Supplementary b0.toNat b1.toNat b2.toNat b3.toNat)
      (code : ucs = 0x20000 ||| linear 0x95 b0.toNat b1.toNat b2.toNat b3.toNat-skipped) : Character tables [b0,b1,b2,b3] ucs

theorem char2uni_ahead (ahead : statics.predict = true)
    (answered : char2uni tables statics text boundlen = some (.wide n u,later)) : n = 2 := by
  unfold char2uni at answered
  rw [if_pos ahead] at answered
  split at answered
  · obtain ⟨_,_,answered⟩ := Option.bind_eq_some_iff.mp answered
    obtain ⟨_,_,answered⟩ := Option.map_eq_some_iff.mp answered
    split at answered <;> cases answered
    rfl
  · cases answered

theorem accepted_character (accepted : Accepted tables char) (clean : (0 : UInt8) ∉ char) :
    Character tables char (codePoint tables char) := by
  rcases char with _ | ⟨b0,text⟩
  · rcases accepted with ⟨_,impossible⟩ | ⟨_,_,_,_,_,_,impossible,_⟩ <;> cases impossible
  have read : ∀ {n u half}, char2uni tables .clear (b0 :: text) (b0 :: text).length = some (.wide n u,half) →
      Takes tables (b0 :: text) n u half := by
    intro n u half answered
    rcases char2uni_clear tables b0 text with ⟨_,stopped⟩ | ⟨_,_,_,taken,takes⟩
    · cases answered.symm.trans stopped
    · cases answered.symm.trans taken
      exact takes
  rcases accepted with ⟨u,answered⟩ | ⟨n,u,half,m,v,ahead,first,second,whole⟩
  · have takes := read answered
    generalize long : (b0 :: text).length = n at takes
    generalize idle : Char2uni.clear = half at takes
    cases takes with
    | ascii low =>
      cases List.eq_nil_of_length_eq_zero (Nat.succ.inj long)
      exact .ascii (fun zero => clean (zero ▸ List.mem_cons_self)) low
    | @twobyte _ u b1 rest lead second entry mapped =>
      cases List.eq_nil_of_length_eq_zero (Nat.succ.inj (Nat.succ.inj long))
      have code : codePoint tables [b0,b1] = u := by rw [codePoint,entry]; rfl
      rw [code]
      exact .twobyte lead second entry mapped
    | @fourbyte _ b1 b2 b3 u rest lead digit third fourth basic entry mapped =>
      cases List.eq_nil_of_length_eq_zero (Nat.succ.inj (Nat.succ.inj (Nat.succ.inj (Nat.succ.inj long))))
      have code : codePoint tables [b0,b1,b2,b3] = u := by rw [codePoint,if_neg basic,entry]; rfl
      rw [code]
      exact .fourbyte lead digit third fourth basic entry mapped
    | supplementary => cases idle
  · have takes := read first
    have two := char2uni_ahead ahead second
    cases takes with
    | ascii | twobyte | fourbyte => cases ahead
    | @supplementary _ b1 b2 b3 _ rest lead digit third fourth plane code =>
      subst two
      cases List.eq_nil_of_length_eq_zero (Nat.succ.inj (Nat.succ.inj (Nat.succ.inj (Nat.succ.inj whole.symm))))
      exact .supplementary lead digit third fourth plane (by rw [codePoint,if_pos plane])

theorem readTable_narrow {n : Nat} {table : Fin n → UInt16} (entry : readTable table idx = some u) : u < 0x10000 := by
  unfold readTable at entry
  split at entry
  · rw [← Option.some.inj entry]
    exact UInt16.toNat_lt _
  · cases entry

theorem fourbyteUcs_narrow (entry : fourbyteUcs tables idx = some u) : u < 0x10000 := by
  unfold fourbyteUcs at entry
  split at entry
  · exact readTable_narrow entry
  split at entry
  · cases entry; omega
  split at entry
  · exact readTable_narrow entry
  split at entry
  · cases entry; omega
  split at entry
  · exact readTable_narrow entry
  · cases entry; omega

theorem plane2 (plane : Supplementary ch ch2 ch3 ch4) :
    ∃ x ≤ 0xffff, 0x20000 ||| linear 0x95 ch ch2 ch3 ch4-skipped = 0x20000+x := by
  refine ⟨linear 0x95 ch ch2 ch3 ch4-skipped,plane.2.2.2,?_⟩
  have small : linear 0x95 ch ch2 ch3 ch4-skipped < 2^17 := Nat.lt_of_le_of_lt plane.2.2.2 (by decide)
  exact (Nat.shiftLeft_add_eq_or_of_lt small 1).symm

theorem character_length (character : Character tables char ucs) :
    char ≠ [] ∧ (char.length = 1 ∨ char.length = 2 ∨ char.length = 4) ∧ (0x10000 ≤ ucs → char.length = 4) := by
  cases character with
  | ascii _ low => exact ⟨List.cons_ne_nil _ _,.inl rfl,fun high => by omega⟩
  | twobyte _ _ entry _ =>
    have narrow := readTable_narrow entry
    exact ⟨List.cons_ne_nil _ _,.inr (.inl rfl),fun high => by omega⟩
  | fourbyte | supplementary => exact ⟨List.cons_ne_nil _ _,.inr (.inr rfl),fun _ => rfl⟩

theorem character_wide (character : Character tables char ucs) (wide : 0x10000 ≤ ucs) :
    ∃ b0 b1 b2 b3, char = [b0,b1,b2,b3] ∧ Lead b0 ∧ Digit b1 ∧ Lead b2 ∧ Digit b3 ∧
      Supplementary b0.toNat b1.toNat b2.toNat b3.toNat ∧
      ucs = 0x20000 ||| linear 0x95 b0.toNat b1.toNat b2.toNat b3.toNat-skipped := by
  cases character with
  | ascii _ low => omega
  | twobyte _ _ entry _ => exact absurd (readTable_narrow entry) (Nat.not_lt.mpr wide)
  | fourbyte _ _ _ _ _ entry _ => exact absurd (fourbyteUcs_narrow entry) (Nat.not_lt.mpr wide)
  | supplementary lead digit third fourth plane code => exact ⟨_,_,_,_,rfl,lead,digit,third,fourth,plane,code⟩

theorem character_basic (character : Character tables char ucs) (narrow : ucs < 0x10000) (rest : Bytes) :
    char2uni tables .clear (char ++ rest) (char ++ rest).length = some (.wide char.length (UInt16.ofNat ucs),.clear) := by
  apply char2uni_takes
  cases character with
  | @ascii b some low =>
    have same : UInt16.ofNat b.toNat = b.toUInt16 := UInt16.toNat_inj.mp (by
      rw [UInt8.toNat_toUInt16,UInt16.toNat_ofNat_of_lt' (by change _ < 65536; omega)])
    rw [same]
    exact .ascii low
  | twobyte lead second entry mapped => exact .twobyte lead second entry mapped
  | fourbyte lead digit third fourth basic entry mapped => exact .fourbyte lead digit third fourth basic entry mapped
  | supplementary _ _ _ _ plane code =>
    obtain ⟨x,_,sum⟩ := plane2 plane
    omega

theorem character_pair (character : Character tables char ucs) (wide : 0x10000 ≤ ucs) (rest : Bytes) :
    ∃ half, char2uni tables .clear (char ++ rest) (char ++ rest).length = some (.wide 2 (chhi ucs),half) ∧
      char2uni tables half ((char ++ rest).drop 2) ((char ++ rest).drop 2).length = some (.wide 2 (chlow ucs),.clear) := by
  obtain ⟨b0,b1,b2,b3,rfl,lead,digit,third,fourth,plane,code⟩ := character_wide character wide
  exact ⟨_,char2uni_takes (.supplementary lead digit third fourth plane code),by simp [char2uni]⟩

def units (ucs : Nat) : List UInt16 := if ucs < 0x10000 then [UInt16.ofNat ucs] else [chhi ucs,chlow ucs]

theorem pair_units (plane : Supplementary ch ch2 ch3 ch4) (code : ucs = 0x20000 ||| linear 0x95 ch ch2 ch3 ch4-skipped) :
    (0xd840 ≤ (chhi ucs).toNat ∧ (chhi ucs).toNat < 0xdc00) ∧ Low (chlow ucs).toNat := by
  obtain ⟨x,few,sum⟩ := plane2 plane
  have high : (0x10000+x &&& 0xfffffc00) >>> 10 = (0x10000+x)/1024 := by
    have mask : 0xfffffc00 >>> 10 = 0x3fffff := rfl
    rw [Nat.shiftRight_and_distrib,Nat.shiftRight_eq_div_pow,mask,masked 22 rfl]
    omega
  have low : 0x10000+x &&& 0x3ff = (0x10000+x)%2^10 := masked 10 rfl _
  have left : ucs-0x10000 = 0x10000+x := by omega
  unfold chhi chlow Low
  rw [left,high,low,UInt16.toNat_ofNat_of_lt' (by change _ < 65536; omega),
    UInt16.toNat_ofNat_of_lt' (by change _ < 65536; omega)]
  omega

-- What the source's tables are: inverse to each other, and packed in order.
def fourbyteIndex (i : Nat) : Nat := if i < 22205 then i else if i < 22378 then i+11172 else i+15467

structure Consistent (tables : Tables) : Prop where
  twobyte : ∀ i, tables.twobyteToUcs i ≠ 0 → 0x80 ≤ (tables.twobyteToUcs i).toNat ∧ Scalar (tables.twobyteToUcs i).toNat ∧
    target tables (tables.twobyteToUcs i).toNat = .two (UInt8.ofNat (0x81+i.val/192),UInt8.ofNat (0x40+i.val%192))
  fourbyte : ∀ i, tables.fourbyteToUcs i ≠ 0 → 0x80 ≤ (tables.fourbyteToUcs i).toNat ∧
    Scalar (tables.fourbyteToUcs i).toNat ∧ target tables (tables.fourbyteToUcs i).toNat = .four (fourbyteIndex i.val)
  counted : ∀ ch, 0xe865 ≤ ch → ch ≤ 0xf92b → target tables ch = .four (ch-0x6557)

theorem index_target (few : idx < 0x6100) (base : Nat) : (Code.index idx few).target base = .four (idx+base) := by
  have first : (UInt8.ofNat (0x20+idx/256)).toNat = 0x20+idx/256 := UInt8.toNat_ofNat_of_lt' (by change _ < 256; omega)
  have second : (UInt8.ofNat (idx%256)).toNat = idx%256 := UInt8.toNat_ofNat_of_lt' (by change _ < 256; omega)
  have some : UInt8.ofNat (0x20+idx/256) ≠ 0 := fun zero => by
    rw [zero] at first
    exact absurd first (by change 0 ≠ _; omega)
  have low : UInt8.ofNat (0x20+idx/256) < 0x81 := by
    rw [UInt8.lt_iff_toNat_lt,first]
    change _ < 0x81
    omega
  unfold Code.target Code.index
  dsimp only
  rw [if_neg some,if_pos low,first,second]
  exact congrArg Target.four (by omega)

theorem excerpt_consistent : Consistent excerpt where
  twobyte i nonzero := by
    rcases Decidable.em (i.val = 9121) with here | other
    · have value : excerpt.twobyteToUcs i = 0x554a := if_pos here
      rw [value,here]
      exact ⟨by decide,by decide,by decide⟩
    · exact absurd (if_neg other) nonzero
  fourbyte i nonzero := by
    rcases Decidable.em (i.val = 36) with here | other
    · have value : excerpt.fourbyteToUcs i = 0xa5 := if_pos here
      rw [value,here]
      exact ⟨by decide,by decide,by decide⟩
    · exact absurd (if_neg other) nonzero
  counted ch above below := by
    have inside : 0x865 ≤ ch-0xe000 ∧ ch-0xe000 ≤ 0x192b := by omega
    unfold target
    rw [dif_neg (by omega),if_neg (by omega),dif_neg (by omega),dif_pos (by omega)]
    have entry (i : Fin 8192) (here : 0x865 ≤ i.val ∧ i.val ≤ 0x192b) :
        excerpt.ucsToGb18030Tab2 i = Code.index (i.val-0x814) (by omega) := by simp only [excerpt,dif_pos here]
    rw [entry ⟨ch-0xe000,by omega⟩ inside,index_target]
    exact congrArg Target.four (by dsimp only; omega)

theorem readTable_entry {n : Nat} {table : Fin n → UInt16} (entry : readTable table idx = some u) (mapped : u ≠ 0) :
    ∃ inside : idx < n, (table ⟨idx,inside⟩).toNat = u ∧ table ⟨idx,inside⟩ ≠ 0 := by
  have inside := readTable_inside entry
  rw [readTable,dif_pos inside] at entry
  have value := Option.some.inj entry
  exact ⟨inside,value,fun zero => mapped (by rw [← value,zero]; rfl)⟩

theorem fourbyteUcs_consistent (consistent : Consistent tables) (entry : fourbyteUcs tables idx = some u) (mapped : u ≠ 0) :
    0x80 ≤ u ∧ Scalar u ∧ target tables u = .four idx := by
  have read {i : Nat} (index : fourbyteIndex i = idx) (entry : readTable tables.fourbyteToUcs i = some u) :
      0x80 ≤ u ∧ Scalar u ∧ target tables u = .four idx := by
    obtain ⟨inside,value,nonzero⟩ := readTable_entry entry mapped
    have back := consistent.fourbyte ⟨i,inside⟩ nonzero
    rw [value,index] at back
    exact back
  unfold fourbyteUcs at entry
  split at entry
  · exact read (if_pos (by omega)) entry
  split at entry
  · cases entry
    refine ⟨by omega,.inl (by omega),?_⟩
    unfold target
    rw [dif_neg (by omega),if_pos (by omega),Nat.add_sub_cancel]
  split at entry
  · exact read (by unfold fourbyteIndex; split <;> (try split) <;> omega) entry
  split at entry
  · cases entry
    refine ⟨by omega,.inr (by omega),?_⟩
    rw [consistent.counted _ (by omega) (by omega),Nat.add_sub_cancel]
  split at entry
  · exact read (by unfold fourbyteIndex; split <;> (try split) <;> omega) entry
  · cases entry; exact absurd rfl mapped

theorem outptr_linear (base : b0.toNat ≥ low) (digit : Digit b1) (third : Lead b2) (fourth : Digit b3) :
    outptr low (linear low b0.toNat b1.toNat b2.toNat b3.toNat) = [b0,b1,b2,b3] := by
  unfold Digit Lead at *
  have byte (b : UInt8) (x : Nat) (same : x = b.toNat) : UInt8.ofNat x = b := by rw [same,UInt8.ofNat_toNat]
  unfold outptr linear
  rw [byte b0 _ (by omega),byte b1 _ (by omega),byte b2 _ (by omega),byte b3 _ (by omega)]

theorem character_decode (consistent : Consistent tables) (character : Character tables char ucs) (narrow : ucs < 0x10000)
    (some : 1 ≤ boundlen) : Scalar ucs ∧ (char.length = 1 ↔ ucs ≤ 0x7f) ∧
      uni2charFrom tables ucs boundlen = if char.length ≤ boundlen then (Int.ofNat char.length,char) else (-1,[]) := by
  cases character with
  | @ascii b _ low =>
    refine ⟨.inl (by omega),⟨fun _ => low,fun _ => rfl⟩,?_⟩
    rw [uni2charFrom,if_pos low,UInt8.ofNat_toNat,List.length_singleton,if_pos some]
    rfl
  | @twobyte b0 _ b1 lead second entry mapped =>
    obtain ⟨inside,value,nonzero⟩ := readTable_entry entry mapped
    obtain ⟨above,scalar,back⟩ := consistent.twobyte _ nonzero
    rw [value] at above scalar back
    have byte := b1.toNat_lt
    have pair : (UInt8.ofNat (0x81+((b0.toNat-0x81)*192+(b1.toNat-0x40))/192),
        UInt8.ofNat (0x40+((b0.toNat-0x81)*192+(b1.toNat-0x40))%192)) = (b0,b1) := by
      have first : 0x81+((b0.toNat-0x81)*192+(b1.toNat-0x40))/192 = b0.toNat := by unfold Lead at lead; omega
      have last : 0x40+((b0.toNat-0x81)*192+(b1.toNat-0x40))%192 = b1.toNat := by omega
      rw [first,last,UInt8.ofNat_toNat,UInt8.ofNat_toNat]
    have some : b1 ≠ 0 := by rintro rfl; exact absurd second (by decide)
    refine ⟨scalar,⟨fun long => absurd long (by simp),fun _ => by omega⟩,?_⟩
    rw [uni2charFrom,if_neg (by omega),if_neg (by omega),back,pair]
    by_cases room : boundlen ≤ 1
    · exact (if_pos ⟨some,room⟩).trans (if_neg (Nat.not_le.mpr (Nat.lt_succ_of_le room))).symm
    · exact (if_neg fun refused => room refused.2).trans (if_pos (Nat.lt_of_not_le room)).symm
  | fourbyte lead digit third fourth basic entry mapped =>
    obtain ⟨above,scalar,back⟩ := fourbyteUcs_consistent consistent entry mapped
    refine ⟨scalar,⟨fun long => absurd long (by simp),fun _ => by omega⟩,?_⟩
    rw [uni2charFrom,if_neg (by omega),if_neg (by omega),back]
    dsimp only
    rw [outptr_linear lead.1 digit third fourth]
    by_cases room : boundlen ≤ 3
    · exact (if_pos room).trans (if_neg (Nat.not_le.mpr (Nat.lt_succ_of_le room))).symm
    · exact (if_neg room).trans (if_pos (Nat.lt_of_not_le room)).symm
  | supplementary _ _ _ _ plane code =>
    obtain ⟨x,_,sum⟩ := plane2 plane
    omega

theorem units_narrow (narrow : ucs < 0x10000) :
    units ucs = [UInt16.ofNat ucs] ∧ (UInt16.ofNat ucs).toNat = ucs :=
  ⟨if_pos narrow,UInt16.toNat_ofNat_of_lt' narrow⟩

theorem character_halves (character : Character tables char ucs) (wide : 0x10000 ≤ ucs) :
    (0xd840 ≤ (chhi ucs).toNat ∧ (chhi ucs).toNat < 0xdc00) ∧ Low (chlow ucs).toNat := by
  obtain ⟨_,_,_,_,_,_,_,_,_,plane,code⟩ := character_wide character wide
  exact pair_units plane code

theorem character_positive (character : Character tables char ucs) : 0 < ucs := by
  cases character with
  | @ascii b some _ => exact Nat.pos_of_ne_zero fun zero => some (UInt8.toNat_inj.mp zero)
  | twobyte _ _ _ mapped => exact Nat.pos_of_ne_zero mapped
  | fourbyte _ _ _ _ _ _ mapped => exact Nat.pos_of_ne_zero mapped
  | supplementary _ _ _ _ plane code =>
    obtain ⟨x,_,sum⟩ := plane2 plane
    omega

theorem units_nonzero (character : Character tables char ucs) : ∀ uni ∈ units ucs, uni ≠ 0 := by
  have positive := character_positive character
  rintro uni member rfl
  by_cases narrow : ucs < 0x10000
  · obtain ⟨single,value⟩ := units_narrow narrow
    rw [single] at member
    rw [← List.mem_singleton.mp member] at value
    exact absurd value (Nat.ne_of_lt positive)
  · obtain ⟨high,low⟩ := character_halves character (by omega)
    rw [units,if_neg narrow] at member
    rcases List.mem_pair.mp member with zero | zero
    · rw [← zero] at high
      exact absurd high.1 (by decide)
    · rw [← zero] at low
      exact absurd low.1 (by decide)

end ImAcc
