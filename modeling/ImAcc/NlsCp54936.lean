import ImAcc.Lib.Json
import ImAcc.Lib.Utf8

-- nls_cp54936.c. The four tables are parameters.
namespace ImAcc
open JsonC Utf8

structure Code where
  first : UInt8
  second : UInt8
  packed : first = 0 ∨ 0x20 ≤ first
  paired : first < 0x81 ∨ second ≠ 0

structure Tables where
  twobyteToUcs : Fin 24191 → UInt16
  fourbyteToUcs : Fin 23952 → UInt16
  ucsToGb18030Tab1 : Fin 43996 → Code
  ucsToGb18030Tab2 : Fin 8192 → Code

-- none is a read outside the table.
def readTable {n : Nat} (table : Fin n → UInt16) (idx : Nat) : Option Nat :=
  if h : idx < n then some (table ⟨idx,h⟩).toNat else none

inductive Answer where
  | stop (n : Int)
  | wide (n : Nat) (uni : UInt16)
deriving DecidableEq

def Code.none : Code := ⟨0,0,.inl rfl,.inl (by decide)⟩

def Code.index (idx : Nat) (few : idx < 0x6100) : Code :=
  ⟨UInt8.ofNat (0x20+idx/256),UInt8.ofNat (idx%256),
    .inr (by rw [UInt8.le_iff_toNat_le,UInt8.toNat_ofNat_of_lt' (by change _ < 256; omega)]; exact Nat.le_add_right _ _),
    .inl (by
      rw [UInt8.lt_iff_toNat_lt,UInt8.toNat_ofNat_of_lt' (by change _ < 256; omega)]
      change 0x20+idx/256 < 0x81
      omega)⟩

-- One character of each length, and the area that is counted through.
def excerpt : Tables where
  twobyteToUcs i := if i.val = 9121 then 0x554a else 0
  fourbyteToUcs i := if i.val = 36 then 0xa5 else 0
  ucsToGb18030Tab1 i :=
    if i.val = 0x554a-0x80 then ⟨0xb0,0xa1,.inr (by decide),.inr (by decide)⟩
    else if i.val = 0x25 then .index 36 (by decide) else .none
  ucsToGb18030Tab2 i := if h : 0x865 ≤ i.val ∧ i.val ≤ 0x192b then .index (i.val-0x814) (by omega) else .none

structure Char2uni where
  predict : Bool
  nextword : Nat
  nextvalue : UInt16
deriving DecidableEq

def Char2uni.clear : Char2uni := ⟨false,0xffff,0xffff⟩

def linear (base ch ch2 ch3 ch4 : Nat) : Nat := (((ch-base)*10+(ch2-0x30))*126+(ch3-0x81))*10+(ch4-0x30)

-- The four-byte codes of plane 2; idx1 is signed in the source.
def skipped : Nat := 16+(0x32-0x30)*(0xfe-0x81+1)*(0x39-0x30+1)

def Supplementary (ch ch2 ch3 ch4 : Nat) : Prop := 0x95 ≤ ch ∧ ch ≤ 0x9a ∧
  skipped ≤ linear 0x95 ch ch2 ch3 ch4 ∧ linear 0x95 ch ch2 ch3 ch4-skipped ≤ 0xffff

instance : Decidable (Supplementary ch ch2 ch3 ch4) := inferInstanceAs (Decidable (_ ∧ _))

def fourbyteUcs (tables : Tables) (idx : Nat) : Option Nat :=
  if idx < 0x56bd then readTable tables.fourbyteToUcs idx
  else if idx ≤ 0x8260 then some (idx+0x5543)
  else if idx < 0x830e then readTable tables.fourbyteToUcs (idx-11172)
  else if idx ≤ 0x93d4 then some (idx+0x6557)
  else if idx < 0x99fb then readTable tables.fourbyteToUcs (idx-11172-4295)
  else some 0

def chhi (ucs : Nat) : UInt16 := UInt16.ofNat (((ucs-0x10000 &&& 0xfffffc00) >>> 10)+0xd800)
def chlow (ucs : Nat) : UInt16 := UInt16.ofNat ((ucs-0x10000 &&& 0x3ff)+0xdc00)

def fourbyteForm (tables : Tables) (statics : Char2uni) (ch ch2 ch3 ch4 : Nat) : Option (Answer × Char2uni) :=
  if Supplementary ch ch2 ch3 ch4 then
    let ucs := 0x20000 ||| linear 0x95 ch ch2 ch3 ch4-skipped
    some (.wide 2 (chhi ucs),⟨true,ch3 <<< 8 ||| ch4,chlow ucs⟩)
  else (fourbyteUcs tables (linear 0x81 ch ch2 ch3 ch4)).map fun ch =>
    (if ch = 0 then .stop (-1) else .wide 4 (UInt16.ofNat ch),statics)

def twobyteForm (tables : Tables) (ch ch2 : Nat) : Option Answer :=
  let idx := (ch-0x81)*192+(ch2-0x40)
  if 0x5e7e < idx then some (.stop (-1))
  else (readTable tables.twobyteToUcs idx).map fun ch => if ch = 0 then .stop (-1) else .wide 2 (UInt16.ofNat ch)

-- Behind the look-ahead; none is a read past the NUL or outside a table.
def char2uniFrom (tables : Tables) (statics : Char2uni) (rawstring : Bytes) (boundlen : Nat) :
    Option (Answer × Char2uni) :=
  rawstring[0]?.bind fun ch =>
    if ch.toNat ≤ 0x7f then some (.wide 1 ch.toUInt16,statics)
    else if ch.toNat < 0x81 ∨ 0xfe < ch.toNat ∨ boundlen ≤ 1 then some (.stop (-1),statics)
    else rawstring[1]?.bind fun ch2 =>
      if ch2.toNat < 0x30 then some (.stop (-1),statics)
      else if ch2.toNat ≤ 0x39 then
        if boundlen < 4 then some (.stop (-1),statics)
        else rawstring[2]?.bind fun ch3 =>
          if ch3.toNat < 0x81 ∨ 0xfe < ch3.toNat then some (.stop (-1),statics)
          else rawstring[3]?.bind fun ch4 =>
            if ch4.toNat < 0x30 ∨ 0x39 < ch4.toNat then some (.stop (-1),statics)
            else fourbyteForm tables statics ch.toNat ch2.toNat ch3.toNat ch4.toNat
      else if 0x40 ≤ ch2.toNat then (twobyteForm tables ch.toNat ch2.toNat).map fun answer => (answer,statics)
      else some (.stop (-1),statics)

def char2uni (tables : Tables) (statics : Char2uni) (rawstring : Bytes) (boundlen : Nat) : Option (Answer × Char2uni) :=
  if statics.predict then
    if 1 < boundlen then rawstring[0]?.bind fun ch => rawstring[1]?.map fun ch2 =>
      (if ch.toNat <<< 8 ||| ch2.toNat = statics.nextword then .wide 2 statics.nextvalue else .stop 0,.clear)
    else some (.stop (-1),.clear)
  else char2uniFrom tables statics rawstring boundlen

structure Uni2char where
  predict : Bool
  prevword : Nat
deriving DecidableEq

def Uni2char.clear : Uni2char := ⟨false,0xffffffff⟩

inductive Target where
  | illegal
  | two (cp : UInt8 × UInt8)
  | four (idx : Nat)
deriving DecidableEq

def Code.target (cp : Code) (base : Nat) : Target :=
  if cp.first = 0 then .illegal
  else if cp.first < 0x81 then .four ((cp.first.toNat-0x20)*256+cp.second.toNat+base)
  else .two (cp.first,cp.second)

-- Every read is inside its table, by the branch it stands in.
def target (tables : Tables) (ch : Nat) : Target :=
  if h : ch ≤ 0xabff then (tables.ucsToGb18030Tab1 ⟨ch-0x80,by omega⟩).target 0
  else if 0xac00 ≤ ch ∧ ch ≤ 0xd7a3 then .four (ch-0x5543)
  else if h : 0xd7a4 ≤ ch ∧ ch ≤ 0xd7ff then (tables.ucsToGb18030Tab1 ⟨ch-0x80-11172,by omega⟩).target 0
  else if h : 0xe000 ≤ ch ∧ ch ≤ 0xffff then (tables.ucsToGb18030Tab2 ⟨ch-0xe000,by omega⟩).target 0x82bd
  else .illegal

def outptr (base idx : Nat) : Bytes :=
  [UInt8.ofNat (idx/10/126/10+base),UInt8.ofNat (idx/10/126%10+0x30),UInt8.ofNat (idx/10%126+0x81),UInt8.ofNat (idx%10+0x30)]

def uni2charFrom (tables : Tables) (ch boundlen : Nat) : Int × Bytes :=
  if ch ≤ 0x7f then (1,[UInt8.ofNat ch])
  else if 0xd840dc00 ≤ ch then
    if boundlen ≤ 3 then (-1,[])
    else
      let ucs := 0x10000+((ch >>> 16)-0xd800)*0x400+((ch &&& 0xffff)-0xdc00)
      (4,outptr 0x95 (ucs-0x20000+skipped))
  else match target tables ch with
    | .illegal => (-1,[])
    | .two cp => if cp.2 ≠ 0 ∧ boundlen ≤ 1 then (-1,[]) else (2,[cp.1,cp.2])
    | .four idx => if boundlen ≤ 3 then (-1,[]) else (4,outptr 0x81 idx)

def uni2char (tables : Tables) (statics : Uni2char) (uni : UInt16) (boundlen : Nat) : (Int × Bytes) × Uni2char :=
  let ch := uni.toNat
  if 0xd840 ≤ ch ∧ ch ≤ 0xdbff ∧ statics.predict = false then ((0,[]),⟨true,ch⟩)
  else if statics.predict then
    (uni2charFrom tables (if 0xdc00 ≤ ch ∧ ch ≤ 0xdfff then ch ||| statics.prevword <<< 16 else ch) boundlen,.clear)
  else (uni2charFrom tables ch boundlen,statics)

def Lead (b : UInt8) : Prop := 0x81 ≤ b.toNat ∧ b.toNat ≤ 0xfe
def Digit (b : UInt8) : Prop := 0x30 ≤ b.toNat ∧ b.toNat ≤ 0x39

inductive Takes (tables : Tables) : Bytes → Nat → UInt16 → Char2uni → Prop
  | ascii (low : b.toNat ≤ 0x7f) : Takes tables (b :: rest) 1 b.toUInt16 .clear
  | twobyte (lead : Lead b0) (second : 0x40 ≤ b1.toNat)
      (entry : readTable tables.twobyteToUcs ((b0.toNat-0x81)*192+(b1.toNat-0x40)) = some u) (mapped : u ≠ 0) :
      Takes tables (b0 :: b1 :: rest) 2 (UInt16.ofNat u) .clear
  | fourbyte (lead : Lead b0) (digit : Digit b1) (third : Lead b2) (fourth : Digit b3)
      (basic : ¬Supplementary b0.toNat b1.toNat b2.toNat b3.toNat)
      (entry : fourbyteUcs tables (linear 0x81 b0.toNat b1.toNat b2.toNat b3.toNat) = some u) (mapped : u ≠ 0) :
      Takes tables (b0 :: b1 :: b2 :: b3 :: rest) 4 (UInt16.ofNat u) .clear
  | supplementary (lead : Lead b0) (digit : Digit b1) (third : Lead b2) (fourth : Digit b3)
      (plane : Supplementary b0.toNat b1.toNat b2.toNat b3.toNat)
      (code : ucs = 0x20000 ||| linear 0x95 b0.toNat b1.toNat b2.toNat b3.toNat-skipped) :
      Takes tables (b0 :: b1 :: b2 :: b3 :: rest) 2 (chhi ucs) ⟨true,b2.toNat <<< 8 ||| b3.toNat,chlow ucs⟩

theorem fourbyteUcs_reads (tables : Tables) (idx : Nat) : ∃ ucs, fourbyteUcs tables idx = some ucs := by
  have read (i : Nat) (inside : i < 23952) : ∃ ucs, readTable tables.fourbyteToUcs i = some ucs := ⟨_,dif_pos inside⟩
  unfold fourbyteUcs
  split
  · exact read _ (by omega)
  split
  · exact ⟨_,rfl⟩
  split
  · exact read _ (by omega)
  split
  · exact ⟨_,rfl⟩
  split
  · exact read _ (by omega)
  · exact ⟨_,rfl⟩

theorem twobyte_reads (tables : Tables) (inside : idx ≤ 0x5e7e) : ∃ ucs, readTable tables.twobyteToUcs idx = some ucs :=
  ⟨_,dif_pos (Nat.lt_succ_of_le inside)⟩

theorem twobyteForm_takes (tables : Tables) (lead : Lead b0) (second : 0x40 ≤ b1.toNat) (rest : Bytes) :
    (∃ n, twobyteForm tables b0.toNat b1.toNat = some (.stop n)) ∨
      ∃ n u, twobyteForm tables b0.toNat b1.toNat = some (.wide n u) ∧ Takes tables (b0 :: b1 :: rest) n u .clear := by
  unfold twobyteForm
  dsimp only
  by_cases outside : 0x5e7e < (b0.toNat-0x81)*192+(b1.toNat-0x40)
  · exact .inl ⟨-1,if_pos outside⟩
  rw [if_neg outside]
  obtain ⟨u,entry⟩ := twobyte_reads tables (Nat.le_of_not_lt outside)
  rw [entry,Option.map_some]
  by_cases mapped : u = 0
  · rw [if_pos mapped]
    exact .inl ⟨_,rfl⟩
  · rw [if_neg mapped]
    exact .inr ⟨_,_,rfl,.twobyte lead second entry mapped⟩

theorem fourbyteForm_takes (tables : Tables) (lead : Lead b0) (digit : Digit b1) (third : Lead b2) (fourth : Digit b3)
    (rest : Bytes) :
    (∃ n, fourbyteForm tables .clear b0.toNat b1.toNat b2.toNat b3.toNat = some (.stop n,.clear)) ∨
      ∃ n u after, fourbyteForm tables .clear b0.toNat b1.toNat b2.toNat b3.toNat = some (.wide n u,after) ∧
        Takes tables (b0 :: b1 :: b2 :: b3 :: rest) n u after := by
  unfold fourbyteForm
  by_cases plane : Supplementary b0.toNat b1.toNat b2.toNat b3.toNat
  · rw [if_pos plane]
    exact .inr ⟨_,_,_,rfl,.supplementary lead digit third fourth plane rfl⟩
  rw [if_neg plane]
  obtain ⟨u,entry⟩ := fourbyteUcs_reads tables (linear 0x81 b0.toNat b1.toNat b2.toNat b3.toNat)
  rw [entry,Option.map_some]
  by_cases mapped : u = 0
  · rw [if_pos mapped]
    exact .inl ⟨_,rfl⟩
  · rw [if_neg mapped]
    exact .inr ⟨_,_,_,rfl,.fourbyte lead digit third fourth plane entry mapped⟩

-- With no look-ahead pending no read leaves the text and the tables.
theorem char2uni_clear (tables : Tables) (b0 : UInt8) (text : Bytes) :
    (∃ n, char2uni tables .clear (b0 :: text) (text.length+1) = some (.stop n,.clear)) ∨
      ∃ n u after, char2uni tables .clear (b0 :: text) (text.length+1) = some (.wide n u,after) ∧
        Takes tables (b0 :: text) n u after := by
  unfold char2uni char2uniFrom
  rw [if_neg (by decide)]
  simp only [List.getElem?_cons_zero,Option.bind_some]
  by_cases low : b0.toNat ≤ 0x7f
  · rw [if_pos low]
    exact .inr ⟨_,_,_,rfl,.ascii low⟩
  rw [if_neg low]
  by_cases foreign : b0.toNat < 0x81 ∨ 0xfe < b0.toNat ∨ text.length+1 ≤ 1
  · rw [if_pos foreign]
    exact .inl ⟨_,rfl⟩
  rw [if_neg foreign]
  rcases text with _ | ⟨b1,text⟩
  · exact absurd (.inr (.inr (Nat.le_refl _))) foreign
  have lead : Lead b0 := ⟨by omega,by omega⟩
  simp only [List.getElem?_cons_succ,List.getElem?_cons_zero,Option.bind_some]
  by_cases short : b1.toNat < 0x30
  · rw [if_pos short]
    exact .inl ⟨_,rfl⟩
  rw [if_neg short]
  by_cases digit : b1.toNat ≤ 0x39
  · rw [if_pos digit]
    by_cases few : (b1 :: text).length+1 < 4
    · rw [if_pos few]
      exact .inl ⟨_,rfl⟩
    rw [if_neg few]
    rcases text with _ | ⟨b2,_ | ⟨b3,text⟩⟩
    · exact absurd (by simp) few
    · exact absurd (by simp) few
    simp only [List.getElem?_cons_succ,List.getElem?_cons_zero,Option.bind_some]
    by_cases third : b2.toNat < 0x81 ∨ 0xfe < b2.toNat
    · rw [if_pos third]
      exact .inl ⟨_,rfl⟩
    rw [if_neg third]
    by_cases fourth : b3.toNat < 0x30 ∨ 0x39 < b3.toNat
    · rw [if_pos fourth]
      exact .inl ⟨_,rfl⟩
    rw [if_neg fourth]
    exact fourbyteForm_takes tables lead ⟨by omega,digit⟩ ⟨by omega,by omega⟩ ⟨by omega,by omega⟩ text
  rw [if_neg digit]
  by_cases second : 0x40 ≤ b1.toNat
  · rw [if_pos second]
    rcases twobyteForm_takes tables lead second text with ⟨n,stopped⟩ | ⟨n,u,answered,takes⟩
    · rw [stopped]
      exact .inl ⟨n,rfl⟩
    · rw [answered]
      exact .inr ⟨n,u,.clear,rfl,takes⟩
  · rw [if_neg second]
    exact .inl ⟨_,rfl⟩

theorem readTable_inside {n : Nat} {table : Fin n → UInt16} (entry : readTable table idx = some u) : idx < n := by
  unfold readTable at entry
  split at entry
  · assumption
  · cases entry

theorem char2uniFrom_four (tables : Tables) (statics : Char2uni) (lead : Lead b0) (digit : Digit b1) (third : Lead b2)
    (fourth : Digit b3) (rest : Bytes) (long : 4 ≤ boundlen) :
    char2uniFrom tables statics (b0 :: b1 :: b2 :: b3 :: rest) boundlen =
      fourbyteForm tables statics b0.toNat b1.toNat b2.toNat b3.toNat := by
  unfold Lead Digit at *
  unfold char2uniFrom
  simp only [List.getElem?_cons_zero,List.getElem?_cons_succ,Option.bind_some]
  rw [if_neg (by omega),if_neg (by omega),if_neg (by omega),if_pos digit.2,if_neg (by omega),if_neg (by omega),
    if_neg (by omega)]

theorem char2uni_takes (takes : Takes tables text n u after) :
    char2uni tables .clear text text.length = some (.wide n u,after) := by
  rw [char2uni,if_neg (by decide)]
  cases takes with
  | ascii low =>
    unfold char2uniFrom
    simp only [List.getElem?_cons_zero,Option.bind_some,if_pos low]
  | @twobyte b0 u b1 rest lead second entry mapped =>
    have inside := readTable_inside entry
    unfold Lead at lead
    unfold char2uniFrom
    simp only [List.getElem?_cons_zero,List.getElem?_cons_succ,Option.bind_some,List.length_cons]
    rw [if_neg (by omega),if_neg (by omega),if_neg (by omega),if_neg (by omega),if_pos second,twobyteForm,
      if_neg (by omega),entry,Option.map_some,if_neg mapped]
    rfl
  | fourbyte lead digit third fourth basic entry mapped =>
    rw [char2uniFrom_four tables _ lead digit third fourth _ (by simp),fourbyteForm,if_neg basic,entry,Option.map_some,
      if_neg mapped]
  | supplementary lead digit third fourth plane code =>
    rw [char2uniFrom_four tables _ lead digit third fourth _ (by simp),fourbyteForm,if_pos plane,code]

theorem target_surrogate (tables : Tables) (above : 0xd800 ≤ ch) (below : ch < 0xe000) : target tables ch = .illegal := by
  unfold target
  rw [dif_neg (by omega),if_neg (by omega),dif_neg (by omega),dif_neg (by omega)]

theorem uni2charFrom_surrogate (tables : Tables) (boundlen : Nat) (above : 0xd800 ≤ ch) (below : ch < 0xe000) :
    uni2charFrom tables ch boundlen = (-1,[]) := by
  unfold uni2charFrom
  rw [if_neg (by omega),if_neg (by omega),target_surrogate tables above below]

inductive Waits : Uni2char → Prop
  | clear : Waits .clear
  | high (above : 0xd840 ≤ w) (below : w ≤ 0xdbff) : Waits ⟨true,w⟩

theorem uni2char_waits (tables : Tables) (waits : Waits statics) (uni : UInt16) (boundlen : Nat) :
    Waits (uni2char tables statics uni boundlen).2 := by
  unfold uni2char
  dsimp only
  split
  · rename_i high
    exact .high high.1 high.2.1
  split
  · exact .clear
  · exact waits

end ImAcc
