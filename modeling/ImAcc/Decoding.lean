import Mathlib.Data.List.TakeWhile
import ImAcc.RoundTrip
import ImAcc.Transcode

-- DecodeFromUTF8: its stores, and what EncodeToUTF8 makes of what it returns.
namespace ImAcc
open JsonC Utf8

variable {tables : Tables}

def share (unit : UInt16) : Nat := if unit.toNat ≤ 0x7f then 1 else 4

theorem uni2charFrom_four (tables : Tables) (ch boundlen : Nat) : (uni2charFrom tables ch boundlen).2.length ≤ 4 := by
  unfold uni2charFrom
  split
  · exact Nat.le_of_ble_eq_true rfl
  split
  · split <;> simp [outptr]
  · split
    · simp
    · split <;> simp
    · split <;> simp [outptr]

theorem uni2charFrom_share (tables : Tables) (unit : UInt16) (boundlen : Nat) :
    (uni2charFrom tables unit.toNat boundlen).2.length ≤ share unit := by
  unfold share
  split
  · rename_i low
    rw [uni2charFrom,if_pos low]
    exact Nat.le_refl _
  · exact uni2charFrom_four tables unit.toNat boundlen

theorem uni2char_share (tables : Tables) (statics : Uni2char) (unit : UInt16) (boundlen : Nat) :
    (uni2char tables statics unit boundlen).1.2.length ≤ share unit := by
  unfold uni2char
  dsimp only
  split
  · exact Nat.zero_le _
  split
  · split
    · rename_i low
      have four : share unit = 4 := if_neg (by omega)
      rw [four]
      exact uni2charFrom_four tables _ boundlen
    · exact uni2charFrom_share tables unit boundlen
  · exact uni2charFrom_share tables unit boundlen

theorem decodeTurns_share (tables : Tables) (boundlen : Nat) (statics : Uni2char) (wide : List UInt16) :
    (decodeTurns tables boundlen statics wide).1.length ≤ (wide.map share).sum := by
  induction wide generalizing statics with
  | nil => exact Nat.le_refl _
  | cons unit rest ih =>
    have here := uni2char_share tables statics unit boundlen
    have others := ih (uni2char tables statics unit boundlen).2
    rw [List.map_cons,List.sum_cons,decodeTurns]
    dsimp only
    split
    · rw [List.length_append]
      omega
    · exact Nat.zero_le _

theorem mbtowcFrom_size (decoded : mbtowcFrom c0 n table nc l s = some (wc,size)) (inside : nc < n) :
    nc+1 ≤ size ∧ size ≤ n := by
  induction table generalizing nc l s with
  | nil => cases decoded
  | cons t rest ih =>
    unfold mbtowcFrom at decoded
    split at decoded
    · split at decoded
      · cases decoded
      · cases decoded
        exact ⟨Nat.le_refl _,inside⟩
    split at decoded
    · cases decoded
    dsimp only at decoded
    split at decoded
    · cases decoded
    · have later := ih decoded (by omega)
      omega

-- A byte from 0x80 on never matches the first entry of the table.
theorem utf8Mbtowc_size (decoded : utf8Mbtowc (b :: rest) (n+1) = some (wc,size)) (high : b &&& 0x80 ≠ 0) :
    2 ≤ size ∧ size ≤ n+1 := by
  have other : ¬b.toNat &&& 0x80 = 0 := fun zero => high (UInt8.toNat_inj.mp zero)
  unfold utf8Mbtowc utf8Table mbtowcFrom at decoded
  rw [List.headD_cons,if_neg other] at decoded
  split at decoded
  · cases decoded
  dsimp only at decoded
  split at decoded
  · cases decoded
  · exact mbtowcFrom_size decoded (by omega)

theorem high_bit : ∀ x < 128, (128+x) &&& 0x80 ≠ 0 := by decide

theorem low_byte {b : UInt8} (low : b &&& 0x80 = 0) : share b.toUInt16 = 1 := by
  have value : b.toNat &&& 0x80 = 0 := congrArg UInt8.toNat low
  have bound := b.toNat_lt
  unfold share
  rw [UInt8.toNat_toUInt16]
  refine if_pos (Nat.le_of_not_lt fun above => high_bit (b.toNat-128) (by omega) ?_)
  rw [show 128+(b.toNat-128) = b.toNat by omega]
  exact value

theorem mbstowcsFrom_share (turn : Nat) (text : Bytes) (n : Nat) :
    (mbstowcsFrom turn text n).length ≤ n ∧ ((mbstowcsFrom turn text n).map share).sum ≤ 2*n := by
  induction turn generalizing text n with
  | zero => exact ⟨Nat.zero_le _,Nat.zero_le _⟩
  | succ turn ih =>
    rcases text with _ | ⟨b,rest⟩
    · exact ⟨Nat.zero_le _,Nat.zero_le _⟩
    rcases n with _ | n
    · exact ⟨Nat.zero_le _,Nat.zero_le _⟩
    unfold mbstowcsFrom
    split
    · exact ⟨Nat.zero_le _,Nat.zero_le _⟩
    split
    · rename_i high
      split
      · have others := ih rest n
        omega
      · rename_i wc size decoded
        have taken := utf8Mbtowc_size decoded high
        have others := ih ((b :: rest).drop size) (n+1-size)
        have most : share wc ≤ 4 := by unfold share; split <;> omega
        rw [List.length_cons,List.map_cons,List.sum_cons]
        omega
    · rename_i low
      have one := low_byte (b := b) (not_not.mp low)
      have others := ih rest n
      rw [List.length_cons,List.map_cons,List.sum_cons,one]
      omega

-- Whatever the text is, well-formed or not, and whatever is waiting: the buffers suffice
-- for every text with a byte in it, and half of the second is never used.
theorem decodeBuffers_exact (tables : Tables) (granted : Bool) (statics : Statics) (utf8Str : Bytes) :
    BuffersSuffice (cString utf8Str).length (decodeFromUTF8 tables granted statics utf8Str) ↔
      (granted = true → cString utf8Str ≠ []) ∧ (cString utf8Str).length*4 ≤ intMax := by
  constructor
  · rintro ⟨out,later,run,units,bytes⟩
    refine ⟨?_,decodeFromUTF8_defined run⟩
    rintro rfl empty
    rw [decodeFromUTF8,empty] at run
    cases run
    rw [empty] at bytes
    simp at bytes
  · rintro ⟨nonempty,defined⟩
    unfold decodeFromUTF8
    dsimp only
    rw [if_neg (Nat.not_lt.mpr defined)]
    cases granted with
    | false => exact ⟨_,_,rfl,Nat.zero_le _,Nat.zero_le _⟩
    | true =>
      have some := List.length_pos_iff.mpr (nonempty rfl)
      have few := mbstowcsFrom_share (cString utf8Str).length (cString utf8Str) (cString utf8Str).length
      have written := decodeTurns_share tables (cString utf8Str).length statics.uni2char
        (utf8Mbstowcs (cString utf8Str) (cString utf8Str).length)
      refine ⟨_,_,rfl,?_,?_⟩
      · exact Nat.le_trans few.1 (by omega)
      · dsimp only
        rw [List.length_append,List.length_singleton]
        have whole := Nat.le_trans written few.2
        omega

-- Every code in the reverse tables is read back as the code point it is kept for.
structure Invertible (tables : Tables) : Prop where
  twobyte : ∀ ch cp, 0x80 ≤ ch → ch ≤ 0xffff → target tables ch = .two cp → Lead cp.1 ∧ 0x40 ≤ cp.2.toNat ∧
    readTable tables.twobyteToUcs ((cp.1.toNat-0x81)*192+(cp.2.toNat-0x40)) = some ch
  fourbyte : ∀ ch idx, 0x80 ≤ ch → ch ≤ 0xffff → target tables ch = .four idx → fourbyteUcs tables idx = some ch

def Target.Fits (boundlen : Nat) : Target → Prop
  | .illegal => False
  | .two _ => 2 ≤ boundlen
  | .four _ => 4 ≤ boundlen

instance : ∀ code : Target, Decidable (code.Fits boundlen)
  | .illegal => inferInstanceAs (Decidable False)
  | .two _ => inferInstanceAs (Decidable (2 ≤ boundlen))
  | .four _ => inferInstanceAs (Decidable (4 ≤ boundlen))

def Convertible (tables : Tables) (boundlen ch : Nat) : Prop := ch ≤ 0x7f ∨ (target tables ch).Fits boundlen

instance : Decidable (Convertible tables boundlen ch) := inferInstanceAs (Decidable (_ ∨ _))

def codeOf (tables : Tables) (boundlen : Nat) (c : Char) : Bytes := (uni2charFrom tables c.toNat boundlen).2

theorem outptr_four (few : idx < 12600*4) : ∃ b0 b1 b2 b3, outptr 0x81 idx = [b0,b1,b2,b3] ∧ Lead b0 ∧ Digit b1 ∧ Lead b2 ∧
    Digit b3 ∧ ¬Supplementary b0.toNat b1.toNat b2.toNat b3.toNat ∧
    linear 0x81 b0.toNat b1.toNat b2.toNat b3.toNat = idx := by
  have byte (x : Nat) (small : x < 256) : (UInt8.ofNat x).toNat = x := UInt8.toNat_ofNat_of_lt' small
  refine ⟨_,_,_,_,rfl,?_⟩
  unfold Lead Digit Supplementary linear
  rw [byte _ (by omega),byte _ (by omega),byte _ (by omega),byte _ (by omega)]
  omega

theorem fourbyteUcs_few (entry : fourbyteUcs tables idx = some ch) (some : ch ≠ 0) : idx < 12600*4 := by
  apply Nat.lt_of_not_le
  intro beyond
  unfold fourbyteUcs at entry
  rw [if_neg (by omega),if_neg (by omega),if_neg (by omega),if_neg (by omega),if_neg (by omega)] at entry
  exact some (Option.some.inj entry).symm

theorem uni2charFrom_exact (invertible : Invertible tables) (some : ch ≠ 0) (narrow : ch ≤ 0xffff) (boundlen : Nat) :
    (Convertible tables boundlen ch ∧ ∃ char, uni2charFrom tables ch boundlen = (Int.ofNat char.length,char) ∧
      Character tables char ch) ∨ (¬Convertible tables boundlen ch ∧ uni2charFrom tables ch boundlen = (-1,[])) := by
  by_cases ascii : ch ≤ 0x7f
  · have byte : (UInt8.ofNat ch).toNat = ch := UInt8.toNat_ofNat_of_lt' (by change _ < 256; omega)
    have nonzero : UInt8.ofNat ch ≠ 0 := fun zero => some (by rw [← byte,zero]; rfl)
    have read : Character tables [UInt8.ofNat ch] (UInt8.ofNat ch).toNat := .ascii nonzero (by rwa [byte])
    rw [byte] at read
    exact .inl ⟨.inl ascii,[UInt8.ofNat ch],by rw [uni2charFrom,if_pos ascii]; rfl,read⟩
  have above : 0x80 ≤ ch := Nat.lt_of_not_le ascii
  have fits : Convertible tables boundlen ch ↔ (target tables ch).Fits boundlen := or_iff_right ascii
  rw [fits,uni2charFrom,if_neg ascii,if_neg (by omega)]
  have two := invertible.twobyte ch
  have four := invertible.fourbyte ch
  cases code : target tables ch with
  | illegal => exact .inr ⟨id,rfl⟩
  | two cp =>
    obtain ⟨lead,second,entry⟩ := two cp above narrow code
    have pair : cp.2 ≠ 0 := fun zero => by
      rw [zero] at second
      exact absurd second (by decide)
    by_cases room : 2 ≤ boundlen
    · exact .inl ⟨room,[cp.1,cp.2],if_neg (by omega),.twobyte lead second entry some⟩
    · exact .inr ⟨room,if_pos ⟨pair,by omega⟩⟩
  | four idx =>
    have entry := four idx above narrow code
    obtain ⟨b0,b1,b2,b3,text,lead,digit,third,fourth,basic,index⟩ := outptr_four (fourbyteUcs_few entry some)
    by_cases room : 4 ≤ boundlen
    · refine .inl ⟨room,[b0,b1,b2,b3],?_,.fourbyte lead digit third fourth basic (by rw [index]; exact entry) some⟩
      dsimp only
      rw [if_neg (by omega),text]
      rfl
    · exact .inr ⟨room,if_pos (by omega)⟩

theorem character_codePoint (character : Character tables char ucs) : codePoint tables char = ucs := by
  cases character with
  | ascii => rfl
  | twobyte _ _ entry _ => rw [codePoint,entry]; rfl
  | fourbyte _ _ _ _ basic entry _ => rw [codePoint,if_neg basic,entry]; rfl
  | supplementary _ _ _ _ plane code => rw [codePoint,if_pos plane,code]

theorem character_clean (character : Character tables char ucs) : (0 : UInt8) ∉ char := by
  have above {b : UInt8} (some : 1 ≤ b.toNat) : (0 : UInt8) ≠ b := fun zero => by
    rw [← zero] at some
    exact absurd some (by decide)
  have apart {b : UInt8} (some : b ≠ 0) : (0 : UInt8) ≠ b := some.symm
  cases character with
  | ascii some _ => simp [apart some]
  | twobyte lead second _ _ => simp [above (Nat.le_trans (by decide) lead.1),above (Nat.le_trans (by decide) second)]
  | fourbyte lead digit third fourth | supplementary lead digit third fourth =>
    simp [above (Nat.le_trans (by decide) lead.1),above (Nat.le_trans (by decide) digit.1),
      above (Nat.le_trans (by decide) third.1),above (Nat.le_trans (by decide) fourth.1)]

def keptChars (tables : Tables) (boundlen : Nat) (chars : List Char) : List Char :=
  chars.takeWhile fun c => Convertible tables boundlen c.toNat

def Basic (chars : List Char) : Prop := ∀ c ∈ chars, c ≠ '\x00' ∧ c.toNat < 0x10000

theorem decodeTurns_kept (invertible : Invertible tables) (basic : Basic chars) (waits : Waits statics) (boundlen : Nat) :
    (decodeTurns tables boundlen statics (chars.map unitOf)).1 =
      (keptChars tables boundlen chars).flatMap (codeOf tables boundlen) := by
  induction chars generalizing statics with
  | nil => rfl
  | cons c rest ih =>
    obtain ⟨nul,narrow⟩ := basic c List.mem_cons_self
    have others : Basic rest := fun d member => basic d (List.mem_cons_of_mem _ member)
    have nonzero : c.toNat ≠ 0 := fun zero => nul (Char.toNat_inj.mp zero)
    have value := unitOf_narrow narrow
    have here : uni2char tables statics (unitOf c) boundlen = _ :=
      uni2char_scalar waits (by rw [value]; exact char_scalar c) boundlen
    rw [value] at here
    rw [List.map_cons,decodeTurns,keptChars]
    dsimp only
    rw [here]
    rcases uni2charFrom_exact invertible nonzero (Nat.le_of_lt_succ narrow) boundlen with
      ⟨kept,char,written,read⟩ | ⟨lost,nothing⟩
    · have taken : (0 : Int) < Int.ofNat char.length :=
        Int.natCast_pos.mpr (List.length_pos_iff.mpr (character_length read).1)
      rw [List.takeWhile_cons_of_pos (by simpa using kept),List.flatMap_cons,codeOf,written]
      dsimp only
      rw [if_pos taken]
      exact congrArg (char ++ ·) (ih others .clear)
    · rw [List.takeWhile_cons_of_neg (by simpa using lost),nothing]
      rfl

theorem kept_character (invertible : Invertible tables) (basic : Basic chars)
    (member : c ∈ keptChars tables boundlen chars) :
    Character tables (codeOf tables boundlen c) c.toNat := by
  have convertible : Convertible tables boundlen c.toNat := by simpa using List.mem_takeWhile_imp member
  obtain ⟨nul,narrow⟩ := basic c (List.takeWhile_subset _ member)
  have nonzero : c.toNat ≠ 0 := fun zero => nul (Char.toNat_inj.mp zero)
  rcases uni2charFrom_exact invertible nonzero (Nat.le_of_lt_succ narrow) boundlen with ⟨_,char,written,read⟩ | ⟨lost,_⟩
  · rw [codeOf,written]
    exact read
  · exact absurd convertible lost

theorem encode_kept (invertible : Invertible tables) (basic : Basic chars)
    (clear : statics.char2uni = .clear) (boundlen : Nat)
    (defined : ((keptChars tables boundlen chars).flatMap (codeOf tables boundlen)).length*4 ≤ intMax) :
    ∃ back, encodeToUTF8 tables true statics ((keptChars tables boundlen chars).flatMap (codeOf tables boundlen)) =
      some (back,statics) ∧ back.result = textOf (keptChars tables boundlen chars) := by
  have read : ∀ c ∈ keptChars tables boundlen chars, Character tables (codeOf tables boundlen c) c.toNat :=
    fun c member => kept_character invertible basic member
  have point : ∀ c ∈ keptChars tables boundlen chars, codePoint tables (codeOf tables boundlen c) = c.toNat :=
    fun c member => character_codePoint (read c member)
  have narrow : ∀ c ∈ keptChars tables boundlen chars, c.toNat < 0x10000 :=
    fun c member => (basic c (List.takeWhile_subset _ member)).2
  rw [List.flatMap_def] at defined ⊢
  have characters : Characters tables ((keptChars tables boundlen chars).map (codeOf tables boundlen)) := by
    intro char member
    obtain ⟨c,inside,rfl⟩ := List.mem_map.mp member
    rw [point c inside]
    exact read c inside
  have clean : (0 : UInt8) ∉ ((keptChars tables boundlen chars).map (codeOf tables boundlen)).flatten := by
    intro zero
    obtain ⟨char,member,inside⟩ := List.mem_flatten.mp zero
    exact character_clean (characters char member) inside
  obtain ⟨back,run,text⟩ := encode_characters characters clean clear defined
  refine ⟨back,run,?_⟩
  rw [text,encoded_characters,List.map_map,textOf,List.flatMap_map]
  · exact List.flatMap_congr fun c member => by rw [Function.comp_apply,point c member,char_narrow (narrow c member)]
  · intro char member
    obtain ⟨c,inside,rfl⟩ := List.mem_map.mp member
    rw [point c inside]
    exact narrow c inside

theorem encodeUnit_low (narrow : unit < 0x10000) : ∀ b ∈ encodeUnit unit, b.toNat < 0xf0 := by
  have byte (x : Nat) (small : x < 0xf0) : (UInt8.ofNat x).toNat < 0xf0 := by
    rwa [UInt8.toNat_ofNat_of_lt' (Nat.lt_trans small (by decide))]
  unfold encodeUnit
  split
  · simp only [List.mem_singleton,forall_eq]
    exact byte _ (by omega)
  split
  · simp only [List.forall_mem_cons,List.not_mem_nil,false_implies,implies_true,and_true]
    exact ⟨byte _ (by omega),byte _ (by omega)⟩
  · simp only [List.forall_mem_cons,List.not_mem_nil,false_implies,implies_true,and_true]
    exact ⟨byte _ (by omega),byte _ (by omega),byte _ (by omega)⟩

-- EncodeToUTF8 writes no byte from 0xf0 on: each half of a pair is a character to it.
theorem encodeToUTF8_low (clear : statics.char2uni = .clear)
    (run : encodeToUTF8 tables true statics mbcsStr = some (back,last)) : ∀ b ∈ back.result, b.toNat < 0xf0 := by
  have defined := encodeToUTF8_defined run
  obtain ⟨char2uni,uni2char⟩ := statics
  subst clear
  obtain ⟨wide,turns,few⟩ := encodeTurns_clear tables (Foreseen.clear : Foreseen .clear (cString mbcsStr)) (Nat.le_refl _)
  unfold encodeToUTF8 at run
  dsimp only at run
  rw [if_neg (Nat.not_lt.mpr defined),if_pos rfl,turns,Option.map_some] at run
  cases run
  dsimp only
  rw [utf8Wcstombs_terminated (by omega)]
  intro b member
  obtain ⟨wc,_,inside⟩ := List.mem_flatMap.mp member
  exact encodeUnit_low wc.toNat_lt b inside

theorem wide_lead (wide : 0x10000 ≤ c.toNat) : ∃ b ∈ String.utf8EncodeChar c, 0xf0 ≤ b.toNat := by
  have bound := char_bound c
  rw [char_wide wide]
  refine ⟨_,List.mem_cons_self,?_⟩
  rw [UInt8.toNat_ofNat_of_lt' (by change _ < 256; omega)]
  exact Nat.le_add_right _ _

theorem kept_whole : textOf (keptChars tables boundlen chars) = textOf chars ↔
    ∀ c ∈ chars, Convertible tables boundlen c.toNat := by
  induction chars with
  | nil => simp [keptChars]
  | cons c rest ih =>
    rw [List.forall_mem_cons,keptChars]
    by_cases kept : Convertible tables boundlen c.toNat
    · rw [List.takeWhile_cons_of_pos (by simpa using kept),textOf_cons,textOf_cons,List.append_cancel_left_eq]
      exact ih.trans (and_iff_right kept).symm
    · rw [List.takeWhile_cons_of_neg (by simpa using kept)]
      refine ⟨fun empty => ?_,fun all => absurd all.1 kept⟩
      exact absurd (List.append_eq_nil_iff.mp empty.symm).1 String.utf8EncodeChar_ne_nil

theorem textOf_clean {chars : List Char} (clean : '\x00' ∉ chars) : (0 : UInt8) ∉ textOf chars := by
  intro zero
  obtain ⟨c,member,inside⟩ := List.mem_flatMap.mp zero
  have nonzero : c.toNat ≠ 0 := fun nul => clean ((Char.toNat_inj.mp nul : c = '\x00') ▸ member)
  have byte (x : Nat) (some : x ≠ 0) (small : x < 256) : (0 : UInt8) ≠ UInt8.ofNat x := fun nul => by
    have value := congrArg UInt8.toNat nul
    rw [UInt8.toNat_ofNat_of_lt' small] at value
    exact some value.symm
  by_cases narrow : c.toNat < 0x10000
  · rw [char_narrow narrow] at inside
    exact encodeUnit_clean nonzero narrow inside
  · have bound := char_bound c
    rw [char_wide (Nat.le_of_not_lt narrow),encodeFour] at inside
    simp only [List.mem_cons,List.not_mem_nil,or_false] at inside
    rcases inside with lead | second | third | last
    · exact byte _ (by omega) (by omega) lead
    · exact byte _ (by omega) (by omega) second
    · exact byte _ (by omega) (by omega) third
    · exact byte _ (by omega) (by omega) last

theorem excerpt_tab1 (i : Fin 43996) : (excerpt.ucsToGb18030Tab1 i).target 0 =
    if i.val = 0x54ca then .two (0xb0,0xa1) else if i.val = 0x25 then .four 36 else .illegal := by
  simp only [excerpt]
  split
  · rfl
  split
  · exact index_target _ 0
  · rfl

theorem excerpt_tab2 (i : Fin 8192) : (excerpt.ucsToGb18030Tab2 i).target 0x82bd =
    if 0x865 ≤ i.val ∧ i.val ≤ 0x192b then .four (i.val-0x814+0x82bd) else .illegal := by
  simp only [excerpt]
  split
  · exact index_target _ _
  · rfl

theorem excerpt_target (above : 0x80 ≤ ch) (narrow : ch ≤ 0xffff) (code : target excerpt ch = found) :
    (ch = 0x554a ∧ found = .two (0xb0,0xa1)) ∨ (ch = 0xa5 ∧ found = .four 36) ∨
      (0xac00 ≤ ch ∧ ch ≤ 0xd7a3 ∧ found = .four (ch-0x5543)) ∨ (0xe865 ≤ ch ∧ ch ≤ 0xf92b ∧ found = .four (ch-0x6557)) ∨
        found = .illegal := by
  subst code
  unfold target
  split
  · rw [excerpt_tab1]
    dsimp only
    split
    · exact .inl ⟨by omega,rfl⟩
    split
    · exact .inr (.inl ⟨by omega,rfl⟩)
    · exact .inr (.inr (.inr (.inr rfl)))
  split
  · rename_i counted
    exact .inr (.inr (.inl ⟨counted.1,counted.2,rfl⟩))
  split
  · rw [excerpt_tab1]
    dsimp only
    rw [if_neg (by omega),if_neg (by omega)]
    exact .inr (.inr (.inr (.inr rfl)))
  split
  · rw [excerpt_tab2]
    dsimp only
    split
    · exact .inr (.inr (.inr (.inl ⟨by omega,by omega,congrArg Target.four (by omega)⟩)))
    · exact .inr (.inr (.inr (.inr rfl)))
  · exact .inr (.inr (.inr (.inr rfl)))

theorem excerpt_invertible : Invertible excerpt where
  twobyte ch cp above narrow code := by
    rcases excerpt_target above narrow code with ⟨rfl,same⟩ | ⟨_,same⟩ | ⟨_,_,same⟩ | ⟨_,_,same⟩ | same <;> cases same
    exact ⟨⟨by decide,by decide⟩,by decide,by decide⟩
  fourbyte ch idx above narrow code := by
    rcases excerpt_target above narrow code with ⟨_,same⟩ | ⟨rfl,same⟩ | ⟨least,most,same⟩ | ⟨least,most,same⟩ | same
    · cases same
    · rw [Target.four.inj same]
      decide
    · rw [Target.four.inj same,fourbyteUcs,if_neg (by omega),if_pos (by omega)]
      exact congrArg some (by omega)
    · rw [Target.four.inj same,fourbyteUcs,if_neg (by omega),if_neg (by omega),if_neg (by omega),if_pos (by omega)]
      exact congrArg some (by omega)
    · cases same

def Regained (tables : Tables) (statics : Statics) (text : Bytes) : Prop :=
  ∃ out later back last, decodeFromUTF8 tables true statics text = some (out,later) ∧
    encodeToUTF8 tables true later out.result = some (back,last) ∧ back.result = text

theorem decodeFromUTF8_text (tables : Tables) (statics : Statics) {chars : List Char} (clean : '\x00' ∉ chars)
    (defined : (textOf chars).length*4 ≤ intMax) : ∃ out later, decodeFromUTF8 tables true statics (textOf chars) =
      some (out,later) ∧ later.char2uni = statics.char2uni ∧
      out.result = (decodeTurns tables (textOf chars).length statics.uni2char (chars.map unitOf)).1 := by
  unfold decodeFromUTF8
  dsimp only
  rw [cString_whole (textOf_clean clean),if_neg (Nat.not_lt.mpr defined),if_pos rfl,utf8Mbstowcs_text clean]
  exact ⟨_,_,rfl,rfl,rfl⟩

theorem codes_clean (invertible : Invertible tables) (basic : Basic chars) :
    (0 : UInt8) ∉ (keptChars tables boundlen chars).flatMap (codeOf tables boundlen) := by
  intro zero
  obtain ⟨c,member,inside⟩ := List.mem_flatMap.mp zero
  exact character_clean (kept_character invertible basic member) inside

-- A text is given again, whatever was converted before it, where every character is of
-- the basic plane and can be converted; four times both lengths has to be an int.
theorem regained_exact (invertible : Invertible tables) (history : List Conversion)
    (reached : staticsAfter tables .clear history = some statics) (chars : List Char) (clean : '\x00' ∉ chars) :
    Regained tables statics (textOf chars) ↔
      (∀ c ∈ chars, c.toNat < 0x10000 ∧ Convertible tables (textOf chars).length c.toNat) ∧
        (textOf chars).length*4 ≤ intMax ∧ (chars.flatMap (codeOf tables (textOf chars).length)).length*4 ≤ intMax := by
  obtain ⟨clear,waits⟩ := reached_between reached
  have plane (narrow : ∀ c ∈ chars, c.toNat < 0x10000) : Basic chars :=
    fun c member => ⟨fun nul => clean (nul ▸ member),narrow c member⟩
  constructor
  · rintro ⟨out,later,back,last,decode,encode,whole⟩
    have defined := decodeFromUTF8_defined decode
    rw [cString_whole (textOf_clean clean)] at defined
    obtain ⟨_,_,run,same,written⟩ := decodeFromUTF8_text tables statics clean defined
    cases run.symm.trans decode
    have narrow : ∀ c ∈ chars, c.toNat < 0x10000 := by
      intro c member
      by_contra beyond
      obtain ⟨b,inside,high⟩ := wide_lead (Nat.le_of_not_lt beyond)
      have low := encodeToUTF8_low (same.trans clear) encode
      rw [whole] at low
      exact absurd (low b (List.mem_flatMap.mpr ⟨c,member,inside⟩)) (Nat.not_lt.mpr high)
    have basic := plane narrow
    rw [decodeTurns_kept invertible basic waits] at written
    rw [written] at encode
    have short := encodeToUTF8_defined encode
    rw [cString_whole (codes_clean invertible basic)] at short
    obtain ⟨_,again,text⟩ := encode_kept invertible basic (same.trans clear) _ short
    cases again.symm.trans encode
    have all := kept_whole.mp (text.symm.trans whole)
    have kept : keptChars tables (textOf chars).length chars = chars :=
      List.takeWhile_eq_self_iff.mpr fun c member => decide_eq_true (all c member)
    rw [kept] at short
    exact ⟨fun c member => ⟨narrow c member,all c member⟩,defined,short⟩
  · rintro ⟨all,defined,short⟩
    have basic := plane fun c member => (all c member).1
    have kept : keptChars tables (textOf chars).length chars = chars :=
      List.takeWhile_eq_self_iff.mpr fun c member => decide_eq_true (all c member).2
    obtain ⟨out,later,decode,same,written⟩ := decodeFromUTF8_text tables statics clean defined
    rw [decodeTurns_kept invertible basic waits] at written
    obtain ⟨back,encode,text⟩ := encode_kept invertible basic (same.trans clear)
      (textOf chars).length (by rw [kept]; exact short)
    refine ⟨out,later,back,later,decode,?_,?_⟩
    · rw [written]
      exact encode
    · rw [text,kept]

theorem regained_three : Regained excerpt ⟨.clear,⟨true,0xd840⟩⟩ (textOf ['a','¥','啊']) := by
  refine (regained_exact excerpt_invertible [.decode true [0xed,0xa1,0x80]] rfl ['a','¥','啊'] (by decide)).mpr
    ⟨?_,by decide,by decide⟩
  simp only [List.mem_cons,List.not_mem_nil,or_false,forall_eq_or_imp,forall_eq]
  decide

end ImAcc
