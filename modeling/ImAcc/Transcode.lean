import ImAcc.NlsBase

-- utf8_mbstowcs and utf8_wcstombs over a well-formed text.
namespace ImAcc
open JsonC Utf8

def textOf (chars : List Char) : Bytes := chars.flatMap String.utf8EncodeChar

-- A code point is cut to the wchar_t it is stored in.
def unitOf (c : Char) : UInt16 := UInt16.ofNat c.toNat

theorem unitOf_narrow (narrow : c.toNat < 0x10000) : (unitOf c).toNat = c.toNat := UInt16.toNat_ofNat_of_lt' narrow

theorem or_lead4 : ∀ x < 5, (0xf0+x) &&& 0x80 ≠ 0 ∧ (0xf0+x) &&& 0xe0 ≠ 0xc0 ∧ (0xf0+x) &&& 0xf0 ≠ 0xe0 ∧
    (0xf0+x) &&& 0xf8 = 0xf0 := by decide
theorem lead4_high : ∀ x < 5, UInt8.ofNat (0xf0+x) ≠ 0 ∧ UInt8.ofNat (0xf0+x) &&& 0x80 ≠ 0 := by decide

theorem utf8Mbtowc_four (wide : 0x10000 ≤ code) (bound : code < 0x110000) (room : 4 ≤ n) (rest : Bytes) :
    utf8Mbtowc (encodeFour code ++ rest) n = some (UInt16.ofNat code,4) := by
  have byte (x : Nat) (small : x < 256) : (UInt8.ofNat x).toNat = x := UInt8.toNat_ofNat_of_lt' small
  have six (x : Nat) : x%64 < 64 := Nat.mod_lt _ (by decide)
  have lead := or_lead4 (code/262144) (by omega)
  have first := or_tail (code/4096%64) (six _)
  have second := or_tail (code/64%64) (six _)
  have last := or_tail (code%64) (six _)
  have sum : ((((0xf0+code/262144) <<< 6 ||| code/4096%64) <<< 6 ||| code/64%64) <<< 6 ||| code%64) &&& 0x1fffff = code := by
    rw [joined _ (six _),joined _ (six _),joined _ (six _),masked 21 rfl]
    omega
  unfold utf8Mbtowc encodeFour
  simp only [List.cons_append,List.nil_append,List.headD_cons,byte (0xf0+code/262144) (by omega),utf8Table,mbtowcFrom,
    if_neg lead.1,if_neg lead.2.1,if_neg lead.2.2.1,if_neg (show ¬n ≤ 0+1 by omega),if_neg (show ¬n ≤ 0+1+1 by omega),
    if_neg (show ¬n ≤ 0+1+1+1 by omega),List.drop_succ_cons,List.drop_zero,first.2.1,first.2.2,second.2.1,second.2.2,
    last.2.1,last.2.2,ne_eq,not_true_eq_false,if_false,if_pos lead.2.2.2,sum,if_neg (show ¬code < 0x10000 by omega)]

theorem mbstowcsFrom_taken {text : Bytes} (spelt : text = b :: more) (some : b ≠ 0) (high : b &&& 0x80 ≠ 0)
    (decoded : utf8Mbtowc (text ++ rest) (text.length+rest.length) = .some (wc,text.length)) :
    mbstowcsFrom (turn+1) (text ++ rest) (text.length+rest.length) = wc :: mbstowcsFrom turn rest rest.length := by
  obtain ⟨n,count⟩ : ∃ n, text.length+rest.length = n+1 := ⟨text.length+rest.length-1,by rw [spelt,List.length_cons]; omega⟩
  have remaining : n+1-text.length = rest.length := by omega
  have behind : (text ++ rest).drop text.length = rest := List.drop_left
  rw [count] at decoded ⊢
  generalize text.length = size at decoded remaining behind
  subst spelt
  rw [List.cons_append] at decoded behind ⊢
  rw [mbstowcsFrom,if_neg some,if_pos high,decoded]
  dsimp only
  rw [behind,remaining]

theorem mbstowcsFrom_char (some : c ≠ '\x00') (turn : Nat) (rest : Bytes) :
    mbstowcsFrom (turn+1) (String.utf8EncodeChar c ++ rest) ((String.utf8EncodeChar c).length+rest.length) =
      unitOf c :: mbstowcsFrom turn rest rest.length := by
  have nonzero : c.toNat ≠ 0 := fun zero => some (Char.toNat_inj.mp zero)
  by_cases narrow : c.toNat < 0x10000
  · have value := unitOf_narrow narrow
    rw [char_narrow narrow,← value]
    by_cases above : 0x7f < (unitOf c).toNat
    · obtain ⟨b,more,text,some,high⟩ := encodeUnit_high above (unitOf c).toNat_lt
      refine mbstowcsFrom_taken text some high ?_
      rw [encodeUnit_length]
      exact utf8Mbtowc_unit (unitOf c) above (Nat.le_add_right _ _) rest
    · have ascii := ascii_wide (unitOf c) above
      have here : unitOf c ≠ 0 := fun zero => nonzero (by rw [← value,zero]; rfl)
      rw [ascii.2.2.1,List.singleton_append,List.length_singleton,Nat.add_comm 1,mbstowcsFrom,if_neg (ascii.2.2.2 here),
        if_neg (not_not.mpr ascii.2.1),ascii.1]
  · have wide : 0x10000 ≤ c.toNat := Nat.le_of_not_lt narrow
    have bound := char_bound c
    have lead := lead4_high (c.toNat/262144) (by omega)
    rw [char_wide wide]
    exact mbstowcsFrom_taken rfl lead.1 lead.2 (utf8Mbtowc_four wide bound (Nat.le_add_right 4 _) rest)

theorem textOf_cons (c : Char) (rest : List Char) : textOf (c :: rest) = String.utf8EncodeChar c ++ textOf rest := rfl

theorem mbstowcsFrom_text (clean : '\x00' ∉ chars) (turns : (textOf chars).length ≤ turn) :
    mbstowcsFrom turn (textOf chars) (textOf chars).length = chars.map unitOf := by
  induction chars generalizing turn with
  | nil => cases turn <;> rfl
  | cons c rest ih =>
    have here : c ≠ '\x00' := fun nul => clean (nul ▸ List.mem_cons_self)
    have later : '\x00' ∉ rest := fun member => clean (List.mem_cons_of_mem _ member)
    have size : 1 ≤ (String.utf8EncodeChar c).length := by
      rw [String.length_utf8EncodeChar]
      exact Char.utf8Size_pos c
    rw [textOf_cons,List.length_append] at turns ⊢
    obtain ⟨turn,rfl⟩ : ∃ more, turn = more+1 := ⟨turn-1,by omega⟩
    rw [mbstowcsFrom_char here,ih later (by omega),List.map_cons]

theorem utf8Mbstowcs_text (clean : '\x00' ∉ chars) :
    utf8Mbstowcs (textOf chars) (textOf chars).length = chars.map unitOf := mbstowcsFrom_text clean (Nat.le_refl _)

-- With three bytes of room for each unit, all is written up to the first unit of zero.
theorem utf8Wcstombs_terminated (room : 3*wide.length ≤ maxlen) :
    utf8Wcstombs wide maxlen = encoded (wide.takeWhile (· ≠ 0)) := by
  induction wide generalizing maxlen with
  | nil => cases maxlen <;> rfl
  | cons wc rest ih =>
    by_cases zero : wc = 0
    · cases maxlen <;> simp [utf8Wcstombs,zero,encoded]
    · rw [List.length_cons] at room
      obtain ⟨maxlen,rfl⟩ : ∃ more, maxlen = more+1 := ⟨maxlen-1,by omega⟩
      have size := encodedLength_bounds wc.toNat
      have kept : (wc :: rest).takeWhile (· ≠ 0) = wc :: rest.takeWhile (· ≠ 0) :=
        List.takeWhile_cons_of_pos (decide_eq_true zero)
      rw [kept,encoded_cons,utf8Wcstombs,if_neg zero]
      by_cases above : 0x7f < wc.toNat
      · have shown : 0x7f < wc := above
        rw [if_pos shown,utf8Wctomb_unit wc above (by omega)]
        dsimp only
        rw [encodeUnit_length,ih (by omega)]
      · have shown : ¬0x7f < wc := above
        rw [if_neg shown,(ascii_wide wc above).2.2.1,ih (by omega)]
        rfl

theorem encoded_prefix (wide : List UInt16) : (encoded (wide.takeWhile (· ≠ 0))).length ≤ (encoded wide).length := by
  have parts := congrArg encoded (List.takeWhile_append_dropWhile (p := (· ≠ 0)) (l := wide))
  unfold encoded at *
  rw [← parts,List.flatMap_append,List.length_append]
  exact Nat.le_add_right _ _

theorem unitOf_length (c : Char) : encodedLength (unitOf c).toNat ≤ (String.utf8EncodeChar c).length ∧
    (0x10000 ≤ c.toNat → encodedLength (unitOf c).toNat < (String.utf8EncodeChar c).length) := by
  by_cases narrow : c.toNat < 0x10000
  · rw [char_narrow narrow,encodeUnit_length,unitOf_narrow narrow]
    exact ⟨Nat.le_refl _,fun wide => absurd narrow (Nat.not_lt.mpr wide)⟩
  · have short := (encodedLength_bounds (unitOf c).toNat).2
    have four : (String.utf8EncodeChar c).length = 4 := by rw [char_wide (Nat.le_of_not_lt narrow)]; rfl
    rw [four]
    exact ⟨Nat.le_succ_of_le short,fun _ => Nat.lt_succ_of_le short⟩

theorem encoded_units_length (chars : List Char) : (encoded (chars.map unitOf)).length ≤ (textOf chars).length ∧
    ((∃ c ∈ chars, 0x10000 ≤ c.toNat) → (encoded (chars.map unitOf)).length < (textOf chars).length) := by
  induction chars with
  | nil => exact ⟨Nat.le_refl _,fun ⟨_,member,_⟩ => absurd member List.not_mem_nil⟩
  | cons c rest ih =>
    obtain ⟨least,cut⟩ := unitOf_length c
    obtain ⟨others,strict⟩ := ih
    rw [List.map_cons,encoded_cons,textOf_cons,List.length_append,List.length_append,encodeUnit_length]
    refine ⟨Nat.add_le_add least others,?_⟩
    rintro ⟨wide,member,above⟩
    rcases List.mem_cons.mp member with rfl | later
    · exact Nat.add_lt_add_of_lt_of_le (cut above) others
    · exact Nat.add_lt_add_of_le_of_lt least (strict ⟨wide,later,above⟩)

theorem encoded_units {chars : List Char} (narrow : ∀ c ∈ chars, c.toNat < 0x10000) :
    encoded (chars.map unitOf) = textOf chars := by
  unfold encoded textOf
  rw [List.flatMap_map]
  refine List.flatMap_congr fun c member => ?_
  rw [char_narrow (narrow c member),unitOf_narrow (narrow c member)]

theorem units_clean {chars : List Char} (clean : '\x00' ∉ chars) (narrow : ∀ c ∈ chars, c.toNat < 0x10000) :
    (0 : UInt16) ∉ chars.map unitOf := by
  intro member
  obtain ⟨c,inside,zero⟩ := List.mem_map.mp member
  have value := unitOf_narrow (narrow c inside)
  rw [zero] at value
  have nul : c = '\x00' := Char.toNat_inj.mp value.symm
  exact clean (nul ▸ inside)

-- A text comes back from its units where it has no character of a supplementary plane.
theorem transcoded_exact {chars : List Char} (clean : '\x00' ∉ chars) (room : 3*chars.length ≤ maxlen) :
    utf8Mbstowcs (textOf chars) (textOf chars).length = chars.map unitOf ∧
      (utf8Wcstombs (utf8Mbstowcs (textOf chars) (textOf chars).length) maxlen = textOf chars ↔
        ∀ c ∈ chars, c.toNat < 0x10000) := by
  have units := utf8Mbstowcs_text clean
  refine ⟨units,?_⟩
  rw [units]
  have written : utf8Wcstombs (chars.map unitOf) maxlen = encoded ((chars.map unitOf).takeWhile (· ≠ 0)) :=
    utf8Wcstombs_terminated (by rwa [List.length_map])
  constructor
  · intro whole c member
    by_contra wide
    have shorter := (encoded_units_length chars).2 ⟨c,member,Nat.le_of_not_lt wide⟩
    have least := encoded_prefix (chars.map unitOf)
    rw [← written,whole] at least
    omega
  · intro narrow
    rw [utf8Wcstombs_encoded _ (units_clean clean narrow) (by rwa [List.length_map]),encoded_units narrow]

theorem transcoded_two : utf8Wcstombs (utf8Mbstowcs (textOf ['a','啊']) 4) 8 = textOf ['a','啊'] :=
  (transcoded_exact (show '\x00' ∉ ['a','啊'] by decide) (show 3*2 ≤ 8 by decide)).2.mpr (by simp)

end ImAcc
