import ImAcc.Gb18030

-- EncodeToUTF8 and DecodeFromUTF8 over a whole text of accepted characters.
namespace ImAcc
open JsonC Utf8

variable {tables : Tables}

def Characters (tables : Tables) (chars : List Bytes) : Prop := ∀ char ∈ chars, Character tables char (codePoint tables char)

def wideOf (tables : Tables) (chars : List Bytes) : List UInt16 := chars.flatMap fun char => units (codePoint tables char)

theorem encodeTurns_step (answered : char2uni tables statics text text.length = some (.wide n u,later)) (some : text ≠ []) :
    encodeTurns tables (turn+1) statics text =
      (encodeTurns tables turn later (text.drop n)).map fun (wide,statics) => (u :: wide,statics) := by
  rcases text with _ | ⟨b,rest⟩
  · exact absurd rfl some
  · rw [List.length_cons] at answered
    rw [encodeTurns,answered]
    rfl

theorem encodeTurns_characters (characters : Characters tables chars) (turns : chars.flatten.length ≤ turn) :
    encodeTurns tables turn .clear chars.flatten = some (wideOf tables chars,.clear) := by
  induction chars generalizing turn with
  | nil => cases turn <;> rfl
  | cons char rest ih =>
    have character := characters char List.mem_cons_self
    have others : Characters tables rest := fun c member => characters c (List.mem_cons_of_mem _ member)
    obtain ⟨nonempty,lengths,four⟩ := character_length character
    have text : (char :: rest).flatten = char ++ rest.flatten := rfl
    have some : char ++ rest.flatten ≠ [] := fun empty => nonempty (List.append_eq_nil_iff.mp empty).1
    rw [text,List.length_append] at turns
    rw [text,wideOf,List.flatMap_cons]
    by_cases narrow : codePoint tables char < 0x10000
    · obtain ⟨turn,rfl⟩ : ∃ more, turn = more+1 := ⟨turn-1,by omega⟩
      rw [encodeTurns_step (character_basic character narrow _) some,List.drop_left,ih others (by omega),
        (units_narrow narrow).1]
      rfl
    · obtain ⟨turn,rfl⟩ : ∃ more, turn = more+2 := ⟨turn-2,by have := four (by omega); omega⟩
      obtain ⟨half,first,second⟩ := character_pair character (by omega) rest.flatten
      have long := four (by omega)
      have left : (char ++ rest.flatten).drop 2 ≠ [] := by
        intro empty
        have length := List.drop_eq_nil_iff.mp empty
        rw [List.length_append] at length
        omega
      have behind : ((char ++ rest.flatten).drop 2).drop 2 = rest.flatten := by
        rw [List.drop_drop,List.drop_left' long]
      rw [encodeTurns_step first some,encodeTurns_step second left,behind,ih others (by omega),units,if_neg narrow]
      rfl

theorem uni2char_scalar (waits : Waits statics) (scalar : Scalar uni.toNat) (boundlen : Nat) :
    uni2char tables statics uni boundlen = (uni2charFrom tables uni.toNat boundlen,.clear) := by
  have other : uni.toNat < 0xd840 ∨ 0xe000 ≤ uni.toNat := scalar.imp_left fun below => by omega
  have clear : uni2char tables .clear uni boundlen = (uni2charFrom tables uni.toNat boundlen,.clear) := by
    unfold uni2char
    dsimp only
    rw [if_neg (by omega),if_neg (by decide)]
  cases waits with
  | clear => exact clear
  | high => rw [uni2char_other tables other,clear]

-- A character decoded from its units is whole where it has room and is no pair.
def Returned (tables : Tables) (boundlen : Nat) (char : Bytes) : Prop :=
  codePoint tables char < 0x10000 ∧ char.length ≤ boundlen

instance : Decidable (Returned tables boundlen char) := inferInstanceAs (Decidable (_ ∧ _))

theorem decodeTurns_characters (consistent : Consistent tables) (characters : Characters tables chars) (waits : Waits statics)
    (some : chars ≠ [] → 1 ≤ boundlen) : (decodeTurns tables boundlen statics (wideOf tables chars)).1 =
      (chars.takeWhile fun char => Returned tables boundlen char).flatten := by
  induction chars generalizing statics with
  | nil => rfl
  | cons char rest ih =>
    have character := characters char List.mem_cons_self
    have others : Characters tables rest := fun c member => characters c (List.mem_cons_of_mem _ member)
    have some := some (List.cons_ne_nil _ _)
    rw [wideOf,List.flatMap_cons]
    by_cases narrow : codePoint tables char < 0x10000
    · obtain ⟨single,value⟩ := units_narrow narrow
      obtain ⟨scalar,_,decoded⟩ := character_decode consistent character narrow some
      have here : uni2char tables statics (UInt16.ofNat (codePoint tables char)) boundlen = _ :=
        uni2char_scalar waits (by rw [value]; exact scalar) boundlen
      rw [value,decoded] at here
      rw [single,List.singleton_append,decodeTurns]
      dsimp only
      rw [here]
      by_cases room : char.length ≤ boundlen
      · have kept : Returned tables boundlen char := ⟨narrow,room⟩
        have taken : (0 : Int) < Int.ofNat char.length :=
          Int.natCast_pos.mpr (List.length_pos_iff.mpr (character_length character).1)
        rw [List.takeWhile_cons_of_pos (by simpa using kept),List.flatten_cons,if_pos room]
        dsimp only
        rw [if_pos taken]
        exact congrArg (char ++ ·) (ih others .clear fun _ => some)
      · have lost : ¬Returned tables boundlen char := fun kept => room kept.2
        rw [List.takeWhile_cons_of_neg (by simpa using lost),if_neg room]
        rfl
    · have lost : ¬Returned tables boundlen char := fun kept => narrow kept.1
      obtain ⟨high,_⟩ := character_halves character (by omega)
      rw [List.takeWhile_cons_of_neg (by simpa using lost),units,if_neg narrow,List.cons_append,decodeTurns]
      cases waits with
      | clear => rw [uni2char_high tables high.1 high.2]; rfl
      | high => rw [uni2char_again tables high.1 high.2]; rfl

theorem wideOf_nonzero (characters : Characters tables chars) : (0 : UInt16) ∉ wideOf tables chars := by
  intro member
  obtain ⟨char,inside,unit⟩ := List.mem_flatMap.mp member
  exact units_nonzero (characters char inside) 0 unit rfl

theorem encode_characters (characters : Characters tables chars) (clean : (0 : UInt8) ∉ chars.flatten)
    (clear : statics.char2uni = .clear) (defined : chars.flatten.length*4 ≤ intMax) :
    ∃ out, encodeToUTF8 tables true statics chars.flatten = some (out,statics) ∧
      out.result = encoded (wideOf tables chars) := by
  obtain ⟨char2uni,uni2char⟩ := statics
  subst clear
  obtain ⟨wide,bounded,few⟩ := encodeTurns_clear tables (.clear : Foreseen .clear chars.flatten) (Nat.le_refl _)
  have run := encodeTurns_characters characters (Nat.le_refl chars.flatten.length)
  cases run.symm.trans bounded
  have written := utf8Wcstombs_encoded _ (wideOf_nonzero characters)
    (show 3*(wideOf tables chars).length ≤ chars.flatten.length*4 by omega)
  refine ⟨⟨wideOf tables chars ++ [0],encoded (wideOf tables chars) ++ [0],encoded (wideOf tables chars)⟩,?_,rfl⟩
  unfold encodeToUTF8
  dsimp only
  rw [cString_whole clean,if_neg (Nat.not_lt.mpr defined),if_pos rfl,run,Option.map_some,written]

theorem decode_encoded (statics : Statics) (nonzero : (0 : UInt16) ∉ wide) (defined : (encoded wide).length*4 ≤ intMax) :
    ∃ back last, decodeFromUTF8 tables true statics (encoded wide) = some (back,last) ∧
      back.result = (decodeTurns tables (encoded wide).length statics.uni2char wide).1 := by
  unfold decodeFromUTF8
  dsimp only
  rw [cString_whole (encoded_clean nonzero),if_neg (Nat.not_lt.mpr defined),if_pos rfl,utf8Mbstowcs_encoded wide nonzero]
  exact ⟨_,_,rfl,rfl⟩

theorem takeWhile_flatten {p : Bytes → Bool} {chars : List Bytes} (nonempty : ∀ char ∈ chars, char ≠ []) :
    (chars.takeWhile p).flatten = chars.flatten ↔ ∀ char ∈ chars, p char = true := by
  induction chars with
  | nil => exact ⟨fun _ _ member => absurd member List.not_mem_nil,fun _ => rfl⟩
  | cons char rest ih =>
    have others := ih fun c member => nonempty c (List.mem_cons_of_mem _ member)
    rw [List.forall_mem_cons]
    by_cases kept : p char = true
    · rw [List.takeWhile_cons_of_pos kept,List.flatten_cons,List.flatten_cons,List.append_cancel_left_eq,others]
      exact ⟨fun all => ⟨kept,all⟩,And.right⟩
    · rw [List.takeWhile_cons_of_neg kept]
      refine ⟨fun empty => ?_,fun all => absurd all.1 kept⟩
      exact absurd (List.append_eq_nil_iff.mp empty.symm).1 (nonempty char List.mem_cons_self)

def utf8Length (tables : Tables) (chars : List Bytes) : Nat :=
  (chars.map fun char => encodedLength (codePoint tables char)).sum

theorem encoded_characters (narrow : ∀ char ∈ chars, codePoint tables char < 0x10000) :
    encoded (wideOf tables chars) = (chars.map (codePoint tables)).flatMap encodeUnit := by
  induction chars with
  | nil => rfl
  | cons char rest ih =>
    obtain ⟨single,value⟩ := units_narrow (narrow char List.mem_cons_self)
    have others := ih fun c member => narrow c (List.mem_cons_of_mem _ member)
    rw [wideOf,List.flatMap_cons,single,List.singleton_append,encoded_cons,value,List.map_cons,List.flatMap_cons,← others]
    rfl

theorem encoded_characters_length (narrow : ∀ char ∈ chars, codePoint tables char < 0x10000) :
    (encoded (wideOf tables chars)).length = utf8Length tables chars := by
  rw [encoded_characters narrow,List.length_flatMap,List.map_map,utf8Length]
  exact congrArg List.sum (List.map_congr_left fun char _ => encodeUnit_length _)

theorem encoded_wellFormed (consistent : Consistent tables) (characters : Characters tables chars)
    (narrow : ∀ char ∈ chars, codePoint tables char < 0x10000) : WellFormed (encoded (wideOf tables chars)) := by
  rw [encoded_characters narrow]
  refine wellFormed_units _ fun unit member => ?_
  obtain ⟨char,inside,rfl⟩ := List.mem_map.mp member
  exact ⟨narrow char inside,
    (character_decode consistent (characters char inside) (narrow char inside) (Nat.le_refl 1)).1⟩

theorem encoded_some (chars : List Bytes) (some : chars ≠ []) : 1 ≤ (encoded (wideOf tables chars)).length := by
  rcases chars with _ | ⟨char,rest⟩
  · exact absurd rfl some
  obtain ⟨uni,more,first⟩ : ∃ uni more, units (codePoint tables char) = uni :: more := by
    unfold units
    split <;> exact ⟨_,_,rfl⟩
  have one := (encodedLength_bounds uni.toNat).1
  rw [wideOf,List.flatMap_cons,first,List.cons_append,encoded_cons,List.length_append,encodeUnit_length]
  omega

-- uni2char wants room for four bytes, and these need three at most.
def Cramped (tables : Tables) (chars : List Bytes) : Prop := ∃ four : Bytes, four.length = 4 ∧
  (chars = [four] ∨ codePoint tables four < 0x800 ∧ ∃ one : Bytes, one.length = 1 ∧ (chars = [four,one] ∨ chars = [one,four]))

theorem utf8Length_append (before behind : List Bytes) :
    utf8Length tables (before ++ behind) = utf8Length tables before+utf8Length tables behind := by
  simp [utf8Length]

theorem utf8Length_cons (char : Bytes) (rest : List Bytes) :
    utf8Length tables (char :: rest) = encodedLength (codePoint tables char)+utf8Length tables rest := rfl

theorem utf8Length_least (chars : List Bytes) : chars.length ≤ utf8Length tables chars := by
  induction chars with
  | nil => exact Nat.le_refl _
  | cons char rest ih =>
    have one := (encodedLength_bounds (codePoint tables char)).1
    rw [utf8Length_cons,List.length_cons]
    omega

theorem encodedLength_eq_one : encodedLength unit = 1 ↔ unit ≤ 0x7f := by
  unfold encodedLength
  split
  · omega
  · split <;> omega

theorem encodedLength_le_two : encodedLength unit ≤ 2 ↔ unit < 0x800 := by
  unfold encodedLength
  split
  · omega
  · split <;> omega

theorem cramped_around (long : char.length = 4) (two : 2 ≤ encodedLength (codePoint tables char))
    (ascii : ∀ c ∈ before ++ behind, encodedLength (codePoint tables c) = 1 → c.length = 1)
    (short : utf8Length tables before+(encodedLength (codePoint tables char)+utf8Length tables behind) < 4) :
    Cramped tables (before ++ char :: behind) := by
  have first : before.length ≤ utf8Length tables before := utf8Length_least before
  have last : behind.length ≤ utf8Length tables behind := utf8Length_least behind
  have below (some : 0 < before.length+behind.length) : codePoint tables char < 0x800 :=
    encodedLength_le_two.mp (by omega)
  refine ⟨char,long,?_⟩
  rcases before with _ | ⟨p,before⟩
  · rcases behind with _ | ⟨q,behind⟩
    · exact .inl rfl
    have one := encodedLength_bounds (codePoint tables q)
    rw [List.length_cons] at last
    rw [utf8Length_cons] at short last
    cases List.eq_nil_of_length_eq_zero (show behind.length = 0 by omega)
    exact .inr ⟨below (by simp),q,ascii q (by simp) (by omega),.inl rfl⟩
  · have one := encodedLength_bounds (codePoint tables p)
    rw [List.length_cons] at first
    rw [utf8Length_cons] at short first
    cases List.eq_nil_of_length_eq_zero (show before.length = 0 by omega)
    cases List.eq_nil_of_length_eq_zero (show behind.length = 0 by omega)
    exact .inr ⟨below (by simp),p,ascii p (by simp) (by omega),.inr rfl⟩

theorem roomy_exact (consistent : Consistent tables) (characters : Characters tables chars)
    (narrow : ∀ char ∈ chars, codePoint tables char < 0x10000) :
    (∀ char ∈ chars, char.length ≤ utf8Length tables chars) ↔ ¬Cramped tables chars := by
  have single : ∀ char ∈ chars, char.length = 1 ↔ encodedLength (codePoint tables char) = 1 := fun char member =>
    (character_decode consistent (characters char member) (narrow char member) (Nat.le_refl 1)).2.1.trans
      encodedLength_eq_one.symm
  constructor
  · rintro room ⟨four,long,alone | ⟨below,one,short,pair | pair⟩⟩
    · subst alone
      have fits := room four List.mem_cons_self
      have few := (encodedLength_bounds (codePoint tables four)).2
      rw [utf8Length_cons,utf8Length] at fits
      simp only [List.map_nil,List.sum_nil] at fits
      omega
    all_goals
      subst pair
      have fits := room four (by simp)
      have few := encodedLength_le_two.mpr below
      have ascii := (single one (by simp)).mp short
      rw [utf8Length_cons,utf8Length_cons,utf8Length] at fits
      simp only [List.map_nil,List.sum_nil] at fits
      omega
  · intro roomy char member
    have bounds := encodedLength_bounds (codePoint tables char)
    have ascii := single char member
    have lengths := (character_length (characters char member)).2.1
    obtain ⟨before,behind,rfl⟩ := List.append_of_mem member
    apply Classical.byContradiction
    intro short
    rw [utf8Length_append,utf8Length_cons] at short
    refine roomy (cramped_around (by omega) (by omega) (fun c inside one => (single c ?_).mpr one) (by omega))
    rcases List.mem_append.mp inside with left | right
    · exact List.mem_append_left _ left
    · exact List.mem_append_right _ (List.mem_cons_of_mem _ right)

-- The text comes back whole, and what it is encoded as is UTF-8.
def RoundTrip (tables : Tables) (statics : Statics) (text : Bytes) : Prop :=
  ∃ out later back last, encodeToUTF8 tables true statics text = some (out,later) ∧ WellFormed out.result ∧
    decodeFromUTF8 tables true later out.result = some (back,last) ∧ back.result = text

theorem decoded_whole (consistent : Consistent tables) (characters : Characters tables chars) (waits : Waits statics) :
    (decodeTurns tables (encoded (wideOf tables chars)).length statics (wideOf tables chars)).1 = chars.flatten ↔
      ∀ char ∈ chars, Returned tables (encoded (wideOf tables chars)).length char := by
  have nonempty : ∀ char ∈ chars, char ≠ [] := fun char member => (character_length (characters char member)).1
  rw [decodeTurns_characters consistent characters waits (encoded_some chars),takeWhile_flatten nonempty]
  simp

-- No character of plane 2, and the text not Cramped; both lengths have to fit an int four times.
theorem roundTrip_exact (consistent : Consistent tables) (history : List Conversion)
    (reached : staticsAfter tables .clear history = some statics) (chars : List Bytes)
    (accepted : ∀ char ∈ chars, Accepted tables char) (clean : (0 : UInt8) ∉ chars.flatten) :
    RoundTrip tables statics chars.flatten ↔ (∀ char ∈ chars, codePoint tables char < 0x10000) ∧ ¬Cramped tables chars ∧
      chars.flatten.length*4 ≤ intMax ∧ utf8Length tables chars*4 ≤ intMax := by
  obtain ⟨clear,waits⟩ := reached_between reached
  have characters : Characters tables chars := fun char member =>
    accepted_character (accepted char member) fun zero => clean (List.mem_flatten.mpr ⟨char,member,zero⟩)
  have nonzero := wideOf_nonzero characters
  constructor
  · rintro ⟨out,later,back,last,encode,_,decode,whole⟩
    have defined := encodeToUTF8_defined encode
    rw [cString_whole clean] at defined
    obtain ⟨_,run,result⟩ := encode_characters characters clean clear defined
    cases run.symm.trans encode
    rw [result] at decode
    have short := decodeFromUTF8_defined decode
    rw [cString_whole (encoded_clean nonzero)] at short
    obtain ⟨_,_,turns,text⟩ := decode_encoded _ nonzero short
    cases turns.symm.trans decode
    have kept := (decoded_whole consistent characters waits).mp (text.symm.trans whole)
    have narrow : ∀ char ∈ chars, codePoint tables char < 0x10000 := fun char member => (kept char member).1
    rw [encoded_characters_length narrow] at short kept
    exact ⟨narrow,(roomy_exact consistent characters narrow).mp fun char member => (kept char member).2,defined,short⟩
  · rintro ⟨narrow,roomy,defined,short⟩
    obtain ⟨out,run,result⟩ := encode_characters characters clean clear defined
    rw [← encoded_characters_length narrow] at short
    obtain ⟨back,last,turns,text⟩ := decode_encoded statics nonzero short
    refine ⟨out,statics,back,last,run,?_,?_,?_⟩
    · rw [result]
      exact encoded_wellFormed consistent characters narrow
    · rw [result]
      exact turns
    · refine text.trans ((decoded_whole consistent characters waits).mpr fun char member => ⟨narrow char member,?_⟩)
      rw [encoded_characters_length narrow]
      exact (roomy_exact consistent characters narrow).mpr roomy char member

theorem roundTrip_mixed : RoundTrip excerpt ⟨.clear,⟨true,0xd840⟩⟩ [[0x61],[0xb0,0xa1],[0x81,0x30,0x84,0x36]].flatten := by
  have accepted : ∀ char ∈ [[0x61],[0xb0,0xa1],[0x81,0x30,0x84,0x36]], Accepted excerpt char := by
    intro char member
    simp only [List.mem_cons,List.not_mem_nil,or_false] at member
    rcases member with rfl | rfl | rfl
    · exact .inl ⟨0x61,rfl⟩
    · exact .inl ⟨0x554a,by decide⟩
    · exact .inl ⟨0xa5,by decide⟩
  refine (roundTrip_exact excerpt_consistent [.decode true [0xed,0xa1,0x80]] rfl _ accepted (by decide)).mpr
    ⟨by decide,?_,by decide,by decide⟩
  rintro ⟨four,_,alone | ⟨_,one,_,pair | pair⟩⟩
  · cases alone
  · cases pair
  · cases pair

-- The first character of plane 2: nothing comes back.
theorem roundTrip_plane2 : Accepted excerpt [0x95,0x32,0x82,0x36] ∧ ¬RoundTrip excerpt .clear [0x95,0x32,0x82,0x36] := by
  refine ⟨.inr ⟨2,0xd840,⟨true,0x8236,0xdc00⟩,2,0xdc00,rfl,rfl,rfl,rfl⟩,?_⟩
  rintro ⟨out,later,back,last,encode,_,decode,whole⟩
  cases encode
  cases decode
  exact absurd whole (by decide)

-- Its halves are written as characters of their own.
example : resultOf (encodeToUTF8 excerpt true .clear [0x95,0x32,0x82,0x36]) =
    some [0xed,0xa1,0x80,0xed,0xb0,0x80] := by decide

end ImAcc
