import ImAcc.NlsBase
import ImAcc.NlsCp54936

-- UTF8Utils.c, its calls one after another on one pair of statics.
namespace ImAcc
open JsonC Utf8

def intMax : Nat := 2147483647

-- iInputLen turns are enough; none is a read outside the input or a table.
def encodeTurns (tables : Tables) : Nat → Char2uni → Bytes → Option (List UInt16 × Char2uni)
  | turn+1,statics,b :: rest => (char2uni tables statics (b :: rest) (rest.length+1)).bind fun (answer,statics) =>
    match answer with
    | .stop _ => some ([],statics)
    | .wide n uni => (encodeTurns tables turn statics ((b :: rest).drop n)).map fun (wide,statics) => (uni :: wide,statics)
  | _,statics,_ => some ([],statics)

-- boundlen is iInputLen in every turn; it is never counted down.
def decodeTurns (tables : Tables) (boundlen : Nat) : Uni2char → List UInt16 → Bytes × Uni2char
  | statics,[] => ([],statics)
  | statics,uni :: rest =>
    let call := uni2char tables statics uni boundlen
    if 0 < call.1.1 then
      let turns := decodeTurns tables boundlen call.2 rest
      (call.1.2 ++ turns.1,turns.2)
    else ([],call.2)

structure Statics where
  char2uni : Char2uni
  uni2char : Uni2char
deriving DecidableEq

def Statics.clear : Statics := ⟨.clear,.clear⟩

structure Converted where
  pwszBuffer : List UInt16
  pszOutputBuffer : Bytes
  result : Bytes
deriving DecidableEq

-- granted: both mallocs return memory. none is undefined: an int overflow or a read outside.
def encodeToUTF8 (tables : Tables) (granted : Bool) (statics : Statics) (mbcsStr : Bytes) : Option (Converted × Statics) :=
  let text := cString mbcsStr
  if intMax < text.length*4 then none
  else if granted then (encodeTurns tables text.length statics.char2uni text).map fun (wide,char2uni) =>
    let out := utf8Wcstombs wide (text.length*4)
    (⟨wide ++ [0],out ++ [0],out⟩,{ statics with char2uni })
  else some (⟨[],[],text⟩,statics)

def decodeFromUTF8 (tables : Tables) (granted : Bool) (statics : Statics) (utf8Str : Bytes) : Option (Converted × Statics) :=
  let text := cString utf8Str
  if intMax < text.length*4 then none
  else if granted then
    let wide := utf8Mbstowcs text text.length
    let turns := decodeTurns tables text.length statics.uni2char wide
    some (⟨wide,turns.1 ++ [0],turns.1⟩,{ statics with uni2char := turns.2 })
  else some (⟨[],[],text⟩,statics)

inductive Conversion where
  | encode (granted : Bool) (mbcsStr : Bytes)
  | decode (granted : Bool) (utf8Str : Bytes)

def convert (tables : Tables) (statics : Statics) : Conversion → Option (Converted × Statics)
  | .encode granted mbcsStr => encodeToUTF8 tables granted statics mbcsStr
  | .decode granted utf8Str => decodeFromUTF8 tables granted statics utf8Str

def staticsAfter (tables : Tables) (statics : Statics) : List Conversion → Option Statics
  | [] => some statics
  | call :: rest => (convert tables statics call).bind fun (_,statics) => staticsAfter tables statics rest

-- The look-ahead of char2uni is empty, or waits for the two bytes that come next.
inductive Foreseen : Char2uni → Bytes → Prop
  | clear : Foreseen .clear text
  | ahead : Foreseen ⟨true,b2.toNat <<< 8 ||| b3.toNat,value⟩ (b2 :: b3 :: rest)

theorem takes_foreseen (takes : Takes tables text n u statics) :
    1 ≤ n ∧ n ≤ text.length ∧ Foreseen statics (text.drop n) := by
  cases takes with
  | ascii => exact ⟨Nat.le_refl _,Nat.le_add_left _ _,.clear⟩
  | twobyte => exact ⟨by decide,Nat.le_add_left _ _,.clear⟩
  | fourbyte => exact ⟨by decide,Nat.le_add_left _ _,.clear⟩
  | supplementary => exact ⟨by decide,by simp,.ahead⟩

theorem char2uni_foreseen (tables : Tables) (foreseen : Foreseen statics (b :: rest)) :
    (∃ n, char2uni tables statics (b :: rest) (rest.length+1) = some (.stop n,.clear)) ∨
      ∃ n u later, char2uni tables statics (b :: rest) (rest.length+1) = some (.wide n u,later) ∧
        1 ≤ n ∧ n ≤ rest.length+1 ∧ Foreseen later ((b :: rest).drop n) := by
  cases foreseen with
  | clear =>
    rcases char2uni_clear tables b rest with stopped | ⟨n,u,later,answered,takes⟩
    · exact .inl stopped
    · exact .inr ⟨n,u,later,answered,takes_foreseen takes⟩
  | @ahead value b3 rest =>
    exact .inr ⟨2,value,.clear,by simp [char2uni],by decide,by simp,.clear⟩

theorem encodeTurns_clear (tables : Tables) (foreseen : Foreseen statics text) (turns : text.length ≤ turn) :
    ∃ wide, encodeTurns tables turn statics text = some (wide,.clear) ∧ wide.length ≤ text.length := by
  induction turn generalizing statics text with
  | zero =>
    have empty := List.eq_nil_of_length_eq_zero (Nat.le_zero.mp turns)
    subst empty
    cases foreseen
    exact ⟨[],rfl,Nat.le_refl _⟩
  | succ turn ih =>
    rcases text with _ | ⟨b,rest⟩
    · cases foreseen
      exact ⟨[],rfl,Nat.le_refl _⟩
    rcases char2uni_foreseen tables foreseen with ⟨n,stopped⟩ | ⟨n,u,later,answered,some,inside,waiting⟩
    · exact ⟨[],by rw [encodeTurns,stopped]; rfl,Nat.zero_le _⟩
    · have left : ((b :: rest).drop n).length = rest.length+1-n := List.length_drop
      obtain ⟨wide,run,few⟩ := ih waiting (by rw [left]; rw [List.length_cons] at turns; omega)
      refine ⟨u :: wide,?_,?_⟩
      · rw [encodeTurns,answered,Option.bind_some]
        dsimp only
        rw [run]
        rfl
      · rw [left] at few
        rw [List.length_cons,List.length_cons]
        omega

theorem encodeToUTF8_defined (run : encodeToUTF8 tables granted statics mbcsStr = some r) :
    (cString mbcsStr).length*4 ≤ intMax := by
  apply Nat.le_of_not_lt
  intro beyond
  rw [encodeToUTF8,if_pos beyond] at run
  cases run

theorem decodeFromUTF8_defined (run : decodeFromUTF8 tables granted statics utf8Str = some r) :
    (cString utf8Str).length*4 ≤ intMax := by
  apply Nat.le_of_not_lt
  intro beyond
  rw [decodeFromUTF8,if_pos beyond] at run
  cases run

theorem encodeToUTF8_clear (tables : Tables) (granted : Bool) (clear : statics.char2uni = .clear) (mbcsStr : Bytes)
    (defined : (cString mbcsStr).length*4 ≤ intMax) :
    ∃ out, encodeToUTF8 tables granted statics mbcsStr = some (out,statics) ∧
      if granted then out.pwszBuffer.length ≤ (cString mbcsStr).length+1 ∧
        out.pszOutputBuffer.length ≤ 3*(cString mbcsStr).length+1 else out.pwszBuffer = [] ∧ out.pszOutputBuffer = [] := by
  obtain ⟨char2uni,uni2char⟩ := statics
  subst clear
  unfold encodeToUTF8
  dsimp only
  rw [if_neg (Nat.not_lt.mpr defined)]
  cases granted with
  | false => exact ⟨_,rfl,rfl,rfl⟩
  | true =>
    obtain ⟨wide,run,few⟩ := encodeTurns_clear tables (Foreseen.clear : Foreseen .clear (cString mbcsStr)) (Nat.le_refl _)
    have bytes := utf8Wcstombs_length wide ((cString mbcsStr).length*4)
    rw [run]
    refine ⟨_,rfl,?_,?_⟩
    · dsimp only
      rw [List.length_append,List.length_singleton]
      omega
    · dsimp only
      rw [List.length_append,List.length_singleton]
      omega

theorem decodeTurns_waits (tables : Tables) (boundlen : Nat) (waits : Waits statics) (wide : List UInt16) :
    Waits (decodeTurns tables boundlen statics wide).2 := by
  induction wide generalizing statics with
  | nil => exact waits
  | cons uni rest ih =>
    have next := uni2char_waits tables waits uni boundlen
    unfold decodeTurns
    dsimp only
    split
    · exact ih next
    · exact next

-- What a call finds: char2uni as at the start, uni2char perhaps waiting.
structure Between (statics : Statics) : Prop where
  char2uni : statics.char2uni = .clear
  uni2char : Waits statics.uni2char

theorem convert_between (between : Between statics) (converted : convert tables statics call = some (out,later)) :
    Between later := by
  cases call with
  | encode granted mbcsStr =>
    obtain ⟨_,run,_⟩ := encodeToUTF8_clear tables granted between.char2uni mbcsStr (encodeToUTF8_defined converted)
    rw [convert,run] at converted
    cases converted
    exact between
  | decode granted utf8Str =>
    unfold convert decodeFromUTF8 at converted
    dsimp only at converted
    split at converted
    · cases converted
    split at converted
    · cases converted
      exact ⟨between.char2uni,decodeTurns_waits tables _ between.uni2char _⟩
    · cases converted
      exact between

theorem staticsAfter_between (between : Between statics)
    (reached : staticsAfter tables statics history = some later) : Between later := by
  induction history generalizing statics with
  | nil => cases reached; exact between
  | cons call rest ih =>
    obtain ⟨⟨out,next⟩,converted,continued⟩ := Option.bind_eq_some_iff.mp reached
    exact ih (convert_between between converted) continued

theorem reached_between (reached : staticsAfter tables .clear history = some statics) : Between statics :=
  staticsAfter_between ⟨rfl,.clear⟩ reached

-- The call runs to its end, reading inside the input and the tables, storing inside both buffers.
def BuffersSuffice (L : Nat) (call : Option (Converted × Statics)) : Prop :=
  ∃ out later, call = some (out,later) ∧ out.pwszBuffer.length ≤ 2*L ∧ out.pszOutputBuffer.length ≤ 4*L

theorem buffersSuffice_exact (tables : Tables) (history : List Conversion) (granted : Bool) (mbcsStr : Bytes)
    (reached : staticsAfter tables .clear history = some statics) :
    BuffersSuffice (cString mbcsStr).length (encodeToUTF8 tables granted statics mbcsStr) ↔
      (granted = true → cString mbcsStr ≠ []) ∧ (cString mbcsStr).length*4 ≤ intMax := by
  have clear := (reached_between reached).char2uni
  constructor
  · rintro ⟨out,later,run,units,bytes⟩
    refine ⟨?_,encodeToUTF8_defined run⟩
    rintro rfl empty
    rw [encodeToUTF8,empty] at run
    cases run
    rw [empty] at units
    exact absurd units (by decide)
  · rintro ⟨nonempty,defined⟩
    obtain ⟨out,run,bounds⟩ := encodeToUTF8_clear tables granted clear mbcsStr defined
    refine ⟨out,statics,run,?_⟩
    cases granted with
    | false =>
      rw [bounds.1,bounds.2]
      exact ⟨Nat.zero_le _,Nat.zero_le _⟩
    | true =>
      have some := List.length_pos_iff.mpr (nonempty rfl)
      have bounds : out.pwszBuffer.length ≤ (cString mbcsStr).length+1 ∧
        out.pszOutputBuffer.length ≤ 3*(cString mbcsStr).length+1 := bounds
      omega

theorem buffersSuffice_three :
    BuffersSuffice 3 (encodeToUTF8 excerpt true .clear [0xb0,0xa1,0x61]) :=
  (buffersSuffice_exact excerpt [.encode true [0x61,0x80]] true [0xb0,0xa1,0x61] rfl).mpr ⟨fun _ => by decide,by decide⟩

-- The empty text: a unit and a byte go into buffers of no bytes.
theorem buffersSuffice_empty : ¬BuffersSuffice (cString []).length (encodeToUTF8 excerpt true .clear []) := by
  rintro ⟨out,later,run,units,_⟩
  cases run
  exact absurd units (by decide)

end ImAcc
