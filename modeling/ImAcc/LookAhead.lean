import ImAcc.UTF8Utils

-- A decode that stops on the first half of a pair leaves it for the call after.
namespace ImAcc
open JsonC Utf8

def resultOf (call : Option (Converted × Statics)) : Option Bytes := call.map fun r => r.1.result

def Completes (statics : Statics) : Conversion → Prop
  | .encode _ _ => False
  | .decode granted utf8Str => granted = true ∧ (cString utf8Str).length*4 ≤ intMax ∧ statics.uni2char.predict = true ∧
      4 ≤ (cString utf8Str).length ∧
      ∃ uni ∈ (utf8Mbstowcs (cString utf8Str) (cString utf8Str).length).head?, Low uni.toNat

theorem uni2char_low (tables : Tables) (low : Low uni.toNat) (boundlen : Nat) :
    uni2char tables .clear uni boundlen = ((-1,[]),.clear) := by
  unfold uni2char Low at *
  dsimp only
  rw [if_neg (by omega),if_neg (by decide),uni2charFrom_surrogate tables _ (by omega) low.2]

theorem uni2char_pair (tables : Tables) (above : 0xd840 ≤ w) (low : Low uni.toNat) (boundlen : Nat) :
    ∃ out, uni2char tables ⟨true,w⟩ uni boundlen = (if boundlen ≤ 3 then (-1,[]) else (4,out),.clear) ∧ out ≠ [] := by
  have joined : uni.toNat ||| w <<< 16 = w*65536+uni.toNat := by
    rw [Nat.or_comm,← Nat.shiftLeft_add_eq_or_of_lt uni.toNat_lt,Nat.shiftLeft_eq]
  unfold uni2char Low at *
  dsimp only
  rw [if_neg (by simp),if_pos rfl,if_pos ⟨low.1,by omega⟩,joined,uni2charFrom,if_neg (by omega),if_pos (by omega)]
  exact ⟨_,rfl,List.cons_ne_nil _ _⟩

theorem uni2char_high (tables : Tables) (above : 0xd840 ≤ uni.toNat) (below : uni.toNat < 0xdc00) (boundlen : Nat) :
    uni2char tables .clear uni boundlen = ((0,[]),⟨true,uni.toNat⟩) :=
  if_pos ⟨above,Nat.le_of_lt_succ below,rfl⟩

theorem uni2char_again (tables : Tables) (above : 0xd840 ≤ uni.toNat) (below : uni.toNat < 0xdc00) (w boundlen : Nat) :
    uni2char tables ⟨true,w⟩ uni boundlen = ((-1,[]),.clear) := by
  unfold uni2char
  dsimp only
  rw [if_neg (by simp),if_pos rfl,if_neg (by omega),uni2charFrom_surrogate tables _ (by omega) (by omega)]

-- Any other unit is converted as if nothing had been waiting; the half is dropped.
theorem uni2char_other (tables : Tables) (other : uni.toNat < 0xd840 ∨ 0xe000 ≤ uni.toNat) (w boundlen : Nat) :
    uni2char tables ⟨true,w⟩ uni boundlen = uni2char tables .clear uni boundlen := by
  unfold uni2char
  dsimp only
  rw [if_neg (by simp),if_pos rfl,if_neg (by omega),if_neg (by omega),if_neg (by decide)]

theorem decodeTurns_waiting (tables : Tables) (above : 0xd840 ≤ w) (boundlen : Nat) (wide : List UInt16) :
    (decodeTurns tables boundlen ⟨true,w⟩ wide).1 = (decodeTurns tables boundlen .clear wide).1 ↔
      ¬(4 ≤ boundlen ∧ ∃ uni ∈ wide.head?, Low uni.toNat) := by
  rcases wide with _ | ⟨uni,rest⟩
  · simp [decodeTurns]
  have only : (∃ u ∈ (uni :: rest).head?, Low u.toNat) ↔ Low uni.toNat := by simp
  rw [only]
  by_cases low : Low uni.toNat
  · obtain ⟨out,pair,nonempty⟩ := uni2char_pair tables above low boundlen
    have alone : (decodeTurns tables boundlen .clear (uni :: rest)).1 = [] := by
      rw [decodeTurns,uni2char_low tables low]
      rfl
    rw [alone,decodeTurns,pair]
    by_cases short : boundlen ≤ 3
    · rw [if_pos short]
      exact ⟨fun _ long => absurd long.1 (by omega),fun _ => rfl⟩
    · rw [if_neg short]
      refine ⟨fun empty => ?_,fun never => absurd ⟨by omega,low⟩ never⟩
      exact absurd (List.append_eq_nil_iff.mp empty).1 nonempty
  · refine ⟨fun _ both => low both.2,fun _ => ?_⟩
    unfold Low at low
    by_cases high : 0xd840 ≤ uni.toNat ∧ uni.toNat < 0xe000
    · -- A second first half ends both runs before anything is written.
      rw [decodeTurns,decodeTurns,uni2char_again tables high.1 (by omega),uni2char_high tables high.1 (by omega)]
      rfl
    · rw [decodeTurns,decodeTurns,uni2char_other tables (by omega)]

-- A conversion's result is what a fresh process gives, unless it completes a pair whose
-- first half an earlier one left.
theorem lookAhead_exact (tables : Tables) (history : List Conversion) (call : Conversion)
    (reached : staticsAfter tables .clear history = some statics) :
    resultOf (convert tables statics call) = resultOf (convert tables .clear call) ↔ ¬Completes statics call := by
  obtain ⟨clear,waits⟩ := reached_between reached
  obtain ⟨char2uni,uni2char⟩ := statics
  subst clear
  cases call with
  | encode granted mbcsStr =>
    refine ⟨fun _ never => never,fun _ => ?_⟩
    unfold convert encodeToUTF8 resultOf
    dsimp only
    split
    · rfl
    split
    · rw [Option.map_map,Option.map_map]
      rfl
    · rfl
  | decode granted utf8Str =>
    unfold convert decodeFromUTF8 resultOf Completes
    dsimp only
    by_cases beyond : intMax < (cString utf8Str).length*4
    · rw [if_pos beyond,if_pos beyond]
      exact ⟨fun _ completes => absurd completes.2.1 (Nat.not_le.mpr beyond),fun _ => rfl⟩
    rw [if_neg beyond,if_neg beyond]
    cases granted with
    | false => exact ⟨fun _ completes => absurd completes.1 (by decide),fun _ => rfl⟩
    | true =>
      simp only [if_true,Option.map_some,Option.some.injEq,Statics.clear]
      cases waits with
      | clear => exact ⟨fun _ completes => absurd completes.2.2.1 (by decide),fun _ => rfl⟩
      | high above _ =>
        rw [decodeTurns_waiting tables above]
        simp [Nat.le_of_not_lt beyond]

theorem lookAhead_short : resultOf (convert excerpt ⟨.clear,⟨true,0xd840⟩⟩ (.decode true [0xed,0xb0,0x80])) =
    resultOf (convert excerpt .clear (.decode true [0xed,0xb0,0x80])) :=
  (lookAhead_exact excerpt [.decode true [0xed,0xa1,0x80],.encode true [0x61]] (.decode true [0xed,0xb0,0x80]) rfl).mpr
    fun completes => absurd completes.2.2.2.1 (by decide)

theorem lookAhead_completed : staticsAfter excerpt .clear [.decode true [0xed,0xa1,0x80]] = some ⟨.clear,⟨true,0xd840⟩⟩ ∧
    resultOf (convert excerpt ⟨.clear,⟨true,0xd840⟩⟩ (.decode true [0xed,0xb0,0x80,0x61])) =
      some [0x95,0x32,0x82,0x36,0x61] ∧
    resultOf (convert excerpt .clear (.decode true [0xed,0xb0,0x80,0x61])) = some [] := by decide

end ImAcc
