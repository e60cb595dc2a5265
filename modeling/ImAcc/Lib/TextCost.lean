import ImAcc.Lib.JsonText

-- What a value costs to write, blanks not counted: no text is shorter than its value.
namespace JsonText
open JsonC

def weightOf (b : UInt8) : Nat := if b = 32 then 0 else 1
def weight (text : Bytes) : Nat := (text.map weightOf).sum

def costOf (b : UInt8) : Nat := if IsSpecial b then 2 else weightOf b
def textCost (text : Bytes) : Nat := (text.map costOf).sum

mutual
def Value.cost : Value → Nat
  | .null | .boolean _ => 0
  | .number text => text.length
  | .string text => 2+textCost text
  | .array items => 1+itemsCost items
  | .object members => 1+membersCost members
def itemsCost : List Value → Nat
  | [] => 0
  | v :: rest => v.cost+1+itemsCost rest
def membersCost : List (Bytes × Value) → Nat
  | [] => 0
  | (key,v) :: rest => textCost key+4+v.cost+membersCost rest
end

def Piece.cost : Piece → Nat
  | .byte b => costOf b
  | .unit _ => 6

def piecesCost (pieces : List Piece) : Nat := (pieces.map Piece.cost).sum

def Frame.cost : Frame → Nat
  | .array items => 1+itemsCost items
  | .object members => 1+membersCost members
  | .member members key => 1+membersCost members+textCost key+3

-- After a value the comma that would follow it is still owed.
def Token.cost : Token → Nat
  | .colon | .next => 0
  | .value | .items | .names | .name => 1
  | .literal _ v | .root v => 1+v.cost
  | .number _ text => 1+text.length
  | .string pieces => 2+piecesCost pieces
  | .escape pieces => 3+piecesCost pieces
  | .unicode pieces hex => 4+piecesCost pieces+hex.length

def State.cost (s : State) : Nat := s.token.cost+(s.stack.map Frame.cost).sum

theorem weight_append (s t : Bytes) : weight (s ++ t) = weight s+weight t := by
  simp [weight]

theorem textCost_append (s t : Bytes) : textCost (s ++ t) = textCost s+textCost t := by
  simp [textCost]

theorem piecesCost_append (p q : List Piece) : piecesCost (p ++ q) = piecesCost p+piecesCost q := by
  simp [piecesCost]

theorem costOf_le (b : UInt8) : costOf b ≤ 2 := by
  unfold costOf weightOf
  split
  · exact Nat.le_refl _
  · split <;> decide

theorem textCost_le (text : Bytes) : textCost text ≤ 2*text.length := by
  induction text with
  | nil => exact Nat.le_refl _
  | cons b rest ih =>
    have head := costOf_le b
    change costOf b+textCost rest ≤ 2*(rest.length+1)
    omega

theorem utf8_cost (code : Nat) : textCost (utf8 code) ≤ 8 := by
  have length : (utf8 code).length ≤ 4 := by
    unfold utf8
    split_ifs <;> simp
  have cost := textCost_le (utf8 code)
  omega

theorem unit_cost (code : UInt16) : textCost (utf8 code.toNat) ≤ 6 := by
  have length : (utf8 code.toNat).length ≤ 3 := by
    have small : code.toNat < 0x10000 := code.toNat_lt
    unfold utf8
    split_ifs <;> simp
  have cost := textCost_le (utf8 code.toNat)
  omega

theorem replacement_cost : textCost replacement = 3 := by decide

theorem lone_cost (high : Option UInt16) : textCost (lone high) ≤ 6*high.toList.length := by
  cases high with
  | none => exact Nat.le_refl _
  | some first =>
    have cost := replacement_cost
    change textCost replacement ≤ 6*1
    omega

theorem paired_cost (low : UInt16) (high : Option UInt16) : textCost (paired low high) ≤ 6*high.toList.length+6 := by
  cases high with
  | none =>
    have cost := replacement_cost
    change textCost replacement ≤ 6*0+6
    omega
  | some first =>
    have cost := utf8_cost (0x10000+(first.toNat-0xD800)*1024+(low.toNat-0xDC00))
    change textCost (utf8 _) ≤ 6*1+6
    omega

theorem decodeAfter_cost (high : Option UInt16) (pieces : List Piece) :
    textCost (decodeAfter high pieces) ≤ 6*high.toList.length+piecesCost pieces := by
  induction pieces generalizing high with
  | nil => exact lone_cost high
  | cons piece rest ih =>
    have waiting := lone_cost high
    have after : textCost (decodeAfter none rest) ≤ 6*0+piecesCost rest := ih none
    have added : piecesCost (piece :: rest) = piece.cost+piecesCost rest := rfl
    rw [added]
    cases piece with
    | byte b =>
      have cost : textCost (b :: decodeAfter none rest) = costOf b+textCost (decodeAfter none rest) := rfl
      rw [decodeAfter,textCost_append,cost,Piece.cost]
      omega
    | unit code =>
      have first : textCost (decodeAfter (some code) rest) ≤ 6*1+piecesCost rest := ih (some code)
      have second := paired_cost code high
      have alone := unit_cost code
      rw [decodeAfter,Piece.cost]
      split_ifs
      · rw [textCost_append]
        omega
      · rw [textCost_append]
        omega
      · rw [textCost_append,textCost_append]
        omega

theorem decode_cost (pieces : List Piece) : textCost (decode pieces) ≤ piecesCost pieces := by
  have bound : textCost (decodeAfter none pieces) ≤ 6*0+piecesCost pieces := decodeAfter_cost none pieces
  rw [decode]
  omega

theorem itemsCost_append (items : List Value) (v : Value) : itemsCost (items ++ [v]) = itemsCost items+v.cost+1 := by
  induction items with
  | nil => simp [itemsCost]
  | cons item rest ih =>
    simp only [List.cons_append,itemsCost,ih]
    omega

theorem membersCost_add (key : Bytes) (v : Value) (members : List (Bytes × Value)) :
    membersCost (Json.membersAdd key v members) ≤ membersCost members+textCost key+4+v.cost := by
  induction members with
  | nil => simp [Json.membersAdd,membersCost]
  | cons member rest ih =>
    obtain ⟨name,old⟩ := member
    unfold Json.membersAdd
    split
    · rename_i same
      simp only [membersCost,same]
      omega
    · simp only [membersCost]
      omega

def Paid (budget : Nat) (s : Option State) : Prop := ∀ t ∈ s, t.cost ≤ budget

theorem paid_some : Paid budget (some s) ↔ s.cost ≤ budget := by
  simp [Paid]

theorem paid_none : Paid budget none := nofun

theorem paid_ite {c : Prop} [Decidable c] (yes : Paid budget s) (no : Paid budget t) : Paid budget (if c then s else t) := by
  split
  · exact yes
  · exact no

theorem State.cost_mk (token : Token) (stack : List Frame) :
    (State.mk token stack).cost = token.cost+(stack.map Frame.cost).sum := rfl

theorem finish_paid (v : Value) (stack : List Frame) : Paid (v.cost+1+(stack.map Frame.cost).sum) (finish v stack) := by
  cases stack with
  | nil =>
    apply paid_some.mpr
    simp only [State.cost_mk,Token.cost,List.map_nil,List.sum_nil]
    omega
  | cons frame rest =>
    simp only [List.map_cons,List.sum_cons]
    cases frame with
    | array items =>
      apply paid_some.mpr
      simp only [State.cost_mk,Token.cost,List.map_cons,List.sum_cons,Frame.cost,itemsCost_append]
      omega
    | member members key =>
      apply paid_some.mpr
      have added := membersCost_add key v members
      simp only [State.cost_mk,Token.cost,List.map_cons,List.sum_cons,Frame.cost]
      omega
    | object members =>
      cases v with
      | string key =>
        apply paid_some.mpr
        simp only [State.cost_mk,Token.cost,List.map_cons,List.sum_cons,Frame.cost,Value.cost]
        omega
      | null | boolean _ | number _ | array _ | object _ => exact paid_none

theorem Paid.mono (paid : Paid budget s) (more : budget ≤ budget') : Paid budget' s :=
  fun t member => (paid t member).trans more

theorem closeArray_paid (stack : List Frame) : Paid ((stack.map Frame.cost).sum+1) (closeArray stack) := by
  cases stack with
  | nil => exact paid_none
  | cons frame rest =>
    cases frame with
    | array items =>
      apply (finish_paid (.array items) rest).mono
      simp only [Value.cost,List.map_cons,List.sum_cons,Frame.cost]
      omega
    | object _ | member _ _ => exact paid_none

theorem closeObject_paid (stack : List Frame) : Paid ((stack.map Frame.cost).sum+1) (closeObject stack) := by
  cases stack with
  | nil => exact paid_none
  | cons frame rest =>
    cases frame with
    | object members =>
      apply (finish_paid (.object members) rest).mono
      simp only [Value.cost,List.map_cons,List.sum_cons,Frame.cost]
      omega
    | array _ | member _ _ => exact paid_none

theorem comma_paid (stack : List Frame) : Paid ((stack.map Frame.cost).sum+1) (comma stack) := by
  cases stack with
  | nil => exact paid_none
  | cons frame rest =>
    cases frame with
    | array _ | object _ =>
      apply paid_some.mpr
      simp only [State.cost_mk,Token.cost]
      omega
    | member _ _ => exact paid_none

theorem weightOf_solid (solid : isBlank b = false) : weightOf b = 1 := by
  apply if_neg
  rintro rfl
  cases solid

theorem opening_paid (solid : isBlank b = false) (stack : List Frame) :
    Paid ((stack.map Frame.cost).sum+1+weightOf b) (opening stack b) := by
  rw [weightOf_solid solid]
  have begun (token : Token) (cost : token.cost ≤ 2) : Paid ((stack.map Frame.cost).sum+1+1) (some ⟨token,stack⟩) := by
    apply paid_some.mpr
    rw [State.cost_mk]
    omega
  have bracket (token : Token) (frame : Frame) (cost : token.cost = 1) (cost' : frame.cost = 1) :
      Paid ((stack.map Frame.cost).sum+1+1) (some ⟨token,frame :: stack⟩) := by
    apply paid_some.mpr
    rw [State.cost_mk,List.map_cons,List.sum_cons]
    omega
  unfold opening
  apply paid_ite (bracket _ _ rfl rfl)
  apply paid_ite (bracket _ _ rfl rfl)
  apply paid_ite (begun _ (Nat.le_refl _))
  apply paid_ite (begun _ (Nat.le_refl _))
  apply paid_ite (begun _ (Nat.le_refl _))
  apply paid_ite (begun _ (Nat.le_refl _))
  apply paid_ite (begun _ (by decide))
  apply paid_ite (begun _ (by decide))
  apply paid_ite (begun _ (by decide))
  exact paid_none

theorem string_paid (pieces : List Piece) (stack : List Frame) (b : UInt8) :
    Paid (2+piecesCost pieces+(stack.map Frame.cost).sum+weightOf b) (State.plain ⟨.string pieces,stack⟩ b) := by
  unfold State.plain
  dsimp only
  split_ifs with closing backslash control
  · subst closing
    have decoded := decode_cost pieces
    apply (finish_paid (.string (decode pieces)) stack).mono
    simp only [Value.cost,weightOf,if_neg (by decide : ¬(34 : UInt8) = 32)]
    omega
  · subst backslash
    apply paid_some.mpr
    simp only [State.cost_mk,Token.cost,weightOf,if_neg (by decide : ¬(92 : UInt8) = 32)]
    omega
  · exact paid_none
  · have ordinary : costOf b = weightOf b := if_neg fun special => by
      rcases special with quote | slash | below
      · exact closing quote
      · exact backslash slash
      · exact control below
    have added : piecesCost (pieces ++ [.byte b]) = piecesCost pieces+costOf b := piecesCost_append pieces [.byte b]
    apply paid_some.mpr
    simp only [State.cost_mk,Token.cost,added]
    omega

theorem escape_paid (pieces : List Piece) (stack : List Frame) (b : UInt8) :
    Paid (3+piecesCost pieces+(stack.map Frame.cost).sum+weightOf b) (State.plain ⟨.escape pieces,stack⟩ b) := by
  have heavy (named : (escaped b).isSome = true ∨ b = 117) : weightOf b = 1 := if_neg fun blank => by
    subst blank
    rcases named with found | same
    · cases found
    · cases same
  unfold State.plain
  dsimp only
  split_ifs with unicode
  · rw [heavy (.inr unicode)]
    apply paid_some.mpr
    simp only [State.cost_mk,Token.cost,List.length_nil]
    omega
  · cases found : escaped b with
    | none => exact paid_none
    | some c =>
      have cost := costOf_le c
      have added : piecesCost (pieces ++ [.byte c]) = piecesCost pieces+costOf c := piecesCost_append pieces [.byte c]
      rw [heavy (.inl (found ▸ rfl))]
      apply paid_some.mpr
      simp only [State.cost_mk,Token.cost,added]
      omega

theorem unicode_paid (pieces : List Piece) (hex : List Nat) (stack : List Frame) (b : UInt8) :
    Paid (4+piecesCost pieces+hex.length+(stack.map Frame.cost).sum+weightOf b)
      (State.plain ⟨.unicode pieces hex,stack⟩ b) := by
  unfold State.plain
  dsimp only
  cases found : hexValue b with
  | none => exact paid_none
  | some h =>
    have heavy : weightOf b = 1 := if_neg fun blank => by
      subst blank
      cases found
    rw [heavy]
    apply paid_some.mpr
    split_ifs with more
    · simp only [State.cost_mk,Token.cost,List.length_append,List.length_singleton]
      omega
    · simp only [State.cost_mk,Token.cost,piecesCost_append]
      have unit (code : UInt16) : piecesCost [.unit code] = 6 := rfl
      rw [unit]
      omega

theorem literal_paid (left : Bytes) (v : Value) (stack : List Frame) (b : UInt8) :
    Paid (1+v.cost+(stack.map Frame.cost).sum+weightOf b) (State.plain ⟨.literal left v,stack⟩ b) := by
  cases left with
  | nil => exact paid_none
  | cons c left =>
    unfold State.plain
    dsimp only
    split_ifs
    · exact paid_none
    · apply (finish_paid v stack).mono
      omega
    · apply paid_some.mpr
      simp only [State.cost_mk,Token.cost]
      omega

theorem plain_paid (s : State) (b : UInt8) : Paid (s.cost+weightOf b) (s.plain b) := by
  obtain ⟨token,stack⟩ := s
  have same : Paid (State.cost ⟨token,stack⟩+weightOf b) (some ⟨token,stack⟩) := paid_some.mpr (Nat.le_add_right _ _)
  have heavy (solid : ¬isBlank b = true) : weightOf b = 1 := weightOf_solid (Bool.eq_false_iff.mpr solid)
  have opened (solid : ¬isBlank b = true) : Paid ((stack.map Frame.cost).sum+1+weightOf b) (opening stack b) :=
    opening_paid (Bool.eq_false_iff.mpr solid) stack
  have array := closeArray_paid stack
  have object := closeObject_paid stack
  have separated := comma_paid stack
  have entered (token : Token) : Paid (token.cost+(stack.map Frame.cost).sum) (some ⟨token,stack⟩) :=
    paid_some.mpr (Nat.le_refl _)
  rw [State.cost_mk] at same ⊢
  cases token with
  | string pieces => exact string_paid pieces stack b
  | escape pieces => exact escape_paid pieces stack b
  | unicode pieces hex => exact unicode_paid pieces hex stack b
  | number place text => exact paid_none
  | literal left v => exact literal_paid left v stack b
  | root v =>
    unfold State.plain
    dsimp only
    split_ifs
    · exact same
    · exact paid_none
  | value =>
    unfold State.plain
    dsimp only
    split_ifs with blank
    · exact same
    · exact (opened blank).mono (by simp only [Token.cost]; omega)
  | items =>
    unfold State.plain
    dsimp only
    split_ifs with blank close
    · exact same
    · exact array.mono (by simp only [Token.cost]; omega)
    · exact (opened blank).mono (by simp only [Token.cost]; omega)
  | names =>
    unfold State.plain
    dsimp only
    split_ifs with blank close quote
    · exact same
    · exact object.mono (by simp only [Token.cost]; omega)
    · rw [heavy blank]
      exact (entered (.string [])).mono (Nat.le_of_eq (Nat.add_right_comm 1 1 _))
    · exact paid_none
  | name =>
    unfold State.plain
    dsimp only
    split_ifs with blank quote
    · exact same
    · rw [heavy blank]
      exact (entered (.string [])).mono (Nat.le_of_eq (Nat.add_right_comm 1 1 _))
    · exact paid_none
  | colon =>
    unfold State.plain
    dsimp only
    split_ifs with blank colon
    · exact same
    · rw [heavy blank]
      exact (entered .value).mono (by simp only [Token.cost]; omega)
    · exact paid_none
  | next =>
    unfold State.plain
    dsimp only
    split_ifs with blank separator close close'
    · exact same
    · rw [heavy blank]
      exact separated.mono (by simp only [Token.cost]; omega)
    · rw [heavy blank]
      exact array.mono (by simp only [Token.cost]; omega)
    · rw [heavy blank]
      exact object.mono (by simp only [Token.cost]; omega)
    · exact paid_none

theorem next_blank (place : NumberPlace) : place.next 32 = none := by
  cases place <;> rfl

theorem step_paid (s : State) (b : UInt8) : Paid (s.cost+weightOf b) (step s b) := by
  have plain := plain_paid s b
  obtain ⟨token,stack⟩ := s
  cases token with
  | number place text =>
    unfold step
    dsimp only
    cases taken : place.next b with
    | some after =>
      apply paid_some.mpr
      have heavy : weightOf b = 1 := if_neg fun blank => by
        rw [blank,next_blank] at taken
        cases taken
      simp only [State.cost_mk,Token.cost,List.length_append,List.length_singleton]
      omega
    | none =>
      dsimp only
      split_ifs
      · intro t member
        obtain ⟨ended,finished,taken⟩ := Option.bind_eq_some_iff.mp member
        have before := finish_paid (.number text) stack ended finished
        have after := plain_paid ended b t taken
        simp only [State.cost_mk,Token.cost,Value.cost] at before ⊢
        omega
      · exact paid_none
  | _ => exact plain

theorem run_paid (s : State) (text : Bytes) : Paid (s.cost+weight text) (run s text) := by
  induction text generalizing s with
  | nil => exact paid_some.mpr (Nat.le_refl _)
  | cons b rest ih =>
    intro t member
    obtain ⟨after,taken,ran⟩ := Option.bind_eq_some_iff.mp member
    have head := step_paid s b after taken
    have tail := ih after t ran
    have added : weight (b :: rest) = weightOf b+weight rest := rfl
    omega

theorem read_cost (parsed : read text = some v) : v.cost ≤ weight text := by
  obtain ⟨s,ran,result⟩ := Option.bind_eq_some_iff.mp parsed
  have paid : s.cost ≤ 1+weight text := run_paid start text s ran
  obtain ⟨token,stack⟩ := s
  have held := State.cost_mk token stack
  unfold State.result at result
  cases stack with
  | nil =>
    cases token with
    | root value =>
      cases result
      simp only [Token.cost,List.map_nil,List.sum_nil] at held
      omega
    | number place digits =>
      dsimp only at result
      split_ifs at result
      cases result
      simp only [Token.cost,List.map_nil,List.sum_nil] at held
      simp only [Value.cost]
      omega
    | _ => cases result
  | cons frame rest => cases token <;> cases result

theorem weightOf_le (b : UInt8) : weightOf b ≤ 1 := by
  unfold weightOf
  split <;> decide

theorem weightOf_le_costOf (b : UInt8) : weightOf b ≤ costOf b := by
  have least := weightOf_le b
  unfold costOf
  split
  · omega
  · exact Nat.le_refl _

theorem weight_le (text : Bytes) : weight text ≤ text.length := by
  induction text with
  | nil => exact Nat.le_refl _
  | cons b rest ih =>
    have head := weightOf_le b
    change weightOf b+weight rest ≤ rest.length+1
    omega

theorem weight_le_textCost (text : Bytes) : weight text ≤ textCost text := by
  induction text with
  | nil => exact Nat.le_refl _
  | cons b rest ih =>
    have head := weightOf_le_costOf b
    change weightOf b+weight rest ≤ costOf b+textCost rest
    omega

theorem plain_of_cost (cheap : textCost text ≤ weight text) : Plain text := by
  induction text with
  | nil => nofun
  | cons b rest ih =>
    have head := weightOf_le_costOf b
    have tail := weight_le_textCost rest
    have paid : costOf b+textCost rest ≤ weightOf b+weight rest := cheap
    have ordinary : ¬IsSpecial b := by
      intro special
      have cost : costOf b = 2 := if_pos special
      have weight := weightOf_le b
      omega
    exact List.forall_mem_cons.mpr ⟨ordinary,ih (by omega)⟩

end JsonText
