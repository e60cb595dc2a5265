import ImAcc.History

-- The grammar of a terminal's message, and the one record its command may write.
namespace ImAcc
open JsonC

-- With none of them it does not look at the data.
def TermMsgCmd.required : TermMsgCmd → List JsonImCmd
  | .startAcc | .stopAcc => [.devName]
  | .getflow => [.getFlowId,.devName]
  | .keepacc => [.isKeepacc]
  | .iosinfo => [.devicetoken,.devid]
  | .accStateInfo | .getflowInfo | .ungettedflow | .peakflow | .getAcclist => []

def DataComplete (jsonMsg : Json) (kind : TermMsgCmd) : Prop :=
  kind.required = [] ∨ ∃ devObj, devObjOf jsonMsg = some devObj ∧
    ∀ key ∈ kind.required, (supplied (some devObj) key).isSome = true

structure TerminalMessage (jsonMsg : Json) : Prop where
  header : HeaderComplete jsonMsg
  data : ∀ kind : TermMsgCmd, headerCmd jsonMsg = kind.code → DataComplete jsonMsg kind

def ownRecord (kind : Option TermMsgCmd) (before after : Records) : Records :=
  match kind with
  | some .startAcc | some .stopAcc => {before with speedup := after.speedup}
  | some .getflow => {before with getflow := after.getflow}
  | some .keepacc => {before with keepacc := after.keepacc}
  | some .iosinfo => {before with iosinfo := after.iosinfo}
  | some .accStateInfo | some .getflowInfo | some .ungettedflow | some .peakflow | some .getAcclist | none => before

theorem withDevObj_sucess (getters : Json → List Int)
    (all : ∀ devObj, (body devObj).2 = 0 ↔ ∀ code ∈ getters devObj, code = 0) :
    (withDevObj r jsonMsg body).2 = 0 ↔
      ∃ devObj, devObjOf jsonMsg = some devObj ∧ ∀ code ∈ getters devObj, code = 0 := by
  rw [withDevObj_devObjOf]
  cases devObjOf jsonMsg with
  | none => simp
  | some devObj => simpa using all devObj

theorem DataComplete_required (asked : kind.required ≠ []) : DataComplete jsonMsg kind ↔
    ∃ devObj, devObjOf jsonMsg = some devObj ∧ ∀ code ∈ kind.required.map (getCode (some devObj)), code = 0 := by
  unfold DataComplete
  simp only [asked,false_or,List.mem_map,forall_exists_index,and_imp,forall_apply_eq_imp_iff₂,getCode_sucess]

theorem orInto_both (devObj : Json) (left right : JsonImCmd) :
    orInto (orInto msgCodeSucess (getCode (some devObj) left)) (getCode (some devObj) right) = 0 ↔
      ∀ code ∈ [left,right].map (getCode (some devObj)), code = 0 := by
  have codes := foldl_orInto_sucess ([left,right].map (getCode (some devObj))) (Int.le_refl 0)
    (by intro code member; obtain ⟨key,_,rfl⟩ := List.mem_map.mp member; exact getCode_nonneg _ _)
  simpa using codes

theorem imJsonParseDataTerminal_sucess (r : Records) (jsonMsg : Json) (kind : TermMsgCmd) :
    (imJsonParseDataTerminal r jsonMsg kind.code).2 = msgCodeSucess ↔ DataComplete jsonMsg kind := by
  unfold imJsonParseDataTerminal
  rw [TermMsgCmd.ofCode_code]
  cases kind with
  | startAcc | stopAcc =>
    rw [DataComplete_required (by decide)]
    apply withDevObj_sucess
    intro devObj
    simp [imJsonGetString,TermMsgCmd.required]
  | getflow =>
    rw [DataComplete_required (by decide)]
    apply withDevObj_sucess
    intro devObj
    simpa only [imJsonGetString,imJsonGet_code,TermMsgCmd.required] using orInto_both devObj .getFlowId .devName
  | keepacc =>
    rw [DataComplete_required (by decide)]
    apply withDevObj_sucess
    intro devObj
    simp [imJsonGetInt,TermMsgCmd.required]
  | iosinfo =>
    rw [DataComplete_required (by decide)]
    apply withDevObj_sucess
    intro devObj
    simpa only [imJsonGetString,imJsonGet_code,TermMsgCmd.required] using orInto_both devObj .devicetoken .devid
  | accStateInfo | getflowInfo | ungettedflow | peakflow | getAcclist =>
    exact ⟨fun _ => .inl rfl,fun _ => rfl⟩

theorem imJsonParseDataTerminal_accepts (r : Records) (jsonMsg : Json) (cmd : Int) :
    (imJsonParseDataTerminal r jsonMsg cmd).2 = msgCodeSucess ↔
      ∀ kind : TermMsgCmd, cmd = kind.code → DataComplete jsonMsg kind := by
  cases known : TermMsgCmd.ofCode cmd with
  | none =>
    unfold imJsonParseDataTerminal
    rw [known]
    refine ⟨fun _ kind number => ?_,fun _ => rfl⟩
    rw [number,TermMsgCmd.ofCode_code] at known
    cases known
  | some kind =>
    obtain rfl := TermMsgCmd.ofCode_exact.mp known
    rw [imJsonParseDataTerminal_sucess]
    constructor
    · intro data other same
      have alike : some kind = some other := by rw [← TermMsgCmd.ofCode_code kind,same,TermMsgCmd.ofCode_code]
      cases alike
      exact data
    · intro all
      exact all kind rfl

theorem withDevObj_written (put : Records → Records → Records) (idle : put r r = r)
    (written : ∀ devObj, (body devObj).1 = put r (body devObj).1) :
    (withDevObj r jsonMsg body).1 = put r (withDevObj r jsonMsg body).1 := by
  rw [withDevObj_devObjOf]
  cases devObjOf jsonMsg with
  | none => exact idle.symm
  | some devObj => exact written devObj

theorem imJsonParseDataTerminal_owns (r : Records) (jsonMsg : Json) (cmd : Int) :
    (imJsonParseDataTerminal r jsonMsg cmd).1 =
      ownRecord (TermMsgCmd.ofCode cmd) r (imJsonParseDataTerminal r jsonMsg cmd).1 := by
  unfold imJsonParseDataTerminal
  cases TermMsgCmd.ofCode cmd with
  | none => rfl
  | some kind =>
    cases kind with
    | startAcc | stopAcc | getflow | keepacc => exact withDevObj_written (ownRecord _) rfl fun _ => rfl
    | iosinfo =>
      apply withDevObj_written (ownRecord _) rfl
      intro devObj
      dsimp only
      split <;> rfl
    | accStateInfo | getflowInfo | ungettedflow | peakflow | getAcclist => rfl

theorem imJsonParseTerminal_rejected (incomplete : ¬HeaderComplete jsonMsg) (r : Records) :
    imJsonParseTerminal r (some jsonMsg) =
      ({r with cmdHeader := (imJsonParseHeader jsonMsg r.cmdHeader).1},(imJsonParseHeader jsonMsg r.cmdHeader).2) :=
  if_pos (mt (imJsonParseHeader_sucess jsonMsg r.cmdHeader).mp incomplete)

theorem imJsonParseTerminal_complete (complete : HeaderComplete jsonMsg) (r : Records) :
    imJsonParseTerminal r (some jsonMsg) =
      imJsonParseDataTerminal {r with cmdHeader := (imJsonParseHeader jsonMsg r.cmdHeader).1} jsonMsg (headerCmd jsonMsg) := by
  have valid : (imJsonParseHeader jsonMsg r.cmdHeader).2 = msgCodeSucess := (imJsonParseHeader_sucess jsonMsg _).mpr complete
  rw [← (complete.numbers r.cmdHeader).1]
  exact if_neg (not_not.mpr valid)

theorem imJsonParseTerminal_sucess (r : Records) (jsonMsg : Json) :
    (imJsonParseTerminal r (some jsonMsg)).2 = msgCodeSucess ↔ TerminalMessage jsonMsg := by
  by_cases complete : HeaderComplete jsonMsg
  · rw [imJsonParseTerminal_complete complete,imJsonParseDataTerminal_accepts]
    exact ⟨fun data => ⟨complete,data⟩,fun message => message.data⟩
  · rw [imJsonParseTerminal_rejected complete]
    constructor
    · intro valid
      exact absurd ((imJsonParseHeader_sucess jsonMsg _).mp valid) complete
    · intro message
      exact absurd message.header complete

theorem ownRecord_header (kind : Option TermMsgCmd) (r after : Records) (h : MsgHeader) :
    ownRecord kind {r with cmdHeader := h} after = {ownRecord kind r after with cmdHeader := h} := by
  cases kind with
  | none => rfl
  | some kind => cases kind <;> rfl

-- What is accepted, and all that either verdict writes.
theorem imJsonParseTerminal_grammar (r : Records) (jsonMsg : Json) :
    let parsed := imJsonParseTerminal r (some jsonMsg)
    (parsed.2 = msgCodeSucess ↔ TerminalMessage jsonMsg) ∧
    (HeaderComplete jsonMsg → parsed.1 =
      {ownRecord (TermMsgCmd.ofCode (headerCmd jsonMsg)) r parsed.1 with cmdHeader := parsed.1.cmdHeader}) ∧
    (¬HeaderComplete jsonMsg → parsed.1 = {r with cmdHeader := parsed.1.cmdHeader}) := by
  refine ⟨imJsonParseTerminal_sucess r jsonMsg,?_,?_⟩
  · intro complete
    have owns := imJsonParseDataTerminal_owns {r with cmdHeader := (imJsonParseHeader jsonMsg r.cmdHeader).1} jsonMsg
      (headerCmd jsonMsg)
    rw [ownRecord_header,← imJsonParseTerminal_complete complete] at owns
    have header := congrArg Records.cmdHeader owns
    exact owns.trans (by rw [header])
  · intro incomplete
    rw [imJsonParseTerminal_rejected incomplete]

end ImAcc
