import ImAcc.Lib.Copies
import ImAcc.Stored

-- The arrays im_json_get_string copies into, and the records of the history table.
namespace ImAcc
open JsonC Copies

def maxSessionid : Nat := 37
def maxSign : Nat := 33
def maxString : Nat := 37
def maxNameLen : Nat := maxString+8
def maxIpLen : Nat := 16
def maxDeviceToken : Nat := 65

-- devicetoken and devid are locals of im_json_parse_data_iosinfo; the header is the
-- one its caller hands to im_json_parse_header.
inductive TextArray where
  | headerSessionid | headerSign | speedupName | getflowId | getflowName | devicetoken | devid
  | loginSession | loginIp | heartbeatIp | accUrl | taskid
  deriving DecidableEq, Repr

def TextArray.capacity : TextArray → Nat
  | .headerSessionid | .devid => maxSessionid
  | .headerSign => maxSign
  | .speedupName | .getflowName => maxNameLen
  | .getflowId | .loginSession | .accUrl | .taskid => maxString
  | .devicetoken => maxDeviceToken
  | .loginIp | .heartbeatIp => maxIpLen

-- What the arrays hold; the locals start zeroed.
def Records.texts (r : Records) (h : MsgHeader) : TextArray → Bytes
  | .headerSessionid => h.imSessionid
  | .headerSign => h.imSign
  | .speedupName => r.speedup.imDevName
  | .getflowId => r.getflow.imGetflowId
  | .getflowName => r.getflow.imDevName
  | .devicetoken | .devid => []
  | .loginSession => r.loginResp.imSessionId
  | .loginIp => r.loginResp.imIp
  | .heartbeatIp => r.heartbeatResp.imIp
  | .accUrl => r.accspec.imAccUrl
  | .taskid => r.taskresultCmd.imTaskid

abbrev TextCopy := Copy TextArray UInt8

def stringCopies (jsonMsg : Option Json) (key : JsonImCmd) (dest : TextArray) : List TextCopy :=
  ((supplied jsonMsg key).map fun myObj => ⟨dest,myObj.getString⟩).toList

def copiesOf (jsonMsg : Option Json) (texts : List (JsonImCmd × TextArray)) : List TextCopy :=
  texts.flatMap fun text => stringCopies jsonMsg text.1 text.2

def headerTexts : List (JsonImCmd × TextArray) := [(.sessionid,.headerSessionid),(.sign,.headerSign)]

def headerCopies (jsonMsg : Json) : List TextCopy := copiesOf (jsonMsg.objectGet (jasonKey .header)) headerTexts

def terminalTexts (cmd : Int) : List (JsonImCmd × TextArray) :=
  match TermMsgCmd.ofCode cmd with
  | some .startAcc | some .stopAcc => [(.devName,.speedupName)]
  | some .getflow => [(.getFlowId,.getflowId),(.devName,.getflowName)]
  | some .iosinfo => [(.devicetoken,.devicetoken),(.devid,.devid)]
  | some .keepacc | some .accStateInfo | some .getflowInfo | some .ungettedflow | some .peakflow
  | some .getAcclist | none => []

def terminalCopies (r : Records) (pMsg : Option Json) : List TextCopy :=
  match pMsg with
  | none => []
  | some jsonMsg =>
    let parsed := imJsonParseHeader jsonMsg r.cmdHeader
    headerCopies jsonMsg ++ if parsed.2 ≠ msgCodeSucess then []
      else copiesOf (devObjOf jsonMsg) (terminalTexts parsed.1.imCmd)

def replyTexts (cmd : Int) : List (JsonImCmd × TextArray) :=
  match CloudMsgCmd.ofCode cmd with
  | some .devLogin => [(.sessionid,.loginSession),(.ip,.loginIp)]
  | some .heartBeat => [(.ip,.heartbeatIp)]
  | some .getAccinfo => [(.accUrl,.accUrl)]
  | _ => []

def delayTexts (state : AccOpenState) (cmd : Int) : List (JsonImCmd × TextArray) :=
  if state.transient = false then []
  else match CloudMsgCmd.ofCode cmd with
    | some .isAcc | some .startAcc => [(.taskid,.taskid)]
    | _ => []

def cloudTexts (state : AccOpenState) (h : MsgHeader) : List (JsonImCmd × TextArray) :=
  if h.imCode = msgCodeSucess then replyTexts h.imCmd
  else if h.imCode = msgCodeMsgdelay then delayTexts state h.imCmd
  else []

def cloudCopies (r : Records) (pMsg : Option Json) (h : MsgHeader) : List TextCopy :=
  match pMsg with
  | none => []
  | some jsonMsg =>
    let parsed := imJsonParseHeader jsonMsg h
    headerCopies jsonMsg ++ if parsed.2 ≠ msgCodeSucess then []
      else copiesOf (devObjOf jsonMsg) (cloudTexts r.speedupinfoResp.imAccState parsed.1)

-- The record at an index is written where any of its three members is found.
def storesRecord (devObj : Option Json) : Bool :=
  (supplied devObj .useTime).isSome || (supplied devObj .useFlow).isSome || (supplied devObj .openAccTime).isSome

def historyIndices (jsonMsg : Json) : List Nat :=
  match jsonMsg.objectGet (jasonKey .data) with
  | none => []
  | some imData => (List.range imData.arrayLength).filter fun i => storesRecord (imData.arrayGetIdx i)

def cloudIndices (pMsg : Option Json) (h : MsgHeader) : List Nat :=
  match pMsg with
  | none => []
  | some jsonMsg =>
    let parsed := imJsonParseHeader jsonMsg h
    if parsed.2 = msgCodeSucess ∧ parsed.1.imCode = msgCodeSucess ∧ parsed.1.imCmd = CloudMsgCmd.getAcclist.code then
      historyIndices jsonMsg
    else []

-- The copies listed are the ones the parsers make: what the arrays hold afterwards.
theorem stringCopies_writes (memory : TextArray → Bytes) (jsonMsg : Option Json) (key : JsonImCmd) (dest : TextArray) :
    writes memory (stringCopies jsonMsg key dest) =
      Function.update memory dest (((supplied jsonMsg key).map Json.getString).getD (memory dest)) := by
  unfold stringCopies
  cases supplied jsonMsg key with
  | none => simp
  | some myObj => rfl

theorem copiesOf_writes (memory : TextArray → Bytes) (jsonMsg : Option Json) (text : JsonImCmd × TextArray)
    (rest : List (JsonImCmd × TextArray)) : writes memory (copiesOf jsonMsg (text :: rest)) =
      writes (Function.update memory text.2 (((supplied jsonMsg text.1).map Json.getString).getD (memory text.2)))
        (copiesOf jsonMsg rest) := by
  rw [copiesOf,List.flatMap_cons,writes_append,stringCopies_writes]
  rfl

@[simp] theorem copiesOf_nil (jsonMsg : Option Json) : copiesOf jsonMsg [] = [] := rfl

theorem copiesOf_none (texts : List (JsonImCmd × TextArray)) : copiesOf none texts = [] := by
  simp [copiesOf,stringCopies,supplied]

theorem imJsonParseHeader_texts (r : Records) (jsonMsg : Json) (h : MsgHeader) :
    r.texts (imJsonParseHeader jsonMsg h).1 = writes (r.texts h) (headerCopies jsonMsg) := by
  unfold imJsonParseHeader headerCopies
  cases jsonMsg.objectGet (jasonKey .header) with
  | none => rw [copiesOf_none]; rfl
  | some jsonHeader =>
    simp only [headerTexts,copiesOf_writes,copiesOf_nil,writes_nil,imJsonGetString,imJsonGet_value]
    funext i
    cases i <;> rfl

theorem withDevObj_texts (texts : List (JsonImCmd × TextArray)) (h : MsgHeader)
    (stored : ∀ devObj, (body devObj).1.texts h = writes (r.texts h) (copiesOf (some devObj) texts)) :
    (withDevObj r jsonMsg body).1.texts h = writes (r.texts h) (copiesOf (devObjOf jsonMsg) texts) := by
  rw [withDevObj_devObjOf]
  cases devObjOf jsonMsg with
  | none => rw [copiesOf_none]; rfl
  | some devObj => exact stored devObj

def TextArray.Global (i : TextArray) : Prop := i ≠ .devicetoken ∧ i ≠ .devid

theorem imJsonParseDataTerminal_texts (r : Records) (jsonMsg : Json) (cmd : Int) (h : MsgHeader)
    (global : TextArray.Global i) : (imJsonParseDataTerminal r jsonMsg cmd).1.texts h i =
      writes (r.texts h) (copiesOf (devObjOf jsonMsg) (terminalTexts cmd)) i := by
  have speedup : (imJsonParseDataSpeedup r jsonMsg).1.texts h =
      writes (r.texts h) (copiesOf (devObjOf jsonMsg) [(.devName,.speedupName)]) := by
    refine withDevObj_texts _ h fun devObj => ?_
    simp only [copiesOf_writes,copiesOf_nil,writes_nil,imJsonGetString,imJsonGet_value]
    funext i
    cases i <;> rfl
  unfold imJsonParseDataTerminal terminalTexts
  cases TermMsgCmd.ofCode cmd with
  | none => rfl
  | some kind =>
    cases kind with
    | startAcc | stopAcc => exact congrFun speedup i
    | getflow =>
      refine congrFun (withDevObj_texts _ h fun devObj => ?_) i
      simp only [copiesOf_writes,copiesOf_nil,writes_nil,imJsonGetString,imJsonGet_value]
      funext i
      cases i <;> rfl
    | keepacc =>
      have kept : (imJsonParseDataKeepacc r jsonMsg).1.texts h = r.texts h :=
        withDevObj_keeps (fun r => r.texts h) fun _ => rfl
      exact congrFun kept i
    | iosinfo =>
      have kept : (imJsonParseDataIosinfo r jsonMsg).1.texts h = r.texts h :=
        withDevObj_keeps (fun r => r.texts h) fun devObj => by dsimp only; split <;> rfl
      dsimp only
      rw [kept]
      symm
      refine writes_untouched fun c member => ?_
      obtain ⟨text,listed,made⟩ := List.mem_flatMap.mp member
      have place : c.dest = text.2 := by
        simp only [stringCopies,Option.mem_toList,Option.map_eq_some_iff] at made
        obtain ⟨_,_,rfl⟩ := made
        rfl
      rw [place]
      simp only [List.mem_cons,List.not_mem_nil,or_false] at listed
      rcases listed with rfl | rfl
      · exact global.1.symm
      · exact global.2.symm
    | accStateInfo | getflowInfo | ungettedflow | peakflow | getAcclist => rfl

theorem imJsonParseDataIosinfo_table (r : Records) (jsonMsg : Json) (h : MsgHeader) :
    let locals := writes (r.texts h) (copiesOf (devObjOf jsonMsg) (terminalTexts TermMsgCmd.iosinfo.code))
    (imJsonParseDataIosinfo r jsonMsg).1.iosinfo =
      if (imJsonParseDataIosinfo r jsonMsg).2 = msgCodeSucess then
        iosinfoRegister ⟨locals .devicetoken,locals .devid⟩ r.iosinfo
      else r.iosinfo := by
  have listed : terminalTexts TermMsgCmd.iosinfo.code = [(.devicetoken,.devicetoken),(.devid,.devid)] := by decide
  rw [listed,imJsonParseDataIosinfo,withDevObj_devObjOf]
  cases devObjOf jsonMsg with
  | none => rfl
  | some devObj =>
    simp only [Option.elim,copiesOf_writes,copiesOf_nil,writes_nil,imJsonGetString,imJsonGet_value]
    split <;> rfl

theorem imJsonParseTerminal_texts (r : Records) (pMsg : Option Json) (global : TextArray.Global i) :
    let parsed := (imJsonParseTerminal r pMsg).1
    parsed.texts parsed.cmdHeader i = writes (r.texts r.cmdHeader) (terminalCopies r pMsg) i := by
  cases pMsg with
  | none => rfl
  | some jsonMsg =>
    have header := imJsonParseHeader_texts r jsonMsg r.cmdHeader
    have kept (cmd : Int) (s : Records) : (imJsonParseDataTerminal s jsonMsg cmd).1.cmdHeader = s.cmdHeader := by
      unfold imJsonParseDataTerminal
      cases TermMsgCmd.ofCode cmd with
      | none => rfl
      | some kind =>
        cases kind with
        | iosinfo => exact withDevObj_keeps Records.cmdHeader fun devObj => by dsimp only; split <;> rfl
        | startAcc | stopAcc | getflow | keepacc => exact withDevObj_keeps Records.cmdHeader fun _ => rfl
        | accStateInfo | getflowInfo | ungettedflow | peakflow | getAcclist => rfl
    dsimp only [imJsonParseTerminal,terminalCopies]
    rw [writes_append,← header]
    split
    · rfl
    · rw [kept]
      exact imJsonParseDataTerminal_texts {r with cmdHeader := (imJsonParseHeader jsonMsg r.cmdHeader).1} jsonMsg _ _ global

theorem delayed_texts (r : Records) (jsonMsg : Json) (cmd : Int) (h : MsgHeader) :
    (imJsonParseDataTaskresultResp r jsonMsg cmd msgCodeMsgdelay).1.texts h =
      writes (r.texts h) (copiesOf (devObjOf jsonMsg) (delayTexts r.speedupinfoResp.imAccState cmd)) := by
  have taskid : (imJsonParseDataTaskid r jsonMsg).1.texts h =
      writes (r.texts h) (copiesOf (devObjOf jsonMsg) [(.taskid,.taskid)]) := by
    refine withDevObj_texts _ h fun devObj => ?_
    simp only [copiesOf_writes,copiesOf_nil,writes_nil,imJsonGetString,imJsonGet_value]
    funext i
    cases i <;> rfl
  unfold imJsonParseDataTaskresultResp delayTexts
  split
  · rfl
  · cases CloudMsgCmd.ofCode cmd with
    | none => rfl
    | some kind =>
      cases kind with
      | isAcc | startAcc => exact taskid
      | _ => rfl

theorem imJsonParseDataCloud_texts (r : Records) (jsonMsg : Json) (cmd : Int) (h : MsgHeader) :
    (imJsonParseDataCloud r jsonMsg cmd).1.texts h =
      writes (r.texts h) (copiesOf (devObjOf jsonMsg) (replyTexts cmd)) := by
  unfold imJsonParseDataCloud replyTexts
  cases CloudMsgCmd.ofCode cmd with
  | none => rfl
  | some kind =>
    cases kind with
    | devLogin | heartBeat | getAccinfo =>
      refine withDevObj_texts _ h fun devObj => ?_
      simp only [copiesOf_writes,copiesOf_nil,writes_nil,imJsonGetString,imJsonGetInt,imJsonGet_value]
      funext i
      cases i <;> rfl
    | getAcclist => exact acclist_keeps (fun r => r.texts h) fun _ => rfl
    | getTaskresult =>
      dsimp only [imJsonParseDataTaskresultResp,copiesOf_nil,writes_nil]
      split
      · rfl
      · exact taskresultData_keeps (fun r => r.texts h) fun _ _ _ _ => rfl
    | devLogout | getaccFlow | stopAcc | countFlow => rfl
    | isAcc | startAcc | getflowInfo | ungetflow | getflow =>
      exact withDevObj_keeps (fun r => r.texts h) fun _ => rfl

theorem imJsonParseCloud_texts (r : Records) (pMsg : Option Json) (h : MsgHeader) :
    let parsed := imJsonParseCloud r pMsg h
    parsed.records.texts parsed.header = writes (r.texts h) (cloudCopies r pMsg h) := by
  cases pMsg with
  | none => rfl
  | some jsonMsg =>
    dsimp only [imJsonParseCloud,cloudCopies]
    rw [writes_append,← imJsonParseHeader_texts r jsonMsg h]
    unfold cloudTexts
    split
    · rfl
    · split
      · exact imJsonParseDataCloud_texts ..
      · split
        · exact delayed_texts ..
        · rfl

theorem historyOf_unsupplied (unsupplied : storesRecord devObj = false) (slot : AccHistroy) :
    historyOf bits devObj slot = slot := by
  simp only [storesRecord,Bool.or_eq_false_iff,Option.isSome_eq_false_iff,Option.isNone_iff_eq_none] at unsupplied
  simp only [historyOf,unsupplied,Option.map_none,Option.getD_none]

theorem acclist_untouched (unlisted : j ∉ historyIndices jsonMsg) :
    (imJsonParseDataGetacclistResp r jsonMsg).1.acclistResp[j]? = r.acclistResp[j]? := by
  unfold imJsonParseDataGetacclistResp
  unfold historyIndices at unlisted
  cases found : jsonMsg.objectGet (jasonKey .data) with
  | none => rfl
  | some imData =>
    obtain ⟨slots,made,each⟩ := acclist_records imData _ List.nodup_range (r,msgCodeSucess)
    simp only [found,List.mem_filter] at unlisted
    dsimp only
    rw [made]
    refine (each j).trans ?_
    split
    · rename_i turn
      have unsupplied := Bool.eq_false_iff.mpr fun stored => unlisted ⟨turn,stored⟩
      cases r.acclistResp[j]? with
      | none => rfl
      | some slot => exact congrArg some (historyOf_unsupplied unsupplied slot)
    · rfl

theorem imJsonParseDataCloud_acclist (other : cmd ≠ CloudMsgCmd.getAcclist.code) :
    (imJsonParseDataCloud r jsonMsg cmd).1.acclistResp = r.acclistResp := by
  apply imJsonParseDataCloud_keeps Records.acclistResp cmd
  · exact fun _ => withDevObj_keeps Records.acclistResp fun _ => rfl
  · exact fun history => absurd (CloudMsgCmd.ofCode_exact.mp history) other
  · exact fun _ => taskresultData_keeps Records.acclistResp fun _ _ _ _ => rfl
  · exact fun _ _ _ _ _ => rfl

theorem delayed_acclist (r : Records) (jsonMsg : Json) (cmd : Int) :
    (imJsonParseDataTaskresultResp r jsonMsg cmd msgCodeMsgdelay).1.acclistResp = r.acclistResp :=
  congrArg Stored.acclistResp (delayed_stored r jsonMsg cmd).1

theorem imJsonParseCloud_untouched (unlisted : j ∉ cloudIndices pMsg h) :
    (imJsonParseCloud r pMsg h).records.acclistResp[j]? = r.acclistResp[j]? := by
  cases pMsg with
  | none => rfl
  | some jsonMsg =>
    dsimp only [cloudIndices] at unlisted
    dsimp only [imJsonParseCloud]
    split
    · rfl
    · rename_i valid
      split
      · rename_i success
        by_cases history : (imJsonParseHeader jsonMsg h).1.imCmd = CloudMsgCmd.getAcclist.code
        · rw [if_pos ⟨not_not.mp valid,success,history⟩] at unlisted
          rw [history]
          exact acclist_untouched unlisted
        · rw [imJsonParseDataCloud_acclist history]
      · split
        · rw [delayed_acclist]
        · rfl

def TextsFit (jsonMsg : Option Json) (texts : List (JsonImCmd × TextArray)) : Prop :=
  ∀ text ∈ texts, ∀ myObj ∈ supplied jsonMsg text.1, myObj.getString.length < text.2.capacity

theorem copiesOf_fits : (∀ c ∈ copiesOf jsonMsg texts, c.Fits TextArray.capacity) ↔ TextsFit jsonMsg texts := by
  unfold copiesOf TextsFit stringCopies
  simp only [List.mem_flatMap,Option.mem_toList,Option.map_eq_some_iff,Option.mem_def]
  constructor
  · intro fits text listed myObj found
    exact fits ⟨text.2,myObj.getString⟩ ⟨text,listed,myObj,found,rfl⟩
  · rintro fits c ⟨text,listed,myObj,found,rfl⟩
    exact fits text listed myObj found

-- The message's own numbers: whatever stood in the header is overwritten.
def headerCmd (jsonMsg : Json) : Int := headerInt (some jsonMsg) .cmd 0
def headerCode (jsonMsg : Json) : Int := headerInt (some jsonMsg) .code 0

theorem HeaderComplete.numbers (complete : HeaderComplete jsonMsg) (h : MsgHeader) :
    (imJsonParseHeader jsonMsg h).1.imCmd = headerCmd jsonMsg ∧
      (imJsonParseHeader jsonMsg h).1.imCode = headerCode jsonMsg := by
  rw [imJsonParseHeader_fields complete h default]
  exact ⟨(imJsonParseHeader_ints jsonMsg default).2,(imJsonParseHeader_ints jsonMsg default).1⟩

-- Where the header is complete, its command takes strings from the data too.
structure TerminalFits (jsonMsg : Json) : Prop where
  header : TextsFit (jsonMsg.objectGet (jasonKey .header)) headerTexts
  data : HeaderComplete jsonMsg → TextsFit (devObjOf jsonMsg) (terminalTexts (headerCmd jsonMsg))

structure CloudFits (state : AccOpenState) (jsonMsg : Json) : Prop where
  header : TextsFit (jsonMsg.objectGet (jasonKey .header)) headerTexts
  reply : HeaderComplete jsonMsg → headerCode jsonMsg = msgCodeSucess →
    TextsFit (devObjOf jsonMsg) (replyTexts (headerCmd jsonMsg))
  delayed : HeaderComplete jsonMsg → headerCode jsonMsg = msgCodeMsgdelay →
    TextsFit (devObjOf jsonMsg) (delayTexts state (headerCmd jsonMsg))
  history : HeaderComplete jsonMsg → headerCode jsonMsg = msgCodeSucess →
    headerCmd jsonMsg = CloudMsgCmd.getAcclist.code → ∀ imData ∈ jsonMsg.objectGet (jasonKey .data),
      ∀ i, maxAccHis ≤ i → i < imData.arrayLength → storesRecord (imData.arrayGetIdx i) = false

theorem terminalCopies_fits (r : Records) (jsonMsg : Json) :
    (∀ c ∈ terminalCopies r (some jsonMsg), c.Fits TextArray.capacity) ↔ TerminalFits jsonMsg := by
  simp only [terminalCopies,headerCopies,List.mem_append,or_imp,forall_and,copiesOf_fits]
  by_cases complete : HeaderComplete jsonMsg
  · have valid : (imJsonParseHeader jsonMsg r.cmdHeader).2 = msgCodeSucess :=
      (imJsonParseHeader_sucess jsonMsg r.cmdHeader).mpr complete
    rw [if_neg (not_not.mpr valid),copiesOf_fits,(complete.numbers r.cmdHeader).1]
    exact ⟨fun both => ⟨both.1,fun _ => both.2⟩,fun fits => ⟨fits.header,fits.data complete⟩⟩
  · have failed : (imJsonParseHeader jsonMsg r.cmdHeader).2 ≠ msgCodeSucess :=
      mt (imJsonParseHeader_sucess jsonMsg r.cmdHeader).mp complete
    rw [if_pos failed]
    exact ⟨fun both => ⟨both.1,fun valid => absurd valid complete⟩,fun fits => ⟨fits.header,nofun⟩⟩

theorem cloudTexts_fit (jsonMsg : Json) (state : AccOpenState) (h : MsgHeader) :
    TextsFit (devObjOf jsonMsg) (cloudTexts state h) ↔
      (h.imCode = msgCodeSucess → TextsFit (devObjOf jsonMsg) (replyTexts h.imCmd)) ∧
      (h.imCode = msgCodeMsgdelay → TextsFit (devObjOf jsonMsg) (delayTexts state h.imCmd)) := by
  unfold cloudTexts
  split
  · rename_i success
    exact ⟨fun fits => ⟨fun _ => fits,fun delay => nomatch success.symm.trans delay⟩,fun both => both.1 success⟩
  · rename_i other
    split
    · rename_i delay
      exact ⟨fun fits => ⟨fun success => absurd success other,fun _ => fits⟩,fun both => both.2 delay⟩
    · rename_i neither
      exact ⟨fun _ => ⟨fun success => absurd success other,fun delay => absurd delay neither⟩,fun _ => nofun⟩

theorem historyIndices_inside : (∀ i ∈ historyIndices jsonMsg, i < maxAccHis) ↔
    ∀ imData ∈ jsonMsg.objectGet (jasonKey .data), ∀ i, maxAccHis ≤ i → i < imData.arrayLength →
      storesRecord (imData.arrayGetIdx i) = false := by
  unfold historyIndices
  cases jsonMsg.objectGet (jasonKey .data) with
  | none => exact ⟨fun _ => nofun,fun _ => nofun⟩
  | some imData =>
    simp only [List.mem_filter,List.mem_range,Option.mem_some_iff,forall_eq']
    constructor
    · intro inside i past turn
      apply Bool.eq_false_iff.mpr
      intro stored
      have below := inside i ⟨turn,stored⟩
      omega
    · rintro unsupplied i ⟨turn,stored⟩
      by_contra past
      rw [unsupplied i (by omega) turn] at stored
      cases stored

theorem cloudWrites_fit (r : Records) (jsonMsg : Json) (h : MsgHeader) :
    ((∀ c ∈ cloudCopies r (some jsonMsg) h, c.Fits TextArray.capacity) ∧
      ∀ i ∈ cloudIndices (some jsonMsg) h, i < maxAccHis) ↔ CloudFits r.speedupinfoResp.imAccState jsonMsg := by
  simp only [cloudCopies,cloudIndices,headerCopies,List.mem_append,or_imp,forall_and,copiesOf_fits]
  by_cases complete : HeaderComplete jsonMsg
  · have valid : (imJsonParseHeader jsonMsg h).2 = msgCodeSucess := (imJsonParseHeader_sucess jsonMsg h).mpr complete
    obtain ⟨cmd,code⟩ := complete.numbers h
    rw [if_neg (not_not.mpr valid),copiesOf_fits,cloudTexts_fit,cmd,code]
    constructor
    · rintro ⟨⟨header,reply,delayed⟩,inside⟩
      refine ⟨header,fun _ => reply,fun _ => delayed,fun _ success history => ?_⟩
      rw [if_pos ⟨valid,success,history⟩] at inside
      exact historyIndices_inside.mp inside
    · intro fits
      refine ⟨⟨fits.header,fits.reply complete,fits.delayed complete⟩,?_⟩
      split
      · rename_i all
        exact historyIndices_inside.mpr (fits.history complete all.2.1 all.2.2)
      · exact nofun
  · have failed : (imJsonParseHeader jsonMsg h).2 ≠ msgCodeSucess := mt (imJsonParseHeader_sucess jsonMsg h).mp complete
    rw [if_pos failed,if_neg (fun all => failed all.1)]
    refine ⟨fun both => ⟨both.1.1,?_,?_,?_⟩,fun fits => ⟨⟨fits.header,nofun⟩,nofun⟩⟩
    all_goals exact fun valid => absurd valid complete

structure Contained (copies : List TextCopy) (indices : List Nat) (fits : Prop) (ret : Int) : Prop where
  copies : ∀ c ∈ copies, c.Fits TextArray.capacity
  indices : ∀ i ∈ indices, i < maxAccHis
  rejected : ¬fits → ret ≠ msgCodeSucess

def TerminalContained (r : Records) (pMsg : Option Json) : Prop :=
  Contained (terminalCopies r pMsg) [] (∀ jsonMsg ∈ pMsg, TerminalFits jsonMsg) (imJsonParseTerminal r pMsg).2

def CloudContained (r : Records) (pMsg : Option Json) (h : MsgHeader) : Prop :=
  Contained (cloudCopies r pMsg h) (cloudIndices pMsg h)
    (∀ jsonMsg ∈ pMsg, CloudFits r.speedupinfoResp.imAccState jsonMsg) (imJsonParseCloud r pMsg h).ret

theorem terminal_contained (r : Records) (pMsg : Option Json) :
    TerminalContained r pMsg ↔ ∀ jsonMsg ∈ pMsg, TerminalFits jsonMsg := by
  have inside : (∀ c ∈ terminalCopies r pMsg, c.Fits TextArray.capacity) ↔ ∀ jsonMsg ∈ pMsg, TerminalFits jsonMsg := by
    cases pMsg with
    | none => exact ⟨fun _ => nofun,fun _ => nofun⟩
    | some jsonMsg =>
      rw [terminalCopies_fits]
      exact ⟨by rintro fits _ ⟨⟩; exact fits,fun fits => fits jsonMsg rfl⟩
  exact ⟨fun contained => inside.mp contained.copies,fun fits => ⟨inside.mpr fits,nofun,fun missed => absurd fits missed⟩⟩

theorem cloud_contained (r : Records) (pMsg : Option Json) (h : MsgHeader) :
    CloudContained r pMsg h ↔ ∀ jsonMsg ∈ pMsg, CloudFits r.speedupinfoResp.imAccState jsonMsg := by
  have inside : ((∀ c ∈ cloudCopies r pMsg h, c.Fits TextArray.capacity) ∧ ∀ i ∈ cloudIndices pMsg h, i < maxAccHis) ↔
      ∀ jsonMsg ∈ pMsg, CloudFits r.speedupinfoResp.imAccState jsonMsg := by
    cases pMsg with
    | none => exact ⟨fun _ => nofun,fun _ => ⟨nofun,nofun⟩⟩
    | some jsonMsg =>
      rw [cloudWrites_fit]
      exact ⟨by rintro fits _ ⟨⟩; exact fits,fun fits => fits jsonMsg rfl⟩
  constructor
  · exact fun contained => inside.mp ⟨contained.copies,contained.indices⟩
  · intro fits
    obtain ⟨copies,indices⟩ := inside.mpr fits
    exact ⟨copies,indices,fun missed => absurd fits missed⟩

-- The parsers keep to their arrays on exactly the messages that fit: nothing is checked.
theorem parse_contained (r : Records) (pMsg : Option Json) (h : MsgHeader) :
    (TerminalContained r pMsg ↔ ∀ jsonMsg ∈ pMsg, TerminalFits jsonMsg) ∧
    (CloudContained r pMsg h ↔ ∀ jsonMsg ∈ pMsg, CloudFits r.speedupinfoResp.imAccState jsonMsg) :=
  ⟨terminal_contained r pMsg,cloud_contained r pMsg h⟩

-- A START_ACC whose device name fills im_dev_name: its terminator is the byte past the end.
def longName : Json := messageJson TermMsgCmd.startAcc.code 0 [[(jasonKey .devName,.string (List.replicate 45 97))]]

theorem parse_uncontained : ¬ ∀ (r : Records) (pMsg : Option Json) (h : MsgHeader),
    TerminalContained r pMsg ∧ CloudContained r pMsg h := by
  intro always
  have fits := (terminal_contained booted.daemon.records (some longName)).mp (always _ _ default).1 longName rfl
  have complete : HeaderComplete longName := (imJsonParseHeader_sucess longName default).mp (by decide)
  have listed : (JsonImCmd.devName,TextArray.speedupName) ∈ terminalTexts (headerCmd longName) := by decide
  have short := fits.data complete _ listed (.string (List.replicate 45 97)) rfl
  exact absurd short (by decide)

theorem imJsonParseTerminal_short {i : TextArray} (short : (r.texts r.cmdHeader i).length < i.capacity)
    (fits : ∀ jsonMsg ∈ pMsg, TerminalFits jsonMsg) :
    ((imJsonParseTerminal r pMsg).1.texts (imJsonParseTerminal r pMsg).1.cmdHeader i).length < i.capacity := by
  by_cases global : i.Global
  · rw [imJsonParseTerminal_texts r pMsg global]
    exact writes_short short ((terminal_contained r pMsg).mpr fits).copies
  · cases i with
    | devicetoken | devid => exact Nat.succ_pos _
    | _ => exact absurd ⟨nofun,nofun⟩ global

theorem imJsonParseCloud_short {i : TextArray} (short : (r.texts h i).length < i.capacity)
    (fits : ∀ jsonMsg ∈ pMsg, CloudFits r.speedupinfoResp.imAccState jsonMsg) :
    ((imJsonParseCloud r pMsg h).records.texts (imJsonParseCloud r pMsg h).header i).length < i.capacity := by
  rw [imJsonParseCloud_texts r pMsg h]
  exact writes_short short ((cloud_contained r pMsg h).mpr fits).copies

end ImAcc
