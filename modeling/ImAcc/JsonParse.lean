import ImAcc.ConfigPrase

-- im_json_parse.c, the readers. A getter that fails leaves its destination as it was.
namespace ImAcc
open JsonC

def orInto (ret code : Int) : Int := Int.ofNat (ret.toNat ||| code.toNat)

-- What the key names in the object, when json-c finds anything there.
def supplied (jsonMsg : Option Json) (key : JsonImCmd) : Option Json :=
  jsonMsg.bind (Json.objectGet (jasonKey key))

def imJsonGet (read : Json → α) (jsonMsg : Option Json) (key : JsonImCmd) (value : α) : Int × α :=
  match jsonMsg with
  | none => (msgCodeUnknown,value)
  | some obj => match obj.objectGet (jasonKey key) with
    | none => (msgCodeFormatErr,value)
    | some myObj => (msgCodeSucess,read myObj)

def imJsonGetString : Option Json → JsonImCmd → Bytes → Int × Bytes := imJsonGet Json.getString
def imJsonGetInt : Option Json → JsonImCmd → Int → Int × Int := imJsonGet Json.getInt

def toUlong (bits : Nat) (value : Int) : Nat := (value % 2^bits).toNat

def imJsonGetInt64 (bits : Nat) : Option Json → JsonImCmd → Nat → Int × Nat :=
  imJsonGet fun myObj => toUlong bits myObj.getInt64

def imJsonParseHeader (jsonMsg : Json) (h : MsgHeader) : MsgHeader × Int :=
  match jsonMsg.objectGet (jasonKey .header) with
  | none => (h,msgCodeFormatErr)
  | some jsonHeader =>
    let cmd := imJsonGetInt (some jsonHeader) .cmd h.imCmd
    let ver := imJsonGetInt (some jsonHeader) .ver h.imVer
    let seq := imJsonGetInt (some jsonHeader) .seq h.imSeq
    let device := imJsonGetInt (some jsonHeader) .device h.imDevice
    let code := imJsonGetInt (some jsonHeader) .code h.imCode
    let sessionid := imJsonGetString (some jsonHeader) .sessionid h.imSessionid
    let sign := imJsonGetString (some jsonHeader) .sign h.imSign
    let ret := [cmd.1,ver.1,seq.1,device.1,code.1,sessionid.1,sign.1].foldl orInto msgCodeSucess
    (⟨cmd.2,ver.2,seq.2,device.2,code.2,sessionid.2,sign.2⟩,
     if ret = msgCodeSucess then msgCodeSucess else msgCodeFormatErr)

-- The prologue that nearly every data parser repeats: data, then its element 0.
def withDevObj (r : Records) (jsonMsg : Json) (body : Json → Records × Int) : Records × Int :=
  match jsonMsg.objectGet (jasonKey .data) with
  | none => (r,msgCodeFormatErr)
  | some imData => match imData.arrayGetIdx 0 with
    | none => (r,msgCodeFormatErr)
    | some devObj => body devObj

def imJsonParseDataSpeedup (r : Records) (jsonMsg : Json) : Records × Int :=
  withDevObj r jsonMsg fun devObj =>
    let name := imJsonGetString (some devObj) .devName r.speedup.imDevName
    ({r with speedup := ⟨name.2⟩},name.1)

def imJsonParseDataGetflow (r : Records) (jsonMsg : Json) : Records × Int :=
  withDevObj r jsonMsg fun devObj =>
    let flow := imJsonGetString (some devObj) .getFlowId r.getflow.imGetflowId
    let name := imJsonGetString (some devObj) .devName r.getflow.imDevName
    ({r with getflow := ⟨flow.2,name.2⟩},orInto (orInto msgCodeSucess flow.1) name.1)

def imJsonParseDataKeepacc (r : Records) (jsonMsg : Json) : Records × Int :=
  withDevObj r jsonMsg fun devObj =>
    let keep := imJsonGetInt (some devObj) .isKeepacc r.keepacc.imIsKeepacc
    ({r with keepacc := ⟨keep.2⟩},keep.1)

def iosinfoFree (new : IosinfoCmd) : List IosinfoCmd → List IosinfoCmd
  | [] => []
  | slot :: rest => if slot.devicetoken = [] then new :: rest else slot :: iosinfoFree new rest

def iosinfoRegister (new : IosinfoCmd) (table : List IosinfoCmd) : List IosinfoCmd :=
  if table.any fun slot => slot.devicetoken ≠ [] && new.devicetoken = slot.devicetoken then table
  else iosinfoFree new table

def imJsonParseDataIosinfo (r : Records) (jsonMsg : Json) : Records × Int :=
  withDevObj r jsonMsg fun devObj =>
    let token := imJsonGetString (some devObj) .devicetoken []
    let devid := imJsonGetString (some devObj) .devid []
    let ret := orInto (orInto msgCodeSucess token.1) devid.1
    (if ret = msgCodeSucess then {r with iosinfo := iosinfoRegister ⟨token.2,devid.2⟩ r.iosinfo} else r,ret)

def imJsonParseDataTerminal (r : Records) (jsonMsg : Json) (cmd : Int) : Records × Int :=
  match TermMsgCmd.ofCode cmd with
  | some .startAcc | some .stopAcc => imJsonParseDataSpeedup r jsonMsg
  | some .getflow => imJsonParseDataGetflow r jsonMsg
  | some .keepacc => imJsonParseDataKeepacc r jsonMsg
  | some .iosinfo => imJsonParseDataIosinfo r jsonMsg
  | some .accStateInfo | some .getflowInfo | some .ungettedflow | some .peakflow
  | some .getAcclist | none => (r,msgCodeSucess)

-- A text is what json_tokener_parse makes of it; none is its error.
def imJsonParseTerminal (r : Records) (pMsg : Option Json) : Records × Int :=
  match pMsg with
  | none => (r,msgCodeFormatErr)
  | some jsonMsg =>
    let parsed := imJsonParseHeader jsonMsg r.cmdHeader
    let r := {r with cmdHeader := parsed.1}
    if parsed.2 ≠ msgCodeSucess then (r,parsed.2)
    else imJsonParseDataTerminal r jsonMsg r.cmdHeader.imCmd

-- The address goes through a shell unquoted; here it is one without metacharacters.
def imJsonParseDataLoginResp (r : Records) (jsonMsg : Json) : Records × Int :=
  withDevObj r jsonMsg fun devObj =>
    let session := imJsonGetString (some devObj) .sessionid r.loginResp.imSessionId
    let accTime := imJsonGetInt (some devObj) .accTime r.loginResp.imAccTime
    let ip := imJsonGetString (some devObj) .ip r.loginResp.imIp
    let r := {r with loginResp := ⟨session.2,accTime.2,ip.2⟩}
    (imInitSession (uciSetIp r ip.2),
     orInto (orInto (orInto msgCodeSucess session.1) accTime.1) ip.1)

def imJsonParseDataIsaccResp (r : Records) (jsonMsg : Json) : Records × Int :=
  withDevObj r jsonMsg fun devObj =>
    let isAcc := imJsonGetInt (some devObj) .isAcc r.isaccResp.imIsAcc
    let isp := imJsonGetInt (some devObj) .isp r.isaccResp.imIsp
    let cur := imJsonGetInt (some devObj) .curBandwidth r.isaccResp.imCurBandwidth
    let most := imJsonGetInt (some devObj) .maxBandwidth r.isaccResp.imMaxBandwidth
    let remain := imJsonGetInt (some devObj) .accRemaintime r.isaccResp.imAccRemaintime
    ({r with isaccResp := ⟨isAcc.2,isp.2,cur.2,most.2,remain.2⟩},orInto msgCodeSucess isAcc.1)

def imJsonParseDataStartaccResp (r : Records) (jsonMsg : Json) : Records × Int :=
  withDevObj r jsonMsg fun devObj =>
    let isp := imJsonGetInt (some devObj) .isp r.startaccResp.imIsp
    let cur := imJsonGetInt (some devObj) .curBandwidth r.startaccResp.imCurBandwidth
    let most := imJsonGetInt (some devObj) .maxBandwidth r.startaccResp.imMaxBandwidth
    let remain := imJsonGetInt (some devObj) .accRemaintime r.startaccResp.imRemaintime
    let acc := imJsonGetInt (some devObj) .accBandwidth r.startaccResp.imAccBandwidth
    ({r with startaccResp := ⟨isp.2,cur.2,most.2,remain.2,acc.2⟩},msgCodeSucess)

def imJsonParseDataGetflowinfoResp (r : Records) (jsonMsg : Json) : Records × Int :=
  withDevObj r jsonMsg fun devObj =>
    let total := imJsonGetInt64 r.ulongBits (some devObj) .totalFlow r.flowinfoResp.imTotalFlow
    let remain := imJsonGetInt64 r.ulongBits (some devObj) .remainFlow r.flowinfoResp.imRemainFlow
    ({r with flowinfoResp := ⟨total.2,remain.2,r.flowinfoResp.imAccRemaintime⟩},
     orInto (orInto msgCodeSucess total.1) remain.1)

-- A record from index 20 on is stored outside the table; the model drops that store.
def accHistroyStore (imData : Json) (state : Records × Int) (i : Nat) : Records × Int :=
  let r := state.1
  let devObj := imData.arrayGetIdx i
  let old := r.acclistResp.getD i default
  let time := imJsonGetInt devObj .useTime old.imUseTime
  let flow := imJsonGetInt64 r.ulongBits devObj .useFlow old.imUseFlow
  let opened := imJsonGetInt64 r.ulongBits devObj .openAccTime old.imOpenAccTime
  ({r with acclistResp := r.acclistResp.set i ⟨time.2,flow.2,opened.2⟩},
   orInto (orInto (orInto state.2 time.1) flow.1) opened.1)

def imJsonParseDataGetacclistResp (r : Records) (jsonMsg : Json) : Records × Int :=
  match jsonMsg.objectGet (jasonKey .data) with
  | none => (r,msgCodeFormatErr)
  | some imData => (List.range imData.arrayLength).foldl (accHistroyStore imData) (r,msgCodeSucess)

def imJsonParseDataGetaccinfoResp (r : Records) (jsonMsg : Json) : Records × Int :=
  withDevObj r jsonMsg fun devObj =>
    let url := imJsonGetString (some devObj) .accUrl r.accspec.imAccUrl
    ({r with accspec := ⟨url.2⟩},url.1)

-- The protocol for these two is left open in the source: the element is fetched and dropped.
def imJsonParseDataUngetflowResp (r : Records) (jsonMsg : Json) : Records × Int :=
  withDevObj r jsonMsg fun _ => (r,msgCodeSucess)
def imJsonParseDataGetflowResp (r : Records) (jsonMsg : Json) : Records × Int :=
  withDevObj r jsonMsg fun _ => (r,msgCodeSucess)

def imJsonParseDataHeartbeatResp (r : Records) (jsonMsg : Json) : Records × Int :=
  withDevObj r jsonMsg fun devObj =>
    let ip := imJsonGetString (some devObj) .ip r.heartbeatResp.imIp
    ({r with heartbeatResp := ⟨ip.2⟩},ip.1)

def imJsonParseDataTaskid (r : Records) (jsonMsg : Json) : Records × Int :=
  withDevObj r jsonMsg fun devObj =>
    let task := imJsonGetString (some devObj) .taskid r.taskresultCmd.imTaskid
    ({r with taskresultCmd := {r.taskresultCmd with imTaskid := task.2}},task.1)

def speedupinfoOfStart (r : Records) : Records :=
  {r with speedupinfoResp := {r.speedupinfoResp with
    imIsp := r.startaccResp.imIsp
    imCurBandwidth := r.startaccResp.imCurBandwidth
    imMaxBandwidth := r.startaccResp.imMaxBandwidth
    imAccRemaintime := r.startaccResp.imRemaintime
    imAccBandwidth := r.startaccResp.imAccBandwidth}}

def speedupinfoOfIsacc (r : Records) : Records :=
  {r with speedupinfoResp := {r.speedupinfoResp with
    imIsAcc := r.isaccResp.imIsAcc
    imIsp := r.isaccResp.imIsp
    imCurBandwidth := r.isaccResp.imCurBandwidth
    imMaxBandwidth := r.isaccResp.imMaxBandwidth
    imAccRemaintime := r.isaccResp.imAccRemaintime}}

def adopt (copy : Records → Records) (parsed : Records × Int) : Records × Int :=
  (if parsed.2 = msgCodeSucess then copy parsed.1 else parsed.1,parsed.2)

-- The configuration is written in any case.
def taskresultData (r : Records) (jsonMsg : Json) : Records × Int :=
  let parsed := match r.speedupinfoResp.imAccState with
    | .opening => adopt speedupinfoOfStart (imJsonParseDataStartaccResp r jsonMsg)
    | .querying => adopt speedupinfoOfIsacc (imJsonParseDataIsaccResp r jsonMsg)
    | _ => (r,msgCodeUnknown)
  (configWriteImAcc parsed.1,parsed.2)

def imJsonParseDataTaskresultResp (r : Records) (jsonMsg : Json) (cmd errcode : Int) : Records × Int :=
  if r.speedupinfoResp.imAccState.transient = false then (r,msgCodeUnknown)
  else match CloudMsgCmd.ofCode cmd with
    | some .isAcc | some .startAcc =>
      if errcode ≠ msgCodeMsgdelay then (r,msgCodeUnknown) else imJsonParseDataTaskid r jsonMsg
    | some .getTaskresult =>
      if errcode ≠ msgCodeSucess then (r,msgCodeSucess) else taskresultData r jsonMsg
    | _ => (r,msgCodeUnknown)

def imJsonParseDataCloud (r : Records) (jsonMsg : Json) (cmd : Int) : Records × Int :=
  match CloudMsgCmd.ofCode cmd with
  | some .devLogin => imJsonParseDataLoginResp r jsonMsg
  | some .heartBeat => imJsonParseDataHeartbeatResp r jsonMsg
  | some .isAcc => imJsonParseDataIsaccResp r jsonMsg
  | some .startAcc => imJsonParseDataStartaccResp r jsonMsg
  | some .getflowInfo => imJsonParseDataGetflowinfoResp r jsonMsg
  | some .getAcclist => imJsonParseDataGetacclistResp r jsonMsg
  | some .getAccinfo => imJsonParseDataGetaccinfoResp r jsonMsg
  | some .ungetflow => imJsonParseDataUngetflowResp r jsonMsg
  | some .getflow => imJsonParseDataGetflowResp r jsonMsg
  | some .getTaskresult =>
    imJsonParseDataTaskresultResp r jsonMsg CloudMsgCmd.getTaskresult.code msgCodeSucess
  | some .devLogout | some .getaccFlow | some .stopAcc | some .countFlow | none => (r,msgCodeSucess)

structure CloudParse where
  records : Records
  header : MsgHeader
  ret : Int

def imJsonParseCloud (r : Records) (pMsg : Option Json) (h : MsgHeader) : CloudParse :=
  match pMsg with
  | none => ⟨r,h,msgCodeFormatErr⟩
  | some jsonMsg =>
    let parsed := imJsonParseHeader jsonMsg h
    if parsed.2 ≠ msgCodeSucess then ⟨r,parsed.1,parsed.2⟩
    else if parsed.1.imCode = msgCodeSucess then
      let data := imJsonParseDataCloud r jsonMsg parsed.1.imCmd
      ⟨data.1,parsed.1,data.2⟩
    else if parsed.1.imCode = msgCodeMsgdelay then
      let data := imJsonParseDataTaskresultResp r jsonMsg parsed.1.imCmd msgCodeMsgdelay
      ⟨data.1,parsed.1,data.2⟩
    else ⟨r,parsed.1,parsed.2⟩

end ImAcc
