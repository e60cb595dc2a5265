import ImAcc.Lib.JsonRefs
import ImAcc.Control

-- im_handle_msg and what it calls, as handlers of counted objects in the source's order.
namespace ImAcc.Counted
open JsonC RefCount

-- Every getter puts the object it was lent.
def imJsonGet (jsonMsg : Option Nat) (key : JsonImCmd) : Handling Int :=
  match jsonMsg with
  | none => pure msgCodeUnknown
  | some obj => do
    match ← objectGet obj (jasonKey key) with
    | none => pure msgCodeFormatErr
    | some myObj =>
      objectPut (some myObj)
      pure msgCodeSucess

def imJsonGetAll (jsonMsg : Option Nat) : List JsonImCmd → Int → Handling Int
  | [],ret => pure ret
  | key :: rest,ret => do
    let code ← imJsonGet jsonMsg key
    imJsonGetAll jsonMsg rest (orInto ret code)

def imJsonParseHeader (jsonMsg : Nat) : Handling Int := do
  match ← objectGet jsonMsg (jasonKey .header) with
  | none => pure msgCodeFormatErr
  | some jsonHeader =>
    let ret ← imJsonGetAll (some jsonHeader) headerKeys msgCodeSucess
    if ret ≠ msgCodeSucess then pure msgCodeFormatErr
    else
      objectPut (some jsonHeader)
      pure ret

def withDevObj (jsonMsg : Nat) (body : Nat → Handling Int) : Handling Int := do
  match ← objectGet jsonMsg (jasonKey .data) with
  | none => pure msgCodeFormatErr
  | some imData =>
    match ← arrayGetIdx imData 0 with
    | none =>
      objectPut (some imData)
      pure msgCodeFormatErr
    | some devObj =>
      let ret ← body devObj
      objectPut (some devObj)
      objectPut (some imData)
      pure ret

def withMembers (keys : List JsonImCmd) (jsonMsg : Nat) : Handling Int :=
  withDevObj jsonMsg fun devObj => imJsonGetAll (some devObj) keys msgCodeSucess

def imJsonParseDataSpeedup := withMembers [.devName]
def imJsonParseDataGetflow := withMembers [.getFlowId,.devName]
def imJsonParseDataKeepacc := withMembers [.isKeepacc]
def imJsonParseDataIosinfo := withMembers [.devicetoken,.devid]

def imJsonParseDataTerminal (jsonMsg : Nat) (cmd : Int) : Handling Int :=
  match TermMsgCmd.ofCode cmd with
  | some .startAcc | some .stopAcc => imJsonParseDataSpeedup jsonMsg
  | some .getflow => imJsonParseDataGetflow jsonMsg
  | some .keepacc => imJsonParseDataKeepacc jsonMsg
  | some .iosinfo => imJsonParseDataIosinfo jsonMsg
  | some .accStateInfo | some .getflowInfo | some .ungettedflow | some .peakflow
  | some .getAcclist | none => pure msgCodeSucess

-- json_tokener_parse; the NULL of the text null is taken for its error.
def tokenerParse (pMsg : Option Json) : Handling (Option Nat) :=
  match pMsg with
  | none => pure none
  | some text => parsed text

def headerOf (pMsg : Option Json) : MsgHeader := pMsg.elim default fun text => (ImAcc.imJsonParseHeader text default).1

def imJsonParseTerminal (pMsg : Option Json) : Handling Int := do
  match ← tokenerParse pMsg with
  | none => pure msgCodeFormatErr
  | some jsonMsg =>
    let ret ← imJsonParseHeader jsonMsg
    let ret ← if ret ≠ msgCodeSucess then pure ret else imJsonParseDataTerminal jsonMsg (headerOf pMsg).imCmd
    objectPut (some jsonMsg)
    pure ret

def imJsonParseDataLoginResp := withMembers [.sessionid,.accTime,.ip]
def imJsonParseDataGetflowinfoResp := withMembers [.totalFlow,.remainFlow]
def imJsonParseDataGetaccinfoResp := withMembers [.accUrl]
def imJsonParseDataUngetflowResp := withMembers []
def imJsonParseDataGetflowResp := withMembers []
def imJsonParseDataHeartbeatResp := withMembers [.ip]
def imJsonParseDataTaskid := withMembers [.taskid]

def imJsonParseDataIsaccResp (jsonMsg : Nat) : Handling Int :=
  withDevObj jsonMsg fun devObj => do
    let ret ← imJsonGetAll (some devObj) [.isAcc] msgCodeSucess
    let _ ← imJsonGetAll (some devObj) [.isp,.curBandwidth,.maxBandwidth,.accRemaintime] ret
    pure ret

def imJsonParseDataStartaccResp (jsonMsg : Nat) : Handling Int :=
  withDevObj jsonMsg fun devObj => do
    let _ ← imJsonGetAll (some devObj) [.isp,.curBandwidth,.maxBandwidth,.accRemaintime,.accBandwidth] msgCodeSucess
    pure msgCodeSucess

-- The element fetched last is put after the loop, the others only by their getters.
def acclistLoop (imData : Nat) : List Nat → Option Nat → Int → Handling (Option Nat × Int)
  | [],devObj,ret => pure (devObj,ret)
  | i :: rest,_,ret => do
    let devObj ← arrayGetIdx imData i
    let ret ← imJsonGetAll devObj [.useTime,.useFlow,.openAccTime] ret
    acclistLoop imData rest devObj ret

def imJsonParseDataGetacclistResp (jsonMsg : Nat) : Handling Int := do
  match ← objectGet jsonMsg (jasonKey .data) with
  | none => pure msgCodeFormatErr
  | some imData =>
    let length ← arrayLength imData
    let (devObj,ret) ← acclistLoop imData (List.range length) none msgCodeSucess
    objectPut devObj
    objectPut (some imData)
    pure ret

def imJsonParseDataTaskresultResp (state : AccOpenState) (jsonMsg : Nat) (cmd errcode : Int) : Handling Int :=
  if state.transient = false then pure msgCodeUnknown
  else match CloudMsgCmd.ofCode cmd with
    | some .isAcc | some .startAcc =>
      if errcode ≠ msgCodeMsgdelay then pure msgCodeUnknown else imJsonParseDataTaskid jsonMsg
    | some .getTaskresult =>
      if errcode ≠ msgCodeSucess then pure msgCodeSucess
      else match state with
        | .opening => imJsonParseDataStartaccResp jsonMsg
        | .querying => imJsonParseDataIsaccResp jsonMsg
        | _ => pure msgCodeUnknown
    | _ => pure msgCodeUnknown

def imJsonParseDataCloud (state : AccOpenState) (jsonMsg : Nat) (cmd : Int) : Handling Int :=
  match CloudMsgCmd.ofCode cmd with
  | some .devLogin => imJsonParseDataLoginResp jsonMsg
  | some .heartBeat => imJsonParseDataHeartbeatResp jsonMsg
  | some .isAcc => imJsonParseDataIsaccResp jsonMsg
  | some .startAcc => imJsonParseDataStartaccResp jsonMsg
  | some .getflowInfo => imJsonParseDataGetflowinfoResp jsonMsg
  | some .getAcclist => imJsonParseDataGetacclistResp jsonMsg
  | some .getAccinfo => imJsonParseDataGetaccinfoResp jsonMsg
  | some .ungetflow => imJsonParseDataUngetflowResp jsonMsg
  | some .getflow => imJsonParseDataGetflowResp jsonMsg
  | some .getTaskresult => imJsonParseDataTaskresultResp state jsonMsg CloudMsgCmd.getTaskresult.code msgCodeSucess
  | some .devLogout | some .getaccFlow | some .stopAcc | some .countFlow | none => pure msgCodeSucess

def imJsonParseCloud (state : AccOpenState) (pMsg : Option Json) : Handling Int := do
  match ← tokenerParse pMsg with
  | none => pure msgCodeFormatErr
  | some jsonMsg =>
    let ret ← imJsonParseHeader jsonMsg
    let header := headerOf pMsg
    let ret ← if ret ≠ msgCodeSucess then pure ret
      else if header.imCode = msgCodeSucess then imJsonParseDataCloud state jsonMsg header.imCmd
      else if header.imCode = msgCodeMsgdelay then
        imJsonParseDataTaskresultResp state jsonMsg header.imCmd msgCodeMsgdelay
      else pure ret
    objectPut (some jsonMsg)
    pure ret

def addNew (obj : Nat) (key : Bytes) (value : Json) : Handling Unit := do
  let new ← newObject (.leaf value)
  objectAdd obj key (some new)

-- The add releases the old object, and the put releases it once more.
def imJsonObjectSetInt (jsonMsg : Nat) (key : JsonImCmd) (value : Int) : Handling Int := do
  match ← objectGet jsonMsg (jasonKey key) with
  | none => pure msgCodeFormatErr
  | some myObj =>
    addNew jsonMsg (jasonKey key) (.int value)
    objectPut (some myObj)
    pure msgCodeSucess

def imJsonMakeHeader (jsonMsg : Nat) (errcode : Int) : Handling Int := do
  match ← objectGet jsonMsg (jasonKey .header) with
  | none => pure msgCodeUnknown
  | some jsonHeader => imJsonObjectSetInt jsonHeader .code errcode

def imJsonMakeData (jsonMsg data : Nat) : Handling Unit := do
  objectDel jsonMsg (jasonKey .data)
  objectAdd jsonMsg (jasonKey .data) (some data)

def imJsonMakeResponeSend (pMsg : Option Json) (errcode : Int) (data : Option Nat) : Handling Unit := do
  match ← tokenerParse pMsg with
  | none => pure ()
  | some jsonMsg =>
    let ret ← imJsonMakeHeader jsonMsg errcode
    if ret = msgCodeSucess then
      match data with
      | none => pure ()
      | some data => imJsonMakeData jsonMsg data
    objectPut (some jsonMsg)

def moduleName : Bytes := bytes "bandwidthAcc"

-- One object is edited and added for every registered device; its time is any number.
def imJsonMakeCmdBrocastIOS (iosinfo : List IosinfoCmd) (notyMsg : Bytes) : Handling Unit := do
  let obj ← newObject (.object [])
  let dataarray ← newObject (.array [])
  let pDataObj ← newObject (.object [])
  (iosinfo.filter (·.devicetoken ≠ [])).forM fun slot => do
    addNew pDataObj (jasonKey .badge) (.int 1)
    addNew pDataObj (jasonKey .message) (.string notyMsg)
    addNew pDataObj (jasonKey .device) (.string slot.devicetoken)
    addNew pDataObj (jasonKey .modele) (.string moduleName)
    arrayAdd dataarray (some pDataObj)
  objectAdd obj (jasonKey .data) (some dataarray)
  addNew obj (jasonKey .rand) (.int 0)
  objectPut (some pDataObj)
  objectPut (some dataarray)
  objectPut (some obj)

def termres (jsonData dataObj : Nat) (members : List (Bytes × Json)) : Handling Unit := do
  members.forM fun member => addNew dataObj member.1 member.2
  arrayAdd jsonData (some dataObj)

-- Here once for every slot, with one more object for the comparison.
def imJsonMakeTermresAcclist (r : Records) (jsonData dataObj : Nat) : Handling Unit :=
  (List.range maxAccHis).forM fun i => do
    let slot := r.acclistResp.getD i default
    let _ ← newObject (.leaf (.int slot.imUseTime))
    termres jsonData dataObj [(jasonKey .useTime,.int slot.imUseTime),(jasonKey .useFlow,newIntOfUlong slot.imUseFlow),
      (jasonKey .openAccTime,newIntOfUlong slot.imOpenAccTime)]

def answer (h : Handled) (cmd : Int) (jsonData dataObj : Nat) : Handling Unit :=
  if h.data.refs = 0 then pure ()
  else match TermMsgCmd.ofCode cmd with
    | some .getAcclist => imJsonMakeTermresAcclist h.daemon.records jsonData dataObj
    | _ => termres jsonData dataObj h.data.members

-- Requests and logins alternate; a login is parsed only if it was sent.
def exchanges (state : AccOpenState) : List Exchange → Handling Unit
  | [] => pure ()
  | [query] => do
    let _ ← imJsonParseCloud state query.body
  | query :: login :: rest => do
    let _ ← imJsonParseCloud state query.body
    if login.sent = msgCodeSucess then
      let _ ← imJsonParseCloud state login.body
    exchanges state rest

def notify (iosinfo : List IosinfoCmd) : Output → Handling Unit
  | .brocast _ notyData => imJsonMakeCmdBrocastIOS iosinfo notyData
  | _ => pure ()

def imHandleCmdTerminal (created : Bool) (header : MsgHeader) (d : Daemon) (pMsg : Option Json)
    (replies : List Exchange) : Handling Unit := do
  let jsonData ← newObject (.array [])
  let dataObj ← newObject (.object [])
  let state := (enters d).getD d.accState
  match terminalSwitch created header d replies with
  | none => exchanges state replies
  | some h =>
    exchanges state (replies.take (replies.length-h.rest.length))
    answer h d.records.cmdHeader.imCmd jsonData dataObj
    (h.daemon.out.drop d.out.length).forM (notify d.records.iosinfo)
    imJsonMakeResponeSend pMsg h.errcode (some jsonData)
    objectPut (some dataObj)
    objectPut (some jsonData)

def imHandleMsg (created : Bool) (header : MsgHeader) (d : Daemon) (pMsg : Option Json)
    (replies : List Exchange) : Handling Unit := do
  let ret ← imJsonParseTerminal pMsg
  if ret = msgCodeSucess then imHandleCmdTerminal created header (received d pMsg).1 pMsg replies
  else imJsonMakeResponeSend pMsg ret none

end ImAcc.Counted
