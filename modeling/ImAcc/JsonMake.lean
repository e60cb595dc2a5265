import ImAcc.JsonParse

-- im_json_parse.c, the writers.
namespace ImAcc
open JsonC

def cloudCmdText (cmd : CloudMsgCmd) (data : Bytes) : Bytes :=
  bytes "\x7b\"header\": \x7b\"cmd\": " ++ decimal cmd.code ++ bytes ", \"ver\": " ++ decimal cmdVersion ++
  bytes ",\"seq\": 1, \"device\": 1,\"code\": 0, \"sessionid\":\"" ++ cmdSessionid ++
  bytes "\", \"sign\":\" \"\x7d,\"data\": [\x7b" ++ data ++ bytes "\x7d]\x7d"

def sessionText (session : Bytes) : Bytes := bytes "\"sessionid\":\"" ++ session ++ bytes "\""

def accText (acc : AccCmd) : Bytes :=
  sessionText acc.imSessionId ++ bytes ",\"dev_id\":\"" ++ acc.imDevId ++ bytes "\", \"ip\":\"" ++ acc.imIp ++
  bytes "\""

def imJsonMakeCmdLogin (login : LoginCmd) : Bytes :=
  bytes "\x7b\"header\": \x7b\"cmd\": " ++ decimal CloudMsgCmd.devLogin.code ++ bytes ",\"ver\": " ++
  decimal cmdVersion ++ bytes ",\"seq\": 1, \"device\": 1,\"code\": 0, \"sessionid\":\"" ++ cmdSessionid ++
  bytes "\", \"sign\":\" \"\x7d,\"data\": [\x7b\"dev_id\":\"" ++ login.imDevId ++ bytes "\", \"ip\":\"" ++
  login.imIp ++ bytes "\"\x7d]\x7d"

def imJsonMakeCmdLogout (logout : LoginResp) : Bytes :=
  cloudCmdText .devLogout (sessionText logout.imSessionId)
def imJsonMakeCmdHeartbeat (heartbeat : LoginResp) : Bytes :=
  cloudCmdText .heartBeat (sessionText heartbeat.imSessionId)
def imJsonMakeCmdIsacc (isaac : AccCmd) : Bytes := cloudCmdText .isAcc (accText isaac)
def imJsonMakeCmdStartacc (startaac : AccCmd) : Bytes := cloudCmdText .startAcc (accText startaac)
def imJsonMakeCmdStopacc (stoptaac : LoginResp) : Bytes :=
  cloudCmdText .stopAcc (sessionText stoptaac.imSessionId)

-- %ld prints the unsigned long as a signed one.
def imJsonMakeCmdCountflow (bits : Nat) (countflow : CountflowCmd) : Bytes :=
  cloudCmdText .countFlow (sessionText countflow.imSessionId ++ bytes ",\"use_flow\":" ++
    decimal (Int.bmod countflow.imUseFlow (2^bits)))

-- This format has no comma between its two members.
def imJsonMakeCmdGetaacflow (taskid : GetaacflowCmd) : Bytes :=
  cloudCmdText .getaccFlow (sessionText taskid.imSessionId ++ bytes " \"taskid\":\"" ++ taskid.imTaskId ++
    bytes "\"")

def imJsonMakeCmdFlowinfo (flowinfo : LoginResp) : Bytes :=
  cloudCmdText .getflowInfo (sessionText flowinfo.imSessionId)
def imJsonMakeCmdAcclist (acclist : LoginResp) : Bytes :=
  cloudCmdText .getAcclist (sessionText acclist.imSessionId)
def imJsonMakeCmdGetflowInfo (getflowInfo : LoginResp) : Bytes :=
  cloudCmdText .getflowInfo (sessionText getflowInfo.imSessionId)
def imJsonMakeCmdUngetflow (ungetflow : LoginResp) : Bytes :=
  cloudCmdText .ungetflow (sessionText ungetflow.imSessionId)
def imJsonMakeCmdGetflow (getflow : LoginResp) : Bytes :=
  cloudCmdText .getflow (sessionText getflow.imSessionId)
def imJsonMakeCmdAccinfo (accinfo : LoginResp) : Bytes :=
  cloudCmdText .getAccinfo (sessionText accinfo.imSessionId)

-- The session is s_im_acc's although the argument has one of its own.
def imJsonMakeCmdGettaskresult (acc : AccCmd) (accinfo : TaskresultCmd) : Bytes :=
  cloudCmdText .getTaskresult (sessionText acc.imSessionId ++ bytes ",\"task_id\":\"" ++ accinfo.imTaskid ++
    bytes "\"")

-- The array holds refs references to the one object.
structure TermData where
  members : List (Bytes × Json)
  refs : Nat

def TermData.empty : TermData := ⟨[],0⟩
def TermData.add (key : JsonImCmd) (value : Json) (t : TermData) : TermData :=
  {t with members := Json.membersAdd (jasonKey key) value t.members}
def TermData.append (t : TermData) : TermData := {t with refs := t.refs+1}
def TermData.json (t : TermData) : Json := .array (List.replicate t.refs (.object t.members))

-- An unsigned long passed as the int of json_object_new_int.
def newIntOfUlong (n : Nat) : Json := .int (Int.bmod n (2^32))

def imJsonMakeTermresStartacc (r : Records) (t : TermData) : TermData :=
  ((((((t.add .isp (.int r.startaccResp.imIsp)).add .curBandwidth (.int r.startaccResp.imCurBandwidth)).add
    .maxBandwidth (.int r.startaccResp.imMaxBandwidth)).add .accRemaintime (.int r.startaccResp.imRemaintime)).add
    .accBandwidth (.int r.startaccResp.imAccBandwidth))).append

def imJsonMakeTermresSpeedupinfo (r : Records) (t : TermData) : TermData :=
  let info := r.speedupinfoResp
  let t := ((((t.add .accState (.int info.imAccState.code)).add .isAcc (.int info.imIsAcc)).add
    .isp (.int info.imIsp)).add .curBandwidth (.int info.imCurBandwidth)).add .maxBandwidth (.int info.imMaxBandwidth)
  (if info.imAccState = .opened then
    (t.add .accBandwidth (.int info.imAccBandwidth)).add .accRemaintime (.int info.imAccRemaintime)
   else t).append

def imJsonMakeTermresFlowinfo (r : Records) (t : TermData) : Records × TermData :=
  let t := (t.add .totalFlow (newIntOfUlong r.flowinfoResp.imTotalFlow)).add
    .remainFlow (newIntOfUlong r.flowinfoResp.imRemainFlow)
  let r := {r with flowinfoResp := {r.flowinfoResp with imAccRemaintime := r.speedupinfoResp.imAccRemaintime}}
  (r,(if r.speedupinfoResp.imAccState = .opened then
    t.add .accRemaintime (.int r.flowinfoResp.imAccRemaintime) else t).append)

def imJsonMakeTermresUngetflow (r : Records) (t : TermData) : TermData :=
  ((t.add .getFlowId (.string r.ungetflowResp.imGetflowId)).add
    .getFlowInfo (.string r.ungetflowResp.imGetflowInfo)).append

def imJsonMakeTermresGetflow (t : TermData) : TermData := t

def imJsonMakeTermresPeakflow (r : Records) (t : TermData) : TermData :=
  (t.add .peakFlow (newIntOfUlong r.peakflowResp.imPeakFlow)).append

-- The test compares a freshly allocated object with NULL, so no slot is skipped.
def imJsonMakeTermresAcclist (r : Records) (t : TermData) : TermData :=
  (List.range maxAccHis).foldl (fun t i =>
    let slot := r.acclistResp.getD i default
    (((t.add .useTime (.int slot.imUseTime)).add .useFlow (newIntOfUlong slot.imUseFlow)).add
      .openAccTime (newIntOfUlong slot.imOpenAccTime)).append) t

def imJsonObjectSetInt (jsonMsg : Json) (key : JsonImCmd) (value : Int) : Json × Int :=
  match jsonMsg.objectGet (jasonKey key) with
  | none => (jsonMsg,msgCodeFormatErr)
  | some _ => (jsonMsg.objectAdd (jasonKey key) (.int value),msgCodeSucess)

def imJsonMakeHeader (jsonMsg : Json) (errcode : Int) : Json × Int :=
  match jsonMsg.objectGet (jasonKey .header) with
  | none => (jsonMsg,msgCodeUnknown)
  | some jsonHeader =>
    let edited := imJsonObjectSetInt jsonHeader .code errcode
    (jsonMsg.objectAdd (jasonKey .header) edited.1,edited.2)

def imJsonMakeData (jsonMsg data : Json) : Json :=
  (jsonMsg.objectDel (jasonKey .data)).objectAdd (jasonKey .data) data

def imJsonMakeResponeSend (pMsg : Option Json) (errcode : Int) (data : Option Json) : Option Json :=
  match pMsg with
  | none => none
  | some jsonMsg =>
    let made := imJsonMakeHeader jsonMsg errcode
    if made.2 ≠ msgCodeSucess then none
    else match data with
      | none => some made.1
      | some data => some (imJsonMakeData made.1 data)

end ImAcc
