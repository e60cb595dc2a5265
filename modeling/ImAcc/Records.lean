import ImAcc.Lib.Json

-- im_wideband_speedup.h. Arrays of char are the bytes before their NUL.
namespace ImAcc
open JsonC

inductive AccOpenState where
  | unset       -- 0, the memory before im_windband_init
  | closed
  | opened
  | opening
  | querying
  deriving DecidableEq, Repr, Inhabited

def AccOpenState.code : AccOpenState → Int
  | .unset => 0
  | .closed => 1
  | .opened => 2
  | .opening => 3
  | .querying => 4

def AccOpenState.transient : AccOpenState → Bool
  | .opening | .querying => true
  | _ => false

theorem AccOpenState.transient_unopened {state : AccOpenState} (waiting : state.transient = true) : state ≠ .opened := by
  rintro rfl
  cases waiting

inductive BrocastNotifyType where
  | accSuccess
  | accStop
  | accIsup
  | accWillstop
  | accEnd
  deriving DecidableEq, Repr

def BrocastNotifyType.code : BrocastNotifyType → Int
  | .accSuccess => 0
  | .accStop => 1
  | .accIsup => 2
  | .accWillstop => 3
  | .accEnd => 4

-- EncodeToUTF8(brocast_notify[i]) for the constant texts of the table.
def brocastNotify : BrocastNotifyType → Bytes
  | .accSuccess => bytes "开启了带宽加速!带宽已提升至"
  | .accStop => bytes "宽带加速已被断开，若不是手动断开请检查网络设置"
  | .accIsup => bytes "已帮你将宽带加速，带宽已提升至"
  | .accWillstop => bytes "宽带加速还有5分钟即将关闭!带宽将退回至原来"
  | .accEnd => bytes "宽带加速已结束，共使用"

-- The members of JSON_IM_CMD that some modelled function looks up or writes.
inductive JsonImCmd where
  | header | cmd | ver | seq | device | code | sessionid | sign | data
  | devName | isp | curBandwidth | accBandwidth | accRemaintime | maxBandwidth | isAcc
  | totalFlow | remainFlow | getFlowId | getFlowInfo | peakFlow | isKeepacc
  | useTime | useFlow | openAccTime | sendInformId | sendInformMsg
  | accTime | accUrl | accState | ip | devicetoken | devid | taskid
  | badge | message | rand | modele
  deriving DecidableEq, Repr

def jasonKey : JsonImCmd → Bytes
  | .header => bytes "header"
  | .cmd => bytes "cmd"
  | .ver => bytes "ver"
  | .seq => bytes "seq"
  | .device => bytes "device"
  | .code => bytes "code"
  | .sessionid => bytes "sessionid"
  | .sign => bytes "sign"
  | .data => bytes "data"
  | .devName => bytes "dev_name"
  | .isp => bytes "isp"
  | .curBandwidth => bytes "cur_bandwidth"
  | .accBandwidth => bytes "acc_bandwidth"
  | .accRemaintime => bytes "acc_remaintime"
  | .maxBandwidth => bytes "max_bandwidth"
  | .isAcc => bytes "is_acc"
  | .totalFlow => bytes "total_flow"
  | .remainFlow => bytes "remain_flow"
  | .getFlowId => bytes "get_flow_id"
  | .getFlowInfo => bytes "get_flow_info"
  | .peakFlow => bytes "peak_flow"
  | .isKeepacc => bytes "is_keepacc"
  | .useTime => bytes "use_time"
  | .useFlow => bytes "use_flow"
  | .openAccTime => bytes "open_acc_time"
  | .sendInformId => bytes "send_inform_Id"
  | .sendInformMsg => bytes "send_inform_msg"
  | .accTime => bytes "acc_time"
  | .accUrl => bytes "acc_url"
  | .accState => bytes "acc_state"
  | .ip => bytes "ip"
  | .devicetoken => bytes "devicetoken"
  | .devid => bytes "devid"
  | .taskid => bytes "task_id"
  | .badge => bytes "badge"
  | .message => bytes "message"
  | .rand => bytes "rand"
  | .modele => bytes "module"

-- Return codes and the codes of a cloud header share MSG_CODE_CLOUD.
@[simp] def msgCodeSucess : Int := 0
@[simp] def msgCodeUnknown : Int := 1
@[simp] def msgCodeFormatErr : Int := 3
@[simp] def msgCodeIvalidedevid : Int := 5
@[simp] def msgCodeInvalidses : Int := 6
@[simp] def msgCodeMsgdelay : Int := 7
@[simp] def msgCodeFormatErrTerm : Int := 110
@[simp] def msgCodeMsgdelayTerm : Int := 114

inductive CloudMsgCmd where
  | devLogin | devLogout | heartBeat | isAcc | startAcc | stopAcc | countFlow | getaccFlow
  | getflowInfo | getAcclist | getAccinfo | getTaskresult | ungetflow | getflow
  deriving DecidableEq, Repr

def CloudMsgCmd.code : CloudMsgCmd → Int
  | .devLogin => 500
  | .devLogout => 501
  | .heartBeat => 502
  | .isAcc => 503
  | .startAcc => 504
  | .stopAcc => 505
  | .countFlow => 506
  | .getaccFlow => 507
  | .getflowInfo => 508
  | .getAcclist => 509
  | .getAccinfo => 510
  | .getTaskresult => 511
  | .ungetflow => 512
  | .getflow => 513

def CloudMsgCmd.all : List CloudMsgCmd :=
  [.devLogin,.devLogout,.heartBeat,.isAcc,.startAcc,.stopAcc,.countFlow,.getaccFlow,
   .getflowInfo,.getAcclist,.getAccinfo,.getTaskresult,.ungetflow,.getflow]

-- The label a switch over an arbitrary int jumps to; none is its default.
def CloudMsgCmd.ofCode (code : Int) : Option CloudMsgCmd := CloudMsgCmd.all.find? (·.code = code)

theorem CloudMsgCmd.ofCode_code (c : CloudMsgCmd) : CloudMsgCmd.ofCode c.code = some c := by
  cases c <;> decide

theorem CloudMsgCmd.ofCode_exact {i : Int} {c : CloudMsgCmd} : CloudMsgCmd.ofCode i = some c ↔ i = c.code := by
  constructor
  · intro found
    have same := List.find?_some found
    exact (of_decide_eq_true same).symm
  · rintro rfl; exact ofCode_code c

inductive TermMsgCmd where
  | startAcc | stopAcc | accStateInfo | getflowInfo | ungettedflow | getflow | peakflow
  | keepacc | getAcclist | iosinfo
  deriving DecidableEq, Repr

def TermMsgCmd.code : TermMsgCmd → Int
  | .startAcc => 0x600
  | .stopAcc => 0x601
  | .accStateInfo => 0x602
  | .getflowInfo => 0x603
  | .ungettedflow => 0x604
  | .getflow => 0x605
  | .peakflow => 0x606
  | .keepacc => 0x607
  | .getAcclist => 0x608
  | .iosinfo => 0x609

def TermMsgCmd.all : List TermMsgCmd :=
  [.startAcc,.stopAcc,.accStateInfo,.getflowInfo,.ungettedflow,.getflow,.peakflow,.keepacc,.getAcclist,.iosinfo]

def TermMsgCmd.ofCode (code : Int) : Option TermMsgCmd := TermMsgCmd.all.find? (·.code = code)

theorem TermMsgCmd.ofCode_code (c : TermMsgCmd) : TermMsgCmd.ofCode c.code = some c := by
  cases c <;> decide

theorem TermMsgCmd.ofCode_exact {i : Int} {c : TermMsgCmd} : TermMsgCmd.ofCode i = some c ↔ i = c.code := by
  constructor
  · intro found
    have same := List.find?_some found
    exact (of_decide_eq_true same).symm
  · rintro rfl; exact ofCode_code c

structure MsgHeader where
  imCmd : Int
  imVer : Int
  imSeq : Int
  imDevice : Int
  imCode : Int
  imSessionid : Bytes
  imSign : Bytes
  deriving DecidableEq, Inhabited

structure SpeedupCmd where
  imDevName : Bytes
  deriving DecidableEq, Inhabited

structure GetflowCmd where
  imGetflowId : Bytes
  imDevName : Bytes
  deriving DecidableEq, Inhabited

structure KeepaccCmd where
  imIsKeepacc : Int
  deriving DecidableEq, Inhabited

structure IosinfoCmd where
  devicetoken : Bytes
  devid : Bytes
  deriving DecidableEq, Inhabited

structure LoginCmd where
  imDevId : Bytes
  imIp : Bytes
  deriving DecidableEq, Inhabited

structure LoginResp where
  imSessionId : Bytes
  imAccTime : Int
  imIp : Bytes
  deriving DecidableEq, Inhabited

structure AccCmd where
  imSessionId : Bytes
  imDevId : Bytes
  imIp : Bytes
  deriving DecidableEq, Inhabited

structure IsaccResp where
  imIsAcc : Int
  imIsp : Int
  imCurBandwidth : Int
  imMaxBandwidth : Int
  imAccRemaintime : Int
  deriving DecidableEq, Inhabited

structure StartaccResp where
  imIsp : Int
  imCurBandwidth : Int
  imMaxBandwidth : Int
  imRemaintime : Int
  imAccBandwidth : Int
  deriving DecidableEq, Inhabited

structure FlowInfoResp where
  imTotalFlow : Nat
  imRemainFlow : Nat
  imAccRemaintime : Int
  deriving DecidableEq, Inhabited

structure AccspecResp where
  imAccUrl : Bytes
  deriving DecidableEq, Inhabited

structure CountflowCmd where
  imSessionId : Bytes
  imUseFlow : Nat
  deriving DecidableEq, Inhabited

structure GetaacflowCmd where
  imSessionId : Bytes
  imTaskId : Bytes
  deriving DecidableEq, Inhabited

structure SpeedupInfoResp where
  imAccState : AccOpenState
  imIsAcc : Int
  imIsp : Int
  imCurBandwidth : Int
  imMaxBandwidth : Int
  imAccBandwidth : Int
  imAccRemaintime : Int
  deriving DecidableEq, Inhabited

structure UngetflowResp where
  imGetflowId : Bytes
  imGetflowInfo : Bytes
  deriving DecidableEq, Inhabited

structure PeakflowResp where
  imPeakFlow : Nat
  deriving DecidableEq, Inhabited

structure AccHistroy where
  imUseTime : Int
  imUseFlow : Nat
  imOpenAccTime : Nat
  deriving DecidableEq, Inhabited

structure HeartbeatResp where
  imIp : Bytes
  deriving DecidableEq, Inhabited

structure TaskresultCmd where
  imTaskid : Bytes
  imSessionId : Bytes
  deriving DecidableEq, Inhabited

-- The committed options of the uci section im_acc.isacc.
structure UciIsacc where
  imAccState : Option Int
  imIsAcc : Option Int
  imIsp : Option Int
  imCurBandwidth : Option Int
  imMaxBandwidth : Option Int
  imAccBandwidth : Option Int
  imAccRemaintime : Option Int
  imIp : Option Bytes
  deriving DecidableEq, Inhabited

def maxAccHis : Nat := 20
def maxIosDev : Nat := 20
def cmdVersion : Int := 100
def cmdSessionid : Bytes := bytes "imove_home"
def wanIfname : Bytes := bytes "eth1"

-- The global records. The width of unsigned long is the target's: 32 on the router, 64 on a PC.
structure Records where
  ulongBits : Nat
  cmdHeader : MsgHeader
  speedup : SpeedupCmd
  getflow : GetflowCmd
  keepacc : KeepaccCmd
  iosinfo : List IosinfoCmd
  loginCmd : LoginCmd
  loginResp : LoginResp
  acc : AccCmd
  isaccResp : IsaccResp
  startaccResp : StartaccResp
  flowinfoResp : FlowInfoResp
  accspec : AccspecResp
  countflowCmd : CountflowCmd
  getaacflowCmd : GetaacflowCmd
  speedupinfoResp : SpeedupInfoResp
  ungetflowResp : UngetflowResp
  peakflowResp : PeakflowResp
  acclistResp : List AccHistroy
  heartbeatResp : HeartbeatResp
  taskresultCmd : TaskresultCmd
  uciSaveIp : Bytes
  uci : UciIsacc
  deriving DecidableEq

def Records.boot (ulongBits : Nat) (uci : UciIsacc) : Records :=
  {ulongBits := ulongBits,cmdHeader := default,speedup := default,getflow := default,keepacc := default,
   iosinfo := List.replicate maxIosDev default,loginCmd := default,loginResp := default,acc := default,
   isaccResp := default,startaccResp := default,flowinfoResp := default,accspec := default,
   countflowCmd := default,getaacflowCmd := default,speedupinfoResp := default,ungetflowResp := default,
   peakflowResp := default,acclistResp := List.replicate maxAccHis default,heartbeatResp := default,
   taskresultCmd := default,uciSaveIp := [],uci := uci}

def Records.setAccState (r : Records) (state : AccOpenState) : Records :=
  {r with speedupinfoResp := {r.speedupinfoResp with imAccState := state}}

end ImAcc
