import ImAcc.JsonMake
import ImAcc.Timer

-- im_msg_handle.c, the exchanges with the cloud; out is what the daemon has sent.
namespace ImAcc
open JsonC

inductive Output where
  | cloud (msg : Bytes)
  | brocast (notyType : BrocastNotifyType) (notyData : Bytes)
  | udp (msg : Bytes)
  | reply (msg : Json)

structure Daemon where
  records : Records
  cntTime : Nat
  flowCount : Nat
  timerHearbeat : Nat
  timerFlowcount : Nat
  timers : Timers
  out : List Output

def Daemon.accState (d : Daemon) : AccOpenState := d.records.speedupinfoResp.imAccState
def Daemon.setAccState (d : Daemon) (state : AccOpenState) : Daemon :=
  {d with records := d.records.setAccState state}
def Daemon.send (d : Daemon) (output : Output) : Daemon := {d with out := d.out ++ [output]}

-- im_http_sendmsg's result, what json_tokener_parse makes of the body received, and the
-- stack bytes under a header local to the caller.
structure Exchange where
  sent : Int
  body : Option Json
  stack : MsgHeader

structure CloudResult where
  daemon : Daemon
  header : MsgHeader
  ret : Int

-- A failed transport's code is overwritten with the parser's.
def imCloudExchange (d : Daemon) (msg : Bytes) (header : MsgHeader) (ex : Exchange) : CloudResult :=
  let parsed := imJsonParseCloud d.records ex.body header
  ⟨{d.send (.cloud msg) with records := parsed.records},parsed.header,parsed.ret⟩

-- Only login returns on a failed transport; rejected, it returns the header's code.
def imCloudLogin (d : Daemon) (ex : Exchange) : CloudResult :=
  let msg := imJsonMakeCmdLogin d.records.loginCmd
  if ex.sent ≠ msgCodeSucess then ⟨d.send (.cloud msg),ex.stack,msgCodeUnknown⟩
  else
    let c := imCloudExchange d msg ex.stack ex
    if c.ret ≠ msgCodeSucess ∨ c.header.imCode ≠ msgCodeSucess then {c with ret := c.header.imCode} else c

def imCloudLogout (d : Daemon) (ex : Exchange) : CloudResult :=
  imCloudExchange d (imJsonMakeCmdLogout d.records.loginResp) ex.stack ex

-- The address is copied on the header's code alone, whatever the parser said.
def imCloudHeartbeat (d : Daemon) (ex : Exchange) : CloudResult :=
  let c := imCloudExchange d (imJsonMakeCmdHeartbeat d.records.loginResp) ex.stack ex
  if c.header.imCode = msgCodeSucess then
    {c with daemon := {c.daemon with records := {c.daemon.records with
      loginResp := {c.daemon.records.loginResp with imIp := c.daemon.records.heartbeatResp.imIp}}}}
  else c

def imCloudIsaac (d : Daemon) (header : MsgHeader) (ex : Exchange) : CloudResult :=
  imCloudExchange d (imJsonMakeCmdIsacc d.records.acc) header ex
def imCloudStartaac (d : Daemon) (header : MsgHeader) (ex : Exchange) : CloudResult :=
  imCloudExchange d (imJsonMakeCmdStartacc d.records.acc) header ex
def imCloudStopaac (d : Daemon) (header : MsgHeader) (ex : Exchange) : CloudResult :=
  imCloudExchange d (imJsonMakeCmdStopacc d.records.loginResp) header ex
def imCloudGetflow (d : Daemon) (header : MsgHeader) (ex : Exchange) : CloudResult :=
  imCloudExchange d (imJsonMakeCmdGetflow d.records.loginResp) header ex
def imCloudCountflow (d : Daemon) (ex : Exchange) : CloudResult :=
  imCloudExchange d (imJsonMakeCmdCountflow d.records.ulongBits d.records.countflowCmd) ex.stack ex
def imCloudGetaacflow (d : Daemon) (header : MsgHeader) (ex : Exchange) : CloudResult :=
  imCloudExchange d (imJsonMakeCmdGetaacflow d.records.getaacflowCmd) header ex
def imCloudGetflowinfo (d : Daemon) (header : MsgHeader) (ex : Exchange) : CloudResult :=
  imCloudExchange d (imJsonMakeCmdFlowinfo d.records.loginResp) header ex
def imCloudGetacclist (d : Daemon) (header : MsgHeader) (ex : Exchange) : CloudResult :=
  imCloudExchange d (imJsonMakeCmdAcclist d.records.loginResp) header ex
def imCloudGetflowInfo (d : Daemon) (header : MsgHeader) (ex : Exchange) : CloudResult :=
  imCloudExchange d (imJsonMakeCmdGetflowInfo d.records.loginResp) header ex
def imCloudUngetflow (d : Daemon) (header : MsgHeader) (ex : Exchange) : CloudResult :=
  imCloudExchange d (imJsonMakeCmdUngetflow d.records.loginResp) header ex
def imCloudGetaccinfo (d : Daemon) (header : MsgHeader) (ex : Exchange) : CloudResult :=
  imCloudExchange d (imJsonMakeCmdAccinfo d.records.loginResp) header ex
def imCloudGettaskresult (d : Daemon) (header : MsgHeader) (ex : Exchange) : CloudResult :=
  imCloudExchange d (imJsonMakeCmdGettaskresult d.records.acc d.records.taskresultCmd) header ex

end ImAcc
