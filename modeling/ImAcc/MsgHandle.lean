import ImAcc.CloudOps

-- im_msg_handle.c. An exchange that is none is a reply still to come.
namespace ImAcc
open JsonC

-- (bw/8)*0.8 cut to an unsigned long: the product is exact where it is an integer.
def imCountFlowPeakflow (r : Records) (imCurBandwidth : Int) : Records :=
  {r with peakflowResp := ⟨toUlong r.ulongBits (((imCurBandwidth.tdiv 8)*4).tdiv 5)⟩}

structure Ifaddr where
  up : Bool
  running : Bool
  name : Bytes
  data : Option Nat

-- ret is whatever the last comparison left there.
def ifaScan (ifname : Bytes) : List Ifaddr → Nat → Int → Nat × Int
  | [],obytes,ret => (obytes,ret)
  | ifa :: rest,obytes,ret =>
    if ¬ifa.up ∧ ¬ifa.running then ifaScan ifname rest obytes ret
    else match ifa.data with
      | none => ifaScan ifname rest obytes ret
      | some counter => if ifa.name = ifname then (counter,0) else ifaScan ifname rest obytes 1

-- none is a failed getifaddrs.
def imGetIfDbytes (ifaList : Option (List Ifaddr)) (ifname : Bytes) (obytes : Nat) : Nat × Int :=
  match ifaList with
  | none => (obytes,msgCodeUnknown)
  | some list =>
    let scanned := ifaScan ifname list obytes 0
    (scanned.1,if scanned.2 ≠ 0 then msgCodeUnknown else msgCodeSucess)

def udpInfo (notyType : BrocastNotifyType) (notyData : Bytes) : Bytes :=
  bytes "\x7b\"" ++ jasonKey .sendInformId ++ bytes "\":" ++ decimal notyType.code ++ bytes ", \"" ++
  jasonKey .sendInformMsg ++ bytes "\":\"" ++ notyData ++ bytes "\"\x7d"

-- The push to the iOS server goes out besides; its reply is not read.
def imBrocastToTerminal (d : Daemon) (notyType : BrocastNotifyType) (notyData : Bytes) : Daemon :=
  {d with timers := imUdpbrocastTimerStart d.timers (udpInfo notyType notyData)}.send (.brocast notyType notyData)

def Daemon.register (d : Daemon) (callback : SnmpAlarmCallback) : Daemon × Nat :=
  let registered := snmpAlarmRegister d.timers timer5min saRepeat callback
  ({d with timers := registered.1},registered.2)

def Daemon.unregister (d : Daemon) (clientreg : Nat) : Daemon :=
  {d with timers := {d.timers with thealarms := snmpAlarmUnregister clientreg d.timers.thealarms}}

def Daemon.registerHearbeat (d : Daemon) : Daemon :=
  let registered := d.register .imStartHeartbeatCloud
  {registered.1 with timerHearbeat := registered.2}

def Daemon.registerFlowcount (d : Daemon) : Daemon :=
  let registered := d.register .imStartFlowCount
  {registered.1 with timerFlowcount := registered.2}

def imStopFlowCount (d : Daemon) : Daemon := {d.unregister d.timerFlowcount with flowCount := 0}
def imStopHeartbeatCloud (d : Daemon) : Daemon := {d.unregister d.timerHearbeat with cntTime := 0}

-- The first reading of a session is its baseline; a baseline of 0 is taken again.
def imStartFlowCount (d : Daemon) (ifaList : Option (List Ifaddr)) (replies : List Exchange) :
    Option (Daemon × List Exchange) :=
  let count := d.records.countflowCmd
  let reading := imGetIfDbytes ifaList wanIfname count.imUseFlow
  let store (flow : Nat) : Daemon := {d with records := {d.records with countflowCmd := {count with imUseFlow := flow}}}
  if reading.2 ≠ msgCodeSucess then some (store reading.1,replies)
  else if d.flowCount = 0 then some ({store reading.1 with flowCount := reading.1},replies)
  else
    let used := toUlong d.records.ulongBits ((reading.1 : Int)-d.flowCount)/1024
    match replies with
    | [] => none
    | ex :: rest => some ((imCloudCountflow (store used) ex).daemon,rest)

def willstopText (r : Records) : Bytes :=
  brocastNotify .accWillstop ++ decimal r.startaccResp.imCurBandwidth ++ bytes "kbps"

def imStartHeartbeatCloud (d : Daemon) (ex : Exchange) : Daemon :=
  let d := (imCloudHeartbeat d ex).daemon
  if d.records.keepacc.imIsKeepacc ≠ 0 then d
  else
    let d := {d with cntTime := d.cntTime+1}
    if d.cntTime = 24 then imBrocastToTerminal d .accWillstop (willstopText d.records)
    else if d.cntTime > 24 then imStopFlowCount (imStopHeartbeatCloud {d with cntTime := 0})
    else d

def successText (r : Records) : Bytes :=
  r.speedup.imDevName ++ brocastNotify .accSuccess ++ decimal r.startaccResp.imAccBandwidth ++ bytes "kbps"

-- At the head of its loop, or asleep between two registrations; request is a mark of the model.
structure Poller where
  header : MsgHeader
  rollTime : Nat
  registering : Bool
  request : Nat

structure Rolled where
  daemon : Daemon
  poller : Option Poller
  rest : List Exchange

def rollOpening (d : Daemon) : Daemon :=
  (imBrocastToTerminal d .accSuccess (successText d.records)).registerHearbeat

def rollOpened (d : Daemon) : Daemon :=
  let d := d.registerFlowcount
  {d with records := imCountFlowPeakflow d.records d.records.startaccResp.imCurBandwidth}.setAccState .opened

def imRollqueryThread (d : Daemon) (p : Poller) : List Exchange → Option Rolled
  | [] => none
  | ex :: rest =>
    let c := imCloudGettaskresult d p.header ex
    let polled := {p with header := c.header}
    if c.ret = msgCodeSucess ∧ c.header.imCode = msgCodeSucess then
      match c.daemon.accState with
      | .opening => some ⟨rollOpening c.daemon,some {polled with registering := true},rest⟩
      | .querying =>
        some ⟨{c.daemon with records := configWriteImAcc c.daemon.records}.setAccState .closed,none,rest⟩
      | _ => some ⟨c.daemon,none,rest⟩
    else if c.header.imCode = msgCodeIvalidedevid then
      match rest with
      | [] => none
      | login :: rest => some ⟨(imCloudLogin c.daemon login).daemon,some polled,rest⟩
    else if p.rollTime ≥ 9 then some ⟨c.daemon.setAccState .closed,none,rest⟩
    else some ⟨c.daemon,some {polled with rollTime := p.rollTime+1},rest⟩

structure Queried where
  daemon : Daemon
  ret : Int
  spawned : Bool
  rest : List Exchange

-- created is what pthread_create would answer; the recursion after a login is the source's.
def imAutoQueryIsacc (created : Bool) (header : MsgHeader) (d : Daemon) (replies : List Exchange) :
    Option Queried :=
  if d.accState ≠ .closed then some ⟨d,msgCodeSucess,false,replies⟩
  else match replies with
  | [] => none
  | ex :: rest =>
    let c := imCloudIsaac (d.setAccState .querying) header ex
    if c.ret ≠ msgCodeSucess then some ⟨c.daemon.setAccState .closed,c.ret,false,rest⟩
    else if c.header.imCode = msgCodeMsgdelay then some ⟨c.daemon,c.ret,created,rest⟩
    else if c.header.imCode = msgCodeSucess then
      let r := imCountFlowPeakflow c.daemon.records c.daemon.records.speedupinfoResp.imCurBandwidth
      some ⟨{c.daemon with records := configWriteImAcc r},c.ret,false,rest⟩
    else if c.header.imCode = msgCodeInvalidses then
      match rest with
      | [] => none
      | login :: rest =>
        let l := imCloudLogin c.daemon login
        if l.ret = msgCodeSucess then
          (imAutoQueryIsacc created header l.daemon rest).map fun q => {q with ret := l.ret}
        else some ⟨l.daemon,l.ret,false,rest⟩
    else some ⟨c.daemon,c.ret,false,rest⟩

structure Handled where
  daemon : Daemon
  errcode : Int
  data : TermData
  spawned : Bool
  rest : List Exchange

def cloudRetry (ask : Daemon → MsgHeader → Exchange → CloudResult) (answer : Daemon → Daemon × TermData)
    (header : MsgHeader) (d : Daemon) : List Exchange → Option Handled
  | [] => none
  | ex :: rest =>
    let c := ask d header ex
    if c.ret ≠ msgCodeSucess then some ⟨c.daemon,msgCodeUnknown,.empty,false,rest⟩
    else if c.header.imCode = msgCodeSucess then
      some ⟨(answer c.daemon).1,msgCodeSucess,(answer c.daemon).2,false,rest⟩
    else if c.header.imCode = msgCodeInvalidses then
      match rest with
      | [] => none
      | login :: rest =>
        let l := imCloudLogin c.daemon login
        if l.ret = msgCodeSucess then cloudRetry ask answer c.header l.daemon rest
        else some ⟨l.daemon,msgCodeUnknown,.empty,false,rest⟩
    else some ⟨c.daemon,c.header.imCode,.empty,false,rest⟩

def getflowRetry := cloudRetry imCloudGetflow fun d => (d,imJsonMakeTermresGetflow .empty)
def getflowInfoRetry := cloudRetry imCloudGetflowInfo fun d =>
  let made := imJsonMakeTermresFlowinfo d.records .empty
  ({d with records := made.1},made.2)
def ungettedflowRetry := cloudRetry imCloudUngetflow fun d => (d,imJsonMakeTermresUngetflow d.records .empty)
def getAcclistRetry := cloudRetry imCloudGetacclist fun d => (d,imJsonMakeTermresAcclist d.records .empty)

def startedInfo (r : Records) : Records := speedupinfoOfStart (r.setAccState .opened)

def startAccOpened (d : Daemon) : Daemon :=
  let d := {d with records := startedInfo d.records}
  let d := imBrocastToTerminal d .accSuccess (successText d.records)
  let d := d.registerHearbeat.registerFlowcount
  {d with records := imCountFlowPeakflow d.records d.records.startaccResp.imCurBandwidth}

def startAccRetry (created : Bool) (header : MsgHeader) (d : Daemon) (replies : List Exchange) : Option Handled :=
  if d.accState ≠ .closed then some ⟨d,msgCodeUnknown,.empty,false,replies⟩
  else match replies with
  | [] => none
  | ex :: rest =>
    let c := imCloudStartaac (d.setAccState .opening) header ex
    if c.ret ≠ msgCodeSucess then some ⟨c.daemon.setAccState .closed,msgCodeUnknown,.empty,false,rest⟩
    else if c.header.imCode = msgCodeMsgdelay then some ⟨c.daemon,msgCodeMsgdelayTerm,.empty,created,rest⟩
    else if c.header.imCode = msgCodeSucess then
      some ⟨startAccOpened c.daemon,msgCodeSucess,imJsonMakeTermresStartacc c.daemon.records .empty,false,rest⟩
    else if c.header.imCode = msgCodeInvalidses then
      match rest with
      | [] => none
      | login :: rest =>
        let l := imCloudLogin c.daemon login
        if l.ret = msgCodeSucess then startAccRetry created c.header (l.daemon.setAccState .closed) rest
        else some ⟨l.daemon.setAccState .closed,msgCodeUnknown,.empty,false,rest⟩
    else some ⟨c.daemon,c.header.imCode,.empty,false,rest⟩

-- Only the return value is looked at, never the header's code.
def stopAcc (header : MsgHeader) (d : Daemon) : List Exchange → Option Handled
  | [] => none
  | ex :: rest =>
    let c := imCloudStopaac d header ex
    if c.ret ≠ msgCodeSucess then some ⟨c.daemon,msgCodeUnknown,.empty,false,rest⟩
    else
      let d := imStopFlowCount (imStopHeartbeatCloud (c.daemon.setAccState .closed))
      some ⟨imBrocastToTerminal d .accStop (brocastNotify .accStop),msgCodeSucess,.empty,false,rest⟩

def isAccRetry (created : Bool) (header : MsgHeader) (d : Daemon) : List Exchange → Option Handled
  | [] => none
  | ex :: rest =>
    let c := imCloudIsaac (d.setAccState .querying) header ex
    if c.ret ≠ msgCodeSucess then some ⟨c.daemon.setAccState .closed,msgCodeUnknown,.empty,false,rest⟩
    else if c.header.imCode = msgCodeMsgdelay then some ⟨c.daemon,msgCodeMsgdelayTerm,.empty,created,rest⟩
    else if c.header.imCode = msgCodeSucess then
      some ⟨{c.daemon with records :=
          imCountFlowPeakflow c.daemon.records c.daemon.records.speedupinfoResp.imCurBandwidth},
        msgCodeSucess,imJsonMakeTermresSpeedupinfo c.daemon.records .empty,false,rest⟩
    else if c.header.imCode = msgCodeInvalidses then
      match rest with
      | [] => none
      | login :: rest =>
        let l := imCloudLogin c.daemon login
        if l.ret = msgCodeSucess then isAccRetry created c.header (l.daemon.setAccState .closed) rest
        else some ⟨l.daemon.setAccState .closed,msgCodeUnknown,.empty,false,rest⟩
    else some ⟨c.daemon,c.header.imCode,.empty,false,rest⟩

def accStateInfo (created : Bool) (header : MsgHeader) (d : Daemon) (replies : List Exchange) : Option Handled :=
  if d.accState.transient then some ⟨d,msgCodeMsgdelayTerm,.empty,false,replies⟩
  else
    let change := imCheckIsnetChange d.records
    let d := {d with records := change.1}
    if change.2 ≠ msgCodeSucess then
      some ⟨d,msgCodeSucess,imJsonMakeTermresSpeedupinfo d.records .empty,false,replies⟩
    else if d.accState ≠ .closed then some ⟨d,msgCodeUnknown,.empty,false,replies⟩
    else isAccRetry created header d replies

def terminalSwitch (created : Bool) (header : MsgHeader) (d : Daemon) (replies : List Exchange) : Option Handled :=
  match TermMsgCmd.ofCode d.records.cmdHeader.imCmd with
  | some .getflow => getflowRetry header d replies
  | some .keepacc | some .iosinfo => some ⟨d,msgCodeSucess,.empty,false,replies⟩
  | some .startAcc => startAccRetry created header d replies
  | some .stopAcc => stopAcc header d replies
  | some .accStateInfo => accStateInfo created header d replies
  | some .getflowInfo => getflowInfoRetry header d replies
  | some .ungettedflow => ungettedflowRetry header d replies
  | some .peakflow =>
    some ⟨d,msgCodeSucess,imJsonMakeTermresPeakflow d.records .empty,false,replies⟩
  | some .getAcclist => getAcclistRetry header d replies
  | none => some ⟨d,msgCodeFormatErrTerm,.empty,false,replies⟩

def Daemon.reply (d : Daemon) (pMsg : Option Json) (errcode : Int) (data : Option Json) : Daemon :=
  match imJsonMakeResponeSend pMsg errcode data with
  | none => d
  | some msg => d.send (.reply msg)

def imHandleCmdTerminal (created : Bool) (header : MsgHeader) (d : Daemon) (pMsg : Option Json)
    (replies : List Exchange) : Option Handled :=
  (terminalSwitch created header d replies).map fun h =>
    {h with daemon := h.daemon.reply pMsg h.errcode (some h.data.json)}

def imHandleMsg (created : Bool) (header : MsgHeader) (d : Daemon) (pMsg : Option Json)
    (replies : List Exchange) : Option Handled :=
  let parsed := imJsonParseTerminal d.records pMsg
  let d := {d with records := parsed.1}
  if parsed.2 = msgCodeSucess then imHandleCmdTerminal created header d pMsg replies
  else some ⟨d.reply pMsg parsed.2 none,parsed.2,.empty,false,replies⟩

end ImAcc
