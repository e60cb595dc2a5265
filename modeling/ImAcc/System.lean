import ImAcc.Lib.Transition
import ImAcc.MsgHandle

-- The daemon with its threads: main loop, pollers between their sleeps, alarm callbacks.
namespace ImAcc
open JsonC

-- request counts what ends or replaces a request: a mark of the model, read by no function.
structure World where
  daemon : Daemon
  pollers : List Poller
  request : Nat

def Daemon.boot (ulongBits : Nat) (uci : UciIsacc) : Daemon :=
  {records := Records.boot ulongBits uci,cntTime := 0,flowCount := 0,timerHearbeat := 100,timerFlowcount := 100,
   timers := Timers.boot,out := []}

def imStartLoginCloud (d : Daemon) (lanIp : Bytes) (ex : Exchange) : Daemon :=
  (imCloudLogin {d with records := {d.records with loginCmd := ⟨bytes "IMOVE00000001",lanIp⟩}} ex).daemon

-- main up to im_isacc_init, whose login may end in any way.
def World.boot (ulongBits : Nat) (uci : UciIsacc) (lanIp : Bytes) (ex : Exchange) : World :=
  let d := imStartLoginCloud (Daemon.boot ulongBits uci) lanIp ex
  ⟨{d with records := imWindbandInit d.records},[],0⟩

-- thread is pthread_create's answer with the stack of the new thread, header the caller's
-- uninitialised one.
inductive Event where
  | isaccInit (thread : Option MsgHeader) (header : MsgHeader) (replies : List Exchange)
  | alarmInit
  | message (pMsg : Option Json) (thread : Option MsgHeader) (header : MsgHeader) (replies : List Exchange)
  | poll (i : Nat) (replies : List Exchange)
  | resume (i : Nat)
  | alarm (i : Nat) (ifaList : Option (List Ifaddr)) (replies : List Exchange)
  | clock (now : Timeval)

def spawn (spawned : Bool) (thread : Option MsgHeader) (request : Nat) : List Poller :=
  if spawned then thread.toList.map fun header => ⟨header,0,false,request⟩ else []

def supersedes (d : Daemon) : Bool :=
  match TermMsgCmd.ofCode d.records.cmdHeader.imCmd with
  | some .startAcc => d.accState = .closed
  | some .stopAcc => true
  | some .accStateInfo => d.accState = .closed && (imCheckIsnetChange d.records).2 = msgCodeSucess
  | _ => false

def received (d : Daemon) (pMsg : Option Json) : Daemon × Int :=
  ({d with records := (imJsonParseTerminal d.records pMsg).1},(imJsonParseTerminal d.records pMsg).2)

def requestAfter (w : World) (pMsg : Option Json) : Nat :=
  let r := received w.daemon pMsg
  if r.2 = msgCodeSucess ∧ supersedes r.1 then w.request+1 else w.request

def sendUdp (d : Daemon) : Daemon :=
  let p := imUdpbrocastTimerProc d.timers
  if p.2 then {d with timers := p.1}.send (.udp d.timers.udpFuncArg) else {d with timers := p.1}

def runCallback (d : Daemon) (callback : SnmpAlarmCallback) (ifaList : Option (List Ifaddr))
    (replies : List Exchange) : Option (Daemon × List Exchange) :=
  match callback with
  | .imStartHeartbeatCloud => match replies with
    | [] => none
    | ex :: rest => some (imStartHeartbeatCloud d ex,rest)
  | .imStartFlowCount => imStartFlowCount d ifaList replies
  | .imUdpbrocastTimerProc => some (sendUdp d,replies)

def Daemon.reschedule (d : Daemon) (now : Timeval) (clientreg : Nat) : Daemon :=
  {d with timers := {d.timers with thealarms := ImAcc.reschedule now clientreg d.timers.thealarms}}

def runAlarm (d : Daemon) (i : Nat) (ifaList : Option (List Ifaddr)) (replies : List Exchange) :
    Option (Daemon × List Exchange) :=
  match d.timers.thealarms[i]? with
  | none => none
  | some a => (runCallback d a.thecallback ifaList replies).map fun ran =>
    (ran.1.reschedule d.timers.clock a.clientreg,ran.2)

-- A step takes place when the exchanges given are exactly those it has.
def step (w : World) : Event → Option World
  | .isaccInit thread header replies =>
    (imAutoQueryIsacc thread.isSome header w.daemon replies).bind fun q =>
      let request := if w.daemon.accState = .closed then w.request+1 else w.request
      if q.rest.isEmpty then some ⟨q.daemon,w.pollers ++ spawn q.spawned thread request,request⟩ else none
  | .alarmInit => some {w with daemon := {w.daemon with timers := initAlarmPostConfig w.daemon.timers}}
  | .message pMsg thread header replies =>
    (imHandleMsg thread.isSome header w.daemon pMsg replies).bind fun h =>
      let request := requestAfter w pMsg
      if h.rest.isEmpty then some ⟨h.daemon,w.pollers ++ spawn h.spawned thread request,request⟩ else none
  | .poll i replies =>
    match w.pollers[i]? with
    | none => none
    | some p =>
      if p.registering then none
      else (imRollqueryThread w.daemon p replies).bind fun t =>
        if t.rest.isEmpty then
          some {w with daemon := t.daemon,pollers := match t.poller with
            | none => w.pollers.eraseIdx i
            | some q => w.pollers.set i q}
        else none
  | .resume i =>
    match w.pollers[i]? with
    | none => none
    | some p =>
      if p.registering then some {w with daemon := rollOpened w.daemon,pollers := w.pollers.eraseIdx i} else none
  | .alarm i ifaList replies =>
    (runAlarm w.daemon i ifaList replies).bind fun ran =>
      if ran.2.isEmpty then some {w with daemon := ran.1} else none
  | .clock now => some {w with daemon := {w.daemon with timers := {w.daemon.timers with clock := now}}}

def headerJson (cmd code : Int) : Json :=
  .object [(jasonKey .cmd,.int cmd),(jasonKey .ver,.int cmdVersion),(jasonKey .seq,.int 1),
    (jasonKey .device,.int 1),(jasonKey .code,.int code),(jasonKey .sessionid,.string cmdSessionid),
    (jasonKey .sign,.string (bytes " "))]

def messageJson (cmd code : Int) (data : List (List (Bytes × Json))) : Json :=
  .object [(jasonKey .header,headerJson cmd code),(jasonKey .data,.array (data.map .object))]

def termMsg (cmd : TermMsgCmd) : Json :=
  messageJson cmd.code 0 [[(jasonKey .devName,.string (bytes "pc")),(jasonKey .getFlowId,.string (bytes "1"))]]

def delivered (cmd : CloudMsgCmd) (code : Int) (data : List (List (Bytes × Json))) : Exchange :=
  ⟨msgCodeSucess,some (messageJson cmd.code code data),default⟩

def loginReply : Exchange := delivered .devLogin msgCodeSucess
  [[(jasonKey .sessionid,.string (bytes "s1")),(jasonKey .accTime,.int 0),(jasonKey .ip,.string (bytes "10.0.0.1"))]]

def taskReply (cmd : CloudMsgCmd) : Exchange :=
  delivered cmd msgCodeMsgdelay [[(jasonKey .taskid,.string (bytes "t1"))]]

def lost : Exchange := ⟨msgCodeUnknown,none,default⟩

def booted : World := World.boot 32 default (bytes "192.168.1.1") loginReply

def started : List Event := [.isaccInit none default [lost],.alarmInit]

def told (cmd : TermMsgCmd) (replies : List Exchange) : Event :=
  .message (some (termMsg cmd)) (some default) default replies

abbrev Reached (guard : World → Event → Prop) : World → World → Prop := Transition.Reached step guard

end ImAcc
