import ImAcc.Records

-- timer.c: alarm queue and UDP repetition. calloc is taken to succeed; gettimeofday reads clock.
namespace ImAcc
open JsonC

structure Timeval where
  tvSec : Int
  tvUsec : Int
  deriving DecidableEq, Inhabited

inductive SnmpAlarmCallback where
  | imStartHeartbeatCloud
  | imStartFlowCount
  | imUdpbrocastTimerProc
  deriving DecidableEq, Repr

def saRepeat : Nat := 1
def timerUnitUdpBroudcast : Int := 500000
def timer5min : Nat := 300

structure SnmpAlarm where
  t : Timeval
  flags : Nat
  clientreg : Nat
  tLast : Timeval
  tNext : Timeval
  thecallback : SnmpAlarmCallback
  deriving DecidableEq

-- regnum is an unsigned int; handles pass through int and back unchanged.
structure Timers where
  clock : Timeval
  thealarms : List SnmpAlarm
  startAlarms : Bool
  regnum : Nat
  itimer : Option Timeval
  udpFuncArg : Bytes
  handleT0 : Nat
  udpTime : Nat
  deriving DecidableEq

def Timers.boot : Timers :=
  {clock := default,thealarms := [],startAlarms := false,regnum := 1,itimer := none,
   udpFuncArg := [],handleT0 := 0,udpTime := 0}

def timevalZero : Timeval := ⟨0,0⟩

-- while(tv_usec >= 1000000) carries; tv_usec is below 2000000 at every call.
def Timeval.carry (tv : Timeval) : Timeval := ⟨tv.tvSec + tv.tvUsec/1000000,tv.tvUsec % 1000000⟩

def Timeval.add (a b : Timeval) : Timeval := Timeval.carry ⟨a.tvSec+b.tvSec,a.tvUsec+b.tvUsec⟩

def Timeval.before (a b : Timeval) : Bool := a.tvSec < b.tvSec || (a.tvSec = b.tvSec && a.tvUsec < b.tvUsec)

def snmpAlarmUnregister (clientreg : Nat) : List SnmpAlarm → List SnmpAlarm
  | [] => []
  | a :: rest => if a.clientreg = clientreg then rest else a :: snmpAlarmUnregister clientreg rest

-- none stands for the two branches that unregister the entry.
def saUpdateEntry (now : Timeval) (a : SnmpAlarm) : Option SnmpAlarm :=
  if a.tLast = timevalZero then some {a with tLast := now,tNext := now.add a.t}
  else if a.tNext = timevalZero then
    if a.flags &&& saRepeat ≠ 0 then
      if a.t = timevalZero then none else some {a with tNext := a.tLast.add a.t}
    else none
  else some a

def saFindNext : List SnmpAlarm → Option SnmpAlarm
  | alarms => alarms.foldl (fun lowest a => match lowest with
    | none => some a
    | some l => if a.tNext.before l.tNext then some a else some l) none

-- The delay and the id set_an_alarm arms for; an id of zero arms nothing.
def getNextAlarmDelayTime (now : Timeval) (alarms : List SnmpAlarm) : Option (Nat × Timeval) :=
  (saFindNext alarms).map fun a =>
    if a.tNext.before now then (a.clientreg,⟨0,1⟩)
    else (a.clientreg,Timeval.carry ⟨a.tNext.tvSec-now.tvSec,a.tNext.tvUsec-now.tvUsec⟩)

def setAnAlarm (s : Timers) : Timers :=
  match getNextAlarmDelayTime s.clock s.thealarms with
  | none => s
  | some (nextalarm,delta) => if nextalarm = 0 then s else {s with itimer := some delta}

def initAlarmPostConfig (s : Timers) : Timers := setAnAlarm {s with startAlarms := true}

def interval (seconds : Nat) : Timeval := if seconds = 0 then ⟨0,timerUnitUdpBroudcast⟩ else ⟨seconds,0⟩

def freshAlarm (s : Timers) (seconds flags : Nat) (callback : SnmpAlarmCallback) : SnmpAlarm :=
  {t := interval seconds,flags := flags,clientreg := s.regnum,tLast := timevalZero,tNext := timevalZero,
   thecallback := callback}

def snmpAlarmRegister (s : Timers) (seconds flags : Nat) (callback : SnmpAlarmCallback) : Timers × Nat :=
  let entry := saUpdateEntry s.clock (freshAlarm s seconds flags callback)
  let registered := {s with thealarms := s.thealarms ++ entry.toList,regnum := (s.regnum+1) % 2^32}
  (if s.startAlarms then setAnAlarm registered else registered,s.regnum)

def imUdpbrocastTimerStart (s : Timers) (clientarg : Bytes) : Timers :=
  let registered := snmpAlarmRegister {s with udpFuncArg := clientarg} 0 saRepeat .imUdpbrocastTimerProc
  {registered.1 with handleT0 := registered.2}

-- One run of the UDP callback; the flag says whether the datagram was sent.
def imUdpbrocastTimerProc (s : Timers) : Timers × Bool :=
  if s.udpTime < 4 then ({s with udpTime := s.udpTime+1},true)
  else ({s with thealarms := snmpAlarmUnregister s.handleT0 s.thealarms,udpTime := 0},false)

def saFindSpecific (clientreg : Nat) (alarms : List SnmpAlarm) : Option SnmpAlarm :=
  alarms.find? (·.clientreg = clientreg)

def reschedule (now : Timeval) (clientreg : Nat) : List SnmpAlarm → List SnmpAlarm
  | [] => []
  | a :: rest =>
    if a.clientreg = clientreg then
      (saUpdateEntry now {a with tLast := now,tNext := timevalZero}).toList ++ rest
    else a :: reschedule now clientreg rest

end ImAcc
