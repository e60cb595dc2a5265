import ImAcc.Session

-- The UDP repetition on its own: one counter, one buffer and one handle serve every
-- broadcast.
namespace ImAcc
open JsonC Transition

inductive UdpEvent where
  | start (text : Bytes)
  | tick (i : Nat)
  | alarmInit
  | clock (now : Timeval)

def UdpEvent.starts : UdpEvent → Bool
  | .start _ => true
  | _ => false

def UdpEvent.ticks : UdpEvent → Bool
  | .tick _ => true
  | _ => false

def udpAlarms (d : Daemon) : List SnmpAlarm := d.timers.thealarms.filter (·.thecallback = .imUdpbrocastTimerProc)

def udpStep (d : Daemon) : UdpEvent → Option Daemon
  | .start text => some {d with timers := imUdpbrocastTimerStart d.timers text}
  | .tick i => (d.timers.thealarms[i]?).bind fun a =>
    if a.thecallback = .imUdpbrocastTimerProc then (runAlarm d i none []).map (·.1) else none
  | .alarmInit => some {d with timers := initAlarmPostConfig d.timers}
  | .clock now => some {d with timers := {d.timers with clock := now}}

-- A start while a UDP alarm is registered would overwrite its handle.
def Unoverlapped (d : Daemon) (event : UdpEvent) : Prop := event.starts = true → udpAlarms d = []

instance (d : Daemon) (event : UdpEvent) : Decidable (Unoverlapped d event) :=
  inferInstanceAs (Decidable (_ → _ = _))

def tickCount (events : List UdpEvent) : Nat := events.countP (·.ticks)

def sendCount (text : Bytes) (out : List Output) : Nat :=
  out.countP fun output => match output with
    | .udp msg => msg = text
    | _ => false

def Ceased (d : Daemon) (events : List UdpEvent) (d' : Daemon) : Prop :=
  (∀ event ∈ events, event.starts = false) ∧ run udpStep d events = some d'

def DrainsIn (n : Nat) (d : Daemon) : Prop :=
  ∀ events d', Ceased d events d' → tickCount events ≤ n ∧ (tickCount events = n → udpAlarms d' = [])

def DeliversIn (n : Nat) (text : Bytes) (d : Daemon) : Prop :=
  ∀ events d', Ceased d events d' → tickCount events = n → 4 ≤ sendCount text (d'.out.drop d.out.length)

structure Finite (d : Daemon) : Prop where
  single : (udpAlarms d).length ≤ 1
  drains : ∃ n, DrainsIn n d

structure Complete (text : Bytes) (d : Daemon) : Prop where
  finite : Finite d
  delivers : ∃ n, DrainsIn n d ∧ DeliversIn n text d

-- The states of an unoverlapped run: no alarm and a counter at zero, or one alarm
-- that repeats, is the one the handle names, and has sent its text udpTime times.
structure Idle (d : Daemon) : Prop where
  alarms : d.timers.thealarms = []
  udpTime : d.timers.udpTime = 0

structure Sending (k : Nat) (d : Daemon) : Prop where
  alarm : ∃ a, d.timers.thealarms = [a] ∧ a.thecallback = .imUdpbrocastTimerProc ∧
    a.clientreg = d.timers.handleT0 ∧ a.Repeats
  udpTime : d.timers.udpTime = k
  bound : k ≤ 4

theorem Sending.registered (sending : Sending k d) : udpAlarms d ≠ [] := by
  obtain ⟨a,queue,callback,_⟩ := sending.alarm
  simp [udpAlarms,queue,callback]

theorem start_sending (idle : Idle d) (text : Bytes) :
    Sending 0 {d with timers := imUdpbrocastTimerStart d.timers text} := by
  obtain ⟨itimer,made⟩ := imUdpbrocastTimerStart_parts d.timers text
  rw [made,idle.alarms]
  exact ⟨⟨_,rfl,rfl,rfl,rfl,interval_nonzero 0⟩,idle.udpTime,Nat.zero_le 4⟩

theorem reschedule_single (now : Timeval) (repeats : a.Repeats) : ∃ b, reschedule now a.clientreg [a] = [b] ∧
    b.thecallback = a.thecallback ∧ b.clientreg = a.clientreg ∧ b.Repeats := by
  have all : ∀ other ∈ [a], other.Repeats := fun other member => List.mem_singleton.mp member ▸ repeats
  have same := reschedule_same now a.clientreg all
  obtain ⟨b,queue,named⟩ := List.map_eq_singleton_iff.mp same
  simp only [Prod.mk.injEq] at named
  obtain ⟨callback,clientreg,flags,t⟩ := named
  exact ⟨b,queue,callback,clientreg,flags.trans repeats.1,t ▸ repeats.2⟩

theorem tick_parts (taken : udpStep d (.tick i) = some d') : ∃ a, d.timers.thealarms[i]? = some a ∧
    a.thecallback = .imUdpbrocastTimerProc ∧ d' = (sendUdp d).reschedule d.timers.clock a.clientreg := by
  obtain ⟨a,found,fired⟩ := Option.bind_eq_some_iff.mp taken
  split at fired
  · rename_i callback
    obtain ⟨result,ran,rfl⟩ := Option.map_eq_some_iff.mp fired
    unfold runAlarm runCallback at ran
    rw [found] at ran
    dsimp only at ran
    rw [callback] at ran
    cases ran
    exact ⟨a,found,callback,rfl⟩
  · cases fired

-- One tick: the text once more, up to four times; then the alarm is unregistered.
theorem tick_sending (sending : Sending k d) (early : k < 4) (taken : udpStep d (.tick i) = some d') :
    Sending (k+1) d' ∧ d'.timers.udpFuncArg = d.timers.udpFuncArg ∧ d'.out = d.out ++ [.udp d.timers.udpFuncArg] := by
  obtain ⟨a,found,callback,rfl⟩ := tick_parts taken
  obtain ⟨b,queue,kind,named,repeats⟩ := sending.alarm
  have same : a = b := List.mem_singleton.mp (queue ▸ List.mem_of_getElem? found)
  subst same
  obtain ⟨moved,put,kind',named',repeats'⟩ := reschedule_single d.timers.clock repeats
  have sent : sendUdp d = {d with timers := {d.timers with udpTime := k+1}}.send (.udp d.timers.udpFuncArg) := by
    simp only [sendUdp,imUdpbrocastTimerProc,sending.udpTime,early,if_true]
  rw [sent]
  refine ⟨⟨⟨moved,?_,kind'.trans kind,named'.trans named,repeats'⟩,rfl,early⟩,rfl,rfl⟩
  rw [← put,← queue]
  rfl

theorem tick_last (sending : Sending 4 d) (taken : udpStep d (.tick i) = some d') : Idle d' ∧ d'.out = d.out := by
  obtain ⟨a,found,callback,rfl⟩ := tick_parts taken
  obtain ⟨b,queue,kind,named,repeats⟩ := sending.alarm
  have stopped : sendUdp d = {d with timers := {d.timers with thealarms := [],udpTime := 0}} := by
    simp [sendUdp,imUdpbrocastTimerProc,sending.udpTime,queue,snmpAlarmUnregister,named]
  rw [stopped]
  exact ⟨⟨rfl,rfl⟩,rfl⟩

theorem tick_idle (idle : Idle d) : udpStep d (.tick i) = none := by
  simp [udpStep,idle.alarms]

structure Still (before after : Daemon) : Prop where
  alarms : after.timers.thealarms = before.timers.thealarms
  udpTime : after.timers.udpTime = before.timers.udpTime
  handleT0 : after.timers.handleT0 = before.timers.handleT0
  udpFuncArg : after.timers.udpFuncArg = before.timers.udpFuncArg
  out : after.out = before.out

theorem Sending.still (sending : Sending k d) (still : Still d d') : Sending k d' := by
  obtain ⟨a,queue,kind,named,repeats⟩ := sending.alarm
  exact ⟨⟨a,still.alarms.trans queue,kind,named.trans still.handleT0.symm,repeats⟩,
    still.udpTime.trans sending.udpTime,sending.bound⟩

theorem Idle.still (idle : Idle d) (still : Still d d') : Idle d' :=
  ⟨still.alarms.trans idle.alarms,still.udpTime.trans idle.udpTime⟩

theorem udpStep_still (starts : event.starts = false) (ticks : event.ticks = false)
    (taken : udpStep d event = some d') : Still d d' := by
  cases event with
  | start text => cases starts
  | tick i => cases ticks
  | alarmInit =>
    cases taken
    obtain ⟨itimer,made⟩ := setAnAlarm_parts {d.timers with startAlarms := true}
    unfold initAlarmPostConfig
    rw [made]
    exact ⟨rfl,rfl,rfl,rfl,rfl⟩
  | clock now =>
    cases taken
    exact ⟨rfl,rfl,rfl,rfl,rfl⟩

theorem Ceased.cons (ceased : Ceased d (event :: rest) d') : event.starts = false ∧
    ∃ mid, udpStep d event = some mid ∧ Ceased mid rest d' := by
  obtain ⟨quiet,ran⟩ := ceased
  obtain ⟨mid,taken,later⟩ := Option.bind_eq_some_iff.mp ran
  exact ⟨quiet event List.mem_cons_self,mid,taken,fun other member => quiet other (List.mem_cons_of_mem _ member),later⟩

theorem ceased_idle (idle : Idle d) (ceased : Ceased d events d') :
    tickCount events = 0 ∧ Idle d' ∧ d'.out = d.out := by
  induction events generalizing d with
  | nil => cases ceased.2; exact ⟨rfl,idle,rfl⟩
  | cons event rest ih =>
    obtain ⟨starts,mid,taken,later⟩ := ceased.cons
    cases ticks : event.ticks with
    | true =>
      cases event with
      | tick i => rw [tick_idle idle] at taken; cases taken
      | start | alarmInit | clock => cases ticks
    | false =>
      have still := udpStep_still starts ticks taken
      obtain ⟨none,ended,out⟩ := ih (idle.still still) later
      refine ⟨?_,ended,out.trans still.out⟩
      simpa [tickCount,ticks] using none

theorem ceased_sending (sending : Sending k d) (ceased : Ceased d events d') :
    (tickCount events < 5-k ∧ Sending (k+tickCount events) d' ∧
      d'.out = d.out ++ List.replicate (tickCount events) (.udp d.timers.udpFuncArg)) ∨
    (tickCount events = 5-k ∧ Idle d' ∧ d'.out = d.out ++ List.replicate (4-k) (.udp d.timers.udpFuncArg)) := by
  induction events generalizing k d with
  | nil =>
    have bound := sending.bound
    cases ceased.2
    exact .inl ⟨Nat.sub_pos_of_lt (Nat.lt_succ_of_le bound),sending,by simp [tickCount]⟩
  | cons event rest ih =>
    have bound := sending.bound
    obtain ⟨starts,mid,taken,later⟩ := ceased.cons
    cases ticks : event.ticks with
    | true =>
      have count : tickCount (event :: rest) = tickCount rest+1 := by simp [tickCount,ticks]
      rw [count]
      cases event with
      | start | alarmInit | clock => cases ticks
      | tick i =>
        rcases Nat.lt_or_eq_of_le bound with early | last
        · obtain ⟨next,text,sent⟩ := tick_sending sending early taken
          rcases ih next later with ⟨few,under,out⟩ | ⟨all,idle,out⟩
          · refine .inl ⟨by omega,?_,?_⟩
            · rwa [Nat.add_assoc,Nat.add_comm 1] at under
            · rw [out,sent,text,List.append_assoc]
              rfl
          · refine .inr ⟨by omega,idle,?_⟩
            have turns : 4-k = (4-(k+1))+1 := by omega
            rw [out,sent,text,List.append_assoc,turns]
            rfl
        · subst last
          obtain ⟨idle,sent⟩ := tick_last sending taken
          obtain ⟨none,ended,out⟩ := ceased_idle idle later
          refine .inr ⟨by omega,ended,?_⟩
          rw [out,sent]
          exact (List.append_nil _).symm
    | false =>
      have count : tickCount (event :: rest) = tickCount rest := by simp [tickCount,ticks]
      have still := udpStep_still starts ticks taken
      rw [count,← still.udpFuncArg,← still.out]
      exact ih (sending.still still) later

theorem Idle.finite (idle : Idle d) : Finite d := by
  refine ⟨by simp [udpAlarms,idle.alarms],0,?_⟩
  intro events d' ceased
  obtain ⟨none,ended,_⟩ := ceased_idle idle ceased
  exact ⟨none.le,fun _ => by simp [udpAlarms,ended.alarms]⟩

theorem Sending.drains (sending : Sending k d) : DrainsIn (5-k) d := by
  intro events d' ceased
  rcases ceased_sending sending ceased with ⟨few,_⟩ | ⟨all,idle,_⟩
  · exact ⟨few.le,fun all => absurd all few.ne⟩
  · exact ⟨all.le,fun _ => by simp [udpAlarms,idle.alarms]⟩

theorem Sending.finite (sending : Sending k d) : Finite d := by
  obtain ⟨a,queue,_⟩ := sending.alarm
  refine ⟨?_,_,sending.drains⟩
  unfold udpAlarms
  rw [queue]
  exact List.length_filter_le _ _

theorem sendCount_replicate (text : Bytes) (n : Nat) : sendCount text (List.replicate n (.udp text)) = n := by
  simp [sendCount,List.countP_replicate]

theorem Sending.delivers (sending : Sending 0 d) (text : d.timers.udpFuncArg = msg) : DeliversIn 5 msg d := by
  intro events d' ceased all
  rcases ceased_sending sending ceased with ⟨few,_⟩ | ⟨_,_,out⟩
  · exact absurd all few.ne
  · rw [out,text,List.drop_left,sendCount_replicate]

def UdpInvariant (d : Daemon) : Prop := Idle d ∨ ∃ k, Sending k d

theorem udpStep_invariant (held : UdpInvariant d) (met : Unoverlapped d event) (taken : udpStep d event = some d') :
    UdpInvariant d' := by
  cases starts : event.starts with
  | true =>
    cases event with
    | start text =>
      cases taken
      rcases held with idle | ⟨k,sending⟩
      · exact .inr ⟨0,start_sending idle text⟩
      · exact absurd (met rfl) sending.registered
    | tick | alarmInit | clock => cases starts
  | false =>
    have ceased : Ceased d [event] d' := ⟨fun other member => List.mem_singleton.mp member ▸ starts,by simp [run,taken]⟩
    rcases held with idle | ⟨k,sending⟩
    · exact .inl (ceased_idle idle ceased).2.1
    · rcases ceased_sending sending ceased with ⟨_,next,_⟩ | ⟨_,idle,_⟩
      · exact .inr ⟨_,next⟩
      · exact .inl idle

-- Every state of an unoverlapped run is finite, and every start in it is complete.
theorem reached_notifies (path : Transition.Reached udpStep Unoverlapped (Daemon.boot ulongBits uci) d) :
    Finite d ∧ ∀ text d', Unoverlapped d (.start text) → udpStep d (.start text) = some d' → Complete text d' := by
  have held := path.invariant (I := UdpInvariant) (.inl ⟨rfl,rfl⟩) fun _ _ _ held met taken =>
    udpStep_invariant held met taken
  rcases held with idle | ⟨k,sending⟩
  · refine ⟨idle.finite,?_⟩
    intro text d' _ taken
    cases taken
    have sending := start_sending idle text
    obtain ⟨itimer,made⟩ := imUdpbrocastTimerStart_parts d.timers text
    exact ⟨sending.finite,5,sending.drains,sending.delivers (by rw [made])⟩
  · refine ⟨sending.finite,?_⟩
    intro text d' met _
    exact absurd (met rfl) sending.registered

theorem reached_notifies_twice : ∃ d, Finite d ∧ sendCount (bytes "b") d.out = 4 ∧ udpAlarms d = [] := by
  let twice : List UdpEvent := .start (bytes "a") :: List.replicate 5 (.tick 0) ++
    (.start (bytes "b") :: List.replicate 5 (.tick 0))
  have met : Met udpStep Unoverlapped (Daemon.boot 32 default) twice := by decide
  have ran : ((run udpStep (Daemon.boot 32 default) twice).map fun d =>
      (sendCount (bytes "b") d.out,udpAlarms d)) = some (4,[]) := by decide
  obtain ⟨d,ran,seen⟩ := Option.map_eq_some_iff.mp ran
  exact ⟨d,(reached_notifies (met_reached ran met)).1,congrArg Prod.fst seen,congrArg Prod.snd seen⟩

-- An alarm that no handle names any more.
def Orphaned (d : Daemon) : Prop := ∃ a, d.timers.thealarms = [a] ∧ a.thecallback = .imUdpbrocastTimerProc ∧
  a.clientreg ≠ d.timers.handleT0 ∧ a.Repeats

theorem sendUdp_orphaned (queue : d.timers.thealarms = [a]) (unnamed : a.clientreg ≠ d.timers.handleT0) :
    (sendUdp d).timers.thealarms = [a] ∧ (sendUdp d).timers.handleT0 = d.timers.handleT0 := by
  unfold sendUdp imUdpbrocastTimerProc
  by_cases early : d.timers.udpTime < 4
  · simp only [early,if_true]
    exact ⟨queue,rfl⟩
  · simp only [early,if_false,queue,snmpAlarmUnregister,unnamed]
    exact ⟨rfl,rfl⟩

theorem tick_orphaned (orphaned : Orphaned d) : ∃ d', udpStep d (.tick 0) = some d' ∧ Orphaned d' := by
  obtain ⟨a,queue,callback,unnamed,repeats⟩ := orphaned
  obtain ⟨kept,handle⟩ := sendUdp_orphaned queue unnamed
  obtain ⟨b,put,callback',named',repeats'⟩ := reschedule_single d.timers.clock repeats
  refine ⟨(sendUdp d).reschedule d.timers.clock a.clientreg,?_,b,?_,callback'.trans callback,?_,repeats'⟩
  · simp [udpStep,runAlarm,runCallback,queue,callback]
  · rw [← put,← kept]
    rfl
  · intro same
    exact unnamed (named'.symm.trans (same.trans handle))

theorem orphaned_endless (orphaned : Orphaned d) (n : Nat) : ∃ d', Ceased d (List.replicate n (.tick 0)) d' := by
  induction n generalizing d with
  | zero => exact ⟨d,nofun,rfl⟩
  | succ n ih =>
    obtain ⟨mid,taken,still⟩ := tick_orphaned orphaned
    obtain ⟨d',quiet,ran⟩ := ih still
    refine ⟨d',?_,?_⟩
    · intro event member
      rw [List.eq_of_mem_replicate member]
      rfl
    · rw [List.replicate_succ]
      exact Option.bind_eq_some_iff.mpr ⟨mid,taken,ran⟩

theorem Orphaned.undrained (orphaned : Orphaned d) : ¬∃ n, DrainsIn n d := by
  rintro ⟨n,drains⟩
  obtain ⟨d',ceased⟩ := orphaned_endless orphaned (n+1)
  have bounded := (drains _ d' ceased).1
  have count : tickCount (List.replicate (n+1) (.tick 0)) = n+1 := by simp [tickCount,List.countP_replicate,UdpEvent.ticks]
  omega

-- Two broadcasts and five ticks: the second handle is spent, the first alarm stays.
def overlapped : List UdpEvent :=
  [.start (bytes "a"),.start (bytes "b"),.tick 0,.tick 0,.tick 0,.tick 0,.tick 0]

theorem reached_endless : ¬ ∀ ulongBits uci d,
    Transition.Reached udpStep Transition.free (Daemon.boot ulongBits uci) d → Finite d := by
  intro always
  have ran : ((run udpStep (Daemon.boot 32 default) overlapped).map fun d => (names d.timers.thealarms,d.timers.handleT0)) =
      some ([(.imUdpbrocastTimerProc,1,saRepeat,interval 0)],2) := by decide
  obtain ⟨d,ran,seen⟩ := Option.map_eq_some_iff.mp ran
  obtain ⟨queue,handle⟩ := Prod.mk.inj seen
  obtain ⟨a,single,named⟩ := List.map_eq_singleton_iff.mp queue
  simp only [Prod.mk.injEq] at named
  obtain ⟨callback,clientreg,flags,t⟩ := named
  have orphaned : Orphaned d := by
    refine ⟨a,single,callback,?_,flags,t ▸ interval_nonzero 0⟩
    rw [clientreg,handle]
    decide
  exact orphaned.undrained (always _ _ d (run_reached ran)).drains

end ImAcc
