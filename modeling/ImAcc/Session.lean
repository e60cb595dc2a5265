import ImAcc.Handles

-- The end of a session by its own heartbeat.
namespace ImAcc
open JsonC

theorem reschedule_same (now : Timeval) (clientreg : Nat) (repeats : ∀ a ∈ alarms, SnmpAlarm.Repeats a) :
    names (reschedule now clientreg alarms) = names alarms := by
  induction alarms with
  | nil => rfl
  | cons a rest ih =>
    obtain ⟨first,later⟩ := List.forall_mem_cons.mp repeats
    unfold reschedule
    split
    · obtain ⟨flags,interval⟩ := first
      have stays : ∃ b, saUpdateEntry now {a with tLast := now,tNext := timevalZero} = some b := by
        by_cases zero : now = timevalZero
        · exact ⟨_,if_pos zero⟩
        · exact ⟨{a with tLast := now,tNext := now.add a.t},by simp [saUpdateEntry,zero,flags,interval,saRepeat]⟩
      obtain ⟨b,updated⟩ := stays
      have same := saUpdateEntry_name updated
      simp only [updated,names,Option.toList,List.cons_append,List.nil_append,List.map_cons,same]
    · simp only [names,List.map_cons] at ih ⊢
      rw [ih later]

-- One tick: keepacc as it stands then, and the cloud's answer to the heartbeat.
structure Tick where
  imIsKeepacc : Int
  reply : Exchange

def Tick.off (t : Tick) : Bool := t.imIsKeepacc = 0
def offTicks (ticks : List Tick) : Nat := ticks.countP (·.off)

def Daemon.setKeepacc (d : Daemon) (imIsKeepacc : Int) : Daemon :=
  {d with records := {d.records with keepacc := ⟨imIsKeepacc⟩}}

def heartbeatTick (d : Daemon) (t : Tick) : Option Daemon :=
  (runAlarm (d.setKeepacc t.imIsKeepacc)
    (d.timers.thealarms.findIdx (·.thecallback = .imStartHeartbeatCloud)) none [t.reply]).map (·.1)

def Output.isWillstop : Output → Bool
  | .brocast .accWillstop _ => true
  | _ => false

def warnings (d : Daemon) : Nat := d.out.countP (·.isWillstop)

def Registered (d : Daemon) : Prop :=
  idsOf .imStartHeartbeatCloud d.timers.thealarms = [d.timerHearbeat] ∧
    idsOf .imStartFlowCount d.timers.thealarms = [d.timerFlowcount]

structure Running (d : Daemon) : Prop where
  opened : d.accState = .opened
  registered : Registered d

structure Ended (d : Daemon) : Prop where
  closed : d.accState = .closed
  bare : Bare d
  cntTime : d.cntTime = 0
  flowCount : d.flowCount = 0

structure TickRight (offs : Nat) (t : Tick) (before after : Daemon) : Prop where
  warned : warnings after = warnings before + if t.off = true ∧ offs+1 = 24 then 1 else 0
  ended : t.off = true ∧ offs+1 = 25 → Ended after
  running : ¬(t.off = true ∧ offs+1 = 25) → Running after

def SessionRight : Nat → Daemon → List Tick → Prop
  | _,_,[] => True
  | offs,d,t :: rest => ∃ after, heartbeatTick d t = some after ∧ TickRight offs t d after ∧
      (offs + (if t.off then 1 else 0) < 25 → SessionRight (offs + if t.off then 1 else 0) after rest)

-- An accelerated session: open, its two alarms registered, and room for the warning.
structure Session (d : Daemon) : Prop where
  running : Running d
  numbered : Numbered (if d.cntTime < 24 then 1 else 0) d.timers

def Orderly (w : World) (event : Event) : Prop := Stoppable w event ∧ Unwrapped w event

instance (w : World) (event : Event) : Decidable (Orderly w event) :=
  inferInstanceAs (Decidable (Stoppable w event ∧ w.daemon.timers.regnum + 3 < 2^32))

theorem reached_session (path : Reached Orderly (World.boot ulongBits uci lanIp ex) w)
    (calm : ∀ p ∈ w.pollers, p.registering = false) (room : Unwrapped w .alarmInit)
    (hearbeat : idsOf .imStartHeartbeatCloud w.daemon.timers.thealarms ≠ [])
    (flowcount : idsOf .imStartFlowCount w.daemon.timers.thealarms ≠ []) : Session w.daemon := by
  have held : Held w :=
    path.invariant (boot_held _ _ _ _) fun _ _ _ held met taken => step_held held met.1 taken
  have numbered := reached_numbered (path.weaken fun _ _ met => met.2)
  have reach := held.inReach calm
  have one (callback clientreg) (least : (idsOf callback w.daemon.timers.thealarms).Sublist [clientreg])
      (some : idsOf callback w.daemon.timers.thealarms ≠ []) :
      idsOf callback w.daemon.timers.thealarms = [clientreg] :=
    (List.sublist_singleton.mp least).resolve_left some
  refine ⟨⟨reach.opened (.inl hearbeat),one _ _ reach.oneEach.hearbeat hearbeat,one _ _ reach.oneEach.flowcount flowcount⟩,?_⟩
  refine ⟨numbered.distinct,numbered.below,numbered.repeats,?_⟩
  unfold Unwrapped at room
  split <;> omega

def beaten (d : Daemon) (t : Tick) : Daemon := (imCloudHeartbeat (d.setKeepacc t.imIsKeepacc) t.reply).daemon

theorem beaten_quiet (d : Daemon) (t : Tick) : Quiet d (beaten d t) :=
  (quiet_records d rfl : Quiet d (d.setKeepacc t.imIsKeepacc)).trans (imCloudHeartbeat_quiet _ t.reply)

theorem beaten_keepacc (d : Daemon) (t : Tick) : (beaten d t).records.keepacc.imIsKeepacc = t.imIsKeepacc := by
  have frame := (imJsonParseCloud_frame (d.setKeepacc t.imIsKeepacc).records t.reply.body t.reply.stack).keepacc
  unfold beaten imCloudHeartbeat
  dsimp only
  split <;> exact congrArg KeepaccCmd.imIsKeepacc frame

theorem beaten_warnings (d : Daemon) (t : Tick) : warnings (beaten d t) = warnings d := by
  have sent : (beaten d t).out = d.out ++ [.cloud (imJsonMakeCmdHeartbeat d.records.loginResp)] := by
    unfold beaten imCloudHeartbeat
    dsimp only
    split <;> rfl
  simp [warnings,sent,Output.isWillstop]

def counted (d : Daemon) (t : Tick) : Daemon :=
  let h := beaten d t
  if t.off = false then h
  else if d.cntTime+1 < 24 then {h with cntTime := d.cntTime+1}
  else if d.cntTime+1 = 24 then
    imBrocastToTerminal {h with cntTime := d.cntTime+1} .accWillstop (willstopText h.records)
  else imStopFlowCount (imStopHeartbeatCloud {h with cntTime := 0})

theorem imStartHeartbeatCloud_counted (d : Daemon) (t : Tick) :
    imStartHeartbeatCloud (d.setKeepacc t.imIsKeepacc) t.reply = counted d t := by
  have keep := beaten_keepacc d t
  have count := (beaten_quiet d t).cntTime
  unfold imStartHeartbeatCloud counted
  rw [show (imCloudHeartbeat (d.setKeepacc t.imIsKeepacc) t.reply).daemon = beaten d t from rfl]
  dsimp only
  rw [keep,count]
  by_cases off : t.imIsKeepacc = 0
  · rw [if_neg (not_not.mpr off),if_neg (show t.off ≠ false by simp [Tick.off,off])]
    rcases Nat.lt_trichotomy (d.cntTime+1) 24 with early | due | late
    · rw [if_neg (by omega),if_neg (by omega),if_pos early]
    · rw [if_pos due,if_neg (by omega),if_pos due]
    · rw [if_neg (by omega),if_pos late,if_neg (by omega),if_neg (by omega)]
  · rw [if_pos off,if_pos (by simp [Tick.off,off])]

theorem findIdx_hearbeat {d : Daemon} (one : idsOf .imStartHeartbeatCloud d.timers.thealarms = [d.timerHearbeat]) :
    ∃ a, d.timers.thealarms[d.timers.thealarms.findIdx (·.thecallback = .imStartHeartbeatCloud)]? = some a ∧
      a.thecallback = .imStartHeartbeatCloud ∧ a.clientreg = d.timerHearbeat := by
  have present : d.timerHearbeat ∈ idsOf .imStartHeartbeatCloud d.timers.thealarms := by simp [one]
  obtain ⟨b,member,callback,_⟩ := mem_idsOf.mp present
  have place : d.timers.thealarms.findIdx (·.thecallback = .imStartHeartbeatCloud) < d.timers.thealarms.length :=
    List.findIdx_lt_length_of_exists ⟨b,member,decide_eq_true callback⟩
  have first : d.timers.thealarms[d.timers.thealarms.findIdx (·.thecallback = .imStartHeartbeatCloud)].thecallback =
    .imStartHeartbeatCloud := of_decide_eq_true (List.findIdx_getElem (w := place))
  refine ⟨_,List.getElem?_eq_getElem place,first,?_⟩
  have handle := mem_idsOf.mpr ⟨_,List.getElem_mem place,first,rfl⟩
  rw [one] at handle
  exact List.mem_singleton.mp handle

theorem heartbeatTick_counted (registered : Registered d) (t : Tick) :
    heartbeatTick d t = some ((counted d t).reschedule d.timers.clock d.timerHearbeat) := by
  obtain ⟨a,place,callback,handle⟩ := findIdx_hearbeat registered.1
  have fires : (d.setKeepacc t.imIsKeepacc).timers.thealarms[
      d.timers.thealarms.findIdx (·.thecallback = .imStartHeartbeatCloud)]? = some a := place
  unfold heartbeatTick runAlarm
  rw [fires]
  simp only [callback,runCallback,Option.map_some,imStartHeartbeatCloud_counted,handle]
  rfl

theorem Session.keep (session : Session d) (after : Daemon) (same : after.accState = d.accState)
    (handles : after.timerHearbeat = d.timerHearbeat ∧ after.timerFlowcount = d.timerFlowcount)
    (ids : ∀ callback, callback ≠ .imUdpbrocastTimerProc →
      idsOf callback after.timers.thealarms = idsOf callback d.timers.thealarms)
    (numbered : Numbered (if after.cntTime < 24 then 1 else 0) after.timers) (now : Timeval) (clientreg : Nat) :
    Session (after.reschedule now clientreg) := by
  have queue (callback) : idsOf callback (after.reschedule now clientreg).timers.thealarms =
      idsOf callback after.timers.thealarms := by
    unfold idsOf
    rw [← reschedule_same now clientreg numbered.repeats]
    rfl
  refine ⟨⟨same.trans session.running.opened,?_,?_⟩,numbered.reschedule now clientreg⟩
  · rw [queue,ids _ (by decide),session.running.registered.1]
    exact congrArg (fun id => [id]) handles.1.symm
  · rw [queue,ids _ (by decide),session.running.registered.2]
    exact congrArg (fun id => [id]) handles.2.symm

theorem tick_on (session : Session d) (on : t.off = false) : ∃ after, heartbeatTick d t = some after ∧
    Session after ∧ after.cntTime = d.cntTime ∧ warnings after = warnings d := by
  have quiet := beaten_quiet d t
  have same : counted d t = beaten d t := if_pos on
  refine ⟨_,heartbeatTick_counted session.running.registered t,?_,?_,?_⟩
  · rw [same]
    refine session.keep (beaten d t) quiet.accState ⟨quiet.timerHearbeat,quiet.timerFlowcount⟩
      (fun _ _ => by rw [quiet.timers]) ?_ _ _
    rw [quiet.cntTime,quiet.timers]
    exact session.numbered
  · rw [same]; exact quiet.cntTime
  · rw [same]; exact beaten_warnings d t

theorem tick_early (session : Session d) (off : t.off = true) (early : d.cntTime+1 < 24) :
    ∃ after, heartbeatTick d t = some after ∧ Session after ∧ after.cntTime = d.cntTime+1 ∧
      warnings after = warnings d := by
  have quiet := beaten_quiet d t
  have same : counted d t = {beaten d t with cntTime := d.cntTime+1} := by
    unfold counted
    rw [if_neg (by simp [off]),if_pos early]
  refine ⟨_,heartbeatTick_counted session.running.registered t,?_,?_,?_⟩
  · rw [same]
    refine session.keep {beaten d t with cntTime := d.cntTime+1} quiet.accState
      ⟨quiet.timerHearbeat,quiet.timerFlowcount⟩ (fun _ _ => by rw [quiet.timers]) ?_ _ _
    have numbered := session.numbered
    rw [if_pos (by omega)] at numbered
    rw [if_pos early]
    exact quiet.timers ▸ numbered
  · rw [same]; rfl
  · rw [same]; exact beaten_warnings d t

theorem tick_warn (session : Session d) (off : t.off = true) (due : d.cntTime+1 = 24) :
    ∃ after, heartbeatTick d t = some after ∧ Session after ∧ after.cntTime = 24 ∧
      warnings after = warnings d + 1 := by
  have quiet := beaten_quiet d t
  have same : counted d t = imBrocastToTerminal {beaten d t with cntTime := d.cntTime+1} .accWillstop
      (willstopText (beaten d t).records) := by
    unfold counted
    rw [if_neg (by simp [off]),if_neg (by omega),if_pos due]
  refine ⟨_,heartbeatTick_counted session.running.registered t,?_,?_,?_⟩
  · rw [same]
    refine session.keep (imBrocastToTerminal {beaten d t with cntTime := d.cntTime+1} .accWillstop
      (willstopText (beaten d t).records)) quiet.accState ⟨quiet.timerHearbeat,quiet.timerFlowcount⟩
      (fun callback session => ?_) ?_ _ _
    · rw [imBrocastToTerminal_ids _ _ _ session,quiet.timers]
    · have numbered := session.numbered
      rw [if_pos (by omega)] at numbered
      change Numbered (if d.cntTime+1 < 24 then 1 else 0) _
      rw [if_neg (by omega)]
      exact imBrocastToTerminal_numbered (d := {beaten d t with cntTime := d.cntTime+1}) (quiet.timers ▸ numbered) _ _
  · rw [same]; exact due
  · rw [same]
    have before := beaten_warnings d t
    unfold warnings at before ⊢
    rw [← before]
    change List.countP _ ((beaten d t).out ++ [_]) = _
    simp [Output.isWillstop]

-- The tick after the warning unregisters both alarms and leaves the state OPENED.
theorem tick_stop (session : Session d) (off : t.off = true) (late : 24 < d.cntTime+1) :
    ∃ after, heartbeatTick d t = some after ∧ after.accState = .opened ∧
      idsOf .imStartHeartbeatCloud after.timers.thealarms = [] := by
  have quiet := beaten_quiet d t
  have same : counted d t = imStopFlowCount (imStopHeartbeatCloud {beaten d t with cntTime := 0}) := by
    unfold counted
    rw [if_neg (by simp [off]),if_neg (by omega),if_neg (by omega)]
  refine ⟨_,heartbeatTick_counted session.running.registered t,?_,?_⟩
  · rw [same]
    exact quiet.accState.trans session.running.opened
  · have gone : idsOf .imStartHeartbeatCloud (imStopHeartbeatCloud {beaten d t with cntTime := 0}).timers.thealarms = [] := by
      change idsOf _ (snmpAlarmUnregister (beaten d t).timerHearbeat (beaten d t).timers.thealarms) = []
      rw [quiet.timers,quiet.timerHearbeat]
      refine unregister_none session.numbered.distinct ?_
      rw [session.running.registered.1]
    have bare := (imStopFlowCount_fewer _).none (by decide) gone
    have least := idsOf_sublist .imStartHeartbeatCloud
      (reschedule_names d.timers.clock d.timerHearbeat (counted d t).timers.thealarms)
    rw [same,bare] at least
    rw [same]
    exact List.sublist_nil.mp least

theorem sessionRight_cons (ticked : heartbeatTick d t = some after) : SessionRight offs d (t :: rest) ↔
    TickRight offs t d after ∧ (offs + (if t.off then 1 else 0) < 25 →
      SessionRight (offs + if t.off then 1 else 0) after rest) := by
  simp only [SessionRight,ticked,Option.some.injEq]
  constructor
  · rintro ⟨_,rfl,right,later⟩; exact ⟨right,later⟩
  · rintro ⟨right,later⟩; exact ⟨after,rfl,right,later⟩

theorem session_right (ticks : List Tick) (session : Session d) (count : d.cntTime = begun+offs)
    (sofar : offs = 0 ∨ begun+offs < 24 ∨ begun = 0 ∧ offs = 24) :
    SessionRight offs d ticks ↔ offTicks ticks = 0 ∨ begun+offs+offTicks ticks < 24 ∨
      begun = 0 ∧ offs+offTicks ticks = 24 := by
  induction ticks generalizing d offs with
  | nil => simp [SessionRight,offTicks]
  | cons t rest ih =>
    cases off : t.off with
    | false =>
      obtain ⟨after,ticked,running,same,silent⟩ := tick_on session off
      have right : TickRight offs t d after := ⟨by simp [silent,off],by simp [off],fun _ => running.running⟩
      have later := ih running (same.trans count) sofar
      have few : offs < 25 := by omega
      rw [sessionRight_cons ticked]
      simp [right,off,few,later,offTicks]
    | true =>
      have more : offTicks (t :: rest) = offTicks rest + 1 := by simp [offTicks,off]
      rcases Nat.lt_trichotomy (d.cntTime+1) 24 with early | due | late
      · obtain ⟨after,ticked,running,next,silent⟩ := tick_early session off early
        have right : TickRight offs t d after :=
          ⟨by rw [if_neg (by omega)]; exact silent,by omega,fun _ => running.running⟩
        have later : SessionRight (offs+1) after rest ↔ _ := ih running (by omega) (by omega)
        rw [sessionRight_cons ticked,more]
        simp only [right,off,if_true,true_and,later]
        omega
      · obtain ⟨after,ticked,running,next,warned⟩ := tick_warn session off due
        rw [sessionRight_cons ticked,more]
        by_cases first : begun = 0
        · have right : TickRight offs t d after :=
            ⟨by rw [if_pos ⟨off,by omega⟩]; exact warned,by omega,fun _ => running.running⟩
          have later : SessionRight (offs+1) after rest ↔ _ := ih running (by omega) (by omega)
          simp only [right,off,if_true,true_and,later]
          omega
        · have wrong : ¬TickRight offs t d after := by
            intro right
            have silent := right.warned
            rw [if_neg (by omega)] at silent
            omega
          simp only [wrong,false_and,false_iff]
          omega
      · obtain ⟨after,ticked,opened,gone⟩ := tick_stop session off late
        have wrong : ¬TickRight offs t d after := by
          intro right
          by_cases last : offs+1 = 25
          · have closed := (right.ended ⟨off,last⟩).closed
            rw [opened] at closed; cases closed
          · have present := (right.running (by omega)).registered.1
            rw [gone] at present; cases present
        rw [sessionRight_cons ticked,more]
        simp only [wrong,false_and,false_iff]
        omega

-- No session survives its 25th tick without keepacc in order, nor its 24th counted from
-- anything but 0.
theorem sessionRight_exact (session : Session d) (ticks : List Tick) : SessionRight 0 d ticks ↔
    offTicks ticks = 0 ∨ d.cntTime + offTicks ticks < 24 ∨ d.cntTime = 0 ∧ offTicks ticks = 24 := by
  simpa using session_right ticks session (Nat.add_zero _).symm (.inl rfl)

def openedRun : List Event := started ++ [told .startAcc [delivered .startAcc msgCodeSucess [[]]]]

theorem openedRun_session : ∃ w, Transition.run step booted openedRun = some w ∧ Session w.daemon ∧ w.daemon.cntTime = 0 := by
  have ran : ((Transition.run step booted openedRun).map fun w =>
    (w.pollers.length,w.daemon.cntTime,w.daemon.timers.regnum,idsOf .imStartHeartbeatCloud w.daemon.timers.thealarms,
      idsOf .imStartFlowCount w.daemon.timers.thealarms)) = some (0,0,4,[2],[3]) := by decide
  obtain ⟨w,ran,seen⟩ := Option.map_eq_some_iff.mp ran
  obtain ⟨alone,count,number,hearbeat,flowcount⟩ : w.pollers = [] ∧ w.daemon.cntTime = 0 ∧
    w.daemon.timers.regnum = 4 ∧ idsOf .imStartHeartbeatCloud w.daemon.timers.thealarms = [2] ∧
    idsOf .imStartFlowCount w.daemon.timers.thealarms = [3] := by simpa using seen
  have path : Reached Orderly booted w := Transition.met_reached ran (by decide)
  have room : Unwrapped w .alarmInit := by unfold Unwrapped; rw [number]; decide
  exact ⟨w,ran,reached_session path (by simp [alone]) room (by simp [hearbeat]) (by simp [flowcount]),count⟩

def silentTicks (n : Nat) : List Tick := List.replicate n ⟨0,lost⟩

theorem sessionRight_warned : ∃ d, Session d ∧ SessionRight 0 d (silentTicks 24) := by
  obtain ⟨w,_,session,count⟩ := openedRun_session
  exact ⟨w.daemon,session,(sessionRight_exact session _).mpr (.inr (.inr ⟨count,by decide⟩))⟩

theorem SessionRight.ended (right : SessionRight offs d ticks) (off : ∀ t ∈ ticks, t.off = true)
    (last : offs + ticks.length = 25) (nonempty : ticks ≠ []) :
    ∃ after, Transition.run heartbeatTick d ticks = some after ∧ Ended after := by
  induction ticks generalizing offs d with
  | nil => exact absurd rfl nonempty
  | cons t rest ih =>
    obtain ⟨after,ticked,tick,later⟩ := right
    obtain ⟨now,others⟩ := List.forall_mem_cons.mp off
    simp only [now,if_true] at later
    cases rest with
    | nil =>
      exact ⟨after,by simp [Transition.run,ticked],tick.ended ⟨now,by simpa using last⟩⟩
    | cons next rest =>
      simp only [List.length_cons] at last ih
      obtain ⟨final,ran,ended⟩ := ih (later (by omega)) others (by omega) (by simp)
      exact ⟨final,by simpa [Transition.run,ticked] using ran,ended⟩

theorem session_left_open : ¬ ∀ d, Session d → ∀ ticks, SessionRight 0 d ticks := by
  intro always
  obtain ⟨w,ran,session,_⟩ := openedRun_session
  obtain ⟨after,ticked,ended⟩ := (always w.daemon session (silentTicks 25)).ended (by decide) rfl (by simp [silentTicks])
  have seen : ((Transition.run step booted openedRun).bind fun w =>
    (Transition.run heartbeatTick w.daemon (silentTicks 25)).map (·.accState)) = some .opened := by decide
  rw [ran,Option.bind_some,ticked] at seen
  have state : after.accState = .opened := by simpa using seen
  rw [ended.closed] at state
  cases state

end ImAcc
