import ImAcc.Requests

-- The alarms of a session against its two handles and its state.
namespace ImAcc
open JsonC

structure OneEach (d : Daemon) : Prop where
  hearbeat : (idsOf .imStartHeartbeatCloud d.timers.thealarms).Sublist [d.timerHearbeat]
  flowcount : (idsOf .imStartFlowCount d.timers.thealarms).Sublist [d.timerFlowcount]

structure InReach (d : Daemon) : Prop where
  oneEach : OneEach d
  opened : idsOf .imStartHeartbeatCloud d.timers.thealarms ≠ [] ∨ idsOf .imStartFlowCount d.timers.thealarms ≠ [] →
    d.accState = .opened

theorem Fewer.oneEach (fewer : Fewer before after) (one : OneEach before) : OneEach after := by
  constructor
  · rw [fewer.timerHearbeat]
    exact (fewer.ids _ (by decide)).trans one.hearbeat
  · rw [fewer.timerFlowcount]
    exact (fewer.ids _ (by decide)).trans one.flowcount

theorem Fewer.none (fewer : Fewer before after) (session : callback ≠ .imUdpbrocastTimerProc)
    (empty : idsOf callback before.timers.thealarms = []) : idsOf callback after.timers.thealarms = [] := by
  have least := fewer.ids callback session
  rw [empty] at least
  exact List.sublist_nil.mp least

-- Outside OPENED the queue holds at most the heartbeat alarm of a poller that is
-- between its two registrations.
structure Held (w : World) : Prop where
  alone : Alone w
  oneEach : OneEach w.daemon
  flowcount : w.daemon.accState ≠ .opened → idsOf .imStartFlowCount w.daemon.timers.thealarms = []
  hearbeat : w.daemon.accState ≠ .opened → (∀ p ∈ w.pollers, p.registering = false) →
    idsOf .imStartHeartbeatCloud w.daemon.timers.thealarms = []

theorem Held.fewer (held : Held w) (fewer : Fewer w.daemon d) : Held {w with daemon := d} := by
  refine ⟨held.alone.keep fewer.accState,fewer.oneEach held.oneEach,fun other => ?_,fun other calm => ?_⟩
  · exact fewer.none (by decide) (held.flowcount (fewer.accState ▸ other))
  · exact fewer.none (by decide) (held.hearbeat (fewer.accState ▸ other) calm)

theorem Held.inReach (held : Held w) (calm : ∀ p ∈ w.pollers, p.registering = false) : InReach w.daemon := by
  refine ⟨held.oneEach,fun registered => ?_⟩
  by_contra elsewhere
  rcases registered with hearbeat | flowcount
  · exact hearbeat (held.hearbeat elsewhere calm)
  · exact flowcount (held.flowcount elsewhere)

theorem boot_held (ulongBits : Nat) (uci : UciIsacc) (lanIp : Bytes) (ex : Exchange) :
    Held (World.boot ulongBits uci lanIp ex) := by
  have queue : (World.boot ulongBits uci lanIp ex).daemon.timers.thealarms = [] :=
    congrArg Timers.thealarms (World.boot_timers ulongBits uci lanIp ex)
  constructor
  · exact .inl rfl
  · constructor <;> rw [queue] <;> exact List.nil_sublist _
  · intro _; rw [queue]; rfl
  · intro _ _; rw [queue]; rfl

def Bare (d : Daemon) : Prop :=
  idsOf .imStartHeartbeatCloud d.timers.thealarms = [] ∧ idsOf .imStartFlowCount d.timers.thealarms = []

theorem Bare.oneEach (bare : Bare d) : OneEach d := by
  constructor
  · rw [bare.1]; exact List.nil_sublist _
  · rw [bare.2]; exact List.nil_sublist _

theorem Bare.timers (bare : Bare before) (same : after.timers = before.timers) : Bare after := by
  unfold Bare
  rw [same]
  exact bare

theorem Fewer.bare (fewer : Fewer before after) (bare : Bare before) : Bare after :=
  ⟨fewer.none (by decide) bare.1,fewer.none (by decide) bare.2⟩

theorem Bare.held (bare : Bare d) (alone : Alone ⟨d,pollers,request⟩) : Held ⟨d,pollers,request⟩ :=
  ⟨alone,bare.oneEach,fun _ => bare.2,fun _ _ => bare.1⟩

theorem Held.bare (held : Held w) (idle : w.daemon.accState = .closed) : Bare w.daemon := by
  have elsewhere : w.daemon.accState ≠ .opened := by rw [idle]; decide
  have none := held.alone.idle (by rw [idle]; rfl)
  exact ⟨held.hearbeat elsewhere (by simp [none]),held.flowcount elsewhere⟩

theorem registerHearbeat_oneEach (one : OneEach d)
    (none : idsOf .imStartHeartbeatCloud d.timers.thealarms = []) : OneEach d.registerHearbeat := by
  constructor
  · change (idsOf _ (snmpAlarmRegister _ _ _ _).1.thealarms).Sublist _
    rw [idsOf_register,none]
    exact .refl _
  · change (idsOf _ (snmpAlarmRegister _ _ _ _).1.thealarms).Sublist _
    rw [idsOf_register,if_neg (by decide),List.append_nil]
    exact one.flowcount

theorem registerFlowcount_oneEach (one : OneEach d)
    (none : idsOf .imStartFlowCount d.timers.thealarms = []) : OneEach d.registerFlowcount := by
  constructor
  · change (idsOf _ (snmpAlarmRegister _ _ _ _).1.thealarms).Sublist _
    rw [idsOf_register,if_neg (by decide),List.append_nil]
    exact one.hearbeat
  · change (idsOf _ (snmpAlarmRegister _ _ _ _).1.thealarms).Sublist _
    rw [idsOf_register,none]
    exact .refl _

theorem registerHearbeat_flowcount (d : Daemon) :
    idsOf .imStartFlowCount d.registerHearbeat.timers.thealarms = idsOf .imStartFlowCount d.timers.thealarms := by
  change idsOf _ (snmpAlarmRegister _ _ _ _).1.thealarms = _
  rw [idsOf_register,if_neg (by decide),List.append_nil]

theorem rollOpening_oneEach (bare : Bare d) : OneEach (rollOpening d) ∧
    idsOf .imStartFlowCount (rollOpening d).timers.thealarms = [] := by
  have noticed := (imBrocastToTerminal_fewer d .accSuccess (successText d.records)).bare bare
  refine ⟨registerHearbeat_oneEach noticed.oneEach noticed.1,?_⟩
  unfold rollOpening
  rw [registerHearbeat_flowcount]
  exact noticed.2

theorem startAccOpened_oneEach (bare : Bare d) : OneEach (startAccOpened d) := by
  have noticed := (imBrocastToTerminal_fewer {d with records := startedInfo d.records} .accSuccess
    (successText (startedInfo d.records))).bare (bare.timers rfl)
  have hearbeat := registerHearbeat_oneEach noticed.oneEach noticed.1
  have both := registerFlowcount_oneEach hearbeat ((registerHearbeat_flowcount _).trans noticed.2)
  exact ⟨both.hearbeat,both.flowcount⟩

theorem unregister_none (distinct : (alarms.map (·.clientreg)).Nodup)
    (one : (idsOf callback alarms).Sublist [clientreg]) :
    idsOf callback (snmpAlarmUnregister clientreg alarms) = [] := by
  have gone : clientreg ∉ _ := snmpAlarmUnregister_gone distinct
  have least := (idsOf_sublist callback ((snmpAlarmUnregister_sublist clientreg alarms).map _)).trans one
  rcases List.sublist_singleton.mp least with none | only
  · exact none
  · exact absurd ((idsOf_ids callback _).subset (by rw [only]; exact List.mem_singleton_self _)) gone

theorem accStopped_bare (one : OneEach d) (distinct : Distinct d) : Bare (accStopped d) := by
  have first : idsOf .imStartHeartbeatCloud (snmpAlarmUnregister d.timerHearbeat d.timers.thealarms) = [] :=
    unregister_none distinct one.hearbeat
  have fewer := snmpAlarmUnregister_sublist d.timerHearbeat d.timers.thealarms
  have second : idsOf .imStartFlowCount
      (snmpAlarmUnregister d.timerFlowcount (snmpAlarmUnregister d.timerHearbeat d.timers.thealarms)) = [] :=
    unregister_none (distinct.sublist (fewer.map _)) ((idsOf_sublist _ (fewer.map _)).trans one.flowcount)
  have stopped : Bare (imStopFlowCount (imStopHeartbeatCloud (d.setAccState .closed))) := by
    refine ⟨?_,second⟩
    exact (imStopFlowCount_fewer (imStopHeartbeatCloud (d.setAccState .closed))).none (by decide) first
  exact (imBrocastToTerminal_fewer _ .accStop _).bare stopped

-- Handles stay distinct for as long as the counter of registrations does not come round.
def Unwrapped (w : World) (_ : Event) : Prop := w.daemon.timers.regnum + 3 < 2^32

theorem reached_numbered (path : Reached Unwrapped (World.boot ulongBits uci lanIp ex) w) :
    Numbered 0 w.daemon.timers := by
  have start : Numbered 0 (World.boot ulongBits uci lanIp ex).daemon.timers := by
    rw [World.boot_timers]
    exact ⟨List.nodup_nil,nofun,nofun,by decide⟩
  exact path.invariant (I := fun u => Numbered 0 u.daemon.timers) start fun u event next numbered room taken =>
    step_numbered ⟨numbered.distinct,numbered.below,numbered.repeats,room⟩ taken

def Stoppable (w : World) : Event → Prop
  | .message pMsg _ _ replies =>
    stopTaken w.daemon pMsg replies = true → w.pollers = [] ∧ Distinct w.daemon
  | .isaccInit .. | .alarmInit | .poll .. | .resume .. | .alarm .. | .clock .. => True

instance (w : World) : (event : Event) → Decidable (Stoppable w event)
  | .message pMsg _ _ replies =>
    inferInstanceAs (Decidable (stopTaken w.daemon pMsg replies = true → w.pollers = [] ∧ Distinct w.daemon))
  | .isaccInit .. | .alarmInit | .poll .. | .resume .. | .alarm .. | .clock .. => isTrue trivial

theorem Stoppable.unstopped (met : Stoppable w event) : Unstopped w event := by
  cases event with
  | message pMsg thread header replies => exact fun taken => (met taken).1
  | _ => trivial

theorem asked_held (asked : Asked settled created state d replies d' spawned) (bare : Bare d)
    (alone : Alone ⟨d',pollers,request⟩) : Held ⟨d',pollers,request⟩ := by
  obtain ⟨begun,last,_,same,outcome⟩ := asked
  have begun_bare : Bare begun := bare.timers same.timers
  cases outcome with
  | closed keep => exact (begun_bare.timers keep.timers).held alone
  | delayed _ _ keep => exact (begun_bare.timers keep.timers).held alone
  | left _ _ keep => exact (begun_bare.timers keep.timers).held alone
  | opened _ keep =>
    have opened : d'.accState = .opened := keep.accState
    exact ⟨alone,keep.fewer.oneEach (startAccOpened_oneEach begun_bare),fun other => absurd opened other,
      fun other => absurd opened other⟩

theorem message_held (held : Held w) (met : Stoppable w (.message pMsg thread header replies))
    (taken : step w (.message pMsg thread header replies) = some next) : Held next := by
  have alone := message_alone held.alone met.unstopped taken
  obtain ⟨⟨after,errcode,data,spawned,rest⟩,ran,exact,rfl⟩ := step_message taken
  have handled := imHandleMsg_handles ran exact
  cases request : asks w.daemon pMsg with
  | none =>
    rw [request] at handled
    cases handled with
    | quiet keep =>
      refine ⟨alone,keep.fewer.oneEach held.oneEach,?_,?_⟩
      · intro other
        rw [keep.accState] at other
        exact keep.fewer.none (by decide) (held.flowcount other)
      · intro other calm
        rw [keep.accState] at other
        refine keep.fewer.none (by decide) (held.hearbeat other fun p member => calm p ?_)
        exact List.mem_append_left _ member
    | stopped command done =>
      obtain ⟨_,distinct⟩ := met (stopTaken_exact command done)
      obtain ⟨ex,mid,_,_,keep,stopped⟩ := done
      have same : Distinct mid := by unfold Distinct; rw [keep.timers]; exact distinct
      exact ((accStopped_bare (keep.fewer.oneEach held.oneEach) same).timers stopped.timers).held alone
  | some state =>
    rw [request] at handled
    cases handled with
    | asked asked => exact asked_held asked (held.bare (asks_idle request).1) alone

theorem isaccInit_held (held : Held w) (taken : step w (.isaccInit thread header replies) = some next) :
    Held next := by
  have alone := isaccInit_alone held.alone taken
  obtain ⟨q,ran,exact,rfl⟩ := step_isaccInit taken
  by_cases idle : w.daemon.accState = .closed
  · exact asked_held (imAutoQueryIsacc_asked ran exact idle) (held.bare idle) alone
  · rw [imAutoQueryIsacc_idle idle] at ran
    cases ran
    refine ⟨alone,held.oneEach,held.flowcount,fun other calm => ?_⟩
    exact held.hearbeat other fun p member => calm p (List.mem_append_left _ member)

theorem poll_held (held : Held w) (taken : step w (.poll i replies) = some next) : Held next := by
  have alone := poll_alone held.alone taken
  obtain ⟨p,⟨after,kept,rest⟩,found,idle,ran,rfl⟩ := step_poll taken
  obtain ⟨rfl,one,waiting⟩ := held.alone.only found
  have elsewhere := AccOpenState.transient_unopened waiting
  have bare : Bare w.daemon := ⟨held.hearbeat elsewhere (by simpa [one] using idle),held.flowcount elsewhere⟩
  have rolled := imRollqueryThread_rolls ran idle
  cases rolled with
  | registering keep state made busy =>
    subst made
    obtain ⟨each,flowcount⟩ := rollOpening_oneEach (bare.timers keep.timers)
    refine ⟨alone,each,fun _ => flowcount,fun _ calm => ?_⟩
    simp [one,busy] at calm
  | closed keep => exact (bare.timers keep.timers).held alone
  | ended keep => exact (bare.timers keep.timers).held alone
  | again keep => exact (bare.timers keep.timers).held alone

theorem resume_held (held : Held w) (taken : step w (.resume i) = some next) : Held next := by
  obtain ⟨p,found,_,rfl⟩ := step_resume taken
  obtain ⟨rfl,one,waiting⟩ := held.alone.only found
  have elsewhere := AccOpenState.transient_unopened waiting
  have both := registerFlowcount_oneEach held.oneEach (held.flowcount elsewhere)
  exact ⟨.inl (by simp [one]),⟨both.hearbeat,both.flowcount⟩,fun other => absurd rfl other,fun other => absurd rfl other⟩

theorem step_held (held : Held w) (met : Stoppable w event) (taken : step w event = some next) : Held next := by
  cases event with
  | isaccInit thread header replies => exact isaccInit_held held taken
  | message pMsg thread header replies => exact message_held held met taken
  | poll i replies => exact poll_held held taken
  | resume i => exact resume_held held taken
  | alarm i ifaList replies =>
    obtain ⟨result,ran,rfl⟩ := step_alarm taken
    exact held.fewer (runAlarm_fewer ran)
  | alarmInit =>
    cases taken
    have queue := (setAnAlarm_queue {w.daemon.timers with startAlarms := true}).1
    refine held.fewer ⟨rfl,rfl,rfl,fun callback _ => ?_⟩
    unfold initAlarmPostConfig
    rw [queue]
  | clock now => cases taken; exact held.fewer ⟨rfl,rfl,rfl,fun _ _ => .refl _⟩

-- Whatever the interleaving: while no poller is between its registrations, every
-- alarm of a session is within reach of its handle, and there is a session.
theorem reached_inReach (path : Reached Stoppable (World.boot ulongBits uci lanIp ex) w)
    (calm : ∀ p ∈ w.pollers, p.registering = false) : InReach w.daemon := by
  have held : Held w := path.invariant (boot_held _ _ _ _) fun _ _ _ held met taken => step_held held met taken
  exact held.inReach calm

theorem reached_inReach_opened : ∃ w : World, w.daemon.accState = .opened ∧
    idsOf .imStartHeartbeatCloud w.daemon.timers.thealarms = [2] ∧ InReach w.daemon := by
  have ran : ((Transition.run step booted (started ++ [told .startAcc [delivered .startAcc msgCodeSucess [[]]]])).map
    fun w => (w.daemon.accState,idsOf .imStartHeartbeatCloud w.daemon.timers.thealarms,w.pollers.length)) =
      some (.opened,[2],0) := by decide
  obtain ⟨w,ran,seen⟩ := Option.map_eq_some_iff.mp ran
  obtain ⟨state,ids,alone⟩ : w.daemon.accState = .opened ∧
    idsOf .imStartHeartbeatCloud w.daemon.timers.thealarms = [2] ∧ w.pollers = [] := by simpa using seen
  exact ⟨w,state,ids,reached_inReach (Transition.met_reached ran (by decide)) (by simp [alone])⟩

-- START_ACC delayed, STOP_ACC, START_ACC delayed: both pollers find their result.
def opensTwice : List Event :=
  started ++ [told .startAcc [taskReply .startAcc],told .stopAcc [delivered .stopAcc msgCodeSucess []],
    told .startAcc [taskReply .startAcc],.poll 0 [delivered .getTaskresult msgCodeSucess [[]]],
    .poll 1 [delivered .getTaskresult msgCodeSucess [[]]],.resume 0,.resume 0]

theorem reached_outOfReach : ¬ ∀ ulongBits uci lanIp ex w, Reached Transition.free (World.boot ulongBits uci lanIp ex) w →
    (∀ p ∈ w.pollers, p.registering = false) → InReach w.daemon := by
  intro always
  have ran : ((Transition.run step booted opensTwice).map fun w =>
    (w.pollers.length,(idsOf .imStartHeartbeatCloud w.daemon.timers.thealarms).length)) = some (0,2) := by decide
  obtain ⟨w,ran,seen⟩ := Option.map_eq_some_iff.mp ran
  obtain ⟨alone,both⟩ : w.pollers = [] ∧ (idsOf .imStartHeartbeatCloud w.daemon.timers.thealarms).length = 2 := by
    simpa using seen
  have least := (always _ _ _ _ w (Transition.run_reached ran) (by simp [alone])).oneEach.hearbeat.length_le
  rw [both] at least
  simp at least

end ImAcc
