import ImAcc.Control
import Mathlib.Data.List.Nodup

-- The alarm queue by what never changes in an entry: callback, handle, flags, interval.
namespace ImAcc
open JsonC

def names (alarms : List SnmpAlarm) : List (SnmpAlarmCallback × Nat × Nat × Timeval) :=
  alarms.map fun a => (a.thecallback,a.clientreg,a.flags,a.t)

def idsOf (callback : SnmpAlarmCallback) (alarms : List SnmpAlarm) : List Nat :=
  ((names alarms).filter (·.1 = callback)).map (·.2.1)

theorem mem_idsOf : clientreg ∈ idsOf callback alarms ↔
    ∃ a ∈ alarms, a.thecallback = callback ∧ a.clientreg = clientreg := by
  simp only [idsOf,names,List.mem_map,List.mem_filter,decide_eq_true_eq]
  constructor
  · rintro ⟨_,⟨⟨a,member,rfl⟩,same⟩,rfl⟩
    exact ⟨a,member,same,rfl⟩
  · rintro ⟨a,member,same,rfl⟩
    exact ⟨_,⟨⟨a,member,rfl⟩,same⟩,rfl⟩

theorem idsOf_sublist (callback : SnmpAlarmCallback) (fewer : (names after).Sublist (names before)) :
    (idsOf callback after).Sublist (idsOf callback before) := (fewer.filter _).map _

theorem idsOf_ids (callback : SnmpAlarmCallback) (alarms : List SnmpAlarm) :
    (idsOf callback alarms).Sublist (alarms.map (·.clientreg)) := by
  have ids : alarms.map (·.clientreg) = (names alarms).map (·.2.1) := by simp [names]
  rw [ids]
  exact List.filter_sublist.map _

theorem setAnAlarm_parts (s : Timers) : ∃ itimer, setAnAlarm s = {s with itimer := itimer} := by
  unfold setAnAlarm
  split
  · exact ⟨s.itimer,rfl⟩
  · split
    · exact ⟨s.itimer,rfl⟩
    · exact ⟨_,rfl⟩

theorem setAnAlarm_queue (s : Timers) : (setAnAlarm s).thealarms = s.thealarms ∧ (setAnAlarm s).regnum = s.regnum := by
  obtain ⟨itimer,made⟩ := setAnAlarm_parts s
  rw [made]
  exact ⟨rfl,rfl⟩

theorem snmpAlarmRegister_parts (s : Timers) (seconds flags : Nat) (callback : SnmpAlarmCallback) :
    ∃ itimer, (snmpAlarmRegister s seconds flags callback).1 = {s with
      thealarms := s.thealarms ++
        [{freshAlarm s seconds flags callback with tLast := s.clock,tNext := s.clock.add (interval seconds)}]
      regnum := (s.regnum+1) % 2^32,itimer := itimer} := by
  unfold snmpAlarmRegister
  dsimp only
  split
  · obtain ⟨itimer,made⟩ := setAnAlarm_parts {s with
      thealarms := s.thealarms ++ (saUpdateEntry s.clock (freshAlarm s seconds flags callback)).toList
      regnum := (s.regnum+1) % 2^32}
    exact ⟨itimer,made⟩
  · exact ⟨s.itimer,rfl⟩

theorem snmpAlarmRegister_queue (s : Timers) (seconds flags : Nat) (callback : SnmpAlarmCallback) :
    (snmpAlarmRegister s seconds flags callback).1.thealarms = s.thealarms ++
        [{freshAlarm s seconds flags callback with tLast := s.clock,tNext := s.clock.add (interval seconds)}] ∧
      (snmpAlarmRegister s seconds flags callback).1.regnum = (s.regnum+1) % 2^32 := by
  obtain ⟨itimer,made⟩ := snmpAlarmRegister_parts s seconds flags callback
  rw [made]
  exact ⟨rfl,rfl⟩

def registeredAlarm (s : Timers) (seconds flags : Nat) (callback : SnmpAlarmCallback) : SnmpAlarm :=
  {freshAlarm s seconds flags callback with tLast := s.clock,tNext := s.clock.add (interval seconds)}

theorem imUdpbrocastTimerStart_parts (s : Timers) (text : Bytes) : ∃ itimer, imUdpbrocastTimerStart s text = {s with
    thealarms := s.thealarms ++ [registeredAlarm s 0 saRepeat .imUdpbrocastTimerProc]
    regnum := (s.regnum+1) % 2^32,itimer := itimer,udpFuncArg := text,handleT0 := s.regnum} := by
  obtain ⟨itimer,made⟩ := snmpAlarmRegister_parts {s with udpFuncArg := text} 0 saRepeat .imUdpbrocastTimerProc
  exact ⟨itimer,congrArg (fun t : Timers => {t with handleT0 := s.regnum}) made⟩

theorem snmpAlarmRegister_names (s : Timers) (seconds flags : Nat) (callback : SnmpAlarmCallback) :
    names (snmpAlarmRegister s seconds flags callback).1.thealarms = names s.thealarms ++
      [(callback,s.regnum,flags,interval seconds)] := by
  rw [(snmpAlarmRegister_queue s seconds flags callback).1]
  simp [names,freshAlarm]

theorem idsOf_register (wanted : SnmpAlarmCallback) (s : Timers) (seconds flags : Nat) (callback : SnmpAlarmCallback) :
    idsOf wanted (snmpAlarmRegister s seconds flags callback).1.thealarms =
      idsOf wanted s.thealarms ++ if callback = wanted then [s.regnum] else [] := by
  unfold idsOf
  rw [snmpAlarmRegister_names]
  by_cases same : callback = wanted <;> simp [same]

theorem snmpAlarmUnregister_eraseP (clientreg : Nat) (alarms : List SnmpAlarm) :
    snmpAlarmUnregister clientreg alarms = alarms.eraseP (·.clientreg = clientreg) := by
  induction alarms with
  | nil => rfl
  | cons a rest ih =>
    by_cases found : a.clientreg = clientreg
    · simp [snmpAlarmUnregister,found]
    · simp [snmpAlarmUnregister,found,ih]

theorem snmpAlarmUnregister_sublist (clientreg : Nat) (alarms : List SnmpAlarm) :
    (snmpAlarmUnregister clientreg alarms).Sublist alarms := by
  rw [snmpAlarmUnregister_eraseP]
  exact List.eraseP_sublist

def Distinct (d : Daemon) : Prop := (d.timers.thealarms.map (·.clientreg)).Nodup

instance (d : Daemon) : Decidable (Distinct d) := inferInstanceAs (Decidable (List.Nodup _))

theorem snmpAlarmUnregister_gone (distinct : (alarms.map (·.clientreg)).Nodup) :
    clientreg ∉ (snmpAlarmUnregister clientreg alarms).map (·.clientreg) := by
  induction alarms with
  | nil => simp [snmpAlarmUnregister]
  | cons a rest ih =>
    obtain ⟨fresh,others⟩ := List.nodup_cons.mp distinct
    unfold snmpAlarmUnregister
    split
    · rename_i found
      rwa [← found]
    · rename_i other
      rw [List.map_cons,List.mem_cons,not_or]
      exact ⟨fun same => other same.symm,ih others⟩

theorem saUpdateEntry_name (updated : saUpdateEntry now a = some b) :
    (b.thecallback,b.clientreg,b.flags,b.t) = (a.thecallback,a.clientreg,a.flags,a.t) := by
  unfold saUpdateEntry at updated
  split at updated
  · cases updated; rfl
  · split at updated
    · split at updated
      · split at updated
        · cases updated
        · cases updated; rfl
      · cases updated
    · cases updated; rfl

theorem reschedule_names (now : Timeval) (clientreg : Nat) (alarms : List SnmpAlarm) :
    (names (reschedule now clientreg alarms)).Sublist (names alarms) := by
  induction alarms with
  | nil => exact .refl _
  | cons a rest ih =>
    unfold reschedule
    split
    · cases updated : saUpdateEntry now {a with tLast := now,tNext := timevalZero} with
      | none => exact List.sublist_cons_self _ _
      | some b =>
        have same := saUpdateEntry_name updated
        simp only [names,Option.toList,List.cons_append,List.nil_append,List.map_cons,same]
        exact .refl _
    · exact ih.cons_cons _

-- A callback registers no heartbeat and no flow-count alarm, and keeps the handles.
structure Fewer (before after : Daemon) : Prop where
  accState : after.accState = before.accState
  timerHearbeat : after.timerHearbeat = before.timerHearbeat
  timerFlowcount : after.timerFlowcount = before.timerFlowcount
  ids : ∀ callback, callback ≠ .imUdpbrocastTimerProc →
    (idsOf callback after.timers.thealarms).Sublist (idsOf callback before.timers.thealarms)

theorem Fewer.trans (ab : Fewer a b) (bc : Fewer b c) : Fewer a c :=
  ⟨bc.accState.trans ab.accState,bc.timerHearbeat.trans ab.timerHearbeat,bc.timerFlowcount.trans ab.timerFlowcount,
   fun callback session => (bc.ids callback session).trans (ab.ids callback session)⟩

theorem Quiet.fewer (same : Quiet a b) : Fewer a b :=
  ⟨same.accState,same.timerHearbeat,same.timerFlowcount,fun _ _ => by rw [same.timers]⟩

theorem imBrocastToTerminal_ids (d : Daemon) (notyType : BrocastNotifyType) (notyData : Bytes)
    (session : callback ≠ .imUdpbrocastTimerProc) :
    idsOf callback (imBrocastToTerminal d notyType notyData).timers.thealarms = idsOf callback d.timers.thealarms := by
  change idsOf callback (snmpAlarmRegister _ _ _ _).1.thealarms = _
  rw [idsOf_register,if_neg session.symm,List.append_nil]

theorem imBrocastToTerminal_fewer (d : Daemon) (notyType : BrocastNotifyType) (notyData : Bytes) :
    Fewer d (imBrocastToTerminal d notyType notyData) :=
  ⟨rfl,rfl,rfl,fun _ session => by rw [imBrocastToTerminal_ids d notyType notyData session]⟩

theorem imStopHeartbeatCloud_fewer (d : Daemon) : Fewer d (imStopHeartbeatCloud d) :=
  ⟨rfl,rfl,rfl,fun callback _ => idsOf_sublist callback ((snmpAlarmUnregister_sublist _ _).map _)⟩

theorem imStopFlowCount_fewer (d : Daemon) : Fewer d (imStopFlowCount d) :=
  ⟨rfl,rfl,rfl,fun callback _ => idsOf_sublist callback ((snmpAlarmUnregister_sublist _ _).map _)⟩

theorem imStartHeartbeatCloud_fewer (d : Daemon) (ex : Exchange) : Fewer d (imStartHeartbeatCloud d ex) := by
  have sent := (imCloudHeartbeat_quiet d ex).fewer
  have counted (d : Daemon) (cntTime : Nat) : Fewer d {d with cntTime := cntTime} :=
    ⟨rfl,rfl,rfl,fun _ _ => .refl _⟩
  unfold imStartHeartbeatCloud
  dsimp only
  split
  · exact sent
  · split
    · exact (sent.trans (counted _ _)).trans (imBrocastToTerminal_fewer _ _ _)
    · split
      · have stopped (d : Daemon) := (imStopHeartbeatCloud_fewer d).trans (imStopFlowCount_fewer _)
        exact (sent.trans (counted _ 0)).trans (stopped _)
      · exact sent.trans (counted _ _)

theorem runCallback_fewer (ran : runCallback d callback ifaList replies = some result) : Fewer d result.1 := by
  unfold runCallback at ran
  cases callback with
  | imStartHeartbeatCloud =>
    cases replies with
    | nil => cases ran
    | cons ex rest => cases ran; exact imStartHeartbeatCloud_fewer d ex
  | imStartFlowCount =>
    have keep := imStartFlowCount_quiet ran
    exact ⟨keep.accState,keep.timerHearbeat,keep.timerFlowcount,fun callback session => keep.fewer.ids callback session⟩
  | imUdpbrocastTimerProc =>
    cases ran
    refine ⟨?_,?_,?_,fun callback _ => idsOf_sublist callback ?_⟩
    all_goals unfold sendUdp imUdpbrocastTimerProc; dsimp only; split
    all_goals first | rfl | exact .refl _ | exact (snmpAlarmUnregister_sublist _ _).map _

theorem runAlarm_fewer (ran : runAlarm d i ifaList replies = some result) : Fewer d result.1 := by
  unfold runAlarm at ran
  cases place : d.timers.thealarms[i]? with
  | none => simp [place] at ran
  | some a =>
    simp only [place] at ran
    obtain ⟨called,back,rfl⟩ := Option.map_eq_some_iff.mp ran
    have moved : Fewer called.1 (called.1.reschedule d.timers.clock a.clientreg) :=
      ⟨rfl,rfl,rfl,fun callback _ => idsOf_sublist callback (reschedule_names _ _ _)⟩
    exact (runCallback_fewer back).trans moved

def SnmpAlarm.Repeats (a : SnmpAlarm) : Prop := a.flags = saRepeat ∧ a.t ≠ timevalZero

-- The handles are distinct and below regnum, and n more fit before it comes round.
structure Numbered (n : Nat) (s : Timers) : Prop where
  distinct : (s.thealarms.map (·.clientreg)).Nodup
  below : ∀ a ∈ s.thealarms, a.clientreg < s.regnum
  repeats : ∀ a ∈ s.thealarms, a.Repeats
  room : s.regnum + n < 2^32

theorem Numbered.spare (numbered : Numbered (n+k) s) : Numbered n s :=
  ⟨numbered.distinct,numbered.below,numbered.repeats,by have := numbered.room; omega⟩

theorem Numbered.fewer (numbered : Numbered n s) (fewer : (names s'.thealarms).Sublist (names s.thealarms))
    (number : s'.regnum = s.regnum) : Numbered n s' := by
  have ids (alarms : List SnmpAlarm) : alarms.map (·.clientreg) = (names alarms).map (·.2.1) := by simp [names]
  have old (a : SnmpAlarm) (member : a ∈ s'.thealarms) :
      ∃ b ∈ s.thealarms, (b.thecallback,b.clientreg,b.flags,b.t) = (a.thecallback,a.clientreg,a.flags,a.t) :=
    List.mem_map.mp (fewer.subset (List.mem_map_of_mem member))
  constructor
  · have distinct := numbered.distinct
    rw [ids] at distinct ⊢
    exact distinct.sublist (fewer.map _)
  · intro a member
    obtain ⟨b,before,same⟩ := old a member
    simp only [Prod.mk.injEq] at same
    rw [number,← same.2.1]
    exact numbered.below b before
  · intro a member
    obtain ⟨b,before,same⟩ := old a member
    simp only [Prod.mk.injEq] at same
    unfold SnmpAlarm.Repeats
    rw [← same.2.2.1,← same.2.2.2]
    exact numbered.repeats b before
  · rw [number]
    exact numbered.room

theorem interval_nonzero (seconds : Nat) : interval seconds ≠ timevalZero := by
  unfold interval
  split
  · decide
  · intro zero
    have seconds : (seconds : Int) = 0 := congrArg Timeval.tvSec zero
    omega

theorem Numbered.register (numbered : Numbered (n+1) s) (seconds : Nat) (callback : SnmpAlarmCallback) :
    Numbered n (snmpAlarmRegister s seconds saRepeat callback).1 := by
  obtain ⟨queue,number⟩ := snmpAlarmRegister_queue s seconds saRepeat callback
  have room := numbered.room
  have next : (s.regnum+1) % 2^32 = s.regnum+1 := Nat.mod_eq_of_lt (by omega)
  constructor
  · rw [queue,List.map_append]
    refine List.nodup_append.mpr ⟨numbered.distinct,by simp,?_⟩
    intro id old id' new same
    obtain ⟨a,member,rfl⟩ := List.mem_map.mp old
    have fresh : id' = s.regnum := by simpa [freshAlarm] using new
    have bound := numbered.below a member
    omega
  · intro a member
    rw [queue] at member
    rw [number,next]
    rcases List.mem_append.mp member with old | new
    · have bound := numbered.below a old
      omega
    · rw [List.mem_singleton.mp new]
      simp [freshAlarm]
  · intro a member
    rw [queue] at member
    rcases List.mem_append.mp member with old | new
    · exact numbered.repeats a old
    · rw [List.mem_singleton.mp new]
      exact ⟨rfl,interval_nonzero seconds⟩
  · rw [number,next]
    omega

theorem Numbered.unregister (numbered : Numbered n s) (clientreg : Nat) :
    Numbered n {s with thealarms := snmpAlarmUnregister clientreg s.thealarms} :=
  numbered.fewer ((snmpAlarmUnregister_sublist _ _).map _) rfl

theorem Numbered.reschedule (numbered : Numbered n s) (now : Timeval) (clientreg : Nat) :
    Numbered n {s with thealarms := ImAcc.reschedule now clientreg s.thealarms} :=
  numbered.fewer (reschedule_names now clientreg s.thealarms) rfl

theorem imBrocastToTerminal_numbered (numbered : Numbered (n+1) d.timers) (notyType : BrocastNotifyType)
    (notyData : Bytes) : Numbered n (imBrocastToTerminal d notyType notyData).timers := by
  have listed : Numbered (n+1) {d.timers with udpFuncArg := udpInfo notyType notyData} :=
    ⟨numbered.distinct,numbered.below,numbered.repeats,numbered.room⟩
  have made := listed.register 0 .imUdpbrocastTimerProc
  exact ⟨made.distinct,made.below,made.repeats,made.room⟩

theorem registerHearbeat_numbered {d : Daemon} (numbered : Numbered (n+1) d.timers) : Numbered n d.registerHearbeat.timers :=
  numbered.register _ _

theorem registerFlowcount_numbered {d : Daemon} (numbered : Numbered (n+1) d.timers) : Numbered n d.registerFlowcount.timers :=
  numbered.register _ _

theorem imStartHeartbeatCloud_numbered (numbered : Numbered (n+1) d.timers) (ex : Exchange) :
    Numbered n (imStartHeartbeatCloud d ex).timers := by
  have sent : Numbered (n+1) (imCloudHeartbeat d ex).daemon.timers := (imCloudHeartbeat_quiet d ex).timers ▸ numbered
  have spared := sent.spare
  unfold imStartHeartbeatCloud
  dsimp only
  split
  · exact spared
  · split
    · exact imBrocastToTerminal_numbered (d := {(imCloudHeartbeat d ex).daemon with cntTime := _}) sent _ _
    · split
      · exact (spared.unregister _).unregister _
      · exact spared

theorem runCallback_numbered (numbered : Numbered (n+1) d.timers)
    (ran : runCallback d callback ifaList replies = some result) : Numbered n result.1.timers := by
  have spared := numbered.spare
  unfold runCallback at ran
  cases callback with
  | imStartHeartbeatCloud =>
    cases replies with
    | nil => cases ran
    | cons ex rest => cases ran; exact imStartHeartbeatCloud_numbered numbered ex
  | imStartFlowCount =>
    have keep : result.1.timers = d.timers := (imStartFlowCount_quiet ran).timers
    rw [keep]
    exact spared
  | imUdpbrocastTimerProc =>
    cases ran
    have dropped := spared.unregister d.timers.handleT0
    unfold sendUdp imUdpbrocastTimerProc
    dsimp only
    split
    · exact ⟨spared.distinct,spared.below,spared.repeats,spared.room⟩
    · exact ⟨dropped.distinct,dropped.below,dropped.repeats,dropped.room⟩

theorem runAlarm_numbered (numbered : Numbered (n+1) d.timers)
    (ran : runAlarm d i ifaList replies = some result) : Numbered n result.1.timers := by
  unfold runAlarm at ran
  cases place : d.timers.thealarms[i]? with
  | none => simp [place] at ran
  | some a =>
    simp only [place] at ran
    obtain ⟨called,back,rfl⟩ := Option.map_eq_some_iff.mp ran
    exact (runCallback_numbered numbered back).reschedule _ _

theorem Asked.numbered (asked : Asked settled created state d replies d' spawned)
    (numbered : Numbered (n+3) d.timers) : Numbered n d'.timers := by
  obtain ⟨begun,last,_,same,outcome⟩ := asked
  have kept : Numbered (n+3) begun.timers := same.timers ▸ numbered
  cases outcome with
  | closed keep => rw [keep.timers]; exact kept.spare
  | delayed _ _ keep => rw [keep.timers]; exact kept.spare
  | left _ _ keep => rw [keep.timers]; exact kept.spare
  | opened _ keep =>
    rw [keep.timers]
    have noticed := imBrocastToTerminal_numbered (d := {begun with records := startedInfo begun.records})
      (n := n+2) kept .accSuccess (successText (startedInfo begun.records))
    exact registerFlowcount_numbered (registerHearbeat_numbered (n := n+1) noticed)

theorem step_numbered (numbered : Numbered (n+3) w.daemon.timers) (taken : step w event = some next) :
    Numbered n next.daemon.timers := by
  cases event with
  | isaccInit thread header replies =>
    obtain ⟨q,ran,exact,rfl⟩ := step_isaccInit taken
    by_cases idle : w.daemon.accState = .closed
    · exact (imAutoQueryIsacc_asked ran exact idle).numbered numbered
    · rw [imAutoQueryIsacc_idle idle] at ran
      cases ran
      exact numbered.spare
  | message pMsg thread header replies =>
    obtain ⟨⟨after,errcode,data,spawned,rest⟩,ran,exact,rfl⟩ := step_message taken
    have handled := imHandleMsg_handles ran exact
    generalize asks w.daemon pMsg = request at handled
    cases handled with
    | quiet keep => exact (keep.timers ▸ numbered).spare
    | stopped _ taken =>
      obtain ⟨ex,mid,_,_,keep,done⟩ := taken
      have kept : Numbered (n+2+1) mid.timers := keep.timers ▸ numbered
      have dropped := (kept.unregister mid.timerHearbeat).unregister mid.timerFlowcount
      have noticed := imBrocastToTerminal_numbered
        (d := imStopFlowCount (imStopHeartbeatCloud (mid.setAccState .closed))) dropped .accStop (brocastNotify .accStop)
      exact (done.timers ▸ noticed).spare
    | asked asked => exact asked.numbered numbered
  | poll i replies =>
    obtain ⟨p,⟨after,kept,rest⟩,found,idle,ran,rfl⟩ := step_poll taken
    cases imRollqueryThread_rolls ran idle with
    | registering keep _ made =>
      subst made
      have same : Numbered (n+1+1+1) _ := keep.timers ▸ numbered
      exact (registerHearbeat_numbered (imBrocastToTerminal_numbered same _ _)).spare
    | closed keep => exact (keep.timers ▸ numbered).spare
    | ended keep => exact (keep.timers ▸ numbered).spare
    | again keep => exact (keep.timers ▸ numbered).spare
  | resume i =>
    obtain ⟨p,_,_,rfl⟩ := step_resume taken
    exact (registerFlowcount_numbered (n := n+2) numbered).spare
  | alarm i ifaList replies =>
    obtain ⟨result,ran,rfl⟩ := step_alarm taken
    exact (runAlarm_numbered (n := n+2) numbered ran).spare
  | alarmInit =>
    cases taken
    obtain ⟨queue,number⟩ := setAnAlarm_queue {w.daemon.timers with startAlarms := true}
    exact numbered.spare.fewer (by unfold initAlarmPostConfig; rw [queue]) number
  | clock now => cases taken; exact ⟨numbered.distinct,numbered.below,numbered.repeats,numbered.spare.room⟩

end ImAcc
