import ImAcc.AlarmQueue

-- Handles against subsystems, told by their callbacks.
namespace ImAcc
open JsonC Transition

structure Unregister where
  subsystem : SnmpAlarmCallback
  clientreg : Nat
  deriving DecidableEq

-- im_stop_heartbeat_cloud, then im_stop_flow_count.
def stopCalls (d : Daemon) : List Unregister :=
  [⟨.imStartHeartbeatCloud,d.timerHearbeat⟩,⟨.imStartFlowCount,d.timerFlowcount⟩]

def firing (w : World) : Event → Option SnmpAlarmCallback
  | .alarm i _ _ => (w.daemon.timers.thealarms[i]?).map (·.thecallback)
  | _ => none

-- An accepted STOP_ACC, or a heartbeat that finds the time without keepacc over.
def stopping (w : World) (event : Event) : Bool :=
  match event with
  | .message pMsg _ _ replies => stops w.daemon pMsg && replies.head?.any fun ex => accepts w.daemon.accState ex.body
  | event => firing w event = some .imStartHeartbeatCloud && w.daemon.records.keepacc.imIsKeepacc = 0 &&
    24 < w.daemon.cntTime+1

def unregisters (w : World) (event : Event) : List Unregister :=
  if stopping w event then stopCalls w.daemon
  else if firing w event = some .imUdpbrocastTimerProc ∧ 4 ≤ w.daemon.timers.udpTime then
    [⟨.imUdpbrocastTimerProc,w.daemon.timers.handleT0⟩]
  else []

def Daemon.withAlarms (d : Daemon) (alarms : List SnmpAlarm) : Daemon :=
  {d with timers := {d.timers with thealarms := alarms}}

def unregistered (calls : List Unregister) (alarms : List SnmpAlarm) : List SnmpAlarm :=
  calls.foldl (fun alarms call => snmpAlarmUnregister call.clientreg alarms) alarms

-- What the call leaves: everything, or everything but one alarm of its own subsystem.
def RemovesOwn (subsystem : SnmpAlarmCallback) (before after : List SnmpAlarm) : Prop :=
  after = before ∨ ∃ early a late, before = early ++ a :: late ∧ after = early ++ late ∧ a.thecallback = subsystem

def RemoveOwn : List Unregister → List SnmpAlarm → Prop
  | [],_ => True
  | call :: rest,alarms =>
    RemovesOwn call.subsystem alarms (snmpAlarmUnregister call.clientreg alarms) ∧
      RemoveOwn rest (snmpAlarmUnregister call.clientreg alarms)

-- The alarms registered in a step, from what the counter of handles shows of them.
def registrations (before after : Daemon) : Nat := (after.timers.regnum+2^32-before.timers.regnum) % 2^32

def countedStep (s : World × Nat) (event : Event) : Option (World × Nat) :=
  (step s.1 event).map fun next => (next,s.2+registrations s.1.daemon next.daemon)

def Daemon.handle (d : Daemon) : SnmpAlarmCallback → Nat
  | .imStartHeartbeatCloud => d.timerHearbeat
  | .imStartFlowCount => d.timerFlowcount
  | .imUdpbrocastTimerProc => d.timers.handleT0

def initialHandle : SnmpAlarmCallback → Nat
  | .imStartHeartbeatCloud | .imStartFlowCount => 100
  | .imUdpbrocastTimerProc => 0

-- No stop is carried out with a handle of start-up while alarm 100 is another subsystem's.
def Uncollided (w : World) (event : Event) : Prop := stopping w event = true →
  ∀ a ∈ w.daemon.timers.thealarms, a.clientreg = 100 →
    (w.daemon.timerHearbeat = 100 → a.thecallback = .imStartHeartbeatCloud) ∧
    (w.daemon.timerFlowcount = 100 → w.daemon.timerHearbeat = 100 ∨ a.thecallback = .imStartFlowCount)

instance (w : World) (event : Event) : Decidable (Uncollided w event) :=
  inferInstanceAs (Decidable (_ = true → ∀ a ∈ _, _ → (_ → _) ∧ (_ → _ ∨ _)))

def OwnedBy (subsystem : SnmpAlarmCallback) (clientreg k : Nat) (alarms : List SnmpAlarm) : Prop :=
  clientreg ≤ k ∧ ∀ a ∈ alarms, a.clientreg = clientreg → a.thecallback = subsystem

structure Named (k : Nat) (d : Daemon) : Prop where
  distinct : (d.timers.thealarms.map (·.clientreg)).Nodup
  given : ∀ a ∈ d.timers.thealarms, 0 < a.clientreg ∧ a.clientreg ≤ k
  handles : ∀ subsystem, d.handle subsystem = initialHandle subsystem ∨
    OwnedBy subsystem (d.handle subsystem) k d.timers.thealarms

structure Counts (k : Nat) (d : Daemon) : Prop where
  regnum : d.timers.regnum = (k+1) % 2^32
  named : k < 2^32 → Named k d

theorem named_mem (fewer : (names alarms).Sublist (names before)) (member : a ∈ alarms) :
    ∃ b ∈ before, b.thecallback = a.thecallback ∧ b.clientreg = a.clientreg := by
  obtain ⟨b,old,same⟩ := List.mem_map.mp (fewer.subset (List.mem_map_of_mem member))
  simp only [Prod.mk.injEq] at same
  exact ⟨b,old,same.1,same.2.1⟩

theorem OwnedBy.fewer (owned : OwnedBy subsystem clientreg k before) (fewer : (names alarms).Sublist (names before)) :
    OwnedBy subsystem clientreg k alarms := by
  refine ⟨owned.1,fun a member named => ?_⟩
  obtain ⟨b,old,callback,same⟩ := named_mem fewer member
  exact callback.symm.trans (owned.2 b old (same.trans named))

theorem Named.fewer (named : Named k d) (fewer : (names alarms).Sublist (names d.timers.thealarms)) :
    Named k (d.withAlarms alarms) := by
  have ids (alarms : List SnmpAlarm) : alarms.map (·.clientreg) = (names alarms).map (·.2.1) := by simp [names]
  have distinct := named.distinct
  rw [ids] at distinct
  constructor
  · change (alarms.map (·.clientreg)).Nodup
    rw [ids]
    exact distinct.sublist (fewer.map _)
  · intro a member
    obtain ⟨b,old,_,same⟩ := named_mem fewer member
    rw [← same]
    exact named.given b old
  · exact fun subsystem => (named.handles subsystem).imp_right (·.fewer fewer)

theorem Counts.fewer (counts : Counts k d) (fewer : (names alarms).Sublist (names d.timers.thealarms)) :
    Counts k (d.withAlarms alarms) :=
  ⟨counts.regnum,fun few => (counts.named few).fewer fewer⟩

structure Twin (a b : Daemon) : Prop where
  thealarms : b.timers.thealarms = a.timers.thealarms
  regnum : b.timers.regnum = a.timers.regnum
  handle : b.handle = a.handle

theorem Quiet.twin (same : Quiet a b) : Twin a b := by
  refine ⟨congrArg Timers.thealarms same.timers,congrArg Timers.regnum same.timers,funext fun subsystem => ?_⟩
  cases subsystem with
  | imStartHeartbeatCloud => exact same.timerHearbeat
  | imStartFlowCount => exact same.timerFlowcount
  | imUdpbrocastTimerProc => exact congrArg Timers.handleT0 same.timers

theorem Twin.trans (ab : Twin a b) (bc : Twin b c) : Twin a c :=
  ⟨bc.thealarms.trans ab.thealarms,bc.regnum.trans ab.regnum,bc.handle.trans ab.handle⟩

theorem twin_fields (d : Daemon) (r : Records) (cntTime : Nat) : Twin d {d with records := r,cntTime := cntTime} :=
  ⟨rfl,rfl,funext fun subsystem => by cases subsystem <;> rfl⟩

theorem Named.twin (named : Named k a) (alike : Twin a b) : Named k b := by
  obtain ⟨distinct,given,handles⟩ := named
  constructor
  · rwa [alike.thealarms]
  · rwa [alike.thealarms]
  · rwa [alike.handle,alike.thealarms]

structure Registers (n : Nat) (a b : Daemon) : Prop where
  queue : ∃ added, b.timers.thealarms = a.timers.thealarms ++ added
  counts : ∀ k, Counts k a → Counts (k+n) b

theorem Twin.registers (alike : Twin a b) : Registers 0 a b :=
  ⟨⟨[],by rw [alike.thealarms,List.append_nil]⟩,
   fun _ counts => ⟨alike.regnum.trans counts.regnum,fun few => (counts.named few).twin alike⟩⟩

theorem Registers.trans (ab : Registers m a b) (bc : Registers n b c) : Registers (m+n) a c := by
  obtain ⟨added,first⟩ := ab.queue
  obtain ⟨added',second⟩ := bc.queue
  refine ⟨⟨added ++ added',by rw [second,first,List.append_assoc]⟩,fun k counts => ?_⟩
  rw [← Nat.add_assoc]
  exact bc.counts _ (ab.counts k counts)

theorem OwnedBy.wider (owned : OwnedBy subsystem clientreg k alarms) (other : a.clientreg = k+1) :
    OwnedBy subsystem clientreg (k+1) (alarms ++ [a]) := by
  have bound := owned.1
  refine ⟨by omega,fun b member named => ?_⟩
  rcases List.mem_append.mp member with old | new
  · exact owned.2 b old named
  · rw [List.mem_singleton.mp new] at named
    omega

theorem Named.register (named : Named k d) (queue : d'.timers.thealarms = d.timers.thealarms ++ [a])
    (fresh : a.clientreg = k+1)
    (handle : ∀ subsystem, d'.handle subsystem = if a.thecallback = subsystem then k+1 else d.handle subsystem) :
    Named (k+1) d' := by
  have older (b : SnmpAlarm) (old : b ∈ d.timers.thealarms) : b.clientreg ≠ k+1 := by
    have given := named.given b old
    omega
  constructor
  · rw [queue,List.map_append]
    refine List.nodup_append.mpr ⟨named.distinct,List.nodup_singleton _,?_⟩
    intro id old id' new same
    obtain ⟨b,member,rfl⟩ := List.mem_map.mp old
    exact older b member (same.trans ((List.mem_singleton.mp new).trans fresh))
  · rw [queue]
    intro b member
    rcases List.mem_append.mp member with old | new
    · have given := named.given b old
      omega
    · rw [List.mem_singleton.mp new]
      omega
  · intro subsystem
    rw [handle,queue]
    split
    · rename_i kind
      refine .inr ⟨le_rfl,fun b member same => ?_⟩
      rcases List.mem_append.mp member with old | new
      · exact absurd same (older b old)
      · rw [List.mem_singleton.mp new,kind]
    · exact (named.handles subsystem).imp_right (·.wider fresh)

theorem registers_one (queue : d'.timers.thealarms = d.timers.thealarms ++ [a])
    (fresh : a.clientreg = d.timers.regnum) (number : d'.timers.regnum = (d.timers.regnum+1) % 2^32)
    (handle : ∀ subsystem, d'.handle subsystem = if a.thecallback = subsystem then d.timers.regnum
      else d.handle subsystem) : Registers 1 d d' := by
  refine ⟨⟨_,queue⟩,fun k counts => ⟨?_,fun few => ?_⟩⟩
  · rw [number,counts.regnum]
    omega
  · have next : d.timers.regnum = k+1 := counts.regnum.trans (Nat.mod_eq_of_lt few)
    rw [next] at fresh handle
    exact (counts.named (Nat.lt_of_succ_lt few)).register queue fresh handle

theorem imBrocastToTerminal_registers (d : Daemon) (notyType : BrocastNotifyType) (notyData : Bytes) :
    Registers 1 d (imBrocastToTerminal d notyType notyData) := by
  obtain ⟨itimer,made⟩ := imUdpbrocastTimerStart_parts d.timers (udpInfo notyType notyData)
  apply registers_one (a := registeredAlarm d.timers 0 saRepeat .imUdpbrocastTimerProc)
  · exact congrArg Timers.thealarms made
  · rfl
  · exact congrArg Timers.regnum made
  · intro subsystem
    cases subsystem with
    | imUdpbrocastTimerProc => exact congrArg Timers.handleT0 made
    | imStartHeartbeatCloud | imStartFlowCount => rfl

theorem register_registers (d d' : Daemon) (callback : SnmpAlarmCallback) (session : callback ≠ .imUdpbrocastTimerProc)
    (timers : d'.timers = (d.register callback).1.timers)
    (handle : ∀ subsystem, subsystem ≠ .imUdpbrocastTimerProc →
      d'.handle subsystem = if callback = subsystem then d.timers.regnum else d.handle subsystem) : Registers 1 d d' := by
  obtain ⟨itimer,made⟩ := snmpAlarmRegister_parts d.timers timer5min saRepeat callback
  have made := timers.trans made
  apply registers_one (a := registeredAlarm d.timers timer5min saRepeat callback)
  · exact congrArg Timers.thealarms made
  · rfl
  · exact congrArg Timers.regnum made
  · intro subsystem
    by_cases udp : subsystem = .imUdpbrocastTimerProc
    · subst udp
      exact (congrArg Timers.handleT0 made).trans (if_neg session).symm
    · exact handle subsystem udp

theorem registerHearbeat_registers (d : Daemon) : Registers 1 d d.registerHearbeat := by
  refine register_registers d d.registerHearbeat .imStartHeartbeatCloud (by decide) rfl ?_
  intro subsystem session
  cases subsystem with
  | imUdpbrocastTimerProc => exact absurd rfl session
  | imStartHeartbeatCloud | imStartFlowCount => rfl

theorem registerFlowcount_registers (d : Daemon) : Registers 1 d d.registerFlowcount := by
  refine register_registers d d.registerFlowcount .imStartFlowCount (by decide) rfl ?_
  intro subsystem session
  cases subsystem with
  | imUdpbrocastTimerProc => exact absurd rfl session
  | imStartHeartbeatCloud | imStartFlowCount => rfl

theorem setAccState_twin (d : Daemon) (state : AccOpenState) : Twin d (d.setAccState state) := twin_fields d _ d.cntTime

theorem startAccOpened_registers (d : Daemon) : Registers 3 d (startAccOpened d) := by
  have adopted := (twin_fields d (startedInfo d.records) d.cntTime).registers
  have noticed := adopted.trans (imBrocastToTerminal_registers _ .accSuccess (successText (startedInfo d.records)))
  have beating := noticed.trans (registerHearbeat_registers _)
  have counting := beating.trans (registerFlowcount_registers _)
  exact counting.trans (twin_fields _ _ _).registers

theorem rollOpening_registers (d : Daemon) : Registers 2 d (rollOpening d) :=
  (imBrocastToTerminal_registers d .accSuccess (successText d.records)).trans (registerHearbeat_registers _)

theorem stop_switched (stop : stops d pMsg = true) (ran : imHandleMsg created header d pMsg replies = some h) :
    ∃ handled, stopAcc header (received d pMsg).1 replies = some handled ∧
      h = {handled with daemon := handled.daemon.reply pMsg handled.errcode (some handled.data.json)} := by
  obtain ⟨valid,command⟩ := Bool.and_eq_true_iff.mp stop
  unfold imHandleMsg imHandleCmdTerminal at ran
  obtain ⟨handled,switched,same⟩ := Option.map_eq_some_iff.mp ((if_pos (of_decide_eq_true valid)).symm.trans ran)
  refine ⟨handled,?_,same.symm⟩
  rw [← switched]
  change _ = terminalSwitch created header (received d pMsg).1 replies
  simp only [terminalSwitch,of_decide_eq_true command]

theorem stop_handled (stop : stops d pMsg = true) (ran : imHandleMsg created header d pMsg replies = some h)
    (exact : h.rest = []) : ∃ ex mid, replies = [ex] ∧ Quiet d mid ∧
      Quiet (if accepts d.accState ex.body then accStopped mid else mid) h.daemon := by
  have keep := received_quiet d pMsg
  obtain ⟨handled,switch,rfl⟩ := stop_switched stop ran
  cases replies with
  | nil => cases switch
  | cons ex rest =>
    let msg := imJsonMakeCmdStopacc (received d pMsg).1.records.loginResp
    have asked := imCloudExchange_quiet (received d pMsg).1 msg header ex
    have verdict := imCloudExchange_accepts (received d pMsg).1 msg header ex
    rw [keep.accState] at verdict
    unfold stopAcc at switch
    dsimp only at switch
    split at switch
    · rename_i rejected
      cases switch
      cases exact
      refine ⟨ex,_,rfl,keep.trans asked,?_⟩
      rw [if_neg fun accepted => rejected (verdict.mpr accepted)]
      exact Daemon.reply_quiet ..
    · rename_i accepted
      cases switch
      cases exact
      refine ⟨ex,_,rfl,keep.trans asked,?_⟩
      rw [if_pos (verdict.mp (not_not.mp accepted))]
      exact Daemon.reply_quiet ..

theorem asked_registers (asked : Asked settled created state d replies d' spawned) : ∃ n ≤ 3, Registers n d d' := by
  obtain ⟨begun,last,_,same,outcome⟩ := asked
  have entered : Registers 0 d begun := ((setAccState_twin d state).trans same.twin).registers
  cases outcome with
  | closed keep => exact ⟨0,by decide,entered.trans ((setAccState_twin begun .closed).trans keep.twin).registers⟩
  | delayed _ _ keep => exact ⟨0,by decide,entered.trans keep.twin.registers⟩
  | opened _ keep =>
    exact ⟨0+3,by decide,entered.trans ((startAccOpened_registers begun).trans keep.twin.registers)⟩
  | left _ _ keep => exact ⟨0,by decide,entered.trans keep.twin.registers⟩

-- The queue as the calls of a step leave it; what is registered comes after them.
def dropped (w : World) (event : Event) : Daemon :=
  w.daemon.withAlarms (unregistered (unregisters w event) w.daemon.timers.thealarms)

theorem dropped_none (none : unregisters w event = []) : dropped w event = w.daemon := by
  unfold dropped
  rw [none]
  rfl

theorem dropped_stop (stop : stopping w event = true) (alike : Twin w.daemon mid) :
    Twin (dropped w event) (imStopFlowCount (imStopHeartbeatCloud mid)) := by
  have calls : unregisters w event = stopCalls mid := by
    unfold unregisters
    rw [if_pos stop]
    unfold stopCalls
    have hearbeat : mid.timerHearbeat = w.daemon.timerHearbeat := congrFun alike.handle .imStartHeartbeatCloud
    have flowcount : mid.timerFlowcount = w.daemon.timerFlowcount := congrFun alike.handle .imStartFlowCount
    rw [hearbeat,flowcount]
  unfold dropped
  rw [calls,← alike.thealarms]
  refine ⟨rfl,alike.regnum,funext fun subsystem => ?_⟩
  have same := congrFun alike.handle subsystem
  cases subsystem <;> exact same

theorem imStartHeartbeatCloud_registers (fired : firing w (.alarm i ifaList replies) = some .imStartHeartbeatCloud)
    (ex : Exchange) :
    ∃ n ≤ 3, Registers n (dropped w (.alarm i ifaList replies)) (imStartHeartbeatCloud w.daemon ex) := by
  have sent := imCloudHeartbeat_quiet w.daemon ex
  have keepacc : (imCloudHeartbeat w.daemon ex).daemon.records.keepacc = w.daemon.records.keepacc := by
    have frame := (imJsonParseCloud_frame w.daemon.records ex.body ex.stack).keepacc
    unfold imCloudHeartbeat
    dsimp only
    split
    · exact frame
    · exact frame
  have calls : unregisters w (.alarm i ifaList replies) =
      if w.daemon.records.keepacc.imIsKeepacc = 0 ∧ 24 < w.daemon.cntTime+1 then stopCalls w.daemon else [] := by
    simp only [unregisters,stopping,fired]
    simp
  have counted (d : Daemon) (cntTime : Nat) : Twin d {d with cntTime := cntTime} := twin_fields d d.records cntTime
  unfold imStartHeartbeatCloud
  dsimp only
  rw [keepacc,sent.cntTime]
  split
  · rename_i on
    rw [dropped_none (by rw [calls,if_neg (on ·.1)])]
    exact ⟨0,by decide,sent.twin.registers⟩
  · rename_i off
    split
    · rename_i due
      rw [dropped_none (by rw [calls,if_neg (by omega)])]
      have beaten := sent.twin.trans (counted _ (w.daemon.cntTime+1))
      exact ⟨0+1,by decide,beaten.registers.trans (imBrocastToTerminal_registers _ .accWillstop _)⟩
    · split
      · rename_i late
        have stop : stopping w (.alarm i ifaList replies) = true := by
          simp only [stopping,fired]
          simp
          omega
        have stopped := dropped_stop stop (sent.twin.trans (twin_fields _ (imCloudHeartbeat w.daemon ex).daemon.records 0))
        exact ⟨0,by decide,stopped.registers⟩
      · rename_i early
        rw [dropped_none (by rw [calls,if_neg (early ·.2)])]
        exact ⟨0,by decide,sent.twin.registers.trans (counted _ _).registers⟩

theorem sendUdp_registers (fired : firing w (.alarm i ifaList replies) = some .imUdpbrocastTimerProc) :
    Registers 0 (dropped w (.alarm i ifaList replies)) (sendUdp w.daemon) := by
  have calls : unregisters w (.alarm i ifaList replies) =
      if w.daemon.timers.udpTime < 4 then [] else [⟨.imUdpbrocastTimerProc,w.daemon.timers.handleT0⟩] := by
    simp only [unregisters,stopping,fired]
    by_cases early : w.daemon.timers.udpTime < 4
    · simp [early]
    · simp [early,not_lt.mp early]
  unfold sendUdp imUdpbrocastTimerProc
  by_cases early : w.daemon.timers.udpTime < 4
  · rw [dropped_none (by rw [calls,if_pos early])]
    simp only [early,if_true]
    exact Twin.registers ⟨rfl,rfl,funext fun subsystem => by cases subsystem <;> rfl⟩
  · unfold dropped
    rw [calls]
    simp only [early,if_false]
    exact Twin.registers ⟨rfl,rfl,funext fun subsystem => by cases subsystem <;> rfl⟩

theorem runCallback_registers (fired : firing w (.alarm i ifaList replies) = some callback)
    (ran : runCallback w.daemon callback ifaList replies = some result) :
    ∃ n ≤ 3, Registers n (dropped w (.alarm i ifaList replies)) result.1 := by
  unfold runCallback at ran
  cases callback with
  | imStartHeartbeatCloud =>
    cases replies with
    | nil => cases ran
    | cons ex rest => cases ran; exact imStartHeartbeatCloud_registers fired ex
  | imStartFlowCount =>
    have keep := (imStartFlowCount_quiet ran).twin
    rw [dropped_none (by simp [unregisters,stopping,fired])]
    exact ⟨0,by decide,Twin.registers ⟨keep.thealarms,keep.regnum,keep.handle⟩⟩
  | imUdpbrocastTimerProc =>
    cases ran
    exact ⟨0,by decide,sendUdp_registers fired⟩

-- Removals first, then at most three registrations.
theorem step_registers (taken : step w event = some next) : ∃ n ≤ 3, ∃ mid, Registers n (dropped w event) mid ∧
    (next.daemon = mid ∨ ∃ now clientreg, next.daemon = mid.reschedule now clientreg) := by
  cases event with
  | isaccInit thread header replies =>
    obtain ⟨q,ran,exact,rfl⟩ := step_isaccInit taken
    rw [dropped_none rfl]
    by_cases idle : w.daemon.accState = .closed
    · obtain ⟨n,few,registered⟩ := asked_registers (imAutoQueryIsacc_asked ran exact idle)
      exact ⟨n,few,_,registered,.inl rfl⟩
    · rw [imAutoQueryIsacc_idle idle] at ran
      cases ran
      exact ⟨0,by decide,_,(twin_fields _ _ _).registers,.inl rfl⟩
  | message pMsg thread header replies =>
    obtain ⟨⟨after,errcode,data,spawned,rest⟩,ran,exact,rfl⟩ := step_message taken
    by_cases stop : stops w.daemon pMsg = true
    · obtain ⟨ex,mid,rfl,same,done⟩ := stop_handled stop ran exact
      by_cases accepted : accepts w.daemon.accState ex.body = true
      · rw [if_pos accepted] at done
        have stopped : stopping w (.message pMsg thread header [ex]) = true := by simp [stopping,stop,accepted]
        have dropped := dropped_stop stopped (same.twin.trans (setAccState_twin mid .closed))
        have noticed := dropped.registers.trans (imBrocastToTerminal_registers _ .accStop (brocastNotify .accStop))
        exact ⟨0+1,by decide,_,noticed.trans done.twin.registers,.inl rfl⟩
      · rw [if_neg accepted] at done
        rw [dropped_none (by simp [unregisters,stopping,firing,accepted])]
        exact ⟨0,by decide,_,(same.twin.trans done.twin).registers,.inl rfl⟩
    · rw [dropped_none (by simp [unregisters,stopping,firing,stop])]
      have handled := imHandleMsg_handles ran exact
      generalize asks w.daemon pMsg = request at handled
      cases handled with
      | quiet keep => exact ⟨0,by decide,_,keep.twin.registers,.inl rfl⟩
      | stopped command => exact absurd command stop
      | asked asked =>
        obtain ⟨n,few,registered⟩ := asked_registers asked
        exact ⟨n,few,_,registered,.inl rfl⟩
  | poll i replies =>
    obtain ⟨p,⟨after,kept,rest⟩,found,idle,ran,rfl⟩ := step_poll taken
    rw [dropped_none rfl]
    cases imRollqueryThread_rolls ran idle with
    | registering keep _ made =>
      subst made
      exact ⟨0+2,by decide,_,keep.twin.registers.trans (rollOpening_registers _),.inl rfl⟩
    | closed keep => exact ⟨0,by decide,_,((setAccState_twin _ .closed).trans keep.twin).registers,.inl rfl⟩
    | ended keep => exact ⟨0,by decide,_,keep.twin.registers,.inl rfl⟩
    | again keep => exact ⟨0,by decide,_,keep.twin.registers,.inl rfl⟩
  | resume i =>
    obtain ⟨p,_,_,rfl⟩ := step_resume taken
    rw [dropped_none rfl]
    exact ⟨1,by decide,_,(registerFlowcount_registers _).trans (twin_fields _ _ _).registers,.inl rfl⟩
  | alarm i ifaList replies =>
    obtain ⟨result,ran,rfl⟩ := step_alarm taken
    unfold runAlarm at ran
    cases place : w.daemon.timers.thealarms[i]? with
    | none => simp [place] at ran
    | some a =>
      simp only [place] at ran
      obtain ⟨called,back,rfl⟩ := Option.map_eq_some_iff.mp ran
      have fired : firing w (.alarm i ifaList replies) = some a.thecallback := by simp [firing,place]
      obtain ⟨n,few,registered⟩ := runCallback_registers fired back
      exact ⟨n,few,called.1,registered,.inr ⟨_,_,rfl⟩⟩
  | alarmInit =>
    cases taken
    obtain ⟨itimer,made⟩ := setAnAlarm_parts {w.daemon.timers with startAlarms := true}
    rw [dropped_none rfl]
    refine ⟨0,by decide,_,Twin.registers ?_,.inl rfl⟩
    unfold initAlarmPostConfig
    rw [made]
    exact ⟨rfl,rfl,funext fun subsystem => by cases subsystem <;> rfl⟩
  | clock now =>
    cases taken
    rw [dropped_none rfl]
    refine ⟨0,by decide,{w.daemon with timers := {w.daemon.timers with clock := now}},Twin.registers ?_,.inl rfl⟩
    exact ⟨rfl,rfl,funext fun subsystem => by cases subsystem <;> rfl⟩

theorem unregistered_sublist (calls : List Unregister) (alarms : List SnmpAlarm) :
    (unregistered calls alarms).Sublist alarms := by
  induction calls generalizing alarms with
  | nil => exact .refl _
  | cons call rest ih => exact (ih _).trans (snmpAlarmUnregister_sublist _ _)

theorem step_counts (counts : Counts k w.daemon) (taken : step w event = some next) :
    Counts (k+registrations w.daemon next.daemon) next.daemon := by
  obtain ⟨n,few,mid,registered,ended⟩ := step_registers taken
  have kept : Counts k (dropped w event) := counts.fewer ((unregistered_sublist _ _).map _)
  have made : Counts (k+n) next.daemon := by
    have before := registered.counts k kept
    rcases ended with same | ⟨now,clientreg,moved⟩
    · rwa [same]
    · rw [moved]
      exact before.fewer (reschedule_names now clientreg mid.timers.thealarms)
  have number : registrations w.daemon next.daemon = n := by
    unfold registrations
    rw [counts.regnum,made.regnum]
    omega
  rwa [number]

theorem boot_counts (ulongBits : Nat) (uci : UciIsacc) (lanIp : Bytes) (ex : Exchange) :
    Counts 0 (World.boot ulongBits uci lanIp ex).daemon := by
  have begun : Counts 0 (Daemon.boot ulongBits uci) := by
    refine ⟨rfl,fun _ => ⟨List.nodup_nil,nofun,fun subsystem => .inl ?_⟩⟩
    cases subsystem <;> rfl
  have login := (imCloudLogin_quiet (.ready ulongBits uci lanIp) ex).twin
  have booted : Twin (Daemon.boot ulongBits uci) (World.boot ulongBits uci lanIp ex).daemon := by
    rw [World.boot_ready]
    exact ⟨login.thealarms,login.regnum,login.handle⟩
  exact booted.registers.counts 0 begun

theorem reached_counts (path : Transition.Reached countedStep free (World.boot ulongBits uci lanIp ex,0) s) :
    Counts s.2 s.1.daemon := by
  have base := boot_counts ulongBits uci lanIp ex
  apply path.invariant (I := fun s => Counts s.2 s.1.daemon) base
  intro s event next counts _ taken
  obtain ⟨after,stepped,rfl⟩ := Option.map_eq_some_iff.mp taken
  exact step_counts counts stepped

theorem mem_unregister (distinct : (alarms.map (·.clientreg)).Nodup) :
    a ∈ snmpAlarmUnregister clientreg alarms ↔ a ∈ alarms ∧ a.clientreg ≠ clientreg := by
  constructor
  · intro left
    refine ⟨(snmpAlarmUnregister_sublist _ _).subset left,?_⟩
    rintro rfl
    exact snmpAlarmUnregister_gone distinct (List.mem_map_of_mem left)
  · intro both
    rw [snmpAlarmUnregister_eraseP]
    exact (List.mem_eraseP_of_neg (by simpa using both.2)).mpr both.1

theorem unregister_removesOwn (own : ∀ a ∈ alarms, a.clientreg = clientreg → a.thecallback = subsystem) :
    RemovesOwn subsystem alarms (snmpAlarmUnregister clientreg alarms) := by
  induction alarms with
  | nil => exact .inl rfl
  | cons a rest ih =>
    obtain ⟨first,later⟩ := List.forall_mem_cons.mp own
    unfold snmpAlarmUnregister
    split
    · rename_i found
      exact .inr ⟨[],a,rest,rfl,rfl,first found⟩
    · rcases ih later with same | ⟨early,b,late,before,after,kind⟩
      · exact .inl (congrArg (a :: ·) same)
      · exact .inr ⟨a :: early,b,late,congrArg (a :: ·) before,congrArg (a :: ·) after,kind⟩

theorem removesOwn_iff (distinct : (alarms.map (·.clientreg)).Nodup) :
    RemovesOwn subsystem alarms (snmpAlarmUnregister clientreg alarms) ↔
      ∀ a ∈ alarms, a.clientreg = clientreg → a.thecallback = subsystem := by
  refine ⟨fun removes a member named => ?_,unregister_removesOwn⟩
  have gone : a ∉ snmpAlarmUnregister clientreg alarms := fun left => ((mem_unregister distinct).mp left).2 named
  rcases removes with same | ⟨early,b,late,before,after,kind⟩
  · rw [same] at gone
    exact absurd member gone
  · rw [before] at member
    rw [after,List.mem_append] at gone
    rcases List.mem_append.mp member with there | here
    · exact absurd (.inl there) gone
    · rcases List.mem_cons.mp here with rfl | there
      · exact kind
      · exact absurd (.inr there) gone

theorem stopCalls_removeOwn (named : Named k d) : RemoveOwn (stopCalls d) d.timers.thealarms ↔
    ∀ a ∈ d.timers.thealarms, a.clientreg = 100 →
      (d.timerHearbeat = 100 → a.thecallback = .imStartHeartbeatCloud) ∧
      (d.timerFlowcount = 100 → d.timerHearbeat = 100 ∨ a.thecallback = .imStartFlowCount) := by
  have ids := (snmpAlarmUnregister_sublist d.timerHearbeat d.timers.thealarms).map (·.clientreg)
  have rest : RemovesOwn .imStartFlowCount (snmpAlarmUnregister d.timerHearbeat d.timers.thealarms)
      (snmpAlarmUnregister d.timerFlowcount (snmpAlarmUnregister d.timerHearbeat d.timers.thealarms)) ↔ _ :=
    removesOwn_iff (named.distinct.sublist ids)
  change (_ ∧ _ ∧ True) ↔ _
  rw [removesOwn_iff named.distinct,rest]
  constructor
  · intro ⟨hearbeat,flowcount,_⟩ a member hundred
    refine ⟨fun start => hearbeat a member (hundred.trans start.symm),fun start => ?_⟩
    by_cases same : d.timerHearbeat = 100
    · exact .inl same
    · have left := (mem_unregister named.distinct).mpr ⟨member,fun stale => same (stale.symm.trans hundred)⟩
      exact .inr (flowcount a left (hundred.trans start.symm))
  · intro clear
    refine ⟨fun a member same => ?_,fun a left same => ?_,trivial⟩
    · rcases named.handles .imStartHeartbeatCloud with start | owned
      · exact (clear a member (same.trans start)).1 start
      · exact owned.2 a member same
    · obtain ⟨member,other⟩ := (mem_unregister named.distinct).mp left
      rcases named.handles .imStartFlowCount with start | owned
      · have hundred : a.clientreg = 100 := same.trans start
        exact ((clear a member hundred).2 start).resolve_left fun stale => other (hundred.trans stale.symm)
      · exact owned.2 a member same

theorem unregisters_removeOwn (named : Named k w.daemon) (event : Event) :
    RemoveOwn (unregisters w event) w.daemon.timers.thealarms ↔ Uncollided w event := by
  unfold unregisters Uncollided
  by_cases stop : stopping w event = true
  · rw [if_pos stop,stopCalls_removeOwn named]
    simp only [stop,true_implies]
  · rw [if_neg stop]
    refine iff_of_true ?_ fun stopped => absurd stopped stop
    split
    · refine ⟨unregister_removesOwn fun a member same => ?_,trivial⟩
      rcases named.handles .imUdpbrocastTimerProc with start | owned
      · have given := (named.given a member).1
        have zero : a.clientreg = 0 := same.trans start
        omega
      · exact owned.2 a member same
    · trivial

-- Alarms are added at the end, and the one that fired is moved.
def Leaves (w : World) (event : Event) (next : World) : Prop := ∃ added,
  let left := unregistered (unregisters w event) w.daemon.timers.thealarms ++ added
  next.daemon.timers.thealarms = left ∨ ∃ now clientreg, next.daemon.timers.thealarms = reschedule now clientreg left

theorem step_leaves (taken : step w event = some next) : Leaves w event next := by
  obtain ⟨n,few,mid,registered,ended⟩ := step_registers taken
  obtain ⟨added,queue⟩ := registered.queue
  refine ⟨added,?_⟩
  dsimp only
  rcases ended with same | ⟨now,clientreg,moved⟩
  · exact .inl (same ▸ queue)
  · refine .inr ⟨now,clientreg,?_⟩
    rw [moved]
    exact congrArg (reschedule now clientreg) queue

-- Alarms are removed by their own subsystem, except by a stop under the handles of start-up.
theorem reached_removeOwn (path : Transition.Reached countedStep free (World.boot ulongBits uci lanIp ex,0) (w,k))
    (few : k < 2^32) (taken : step w event = some next) :
    (RemoveOwn (unregisters w event) w.daemon.timers.thealarms ↔ Uncollided w event) ∧ Leaves w event next :=
  ⟨unregisters_removeOwn ((reached_counts path).named few) event,step_leaves taken⟩

def stopTold : Event := told .stopAcc [delivered .stopAcc msgCodeSucess []]

def countedRun (events : List Event) : Option (World × Nat) := run countedStep (booted,0) events

theorem reached_removeOwn_stop : ∃ w : World, (unregisters w stopTold).length = 2 ∧
    w.daemon.timers.thealarms.length = 3 ∧ RemoveOwn (unregisters w stopTold) w.daemon.timers.thealarms := by
  let opened := started ++ [told .startAcc [delivered .startAcc msgCodeSucess [[]]]]
  have ran : ((countedRun opened).map fun s =>
      (s.2,(unregisters s.1 stopTold).length,s.1.daemon.timers.thealarms.length,decide (Uncollided s.1 stopTold),
        (step s.1 stopTold).isSome)) = some (3,2,3,true,true) := by decide
  obtain ⟨⟨w,k⟩,ran,seen⟩ := Option.map_eq_some_iff.mp ran
  simp only [Prod.mk.injEq,decide_eq_true_eq] at seen
  obtain ⟨rfl,calls,queued,clear,steps⟩ := seen
  obtain ⟨next,taken⟩ := Option.isSome_iff_exists.mp steps
  exact ⟨w,calls,queued,(reached_removeOwn (run_reached ran) (by decide) taken).1.mpr clear⟩

-- The hundredth broadcast is taken for the heartbeat.
theorem reached_removeOther : ¬ ∀ ulongBits uci lanIp ex w k event next,
    Transition.Reached countedStep free (World.boot ulongBits uci lanIp ex,0) (w,k) → k < 2^32 →
    step w event = some next → RemoveOwn (unregisters w event) w.daemon.timers.thealarms := by
  intro always
  have ran : ((countedRun (List.replicate 100 stopTold)).map fun s =>
      (s.2,decide (unregisters s.1 stopTold = [⟨.imStartHeartbeatCloud,100⟩,⟨.imStartFlowCount,100⟩]),
        decide (s.1.daemon.timers.thealarms.map (·.clientreg)).Nodup,
        s.1.daemon.timers.thealarms.any fun a => a.clientreg = 100 && a.thecallback ≠ .imStartHeartbeatCloud,
        (step s.1 stopTold).isSome)) = some (100,true,true,true,true) := by decide +kernel
  obtain ⟨⟨w,k⟩,ran,seen⟩ := Option.map_eq_some_iff.mp ran
  simp only [Prod.mk.injEq,decide_eq_true_eq] at seen
  obtain ⟨rfl,calls,distinct,stray,steps⟩ := seen
  obtain ⟨next,taken⟩ := Option.isSome_iff_exists.mp steps
  have removes := always _ _ _ _ w 100 stopTold next (run_reached ran) (by decide) taken
  rw [calls] at removes
  obtain ⟨a,member,other⟩ := List.any_eq_true.mp stray
  simp only [Bool.and_eq_true,decide_eq_true_eq] at other
  exact other.2 ((removesOwn_iff distinct).mp removes.1 a member other.1)

end ImAcc
