import ImAcc.Causes
import ImAcc.Requests
import ImAcc.Service

-- The daemon provides the service: a view of its states, under which every step is a move.
namespace ImAcc
open JsonC Transition Journal

def Daemon.notices (d : Daemon) : List BrocastNotifyType := d.out.filterMap fun output => (notified output).map (·.1)

def requestsOf (registering : Bool) (pollers : List Poller) : Multiset Nat :=
  ↑((pollers.filter (·.registering = registering)).map (·.request))

def World.service (w : World) : Service :=
  ⟨w.daemon.accState,w.request,requestsOf false w.pollers,requestsOf true w.pollers,w.daemon.notices,
   w.daemon.timers.regnum % 2^32⟩

-- d' has sent these notices more, and given out so many handles.
def Adds (kinds : List BrocastNotifyType) (handles : Nat) (d d' : Daemon) : Prop :=
  d'.notices = d.notices ++ kinds ∧ d'.timers.regnum % 2^32 = (d.timers.regnum+handles) % 2^32

theorem adds_none (out : d'.out = Daemon.out d) (regnum : d'.timers.regnum = d.timers.regnum) : Adds [] 0 d d' := by
  refine ⟨?_,congrArg (· % 2^32) regnum⟩
  unfold Daemon.notices
  rw [out,List.append_nil]

theorem Adds.trans (first : Adds xs m a b) (second : Adds ys n b c) : Adds (xs ++ ys) (m+n) a c := by
  constructor
  · rw [second.1,first.1,List.append_assoc]
  · have one := first.2
    have two := second.2
    omega

theorem Adds.before (first : Adds [] 0 a b) (second : Adds kinds n b c) : Adds kinds n a c := by
  have both := first.trans second
  rwa [List.nil_append,Nat.zero_add] at both

theorem Adds.after (first : Adds kinds n a b) (second : Adds [] 0 b c) : Adds kinds n a c := by
  have both := first.trans second
  rwa [List.append_nil] at both

def AddsWhere (met : Prop) [Decidable met] (kind : BrocastNotifyType) (handles : Nat) (d d' : Daemon) : Prop :=
  if met then Adds [kind] handles d d' else Adds [] 0 d d'

section
variable {met : Prop} [Decidable met]

theorem adds_met (held : met) (adds : Adds [kind] n d d') : AddsWhere met kind n d d' := by
  unfold AddsWhere
  rwa [if_pos held]

theorem adds_unmet (failed : ¬met) (adds : Adds [] 0 d d') : AddsWhere met kind n d d' := by
  unfold AddsWhere
  rwa [if_neg failed]

theorem AddsWhere.sent (adds : AddsWhere met kind n d d') (held : met) : Adds [kind] n d d' := by
  unfold AddsWhere at adds
  rwa [if_pos held] at adds

theorem AddsWhere.silent (adds : AddsWhere met kind n d d') (failed : ¬met) : Adds [] 0 d d' := by
  unfold AddsWhere at adds
  rwa [if_neg failed] at adds

theorem AddsWhere.imp (adds : AddsWhere met kind n a b) (lift : ∀ kinds m, Adds kinds m a b → Adds kinds m c d) :
    AddsWhere met kind n c d := by
  by_cases held : met
  · exact adds_met held (lift _ _ (adds.sent held))
  · exact adds_unmet held (lift _ _ (adds.silent held))

end

theorem run_adds (op : CloudOp) (d : Daemon) (header : MsgHeader) (ex : Exchange) :
    Adds [] 0 d (op.run d header ex).daemon := by
  refine ⟨?_,congrArg (·.regnum % 2^32) (exchange_quiet op d header ex).timers⟩
  unfold Daemon.notices
  rw [CloudOp.run_out,List.filterMap_append]
  rfl

theorem imBrocastToTerminal_adds (d : Daemon) (notyType : BrocastNotifyType) (notyData : Bytes) :
    Adds [notyType] 1 d (imBrocastToTerminal d notyType notyData) := by
  refine ⟨List.filterMap_append,?_⟩
  obtain ⟨itimer,made⟩ := imUdpbrocastTimerStart_parts d.timers (udpInfo notyType notyData)
  have next : (imBrocastToTerminal d notyType notyData).timers.regnum = (d.timers.regnum+1) % 2^32 :=
    congrArg Timers.regnum made
  rw [next]
  exact Nat.mod_mod _ _

theorem register_adds (d : Daemon) (callback : SnmpAlarmCallback) : Adds [] 1 d (d.register callback).1 := by
  refine ⟨(List.append_nil _).symm,?_⟩
  change (snmpAlarmRegister d.timers timer5min saRepeat callback).1.regnum % 2^32 = _
  rw [(snmpAlarmRegister_queue d.timers timer5min saRepeat callback).2]
  exact Nat.mod_mod _ _

theorem startAccOpened_adds (d : Daemon) : Adds [.accSuccess] 3 d (startAccOpened d) := by
  have adopted : Adds [] 0 d {d with records := startedInfo d.records} := adds_none rfl rfl
  have noticed := adopted.before (imBrocastToTerminal_adds _ .accSuccess (successText (startedInfo d.records)))
  exact (noticed.trans (register_adds _ .imStartHeartbeatCloud)).trans (register_adds _ .imStartFlowCount)

theorem rollOpening_adds (d : Daemon) : Adds [.accSuccess] 2 d (rollOpening d) :=
  (imBrocastToTerminal_adds d .accSuccess (successText d.records)).trans (register_adds _ .imStartHeartbeatCloud)

theorem rollOpened_adds (d : Daemon) : Adds [] 1 d (rollOpened d) := register_adds d .imStartFlowCount

theorem reply_adds (d : Daemon) (pMsg : Option Json) (errcode : Int) (data : Option Json) :
    Adds [] 0 d (d.reply pMsg errcode data) := by
  unfold Daemon.reply
  split
  · exact adds_none rfl rfl
  · exact ⟨List.filterMap_append,rfl⟩

theorem startAccRetry_adds (ran : startAccRetry created header d replies = some h) (idle : d.accState = .closed) :
    AddsWhere (h.daemon.accState = .opened) .accSuccess 3 d h.daemon := by
  have asked (d : Daemon) (header : MsgHeader) (ex : Exchange) :
      Adds [] 0 d (imCloudStartaac (d.setAccState .opening) header ex).daemon :=
    run_adds .startaac (d.setAccState .opening) header ex
  have waiting (d : Daemon) (header : MsgHeader) (ex : Exchange) :
      (imCloudStartaac (d.setAccState .opening) header ex).daemon.accState ≠ .opened := by
    rw [imCloudStartaac,(imCloudExchange_quiet ..).accState]
    intro opened
    cases opened
  have closed : ¬AccOpenState.closed = .opened := by decide
  fun_induction startAccRetry created header d replies with
  | case1 header d replies busy => exact absurd idle busy
  | case2 | case6 => cases ran
  | case3 header d _ ex rest c failed => cases ran; exact adds_unmet closed (asked d header ex)
  | case4 header d _ ex rest c accepted delay => cases ran; exact adds_unmet (waiting d header ex) (asked d header ex)
  | case5 header d _ ex rest c accepted _ success =>
    cases ran
    exact adds_met rfl ((asked d header ex).before (startAccOpened_adds c.daemon))
  | case7 header d _ ex c accepted _ _ expired login rest l renewed ih =>
    have login : Adds [] 0 c.daemon (l.daemon.setAccState .closed) := run_adds .login c.daemon default login
    exact (ih ran rfl).imp fun _ _ => ((asked d header ex).before login).before
  | case8 header d _ ex c accepted _ _ expired login rest l failed =>
    cases ran
    exact adds_unmet closed ((asked d header ex).before (run_adds .login c.daemon default login))
  | case9 header d _ ex rest c accepted delay success expired =>
    cases ran
    exact adds_unmet (waiting d header ex) (asked d header ex)

theorem isAccRetry_adds (ran : isAccRetry created header d replies = some h) : Adds [] 0 d h.daemon := by
  have asked (d : Daemon) (header : MsgHeader) (ex : Exchange) :
      Adds [] 0 d (imCloudIsaac (d.setAccState .querying) header ex).daemon :=
    run_adds .isaac (d.setAccState .querying) header ex
  fun_induction isAccRetry created header d replies with
  | case1 | case5 => cases ran
  | case2 header d ex rest | case3 header d ex rest | case4 header d ex rest | case8 header d ex rest =>
    cases ran
    exact asked d header ex
  | case6 header d ex c accepted _ _ expired login rest l renewed ih =>
    exact ((asked d header ex).before (run_adds .login c.daemon default login)).before (ih ran)
  | case7 header d ex c accepted _ _ expired login rest l failed =>
    cases ran
    exact (asked d header ex).before (run_adds .login c.daemon default login)

theorem imAutoQueryIsacc_adds (created : Bool) (header : MsgHeader) (d : Daemon) (replies : List Exchange) :
    ∀ q ∈ imAutoQueryIsacc created header d replies, Adds [] 0 d q.daemon := by
  have asked (d : Daemon) (ex : Exchange) : Adds [] 0 d (imCloudIsaac (d.setAccState .querying) header ex).daemon :=
    run_adds .isaac (d.setAccState .querying) header ex
  fun_induction imAutoQueryIsacc created header d replies with
  | case1 d replies busy => intro q ran; cases ran; exact adds_none rfl rfl
  | case2 | case6 => intro q ran; cases ran
  | case3 d idle ex rest | case4 d idle ex rest | case5 d idle ex rest | case9 d idle ex rest =>
    intro q ran
    cases ran
    exact asked d ex
  | case7 d idle ex c accepted delay other expired login rest l renewed ih =>
    intro q ran
    obtain ⟨again,queried,rfl⟩ := Option.map_eq_some_iff.mp ran
    exact ((asked d ex).before (run_adds .login c.daemon default login)).before (ih again queried)
  | case8 d idle ex c accepted delay other expired login rest l failed =>
    intro q ran
    cases ran
    exact (asked d ex).before (run_adds .login c.daemon default login)

theorem cloudRetry_adds (ran : cloudRetry ask answer header d replies = some h)
    (asked : ∀ d header ex, Adds [] 0 d (ask d header ex).daemon) (answered : ∀ d, Adds [] 0 d (answer d).1) :
    Adds [] 0 d h.daemon := by
  fun_induction cloudRetry ask answer header d replies with
  | case1 | case4 => cases ran
  | case2 header d ex rest | case7 header d ex rest => cases ran; exact asked d header ex
  | case3 header d ex rest c accepted success =>
    cases ran
    exact (asked d header ex).before (answered c.daemon)
  | case5 header d ex c accepted success expired login rest l renewed ih =>
    exact ((asked d header ex).before (run_adds .login c.daemon default login)).before (ih ran)
  | case6 header d ex c accepted success expired login rest l failed =>
    cases ran
    exact (asked d header ex).before (run_adds .login c.daemon default login)

theorem stopAcc_adds (ran : stopAcc header d [ex] = some h) :
    AddsWhere (accepts d.accState ex.body = true) .accStop 1 d h.daemon := by
  have asked := run_adds .stopaac d header ex
  have verdict : (imCloudStopaac d header ex).ret = msgCodeSucess ↔ _ := imCloudExchange_accepts ..
  unfold stopAcc at ran
  dsimp only at ran
  split at ran
  · rename_i rejected
    cases ran
    exact adds_unmet (fun accepted => rejected (verdict.mpr accepted)) asked
  · rename_i accepted
    cases ran
    exact adds_met (verdict.mp (not_not.mp accepted)) (asked.before (imBrocastToTerminal_adds _ .accStop _))

theorem accStateInfo_adds (ran : accStateInfo created header d replies = some h) : Adds [] 0 d h.daemon := by
  have checked : Adds [] 0 d d.checked := adds_none rfl rfl
  unfold accStateInfo at ran
  split at ran
  · cases ran; exact adds_none rfl rfl
  · dsimp only at ran
    split at ran
    · cases ran; exact adds_none rfl rfl
    · split at ran
      · cases ran; exact adds_none rfl rfl
      · exact checked.before (isAccRetry_adds ran)

theorem terminalSwitch_adds (ran : terminalSwitch created header d replies = some h)
    (running : TermMsgCmd.ofCode d.records.cmdHeader.imCmd ≠ some .stopAcc) :
    AddsWhere (enters d = some .opening ∧ h.daemon.accState = .opened) .accSuccess 3 d h.daemon := by
  have other (silent : Adds [] 0 d h.daemon) (entry : enters d ≠ some .opening) :
      AddsWhere (enters d = some .opening ∧ h.daemon.accState = .opened) .accSuccess 3 d h.daemon :=
    adds_unmet (entry ·.1) silent
  have relayed {ask answer} (ran : cloudRetry ask answer header d replies = some h)
      (asked : ∀ d header ex, Adds [] 0 d (ask d header ex).daemon) (answered : ∀ d, Adds [] 0 d (answer d).1) :=
    other (cloudRetry_adds ran asked answered)
  unfold terminalSwitch at ran
  cases command : TermMsgCmd.ofCode d.records.cmdHeader.imCmd with
  | none =>
    simp only [command] at ran
    cases ran
    exact other (adds_none rfl rfl) (by simp [enters,command])
  | some kind =>
    simp only [command] at ran
    cases kind with
    | startAcc =>
      by_cases idle : d.accState = .closed
      · have entry : enters d = some .opening := by simp [enters,command,idle]
        simpa [entry] using startAccRetry_adds ran idle
      · rw [startAccRetry_refused idle] at ran
        cases ran
        exact other (adds_none rfl rfl) (by simp [enters,command,idle])
    | stopAcc => exact absurd command running
    | accStateInfo => exact other (accStateInfo_adds ran) (by simp only [enters,command]; split <;> decide)
    | getflow => exact relayed ran (run_adds .getflow) (fun d => adds_none rfl rfl) (by simp [enters,command])
    | getflowInfo => exact relayed ran (run_adds .getflowInfo) (fun d => adds_none rfl rfl) (by simp [enters,command])
    | ungettedflow => exact relayed ran (run_adds .ungetflow) (fun d => adds_none rfl rfl) (by simp [enters,command])
    | getAcclist => exact relayed ran (run_adds .getacclist) (fun d => adds_none rfl rfl) (by simp [enters,command])
    | keepacc | iosinfo | peakflow => cases ran; exact other (adds_none rfl rfl) (by simp [enters,command])

theorem imHandleMsg_adds (ran : imHandleMsg created header d pMsg replies = some h) (running : stops d pMsg = false) :
    AddsWhere (asks d pMsg = some .opening ∧ h.daemon.accState = .opened) .accSuccess 3 d h.daemon := by
  have parsed : Adds [] 0 d (received d pMsg).1 := adds_none rfl rfl
  unfold imHandleMsg imHandleCmdTerminal at ran
  dsimp only at ran
  split at ran
  · rename_i valid
    have accepted : (received d pMsg).2 = msgCodeSucess := valid
    have asked : asks d pMsg = enters (received d pMsg).1 := if_pos accepted
    obtain ⟨handled,switched,rfl⟩ := Option.map_eq_some_iff.mp ran
    rw [stops,decide_eq_true accepted,Bool.true_and,decide_eq_false_iff_not] at running
    have state := (Daemon.reply_quiet handled.daemon pMsg handled.errcode (some handled.data.json)).accState
    dsimp only
    simp only [asked,state]
    exact (terminalSwitch_adds switched running).imp fun _ _ adds => (parsed.before adds).after (reply_adds ..)
  · rename_i invalid
    cases ran
    have unasked : asks d pMsg = none := if_neg invalid
    exact adds_unmet (by simp [unasked]) (parsed.before (reply_adds ..))

theorem imRollqueryThread_adds (ran : imRollqueryThread d p replies = some t) (idle : p.registering = false) :
    AddsWhere (t.poller.any (·.registering) = true) .accSuccess 2 d t.daemon := by
  cases replies with
  | nil => cases ran
  | cons ex rest =>
    have asked := run_adds .gettaskresult d p.header ex
    unfold imRollqueryThread at ran
    dsimp only at ran
    split at ran
    · split at ran
      · cases ran; exact adds_met rfl (asked.before (rollOpening_adds _))
      · cases ran; exact adds_unmet nofun asked
      · cases ran; exact adds_unmet nofun asked
    · split at ran
      · cases rest with
        | nil => cases ran
        | cons login rest =>
          cases ran
          exact adds_unmet (by simp [idle]) (asked.before (run_adds .login _ default login))
      · split at ran
        · cases ran; exact adds_unmet nofun asked
        · cases ran; exact adds_unmet (by simp [idle]) asked

theorem imStartHeartbeatCloud_adds (d : Daemon) (ex : Exchange) :
    Adds [] 0 d (imStartHeartbeatCloud d ex) ∨ Adds [.accWillstop] 1 d (imStartHeartbeatCloud d ex) := by
  have asked := run_adds .heartbeat d default ex
  unfold imStartHeartbeatCloud
  dsimp only
  split
  · exact .inl asked
  · split
    · exact .inr (asked.before (imBrocastToTerminal_adds _ .accWillstop _))
    · split
      · exact .inl asked
      · exact .inl asked

theorem imStartFlowCount_adds (ran : imStartFlowCount d ifaList replies = some reported) : Adds [] 0 d reported.1 := by
  unfold imStartFlowCount at ran
  dsimp only at ran
  split at ran
  · cases ran; exact adds_none rfl rfl
  · split at ran
    · cases ran; exact adds_none rfl rfl
    · cases replies with
      | nil => cases ran
      | cons ex rest =>
        cases ran
        exact run_adds .countflow _ default ex

theorem runAlarm_adds (ran : runAlarm d i ifaList replies = some rung) :
    Adds [] 0 d rung.1 ∨ Adds [.accWillstop] 1 d rung.1 := by
  unfold runAlarm at ran
  cases place : d.timers.thealarms[i]? with
  | none => simp [place] at ran
  | some a =>
    simp only [place] at ran
    obtain ⟨called,back,rfl⟩ := Option.map_eq_some_iff.mp ran
    have moved : Adds [] 0 called.1 (called.1.reschedule d.timers.clock a.clientreg) := adds_none rfl rfl
    unfold runCallback at back
    cases callback : a.thecallback with
    | imStartHeartbeatCloud =>
      simp only [callback] at back
      cases replies with
      | nil => cases back
      | cons ex rest => cases back; exact imStartHeartbeatCloud_adds d ex
    | imStartFlowCount =>
      simp only [callback] at back
      exact .inl ((imStartFlowCount_adds back).after moved)
    | imUdpbrocastTimerProc =>
      simp only [callback] at back
      cases back
      refine .inl (Adds.after ?_ moved)
      have regnum : (imUdpbrocastTimerProc d.timers).1.regnum = d.timers.regnum := by
        unfold imUdpbrocastTimerProc
        split <;> rfl
      unfold sendUdp
      dsimp only
      split
      · exact ⟨List.filterMap_append,congrArg (· % 2^32) regnum⟩
      · exact adds_none rfl regnum

theorem requestsOf_cons (registering : Bool) (p : Poller) (rest : List Poller) : requestsOf registering (p :: rest) =
    if p.registering = registering then p.request ::ₘ requestsOf registering rest else requestsOf registering rest := by
  unfold requestsOf
  rw [List.filter_cons]
  by_cases same : p.registering = registering <;> simp [same]

theorem requestsOf_perm (registering : Bool) (same : pollers.Perm others) :
    requestsOf registering pollers = requestsOf registering others :=
  Multiset.coe_eq_coe.mpr ((same.filter _).map _)

theorem requestsOf_erase (registering : Bool) {pollers : List Poller} (found : pollers[i]? = some p) :
    requestsOf registering pollers = if p.registering = registering then
      p.request ::ₘ requestsOf registering (pollers.eraseIdx i) else requestsOf registering (pollers.eraseIdx i) := by
  obtain ⟨place,rfl⟩ := List.getElem?_eq_some_iff.mp found
  rw [← requestsOf_cons]
  exact (requestsOf_perm registering (List.getElem_cons_eraseIdx_perm place)).symm

theorem requestsOf_set (registering : Bool) {pollers : List Poller} (found : pollers[i]? = some p) (q : Poller) :
    requestsOf registering (pollers.set i q) = if q.registering = registering then
      q.request ::ₘ requestsOf registering (pollers.eraseIdx i) else requestsOf registering (pollers.eraseIdx i) := by
  obtain ⟨place,_⟩ := List.getElem?_eq_some_iff.mp found
  rw [← requestsOf_cons]
  exact requestsOf_perm registering (List.set_perm_cons_eraseIdx place q)

theorem requestsOf_spawn (registering spawned : Bool) (pollers : List Poller) (thread : Option MsgHeader) (request : Nat) :
    requestsOf registering (pollers ++ spawn spawned thread request) =
      if registering = false ∧ spawned = true ∧ thread.isSome = true then request ::ₘ requestsOf registering pollers
      else requestsOf registering pollers := by
  rcases spawn_cases spawned thread request with none | ⟨header,rfl,one⟩
  · have alone : ¬(registering = false ∧ spawned = true ∧ thread.isSome = true) := by
      rintro ⟨_,rfl,present⟩
      obtain ⟨header,rfl⟩ := Option.isSome_iff_exists.mp present
      cases none
    rw [none,List.append_nil,if_neg alone]
  · have present : thread.isSome = true := by
      cases thread with
      | none => cases one
      | some header => rfl
    rw [one,requestsOf_perm registering List.perm_append_comm,List.singleton_append,requestsOf_cons]
    cases registering <;> simp [present]

theorem Adds.service {w : World} (adds : Adds kinds n w.daemon d) (pollers : List Poller) (request : Nat) :
    (World.mk d pollers request).service = {w.service with
      phase := d.accState,requests := request,waiting := requestsOf false pollers,opening := requestsOf true pollers,
      notices := w.service.notices ++ kinds}.give n := by
  obtain ⟨notices,regnum⟩ := adds
  unfold World.service Service.give
  dsimp only
  rw [notices,regnum,Nat.mod_add_mod]

theorem Adds.service_silent {w : World} (adds : Adds [] 0 w.daemon d) (pollers : List Poller) (request : Nat) :
    (World.mk d pollers request).service = {w.service with
      phase := d.accState,requests := request,waiting := requestsOf false pollers,
      opening := requestsOf true pollers} := by
  rw [adds.service]
  unfold World.service Service.give
  dsimp only
  rw [List.append_nil,Nat.add_zero,Nat.mod_mod]

def World.requested (w : World) (d : Daemon) (spawned : Bool) (thread : Option MsgHeader) : World :=
  ⟨d,w.pollers ++ spawn spawned thread (w.request+1),w.request+1⟩

theorem asked_moves (mayStop : Service → Prop) {w : World}
    (asked : Asked settled thread.isSome state w.daemon replies d' spawned) (waits : state.transient = true)
    (idle : w.daemon.accState = .closed)
    (adds : AddsWhere (state = .opening ∧ d'.accState = .opened) .accSuccess 3 w.daemon d') :
    Service.Move mayStop w.service (w.requested d' spawned thread).service := by
  obtain ⟨begun,last,_,same,outcome⟩ := asked
  have entered : begun.accState = state := same.accState
  have quiet (waiting : d'.accState = state) : Adds [] 0 w.daemon d' := by
    refine adds.silent ?_
    rw [waiting]
    rintro ⟨rfl,impossible⟩
    cases impossible
  cases outcome with
  | closed keep =>
    have closed : d'.accState = .closed := keep.accState
    have silent : Adds [] 0 w.daemon d' := adds.silent (by rw [closed]; nofun)
    have next : (w.requested d' false thread).service = {w.service with requests := w.service.requests+1} := by
      rw [World.requested,silent.service_silent]
      simp [World.service,requestsOf_spawn,closed,idle]
    rw [next]
    exact .dismiss
  | delayed accepted code keep =>
    have waiting : d'.accState = state := keep.accState.trans entered
    have silent := quiet waiting
    cases thread with
    | none =>
      have next : (w.requested d' (none : Option MsgHeader).isSome none).service =
          {w.service with phase := state,requests := w.service.requests+1} := by
        rw [World.requested,silent.service_silent]
        simp [World.service,requestsOf_spawn,waiting]
      rw [next]
      exact .strand idle waits
    | some header =>
      have next : (w.requested d' (some header).isSome (some header)).service = {w.service with
          phase := state,requests := w.service.requests+1,waiting := (w.service.requests+1) ::ₘ w.service.waiting} := by
        rw [World.requested,silent.service_silent]
        simp [World.service,requestsOf_spawn,waiting]
      rw [next]
      exact .delay idle waits
  | opened opening keep =>
    have opened : d'.accState = .opened := keep.accState
    have sent := adds.sent ⟨entered.symm.trans opening,opened⟩
    have next : (w.requested d' false thread).service = {w.service with
        phase := .opened,requests := w.service.requests+1,
        notices := w.service.notices ++ [BrocastNotifyType.accSuccess]}.give 3 := by
      rw [World.requested,sent.service]
      simp [World.service,requestsOf_spawn,opened]
    rw [next]
    exact .grant idle
  | left accepted code keep =>
    have waiting : d'.accState = state := keep.accState.trans entered
    have next : (w.requested d' false thread).service =
        {w.service with phase := state,requests := w.service.requests+1} := by
      rw [World.requested,(quiet waiting).service_silent]
      simp [World.service,requestsOf_spawn,waiting]
    rw [next]
    exact .strand idle waits

theorem asks_replaces (request : asks w.daemon pMsg = some state) :
    requestAfter w pMsg = w.request+1 ∧ stops w.daemon pMsg = false := by
  unfold asks at request
  split at request
  · rename_i valid
    unfold requestAfter stops
    unfold enters at request
    cases command : TermMsgCmd.ofCode (received w.daemon pMsg).1.records.cmdHeader.imCmd with
    | none => simp [command] at request
    | some kind =>
      simp only [command] at request
      cases kind with
      | startAcc | accStateInfo =>
        dsimp only at request
        split at request
        · simp_all [supersedes]
        · cases request
      | _ => cases request
  · cases request

theorem stops_replaces (stop : stops w.daemon pMsg = true) : requestAfter w pMsg = w.request+1 := by
  obtain ⟨valid,command⟩ := Bool.and_eq_true_iff.mp stop
  have replaced : supersedes (received w.daemon pMsg).1 = true := by
    unfold supersedes
    rw [of_decide_eq_true command]
  exact if_pos ⟨of_decide_eq_true valid,replaced⟩

def Heeds (mayStop : Service → Prop) (w : World) : Event → Prop
  | .message pMsg _ _ replies => stopTaken w.daemon pMsg replies = true → mayStop w.service
  | _ => True

theorem stop_moves {mayStop : Service → Prop} (met : Heeds mayStop w (.message pMsg thread header replies))
    (stop : stops w.daemon pMsg = true) (ran : imHandleMsg thread.isSome header w.daemon pMsg replies = some h)
    (exact : h.rest = []) : Service.Move mayStop w.service (w.requested h.daemon h.spawned thread).service := by
  obtain ⟨ex,mid,rfl,same,done⟩ := stop_handled stop ran exact
  obtain ⟨handled,switched,rfl⟩ := stop_switched stop ran
  have parsed : Adds [] 0 w.daemon (received w.daemon pMsg).1 := adds_none rfl rfl
  have adds := (stopAcc_adds switched).imp fun _ _ adds =>
    (parsed.before adds).after (reply_adds handled.daemon pMsg handled.errcode (some handled.data.json))
  have alone : handled.spawned = false := (stopAcc_parts switched).1
  rw [(received_quiet w.daemon pMsg).accState] at adds
  dsimp only at done ⊢
  generalize handled.daemon.reply pMsg handled.errcode (some handled.data.json) = d at adds done ⊢
  by_cases accepted : accepts w.daemon.accState ex.body = true
  · rw [if_pos accepted] at done
    have closed : d.accState = .closed := done.accState
    have taken : stopTaken w.daemon pMsg [ex] = true := by simp [stopTaken,stop,accepted]
    have next : (w.requested d handled.spawned thread).service = {w.service with
        phase := .closed,requests := w.service.requests+1,
        notices := w.service.notices ++ [BrocastNotifyType.accStop]}.give 1 := by
      rw [World.requested,(adds.sent accepted).service]
      simp [World.service,requestsOf_spawn,closed,alone]
    rw [next]
    exact .stop (met taken)
  · rw [if_neg accepted] at done
    have state := done.accState.trans same.accState
    have next : (w.requested d handled.spawned thread).service = {w.service with requests := w.service.requests+1} := by
      rw [World.requested,(adds.silent accepted).service_silent]
      simp [World.service,requestsOf_spawn,state,alone]
    rw [next]
    exact .dismiss

theorem poll_moves {mayStop : Service → Prop} (taken : step w (.poll i replies) = some next) :
    Relation.ReflTransGen (Service.Move mayStop) w.service next.service := by
  obtain ⟨p,t,found,idle,ran,rfl⟩ := step_poll taken
  have adds := imRollqueryThread_adds ran idle
  have waiting := requestsOf_erase false found
  have opening := requestsOf_erase true found
  rw [if_pos idle] at waiting
  rw [if_neg (by rw [idle]; nofun)] at opening
  obtain ⟨d,kept,rest⟩ := t
  have rolled := imRollqueryThread_rolls ran idle
  dsimp only at rolled adds ⊢
  cases rolled with
  | registering keep state made registering same =>
    rename_i mid q
    have phase : d.accState = .opening := by rw [made,rollOpening_accState,state]
    have moved : (World.mk d (w.pollers.set i q) w.request).service = {w.service with
        waiting := requestsOf false (w.pollers.eraseIdx i),opening := p.request ::ₘ w.service.opening,
        notices := w.service.notices ++ [BrocastNotifyType.accSuccess]}.give 2 := by
      rw [(adds.sent registering).service]
      simp [World.service,requestsOf_set _ found,registering,same,opening,phase,← keep.accState,state]
    exact .single (moved ▸ .found (keep.accState.symm.trans state) waiting)
  | closed keep =>
    have closed : d.accState = .closed := keep.accState
    have moved : (World.mk d (w.pollers.eraseIdx i) w.request).service = {w.service with
        phase := .closed,waiting := requestsOf false (w.pollers.eraseIdx i)} := by
      rw [(adds.silent nofun).service_silent]
      simp [World.service,opening,closed]
    exact .single (moved ▸ .quit waiting)
  | ended keep final =>
    have moved : (World.mk d (w.pollers.eraseIdx i) w.request).service = {w.service with
        waiting := requestsOf false (w.pollers.eraseIdx i)} := by
      rw [(adds.silent nofun).service_silent]
      simp [World.service,opening,keep.accState]
    exact .single (moved ▸ .leave ((congrArg AccOpenState.transient keep.accState).symm.trans final) waiting)
  | again keep head same =>
    rename_i q
    have moved : (World.mk d (w.pollers.set i q) w.request).service = w.service := by
      rw [(adds.silent (by simp [head])).service_silent]
      simp [World.service,requestsOf_set _ found,head,same,waiting,opening,keep.accState]
    exact moved ▸ .refl

-- Every step is a move of the service, or none.
theorem step_simulates (mayStop : Service → Prop) : Simulates step (Heeds mayStop) (Service.Move mayStop) World.service := by
  intro w event next met taken
  cases event with
  | isaccInit thread header replies =>
    obtain ⟨q,ran,exact,rfl⟩ := step_isaccInit taken
    have adds := imAutoQueryIsacc_adds _ _ _ _ q ran
    by_cases idle : w.daemon.accState = .closed
    · rw [if_pos idle]
      exact .single (asked_moves mayStop (imAutoQueryIsacc_asked ran exact idle) rfl idle (adds_unmet nofun adds))
    · rw [if_neg idle]
      rw [imAutoQueryIsacc_idle idle] at ran
      cases ran
      have same : (World.mk w.daemon (w.pollers ++ spawn false thread w.request) w.request).service = w.service := by
        simp [World.service,requestsOf_spawn]
      exact same ▸ .refl
  | message pMsg thread header replies =>
    obtain ⟨h,ran,exact,rfl⟩ := step_message taken
    by_cases stop : stops w.daemon pMsg = true
    · rw [stops_replaces stop]
      exact .single (stop_moves met stop ran exact)
    · rw [Bool.not_eq_true] at stop
      have adds := imHandleMsg_adds ran stop
      have handled := imHandleMsg_handles ran exact
      cases request : asks w.daemon pMsg with
      | none =>
        rw [request] at handled adds
        rw [requestAfter_kept request stop]
        generalize h.spawned = spawned at handled
        cases handled with
        | quiet keep =>
          have same : (World.mk h.daemon (w.pollers ++ spawn false thread w.request) w.request).service = w.service := by
            rw [(adds.silent nofun).service_silent]
            simp [World.service,requestsOf_spawn,keep.accState]
          exact same ▸ .refl
        | stopped command => rw [stop] at command; cases command
      | some state =>
        rw [request] at handled adds
        rw [(asks_replaces request).1]
        obtain ⟨idle,waits⟩ := asks_idle request
        cases handled with
        | asked asked => exact .single (asked_moves mayStop asked waits idle (by simpa using adds))
  | poll i replies => exact poll_moves taken
  | resume i =>
    obtain ⟨p,found,registering,rfl⟩ := step_resume taken
    have opening := requestsOf_erase true found
    have waiting := requestsOf_erase false found
    rw [if_pos registering] at opening
    rw [if_neg (by rw [registering]; nofun)] at waiting
    have phase : (rollOpened w.daemon).accState = .opened := rfl
    have moved : (World.mk (rollOpened w.daemon) (w.pollers.eraseIdx i) w.request).service = {w.service with
        phase := .opened,opening := requestsOf true (w.pollers.eraseIdx i)}.give 1 := by
      rw [(rollOpened_adds w.daemon).service]
      simp [World.service,waiting,phase]
    exact .single (moved ▸ .finish opening)
  | alarm i ifaList replies =>
    obtain ⟨rung,ran,rfl⟩ := step_alarm taken
    have state := (runAlarm_fewer ran).accState
    rcases runAlarm_adds ran with silent | warned
    · have same : (World.mk rung.1 w.pollers w.request).service = w.service := by
        rw [silent.service_silent]
        simp [World.service,state]
      exact same ▸ .refl
    · have moved : (World.mk rung.1 w.pollers w.request).service =
          {w.service with notices := w.service.notices ++ [BrocastNotifyType.accWillstop]}.give 1 := by
        rw [warned.service]
        simp [World.service,state]
      exact .single (moved ▸ .warn)
  | alarmInit =>
    cases taken
    have armed : Adds [] 0 w.daemon {w.daemon with timers := initAlarmPostConfig w.daemon.timers} :=
      adds_none rfl (setAnAlarm_queue _).2
    have same := armed.service_silent w.pollers w.request
    exact same ▸ .refl
  | clock => cases taken; exact .refl

theorem boot_service (ulongBits : Nat) (uci : UciIsacc) (lanIp : Bytes) (ex : Exchange) :
    (World.boot ulongBits uci lanIp ex).service = .boot := by
  have notices : (World.boot ulongBits uci lanIp ex).daemon.notices = [] := by
    unfold Daemon.notices
    rw [boot_out]
    rfl
  unfold World.service
  rw [notices,World.boot_timers]
  rfl

theorem reached_service {guard : World → Event → Prop} (path : Reached guard (World.boot ulongBits uci lanIp ex) w) :
    Relation.ReflTransGen (Service.Move fun _ => True) .boot w.service := by
  rw [← boot_service ulongBits uci lanIp ex]
  refine (step_simulates fun _ => True).reached (path.weaken fun w event _ => ?_)
  cases event with
  | message pMsg thread header replies => exact fun _ => trivial
  | _ => trivial

def polledSession : List Event := started ++ [told .startAcc [taskReply .startAcc],
  .poll 0 [delivered .getTaskresult msgCodeSucess [[]]],.resume 0,told .startAcc []]

theorem reached_service_polled : ∃ w, Reached (fun _ _ => True) booted w ∧ w.daemon.accState = .opened ∧
    Relation.ReflTransGen (Service.Move fun _ => True) .boot w.service := by
  have ran : ((run step booted polledSession).map fun w => w.daemon.accState) = some .opened := by decide
  obtain ⟨w,ran,opened⟩ := Option.map_eq_some_iff.mp ran
  exact ⟨w,run_reached ran,opened,reached_service (run_reached ran)⟩

theorem reached_moves {guard : World → Event → Prop} {I : Service → Prop}
    (path : Reached guard (World.boot ulongBits uci lanIp ex) w)
    (kept : ∀ s t, I s → Service.Move (fun _ => True) s t → I t) (base : I .boot) : I w.service :=
  moves_invariant kept base (reached_service path)

theorem requestsOf_all (pollers : List Poller) :
    requestsOf false pollers + requestsOf true pollers = ↑(pollers.map (·.request)) := by
  induction pollers with
  | nil => rfl
  | cons p rest ih =>
    rw [requestsOf_cons,requestsOf_cons,List.map_cons,← Multiset.cons_coe,← ih]
    cases p.registering <;> simp

theorem reached_one_poller {guard : World → Event → Prop} (path : Reached guard (World.boot ulongBits uci lanIp ex) w) :
    (w.pollers.map (·.request)).Nodup ∧ ∀ p ∈ w.pollers, p.request ≤ w.request := by
  have owned : w.service.Owned := reached_moves path Service.move_owned ⟨Multiset.nodup_zero,nofun⟩
  have all : w.service.waiting + w.service.opening = ↑(w.pollers.map (·.request)) := requestsOf_all w.pollers
  unfold Service.Owned at owned
  rw [all] at owned
  exact ⟨Multiset.coe_nodup.mp owned.1,fun p member => owned.2 p.request (List.mem_map_of_mem member)⟩

def twoPollers : List Event := started ++ [told .startAcc [taskReply .startAcc],
  told .stopAcc [delivered .stopAcc msgCodeSucess []],told .startAcc [taskReply .startAcc]]

theorem reached_one_poller_two : ∃ w, Reached (fun _ _ => True) booted w ∧ w.pollers.length = 2 ∧
    (w.pollers.map (·.request)).Nodup ∧ ∀ p ∈ w.pollers, p.request ≤ w.request := by
  have ran : ((run step booted twoPollers).map fun w => w.pollers.length) = some 2 := by decide
  obtain ⟨w,ran,two⟩ := Option.map_eq_some_iff.mp ran
  exact ⟨w,run_reached ran,two,reached_one_poller (run_reached ran)⟩

def World.sleeping (w : World) : Nat := w.pollers.countP (·.registering)

theorem card_opening (w : World) : Multiset.card w.service.opening = w.sleeping := by
  change Multiset.card (requestsOf true w.pollers) = _
  unfold requestsOf World.sleeping
  rw [Multiset.coe_card,List.length_map,List.countP_eq_length_filter]
  congr 2
  funext p
  cases p.registering <;> rfl

-- A session is announced before it opens, and for each opening once more.
theorem reached_announced {guard : World → Event → Prop} (path : Reached guard (World.boot ulongBits uci lanIp ex) w) :
    w.sleeping + (if w.daemon.accState = .opened then 1 else 0) ≤ w.daemon.notices.count .accSuccess := by
  have paid : w.service.Paid := reached_moves path Service.move_paid (Nat.zero_le _)
  unfold Service.Paid at paid
  rwa [card_opening] at paid

theorem reached_announced_polled : ∃ w, Reached (fun _ _ => True) booted w ∧ w.daemon.accState = .opened ∧
    w.sleeping + (if w.daemon.accState = .opened then 1 else 0) ≤ w.daemon.notices.count .accSuccess := by
  have ran : ((run step booted polledSession).map fun w => w.daemon.accState) = some .opened := by decide
  obtain ⟨w,ran,opened⟩ := Option.map_eq_some_iff.mp ran
  exact ⟨w,run_reached ran,opened,reached_announced (run_reached ran)⟩

-- The handles given out: one for each notice and two for each session, less the second of one
-- still opening.
theorem reached_balanced {guard : World → Event → Prop} (path : Reached guard (World.boot ulongBits uci lanIp ex) w) :
    (w.daemon.timers.regnum + w.sleeping) % 2^32 =
      (1 + w.daemon.notices.length + 2*w.daemon.notices.count .accSuccess) % 2^32 := by
  have balanced : w.service.Balanced := reached_moves path Service.move_balanced rfl
  unfold Service.Balanced at balanced
  rw [card_opening] at balanced
  exact (Nat.mod_add_mod _ _ _).symm.trans balanced

theorem reached_balanced_sleeping : ∃ w, Reached (fun _ _ => True) booted w ∧ w.sleeping = 1 ∧
    (w.daemon.timers.regnum + w.sleeping) % 2^32 =
      (1 + w.daemon.notices.length + 2*w.daemon.notices.count .accSuccess) % 2^32 := by
  have ran : ((run step booted (polledSession.take 4)).map World.sleeping) = some 1 := by decide
  obtain ⟨w,ran,one⟩ := Option.map_eq_some_iff.mp ran
  exact ⟨w,run_reached ran,one,reached_balanced (run_reached ran)⟩

-- Where no STOP_ACC is carried out under a running poller, no session is announced before
-- the one announced last has been stopped.
theorem reached_sessions (path : Reached Unstopped (World.boot ulongBits uci lanIp ex) w) :
    Due Service.sessionDue w.daemon.notices := by
  have heeds : ∀ u event, Unstopped u event → Heeds Service.Unwatched u event := by
    intro u event met
    cases event with
    | message pMsg thread header replies =>
      intro taken
      have none := met taken
      unfold Service.Unwatched World.service
      dsimp only
      rw [none]
      exact ⟨rfl,rfl⟩
    | _ => trivial
  have base : Service.Orderly (World.boot ulongBits uci lanIp ex).service := by
    rw [boot_service]
    exact ⟨Nat.zero_le _,.inl ⟨rfl,rfl⟩,nofun,due_nil _⟩
  have orderly := (step_simulates Service.Unwatched).invariant Service.move_orderly base (path.weaken heeds)
  exact orderly.due

def twoSessions : List Event := started ++ [told .startAcc [delivered .startAcc msgCodeSucess [[]]],
  told .stopAcc [delivered .stopAcc msgCodeSucess []],told .startAcc [delivered .startAcc msgCodeSucess [[]]]]

theorem reached_sessions_two : ∃ w, Reached Unstopped booted w ∧ w.daemon.notices = [.accSuccess,.accStop,.accSuccess] ∧
    Due Service.sessionDue w.daemon.notices := by
  have ran : ((run step booted twoSessions).map fun w => w.daemon.notices) = some [.accSuccess,.accStop,.accSuccess] := by
    decide
  obtain ⟨w,ran,notices⟩ := Option.map_eq_some_iff.mp ran
  have path := met_reached ran (by decide : Met step Unstopped booted twoSessions)
  exact ⟨w,path,notices,reached_sessions path⟩

end ImAcc
