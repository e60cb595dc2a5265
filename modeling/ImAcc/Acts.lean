import ImAcc.Lib.Script
import ImAcc.Stored

-- Every step of the daemon is a list of acts; what all acts keep, every step keeps.
namespace ImAcc
open JsonC Script

inductive Act where
  | parse (pMsg : Option Json)
  | exchange (op : CloudOp) (header : MsgHeader) (ex : Exchange)
  | state (next : AccOpenState)
  | granted
  | found
  | finish
  | stopHearbeat
  | stopFlowcount
  | notice (notyType : BrocastNotifyType)
  | peakflow (imCurBandwidth : Int)
  | persist
  | recheck
  | flowinfo
  | useFlow (flow : Nat)
  | baseline (flow : Nat)
  | beat (cntTime : Nat)
  | udp
  | moved (now : Timeval) (clientreg : Nat)
  | reply (msg : Json)
  | alarmInit
  | clock (now : Timeval)

def noticeText (r : Records) : BrocastNotifyType → Bytes
  | .accSuccess => successText r
  | .accWillstop => willstopText r
  | other => brocastNotify other

def Act.apply (d : Daemon) : Act → Daemon
  | .parse pMsg => (received d pMsg).1
  | .exchange op header ex => (op.run d header ex).daemon
  | .state next => d.setAccState next
  | .granted => startAccOpened d
  | .found => rollOpening d
  | .finish => rollOpened d
  | .stopHearbeat => imStopHeartbeatCloud d
  | .stopFlowcount => imStopFlowCount d
  | .notice notyType => imBrocastToTerminal d notyType (noticeText d.records notyType)
  | .peakflow imCurBandwidth => {d with records := imCountFlowPeakflow d.records imCurBandwidth}
  | .persist => {d with records := configWriteImAcc d.records}
  | .recheck => {d with records := (imCheckIsnetChange d.records).1}
  | .flowinfo => {d with records := (imJsonMakeTermresFlowinfo d.records .empty).1}
  | .useFlow flow => {d with records := {d.records with countflowCmd := {d.records.countflowCmd with imUseFlow := flow}}}
  | .baseline flow => {d with flowCount := flow}
  | .beat cntTime => {d with cntTime := cntTime}
  | .udp => sendUdp d
  | .moved now clientreg => d.reschedule now clientreg
  | .reply msg => d.send (.reply msg)
  | .alarmInit => {d with timers := initAlarmPostConfig d.timers}
  | .clock now => {d with timers := {d.timers with clock := now}}

def Act.Allowed (d : Daemon) : Act → Prop
  | .granted | .found => d.accState = .opening
  | .notice notyType => notyType ≠ .accSuccess
  | _ => True

def acting : Rules Daemon Act := ⟨Act.apply,Act.Allowed⟩

-- The acts of a handler: none parses a message, and OPENING is entered only on opening.
def Act.Inner (opening : Prop) : Act → Prop
  | .parse _ => False
  | .state next => next = .opening → opening
  | _ => True

def Act.exchanged : Act → Option Exchange
  | .exchange _ _ ex => some ex
  | _ => none

-- d' comes out of d by inner acts, whose exchanges are what replies has before rest.
def Scripted (opening : Prop) (d : Daemon) (replies : List Exchange) (d' : Daemon) (rest : List Exchange) : Prop :=
  ∃ acts, Plays acting d acts d' ∧ (∀ act ∈ acts, act.Inner opening) ∧ acts.filterMap Act.exchanged ++ rest = replies

theorem Scripted.refl (opening : Prop) (d : Daemon) (replies : List Exchange) : Scripted opening d replies d replies :=
  ⟨[],rfl,fun _ member => absurd member List.not_mem_nil,rfl⟩

theorem Scripted.trans (first : Scripted opening d replies mid left) (second : Scripted opening mid left d' rest) :
    Scripted opening d replies d' rest := by
  obtain ⟨xs,plays,inner,exchanged⟩ := first
  obtain ⟨ys,plays',inner',exchanged'⟩ := second
  refine ⟨xs ++ ys,plays.append plays',?_,?_⟩
  · intro act member
    rcases List.mem_append.mp member with early | late
    · exact inner act early
    · exact inner' act late
  · rw [List.filterMap_append,List.append_assoc,exchanged',exchanged]

theorem Scripted.act (before : Scripted opening d replies mid rest) (act : Act) (allowed : act.Allowed mid)
    (inner : act.Inner opening) (silent : act.exchanged = none) : Scripted opening d replies (act.apply mid) rest := by
  refine before.trans ⟨[act],⟨allowed,rfl⟩,?_,?_⟩
  · intro other member
    rw [List.mem_singleton.mp member]
    exact inner
  · simp [silent]

theorem Scripted.ask (opening : Prop) (op : CloudOp) (d : Daemon) (header : MsgHeader) (ex : Exchange)
    (rest : List Exchange) : Scripted opening d (ex :: rest) (op.run d header ex).daemon rest := by
  refine ⟨[.exchange op header ex],⟨trivial,rfl⟩,?_,rfl⟩
  intro act member
  rw [List.mem_singleton.mp member]
  trivial

theorem Scripted.widen (script : Scripted opening d replies d' rest) (wider : opening → opening') :
    Scripted opening' d replies d' rest := by
  obtain ⟨acts,plays,inner,exchanged⟩ := script
  refine ⟨acts,plays,?_,exchanged⟩
  intro act member
  have held := inner act member
  cases act with
  | parse pMsg => exact held
  | state next => exact fun entered => wider (held entered)
  | _ => trivial

theorem asked_script (op : CloudOp) (d : Daemon) (header : MsgHeader) (ex : Exchange) (rest : List Exchange)
    (entered : state = .opening → opening) :
    Scripted opening d (ex :: rest) (op.run (d.setAccState state) header ex).daemon rest :=
  ((Scripted.refl opening d (ex :: rest)).act (.state state) trivial entered rfl).trans (.ask _ op _ header ex rest)

theorem login_script (script : Scripted opening d replies mid (login :: rest)) :
    Scripted opening d replies (imCloudLogin mid login).daemon rest :=
  script.trans (.ask _ .login mid default login rest)

theorem Scripted.closing (script : Scripted opening d replies mid rest) :
    Scripted opening d replies (mid.setAccState .closed) rest :=
  script.act (.state .closed) trivial nofun rfl

theorem startAccRetry_script (ran : startAccRetry created header d replies = some h) :
    Scripted (d.accState = .closed) d replies h.daemon h.rest := by
  fun_induction startAccRetry created header d replies with
  | case1 header d replies busy => cases ran; exact .refl _ _ _
  | case2 | case6 => cases ran
  | case3 header d idle ex rest c failed =>
    cases ran
    have asked := asked_script .startaac d header ex rest fun _ : AccOpenState.opening = .opening => not_not.mp idle
    exact asked.closing
  | case4 header d idle ex rest c accepted delay =>
    cases ran
    exact asked_script .startaac d header ex rest fun _ => not_not.mp idle
  | case5 header d idle ex rest c accepted _ success =>
    cases ran
    have asked := asked_script .startaac d header ex rest fun _ : AccOpenState.opening = .opening => not_not.mp idle
    have waiting : c.daemon.accState = .opening :=
      (imCloudExchange_quiet (d.setAccState .opening) (imJsonMakeCmdStartacc d.records.acc) header ex).accState
    exact asked.act .granted waiting trivial rfl
  | case7 header d idle ex c accepted _ _ expired login rest l renewed ih =>
    have asked := asked_script .startaac d header ex (login :: rest)
      fun _ : AccOpenState.opening = .opening => not_not.mp idle
    exact (login_script asked).closing.trans ((ih ran).widen fun _ => not_not.mp idle)
  | case8 header d idle ex c accepted _ _ expired login rest l failed =>
    cases ran
    have asked := asked_script .startaac d header ex (login :: rest)
      fun _ : AccOpenState.opening = .opening => not_not.mp idle
    exact (login_script asked).closing
  | case9 header d idle ex rest c accepted delay success expired =>
    cases ran
    exact asked_script .startaac d header ex rest fun _ => not_not.mp idle

theorem isAccRetry_script (ran : isAccRetry created header d replies = some h) :
    Scripted False d replies h.daemon h.rest := by
  have asked (d : Daemon) (header : MsgHeader) (ex : Exchange) (rest : List Exchange) :
      Scripted False d (ex :: rest) (imCloudIsaac (d.setAccState .querying) header ex).daemon rest :=
    asked_script .isaac d header ex rest nofun
  fun_induction isAccRetry created header d replies with
  | case1 | case5 => cases ran
  | case2 header d ex rest c failed => cases ran; exact (asked d header ex rest).closing
  | case3 header d ex rest c accepted delay => cases ran; exact asked d header ex rest
  | case4 header d ex rest c accepted _ success =>
    cases ran
    exact (asked d header ex rest).act (.peakflow _) trivial trivial rfl
  | case6 header d ex c accepted _ _ expired login rest l renewed ih =>
    exact (login_script (asked d header ex (login :: rest))).closing.trans (ih ran)
  | case7 header d ex c accepted _ _ expired login rest l failed =>
    cases ran
    exact (login_script (asked d header ex (login :: rest))).closing
  | case8 header d ex rest c accepted delay success expired => cases ran; exact asked d header ex rest

theorem imAutoQueryIsacc_script (created : Bool) (header : MsgHeader) (d : Daemon) (replies : List Exchange) :
    ∀ q ∈ imAutoQueryIsacc created header d replies, Scripted False d replies q.daemon q.rest := by
  have asked (d : Daemon) (ex : Exchange) (rest : List Exchange) :
      Scripted False d (ex :: rest) (imCloudIsaac (d.setAccState .querying) header ex).daemon rest :=
    asked_script .isaac d header ex rest nofun
  fun_induction imAutoQueryIsacc created header d replies with
  | case1 d replies busy => intro q ran; cases ran; exact .refl _ _ _
  | case2 | case6 => intro q ran; cases ran
  | case3 d idle ex rest c failed => intro q ran; cases ran; exact (asked d ex rest).closing
  | case4 d idle ex rest c accepted delay => intro q ran; cases ran; exact asked d ex rest
  | case5 d idle ex rest c accepted delay success =>
    intro q ran
    cases ran
    exact ((asked d ex rest).act (.peakflow _) trivial trivial rfl).act .persist trivial trivial rfl
  | case7 d idle ex c accepted delay other expired login rest l renewed ih =>
    intro q ran
    obtain ⟨again,queried,rfl⟩ := Option.map_eq_some_iff.mp ran
    exact (login_script (asked d ex (login :: rest))).trans (ih again queried)
  | case8 d idle ex c accepted delay other expired login rest l failed =>
    intro q ran
    cases ran
    exact login_script (asked d ex (login :: rest))
  | case9 d idle ex rest c accepted delay success expired => intro q ran; cases ran; exact asked d ex rest

theorem cloudRetry_script (ran : cloudRetry ask answer header d replies = some h)
    (asked : ∀ d header ex rest, Scripted False d (ex :: rest) (ask d header ex).daemon rest)
    (answered : ∀ d rest, Scripted False d rest (answer d).1 rest) : Scripted False d replies h.daemon h.rest := by
  fun_induction cloudRetry ask answer header d replies with
  | case1 | case4 => cases ran
  | case2 header d ex rest c failed => cases ran; exact asked d header ex rest
  | case3 header d ex rest c accepted success =>
    cases ran
    exact (asked d header ex rest).trans (answered c.daemon rest)
  | case5 header d ex c accepted success expired login rest l renewed ih =>
    exact (login_script (asked d header ex (login :: rest))).trans (ih ran)
  | case6 header d ex c accepted success expired login rest l failed =>
    cases ran
    exact login_script (asked d header ex (login :: rest))
  | case7 header d ex rest c accepted success expired => cases ran; exact asked d header ex rest

theorem stopAcc_script (ran : stopAcc header d replies = some h) : Scripted False d replies h.daemon h.rest := by
  cases replies with
  | nil => cases ran
  | cons ex rest =>
    have asked := Scripted.ask False .stopaac d header ex rest
    unfold stopAcc at ran
    dsimp only at ran
    split at ran
    · cases ran; exact asked
    · cases ran
      have stopped := (asked.closing.act .stopHearbeat trivial trivial rfl).act .stopFlowcount trivial trivial rfl
      exact stopped.act (.notice .accStop) nofun trivial rfl

theorem accStateInfo_script (ran : accStateInfo created header d replies = some h) :
    Scripted False d replies h.daemon h.rest := by
  have checked := (Scripted.refl False d replies).act .recheck trivial trivial rfl
  unfold accStateInfo at ran
  split at ran
  · cases ran; exact .refl _ _ _
  · dsimp only at ran
    split at ran
    · cases ran; exact checked
    · split at ran
      · cases ran; exact checked
      · exact checked.trans (isAccRetry_script ran)

theorem terminalSwitch_script (ran : terminalSwitch created header d replies = some h) :
    Scripted (enters d = some .opening) d replies h.daemon h.rest := by
  have relayed {ask answer} (ran : cloudRetry ask answer header d replies = some h)
      (asked : ∀ d header ex rest, Scripted False d (ex :: rest) (ask d header ex).daemon rest)
      (answered : ∀ d rest, Scripted False d rest (answer d).1 rest) :
      Scripted (enters d = some .opening) d replies h.daemon h.rest :=
    (cloudRetry_script ran asked answered).widen False.elim
  unfold terminalSwitch at ran
  cases command : TermMsgCmd.ofCode d.records.cmdHeader.imCmd with
  | none =>
    simp only [command] at ran
    cases ran
    exact .refl _ _ _
  | some kind =>
    simp only [command] at ran
    cases kind with
    | startAcc =>
      refine (startAccRetry_script ran).widen fun idle => ?_
      simp only [enters,command,if_pos idle]
    | stopAcc => exact (stopAcc_script ran).widen False.elim
    | accStateInfo => exact (accStateInfo_script ran).widen False.elim
    | getflow => exact relayed ran (fun d header ex rest => .ask _ .getflow d header ex rest) fun d rest => .refl _ _ _
    | getflowInfo =>
      refine relayed ran (fun d header ex rest => .ask _ .getflowInfo d header ex rest) fun d rest => ?_
      exact (Scripted.refl False d rest).act .flowinfo trivial trivial rfl
    | ungettedflow => exact relayed ran (fun d header ex rest => .ask _ .ungetflow d header ex rest) fun d rest => .refl _ _ _
    | getAcclist => exact relayed ran (fun d header ex rest => .ask _ .getacclist d header ex rest) fun d rest => .refl _ _ _
    | keepacc | iosinfo | peakflow => cases ran; exact .refl _ _ _

theorem reply_script (script : Scripted opening d replies mid rest) (pMsg : Option Json) (errcode : Int)
    (data : Option Json) : Scripted opening d replies (mid.reply pMsg errcode data) rest := by
  unfold Daemon.reply
  cases imJsonMakeResponeSend pMsg errcode data with
  | none => exact script
  | some msg => exact script.act (.reply msg) trivial trivial rfl

theorem imHandleMsg_script (ran : imHandleMsg created header d pMsg replies = some h) :
    Scripted (asks d pMsg = some .opening) (received d pMsg).1 replies h.daemon h.rest := by
  unfold imHandleMsg imHandleCmdTerminal at ran
  dsimp only at ran
  split at ran
  · rename_i valid
    obtain ⟨handled,switched,rfl⟩ := Option.map_eq_some_iff.mp ran
    have asked : asks d pMsg = enters (received d pMsg).1 := if_pos valid
    rw [asked]
    exact reply_script (terminalSwitch_script switched) _ _ _
  · cases ran
    exact reply_script (.refl _ _ _) _ _ _

theorem imRollqueryThread_script (ran : imRollqueryThread d p replies = some t) :
    Scripted False d replies t.daemon t.rest := by
  cases replies with
  | nil => cases ran
  | cons ex rest =>
    have asked := Scripted.ask False .gettaskresult d p.header ex rest
    unfold imRollqueryThread at ran
    dsimp only at ran
    split at ran
    · split at ran
      · rename_i waiting
        cases ran
        exact asked.act .found waiting trivial rfl
      · cases ran
        exact (asked.act .persist trivial trivial rfl).closing
      · cases ran; exact asked
    · split at ran
      · cases rest with
        | nil => cases ran
        | cons login rest =>
          cases ran
          exact login_script (Scripted.ask False .gettaskresult d p.header ex (login :: rest))
      · split at ran
        · cases ran; exact asked.closing
        · cases ran; exact asked

theorem imStartHeartbeatCloud_script (d : Daemon) (ex : Exchange) (rest : List Exchange) :
    Scripted False d (ex :: rest) (imStartHeartbeatCloud d ex) rest := by
  have asked := Scripted.ask False .heartbeat d default ex rest
  unfold imStartHeartbeatCloud
  dsimp only
  split
  · exact asked
  · have counted := asked.act (.beat ((imCloudHeartbeat d ex).daemon.cntTime+1)) trivial trivial rfl
    split
    · exact counted.act (.notice .accWillstop) nofun trivial rfl
    · split
      · have cleared := counted.act (.beat 0) trivial trivial rfl
        exact (cleared.act .stopHearbeat trivial trivial rfl).act .stopFlowcount trivial trivial rfl
      · exact counted

theorem imStartFlowCount_script (ran : imStartFlowCount d ifaList replies = some result) :
    Scripted False d replies result.1 result.2 := by
  have stored (flow : Nat) := (Scripted.refl False d replies).act (.useFlow flow) trivial trivial rfl
  unfold imStartFlowCount at ran
  dsimp only at ran
  split at ran
  · cases ran; exact stored _
  · split at ran
    · cases ran
      exact (stored _).act (.baseline _) trivial trivial rfl
    · cases replies with
      | nil => cases ran
      | cons ex rest =>
        cases ran
        exact (stored _).trans (.ask _ .countflow _ default ex rest)

theorem runAlarm_script (ran : runAlarm d i ifaList replies = some result) : Scripted False d replies result.1 result.2 := by
  unfold runAlarm at ran
  cases place : d.timers.thealarms[i]? with
  | none => simp [place] at ran
  | some a =>
    simp only [place] at ran
    obtain ⟨called,back,rfl⟩ := Option.map_eq_some_iff.mp ran
    have script : Scripted False d replies called.1 called.2 := by
      unfold runCallback at back
      cases callback : a.thecallback with
      | imStartHeartbeatCloud =>
        simp only [callback] at back
        cases replies with
        | nil => cases back
        | cons ex rest => cases back; exact imStartHeartbeatCloud_script d ex rest
      | imStartFlowCount =>
        simp only [callback] at back
        exact imStartFlowCount_script back
      | imUdpbrocastTimerProc =>
        simp only [callback] at back
        cases back
        exact (Scripted.refl False d replies).act .udp trivial trivial rfl
    exact script.act (.moved _ _) trivial trivial rfl

def Event.replies : Event → List Exchange
  | .isaccInit _ _ replies | .message _ _ _ replies | .poll _ replies | .alarm _ _ replies => replies
  | .alarmInit | .resume _ | .clock _ => []

def Event.opened (w : World) : Event → Daemon
  | .message pMsg _ _ _ => (received w.daemon pMsg).1
  | _ => w.daemon

def Event.starts (w : World) : Event → Prop
  | .message pMsg _ _ _ => asks w.daemon pMsg = some .opening
  | _ => False

theorem poll_exact (taken : step w (.poll i replies) = some next) :
    ∃ p t, imRollqueryThread w.daemon p replies = some t ∧ t.rest = [] ∧ next.daemon = t.daemon := by
  unfold step at taken
  dsimp only at taken
  split at taken
  · cases taken
  · rename_i p found
    split at taken
    · cases taken
    · obtain ⟨t,ran,same⟩ := Option.bind_eq_some_iff.mp taken
      split at same
      · rename_i exact
        cases same
        exact ⟨p,t,ran,List.isEmpty_iff.mp exact,rfl⟩
      · cases same

theorem alarm_exact (taken : step w (.alarm i ifaList replies) = some next) :
    runAlarm w.daemon i ifaList replies = some (next.daemon,[]) := by
  obtain ⟨result,ran,same⟩ := Option.bind_eq_some_iff.mp taken
  split at same
  · rename_i exact
    cases same
    rw [ran,← List.isEmpty_iff.mp exact]
  · cases same

theorem step_inner (taken : step w event = some next) :
    Scripted (event.starts w) (event.opened w) event.replies next.daemon [] := by
  cases event with
  | isaccInit thread header replies =>
    obtain ⟨q,ran,exact,rfl⟩ := step_isaccInit taken
    have script := imAutoQueryIsacc_script _ _ _ _ q ran
    rwa [exact] at script
  | message pMsg thread header replies =>
    obtain ⟨h,ran,exact,rfl⟩ := step_message taken
    have script := imHandleMsg_script ran
    rwa [exact] at script
  | poll i replies =>
    obtain ⟨p,t,ran,exact,daemon⟩ := poll_exact taken
    have script := imRollqueryThread_script ran
    rwa [exact,← daemon] at script
  | resume i =>
    obtain ⟨p,found,registering,rfl⟩ := step_resume taken
    exact (Scripted.refl False w.daemon []).act .finish trivial trivial rfl
  | alarm i ifaList replies =>
    exact runAlarm_script (alarm_exact taken)
  | alarmInit =>
    cases taken
    exact (Scripted.refl False w.daemon []).act .alarmInit trivial trivial rfl
  | clock now =>
    cases taken
    exact (Scripted.refl False w.daemon []).act (.clock now) trivial trivial rfl

theorem step_acts (taken : step w event = some next) :
    ∃ acts, Plays acting w.daemon acts next.daemon ∧ acts.filterMap Act.exchanged = event.replies := by
  obtain ⟨acts,plays,_,exchanged⟩ := step_inner taken
  rw [List.append_nil] at exchanged
  cases event with
  | message pMsg thread header replies => exact ⟨.parse pMsg :: acts,⟨trivial,plays⟩,exchanged⟩
  | _ => exact ⟨acts,plays,exchanged⟩

def Kept (I : Daemon → Prop) : Prop := ∀ (d : Daemon) (act : Act), I d → act.Allowed d → I (act.apply d)

theorem step_keeps {I : Daemon → Prop} (kept : Kept I) (base : I w.daemon) (taken : step w event = some next) :
    I next.daemon := by
  obtain ⟨acts,plays,_⟩ := step_acts taken
  exact plays.keeps base fun d act _ => kept d act

theorem reached_keeps {guard : World → Event → Prop} {I : Daemon → Prop} (path : Reached guard start w)
    (kept : Kept I) (base : I start.daemon) : I w.daemon :=
  path.invariant (I := fun w => I w.daemon) base fun _ _ _ held _ taken => step_keeps kept held taken

-- A run told act by act, with a mark that its acts write and none reads.
inductive Chronicle {γ : Type} (watch : γ → Daemon → Act → γ) (start : World) (begun : γ) : World → γ → Prop where
  | nil : Chronicle watch start begun start begun
  | step : Chronicle watch start begun w mark → step w event = some next → Plays acting w.daemon acts next.daemon →
      acts.filterMap Act.exchanged = event.replies →
      Chronicle watch start begun next (watched acting watch mark w.daemon acts)

-- Every run can be told so.
theorem reached_chronicle {guard : World → Event → Prop} (path : Reached guard start w)
    (watch : γ → Daemon → Act → γ) (begun : γ) : ∃ mark, Chronicle watch start begun w mark := by
  induction path with
  | refl => exact ⟨begun,.nil⟩
  | step _ _ taken ih =>
    obtain ⟨mark,told⟩ := ih
    obtain ⟨acts,plays,exchanged⟩ := step_acts taken
    exact ⟨_,told.step taken plays exchanged⟩

theorem Chronicle.keeps {watch : γ → Daemon → Act → γ} {I : Daemon → γ → Prop}
    (told : Chronicle watch start begun w mark) (base : I start.daemon begun)
    (kept : ∀ (d : Daemon) (mark : γ) (act : Act), I d mark → act.Allowed d → I (act.apply d) (watch mark d act)) :
    I w.daemon mark := by
  induction told with
  | nil => exact base
  | step _ _ plays _ ih =>
    exact (plays.watching watch _).keeps (I := fun s => I s.1 s.2) ih fun s act _ held allowed => kept s.1 s.2 act held allowed

def emitted (before after : Daemon) : List Output := after.out.drop before.out.length

theorem emitted_added (added : after.out = Daemon.out before ++ outputs) : emitted before after = outputs := by
  unfold emitted
  rw [added,List.drop_left]

def Act.puts (d : Daemon) : Act → List Output
  | .exchange op _ _ => [.cloud (op.imJsonMakeCmd d.records)]
  | .granted | .found => [.brocast .accSuccess (successText d.records)]
  | .notice notyType => [.brocast notyType (noticeText d.records notyType)]
  | .udp => if (imUdpbrocastTimerProc d.timers).2 then [.udp d.timers.udpFuncArg] else []
  | .reply msg => [.reply msg]
  | _ => []

theorem act_out (d : Daemon) (act : Act) : (act.apply d).out = d.out ++ act.puts d := by
  cases act with
  | exchange op header ex => exact CloudOp.run_out op d header ex
  | udp =>
    unfold Act.apply Act.puts sendUdp
    dsimp only
    split
    · rfl
    · exact (List.append_nil _).symm
  | granted | found | notice | reply => rfl
  | _ => exact (List.append_nil _).symm

theorem sendUdp_records (d : Daemon) : (sendUdp d).records = d.records := by
  unfold sendUdp
  dsimp only
  split <;> rfl

theorem CloudOp.run_lost (op : CloudOp) (d : Daemon) (header : MsgHeader) (ex : Exchange)
    (unsent : ¬(op = .login → ex.sent = msgCodeSucess)) : (op.run d header ex).daemon.records = d.records := by
  obtain ⟨rfl,lost⟩ := Classical.not_imp.mp unsent
  simp only [CloudOp.run,imCloudLogin,if_pos lost]
  rfl

theorem CloudOp.run_cases (op : CloudOp) (d : Daemon) (header : MsgHeader) (ex : Exchange) :
    (op.run d header ex).daemon.records = d.records ∨
      (op.run d header ex).daemon.records = op.settle (imJsonParseCloud d.records ex.body (op.header header ex)) := by
  by_cases parses : op = .login → ex.sent = msgCodeSucess
  · exact .inr (CloudOp.run_records op d header ex parses)
  · exact .inl (CloudOp.run_lost op d header ex parses)

theorem CloudOp.run_keeps {α : Type} (read : Records → α)
    (keep : ∀ r imIp, read {r with loginResp := {r.loginResp with imIp := imIp}} = read r)
    (parsed : ∀ h, read (imJsonParseCloud d.records ex.body h).records = read d.records) (op : CloudOp) (header : MsgHeader) :
    read (op.run d header ex).daemon.records = read d.records := by
  rcases CloudOp.run_cases op d header ex with same | settled
  · rw [same]
  · rw [settled,CloudOp.settle_keeps read keep]
    exact parsed _

theorem imJsonParseTerminal_records (r : Records) (pMsg : Option Json) : ∃ header speedup getflow keepacc iosinfo,
    (imJsonParseTerminal r pMsg).1 = {r with
      cmdHeader := header,speedup := speedup,getflow := getflow,keepacc := keepacc,iosinfo := iosinfo} := by
  have element (r : Records) (jsonMsg : Json) (body : Json → Records × Int)
      (made : ∀ devObj, ∃ speedup getflow keepacc iosinfo, (body devObj).1 =
        {r with speedup := speedup,getflow := getflow,keepacc := keepacc,iosinfo := iosinfo}) :
      ∃ speedup getflow keepacc iosinfo, (withDevObj r jsonMsg body).1 =
        {r with speedup := speedup,getflow := getflow,keepacc := keepacc,iosinfo := iosinfo} := by
    unfold withDevObj
    split
    · exact ⟨_,_,_,_,rfl⟩
    · split
      · exact ⟨_,_,_,_,rfl⟩
      · exact made _
  have data (r : Records) (jsonMsg : Json) (cmd : Int) : ∃ speedup getflow keepacc iosinfo,
      (imJsonParseDataTerminal r jsonMsg cmd).1 =
        {r with speedup := speedup,getflow := getflow,keepacc := keepacc,iosinfo := iosinfo} := by
    unfold imJsonParseDataTerminal
    cases TermMsgCmd.ofCode cmd with
    | none => exact ⟨_,_,_,_,rfl⟩
    | some kind =>
      cases kind with
      | startAcc | stopAcc => exact element r jsonMsg _ fun devObj => ⟨_,_,_,_,rfl⟩
      | getflow => exact element r jsonMsg _ fun devObj => ⟨_,_,_,_,rfl⟩
      | keepacc => exact element r jsonMsg _ fun devObj => ⟨_,_,_,_,rfl⟩
      | iosinfo =>
        refine element r jsonMsg _ fun devObj => ?_
        dsimp only
        split <;> exact ⟨_,_,_,_,rfl⟩
      | accStateInfo | getflowInfo | ungettedflow | peakflow | getAcclist => exact ⟨_,_,_,_,rfl⟩
  cases pMsg with
  | none => exact ⟨_,_,_,_,_,rfl⟩
  | some jsonMsg =>
    dsimp only [imJsonParseTerminal]
    split
    · exact ⟨_,_,_,_,_,rfl⟩
    · obtain ⟨_,_,_,_,made⟩ := data {r with cmdHeader := (imJsonParseHeader jsonMsg r.cmdHeader).1} jsonMsg
        (imJsonParseHeader jsonMsg r.cmdHeader).1.imCmd
      rw [made]
      exact ⟨_,_,_,_,_,rfl⟩

theorem received_keeps {α : Type} (read : Records → α) (d : Daemon) (pMsg : Option Json)
    (keep : ∀ header speedup getflow keepacc iosinfo, read {d.records with
      cmdHeader := header,speedup := speedup,getflow := getflow,keepacc := keepacc,iosinfo := iosinfo} = read d.records) :
    read (received d pMsg).1.records = read d.records := by
  obtain ⟨header,speedup,getflow,keepacc,iosinfo,made⟩ := imJsonParseTerminal_records d.records pMsg
  exact (congrArg read made).trans (keep header speedup getflow keepacc iosinfo)

end ImAcc
