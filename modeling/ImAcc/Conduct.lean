import ImAcc.Acts
import ImAcc.Subsystems

-- What each act of a step relies on having heard from the cloud.
namespace ImAcc
open JsonC Script Transition

-- The last exchange of a step, while nothing has been opened on it.
structure Heard where
  op : CloudOp
  ex : Exchange

def Heard.Grants (h : Heard) (op : CloudOp) : Prop :=
  h.op = op ∧ accepts .opening h.ex.body = true ∧ replyCode h.ex.body = msgCodeSucess

def CloudOp.renews : CloudOp → Bool
  | .isaac | .startaac | .getflow | .getflowInfo | .ungetflow | .getacclist => true
  | _ => false

-- A poller reads the code in a header of its own, which a reply without one leaves as it was.
def Heard.Expired (h : Heard) : Prop :=
  if h.op = .gettaskresult then headerInt h.ex.body .code msgCodeIvalidedevid = msgCodeIvalidedevid
  else h.op.renews = true ∧ replyCode h.ex.body = msgCodeInvalidses

def hears (last : Option Heard) : Act → Option Heard
  | .exchange op _ ex => some ⟨op,ex⟩
  | .granted | .found => none
  | _ => last

def Permitted (s : Daemon × Option Heard) : Act → Prop
  | .exchange .login _ _ => ∃ h ∈ s.2, h.Expired
  | .granted => s.1.accState = .opening ∧ ∃ h ∈ s.2, h.Grants .startaac
  | .found => s.1.accState = .opening ∧ ∃ h ∈ s.2, h.Grants .gettaskresult
  | .notice notyType => notyType ≠ .accSuccess
  | _ => True

def conduct : Rules (Daemon × Option Heard) Act := ⟨fun s act => (act.apply s.1,hears s.2 act),Permitted⟩

def Act.served : Act → Bool
  | .parse _ | .exchange .. | .state _ | .granted | .stopHearbeat | .stopFlowcount | .notice .accStop
  | .peakflow _ | .persist | .recheck | .flowinfo | .reply _ => true
  | _ => false

def Act.polled : Act → Bool
  | .exchange .. | .state _ | .found | .persist => true
  | _ => false

def Act.ticked (callback : Option SnmpAlarmCallback) : Act → Bool
  | .exchange .. | .stopHearbeat | .stopFlowcount | .notice .accWillstop | .useFlow _ | .baseline _ | .beat _
  | .moved .. => true
  | .udp => callback = some .imUdpbrocastTimerProc
  | _ => false

def Event.permits (w : World) (event : Event) (act : Act) : Bool :=
  match event,act with
  | .isaccInit ..,act | .message ..,act => act.served
  | .poll ..,act => act.polled
  | .resume _,.finish | .alarmInit,.alarmInit | .clock _,.clock _ => true
  | .alarm ..,act => act.ticked (firing w event)
  | _,_ => false

def Conducted (allowed : Act → Bool) (s : Daemon × Option Heard) (replies : List Exchange) (s' : Daemon × Option Heard)
    (rest : List Exchange) : Prop :=
  ∃ acts, Plays conduct s acts s' ∧ (∀ act ∈ acts, allowed act = true) ∧ acts.filterMap Act.exchanged ++ rest = replies

theorem Conducted.refl (allowed : Act → Bool) (s : Daemon × Option Heard) (replies : List Exchange) :
    Conducted allowed s replies s replies := ⟨[],rfl,fun _ member => absurd member List.not_mem_nil,rfl⟩

theorem Conducted.trans (first : Conducted allowed s replies mid left) (second : Conducted allowed mid left s' rest) :
    Conducted allowed s replies s' rest := by
  obtain ⟨xs,plays,kind,exchanged⟩ := first
  obtain ⟨ys,plays',kind',exchanged'⟩ := second
  refine ⟨xs ++ ys,plays.append plays',?_,?_⟩
  · intro act member
    exact (List.mem_append.mp member).elim (kind act) (kind' act)
  · rw [List.filterMap_append,List.append_assoc,exchanged',exchanged]

theorem Conducted.act (before : Conducted allowed s replies mid rest) (act : Act) (permitted : Permitted mid act)
    (kind : allowed act = true) (silent : act.exchanged = none) :
    Conducted allowed s replies (act.apply mid.1,hears mid.2 act) rest := by
  refine before.trans ⟨[act],⟨permitted,rfl⟩,?_,?_⟩
  · intro other member
    rw [List.mem_singleton.mp member]
    exact kind
  · simp [silent]

theorem Conducted.exchange {op : CloudOp} {d : Daemon} {last : Option Heard}
    (permitted : Permitted (d,last) (.exchange op header ex)) (kind : allowed (.exchange op header ex) = true)
    (rest : List Exchange) :
    Conducted allowed (d,last) (ex :: rest) ((op.run d header ex).daemon,some ⟨op,ex⟩) rest := by
  refine ⟨[.exchange op header ex],⟨permitted,rfl⟩,?_,rfl⟩
  intro act member
  rw [List.mem_singleton.mp member]
  exact kind

theorem Conducted.ask (op : CloudOp) (plain : op ≠ .login) (d : Daemon) (last : Option Heard) (header : MsgHeader)
    (ex : Exchange) (rest : List Exchange) (kind : allowed (.exchange op header ex) = true) :
    Conducted allowed (d,last) (ex :: rest) ((op.run d header ex).daemon,some ⟨op,ex⟩) rest :=
  .exchange (by cases op <;> first | exact absurd rfl plain | trivial) kind rest

theorem Conducted.relogin (script : Conducted allowed s replies (mid,some h) (login :: rest)) (expired : h.Expired)
    (kind : allowed (.exchange .login default login) = true) :
    Conducted allowed s replies ((imCloudLogin mid login).daemon,some ⟨.login,login⟩) rest := by
  have permitted : Permitted (mid,some h) (.exchange .login default login) := ⟨h,rfl,expired⟩
  exact script.trans (.exchange permitted kind rest)

theorem exchange_code (accepted : (imCloudExchange d msg header ex).ret = msgCodeSucess)
    (code : (imCloudExchange d msg header ex).header.imCode = i) : replyCode ex.body = i := by
  rw [← code,imCloudExchange_header accepted]
  rfl

theorem expired_session {op : CloudOp} (renews : op.renews = true)
    (accepted : ¬(imCloudExchange d msg header ex).ret ≠ msgCodeSucess)
    (code : (imCloudExchange d msg header ex).header.imCode = msgCodeInvalidses) : (⟨op,ex⟩ : Heard).Expired := by
  unfold Heard.Expired
  rw [if_neg (by rintro rfl; cases renews)]
  exact ⟨renews,exchange_code (not_not.mp accepted) code⟩

theorem asked_conduct (op : CloudOp) (plain : op ≠ .login) (state : AccOpenState) (d : Daemon) (last : Option Heard)
    (header : MsgHeader) (ex : Exchange) (rest : List Exchange) : Conducted Act.served (d,last) (ex :: rest)
      ((op.run (d.setAccState state) header ex).daemon,some ⟨op,ex⟩) rest :=
  ((Conducted.refl Act.served (d,last) (ex :: rest)).act (.state state) trivial rfl rfl).trans
    (.ask op plain _ _ header ex rest rfl)

theorem Conducted.closing (script : Conducted Act.served s replies (mid,last) rest) :
    Conducted Act.served s replies (mid.setAccState .closed,last) rest :=
  script.act (.state .closed) trivial rfl rfl

theorem startAccRetry_conduct (ran : startAccRetry created header d replies = some h) (last : Option Heard) :
    ∃ last', Conducted Act.served (d,last) replies (h.daemon,last') h.rest := by
  have asked (d : Daemon) (last : Option Heard) (header : MsgHeader) (ex : Exchange) (rest : List Exchange) :
      Conducted Act.served (d,last) (ex :: rest)
        ((imCloudStartaac (d.setAccState .opening) header ex).daemon,some ⟨.startaac,ex⟩) rest :=
    asked_conduct .startaac (by decide) .opening d last header ex rest
  fun_induction startAccRetry created header d replies generalizing last with
  | case1 header d replies busy => cases ran; exact ⟨last,.refl _ _ _⟩
  | case2 | case6 => cases ran
  | case3 header d idle ex rest c failed => cases ran; exact ⟨_,(asked d last header ex rest).closing⟩
  | case4 header d idle ex rest c accepted delay => cases ran; exact ⟨_,asked d last header ex rest⟩
  | case5 header d idle ex rest c accepted _ success =>
    cases ran
    have waiting : c.daemon.accState = .opening :=
      (imCloudExchange_quiet (d.setAccState .opening) (imJsonMakeCmdStartacc d.records.acc) header ex).accState
    have granted : (⟨.startaac,ex⟩ : Heard).Grants .startaac :=
      ⟨rfl,(imCloudExchange_accepts ..).mp (not_not.mp accepted),exchange_code (not_not.mp accepted) success⟩
    exact ⟨_,(asked d last header ex rest).act .granted ⟨waiting,_,rfl,granted⟩ rfl rfl⟩
  | case7 header d idle ex c accepted _ _ expired login rest l renewed ih =>
    obtain ⟨last',again⟩ := ih ran (some ⟨.login,login⟩)
    have renew := (asked d last header ex (login :: rest)).relogin (expired_session rfl accepted expired) rfl
    exact ⟨last',renew.closing.trans again⟩
  | case8 header d idle ex c accepted _ _ expired login rest l failed =>
    cases ran
    exact ⟨_,((asked d last header ex (login :: rest)).relogin (expired_session rfl accepted expired) rfl).closing⟩
  | case9 header d idle ex rest c accepted delay success expired => cases ran; exact ⟨_,asked d last header ex rest⟩

theorem isAccRetry_conduct (ran : isAccRetry created header d replies = some h) (last : Option Heard) :
    ∃ last', Conducted Act.served (d,last) replies (h.daemon,last') h.rest := by
  have asked (d : Daemon) (last : Option Heard) (header : MsgHeader) (ex : Exchange) (rest : List Exchange) :
      Conducted Act.served (d,last) (ex :: rest)
        ((imCloudIsaac (d.setAccState .querying) header ex).daemon,some ⟨.isaac,ex⟩) rest :=
    asked_conduct .isaac (by decide) .querying d last header ex rest
  fun_induction isAccRetry created header d replies generalizing last with
  | case1 | case5 => cases ran
  | case2 header d ex rest c failed => cases ran; exact ⟨_,(asked d last header ex rest).closing⟩
  | case3 header d ex rest c accepted delay => cases ran; exact ⟨_,asked d last header ex rest⟩
  | case4 header d ex rest c accepted _ success =>
    cases ran
    exact ⟨_,(asked d last header ex rest).act (.peakflow _) trivial rfl rfl⟩
  | case6 header d ex c accepted _ _ expired login rest l renewed ih =>
    obtain ⟨last',again⟩ := ih ran (some ⟨.login,login⟩)
    have renew := (asked d last header ex (login :: rest)).relogin (expired_session rfl accepted expired) rfl
    exact ⟨last',renew.closing.trans again⟩
  | case7 header d ex c accepted _ _ expired login rest l failed =>
    cases ran
    exact ⟨_,((asked d last header ex (login :: rest)).relogin (expired_session rfl accepted expired) rfl).closing⟩
  | case8 header d ex rest c accepted delay success expired => cases ran; exact ⟨_,asked d last header ex rest⟩

theorem imAutoQueryIsacc_conduct (created : Bool) (header : MsgHeader) (d : Daemon) (replies : List Exchange)
    (last : Option Heard) : ∀ q ∈ imAutoQueryIsacc created header d replies,
      ∃ last', Conducted Act.served (d,last) replies (q.daemon,last') q.rest := by
  have asked (d : Daemon) (last : Option Heard) (ex : Exchange) (rest : List Exchange) :
      Conducted Act.served (d,last) (ex :: rest)
        ((imCloudIsaac (d.setAccState .querying) header ex).daemon,some ⟨.isaac,ex⟩) rest :=
    asked_conduct .isaac (by decide) .querying d last header ex rest
  fun_induction imAutoQueryIsacc created header d replies generalizing last with
  | case1 d replies busy => intro q ran; cases ran; exact ⟨_,.refl _ _ _⟩
  | case2 | case6 => intro q ran; cases ran
  | case3 d idle ex rest c failed => intro q ran; cases ran; exact ⟨_,(asked d last ex rest).closing⟩
  | case4 d idle ex rest c accepted delay => intro q ran; cases ran; exact ⟨_,asked d last ex rest⟩
  | case5 d idle ex rest c accepted delay success =>
    intro q ran
    cases ran
    exact ⟨_,((asked d last ex rest).act (.peakflow _) trivial rfl rfl).act .persist trivial rfl rfl⟩
  | case7 d idle ex c accepted delay other expired login rest l renewed ih =>
    intro q ran
    obtain ⟨again,queried,rfl⟩ := Option.map_eq_some_iff.mp ran
    obtain ⟨last',later⟩ := ih (some ⟨.login,login⟩) again queried
    have renew := (asked d last ex (login :: rest)).relogin (expired_session rfl accepted expired) rfl
    exact ⟨last',renew.trans later⟩
  | case8 d idle ex c accepted delay other expired login rest l failed =>
    intro q ran
    cases ran
    exact ⟨_,(asked d last ex (login :: rest)).relogin (expired_session rfl accepted expired) rfl⟩
  | case9 d idle ex rest c accepted delay success expired => intro q ran; cases ran; exact ⟨_,asked d last ex rest⟩

theorem cloudRetry_conduct (op : CloudOp) (renews : op.renews = true) (text : Daemon → Bytes)
    (asks : ∀ d header ex, op.run d header ex = imCloudExchange d (text d) header ex)
    (answered : ∀ d last rest, Conducted Act.served (d,last) rest ((answer d).1,last) rest)
    (ran : cloudRetry (op.run · · ·) answer header d replies = some h) (last : Option Heard) :
    ∃ last', Conducted Act.served (d,last) replies (h.daemon,last') h.rest := by
  have asked (d : Daemon) (last : Option Heard) (header : MsgHeader) (ex : Exchange) (rest : List Exchange) :
      Conducted Act.served (d,last) (ex :: rest) ((op.run d header ex).daemon,some ⟨op,ex⟩) rest :=
    .ask op (by rintro rfl; cases renews) d last header ex rest rfl
  fun_induction cloudRetry (op.run · · ·) answer header d replies generalizing last with
  | case1 | case4 => cases ran
  | case2 header d ex rest c failed => cases ran; exact ⟨_,asked d last header ex rest⟩
  | case3 header d ex rest c accepted success =>
    cases ran
    exact ⟨_,(asked d last header ex rest).trans (answered c.daemon _ rest)⟩
  | case5 header d ex c accepted success expired login rest l renewed ih =>
    obtain ⟨last',again⟩ := ih ran (some ⟨.login,login⟩)
    have told : c = imCloudExchange d (text d) header ex := asks d header ex
    rw [told] at accepted expired
    exact ⟨last',((asked d last header ex (login :: rest)).relogin
      (expired_session renews accepted expired) rfl).trans again⟩
  | case6 header d ex c accepted success expired login rest l failed =>
    cases ran
    have told : c = imCloudExchange d (text d) header ex := asks d header ex
    rw [told] at accepted expired
    exact ⟨_,(asked d last header ex (login :: rest)).relogin (expired_session renews accepted expired) rfl⟩
  | case7 header d ex rest c accepted success expired => cases ran; exact ⟨_,asked d last header ex rest⟩

theorem stopAcc_conduct (ran : stopAcc header d replies = some h) (last : Option Heard) :
    ∃ last', Conducted Act.served (d,last) replies (h.daemon,last') h.rest := by
  cases replies with
  | nil => cases ran
  | cons ex rest =>
    have asked : Conducted Act.served (d,last) (ex :: rest)
        ((imCloudStopaac d header ex).daemon,some ⟨.stopaac,ex⟩) rest := .ask .stopaac nofun d last header ex rest rfl
    unfold stopAcc at ran
    dsimp only at ran
    split at ran
    · cases ran; exact ⟨_,asked⟩
    · cases ran
      have stopped := (asked.closing.act .stopHearbeat trivial rfl rfl).act .stopFlowcount trivial rfl rfl
      exact ⟨_,stopped.act (.notice .accStop) nofun rfl rfl⟩

theorem accStateInfo_conduct (ran : accStateInfo created header d replies = some h) (last : Option Heard) :
    ∃ last', Conducted Act.served (d,last) replies (h.daemon,last') h.rest := by
  have checked := (Conducted.refl Act.served (d,last) replies).act .recheck trivial rfl rfl
  unfold accStateInfo at ran
  split at ran
  · cases ran; exact ⟨_,.refl _ _ _⟩
  · dsimp only at ran
    split at ran
    · cases ran; exact ⟨_,checked⟩
    · split at ran
      · cases ran; exact ⟨_,checked⟩
      · obtain ⟨last',asked⟩ := isAccRetry_conduct ran last
        exact ⟨last',checked.trans asked⟩

theorem terminalSwitch_conduct (ran : terminalSwitch created header d replies = some h) (last : Option Heard) :
    ∃ last', Conducted Act.served (d,last) replies (h.daemon,last') h.rest := by
  unfold terminalSwitch at ran
  cases command : TermMsgCmd.ofCode d.records.cmdHeader.imCmd with
  | none =>
    simp only [command] at ran
    cases ran
    exact ⟨_,.refl _ _ _⟩
  | some kind =>
    simp only [command] at ran
    cases kind with
    | startAcc => exact startAccRetry_conduct ran last
    | stopAcc => exact stopAcc_conduct ran last
    | accStateInfo => exact accStateInfo_conduct ran last
    | getflow =>
      exact cloudRetry_conduct .getflow rfl _ (fun _ _ _ => rfl) (fun _ _ _ => .refl _ _ _) ran last
    | getflowInfo =>
      refine cloudRetry_conduct .getflowInfo rfl _ (fun _ _ _ => rfl) (fun d last rest => ?_) ran last
      exact (Conducted.refl Act.served (d,last) rest).act .flowinfo trivial rfl rfl
    | ungettedflow =>
      exact cloudRetry_conduct .ungetflow rfl _ (fun _ _ _ => rfl) (fun _ _ _ => .refl _ _ _) ran last
    | getAcclist =>
      exact cloudRetry_conduct .getacclist rfl _ (fun _ _ _ => rfl) (fun _ _ _ => .refl _ _ _) ran last
    | keepacc | iosinfo | peakflow => cases ran; exact ⟨_,.refl _ _ _⟩

theorem reply_conduct (script : Conducted Act.served s replies (mid,last) rest) (pMsg : Option Json) (errcode : Int)
    (data : Option Json) : Conducted Act.served s replies (mid.reply pMsg errcode data,last) rest := by
  unfold Daemon.reply
  cases imJsonMakeResponeSend pMsg errcode data with
  | none => exact script
  | some msg => exact script.act (.reply msg) trivial rfl rfl

theorem imHandleMsg_conduct (ran : imHandleMsg created header d pMsg replies = some h) (last : Option Heard) :
    ∃ last', Conducted Act.served (d,last) replies (h.daemon,last') h.rest := by
  have parsed := (Conducted.refl Act.served (d,last) replies).act (.parse pMsg) trivial rfl rfl
  unfold imHandleMsg imHandleCmdTerminal at ran
  dsimp only at ran
  split at ran
  · obtain ⟨handled,switched,rfl⟩ := Option.map_eq_some_iff.mp ran
    obtain ⟨last',served⟩ := terminalSwitch_conduct switched last
    exact ⟨last',reply_conduct (parsed.trans served) _ _ _⟩
  · cases ran
    exact ⟨last,reply_conduct parsed _ _ _⟩

theorem expired_device (code : (imCloudGettaskresult d header ex).header.imCode = msgCodeIvalidedevid) :
    (⟨.gettaskresult,ex⟩ : Heard).Expired := by
  have read : headerInt ex.body .code header.imCode = msgCodeIvalidedevid :=
    (imJsonParseCloud_code d.records ex.body header).symm.trans code
  unfold Heard.Expired
  rw [if_pos rfl]
  unfold headerInt at read ⊢
  dsimp only
  cases found : supplied (ex.body.bind (Json.objectGet (jasonKey .header))) .code with
  | none => rfl
  | some item => rwa [found] at read

theorem imRollqueryThread_conduct (ran : imRollqueryThread d p replies = some t) (last : Option Heard) :
    ∃ last', Conducted Act.polled (d,last) replies (t.daemon,last') t.rest := by
  cases replies with
  | nil => cases ran
  | cons ex rest =>
    have asked (rest : List Exchange) : Conducted Act.polled (d,last) (ex :: rest)
        ((imCloudGettaskresult d p.header ex).daemon,some ⟨.gettaskresult,ex⟩) rest :=
      .ask .gettaskresult nofun d last p.header ex rest rfl
    unfold imRollqueryThread at ran
    dsimp only at ran
    split at ran
    · rename_i success
      split at ran
      · rename_i waiting
        cases ran
        have kept := imCloudExchange_quiet d (imJsonMakeCmdGettaskresult d.records.acc d.records.taskresultCmd) p.header ex
        have accepted := (imCloudExchange_accepts ..).mp success.1
        rw [kept.accState.symm.trans waiting] at accepted
        exact ⟨_,(asked rest).act .found ⟨waiting,_,rfl,rfl,accepted,exchange_code success.1 success.2⟩ rfl rfl⟩
      · cases ran
        exact ⟨_,((asked rest).act .persist trivial rfl rfl).act (.state .closed) trivial rfl rfl⟩
      · cases ran; exact ⟨_,asked rest⟩
    · split at ran
      · rename_i expired
        cases rest with
        | nil => cases ran
        | cons login rest =>
          cases ran
          exact ⟨_,(asked (login :: rest)).relogin (expired_device expired) rfl⟩
      · split at ran
        · cases ran; exact ⟨_,(asked rest).act (.state .closed) trivial rfl rfl⟩
        · cases ran; exact ⟨_,asked rest⟩

theorem imStartHeartbeatCloud_conduct (callback : Option SnmpAlarmCallback) (d : Daemon) (ex : Exchange)
    (rest : List Exchange) (last : Option Heard) : ∃ last',
      Conducted (Act.ticked callback) (d,last) (ex :: rest) (imStartHeartbeatCloud d ex,last') rest := by
  have asked : Conducted (Act.ticked callback) (d,last) (ex :: rest)
      ((imCloudHeartbeat d ex).daemon,some ⟨.heartbeat,ex⟩) rest :=
    .ask .heartbeat nofun d last default ex rest rfl
  unfold imStartHeartbeatCloud
  dsimp only
  split
  · exact ⟨_,asked⟩
  · have counted := asked.act (.beat ((imCloudHeartbeat d ex).daemon.cntTime+1)) trivial rfl rfl
    split
    · exact ⟨_,counted.act (.notice .accWillstop) nofun rfl rfl⟩
    · split
      · have cleared := counted.act (.beat 0) trivial rfl rfl
        exact ⟨_,(cleared.act .stopHearbeat trivial rfl rfl).act .stopFlowcount trivial rfl rfl⟩
      · exact ⟨_,counted⟩

theorem imStartFlowCount_conduct (callback : Option SnmpAlarmCallback)
    (ran : imStartFlowCount d ifaList replies = some reported) (last : Option Heard) : ∃ last',
      Conducted (Act.ticked callback) (d,last) replies (reported.1,last') reported.2 := by
  have stored (flow : Nat) :=
    (Conducted.refl (Act.ticked callback) (d,last) replies).act (.useFlow flow) trivial rfl rfl
  unfold imStartFlowCount at ran
  dsimp only at ran
  split at ran
  · cases ran; exact ⟨_,stored _⟩
  · split at ran
    · cases ran
      exact ⟨_,(stored _).act (.baseline _) trivial rfl rfl⟩
    · cases replies with
      | nil => cases ran
      | cons ex rest =>
        cases ran
        exact ⟨_,(stored _).trans (.ask .countflow nofun _ _ default ex rest rfl)⟩

theorem runAlarm_conduct (ran : runAlarm w.daemon i ifaList replies = some rung) (last : Option Heard) : ∃ last',
    Conducted (Act.ticked (firing w (.alarm i ifaList replies))) (w.daemon,last) replies (rung.1,last') rung.2 := by
  unfold runAlarm at ran
  cases place : w.daemon.timers.thealarms[i]? with
  | none => simp [place] at ran
  | some a =>
    simp only [place] at ran
    obtain ⟨called,back,rfl⟩ := Option.map_eq_some_iff.mp ran
    have fired : firing w (.alarm i ifaList replies) = some a.thecallback := by simp [firing,place]
    rw [fired]
    have script : ∃ last',
        Conducted (Act.ticked (some a.thecallback)) (w.daemon,last) replies (called.1,last') called.2 := by
      unfold runCallback at back
      cases callback : a.thecallback with
      | imStartHeartbeatCloud =>
        simp only [callback] at back
        cases replies with
        | nil => cases back
        | cons ex rest => cases back; exact imStartHeartbeatCloud_conduct _ _ ex rest last
      | imStartFlowCount =>
        simp only [callback] at back
        exact imStartFlowCount_conduct _ back last
      | imUdpbrocastTimerProc =>
        simp only [callback] at back
        cases back
        exact ⟨_,(Conducted.refl _ (w.daemon,last) replies).act .udp trivial rfl rfl⟩
    obtain ⟨last',ticked⟩ := script
    exact ⟨last',ticked.act (.moved _ _) trivial rfl rfl⟩

theorem step_conduct (taken : step w event = some next) :
    ∃ last, Conducted (event.permits w) (w.daemon,none) event.replies (next.daemon,last) [] := by
  cases event with
  | isaccInit thread header replies =>
    obtain ⟨q,ran,exact,rfl⟩ := step_isaccInit taken
    have script := imAutoQueryIsacc_conduct _ _ _ _ none q ran
    rwa [exact] at script
  | message pMsg thread header replies =>
    obtain ⟨h,ran,exact,rfl⟩ := step_message taken
    have script := imHandleMsg_conduct ran none
    rwa [exact] at script
  | poll i replies =>
    obtain ⟨p,t,ran,exact,daemon⟩ := poll_exact taken
    have script := imRollqueryThread_conduct ran none
    rwa [exact,← daemon] at script
  | resume i =>
    obtain ⟨p,found,registering,rfl⟩ := step_resume taken
    exact ⟨_,(Conducted.refl (Event.permits w (.resume i)) (w.daemon,none) []).act .finish trivial rfl rfl⟩
  | alarm i ifaList replies => exact runAlarm_conduct (alarm_exact taken) none
  | alarmInit =>
    cases taken
    exact ⟨_,(Conducted.refl (Event.permits w .alarmInit) (w.daemon,none) []).act .alarmInit trivial rfl rfl⟩
  | clock now =>
    cases taken
    exact ⟨_,(Conducted.refl (Event.permits w (.clock now)) (w.daemon,none) []).act (.clock now) trivial rfl rfl⟩

end ImAcc
