import ImAcc.CloudReply
import ImAcc.System

-- What each function does to the acceleration state, the counters, handles and alarms.
namespace ImAcc
open JsonC

-- Only records that a message or a reply is stored in, and the log, may differ.
structure Quiet (before after : Daemon) : Prop where
  accState : after.accState = before.accState
  cntTime : after.cntTime = before.cntTime
  flowCount : after.flowCount = before.flowCount
  timerHearbeat : after.timerHearbeat = before.timerHearbeat
  timerFlowcount : after.timerFlowcount = before.timerFlowcount
  timers : after.timers = before.timers

theorem Quiet.refl (d : Daemon) : Quiet d d := ⟨rfl,rfl,rfl,rfl,rfl,rfl⟩

theorem Quiet.trans (ab : Quiet a b) (bc : Quiet b c) : Quiet a c :=
  ⟨bc.accState.trans ab.accState,bc.cntTime.trans ab.cntTime,bc.flowCount.trans ab.flowCount,
   bc.timerHearbeat.trans ab.timerHearbeat,bc.timerFlowcount.trans ab.timerFlowcount,bc.timers.trans ab.timers⟩

theorem Quiet.setAccState (same : Quiet a b) (state : AccOpenState) :
    Quiet (a.setAccState state) (b.setAccState state) :=
  ⟨rfl,same.cntTime,same.flowCount,same.timerHearbeat,same.timerFlowcount,same.timers⟩

@[simp] theorem Daemon.setAccState_accState (d : Daemon) (state : AccOpenState) :
    (d.setAccState state).accState = state := rfl

theorem quiet_records (d : Daemon) (same : r.speedupinfoResp.imAccState = d.accState) :
    Quiet d {d with records := r} := ⟨same,rfl,rfl,rfl,rfl,rfl⟩

theorem Daemon.reply_quiet (d : Daemon) (pMsg : Option Json) (errcode : Int) (data : Option Json) :
    Quiet d (d.reply pMsg errcode data) := by
  unfold Daemon.reply
  split <;> exact ⟨rfl,rfl,rfl,rfl,rfl,rfl⟩

theorem imCloudExchange_quiet (d : Daemon) (msg : Bytes) (header : MsgHeader) (ex : Exchange) :
    Quiet d (imCloudExchange d msg header ex).daemon :=
  ⟨(imJsonParseCloud_frame d.records ex.body header).accState,rfl,rfl,rfl,rfl,rfl⟩

theorem imCloudExchange_accepts (d : Daemon) (msg : Bytes) (header : MsgHeader) (ex : Exchange) :
    (imCloudExchange d msg header ex).ret = 0 ↔ accepts d.accState ex.body = true :=
  imJsonParseCloud_accepts d.records ex.body header

theorem imCloudExchange_header (accepted : (imCloudExchange d msg header ex).ret = 0) :
    (imCloudExchange d msg header ex).header = replyHeader ex.body :=
  imJsonParseCloud_header accepted

theorem imCloudExchange_begun (accepted : (imCloudExchange d msg header ex).ret = 0) :
    accepts (imCloudExchange d msg header ex).daemon.accState ex.body = true ∧
      (imCloudExchange d msg header ex).header.imCode = (replyHeader ex.body).imCode := by
  rw [(imCloudExchange_quiet d msg header ex).accState,imCloudExchange_header accepted]
  exact ⟨(imCloudExchange_accepts d msg header ex).mp accepted,rfl⟩

theorem imCloudLogin_quiet (d : Daemon) (ex : Exchange) : Quiet d (imCloudLogin d ex).daemon := by
  have sent := imCloudExchange_quiet d (imJsonMakeCmdLogin d.records.loginCmd) ex.stack ex
  unfold imCloudLogin
  split
  · exact ⟨rfl,rfl,rfl,rfl,rfl,rfl⟩
  · dsimp only
    split <;> exact sent

def Daemon.ready (ulongBits : Nat) (uci : UciIsacc) (lanIp : Bytes) : Daemon :=
  {Daemon.boot ulongBits uci with
    records := {(Daemon.boot ulongBits uci).records with loginCmd := ⟨bytes "IMOVE00000001",lanIp⟩}}

theorem World.boot_ready (ulongBits : Nat) (uci : UciIsacc) (lanIp : Bytes) (ex : Exchange) :
    (World.boot ulongBits uci lanIp ex).daemon =
      let d := (imCloudLogin (.ready ulongBits uci lanIp) ex).daemon
      {d with records := imWindbandInit d.records} := rfl

theorem World.boot_timers (ulongBits : Nat) (uci : UciIsacc) (lanIp : Bytes) (ex : Exchange) :
    (World.boot ulongBits uci lanIp ex).daemon.timers = Timers.boot := by
  rw [World.boot_ready]
  exact (imCloudLogin_quiet (.ready ulongBits uci lanIp) ex).timers

theorem imCloudHeartbeat_quiet (d : Daemon) (ex : Exchange) : Quiet d (imCloudHeartbeat d ex).daemon := by
  have sent := imCloudExchange_quiet d (imJsonMakeCmdHeartbeat d.records.loginResp) ex.stack ex
  unfold imCloudHeartbeat
  dsimp only
  split
  · exact sent.trans ⟨rfl,rfl,rfl,rfl,rfl,rfl⟩
  · exact sent

def replyCode (body : Option Json) : Int := (replyHeader body).imCode

def answering : List Exchange → Option Exchange
  | [] => none
  | _ :: _ :: next :: rest => answering (next :: rest)
  | query :: _ => some query

-- The codes after which the state is final or a poller has been asked for.
def settledStart : List Int := [msgCodeSucess,msgCodeInvalidses,msgCodeMsgdelay]
def settledQuery : List Int := [msgCodeInvalidses,msgCodeMsgdelay]
def settledInit : List Int := [msgCodeMsgdelay]

inductive Outcome (settled : List Int) (created : Bool) (begun : Daemon) (last : Exchange) :
    Daemon → Bool → Prop where
  | closed : Quiet (begun.setAccState .closed) d → Outcome settled created begun last d false
  | delayed : accepts begun.accState last.body = true → replyCode last.body = msgCodeMsgdelay →
      Quiet begun d → Outcome settled created begun last d created
  | opened : begun.accState = .opening → Quiet (startAccOpened begun) d → Outcome settled created begun last d false
  | left : accepts begun.accState last.body = true → replyCode last.body ∉ settled →
      Quiet begun d → Outcome settled created begun last d false

theorem Outcome.quiet (outcome : Outcome settled created begun last d spawned) (same : Quiet d d') :
    Outcome settled created begun last d' spawned := by
  cases outcome with
  | closed keep => exact .closed (keep.trans same)
  | delayed accepted code keep => exact .delayed accepted code (keep.trans same)
  | opened state keep => exact .opened state (keep.trans same)
  | left accepted code keep => exact .left accepted code (keep.trans same)

-- The request entered state from d, had exactly these exchanges and ended in d'.
def Asked (settled : List Int) (created : Bool) (state : AccOpenState) (d : Daemon) (replies : List Exchange)
    (d' : Daemon) (spawned : Bool) : Prop :=
  ∃ begun last, answering replies = some last ∧ Quiet (d.setAccState state) begun ∧
    Outcome settled created begun last d' spawned

theorem Asked.quiet (asked : Asked settled created state d replies d' spawned)
    (before : Quiet (c.setAccState state) (d.setAccState state)) (after : Quiet d' e) :
    Asked settled created state c replies e spawned := by
  obtain ⟨begun,last,answer,keep,outcome⟩ := asked
  exact ⟨begun,last,answer,before.trans keep,outcome.quiet after⟩

theorem Asked.again (asked : Asked settled created state d rest d' spawned)
    (keep : Quiet (c.setAccState state) (d.setAccState state)) :
    Asked settled created state c (query :: login :: rest) d' spawned := by
  obtain ⟨begun,last,answer,same,outcome⟩ := asked
  refine ⟨begun,last,?_,keep.trans same,outcome⟩
  cases rest with
  | nil => cases answer
  | cons next rest => exact answer

section
variable {settled : List Int} {created : Bool} {state : AccOpenState} {d d' : Daemon}
variable {msg : Bytes} {header : MsgHeader} {ex login : Exchange}

theorem asked_closed (settled : List Int) (created : Bool) (state : AccOpenState) (d : Daemon) (msg : Bytes)
    (header : MsgHeader) (ex : Exchange) : Asked settled created state d [ex]
      ((imCloudExchange (d.setAccState state) msg header ex).daemon.setAccState .closed) false :=
  ⟨_,ex,rfl,imCloudExchange_quiet _ msg header ex,.closed (.refl _)⟩

theorem asked_delayed (accepted : (imCloudExchange (d.setAccState state) msg header ex).ret = 0)
    (delay : (imCloudExchange (d.setAccState state) msg header ex).header.imCode = msgCodeMsgdelay) :
    Asked settled created state d [ex] (imCloudExchange (d.setAccState state) msg header ex).daemon created := by
  obtain ⟨answered,code⟩ := imCloudExchange_begun accepted
  exact ⟨_,ex,rfl,imCloudExchange_quiet _ msg header ex,.delayed answered (code.symm.trans delay) (.refl _)⟩

theorem asked_left (accepted : (imCloudExchange (d.setAccState state) msg header ex).ret = 0)
    (unsettled : (imCloudExchange (d.setAccState state) msg header ex).header.imCode ∉ settled)
    (keep : Quiet (imCloudExchange (d.setAccState state) msg header ex).daemon d') (rest : Option Exchange) :
    Asked settled created state d (ex :: rest.toList) d' false := by
  obtain ⟨answered,code⟩ := imCloudExchange_begun accepted
  rw [code] at unsettled
  refine ⟨_,ex,?_,imCloudExchange_quiet _ msg header ex,.left answered unsettled keep⟩
  cases rest <;> rfl

theorem asked_refused (keep : Quiet (imCloudExchange (d.setAccState state) msg header ex).daemon d') :
    Asked settled created state d [ex,login] (d'.setAccState .closed) false :=
  ⟨d',ex,rfl,(imCloudExchange_quiet _ msg header ex).trans keep,.closed (.refl _)⟩

end

theorem startAccRetry_refused (busy : d.accState ≠ .closed) :
    startAccRetry created header d replies = some ⟨d,msgCodeUnknown,.empty,false,replies⟩ := by
  unfold startAccRetry
  rw [if_pos busy]

theorem startAccRetry_asked (ran : startAccRetry created header d replies = some h) (exact : h.rest = [])
    (allowed : d.accState = .closed) :
    Asked settledStart created .opening d replies h.daemon h.spawned := by
  fun_induction startAccRetry created header d replies with
  | case1 header d replies busy => exact absurd allowed busy
  | case2 | case6 => cases ran
  | case3 header d _ ex rest c failed => cases ran; cases exact; exact asked_closed ..
  | case4 header d _ ex rest c accepted delay =>
    cases ran; cases exact
    exact asked_delayed (not_not.mp accepted) delay
  | case5 header d _ ex rest c accepted _ success =>
    cases ran; cases exact
    have keep := imCloudExchange_quiet (d.setAccState .opening) (imJsonMakeCmdStartacc d.records.acc) header ex
    exact ⟨_,ex,rfl,keep,.opened keep.accState (.refl _)⟩
  | case7 header d _ ex c accepted _ _ expired login rest l renewed ih =>
    have keep := (imCloudExchange_quiet (d.setAccState .opening) _ header ex).trans (imCloudLogin_quiet c.daemon login)
    exact (ih ran rfl).again (keep.setAccState .opening)
  | case8 header d _ ex c accepted _ _ expired login rest l failed =>
    cases ran; cases exact
    exact asked_refused (imCloudLogin_quiet c.daemon login)
  | case9 header d _ ex rest c accepted delay success expired =>
    cases ran; cases exact
    have unsettled : c.header.imCode ∉ settledStart := by
      simp only [settledStart,List.mem_cons,List.not_mem_nil,or_false,not_or]
      exact ⟨success,expired,delay⟩
    exact asked_left (not_not.mp accepted) unsettled (.refl _) none

theorem isAccRetry_asked (ran : isAccRetry created header d replies = some h) (exact : h.rest = []) :
    Asked settledQuery created .querying d replies h.daemon h.spawned := by
  fun_induction isAccRetry created header d replies with
  | case1 | case5 => cases ran
  | case2 header d ex rest c failed => cases ran; cases exact; exact asked_closed ..
  | case3 header d ex rest c accepted delay =>
    cases ran; cases exact
    exact asked_delayed (not_not.mp accepted) delay
  | case4 header d ex rest c accepted _ success =>
    cases ran; cases exact
    have unsettled : c.header.imCode ∉ settledQuery := by rw [success]; decide
    have keep := quiet_records (r := imCountFlowPeakflow c.daemon.records
      c.daemon.records.speedupinfoResp.imCurBandwidth) c.daemon rfl
    exact asked_left (not_not.mp accepted) unsettled keep none
  | case6 header d ex c accepted _ _ expired login rest l renewed ih =>
    have keep := (imCloudExchange_quiet (d.setAccState .querying) _ header ex).trans (imCloudLogin_quiet c.daemon login)
    exact (ih ran).again (keep.setAccState .querying)
  | case7 header d ex c accepted _ _ expired login rest l failed =>
    cases ran; cases exact
    exact asked_refused (imCloudLogin_quiet c.daemon login)
  | case8 header d ex rest c accepted delay success expired =>
    cases ran; cases exact
    have unsettled : c.header.imCode ∉ settledQuery := by
      simp only [settledQuery,List.mem_cons,List.not_mem_nil,or_false,not_or]
      exact ⟨expired,delay⟩
    exact asked_left (not_not.mp accepted) unsettled (.refl _) none

theorem imAutoQueryIsacc_idle (busy : d.accState ≠ .closed) :
    imAutoQueryIsacc created header d replies = some ⟨d,msgCodeSucess,false,replies⟩ := by
  unfold imAutoQueryIsacc
  rw [if_pos busy]

-- The recursion after a login finds the state still QUERYING and does nothing.
theorem imAutoQueryIsacc_asked (ran : imAutoQueryIsacc created header d replies = some q) (exact : q.rest = [])
    (allowed : d.accState = .closed) :
    Asked settledInit created .querying d replies q.daemon q.spawned := by
  fun_induction imAutoQueryIsacc created header d replies with
  | case1 d replies busy => exact absurd allowed busy
  | case2 | case6 => cases ran
  | case3 d _ ex rest c failed => cases ran; cases exact; exact asked_closed ..
  | case4 d _ ex rest c accepted delay =>
    cases ran; cases exact
    exact asked_delayed (not_not.mp accepted) delay
  | case5 d _ ex rest c accepted delay success r =>
    cases ran; cases exact
    have keep := quiet_records (r := configWriteImAcc r) c.daemon rfl
    exact asked_left (not_not.mp accepted) (delay ∘ List.mem_singleton.mp) keep none
  | case7 d _ ex c accepted delay _ expired login rest l renewed ih =>
    have keep := imCloudLogin_quiet c.daemon login
    have begun := imCloudExchange_quiet (d.setAccState .querying) (imJsonMakeCmdIsacc d.records.acc) header ex
    have busy : l.daemon.accState ≠ .closed := by
      rw [keep.accState.trans begun.accState]
      simp
    rw [imAutoQueryIsacc_idle busy] at ran
    cases ran; cases exact
    exact asked_left (not_not.mp accepted) (delay ∘ List.mem_singleton.mp) keep (some login)
  | case8 d _ ex c accepted delay _ expired login rest l failed =>
    cases ran; cases exact
    have keep := imCloudLogin_quiet c.daemon login
    exact asked_left (not_not.mp accepted) (delay ∘ List.mem_singleton.mp) keep (some login)
  | case9 d _ ex rest c accepted delay success expired =>
    cases ran; cases exact
    exact asked_left (not_not.mp accepted) (delay ∘ List.mem_singleton.mp) (.refl _) none

theorem cloudRetry_quiet (ran : cloudRetry ask answer header d replies = some h)
    (asked : ∀ d header ex, Quiet d (ask d header ex).daemon) (answered : ∀ d, Quiet d (answer d).1) :
    Quiet d h.daemon ∧ h.spawned = false := by
  fun_induction cloudRetry ask answer header d replies with
  | case1 | case4 => cases ran
  | case2 header d ex rest c failed => cases ran; exact ⟨asked d header ex,rfl⟩
  | case3 header d ex rest c accepted success =>
    cases ran
    exact ⟨(asked d header ex).trans (answered c.daemon),rfl⟩
  | case5 header d ex c accepted success expired login rest l renewed ih =>
    obtain ⟨keep,alone⟩ := ih ran
    exact ⟨((asked d header ex).trans (imCloudLogin_quiet c.daemon login)).trans keep,alone⟩
  | case6 header d ex c accepted success expired login rest l failed =>
    cases ran
    exact ⟨(asked d header ex).trans (imCloudLogin_quiet c.daemon login),rfl⟩
  | case7 header d ex rest c accepted success expired => cases ran; exact ⟨asked d header ex,rfl⟩

def accStopped (d : Daemon) : Daemon :=
  imBrocastToTerminal (imStopFlowCount (imStopHeartbeatCloud (d.setAccState .closed))) .accStop
    (brocastNotify .accStop)

def StopTaken (d : Daemon) (replies : List Exchange) (d' : Daemon) : Prop :=
  ∃ ex mid, replies.head? = some ex ∧ accepts d.accState ex.body = true ∧ Quiet d mid ∧ Quiet (accStopped mid) d'

theorem stopAcc_parts (ran : stopAcc header d replies = some h) :
    h.spawned = false ∧ (Quiet d h.daemon ∨ StopTaken d replies h.daemon) := by
  cases replies with
  | nil => cases ran
  | cons ex rest =>
    have keep := imCloudExchange_quiet d (imJsonMakeCmdStopacc d.records.loginResp) header ex
    unfold stopAcc at ran
    dsimp only at ran
    split at ran
    · cases ran; exact ⟨rfl,.inl keep⟩
    · rename_i accepted
      have answered := (imCloudExchange_accepts ..).mp (not_not.mp accepted)
      cases ran
      exact ⟨rfl,.inr ⟨ex,_,rfl,answered,keep,.refl _⟩⟩

def enters (d : Daemon) : Option AccOpenState :=
  match TermMsgCmd.ofCode d.records.cmdHeader.imCmd with
  | some .startAcc => if d.accState = .closed then some .opening else none
  | some .accStateInfo =>
    if d.accState = .closed ∧ (imCheckIsnetChange d.records).2 = msgCodeSucess then some .querying else none
  | _ => none

def asks (d : Daemon) (pMsg : Option Json) : Option AccOpenState :=
  if (received d pMsg).2 = msgCodeSucess then enters (received d pMsg).1 else none

def stops (d : Daemon) (pMsg : Option Json) : Bool :=
  (received d pMsg).2 = msgCodeSucess &&
    TermMsgCmd.ofCode (received d pMsg).1.records.cmdHeader.imCmd = some .stopAcc

def settledIn : AccOpenState → List Int
  | .opening => settledStart
  | _ => settledQuery

inductive Handles (created : Bool) (d : Daemon) (replies : List Exchange) :
    Option AccOpenState → Bool → Daemon → Bool → Prop where
  | quiet : Quiet d d' → Handles created d replies none stop d' false
  | stopped : stop = true → StopTaken d replies d' → Handles created d replies none stop d' false
  | asked : Asked (settledIn state) created state d replies d' spawned →
      Handles created d replies (some state) stop d' spawned

theorem Handles.quietly (handled : Handles created d replies state stop d' spawned) (before : Quiet c d)
    (after : Quiet d' e) : Handles created c replies state stop e spawned := by
  cases handled with
  | quiet keep => exact .quiet ((before.trans keep).trans after)
  | stopped command taken =>
    obtain ⟨ex,mid,head,accepted,keep,done⟩ := taken
    exact .stopped command ⟨ex,mid,head,before.accState ▸ accepted,before.trans keep,done.trans after⟩
  | asked asked => exact .asked (asked.quiet (before.setAccState _) after)

def Daemon.checked (d : Daemon) : Daemon := {d with records := (imCheckIsnetChange d.records).1}

theorem accStateInfo_asks (idle : d.accState = .closed) (changed : (imCheckIsnetChange d.records).2 = msgCodeSucess)
    (created : Bool) (header : MsgHeader) (replies : List Exchange) :
    accStateInfo created header d replies = isAccRetry created header d.checked replies := by
  have still : d.checked.accState = .closed := idle
  unfold accStateInfo
  rw [if_neg (by rw [idle]; decide)]
  dsimp only
  rw [if_neg (not_not.mpr changed)]
  exact if_neg (not_not.mpr still)

theorem accStateInfo_handles (ran : accStateInfo created header d replies = some h) (exact : h.rest = [])
    (command : TermMsgCmd.ofCode d.records.cmdHeader.imCmd = some .accStateInfo) :
    Handles created d replies (enters d) false h.daemon h.spawned := by
  have keep : Quiet d {d with records := (imCheckIsnetChange d.records).1} := quiet_records d rfl
  have entry : enters d = if d.accState = .closed ∧ (imCheckIsnetChange d.records).2 = msgCodeSucess
      then some .querying else none := by simp only [enters,command]
  rw [entry]
  unfold accStateInfo at ran
  split at ran
  · rename_i waiting
    have busy : d.accState ≠ .closed := by intro idle; rw [idle] at waiting; cases waiting
    rw [if_neg (busy ·.1)]
    cases ran; exact .quiet (.refl _)
  · dsimp only at ran
    split at ran
    · rename_i unchanged
      rw [if_neg (unchanged ·.2)]
      cases ran; exact .quiet keep
    · rename_i changed
      split at ran
      · rename_i busy
        rw [if_neg (busy ·.1)]
        cases ran; exact .quiet keep
      · rename_i idle
        rw [if_pos ⟨not_not.mp idle,not_not.mp changed⟩]
        exact .asked ((isAccRetry_asked ran exact).quiet (keep.setAccState .querying) (.refl _))

theorem startAccRetry_handles (ran : startAccRetry created header d replies = some h) (exact : h.rest = [])
    (command : TermMsgCmd.ofCode d.records.cmdHeader.imCmd = some .startAcc) :
    Handles created d replies (enters d) false h.daemon h.spawned := by
  have entry : enters d = if d.accState = .closed then some .opening else none := by simp only [enters,command]
  rw [entry]
  by_cases idle : d.accState = .closed
  · rw [if_pos idle]
    exact .asked (startAccRetry_asked ran exact idle)
  · rw [if_neg idle]
    rw [startAccRetry_refused idle] at ran
    cases ran; exact .quiet (.refl _)

theorem terminalSwitch_handles (ran : terminalSwitch created header d replies = some h) (exact : h.rest = []) :
    Handles created d replies (enters d)
      (TermMsgCmd.ofCode d.records.cmdHeader.imCmd = some .stopAcc) h.daemon h.spawned := by
  have relayed {ask answer} (ran : cloudRetry ask answer header d replies = some h)
      (asked : ∀ d header ex, Quiet d (ask d header ex).daemon) (answered : ∀ d, Quiet d (answer d).1) :
      Handles created d replies none false h.daemon h.spawned := by
    obtain ⟨keep,alone⟩ := cloudRetry_quiet ran asked answered
    rw [alone]; exact .quiet keep
  have asking (msg : Daemon → Bytes) (d : Daemon) (header : MsgHeader) (ex : Exchange) :=
    imCloudExchange_quiet d (msg d) header ex
  unfold terminalSwitch at ran
  cases command : TermMsgCmd.ofCode d.records.cmdHeader.imCmd with
  | none =>
    simp only [command] at ran
    cases ran; simp only [enters,command]; exact .quiet (.refl _)
  | some kind =>
    simp only [command] at ran
    cases kind with
    | startAcc => simpa using startAccRetry_handles ran exact command
    | accStateInfo => simpa using accStateInfo_handles ran exact command
    | stopAcc =>
      obtain ⟨alone,keep | taken⟩ := stopAcc_parts ran
      · simp only [enters,command,alone]; exact .quiet keep
      · simp only [enters,command,alone]; exact .stopped rfl taken
    | getflow => simp only [enters,command]; exact relayed ran (asking _) .refl
    | getflowInfo =>
      simp only [enters,command]
      exact relayed ran (asking _) fun d => quiet_records d rfl
    | ungettedflow => simp only [enters,command]; exact relayed ran (asking _) .refl
    | getAcclist => simp only [enters,command]; exact relayed ran (asking _) .refl
    | keepacc | iosinfo | peakflow => cases ran; simp only [enters,command]; exact .quiet (.refl _)

theorem imJsonParseTerminal_state (r : Records) (pMsg : Option Json) :
    (imJsonParseTerminal r pMsg).1.speedupinfoResp.imAccState = r.speedupinfoResp.imAccState := by
  have element (r : Records) (jsonMsg : Json) (body : Json → Records × Int)
      (keep : ∀ devObj, (body devObj).1.speedupinfoResp.imAccState = r.speedupinfoResp.imAccState) :
      (withDevObj r jsonMsg body).1.speedupinfoResp.imAccState = r.speedupinfoResp.imAccState := by
    unfold withDevObj
    split
    · rfl
    · split
      · rfl
      · exact keep _
  cases pMsg with
  | none => rfl
  | some jsonMsg =>
    simp only [imJsonParseTerminal]
    split
    · rfl
    · unfold imJsonParseDataTerminal
      cases TermMsgCmd.ofCode (imJsonParseHeader jsonMsg r.cmdHeader).1.imCmd with
      | none => rfl
      | some kind =>
        cases kind with
        | iosinfo =>
          refine element {r with cmdHeader := _} jsonMsg _ fun devObj => ?_
          dsimp only
          split <;> rfl
        | startAcc | stopAcc | getflow | keepacc =>
          exact element {r with cmdHeader := _} jsonMsg _ fun _ => rfl
        | _ => rfl

theorem received_quiet (d : Daemon) (pMsg : Option Json) : Quiet d (received d pMsg).1 :=
  quiet_records d (imJsonParseTerminal_state d.records pMsg)

theorem imHandleMsg_handles (ran : imHandleMsg created header d pMsg replies = some h) (exact : h.rest = []) :
    Handles created d replies (asks d pMsg) (stops d pMsg) h.daemon h.spawned := by
  have keep := received_quiet d pMsg
  unfold imHandleMsg at ran
  dsimp only at ran
  split at ran
  · rename_i valid
    obtain ⟨switched,handled,rfl⟩ := Option.map_eq_some_iff.mp ran
    have entry : asks d pMsg = enters (received d pMsg).1 := if_pos valid
    have stop : stops d pMsg =
        decide (TermMsgCmd.ofCode (received d pMsg).1.records.cmdHeader.imCmd = some .stopAcc) := by
      have parsed : (received d pMsg).2 = msgCodeSucess := valid
      rw [stops,decide_eq_true parsed,Bool.true_and]
    rw [entry,stop]
    exact (terminalSwitch_handles handled exact).quietly keep (Daemon.reply_quiet ..)
  · rename_i invalid
    have entry : asks d pMsg = none := if_neg invalid
    cases ran; rw [entry]
    exact .quiet (keep.trans (Daemon.reply_quiet ..))

@[simp] theorem rollOpening_accState (d : Daemon) : (rollOpening d).accState = d.accState := rfl

inductive Rolls (d : Daemon) (p : Poller) : Daemon → Option Poller → Prop where
  | registering : Quiet d mid → mid.accState = .opening → d' = rollOpening mid → q.registering = true →
      q.request = p.request → Rolls d p d' (some q)
  | closed : Quiet (d.setAccState .closed) d' → Rolls d p d' none
  | ended : Quiet d d' → d'.accState.transient = false → Rolls d p d' none
  | again : Quiet d d' → q.registering = false → q.request = p.request → Rolls d p d' (some q)

theorem imRollqueryThread_rolls (ran : imRollqueryThread d p replies = some t) (idle : p.registering = false) :
    Rolls d p t.daemon t.poller := by
  cases replies with
  | nil => cases ran
  | cons ex rest =>
    have keep := imCloudExchange_quiet d (imJsonMakeCmdGettaskresult d.records.acc d.records.taskresultCmd) p.header ex
    unfold imRollqueryThread at ran
    dsimp only at ran
    split at ran
    · cases state : (imCloudGettaskresult d p.header ex).daemon.accState with
      | opening => simp only [state] at ran; cases ran; exact .registering keep state rfl rfl rfl
      | querying =>
        have written := keep.trans (quiet_records (r := configWriteImAcc _) _ rfl)
        simp only [state] at ran
        cases ran
        exact .closed (written.setAccState .closed)
      | unset | closed | opened =>
        simp only [state] at ran
        cases ran
        exact .ended keep (by rw [state]; rfl)
    · split at ran
      · cases rest with
        | nil => cases ran
        | cons login rest =>
          cases ran
          exact .again (keep.trans (imCloudLogin_quiet _ login)) idle rfl
      · split at ran
        · cases ran; exact .closed (keep.setAccState .closed)
        · cases ran; exact .again keep idle rfl

theorem imStartFlowCount_quiet (ran : imStartFlowCount d ifaList replies = some result) :
    Quiet d {result.1 with flowCount := d.flowCount} := by
  unfold imStartFlowCount at ran
  dsimp only at ran
  split at ran
  · cases ran; exact quiet_records d rfl
  · split at ran
    · cases ran; exact ⟨rfl,rfl,rfl,rfl,rfl,rfl⟩
    · cases replies with
      | nil => cases ran
      | cons ex rest =>
        cases ran
        have keep (stored : Daemon) : Quiet stored (imCloudCountflow stored ex).daemon := imCloudExchange_quiet ..
        exact ⟨(keep _).accState,(keep _).cntTime,rfl,(keep _).timerHearbeat,(keep _).timerFlowcount,(keep _).timers⟩

theorem step_isaccInit (taken : step w (.isaccInit thread header replies) = some next) :
    ∃ q, imAutoQueryIsacc thread.isSome header w.daemon replies = some q ∧ q.rest = [] ∧
      next = ⟨q.daemon,w.pollers ++ spawn q.spawned thread (if w.daemon.accState = .closed then w.request+1 else w.request),
        if w.daemon.accState = .closed then w.request+1 else w.request⟩ := by
  obtain ⟨q,ran,same⟩ := Option.bind_eq_some_iff.mp taken
  dsimp only at same
  split at same
  · rename_i exact
    exact ⟨q,ran,List.isEmpty_iff.mp exact,(Option.some.inj same).symm⟩
  · cases same

theorem step_message (taken : step w (.message pMsg thread header replies) = some next) :
    ∃ h, imHandleMsg thread.isSome header w.daemon pMsg replies = some h ∧ h.rest = [] ∧
      next = ⟨h.daemon,w.pollers ++ spawn h.spawned thread (requestAfter w pMsg),requestAfter w pMsg⟩ := by
  obtain ⟨h,ran,same⟩ := Option.bind_eq_some_iff.mp taken
  dsimp only at same
  split at same
  · rename_i exact
    exact ⟨h,ran,List.isEmpty_iff.mp exact,(Option.some.inj same).symm⟩
  · cases same

theorem message_step (valid : (received w.daemon pMsg).2 = msgCodeSucess)
    (switched : terminalSwitch thread.isSome header (received w.daemon pMsg).1 replies = some h) (exact : h.rest = []) :
    step w (.message pMsg thread header replies) =
      some ⟨h.daemon.reply pMsg h.errcode (some h.data.json),
        w.pollers ++ spawn h.spawned thread (requestAfter w pMsg),requestAfter w pMsg⟩ := by
  have handled : imHandleMsg thread.isSome header w.daemon pMsg replies =
      some {h with daemon := h.daemon.reply pMsg h.errcode (some h.data.json)} := by
    unfold imHandleMsg imHandleCmdTerminal
    refine (if_pos valid).trans ?_
    exact congrArg (Option.map _) switched
  unfold step
  dsimp only
  rw [handled,Option.bind_some,exact]
  rfl

theorem step_poll (taken : step w (.poll i replies) = some next) :
    ∃ p t, w.pollers[i]? = some p ∧ p.registering = false ∧ imRollqueryThread w.daemon p replies = some t ∧
      next = ⟨t.daemon,t.poller.elim (w.pollers.eraseIdx i) (w.pollers.set i),w.request⟩ := by
  unfold step at taken
  dsimp only at taken
  split at taken
  · cases taken
  · rename_i p found
    split at taken
    · cases taken
    · rename_i idle
      obtain ⟨t,ran,same⟩ := Option.bind_eq_some_iff.mp taken
      split at same
      · cases same
        refine ⟨p,t,found,by simpa using idle,ran,?_⟩
        cases t.poller <;> rfl
      · cases same

theorem step_resume (taken : step w (.resume i) = some next) :
    ∃ p, w.pollers[i]? = some p ∧ p.registering = true ∧
      next = ⟨rollOpened w.daemon,w.pollers.eraseIdx i,w.request⟩ := by
  unfold step at taken
  dsimp only at taken
  split at taken
  · cases taken
  · rename_i p found
    split at taken
    · cases taken; exact ⟨p,found,‹_›,rfl⟩
    · cases taken

theorem step_alarm (taken : step w (.alarm i ifaList replies) = some next) :
    ∃ result, runAlarm w.daemon i ifaList replies = some result ∧ next = {w with daemon := result.1} := by
  obtain ⟨result,ran,same⟩ := Option.bind_eq_some_iff.mp taken
  split at same
  · exact ⟨result,ran,(Option.some.inj same).symm⟩
  · cases same

end ImAcc
