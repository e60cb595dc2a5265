import ImAcc.Devices
import ImAcc.Lib.Rounds
import ImAcc.Renewal

-- The goto-retry loops of im_handle_cmd_terminal: how each of them goes on and ends.
namespace ImAcc
open JsonC Rounds

def Output.toTerminal : Output → Option Json
  | .reply msg => some msg
  | .cloud _ | .brocast _ _ | .udp _ => none

def Daemon.answers (d : Daemon) : List Json := d.out.filterMap Output.toTerminal

theorem Daemon.answers_send (d : Daemon) (output : Output) :
    (d.send output).answers = d.answers ++ output.toTerminal.toList := by
  unfold Daemon.answers Daemon.send
  rw [List.filterMap_append]
  cases output <;> rfl

theorem imCloudExchange_answers (d : Daemon) (msg : Bytes) (header : MsgHeader) (ex : Exchange) :
    (imCloudExchange d msg header ex).daemon.answers = d.answers :=
  (d.answers_send (.cloud msg)).trans (List.append_nil _)

theorem imCloudLogin_answers (d : Daemon) (ex : Exchange) : (imCloudLogin d ex).daemon.answers = d.answers := by
  unfold imCloudLogin
  split
  · exact (d.answers_send _).trans (List.append_nil _)
  · dsimp only
    split <;> exact imCloudExchange_answers ..

theorem imBrocastToTerminal_answers (d : Daemon) (notyType : BrocastNotifyType) (notyData : Bytes) :
    (imBrocastToTerminal d notyType notyData).answers = d.answers :=
  (Daemon.answers_send _ (.brocast notyType notyData)).trans (List.append_nil _)

-- A reply that the parser accepts and that says the session has expired.
def stale (state : AccOpenState) (ex : Exchange) : Bool :=
  accepts state ex.body && replyCode ex.body = msgCodeInvalidses

def logsIn (ex : Exchange) : Bool :=
  ex.sent = msgCodeSucess && (imJsonParseCloud (blank .unset) ex.body ex.stack).header.imCode = msgCodeSucess

theorem stale_exact : stale state ex = true ↔ accepts state ex.body = true ∧ replyCode ex.body = msgCodeInvalidses := by
  unfold stale
  rw [Bool.and_eq_true,decide_eq_true_iff]

theorem imCloudLogin_sucess (d : Daemon) (ex : Exchange) : (imCloudLogin d ex).ret = msgCodeSucess ↔ logsIn ex = true := by
  have header : (imCloudExchange d (imJsonMakeCmdLogin d.records.loginCmd) ex.stack ex).header =
      (imJsonParseCloud (blank .unset) ex.body ex.stack).header := imJsonParseCloud_sameHeader ..
  unfold imCloudLogin logsIn
  dsimp only
  rw [Bool.and_eq_true,decide_eq_true_iff,decide_eq_true_iff,← header]
  by_cases sent : ex.sent = msgCodeSucess
  · rw [if_neg (not_not.mpr sent)]
    split
    · exact ⟨fun success => ⟨sent,success⟩,fun both => both.2⟩
    · rename_i fine
      obtain ⟨valid,code⟩ := not_or.mp fine
      exact ⟨fun _ => ⟨sent,not_not.mp code⟩,fun _ => not_not.mp valid⟩
  · rw [if_pos sent]
    exact ⟨nofun,fun both => absurd both.1 sent⟩

theorem imCloudLogin_refused (failed : logsIn ex = false) (d : Daemon) : (imCloudLogin d ex).ret ≠ msgCodeSucess := by
  intro success
  rw [(imCloudLogin_sucess d ex).mp success] at failed
  cases failed

theorem renewed_answers (d : Daemon) (msg : Bytes) (header : MsgHeader) (query login : Exchange) :
    (imCloudLogin (imCloudExchange d msg header query).daemon login).daemon.answers = d.answers :=
  (imCloudLogin_answers ..).trans (imCloudExchange_answers ..)

-- MSG_CODE_MSGDELAY is no answer where the command starts a poller.
def toldCode (delays : Bool) (state : AccOpenState) (ex : Exchange) : Int :=
  if accepts state ex.body then
    if delays ∧ replyCode ex.body = msgCodeMsgdelay then msgCodeMsgdelayTerm else replyCode ex.body
  else msgCodeUnknown

def Awaits (state : AccOpenState) (told : List Json) (s : MsgHeader × Daemon) : Prop :=
  s.2.accState = state ∧ s.2.answers = told

def EndsWith (delays : Bool) (state : AccOpenState) (told : List Json) (query : Exchange) (h : Handled) : Prop :=
  h.errcode = toldCode delays state query ∧ h.daemon.answers = told

def FailsWith (told : List Json) (h : Handled) : Prop := h.errcode = msgCodeUnknown ∧ h.daemon.answers = told

section
variable {d : Daemon} {msg : Bytes} {header : MsgHeader} {ex : Exchange}

theorem imCloudExchange_stale (old : stale d.accState ex = true) : (imCloudExchange d msg header ex).ret = msgCodeSucess ∧
    (imCloudExchange d msg header ex).header.imCode = msgCodeInvalidses := by
  obtain ⟨accepted,code⟩ := stale_exact.mp old
  have parsed : (imCloudExchange d msg header ex).ret = 0 := (imCloudExchange_accepts ..).mpr accepted
  refine ⟨parsed,?_⟩
  rw [imCloudExchange_header parsed]
  exact code

theorem imCloudExchange_rejected (failed : (imCloudExchange d msg header ex).ret ≠ msgCodeSucess) (delays : Bool) :
    toldCode delays d.accState ex = msgCodeUnknown :=
  if_neg (mt (imCloudExchange_accepts ..).mpr failed)

theorem imCloudExchange_told (parsed : (imCloudExchange d msg header ex).ret = msgCodeSucess) (delays : Bool) :
    toldCode delays d.accState ex = if delays ∧ (imCloudExchange d msg header ex).header.imCode = msgCodeMsgdelay
      then msgCodeMsgdelayTerm else (imCloudExchange d msg header ex).header.imCode := by
  unfold toldCode
  rw [if_pos ((imCloudExchange_accepts ..).mp parsed),imCloudExchange_header parsed]
  rfl

theorem imCloudExchange_fresh (fresh : stale d.accState ex = false)
    (parsed : (imCloudExchange d msg header ex).ret = msgCodeSucess) :
    (imCloudExchange d msg header ex).header.imCode ≠ msgCodeInvalidses := by
  intro expired
  rw [imCloudExchange_header parsed] at expired
  have old := stale_exact.mpr ⟨(imCloudExchange_accepts ..).mp parsed,expired⟩
  rw [fresh] at old
  cases old
end

theorem cloudRetry_cycles {msg : Daemon → Bytes} (kept : ∀ d, (answer d).1.answers = d.answers) (state : AccOpenState)
    (told : List Json) : Cycles (fun s => cloudRetry (exchangeWith msg) answer s.1 s.2) (stale state) logsIn
      (Awaits state told) (EndsWith false state told) (FailsWith told) where
  waits _ _ := rfl
  waitsAgain := by
    rintro ⟨header,d⟩ query ⟨rfl,_⟩ old
    obtain ⟨parsed,expired⟩ : (exchangeWith msg d header query).ret = msgCodeSucess ∧
      (exchangeWith msg d header query).header.imCode = msgCodeInvalidses := imCloudExchange_stale old
    simp [cloudRetry,parsed,expired]
  round := by
    rintro ⟨header,d⟩ query login ⟨rfl,answers⟩ old new
    obtain ⟨parsed,expired⟩ : (exchangeWith msg d header query).ret = msgCodeSucess ∧
      (exchangeWith msg d header query).header.imCode = msgCodeInvalidses := imCloudExchange_stale old
    have renewed := (imCloudLogin_sucess (exchangeWith msg d header query).daemon login).mpr new
    refine ⟨((exchangeWith msg d header query).header,(imCloudLogin (exchangeWith msg d header query).daemon login).daemon),
      ⟨?_,?_⟩,fun rest => cloudRetry_expired d header parsed expired renewed⟩
    · exact (imCloudLogin_quiet ..).accState.trans (imCloudExchange_quiet ..).accState
    · exact (renewed_answers ..).trans answers
  ends := by
    rintro ⟨header,d⟩ query rest ⟨rfl,answers⟩ fresh
    have sent : (exchangeWith msg d header query).daemon.answers = told := (imCloudExchange_answers ..).trans answers
    unfold cloudRetry
    dsimp only
    split
    · rename_i failed
      exact ⟨_,rfl,(imCloudExchange_rejected failed false).symm,sent⟩
    · rename_i accepted
      have code := imCloudExchange_told (not_not.mp accepted) false
      rw [if_neg (fun delayed => Bool.false_ne_true delayed.1)] at code
      split
      · rename_i success
        exact ⟨_,rfl,(code.trans success).symm,(kept _).trans sent⟩
      · have other : (exchangeWith msg d header query).header.imCode ≠ msgCodeInvalidses :=
          imCloudExchange_fresh fresh (not_not.mp accepted)
        rw [if_neg other]
        exact ⟨_,rfl,code.symm,sent⟩
  fails := by
    rintro ⟨header,d⟩ query login rest ⟨rfl,answers⟩ old new
    obtain ⟨parsed,expired⟩ : (exchangeWith msg d header query).ret = msgCodeSucess ∧
      (exchangeWith msg d header query).header.imCode = msgCodeInvalidses := imCloudExchange_stale old
    have refused : (imCloudLogin (exchangeWith msg d header query).daemon login).ret ≠ msgCodeSucess := imCloudLogin_refused new _
    refine ⟨⟨(imCloudLogin (exchangeWith msg d header query).daemon login).daemon,msgCodeUnknown,.empty,false,rest⟩,?_,rfl,?_⟩
    · simp only [msgCodeSucess] at refused
      simp [cloudRetry,parsed,expired,refused]
    · exact (renewed_answers ..).trans answers

theorem startAccOpened_answers (d : Daemon) : (startAccOpened d).answers = d.answers :=
  imBrocastToTerminal_answers {d with records := startedInfo d.records} _ _

theorem startAccRetry_cycles (created : Bool) (told : List Json) :
    Cycles (fun s => startAccRetry created s.1 s.2) (stale .opening) logsIn
      (Awaits .closed told) (EndsWith true .opening told) (FailsWith told) where
  waits := by
    rintro ⟨header,d⟩ ⟨closed,_⟩
    simp [startAccRetry,closed]
  waitsAgain := by
    rintro ⟨header,d⟩ query ⟨closed,_⟩ old
    obtain ⟨parsed,expired⟩ : (imCloudStartaac (d.setAccState .opening) header query).ret = msgCodeSucess ∧
      (imCloudStartaac (d.setAccState .opening) header query).header.imCode = msgCodeInvalidses :=
      imCloudExchange_stale (d := d.setAccState .opening) old
    simp [startAccRetry,closed,parsed,expired]
  round := by
    rintro ⟨header,d⟩ query login ⟨closed,answers⟩ old new
    let c := imCloudStartaac (d.setAccState .opening) header query
    obtain ⟨parsed,expired⟩ : c.ret = msgCodeSucess ∧ c.header.imCode = msgCodeInvalidses :=
      imCloudExchange_stale (d := d.setAccState .opening) old
    have renewed := (imCloudLogin_sucess c.daemon login).mpr new
    refine ⟨(c.header,(imCloudLogin c.daemon login).daemon.setAccState .closed),⟨rfl,?_⟩,
      fun rest => startAccRetry_expired d header closed parsed expired renewed⟩
    exact (renewed_answers ..).trans answers
  ends := by
    rintro ⟨header,d⟩ query rest ⟨closed,answers⟩ fresh
    have sent : (imCloudStartaac (d.setAccState .opening) header query).daemon.answers = told :=
      (imCloudExchange_answers ..).trans answers
    unfold startAccRetry
    dsimp only
    rw [if_neg (not_not.mpr closed)]
    split
    · rename_i failed
      exact ⟨_,rfl,(imCloudExchange_rejected (d := d.setAccState .opening) failed true).symm,sent⟩
    · rename_i accepted
      have code := imCloudExchange_told (d := d.setAccState .opening) (not_not.mp accepted) true
      split
      · rename_i delayed
        exact ⟨_,rfl,(code.trans (if_pos ⟨rfl,delayed⟩)).symm,sent⟩
      · rename_i prompt
        have plain := code.trans (if_neg fun both => prompt both.2)
        split
        · rename_i success
          exact ⟨_,rfl,(plain.trans success).symm,(startAccOpened_answers _).trans sent⟩
        · have other : (imCloudStartaac (d.setAccState .opening) header query).header.imCode ≠ msgCodeInvalidses :=
            imCloudExchange_fresh (d := d.setAccState .opening) fresh (not_not.mp accepted)
          rw [if_neg other]
          exact ⟨_,rfl,plain.symm,sent⟩
  fails := by
    rintro ⟨header,d⟩ query login rest ⟨closed,answers⟩ old new
    let c := imCloudStartaac (d.setAccState .opening) header query
    obtain ⟨parsed,expired⟩ : c.ret = msgCodeSucess ∧ c.header.imCode = msgCodeInvalidses :=
      imCloudExchange_stale (d := d.setAccState .opening) old
    have refused : (imCloudLogin c.daemon login).ret ≠ msgCodeSucess := imCloudLogin_refused new _
    refine ⟨⟨(imCloudLogin c.daemon login).daemon.setAccState .closed,msgCodeUnknown,.empty,false,rest⟩,?_,rfl,?_⟩
    · simp only [c,msgCodeSucess] at parsed expired refused
      simp [startAccRetry,closed,parsed,expired,refused,c]
    · exact (renewed_answers ..).trans answers

-- ACC_STATE_INFO goes back behind the test of the state, so any state will do.
theorem isAccRetry_cycles (created : Bool) (told : List Json) :
    Cycles (fun s : MsgHeader × Daemon => isAccRetry created s.1 s.2) (stale .querying) logsIn
      (fun s : MsgHeader × Daemon => s.2.answers = told) (EndsWith true .querying told) (FailsWith told) where
  waits _ _ := rfl
  waitsAgain := by
    rintro ⟨header,d⟩ query _ old
    obtain ⟨parsed,expired⟩ : (imCloudIsaac (d.setAccState .querying) header query).ret = msgCodeSucess ∧
      (imCloudIsaac (d.setAccState .querying) header query).header.imCode = msgCodeInvalidses :=
      imCloudExchange_stale (d := d.setAccState .querying) old
    simp [isAccRetry,parsed,expired]
  round := by
    rintro ⟨header,d⟩ query login answers old new
    let c := imCloudIsaac (d.setAccState .querying) header query
    obtain ⟨parsed,expired⟩ : c.ret = msgCodeSucess ∧ c.header.imCode = msgCodeInvalidses :=
      imCloudExchange_stale (d := d.setAccState .querying) old
    have renewed := (imCloudLogin_sucess c.daemon login).mpr new
    refine ⟨(c.header,(imCloudLogin c.daemon login).daemon.setAccState .closed),?_,
      fun rest => isAccRetry_expired d header parsed expired renewed⟩
    exact (renewed_answers ..).trans answers
  ends := by
    rintro ⟨header,d⟩ query rest answers fresh
    have sent : (imCloudIsaac (d.setAccState .querying) header query).daemon.answers = told :=
      (imCloudExchange_answers ..).trans answers
    unfold isAccRetry
    dsimp only
    split
    · rename_i failed
      exact ⟨_,rfl,(imCloudExchange_rejected (d := d.setAccState .querying) failed true).symm,sent⟩
    · rename_i accepted
      have code := imCloudExchange_told (d := d.setAccState .querying) (not_not.mp accepted) true
      split
      · rename_i delayed
        exact ⟨_,rfl,(code.trans (if_pos ⟨rfl,delayed⟩)).symm,sent⟩
      · rename_i prompt
        have plain := code.trans (if_neg fun both => prompt both.2)
        split
        · rename_i success
          exact ⟨_,rfl,(plain.trans success).symm,sent⟩
        · have other : (imCloudIsaac (d.setAccState .querying) header query).header.imCode ≠ msgCodeInvalidses :=
            imCloudExchange_fresh (d := d.setAccState .querying) fresh (not_not.mp accepted)
          rw [if_neg other]
          exact ⟨_,rfl,plain.symm,sent⟩
  fails := by
    rintro ⟨header,d⟩ query login rest answers old new
    let c := imCloudIsaac (d.setAccState .querying) header query
    obtain ⟨parsed,expired⟩ : c.ret = msgCodeSucess ∧ c.header.imCode = msgCodeInvalidses :=
      imCloudExchange_stale (d := d.setAccState .querying) old
    have refused : (imCloudLogin c.daemon login).ret ≠ msgCodeSucess := imCloudLogin_refused new _
    refine ⟨⟨(imCloudLogin c.daemon login).daemon.setAccState .closed,msgCodeUnknown,.empty,false,rest⟩,?_,rfl,?_⟩
    · simp only [c,msgCodeSucess] at parsed expired refused
      simp [isAccRetry,parsed,expired,refused,c]
    · exact (renewed_answers ..).trans answers

-- Of the commands that repeat a query: whether a delay is an answer, and the state they ask in.
def queries (d : Daemon) : Option (Bool × AccOpenState) :=
  match TermMsgCmd.ofCode d.records.cmdHeader.imCmd with
  | some .getflow | some .getflowInfo | some .ungettedflow | some .getAcclist => some (false,d.accState)
  | some .startAcc | some .accStateInfo => (enters d).map fun state => (true,state)
  | some .stopAcc | some .keepacc | some .peakflow | some .iosinfo | none => none

theorem terminalSwitch_cycles (asks : queries d = some (delays,state)) (created : Bool) (header : MsgHeader) :
    ∃ (run : MsgHeader × Daemon → List Exchange → Option Handled) (Ready : MsgHeader × Daemon → Prop) (begun : Daemon),
      terminalSwitch created header d = run (header,begun) ∧ Ready (header,begun) ∧
        Cycles run (stale state) logsIn Ready (EndsWith delays state d.answers) (FailsWith d.answers) := by
  have relayed (answer : Daemon → Daemon × TermData) (msg : Daemon → Bytes) (kept : ∀ d, (answer d).1.answers = d.answers)
      (same : terminalSwitch created header d = cloudRetry (exchangeWith msg) answer header d)
      (relays : some (false,d.accState) = some (delays,state)) :
      ∃ (run : MsgHeader × Daemon → List Exchange → Option Handled) (Ready : MsgHeader × Daemon → Prop) (begun : Daemon),
        terminalSwitch created header d = run (header,begun) ∧ Ready (header,begun) ∧
          Cycles run (stale state) logsIn Ready (EndsWith delays state d.answers) (FailsWith d.answers) := by
    cases relays
    exact ⟨_,_,d,same,⟨rfl,rfl⟩,cloudRetry_cycles kept _ _⟩
  unfold queries at asks
  cases command : TermMsgCmd.ofCode d.records.cmdHeader.imCmd with
  | none => simp only [command] at asks; cases asks
  | some kind =>
    simp only [command] at asks
    have switched (f : List Exchange → Option Handled)
        (same : ∀ replies, terminalSwitch created header d replies = f replies) :
        terminalSwitch created header d = f := funext same
    cases kind with
    | getflow =>
      refine relayed (fun d => (d,imJsonMakeTermresGetflow .empty))
        (fun d => imJsonMakeCmdGetflow d.records.loginResp) (fun _ => rfl)
        (switched _ fun replies => ?_) asks
      simp only [terminalSwitch,command]
      rfl
    | getflowInfo =>
      refine relayed (fun d => ({d with records := (imJsonMakeTermresFlowinfo d.records .empty).1},
        (imJsonMakeTermresFlowinfo d.records .empty).2)) (fun d => imJsonMakeCmdGetflowInfo d.records.loginResp) (fun _ => rfl)
        (switched _ fun replies => ?_) asks
      simp only [terminalSwitch,command]
      rfl
    | ungettedflow =>
      refine relayed (fun d => (d,imJsonMakeTermresUngetflow d.records .empty))
        (fun d => imJsonMakeCmdUngetflow d.records.loginResp) (fun _ => rfl)
        (switched _ fun replies => ?_) asks
      simp only [terminalSwitch,command]
      rfl
    | getAcclist =>
      refine relayed (fun d => (d,imJsonMakeTermresAcclist d.records .empty))
        (fun d => imJsonMakeCmdAcclist d.records.loginResp) (fun _ => rfl)
        (switched _ fun replies => ?_) asks
      simp only [terminalSwitch,command]
      rfl
    | startAcc =>
      simp only [enters,command] at asks
      by_cases idle : d.accState = .closed
      · rw [if_pos idle] at asks
        cases asks
        refine ⟨_,_,d,switched _ fun replies => ?_,⟨idle,rfl⟩,startAccRetry_cycles created _⟩
        simp only [terminalSwitch,command]
      · rw [if_neg idle] at asks
        cases asks
    | accStateInfo =>
      simp only [enters,command] at asks
      by_cases goes : d.accState = .closed ∧ (imCheckIsnetChange d.records).2 = msgCodeSucess
      · rw [if_pos goes] at asks
        cases asks
        refine ⟨_,_,d.checked,switched _ fun replies => ?_,?_,isAccRetry_cycles created _⟩
        · simp only [terminalSwitch,command]
          exact accStateInfo_asks goes.1 goes.2 created header replies
        · rfl
      · rw [if_neg goes] at asks
        cases asks
    | stopAcc | keepacc | peakflow | iosinfo => cases asks

theorem stopAcc_answers (ran : stopAcc header d replies = some h) :
    h.daemon.answers = d.answers ∧ (h.errcode = msgCodeSucess ∨ h.errcode = msgCodeUnknown) := by
  cases replies with
  | nil => cases ran
  | cons ex rest =>
    unfold stopAcc at ran
    dsimp only at ran
    split at ran
    · cases ran
      exact ⟨imCloudExchange_answers ..,.inr rfl⟩
    · cases ran
      exact ⟨(imBrocastToTerminal_answers ..).trans
        (imCloudExchange_answers d (imJsonMakeCmdStopacc d.records.loginResp) header ex),
        .inl rfl⟩

theorem accStateInfo_alone (asks : ¬(d.accState = .closed ∧ (imCheckIsnetChange d.records).2 = msgCodeSucess))
    (created : Bool) (header : MsgHeader) (replies : List Exchange) : ∃ h, accStateInfo created header d replies = some h ∧
      h.daemon.answers = d.answers ∧ h.errcode ∈ [msgCodeSucess,msgCodeUnknown,msgCodeMsgdelayTerm] := by
  unfold accStateInfo
  split
  · exact ⟨_,rfl,rfl,by simp⟩
  · dsimp only
    split
    · exact ⟨_,rfl,rfl,by simp⟩
    · rename_i changed
      split
      · exact ⟨_,rfl,rfl,by simp⟩
      · rename_i idle
        exact absurd ⟨not_not.mp idle,not_not.mp changed⟩ asks

-- These never wait for a second reply.
theorem terminalSwitch_alone (asks : queries d = none) (created : Bool) (header : MsgHeader) (ex : Exchange)
    (rest : List Exchange) : ∃ h, terminalSwitch created header d (ex :: rest) = some h := by
  unfold queries at asks
  unfold terminalSwitch
  cases command : TermMsgCmd.ofCode d.records.cmdHeader.imCmd with
  | none => exact ⟨_,rfl⟩
  | some kind =>
    simp only [command] at asks ⊢
    cases kind with
    | startAcc =>
      simp only [enters,command] at asks
      by_cases idle : d.accState = .closed
      · rw [if_pos idle] at asks
        cases asks
      · exact ⟨_,startAccRetry_refused idle⟩
    | accStateInfo =>
      simp only [enters,command] at asks
      by_cases goes : d.accState = .closed ∧ (imCheckIsnetChange d.records).2 = msgCodeSucess
      · rw [if_pos goes] at asks
        cases asks
      · obtain ⟨h,ran,_⟩ := accStateInfo_alone goes created header (ex :: rest)
        exact ⟨h,ran⟩
    | stopAcc =>
      simp only [stopAcc]
      split <;> exact ⟨_,rfl⟩
    | keepacc | peakflow | iosinfo => exact ⟨_,rfl⟩
    | getflow | getflowInfo | ungettedflow | getAcclist => cases asks

def ownCodes : List Int := [msgCodeSucess,msgCodeUnknown,msgCodeFormatErrTerm,msgCodeMsgdelayTerm]

theorem terminalSwitch_own (asks : queries d = none) (ran : terminalSwitch created header d replies = some h) :
    h.daemon.answers = d.answers ∧ h.errcode ∈ ownCodes := by
  unfold queries at asks
  unfold terminalSwitch at ran
  cases command : TermMsgCmd.ofCode d.records.cmdHeader.imCmd with
  | none =>
    simp only [command] at ran
    cases ran
    exact ⟨rfl,by simp [ownCodes]⟩
  | some kind =>
    simp only [command] at asks ran
    cases kind with
    | startAcc =>
      simp only [enters,command] at asks
      by_cases idle : d.accState = .closed
      · rw [if_pos idle] at asks
        cases asks
      · rw [startAccRetry_refused idle] at ran
        cases ran
        exact ⟨rfl,by simp [ownCodes]⟩
    | accStateInfo =>
      simp only [enters,command] at asks
      by_cases goes : d.accState = .closed ∧ (imCheckIsnetChange d.records).2 = msgCodeSucess
      · rw [if_pos goes] at asks
        cases asks
      · obtain ⟨h',same,answers,code⟩ := accStateInfo_alone goes created header replies
        cases same.symm.trans ran
        refine ⟨answers,?_⟩
        unfold ownCodes
        simp only [List.mem_cons,List.not_mem_nil,or_false] at code ⊢
        rcases code with code | code | code
        · exact .inl code
        · exact .inr (.inl code)
        · exact .inr (.inr (.inr code))
    | stopAcc =>
      obtain ⟨answers,code⟩ := stopAcc_answers ran
      refine ⟨answers,?_⟩
      rcases code with code | code
      · rw [code]
        exact List.mem_cons_self
      · rw [code]
        exact List.mem_cons_of_mem _ List.mem_cons_self
    | keepacc | peakflow | iosinfo =>
      cases ran
      exact ⟨rfl,by simp [ownCodes]⟩
    | getflow | getflowInfo | ungettedflow | getAcclist => cases asks

end ImAcc
