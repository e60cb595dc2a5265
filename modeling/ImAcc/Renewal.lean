import ImAcc.Stored

-- A command that had to log in again, against the same begun with the renewed session.
namespace ImAcc
open JsonC

-- What the answers of the cloud-backed commands and the acceleration state come from.
structure Alike (a b : Records) : Prop where
  ulongBits : a.ulongBits = b.ulongBits
  isaccResp : a.isaccResp = b.isaccResp
  startaccResp : a.startaccResp = b.startaccResp
  flowinfoResp : a.flowinfoResp = b.flowinfoResp
  speedupinfoResp : a.speedupinfoResp = b.speedupinfoResp
  ungetflowResp : a.ungetflowResp = b.ungetflowResp
  acclistResp : a.acclistResp = b.acclistResp

theorem Alike.refl (r : Records) : Alike r r := ⟨rfl,rfl,rfl,rfl,rfl,rfl,rfl⟩

theorem Alike.symm (ab : Alike a b) : Alike b a :=
  ⟨ab.ulongBits.symm,ab.isaccResp.symm,ab.startaccResp.symm,ab.flowinfoResp.symm,ab.speedupinfoResp.symm,
   ab.ungetflowResp.symm,ab.acclistResp.symm⟩

theorem Alike.trans (ab : Alike a b) (bc : Alike b c) : Alike a c :=
  ⟨ab.ulongBits.trans bc.ulongBits,ab.isaccResp.trans bc.isaccResp,ab.startaccResp.trans bc.startaccResp,
   ab.flowinfoResp.trans bc.flowinfoResp,ab.speedupinfoResp.trans bc.speedupinfoResp,
   ab.ungetflowResp.trans bc.ungetflowResp,ab.acclistResp.trans bc.acclistResp⟩

theorem Alike.state (same : Alike a b) : a.speedupinfoResp.imAccState = b.speedupinfoResp.imAccState :=
  congrArg SpeedupInfoResp.imAccState same.speedupinfoResp

theorem Alike.setAccState (same : Alike a b) (state : AccOpenState) : Alike (a.setAccState state) (b.setAccState state) :=
  {same with speedupinfoResp := congrArg (fun info => {info with imAccState := state}) same.speedupinfoResp}

theorem Alike.written (same : Alike a b) : Alike (configWriteImAcc a) (configWriteImAcc b) := {same with}

theorem Alike.ofStart (same : Alike a b) : Alike (speedupinfoOfStart a) (speedupinfoOfStart b) := by
  refine {same with speedupinfoResp := ?_}
  unfold speedupinfoOfStart
  rw [same.speedupinfoResp,same.startaccResp]

theorem Alike.ofIsacc (same : Alike a b) : Alike (speedupinfoOfIsacc a) (speedupinfoOfIsacc b) := by
  refine {same with speedupinfoResp := ?_}
  unfold speedupinfoOfIsacc
  rw [same.speedupinfoResp,same.isaccResp]

theorem withDevObj_alike (each : ∀ devObj, Alike (f devObj).1 (g devObj).1) (same : Alike r s) :
    Alike (withDevObj r jsonMsg f).1 (withDevObj s jsonMsg g).1 := by
  rw [withDevObj_devObjOf,withDevObj_devObjOf]
  cases devObjOf jsonMsg with
  | none => exact same
  | some devObj => exact each devObj

theorem acclist_alike (imData : Json) (indices : List Nat) (same : Alike a.1 b.1) :
    Alike (indices.foldl (accHistroyStore imData) a).1 (indices.foldl (accHistroyStore imData) b).1 := by
  induction indices generalizing a b with
  | nil => exact same
  | cons i rest ih =>
    refine ih ?_
    rw [accHistroyStore_records,accHistroyStore_records]
    dsimp only
    rw [same.acclistResp,same.ulongBits]
    exact {same with ulongBits := rfl,acclistResp := rfl}

theorem adopt_alike (copy : Records → Records) (copies : ∀ a b, Alike a b → Alike (copy a) (copy b))
    (same : Alike p.1 q.1) (ret : p.2 = q.2) : Alike (adopt copy p).1 (adopt copy q).1 := by
  unfold adopt
  rw [ret]
  split
  · exact copies _ _ same
  · exact same

theorem isacc_alike (jsonMsg : Json) (same : Alike r s) :
    Alike (imJsonParseDataIsaccResp r jsonMsg).1 (imJsonParseDataIsaccResp s jsonMsg).1 := by
  unfold imJsonParseDataIsaccResp
  refine withDevObj_alike (fun devObj => ?_) same
  rw [same.isaccResp]
  exact {same with isaccResp := rfl}

theorem startacc_alike (jsonMsg : Json) (same : Alike r s) :
    Alike (imJsonParseDataStartaccResp r jsonMsg).1 (imJsonParseDataStartaccResp s jsonMsg).1 := by
  unfold imJsonParseDataStartaccResp
  refine withDevObj_alike (fun devObj => ?_) same
  rw [same.startaccResp]
  exact {same with startaccResp := rfl}

theorem taskresultData_alike (jsonMsg : Json) (same : Alike r s) :
    Alike (taskresultData r jsonMsg).1 (taskresultData s jsonMsg).1 := by
  have start := startacc_alike jsonMsg same
  have isacc := isacc_alike jsonMsg same
  have startRet : (imJsonParseDataStartaccResp r jsonMsg).2 = (imJsonParseDataStartaccResp s jsonMsg).2 :=
    withDevObj_ret _ _ _ fun _ => rfl
  have isaccRet : (imJsonParseDataIsaccResp r jsonMsg).2 = (imJsonParseDataIsaccResp s jsonMsg).2 :=
    withDevObj_ret _ _ _ fun _ => by simp [imJsonGetInt]
  unfold taskresultData
  rw [same.state]
  cases s.speedupinfoResp.imAccState with
  | opening => exact (adopt_alike _ (fun _ _ same => same.ofStart) start startRet).written
  | querying => exact (adopt_alike _ (fun _ _ same => same.ofIsacc) isacc isaccRet).written
  | unset | closed | opened => exact same.written

theorem imJsonParseDataTaskresultResp_alike (jsonMsg : Json) (cmd errcode : Int) (same : Alike r s) :
    Alike (imJsonParseDataTaskresultResp r jsonMsg cmd errcode).1 (imJsonParseDataTaskresultResp s jsonMsg cmd errcode).1 := by
  have taskid : Alike (imJsonParseDataTaskid r jsonMsg).1 (imJsonParseDataTaskid s jsonMsg).1 :=
    withDevObj_alike (fun _ => {same with}) same
  unfold imJsonParseDataTaskresultResp
  rw [same.state]
  split
  · exact same
  · cases CloudMsgCmd.ofCode cmd with
    | none => exact same
    | some kind =>
      cases kind with
      | isAcc | startAcc => dsimp only; split <;> [exact same; exact taskid]
      | getTaskresult => dsimp only; split <;> [exact same; exact taskresultData_alike jsonMsg same]
      | _ => exact same

theorem imJsonParseDataCloud_alike (jsonMsg : Json) (cmd : Int) (same : Alike r s) :
    Alike (imJsonParseDataCloud r jsonMsg cmd).1 (imJsonParseDataCloud s jsonMsg cmd).1 := by
  unfold imJsonParseDataCloud
  cases CloudMsgCmd.ofCode cmd with
  | none => exact same
  | some kind =>
    cases kind with
    | isAcc => exact isacc_alike jsonMsg same
    | startAcc => exact startacc_alike jsonMsg same
    | getTaskresult => exact imJsonParseDataTaskresultResp_alike jsonMsg _ _ same
    | getAcclist =>
      dsimp only [imJsonParseDataGetacclistResp]
      split
      · exact same
      · exact acclist_alike _ _ same
    | getflowInfo =>
      dsimp only [imJsonParseDataGetflowinfoResp]
      refine withDevObj_alike (fun devObj => ?_) same
      rw [same.flowinfoResp,same.ulongBits]
      exact {same with ulongBits := rfl,flowinfoResp := rfl}
    | devLogout | getaccFlow | stopAcc | countFlow => exact same
    | devLogin | heartBeat | getAccinfo | ungetflow | getflow => exact withDevObj_alike (fun _ => {same with}) same

theorem imJsonParseCloud_alike (body : Option Json) (h h' : MsgHeader) (same : Alike r s) :
    Alike (imJsonParseCloud r body h).records (imJsonParseCloud s body h').records := by
  cases body with
  | none => exact same
  | some jsonMsg =>
    have verdict := imJsonParseHeader_ret jsonMsg h h'
    by_cases complete : HeaderComplete jsonMsg
    · have fields := imJsonParseHeader_fields complete h h'
      simp only [imJsonParseCloud,verdict,fields]
      split
      · exact same
      · split
        · exact imJsonParseDataCloud_alike jsonMsg _ same
        · split
          · exact imJsonParseDataTaskresultResp_alike jsonMsg _ _ same
          · exact same
    · have failed : (imJsonParseHeader jsonMsg h').2 ≠ 0 := fun ok => complete ((imJsonParseHeader_sucess _ _).mp ok)
      simp only [imJsonParseCloud,verdict,failed,ne_eq,not_false_eq_true,if_true,msgCodeSucess]
      exact same

theorem imJsonParseCloud_sameHeader (r s : Records) (body : Option Json) (h : MsgHeader) :
    (imJsonParseCloud r body h).header = (imJsonParseCloud s body h).header := by
  cases body with
  | none => rfl
  | some jsonMsg => rw [imJsonParseCloud_parsed,imJsonParseCloud_parsed]

section
variable {d e : Daemon} {msg msg' : Bytes} {header header' : MsgHeader} {ex : Exchange}

theorem imCloudExchange_alike (same : Alike d.records e.records) :
    Alike (imCloudExchange d msg header ex).daemon.records (imCloudExchange e msg' header' ex).daemon.records :=
  imJsonParseCloud_alike ex.body header header' same

theorem imCloudExchange_ret (same : Alike d.records e.records) :
    (imCloudExchange d msg header ex).ret = (imCloudExchange e msg' header' ex).ret :=
  imJsonParseCloud_ret _ _ ex.body header header' same.state

theorem imCloudExchange_code (same : Alike d.records e.records)
    (accepted : (imCloudExchange d msg header ex).ret = msgCodeSucess) :
    (imCloudExchange d msg header ex).header.imCode = (imCloudExchange e msg' header' ex).header.imCode := by
  rw [imCloudExchange_header accepted,imCloudExchange_header ((imCloudExchange_ret same).symm.trans accepted)]

end

theorem imCloudLogin_alike (login : Exchange) (same : Alike d.records e.records) :
    (imCloudLogin d login).ret = (imCloudLogin e login).ret ∧
      Alike (imCloudLogin d login).daemon.records (imCloudLogin e login).daemon.records := by
  have verdict (msg msg' : Bytes) :
      (imCloudExchange d msg login.stack login).ret = (imCloudExchange e msg' login.stack login).ret :=
    imCloudExchange_ret same
  have header (msg msg' : Bytes) :
      (imCloudExchange d msg login.stack login).header = (imCloudExchange e msg' login.stack login).header :=
    imJsonParseCloud_sameHeader ..
  unfold imCloudLogin
  dsimp only
  split
  · exact ⟨rfl,same⟩
  · rw [verdict _ (imJsonMakeCmdLogin e.records.loginCmd),header _ (imJsonMakeCmdLogin e.records.loginCmd)]
    split
    · exact ⟨rfl,imCloudExchange_alike same⟩
    · exact ⟨verdict ..,imCloudExchange_alike same⟩

structure Seen where
  answer : Option (Int × TermData)
  accState : AccOpenState

def Handled.seen (h : Handled) : Seen := ⟨some (h.errcode,h.data),h.daemon.accState⟩
def Queried.seen (q : Queried) : Seen := ⟨none,q.daemon.accState⟩

-- The induction of the retried commands: a query and a login are taken together.
theorem twoStep {α : Type} {motive : List α → Prop} (replies : List α) (nil : motive [])
    (cons : ∀ query rest, (∀ login later, rest = login :: later → motive later) → motive (query :: rest)) :
    motive replies := by
  match replies with
  | [] => exact nil
  | [query] => exact cons query [] fun _ _ same => nomatch same
  | query :: login :: rest =>
    refine cons query (login :: rest) fun _ later same => ?_
    cases same
    exact twoStep rest nil cons

def exchangeWith (msg : Daemon → Bytes) (d : Daemon) (header : MsgHeader) (ex : Exchange) : CloudResult :=
  imCloudExchange d (msg d) header ex

theorem cloudRetry_alike {msg : Daemon → Bytes} {answer : Daemon → Daemon × TermData}
    (answers : ∀ a b, Alike a.records b.records → (answer a).2 = (answer b).2 ∧ (answer a).1.accState = (answer b).1.accState)
    (replies : List Exchange) (header header' : MsgHeader) (same : Alike d.records e.records) :
    (cloudRetry (exchangeWith msg) answer header d replies).map Handled.seen =
      (cloudRetry (exchangeWith msg) answer header' e replies).map Handled.seen := by
  induction replies using twoStep generalizing d e header header' with
  | nil => rfl
  | cons ex rest ih =>
    have verdict : (exchangeWith msg d header ex).ret = (exchangeWith msg e header' ex).ret := imCloudExchange_ret same
    have after : Alike (exchangeWith msg d header ex).daemon.records (exchangeWith msg e header' ex).daemon.records :=
      imCloudExchange_alike same
    unfold cloudRetry
    dsimp only
    rw [verdict]
    split
    · exact congrArg some (congrArg (Seen.mk _) after.state)
    · rename_i accepted
      have code : (exchangeWith msg d header ex).header.imCode = (exchangeWith msg e header' ex).header.imCode :=
        imCloudExchange_code same (verdict.trans (not_not.mp accepted))
      rw [code]
      split
      · obtain ⟨data,state⟩ := answers _ _ after
        simp only [Option.map_some,Handled.seen,data,state]
      · split
        · cases rest with
          | nil => rfl
          | cons login rest =>
            obtain ⟨renewed,logged⟩ := imCloudLogin_alike login after
            dsimp only
            rw [renewed]
            split
            · exact ih login rest rfl _ _ logged
            · exact congrArg some (congrArg (Seen.mk _) logged.state)
        · exact congrArg some (congrArg (Seen.mk _) after.state)

theorem Alike.entered {d e : Daemon} (same : Alike d.records e.records) (state : AccOpenState) :
    Alike (d.setAccState state).records (e.setAccState state).records := same.setAccState state

theorem startAccRetry_alike (replies : List Exchange) (header header' : MsgHeader) (same : Alike d.records e.records) :
    (startAccRetry created header d replies).map Handled.seen =
      (startAccRetry created header' e replies).map Handled.seen := by
  induction replies using twoStep generalizing d e header header' with
  | nil =>
    have state : d.accState = e.accState := same.state
    unfold startAccRetry
    rw [state]
    split
    · exact congrArg some (congrArg (Seen.mk _) state)
    · rfl
  | cons ex rest ih =>
    have state : d.accState = e.accState := same.state
    have verdict : (imCloudStartaac (d.setAccState .opening) header ex).ret =
        (imCloudStartaac (e.setAccState .opening) header' ex).ret := imCloudExchange_ret (same.entered .opening)
    have after : Alike (imCloudStartaac (d.setAccState .opening) header ex).daemon.records
        (imCloudStartaac (e.setAccState .opening) header' ex).daemon.records :=
      imCloudExchange_alike (same.entered .opening)
    unfold startAccRetry
    dsimp only
    rw [state,verdict]
    split
    · exact congrArg some (congrArg (Seen.mk _) state)
    · split
      · rfl
      · rename_i accepted
        have code : (imCloudStartaac (d.setAccState .opening) header ex).header.imCode =
            (imCloudStartaac (e.setAccState .opening) header' ex).header.imCode :=
          imCloudExchange_code (same.entered .opening) (verdict.trans (not_not.mp accepted))
        rw [code]
        split
        · exact congrArg some (congrArg (Seen.mk _) after.state)
        · split
          · have data : imJsonMakeTermresStartacc (imCloudStartaac (d.setAccState .opening) header ex).daemon.records .empty =
                imJsonMakeTermresStartacc (imCloudStartaac (e.setAccState .opening) header' ex).daemon.records .empty := by
              simp only [imJsonMakeTermresStartacc,after.startaccResp]
            exact congrArg (fun data => some (Seen.mk (some (msgCodeSucess,data)) .opened)) data
          · split
            · cases rest with
              | nil => rfl
              | cons login rest =>
                obtain ⟨renewed,logged⟩ := imCloudLogin_alike login after
                dsimp only
                rw [renewed]
                split
                · exact ih login rest rfl _ _ (logged.entered .closed)
                · rfl
            · exact congrArg some (congrArg (Seen.mk _) after.state)

theorem isAccRetry_alike (replies : List Exchange) (header header' : MsgHeader) (same : Alike d.records e.records) :
    (isAccRetry created header d replies).map Handled.seen =
      (isAccRetry created header' e replies).map Handled.seen := by
  induction replies using twoStep generalizing d e header header' with
  | nil => rfl
  | cons ex rest ih =>
    have verdict : (imCloudIsaac (d.setAccState .querying) header ex).ret =
        (imCloudIsaac (e.setAccState .querying) header' ex).ret := imCloudExchange_ret (same.entered .querying)
    have after : Alike (imCloudIsaac (d.setAccState .querying) header ex).daemon.records
        (imCloudIsaac (e.setAccState .querying) header' ex).daemon.records :=
      imCloudExchange_alike (same.entered .querying)
    unfold isAccRetry
    dsimp only
    rw [verdict]
    split
    · rfl
    · rename_i accepted
      have code : (imCloudIsaac (d.setAccState .querying) header ex).header.imCode =
          (imCloudIsaac (e.setAccState .querying) header' ex).header.imCode :=
        imCloudExchange_code (same.entered .querying) (verdict.trans (not_not.mp accepted))
      rw [code]
      split
      · exact congrArg some (congrArg (Seen.mk _) after.state)
      · split
        · have state : (imCloudIsaac (d.setAccState .querying) header ex).daemon.accState = _ := after.state
          simp only [Option.map_some,Handled.seen,imJsonMakeTermresSpeedupinfo,after.speedupinfoResp]
          exact congrArg some (congrArg (Seen.mk _) state)
        · split
          · cases rest with
            | nil => rfl
            | cons login rest =>
              obtain ⟨renewed,logged⟩ := imCloudLogin_alike login after
              dsimp only
              rw [renewed]
              split
              · exact ih login rest rfl _ _ (logged.entered .closed)
              · rfl
          · exact congrArg some (congrArg (Seen.mk _) after.state)

inductive Backed where
  | startAcc | stopAcc | accStateInfo | getflow | getflowInfo | ungettedflow | getAcclist | autoQuery
  deriving DecidableEq, Repr

def Backed.command : Backed → Option TermMsgCmd
  | .startAcc => some .startAcc
  | .stopAcc => some .stopAcc
  | .accStateInfo => some .accStateInfo
  | .getflow => some .getflow
  | .getflowInfo => some .getflowInfo
  | .ungettedflow => some .ungettedflow
  | .getAcclist => some .getAcclist
  | .autoQuery => none

def Daemon.commanded (d : Daemon) (cmd : TermMsgCmd) : Daemon :=
  {d with records := {d.records with cmdHeader := {d.records.cmdHeader with imCmd := cmd.code}}}

def Backed.perform (op : Backed) (created : Bool) (header : MsgHeader) (d : Daemon) (pMsg : Option Json)
    (replies : List Exchange) : Option Seen :=
  match op.command with
  | some cmd => (imHandleCmdTerminal created header (d.commanded cmd) pMsg replies).map Handled.seen
  | none => (imAutoQueryIsacc created header d replies).map Queried.seen

def Backed.Asks (op : Backed) (d : Daemon) : Prop :=
  match op with
  | .startAcc | .autoQuery => d.accState = .closed
  | .accStateInfo => d.accState = .closed ∧ (imCheckIsnetChange d.records).2 = msgCodeSucess
  | _ => True

def Backed.asking (op : Backed) (d : Daemon) : Daemon :=
  match op with
  | .startAcc => d.setAccState .opening
  | .accStateInfo => d.checked.setAccState .querying
  | .autoQuery => d.setAccState .querying
  | _ => d

def Backed.Expired (op : Backed) (d : Daemon) (first : Exchange) : Prop :=
  accepts (op.asking d).accState first.body = true ∧ replyCode first.body = msgCodeInvalidses

-- What ACC_STATE_INFO compares before it asks stays as it was.
def Backed.renewed (op : Backed) (d : Daemon) (login : Exchange) : Daemon :=
  let r := (imCloudLogin (op.asking d) login).daemon.records
  {d with records := {r with
    loginResp := {r.loginResp with imIp := d.records.loginResp.imIp}
    uci := {r.uci with imIp := d.records.uci.imIp}
    uciSaveIp := d.records.uciSaveIp}.setAccState d.accState}

def Transparent (op : Backed) (created : Bool) (header header' : MsgHeader) (d : Daemon) (pMsg : Option Json)
    (first login : Exchange) (rest : List Exchange) : Prop :=
  op.perform created header d pMsg (first :: login :: rest) = op.perform created header' (op.renewed d login) pMsg rest

-- STOP_ACC and the query do not send again; the reply left unread would have ended them alike.
def Backed.SameAnyway (op : Backed) (d : Daemon) (rest : List Exchange) : Prop :=
  match op with
  | .stopAcc => ∃ next later, rest = next :: later ∧ accepts d.accState next.body = true
  | .autoQuery => ∃ next later, rest = next :: later ∧ accepts .querying next.body = true ∧
      (replyCode next.body = msgCodeInvalidses → later ≠ [])
  | _ => True

theorem imJsonParseCloud_expired (accepted : (imJsonParseCloud r body h).ret = 0)
    (expired : replyCode body = msgCodeInvalidses) : (imJsonParseCloud r body h).records = r := by
  have header := imJsonParseCloud_header accepted
  obtain ⟨jsonMsg,rfl,complete⟩ := imJsonParseCloud_complete accepted
  rw [imJsonParseCloud_parsed] at header
  have code : (imJsonParseHeader jsonMsg h).1.imCode = msgCodeInvalidses := (congrArg MsgHeader.imCode header).trans expired
  simp [imJsonParseCloud,code]

theorem imCloudExchange_expired {d e : Daemon} (same : Alike e.records d.records) (msg : Bytes) (header : MsgHeader)
    (accepted : accepts d.accState first.body = true) (expired : replyCode first.body = msgCodeInvalidses)
    (renews : (imCloudLogin d login).ret = msgCodeSucess) :
    (imCloudExchange e msg header first).ret = msgCodeSucess ∧
      (imCloudExchange e msg header first).header.imCode = msgCodeInvalidses ∧
      (imCloudLogin (imCloudExchange e msg header first).daemon login).ret = msgCodeSucess ∧
      Alike (imCloudLogin (imCloudExchange e msg header first).daemon login).daemon.records
        (imCloudLogin d login).daemon.records := by
  have state : e.accState = d.accState := same.state
  have success : (imCloudExchange e msg header first).ret = msgCodeSucess :=
    (imCloudExchange_accepts ..).mpr (state ▸ accepted)
  have kept : (imCloudExchange e msg header first).daemon.records = e.records := imJsonParseCloud_expired success expired
  obtain ⟨ret,after⟩ := imCloudLogin_alike (d := (imCloudExchange e msg header first).daemon) login (kept ▸ same)
  refine ⟨success,?_,ret.trans renews,after⟩
  rw [imCloudExchange_header success]
  exact expired

theorem perform_command {op : Backed} (command : op.command = some cmd) :
    op.perform created header d pMsg replies =
      (terminalSwitch created header (d.commanded cmd) replies).map Handled.seen := by
  unfold Backed.perform
  rw [command]
  unfold imHandleCmdTerminal
  cases ran : terminalSwitch created header (d.commanded cmd) replies with
  | none => simp [ran]
  | some h =>
    have state := (Daemon.reply_quiet h.daemon pMsg h.errcode (some h.data.json)).accState
    simp [ran,Handled.seen,state]

theorem Daemon.commanded_command (d : Daemon) (cmd : TermMsgCmd) :
    TermMsgCmd.ofCode (d.commanded cmd).records.cmdHeader.imCmd = some cmd := TermMsgCmd.ofCode_code cmd

theorem Daemon.commanded_alike (d : Daemon) (cmd : TermMsgCmd) : Alike (d.commanded cmd).records d.records :=
  {Alike.refl d.records with}

theorem renewed_alike (op : Backed) (d : Daemon) (login : Exchange) :
    Alike (op.renewed d login).records ((imCloudLogin (op.asking d) login).daemon.setAccState d.accState).records :=
  {Alike.refl ((imCloudLogin (op.asking d) login).daemon.setAccState d.accState).records with}

theorem imCloudLogin_parsed {d : Daemon} (success : (imCloudLogin d login).ret = msgCodeSucess) :
    (imCloudLogin d login).daemon.records = (imJsonParseCloud d.records login.body login.stack).records ∧
      (imJsonParseCloud d.records login.body login.stack).header.imCode = msgCodeSucess := by
  have sent : ¬login.sent ≠ msgCodeSucess := not_not.mpr (imCloudLogin_sent success)
  unfold imCloudLogin at success ⊢
  dsimp only at success ⊢
  rw [if_neg sent] at success ⊢
  split
  · rename_i failed
    rw [if_pos failed] at success
    exact ⟨rfl,success⟩
  · rename_i fine
    exact ⟨rfl,not_not.mp (not_or.mp fine).2⟩

theorem imCloudLogin_session {d : Daemon} (success : (imCloudLogin d login).ret = msgCodeSucess)
    (accepted : accepts d.accState login.body = true) (kind : (replyHeader login.body).imCmd = CloudMsgCmd.devLogin.code) :
    ∃ session accTime ip, (imCloudLogin d login).daemon.records =
      imInitSession (uciSetIp {d.records with loginResp := ⟨session,accTime,ip⟩} ip) := by
  obtain ⟨records,code⟩ := imCloudLogin_parsed success
  have parsed := (imJsonParseCloud_accepts d.records login.body login.stack).mpr accepted
  have header := imJsonParseCloud_header parsed
  obtain ⟨jsonMsg,found,complete⟩ := imJsonParseCloud_complete parsed
  rw [found] at records parsed code header kind
  rw [imJsonParseCloud_parsed] at code header
  have valid := (imJsonParseHeader_sucess jsonMsg login.stack).mpr complete
  have cmd : (imJsonParseHeader jsonMsg login.stack).1.imCmd = CloudMsgCmd.devLogin.code :=
    (congrArg MsgHeader.imCmd header).trans kind
  rw [records]
  simp only [imJsonParseCloud,valid,code,imJsonParseDataCloud,cmd,CloudMsgCmd.ofCode_code] at parsed ⊢
  simp only [imJsonParseDataLoginResp,withDevObj_devObjOf] at parsed ⊢
  cases element : devObjOf jsonMsg with
  | none => simp [element] at parsed
  | some devObj => exact ⟨_,_,_,rfl⟩

-- What ACC_STATE_INFO reads from the configuration it reads again by itself.
theorem renewed_session (op : Backed) (d : Daemon) (success : (imCloudLogin (op.asking d) login).ret = msgCodeSucess)
    (accepted : accepts (op.asking d).accState login.body = true)
    (kind : (replyHeader login.body).imCmd = CloudMsgCmd.devLogin.code) :
    ∃ session accTime, (op.renewed d login).records =
      {imInitSession {d.records with loginResp := ⟨session,accTime,d.records.loginResp.imIp⟩} with
        speedupinfoResp := {(op.asking d).records.speedupinfoResp with imAccState := d.accState}} := by
  obtain ⟨session,accTime,ip,stored⟩ := imCloudLogin_session success accepted kind
  refine ⟨session,accTime,?_⟩
  unfold Backed.renewed
  dsimp only
  rw [stored]
  cases op <;> rfl

theorem cloudRetry_expired {msg : Daemon → Bytes} (d : Daemon) (header : MsgHeader)
    (success : (exchangeWith msg d header first).ret = msgCodeSucess)
    (code : (exchangeWith msg d header first).header.imCode = msgCodeInvalidses)
    (renews : (imCloudLogin (exchangeWith msg d header first).daemon login).ret = msgCodeSucess) :
    cloudRetry (exchangeWith msg) answer header d (first :: login :: rest) =
      cloudRetry (exchangeWith msg) answer (exchangeWith msg d header first).header
        (imCloudLogin (exchangeWith msg d header first).daemon login).daemon rest := by
  rw [cloudRetry.eq_def]
  simp [success,code,renews]

theorem startAccRetry_expired (d : Daemon) (header : MsgHeader) (closed : d.accState = .closed)
    (success : (imCloudStartaac (d.setAccState .opening) header first).ret = msgCodeSucess)
    (code : (imCloudStartaac (d.setAccState .opening) header first).header.imCode = msgCodeInvalidses)
    (renews : (imCloudLogin (imCloudStartaac (d.setAccState .opening) header first).daemon login).ret = msgCodeSucess) :
    startAccRetry created header d (first :: login :: rest) =
      startAccRetry created (imCloudStartaac (d.setAccState .opening) header first).header
        ((imCloudLogin (imCloudStartaac (d.setAccState .opening) header first).daemon login).daemon.setAccState .closed)
        rest := by
  rw [startAccRetry.eq_def]
  simp [closed,success,code,renews]

theorem isAccRetry_expired (d : Daemon) (header : MsgHeader)
    (success : (imCloudIsaac (d.setAccState .querying) header first).ret = msgCodeSucess)
    (code : (imCloudIsaac (d.setAccState .querying) header first).header.imCode = msgCodeInvalidses)
    (renews : (imCloudLogin (imCloudIsaac (d.setAccState .querying) header first).daemon login).ret = msgCodeSucess) :
    isAccRetry created header d (first :: login :: rest) =
      isAccRetry created (imCloudIsaac (d.setAccState .querying) header first).header
        ((imCloudLogin (imCloudIsaac (d.setAccState .querying) header first).daemon login).daemon.setAccState .closed)
        rest := by
  rw [isAccRetry.eq_def]
  simp [success,code,renews]

def ReadBack (r : Records) : Prop := (readRespIsacc r).speedupinfoResp = r.speedupinfoResp

theorem getD_twice {α : Type} (o : Option α) (x : α) : o.getD (o.getD x) = o.getD x := by
  cases o <;> rfl

theorem readRespIsacc_readBack (r : Records) : ReadBack (readRespIsacc r) := by
  simp only [ReadBack,readRespIsacc,getD_twice]

theorem ReadBack.setAccState (read : ReadBack r) (state : AccOpenState) : ReadBack (r.setAccState state) := by
  have same := congrArg (fun info : SpeedupInfoResp => {info with imAccState := state}) read
  exact same

theorem withDevObj_readBack (read : ReadBack r) (each : ∀ devObj, ReadBack (body devObj).1) :
    ReadBack (withDevObj r jsonMsg body).1 := by
  rw [withDevObj_devObjOf]
  cases devObjOf jsonMsg with
  | none => exact read
  | some devObj => exact each devObj

-- What is written out reads back, except for im_acc_bandwidth, which is not written.
theorem configWriteImAcc_readBack (bandwidth : r.uci.imAccBandwidth.getD r.speedupinfoResp.imAccBandwidth =
    r.speedupinfoResp.imAccBandwidth) : ReadBack (configWriteImAcc r) := by
  simp only [ReadBack,readRespIsacc,configWriteImAcc,Option.getD_some,bandwidth]

theorem taskresultData_readBack (querying : r.speedupinfoResp.imAccState = .querying) (read : ReadBack r) :
    ReadBack (taskresultData r jsonMsg).1 := by
  have bandwidth := congrArg SpeedupInfoResp.imAccBandwidth read
  have parsed : (imJsonParseDataIsaccResp r jsonMsg).1.uci.imAccBandwidth.getD
      (imJsonParseDataIsaccResp r jsonMsg).1.speedupinfoResp.imAccBandwidth =
        (imJsonParseDataIsaccResp r jsonMsg).1.speedupinfoResp.imAccBandwidth := by
    rw [imJsonParseDataIsaccResp,withDevObj_devObjOf]
    cases devObjOf jsonMsg <;> exact bandwidth
  unfold taskresultData adopt
  rw [querying]
  dsimp only
  split <;> exact configWriteImAcc_readBack parsed

theorem imJsonParseCloud_readBack (body : Option Json) (h : MsgHeader)
    (querying : r.speedupinfoResp.imAccState = .querying) (read : ReadBack r) :
    ReadBack (imJsonParseCloud r body h).records := by
  have task (jsonMsg : Json) (cmd errcode : Int) :
      ReadBack (imJsonParseDataTaskresultResp r jsonMsg cmd errcode).1 := by
    unfold imJsonParseDataTaskresultResp
    split
    · exact read
    · cases CloudMsgCmd.ofCode cmd with
      | none => exact read
      | some kind =>
        cases kind with
        | isAcc | startAcc => dsimp only; split <;> [exact read; exact withDevObj_readBack read fun _ => read]
        | getTaskresult => dsimp only; split <;> [exact read; exact taskresultData_readBack querying read]
        | _ => exact read
  have data (jsonMsg : Json) (cmd : Int) : ReadBack (imJsonParseDataCloud r jsonMsg cmd).1 := by
    unfold imJsonParseDataCloud
    cases CloudMsgCmd.ofCode cmd with
    | none => exact read
    | some kind =>
      cases kind with
      | getAcclist => exact (acclist_keeps ReadBack fun _ => rfl).mpr read
      | getTaskresult => exact task ..
      | devLogout | getaccFlow | stopAcc | countFlow => exact read
      | _ => exact withDevObj_readBack read fun _ => read
  cases body with
  | none => exact read
  | some jsonMsg =>
    simp only [imJsonParseCloud]
    split
    · exact read
    · split
      · exact data ..
      · split
        · exact task ..
        · exact read

theorem imCloudLogin_readBack (login : Exchange) (querying : d.accState = .querying) (read : ReadBack d.records) :
    ReadBack (imCloudLogin d login).daemon.records := by
  have after := imJsonParseCloud_readBack login.body login.stack querying read
  unfold imCloudLogin
  dsimp only
  split
  · exact read
  · split <;> exact after

section
variable {created : Bool} {header header' : MsgHeader} {d : Daemon} {pMsg : Option Json} {first login : Exchange}
variable {rest : List Exchange}

theorem relayed_transparent (op : Backed) (msg : Daemon → Bytes) (answer : Daemon → Daemon × TermData)
    (command : op.command = some cmd) (plain : op.asking d = d)
    (switch : ∀ header d replies, TermMsgCmd.ofCode d.records.cmdHeader.imCmd = some cmd →
      terminalSwitch created header d replies = cloudRetry (exchangeWith msg) answer header d replies)
    (answers : ∀ a b, Alike a.records b.records → (answer a).2 = (answer b).2 ∧ (answer a).1.accState = (answer b).1.accState)
    (expired : op.Expired d first) (renews : (imCloudLogin (op.asking d) login).ret = msgCodeSucess) :
    Transparent op created header header' d pMsg first login rest := by
  have like := renewed_alike op d login
  unfold Backed.Expired at expired
  rw [plain] at expired renews like
  obtain ⟨success,code,again,logged⟩ :=
    imCloudExchange_expired (Daemon.commanded_alike d cmd) (msg (d.commanded cmd)) header expired.1 expired.2 renews
  have state : (imCloudLogin d login).daemon.accState = d.accState := (imCloudLogin_quiet d login).accState
  unfold Transparent
  rw [perform_command command,perform_command command,switch _ _ _ (Daemon.commanded_command ..),
    switch _ _ _ (Daemon.commanded_command ..),cloudRetry_expired _ _ success code again]
  rw [← state] at like
  exact cloudRetry_alike answers rest _ _ ((logged.trans like.symm).trans (Daemon.commanded_alike ..).symm)

theorem startAcc_transparent (asks : d.accState = .closed) (expired : Backed.Expired .startAcc d first)
    (renews : (imCloudLogin (Backed.asking .startAcc d) login).ret = msgCodeSucess) :
    Transparent .startAcc created header header' d pMsg first login rest := by
  have like := renewed_alike .startAcc d login
  have switch (header : MsgHeader) (d : Daemon) (replies : List Exchange) :
      terminalSwitch created header (d.commanded .startAcc) replies =
        startAccRetry created header (d.commanded .startAcc) replies := by
    simp only [terminalSwitch,Daemon.commanded_command]
  have begun : Alike ((d.commanded .startAcc).setAccState .opening).records (d.setAccState .opening).records :=
    (Daemon.commanded_alike d .startAcc).setAccState .opening
  obtain ⟨success,code,again,logged⟩ := imCloudExchange_expired begun
    (imJsonMakeCmdStartacc (d.commanded .startAcc).records.acc) header expired.1 expired.2 renews
  have idle : (d.commanded .startAcc).accState = .closed := asks
  rw [asks] at like
  unfold Transparent
  rw [perform_command rfl,perform_command rfl,switch,switch,startAccRetry_expired _ _ idle success code again]
  exact startAccRetry_alike rest _ _ (((logged.entered .closed).trans like.symm).trans (Daemon.commanded_alike ..).symm)

theorem accStateInfo_transparent (asks : Backed.Asks .accStateInfo d) (expired : Backed.Expired .accStateInfo d first)
    (renews : (imCloudLogin (Backed.asking .accStateInfo d) login).ret = msgCodeSucess) :
    Transparent .accStateInfo created header header' d pMsg first login rest := by
  obtain ⟨closed,change⟩ := asks
  have switch (header : MsgHeader) (d : Daemon) (replies : List Exchange) :
      terminalSwitch created header (d.commanded .accStateInfo) replies =
        accStateInfo created header (d.commanded .accStateInfo) replies := by
    simp only [terminalSwitch,Daemon.commanded_command]
  have begun : Alike ((d.commanded .accStateInfo).checked.setAccState .querying).records
      (Backed.asking .accStateInfo d).records := {Alike.refl (Backed.asking .accStateInfo d).records with}
  obtain ⟨success,code,again,logged⟩ :=
    imCloudExchange_expired begun (imJsonMakeCmdIsacc d.records.acc) header expired.1 expired.2 renews
  have read : ReadBack (imCloudLogin (Backed.asking .accStateInfo d) login).daemon.records :=
    imCloudLogin_readBack login rfl ((readRespIsacc_readBack d.records).setAccState .querying)
  have commandedClosed : (d.commanded .accStateInfo).accState = .closed := closed
  have commandedChange : (imCheckIsnetChange (d.commanded .accStateInfo).records).2 = msgCodeSucess := change
  have renewedClosed : ((Backed.renewed .accStateInfo d login).commanded .accStateInfo).accState = .closed := closed
  have renewedChange :
      (imCheckIsnetChange ((Backed.renewed .accStateInfo d login).commanded .accStateInfo).records).2 = msgCodeSucess := change
  have reread : Alike ((Backed.renewed .accStateInfo d login).commanded .accStateInfo).checked.records
      ((imCloudLogin (Backed.asking .accStateInfo d) login).daemon.setAccState .closed).records := by
    rw [← closed]
    exact {Alike.refl ((imCloudLogin (Backed.asking .accStateInfo d) login).daemon.setAccState d.accState).records with
      speedupinfoResp := read.setAccState d.accState}
  unfold Transparent
  rw [perform_command rfl,perform_command rfl,switch,switch,accStateInfo_asks commandedClosed commandedChange,
    accStateInfo_asks renewedClosed renewedChange,isAccRetry_expired _ _ success code again]
  exact isAccRetry_alike rest _ _ ((logged.entered .closed).trans reread.symm)

theorem stopAcc_transparent (expired : Backed.Expired .stopAcc d first) :
    Transparent .stopAcc created header header' d pMsg first login rest ↔ Backed.SameAnyway .stopAcc d rest := by
  have switch (header : MsgHeader) (d : Daemon) (replies : List Exchange) :
      terminalSwitch created header (d.commanded .stopAcc) replies = stopAcc header (d.commanded .stopAcc) replies := by
    simp only [terminalSwitch,Daemon.commanded_command]
  have success : (imCloudStopaac (d.commanded .stopAcc) header first).ret = msgCodeSucess :=
    (imCloudExchange_accepts ..).mpr expired.1
  have stopped : (stopAcc header (d.commanded .stopAcc) (first :: login :: rest)).map Handled.seen =
      some ⟨some (msgCodeSucess,.empty),.closed⟩ := by
    unfold stopAcc
    dsimp only
    rw [if_neg (not_not.mpr success)]
    rfl
  unfold Transparent Backed.SameAnyway
  rw [perform_command rfl,perform_command rfl,switch,switch,stopped]
  cases rest with
  | nil => exact iff_of_false nofun nofun
  | cons next later =>
    have verdict : (imCloudStopaac ((Backed.renewed .stopAcc d login).commanded .stopAcc) header' next).ret = msgCodeSucess ↔
        accepts d.accState next.body = true := imCloudExchange_accepts ..
    unfold stopAcc
    dsimp only
    split
    · rename_i rejected
      refine iff_of_false nofun fun ⟨_,_,same,accepted⟩ => rejected (verdict.mpr ?_)
      rw [(List.cons.inj same).1]
      exact accepted
    · rename_i accepted
      exact iff_of_true rfl ⟨next,later,rfl,verdict.mp (not_not.mp accepted)⟩

-- The query ends in QUERYING on every accepted reply, and goes back on a rejected one.
theorem autoQuery_left (header : MsgHeader) (closed : d.accState = .closed) (next : Exchange) (later : List Exchange) :
    (imAutoQueryIsacc created header d (next :: later)).map Queried.seen = some ⟨none,.querying⟩ ↔
      accepts .querying next.body = true ∧ (replyCode next.body = msgCodeInvalidses → later ≠ []) := by
  have verdict : (imCloudIsaac (d.setAccState .querying) header next).ret = msgCodeSucess ↔
      accepts .querying next.body = true := imCloudExchange_accepts ..
  have waiting : (imCloudIsaac (d.setAccState .querying) header next).daemon.accState = .querying :=
    (imCloudExchange_quiet (d.setAccState .querying) (imJsonMakeCmdIsacc d.records.acc) header next).accState
  rw [imAutoQueryIsacc.eq_def,if_neg (not_not.mpr closed)]
  dsimp only
  split
  · rename_i rejected
    refine iff_of_false ?_ fun both => rejected (verdict.mpr both.1)
    intro told
    cases told
  · rename_i success
    have accepted := verdict.mp (not_not.mp success)
    have code : replyCode next.body = (imCloudIsaac (d.setAccState .querying) header next).header.imCode :=
      congrArg MsgHeader.imCode (imCloudExchange_header (not_not.mp success)).symm
    rw [code]
    split
    · rename_i delay
      refine iff_of_true (congrArg some (congrArg (Seen.mk none) waiting)) ⟨accepted,fun expired => ?_⟩
      exact absurd (delay.symm.trans expired) (by decide)
    · split
      · rename_i granted
        refine iff_of_true (congrArg some (congrArg (Seen.mk none) waiting)) ⟨accepted,fun expired => ?_⟩
        exact absurd (granted.symm.trans expired) (by decide)
      · split
        · cases later with
          | nil =>
            refine iff_of_false ?_ fun both => both.2 ‹_› rfl
            intro told
            cases told
          | cons login later =>
            have still : (imCloudLogin (imCloudIsaac (d.setAccState .querying) header next).daemon login).daemon.accState =
                .querying := (imCloudLogin_quiet ..).accState.trans waiting
            refine iff_of_true ?_ ⟨accepted,fun _ => List.cons_ne_nil login later⟩
            dsimp only
            split
            · have busy : (imCloudLogin (imCloudIsaac (d.setAccState .querying) header next).daemon login).daemon.accState ≠
                  .closed := by rw [still]; decide
              rw [imAutoQueryIsacc_idle busy]
              exact congrArg some (congrArg (Seen.mk none) still)
            · exact congrArg some (congrArg (Seen.mk none) still)
        · exact iff_of_true (congrArg some (congrArg (Seen.mk none) waiting)) ⟨accepted,fun expired => absurd expired ‹_›⟩

theorem autoQuery_transparent (asks : d.accState = .closed) (expired : Backed.Expired .autoQuery d first) :
    Transparent .autoQuery created header header' d pMsg first login rest ↔ Backed.SameAnyway .autoQuery d rest := by
  have left : (imAutoQueryIsacc created header d (first :: login :: rest)).map Queried.seen = some ⟨none,.querying⟩ :=
    (autoQuery_left header asks first (login :: rest)).mpr ⟨expired.1,fun _ => List.cons_ne_nil login rest⟩
  have renewedClosed : (Backed.renewed .autoQuery d login).accState = .closed := asks
  change (imAutoQueryIsacc created header d (first :: login :: rest)).map Queried.seen =
    (imAutoQueryIsacc created header' (Backed.renewed .autoQuery d login) rest).map Queried.seen ↔ _
  rw [left]
  unfold Backed.SameAnyway
  cases rest with
  | nil =>
    refine iff_of_false ?_ ?_
    · rw [imAutoQueryIsacc.eq_def,if_neg (not_not.mpr renewedClosed)]
      intro told
      cases told
    · rintro ⟨_,_,same,_⟩
      cases same
  | cons next later =>
    rw [eq_comm,autoQuery_left header' renewedClosed]
    constructor
    · rintro ⟨accepted,more⟩
      exact ⟨next,later,rfl,accepted,more⟩
    · rintro ⟨_,_,same,accepted,more⟩
      cases same
      exact ⟨accepted,more⟩

-- The commands that go back to their label are transparent; the other two only where
-- it cannot be told.
theorem transparent_exact (op : Backed) (asks : op.Asks d) (expired : op.Expired d first)
    (renews : (imCloudLogin (op.asking d) login).ret = msgCodeSucess) :
    Transparent op created header header' d pMsg first login rest ↔ op.SameAnyway d rest := by
  cases op with
  | startAcc => exact iff_of_true (startAcc_transparent asks expired renews) trivial
  | stopAcc => exact stopAcc_transparent expired
  | accStateInfo => exact iff_of_true (accStateInfo_transparent asks expired renews) trivial
  | autoQuery => exact autoQuery_transparent asks expired
  | getflow =>
    refine iff_of_true (relayed_transparent .getflow (fun d => imJsonMakeCmdGetflow d.records.loginResp)
      (fun d => (d,imJsonMakeTermresGetflow .empty)) rfl rfl (fun header d replies command => ?_)
      (fun a b like => ⟨?_,like.state⟩) expired renews) trivial
    · simp only [terminalSwitch,command]
      rfl
    · rfl
  | getflowInfo =>
    refine iff_of_true (relayed_transparent .getflowInfo (fun d => imJsonMakeCmdGetflowInfo d.records.loginResp)
      (fun d => ({d with records := (imJsonMakeTermresFlowinfo d.records .empty).1},
        (imJsonMakeTermresFlowinfo d.records .empty).2)) rfl rfl (fun header d replies command => ?_)
      (fun a b like => ⟨?_,like.state⟩) expired renews) trivial
    · simp only [terminalSwitch,command]
      rfl
    · simp only [imJsonMakeTermresFlowinfo,like.flowinfoResp,like.speedupinfoResp]
  | ungettedflow =>
    refine iff_of_true (relayed_transparent .ungettedflow (fun d => imJsonMakeCmdUngetflow d.records.loginResp)
      (fun d => (d,imJsonMakeTermresUngetflow d.records .empty)) rfl rfl (fun header d replies command => ?_)
      (fun a b like => ⟨?_,like.state⟩) expired renews) trivial
    · simp only [terminalSwitch,command]
      rfl
    · simp only [imJsonMakeTermresUngetflow,like.ungetflowResp]
  | getAcclist =>
    refine iff_of_true (relayed_transparent .getAcclist (fun d => imJsonMakeCmdAcclist d.records.loginResp)
      (fun d => (d,imJsonMakeTermresAcclist d.records .empty)) rfl rfl (fun header d replies command => ?_)
      (fun a b like => ⟨?_,like.state⟩) expired renews) trivial
    · simp only [terminalSwitch,command]
      rfl
    · simp only [imJsonMakeTermresAcclist,like.acclistResp]

end

theorem transparent_exact_start :
    Transparent .startAcc true default default booted.daemon none (delivered .startAcc msgCodeInvalidses []) loginReply
      [delivered .startAcc msgCodeSucess []] :=
  (transparent_exact .startAcc (show booted.daemon.accState = .closed by decide) ⟨by decide,by decide⟩ (by decide)).mpr trivial

-- The terminal is told it has stopped where the renewed session would have been refused.
theorem transparent_stopped : ¬ ∀ (op : Backed) (created : Bool) (header header' : MsgHeader) (d : Daemon)
    (pMsg : Option Json) (first login : Exchange) (rest : List Exchange), op.Asks d → op.Expired d first →
    (imCloudLogin (op.asking d) login).ret = msgCodeSucess →
      Transparent op created header header' d pMsg first login rest := by
  intro always
  have same := always .stopAcc true default default booted.daemon none (delivered .stopAcc msgCodeInvalidses []) loginReply
    [lost] trivial ⟨by decide,by decide⟩ (by decide)
  have answer := congrArg (Option.map fun seen : Seen => seen.answer.map Prod.fst) same
  exact absurd answer (by decide)

end ImAcc
