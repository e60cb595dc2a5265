import ImAcc.Acts
import ImAcc.Messages

-- The session id through its copies: five records hold it.
namespace ImAcc
open JsonC JsonText Script

def sessionIds (r : Records) : List Bytes :=
  [r.loginResp.imSessionId,r.acc.imSessionId,r.countflowCmd.imSessionId,r.getaacflowCmd.imSessionId,
   r.taskresultCmd.imSessionId]

def Coherent (r : Records) (session : Bytes) : Prop := ∀ id ∈ sessionIds r, id = session

def sessionGiven (jsonMsg : Json) : Option Bytes :=
  (devObjOf jsonMsg).bind fun devObj => (supplied (some devObj) .sessionid).map Json.getString

-- A login reply with an id. It may lack the other members, and then it is rejected all the same.
def loginReplied : Option Json → Option Json
  | none => none
  | some jsonMsg =>
    let header := imJsonParseHeader jsonMsg default
    if header.2 = msgCodeSucess ∧ header.1.imCode = msgCodeSucess ∧ CloudMsgCmd.ofCode header.1.imCmd = some .devLogin then
      some jsonMsg
    else none

def lastSession (session : Bytes) (_ : Daemon) : Act → Bytes
  | .exchange op _ ex =>
    if op = .login → ex.sent = msgCodeSucess then ((loginReplied ex.body).bind sessionGiven).getD session else session
  | _ => session

structure WrittenWith (op : CloudOp) (r : Records) (session : Bytes) : Prop where
  text : ∃ rest, op.imJsonMakeCmd r = cloudCmdText op.cmd (sessionText session ++ rest)
  decoded : op ≠ .getaacflow → (∀ field ∈ op.pasted r, field.2.Plain) →
    ∃ fields, read (op.imJsonMakeCmd r) = some (messageValue op.cmd ((jasonKey .sessionid,.text session) :: fields))

def SendsWith (session : Bytes) (d : Daemon) : Act → Prop
  | .exchange op header ex => emitted d (op.run d header ex).daemon = [.cloud (op.imJsonMakeCmd d.records)] ∧
      (op ≠ .login → WrittenWith op d.records session)
  | act => ∀ msg, .cloud msg ∉ emitted d (act.apply d)

theorem Coherent.same (coherent : Coherent r session) (same : sessionIds s = sessionIds r) : Coherent s session := by
  intro id member
  rw [same] at member
  exact coherent id member

theorem imInitSession_coherent (r : Records) : Coherent (imInitSession r) r.loginResp.imSessionId := by
  have ids : sessionIds (imInitSession r) = List.replicate 5 r.loginResp.imSessionId := rfl
  intro id member
  rw [ids] at member
  exact List.eq_of_mem_replicate member

-- The one writer: a reply that contains an id gives it to all five records, rejected or not.
theorem imJsonParseDataLoginResp_coherent (coherent : Coherent r session) (jsonMsg : Json) :
    Coherent (imJsonParseDataLoginResp r jsonMsg).1 ((sessionGiven jsonMsg).getD session) := by
  unfold imJsonParseDataLoginResp sessionGiven
  rw [withDevObj_devObjOf]
  cases devObjOf jsonMsg with
  | none => exact coherent
  | some devObj =>
    have stored : (imJsonGetString (some devObj) .sessionid r.loginResp.imSessionId).2 =
        ((supplied (some devObj) .sessionid).map Json.getString).getD session := by
      unfold imJsonGetString imJsonGet supplied
      dsimp only [Option.bind_some]
      cases devObj.objectGet (jasonKey .sessionid) with
      | none => exact coherent _ (.head _)
      | some value => rfl
    rw [Option.bind_some,← stored]
    exact imInitSession_coherent _

theorem imJsonParseDataCloud_sessionIds (r : Records) (jsonMsg : Json) (cmd : Int)
    (other : CloudMsgCmd.ofCode cmd ≠ some .devLogin) :
    sessionIds (imJsonParseDataCloud r jsonMsg cmd).1 = sessionIds r := by
  apply imJsonParseDataCloud_keeps sessionIds cmd
  · exact fun login => absurd login other
  · exact fun _ => acclist_keeps sessionIds fun _ => rfl
  · exact fun _ => taskresultData_keeps sessionIds fun _ _ _ _ => rfl
  · exact fun _ _ _ _ _ => rfl

theorem imJsonParseCloud_coherent (coherent : Coherent r session) (body : Option Json) (h : MsgHeader) :
    Coherent (imJsonParseCloud r body h).records (((loginReplied body).bind sessionGiven).getD session) := by
  cases body with
  | none => exact coherent
  | some jsonMsg =>
    unfold loginReplied
    dsimp only
    rcases imJsonParseCloud_cases r jsonMsg h with ⟨complete,success,parsed⟩ | ⟨refused,same | ⟨cmd,delayed⟩⟩
    · rw [parsed]
      by_cases login : CloudMsgCmd.ofCode (imJsonParseHeader jsonMsg default).1.imCmd = some .devLogin
      · rw [if_pos ⟨complete,success,login⟩,CloudMsgCmd.ofCode_exact.mp login]
        exact imJsonParseDataLoginResp_coherent coherent jsonMsg
      · rw [if_neg fun all => login all.2.2]
        exact coherent.same (imJsonParseDataCloud_sessionIds r jsonMsg _ login)
    · rw [same,if_neg fun all => refused ⟨all.1,all.2.1⟩]
      exact coherent
    · rw [delayed,if_neg fun all => refused ⟨all.1,all.2.1⟩]
      apply coherent.same
      exact taskresultResp_keeps sessionIds cmd msgCodeMsgdelay (fun _ => rfl) nofun

theorem CloudOp.run_coherent (op : CloudOp) (header : MsgHeader) (ex : Exchange) (coherent : Coherent d.records session) :
    Coherent (op.run d header ex).daemon.records (lastSession session d (.exchange op header ex)) := by
  unfold lastSession
  dsimp only
  by_cases parses : op = .login → ex.sent = msgCodeSucess
  · rw [CloudOp.run_records op d header ex parses,if_pos parses]
    have parsed := imJsonParseCloud_coherent coherent ex.body (op.header header ex)
    exact parsed.same (CloudOp.settle_keeps sessionIds (fun _ _ => rfl) op _)
  · rw [CloudOp.run_lost op d header ex parses,if_neg parses]
    exact coherent

theorem act_coherent (act : Act) (coherent : Coherent d.records session) :
    Coherent (act.apply d).records (lastSession session d act) := by
  cases act with
  | parse pMsg => exact coherent.same (received_keeps sessionIds d pMsg fun _ _ _ _ _ => rfl)
  | exchange op header ex => exact CloudOp.run_coherent op header ex coherent
  | udp => exact coherent.same (congrArg sessionIds (sendUdp_records d))
  | _ => exact coherent.same rfl

theorem imWindbandInit_coherent (coherent : Coherent r session) : Coherent (imWindbandInit r) session := by
  have copied : Coherent (imWindbandInit r) r.loginResp.imSessionId := (imInitSession_coherent r).same rfl
  rwa [coherent _ (.head _)] at copied

def bootSession (login : Exchange) : Bytes := lastSession [] (Daemon.boot 32 default) (.exchange .login default login)

theorem boot_coherent (bits : Nat) (uci : UciIsacc) (lanIp : Bytes) (login : Exchange) :
    Coherent (World.boot bits uci lanIp login).daemon.records (bootSession login) := by
  have empty : Coherent (Daemon.ready bits uci lanIp).records [] := by
    intro id member
    exact List.eq_of_mem_replicate (n := 5) member
  rw [World.boot_ready]
  exact imWindbandInit_coherent (CloudOp.run_coherent .login default login empty)

theorem chronicle_coherent (told : Chronicle lastSession (World.boot bits uci lanIp login) (bootSession login) w session) :
    Coherent w.daemon.records session :=
  told.keeps (I := fun d session => Coherent d.records session) (boot_coherent bits uci lanIp login)
    fun _ _ act coherent _ => act_coherent act coherent

theorem Coherent.pasted (coherent : Coherent r session) {op : CloudOp} (other : op ≠ .login) : op.pastedSession r = session := by
  obtain ⟨loginResp,acc,countflow,getaacflow,_⟩ : r.loginResp.imSessionId = session ∧ r.acc.imSessionId = session ∧
      r.countflowCmd.imSessionId = session ∧ r.getaacflowCmd.imSessionId = session ∧
      r.taskresultCmd.imSessionId = session := by simpa [Coherent,sessionIds] using coherent
  cases op with
  | login => exact absurd rfl other
  | isaac | startaac | gettaskresult => exact acc
  | countflow => exact countflow
  | getaacflow => exact getaacflow
  | _ => exact loginResp

theorem CloudOp.written (op : CloudOp) (r : Records) (other : op ≠ .login) : WrittenWith op r (op.pastedSession r) := by
  constructor
  · cases op with
    | login => exact absurd rfl other
    | isaac | startaac =>
      refine ⟨bytes ",\"dev_id\":\"" ++ (r.acc.imDevId ++ (bytes "\", \"ip\":\"" ++ (r.acc.imIp ++ bytes "\""))),?_⟩
      simp only [CloudOp.imJsonMakeCmd,imJsonMakeCmdIsacc,imJsonMakeCmdStartacc,accText,List.append_assoc]
      rfl
    | countflow => exact ⟨_,congrArg (cloudCmdText _) (List.append_assoc ..)⟩
    | getaacflow | gettaskresult =>
      exact ⟨_,congrArg (cloudCmdText _) ((List.append_assoc ..).trans (List.append_assoc ..))⟩
    | _ => exact ⟨[],congrArg (cloudCmdText _) (List.append_nil _).symm⟩
  · intro written plain
    rw [imJsonMakeCmd_read op r written plain]
    cases op with
    | login => exact absurd rfl other
    | _ => exact ⟨_,rfl⟩

theorem act_sends (act : Act) (coherent : Coherent d.records session) : SendsWith session d act := by
  have put := emitted_added (act_out d act)
  cases act with
  | exchange op header ex =>
    refine ⟨put,fun other => ?_⟩
    rw [← coherent.pasted other]
    exact op.written d.records other
  | udp =>
    intro msg sent
    rw [put] at sent
    dsimp only [Act.puts] at sent
    split at sent
    · cases List.mem_singleton.mp sent
    · cases sent
  | granted | found | notice | reply =>
    intro msg sent
    rw [put] at sent
    cases List.mem_singleton.mp sent
  | _ =>
    intro msg sent
    rw [put] at sent
    cases sent

-- Between two steps all copies are the id of the last login reply that contained one,
-- and so they are at every act of a step, whose requests carry it.
theorem sessions_coherent (told : Chronicle lastSession (World.boot bits uci lanIp login) (bootSession login) w session) :
    Coherent w.daemon.records session ∧ ∀ event next acts, step w event = some next →
      Plays acting w.daemon acts next.daemon → ∀ v ∈ visits (acting.watching lastSession) (w.daemon,session) acts,
        Coherent v.1.1.records v.1.2 ∧ SendsWith v.1.2 v.1.1 v.2 := by
  have coherent := chronicle_coherent told
  refine ⟨coherent,fun event next acts _ plays v visited => ?_⟩
  have held := (plays.watching lastSession session).visited (I := fun s => Coherent s.1.records s.2) coherent
    (fun s act _ held _ => act_coherent act held) v visited
  exact ⟨held.1,act_sends v.2 held.1⟩

def relogin (code : Int) : Exchange := delivered .devLogin code [[(jasonKey .sessionid,.string (bytes "s2"))]]

def renewing (code : Int) : List Exchange := [delivered .isAcc msgCodeInvalidses [],relogin code]

def renewal (code : Int) : List Act :=
  [.state .querying,.exchange .isaac default (delivered .isAcc msgCodeInvalidses []),.exchange .login default (relogin code)]

def playing (d : Daemon) (acts : List Act) : Daemon := acts.foldl Act.apply d

-- The reply brings neither a time nor an address; its session id is the one in use.
theorem sessions_partial : ∃ w, Chronicle lastSession booted (bootSession loginReply) w (bytes "s2") ∧
    Coherent w.daemon.records (bytes "s2") := by
  have taken : step booted (.isaccInit none default (renewing msgCodeSucess)) =
      some ⟨playing booted.daemon (renewal msgCodeSucess),[],1⟩ := by rfl
  have plays : Plays acting booted.daemon (renewal msgCodeSucess) (playing booted.daemon (renewal msgCodeSucess)) :=
    ⟨trivial,trivial,trivial,rfl⟩
  have told : Chronicle lastSession booted (bootSession loginReply) _ (bytes "s2") := .step .nil taken plays rfl
  exact ⟨_,told,(sessions_coherent told).1⟩

def lastContained (session : Bytes) (_ : Daemon) : Act → Bytes
  | .exchange .login _ ex => if ex.sent = msgCodeSucess then (ex.body.bind sessionGiven).getD session else session
  | _ => session

def refused : World := ⟨playing booted.daemon (renewal msgCodeIvalidedevid),[],1⟩

def asking : List Act := [.parse (some (termMsg .getflow)),.exchange .getflow default lost]

-- A refused login changes no session, whatever its reply contains.
theorem sessions_refused : ¬ ∀ w session, Chronicle lastContained booted (bytes "s1") w session →
    ∀ event next acts, step w event = some next → Plays acting w.daemon acts next.daemon →
      ∀ v ∈ visits (acting.watching lastContained) (w.daemon,session) acts, SendsWith v.1.2 v.1.1 v.2 := by
  intro always
  have taken : step booted (.isaccInit none default (renewing msgCodeIvalidedevid)) = some refused := by rfl
  have plays : Plays acting booted.daemon (renewal msgCodeIvalidedevid) refused.daemon := ⟨trivial,trivial,trivial,rfl⟩
  have told : Chronicle lastContained booted (bytes "s1") refused (bytes "s2") := .step .nil taken plays rfl
  obtain ⟨msg,answered⟩ : ∃ msg, step refused (.message (some (termMsg .getflow)) none default [lost]) =
      some ⟨(playing refused.daemon asking).send (.reply msg),[],1⟩ := ⟨_,by rfl⟩
  have asks : Plays acting refused.daemon (asking ++ [.reply msg]) ((playing refused.daemon asking).send (.reply msg)) :=
    ⟨trivial,trivial,trivial,rfl⟩
  have asked := always _ _ told _ _ _ answered asks _ (.tail _ (.head _))
  obtain ⟨rest,text⟩ := (asked.2 nofun).text
  -- The byte in which the two ids differ.
  have byte : some (49 : UInt8) = some 50 := congrArg (·[130]?) text
  exact absurd byte (by decide)

end ImAcc
