import ImAcc.History

-- ACC_STATE_INFO against the START reply it goes back to.
namespace ImAcc
open JsonC Script

inductive StateField where
  | isp | curBandwidth | maxBandwidth | accBandwidth | accRemaintime
  deriving DecidableEq

def StateField.key : StateField → JsonImCmd
  | .isp => .isp
  | .curBandwidth => .curBandwidth
  | .maxBandwidth => .maxBandwidth
  | .accBandwidth => .accBandwidth
  | .accRemaintime => .accRemaintime

def StateField.reported (reply : StartaccResp) : StateField → Int
  | .isp => reply.imIsp
  | .curBandwidth => reply.imCurBandwidth
  | .maxBandwidth => reply.imMaxBandwidth
  | .accBandwidth => reply.imAccBandwidth
  | .accRemaintime => reply.imRemaintime

def StateField.held (info : SpeedupInfoResp) : StateField → Int
  | .isp => info.imIsp
  | .curBandwidth => info.imCurBandwidth
  | .maxBandwidth => info.imMaxBandwidth
  | .accBandwidth => info.imAccBandwidth
  | .accRemaintime => info.imAccRemaintime

def StateField.option (uci : UciIsacc) : StateField → Option Int
  | .isp => uci.imIsp
  | .curBandwidth => uci.imCurBandwidth
  | .maxBandwidth => uci.imMaxBandwidth
  | .accBandwidth => uci.imAccBandwidth
  | .accRemaintime => uci.imAccRemaintime

def startResult (state : AccOpenState) : Option Json → Bool
  | none => false
  | some jsonMsg =>
    let header := imJsonParseHeader jsonMsg default
    state = .opening && header.2 = msgCodeSucess && header.1.imCode = msgCodeSucess &&
      CloudMsgCmd.ofCode header.1.imCmd = some .getTaskresult && (devObjOf jsonMsg).isSome

-- The START reply most recently reported: one that grants at once, or a task result.
def lastStart (mark : Option StartaccResp) (d : Daemon) : Act → Option StartaccResp
  | .granted => some d.records.startaccResp
  | .exchange op header ex =>
    if startResult d.accState ex.body ∧ (op = .login → ex.sent = msgCodeSucess) then
      some (op.run d header ex).daemon.records.startaccResp
    else mark
  | _ => mark

-- What ACC_STATE_INFO tells of an open session: the START reply's five values.
def StateTold (w : World) (pMsg : Json) (thread : Option MsgHeader) (header : MsgHeader) (reply : StartaccResp) : Prop :=
  ∃ next msg devObj, step w (.message (some pMsg) thread header []) = some next ∧
    next.daemon.out = w.daemon.out ++ [.reply msg] ∧ msg.objectGet (jasonKey .data) = some (.array [devObj]) ∧
    ∀ field : StateField, devObj.objectGet (jasonKey field.key) = some (.int (field.reported reply))

def UpToDate (uci : UciIsacc) (reply : StartaccResp) : Prop :=
  ∀ field : StateField, field.option uci = none ∨ field.option uci = some (field.reported reply)

-- Where the configuration has no value, the one held is the reported one.
def Mirrors (r : Records) (mark : Option StartaccResp) : Prop := ∀ reply ∈ mark, ∀ field : StateField,
  field.option r.uci = none → field.held r.speedupinfoResp = field.reported reply

def mirrored (r : Records) : (Int × Int × Int × Int × Int) × Option Int × Option Int × Option Int × Option Int × Option Int :=
  let info := r.speedupinfoResp
  ((info.imIsp,info.imCurBandwidth,info.imMaxBandwidth,info.imAccBandwidth,info.imAccRemaintime),
   r.uci.imIsp,r.uci.imCurBandwidth,r.uci.imMaxBandwidth,r.uci.imAccBandwidth,r.uci.imAccRemaintime)

theorem Mirrors.same (mirrors : Mirrors r mark) (same : mirrored s = mirrored r) : Mirrors s mark := by
  simp only [mirrored,Prod.mk.injEq] at same
  obtain ⟨⟨isp,cur,most,acc,remain⟩,isp',cur',most',acc',remain'⟩ := same
  have fields (field : StateField) :
      field.held s.speedupinfoResp = field.held r.speedupinfoResp ∧ field.option s.uci = field.option r.uci := by
    cases field with
    | isp => exact ⟨isp,isp'⟩
    | curBandwidth => exact ⟨cur,cur'⟩
    | maxBandwidth => exact ⟨most,most'⟩
    | accBandwidth => exact ⟨acc,acc'⟩
    | accRemaintime => exact ⟨remain,remain'⟩
  intro reply marked field absent
  rw [(fields field).1]
  exact mirrors reply marked field ((fields field).2.symm.trans absent)

theorem Mirrors.adopted (r : Records) : Mirrors (speedupinfoOfStart r) (some r.startaccResp) := by
  intro reply marked field _
  cases marked
  cases field <;> rfl

-- The bandwidth with the acceleration is the one option that is never written.
theorem configWriteImAcc_mirrors (written : ∀ reply ∈ mark, r.uci.imAccBandwidth = none →
    r.speedupinfoResp.imAccBandwidth = reply.imAccBandwidth) : Mirrors (configWriteImAcc r) mark := by
  intro reply marked field absent
  cases field with
  | accBandwidth => exact written reply marked absent
  | isp | curBandwidth | maxBandwidth | accRemaintime => cases absent

theorem Mirrors.bandwidth (mirrors : Mirrors r mark) : ∀ reply ∈ mark, r.uci.imAccBandwidth = none →
    r.speedupinfoResp.imAccBandwidth = reply.imAccBandwidth :=
  fun reply marked => mirrors reply marked .accBandwidth

theorem readRespIsacc_mirrors (mirrors : Mirrors r mark) : Mirrors (readRespIsacc r) mark := by
  intro reply marked field absent
  rw [← mirrors reply marked field absent]
  cases field with
  | isp | curBandwidth | maxBandwidth | accBandwidth | accRemaintime =>
    exact congrArg (Option.getD · _) absent

theorem taskresultData_mirrors (mirrors : Mirrors r mark) (jsonMsg : Json) : Mirrors (taskresultData r jsonMsg).1
    (if r.speedupinfoResp.imAccState = .opening ∧ (devObjOf jsonMsg).isSome = true then
      some (taskresultData r jsonMsg).1.startaccResp else mark) := by
  have before := mirrors.bandwidth
  unfold taskresultData
  cases state : r.speedupinfoResp.imAccState with
  | opening =>
    unfold imJsonParseDataStartaccResp adopt
    rw [withDevObj_devObjOf]
    cases devObjOf jsonMsg with
    | none => exact configWriteImAcc_mirrors before
    | some devObj => exact configWriteImAcc_mirrors (Mirrors.adopted _).bandwidth
  | querying =>
    have adopting (parsed : Records × Int) :
        (adopt speedupinfoOfIsacc parsed).1.uci = parsed.1.uci ∧
          (adopt speedupinfoOfIsacc parsed).1.speedupinfoResp.imAccBandwidth = parsed.1.speedupinfoResp.imAccBandwidth := by
      unfold adopt
      by_cases success : parsed.2 = msgCodeSucess
      · rw [if_pos success]
        exact ⟨rfl,rfl⟩
      · rw [if_neg success]
        exact ⟨rfl,rfl⟩
    have parsing : (imJsonParseDataIsaccResp r jsonMsg).1.uci = r.uci ∧
        (imJsonParseDataIsaccResp r jsonMsg).1.speedupinfoResp = r.speedupinfoResp :=
      ⟨withDevObj_keeps Records.uci fun _ => rfl,withDevObj_keeps Records.speedupinfoResp fun _ => rfl⟩
    simp only [reduceCtorEq,false_and,if_false]
    apply configWriteImAcc_mirrors
    rw [(adopting _).1,(adopting _).2,parsing.1,parsing.2]
    exact before
  | unset | closed | opened => exact configWriteImAcc_mirrors before

theorem imJsonParseDataCloud_mirrored (r : Records) (jsonMsg : Json) (cmd : Int)
    (other : CloudMsgCmd.ofCode cmd ≠ some .getTaskresult) :
    mirrored (imJsonParseDataCloud r jsonMsg cmd).1 = mirrored r := by
  apply imJsonParseDataCloud_keeps mirrored cmd
  · exact fun _ => withDevObj_keeps mirrored fun _ => rfl
  · exact fun _ => acclist_keeps mirrored fun _ => rfl
  · exact fun result => absurd result other
  · exact fun _ _ _ _ _ => rfl

theorem startResult_exact : startResult state (some jsonMsg) = true ↔ state = .opening ∧
    (imJsonParseHeader jsonMsg default).2 = msgCodeSucess ∧
    (imJsonParseHeader jsonMsg default).1.imCode = msgCodeSucess ∧
    CloudMsgCmd.ofCode (imJsonParseHeader jsonMsg default).1.imCmd = some .getTaskresult ∧
    (devObjOf jsonMsg).isSome = true := by
  simp only [startResult,Bool.and_eq_true,decide_eq_true_eq,and_assoc]

-- A task result that is waited for: its values are adopted where START_ACC is.
theorem taskresult_mirrors (mirrors : Mirrors r mark) (jsonMsg : Json) :
    Mirrors (imJsonParseDataCloud r jsonMsg CloudMsgCmd.getTaskresult.code).1
      (if r.speedupinfoResp.imAccState = .opening ∧ (devObjOf jsonMsg).isSome = true then
        some (imJsonParseDataCloud r jsonMsg CloudMsgCmd.getTaskresult.code).1.startaccResp else mark) := by
  by_cases waiting : r.speedupinfoResp.imAccState.transient = true
  · rw [taskresult_data waiting]
    exact taskresultData_mirrors mirrors jsonMsg
  · have idle : ¬(r.speedupinfoResp.imAccState = .opening ∧ (devObjOf jsonMsg).isSome = true) := by
      intro both
      rw [both.1] at waiting
      exact waiting rfl
    have refused : imJsonParseDataCloud r jsonMsg CloudMsgCmd.getTaskresult.code = (r,msgCodeUnknown) := by
      unfold imJsonParseDataCloud imJsonParseDataTaskresultResp
      rw [CloudMsgCmd.ofCode_code]
      exact if_pos (Bool.eq_false_iff.mpr waiting)
    rw [if_neg idle,refused]
    exact mirrors

theorem imJsonParseCloud_mirrors (mirrors : Mirrors r mark) (body : Option Json) (h : MsgHeader) :
    Mirrors (imJsonParseCloud r body h).records
      (if startResult r.speedupinfoResp.imAccState body = true then
        some (imJsonParseCloud r body h).records.startaccResp else mark) := by
  cases body with
  | none => exact mirrors
  | some jsonMsg =>
    have named : startResult r.speedupinfoResp.imAccState (some jsonMsg) = true ↔ _ := startResult_exact
    rcases imJsonParseCloud_cases r jsonMsg h with ⟨complete,success,parsed⟩ | ⟨refused,same | ⟨cmd,delayed⟩⟩
    · rw [parsed]
      by_cases result : CloudMsgCmd.ofCode (imJsonParseHeader jsonMsg default).1.imCmd = some .getTaskresult
      · have opening : startResult r.speedupinfoResp.imAccState (some jsonMsg) = true ↔
            r.speedupinfoResp.imAccState = .opening ∧ (devObjOf jsonMsg).isSome = true :=
          named.trans ⟨fun all => ⟨all.1,all.2.2.2.2⟩,fun both => ⟨both.1,complete,success,result,both.2⟩⟩
        rw [if_congr opening rfl rfl,CloudMsgCmd.ofCode_exact.mp result]
        exact taskresult_mirrors mirrors jsonMsg
      · rw [if_neg fun all => result (named.mp all).2.2.2.1]
        exact mirrors.same (imJsonParseDataCloud_mirrored r jsonMsg _ result)
    · rw [same,if_neg fun all => refused ⟨(named.mp all).2.1,(named.mp all).2.2.1⟩]
      exact mirrors
    · rw [delayed,if_neg fun all => refused ⟨(named.mp all).2.1,(named.mp all).2.2.1⟩]
      apply mirrors.same
      -- A delayed answer stores its task id, and nothing that is read there.
      exact taskresultResp_keeps mirrored cmd msgCodeMsgdelay (fun _ => rfl) nofun

theorem CloudOp.run_mirrors (op : CloudOp) (d : Daemon) (header : MsgHeader) (ex : Exchange) (mirrors : Mirrors d.records mark) :
    Mirrors (op.run d header ex).daemon.records (lastStart mark d (.exchange op header ex)) := by
  unfold lastStart
  dsimp only
  by_cases parses : op = .login → ex.sent = msgCodeSucess
  · have parsed := imJsonParseCloud_mirrors mirrors ex.body (op.header header ex)
    rw [CloudOp.run_records op d header ex parses]
    rw [CloudOp.settle_keeps Records.startaccResp fun _ _ => rfl,if_congr (and_iff_left parses) rfl rfl]
    exact parsed.same (CloudOp.settle_keeps mirrored (fun _ _ => rfl) op _)
  · rw [CloudOp.run_lost op d header ex parses,if_neg fun both => parses both.2]
    exact mirrors

-- An act adopts the reply, leaves what is read, writes the record out or reads it back.
theorem act_mirrors (d : Daemon) (mark : Option StartaccResp) (act : Act) (mirrors : Mirrors d.records mark) :
    Mirrors (act.apply d).records (lastStart mark d act) := by
  cases act with
  | parse pMsg => exact mirrors.same (received_keeps mirrored d pMsg fun _ _ _ _ _ => rfl)
  | exchange op header ex => exact CloudOp.run_mirrors op d header ex mirrors
  | granted => exact (Mirrors.adopted (d.records.setAccState .opened)).same rfl
  | persist => exact configWriteImAcc_mirrors mirrors.bandwidth
  | recheck => exact readRespIsacc_mirrors mirrors
  | udp => exact mirrors.same (congrArg mirrored (sendUdp_records d))
  | _ => exact mirrors.same rfl

theorem chronicle_mirrors (told : Chronicle lastStart start none w mark) : Mirrors w.daemon.records mark :=
  told.keeps (I := fun d mark => Mirrors d.records mark) nofun fun d mark act mirrors _ => act_mirrors d mark act mirrors

theorem stateInfo_told (settled : w.daemon.accState.transient = false)
    (unchanged : (imCheckIsnetChange w.daemon.records).2 ≠ msgCodeSucess) (asked : HeaderComplete pMsg)
    (cmd : headerCmd pMsg = TermMsgCmd.accStateInfo.code) (thread : Option MsgHeader) (header : MsgHeader) :
    ∃ next msg, step w (.message (some pMsg) thread header []) = some next ∧
      next.daemon.out = w.daemon.out ++ [.reply msg] ∧ msg.objectGet (jasonKey .data) =
        some (imJsonMakeTermresSpeedupinfo (readRespIsacc w.daemon.records) .empty).json := by
  obtain ⟨found,parsed,command⟩ := received_bare asked cmd rfl w.daemon
  have switched : terminalSwitch thread.isSome header (received w.daemon (some pMsg)).1 [] =
      some ⟨{w.daemon with records := readRespIsacc {w.daemon.records with cmdHeader := found}},msgCodeSucess,
        imJsonMakeTermresSpeedupinfo (readRespIsacc w.daemon.records) .empty,false,[]⟩ := by
    unfold terminalSwitch
    rw [parsed,command]
    dsimp only
    unfold accStateInfo
    refine (if_neg ?_).trans (if_pos unchanged)
    exact Bool.eq_false_iff.mp settled
  obtain ⟨msg,made,data⟩ := respone_data asked msgCodeSucess (List.replicate _ (.object _))
  refine ⟨_,msg,message_step (congrArg Prod.snd parsed) switched rfl,?_,data⟩
  dsimp only [Daemon.reply,TermData.json]
  rw [made]
  rfl

-- The data of the reply: an open session shows all five values as they are held.
theorem speedupinfo_field (opened : r.speedupinfoResp.imAccState = .opened) : ∃ devObj,
    (imJsonMakeTermresSpeedupinfo r .empty).json = .array [devObj] ∧
      ∀ field : StateField, devObj.objectGet (jasonKey field.key) = some (.int (field.held r.speedupinfoResp)) := by
  have made : imJsonMakeTermresSpeedupinfo r .empty = ⟨[(jasonKey .accState,.int 2),
      (jasonKey .isAcc,.int r.speedupinfoResp.imIsAcc),(jasonKey .isp,.int r.speedupinfoResp.imIsp),
      (jasonKey .curBandwidth,.int r.speedupinfoResp.imCurBandwidth),
      (jasonKey .maxBandwidth,.int r.speedupinfoResp.imMaxBandwidth),
      (jasonKey .accBandwidth,.int r.speedupinfoResp.imAccBandwidth),
      (jasonKey .accRemaintime,.int r.speedupinfoResp.imAccRemaintime)],1⟩ := by
    unfold imJsonMakeTermresSpeedupinfo
    dsimp only
    rw [if_pos opened,opened]
    rfl
  refine ⟨_,by rw [made]; rfl,?_⟩
  intro field
  cases field <;> rfl

theorem readRespIsacc_held (r : Records) (field : StateField) :
    field.held (readRespIsacc r).speedupinfoResp = (field.option r.uci).getD (field.held r.speedupinfoResp) := by
  cases field <;> rfl

theorem upToDate_exact (mirrors : Mirrors r (some reply)) : UpToDate r.uci reply ↔
    ∀ field : StateField, field.held (readRespIsacc r).speedupinfoResp = field.reported reply := by
  refine forall_congr' fun field => ?_
  rw [readRespIsacc_held]
  cases found : field.option r.uci with
  | none => exact iff_of_true (.inl rfl) (mirrors reply rfl field found)
  | some value => simp

theorem stateTold_held (opened : w.daemon.accState = .opened)
    (unchanged : (imCheckIsnetChange w.daemon.records).2 ≠ msgCodeSucess) (asked : HeaderComplete pMsg)
    (cmd : headerCmd pMsg = TermMsgCmd.accStateInfo.code) (thread : Option MsgHeader) (header : MsgHeader)
    (reply : StartaccResp) : StateTold w pMsg thread header reply ↔
      ∀ field : StateField, field.held (readRespIsacc w.daemon.records).speedupinfoResp = field.reported reply := by
  obtain ⟨next,msg,taken,out,data⟩ := stateInfo_told (by rw [opened]; rfl) unchanged asked cmd thread header
  have still : (readRespIsacc w.daemon.records).speedupinfoResp.imAccState = .opened := opened
  obtain ⟨devObj,made,shown⟩ := speedupinfo_field still
  rw [made] at data
  constructor
  · rintro ⟨next',msg',devObj',taken',out',data',fields⟩ field
    rw [taken] at taken'
    cases taken'
    have same : msg = msg' := by simpa using out.symm.trans out'
    rw [← same,data] at data'
    cases data'
    have value := (shown field).symm.trans (fields field)
    simpa using value
  · intro current
    refine ⟨next,msg,devObj,taken,out,data,?_⟩
    intro field
    rw [shown field,current field]

structure GrantedOn (d : Daemon) (devObj : Json) (after : Daemon) : Prop where
  startacc : after.records.startaccResp = startaccOf devObj d.records.startaccResp
  uci : after.records.uci = d.records.uci
  login : after.records.loginResp = d.records.loginResp

theorem startAccRetry_granted (idle : d.accState = .closed) {ex : Exchange}
    (reply : Reply ex.body .startAcc msgCodeSucess devObj) (created : Bool) (header : MsgHeader) :
    ∃ after, after = (CloudOp.run .startaac (d.setAccState .opening) header ex).daemon ∧
      startAccRetry created header d [ex] =
        some ⟨startAccOpened after,msgCodeSucess,imJsonMakeTermresStartacc after.records .empty,false,[]⟩ ∧
      after.accState = .opening ∧ GrantedOn d devObj after := by
  obtain ⟨sent,body,stack⟩ := ex
  obtain ⟨jsonMsg,_,rfl,_⟩ := reply.message
  have parsed := imJsonParseCloud_success reply (d.setAccState .opening).records header
  have data : imJsonParseDataCloud (d.setAccState .opening).records jsonMsg CloudMsgCmd.startAcc.code =
    imJsonParseDataStartaccResp (d.setAccState .opening).records jsonMsg := rfl
  rw [data,imJsonParseDataStartaccResp_of reply] at parsed
  have code := reply.result
  have records := congrArg CloudParse.records parsed
  refine ⟨_,rfl,?_,congrArg (·.speedupinfoResp.imAccState) records,congrArg (·.startaccResp) records,
    congrArg (·.uci) records,congrArg (·.loginResp) records⟩
  simp only [startAccRetry,idle,imCloudStartaac,imCloudExchange,parsed,code,CloudOp.run]
  rfl

theorem granted_chronicle (told : Chronicle lastStart start begun w mark) (idle : w.daemon.accState = .closed)
    (asked : HeaderComplete pMsg) (valid : (received w.daemon (some pMsg)).2 = msgCodeSucess)
    (command : TermMsgCmd.ofCode (received w.daemon (some pMsg)).1.records.cmdHeader.imCmd = some .startAcc)
    {ex : Exchange} (reply : Reply ex.body .startAcc msgCodeSucess devObj) : ∃ next,
      Chronicle lastStart start begun next (some (startaccOf devObj w.daemon.records.startaccResp)) ∧
      next.daemon.accState = .opened ∧ GrantedOn w.daemon devObj next.daemon := by
  have closed : (received w.daemon (some pMsg)).1.accState = .closed := (received_quiet w.daemon (some pMsg)).accState.trans idle
  obtain ⟨after,asking,ran,waiting,granted⟩ := startAccRetry_granted closed reply false default
  have kept : GrantedOn w.daemon devObj after := by
    obtain ⟨startacc,uci,login⟩ := granted
    have before := received_keeps Records.startaccResp w.daemon (some pMsg) fun _ _ _ _ _ => rfl
    rw [before] at startacc
    exact ⟨startacc,uci.trans (received_keeps Records.uci w.daemon (some pMsg) fun _ _ _ _ _ => rfl),
      login.trans (received_keeps Records.loginResp w.daemon (some pMsg) fun _ _ _ _ _ => rfl)⟩
  have switched : terminalSwitch false default (received w.daemon (some pMsg)).1 [ex] =
      startAccRetry false default (received w.daemon (some pMsg)).1 [ex] := by
    unfold terminalSwitch
    rw [command]
  obtain ⟨msg,sent,_⟩ := respone_data asked msgCodeSucess
    (List.replicate (imJsonMakeTermresStartacc after.records .empty).refs (.object (imJsonMakeTermresStartacc after.records .empty).members))
  have answered : (startAccOpened after).reply (some pMsg) msgCodeSucess
      (some (imJsonMakeTermresStartacc after.records .empty).json) = (startAccOpened after).send (.reply msg) := by
    unfold Daemon.reply TermData.json
    rw [sent]
  have taken : step w (.message (some pMsg) none default [ex]) = _ := message_step valid (switched.trans ran) rfl
  rw [answered] at taken
  let acts := [Act.parse (some pMsg),.state .opening,.exchange .startaac default ex,.granted,.reply msg]
  have plays : Plays acting w.daemon acts ((startAccOpened after).send (.reply msg)) := by
    rw [asking] at waiting ⊢
    exact ⟨trivial,trivial,trivial,waiting,trivial,rfl⟩
  have marked : watched acting lastStart mark w.daemon acts = some after.records.startaccResp := by
    rw [asking]
    rfl
  have told := told.step taken plays rfl
  rw [marked,kept.startacc] at told
  exact ⟨_,told,rfl,kept.startacc,kept.uci,kept.login⟩

theorem imCheckIsnetChange_same (same : r.uci.imIp = some r.loginResp.imIp) : (imCheckIsnetChange r).2 ≠ msgCodeSucess := by
  have read : (configReadImAcc r).uciSaveIp = (configReadImAcc r).loginResp.imIp := by
    change r.uci.imIp.getD _ = r.loginResp.imIp
    rw [same]
    rfl
  unfold imCheckIsnetChange
  dsimp only
  rw [if_pos read]
  decide

-- An open session is told what START reported exactly where no option holds anything else.
theorem stateTold_exact (told : Chronicle lastStart (World.boot bits uci lanIp login) none w (some reply))
    (opened : w.daemon.accState = .opened) (unchanged : (imCheckIsnetChange w.daemon.records).2 ≠ msgCodeSucess)
    (asked : HeaderComplete pMsg) (cmd : headerCmd pMsg = TermMsgCmd.accStateInfo.code) (thread : Option MsgHeader)
    (header : MsgHeader) : StateTold w pMsg thread header reply ↔ UpToDate w.daemon.records.uci reply := by
  rw [upToDate_exact (chronicle_mirrors told)]
  exact stateTold_held opened unchanged asked cmd thread header reply

def idleWith (uci : UciIsacc) : World := World.boot 32 uci (bytes "192.168.1.1") loginReply

def grant : Exchange := delivered .startAcc msgCodeSucess [[(jasonKey .isp,.int 1),(jasonKey .curBandwidth,.int 10),
  (jasonKey .maxBandwidth,.int 20),(jasonKey .accRemaintime,.int 30),(jasonKey .accBandwidth,.int 15)]]

theorem idleWith_granted (unmoved : (idleWith uci).daemon.records.uci.imIp = some (idleWith uci).daemon.records.loginResp.imIp) :
    ∃ next, Chronicle lastStart (idleWith uci) none next (some ⟨1,10,20,30,15⟩) ∧
      next.daemon.accState = .opened ∧ (imCheckIsnetChange next.daemon.records).2 ≠ msgCodeSucess ∧
      next.daemon.records.uci = (idleWith uci).daemon.records.uci := by
  have reply : Reply grant.body .startAcc msgCodeSucess _ := ⟨⟨_,_,rfl,delivered_complete _ _ _,rfl,rfl⟩,rfl,rfl⟩
  have asked : HeaderComplete (termMsg .startAcc) := delivered_complete _ _ _
  obtain ⟨found,parsed,command⟩ := received_parsed asked (rfl : headerCmd _ = TermMsgCmd.startAcc.code) (idleWith uci).daemon
  have valid : (received (idleWith uci).daemon (some (termMsg .startAcc))).2 = msgCodeSucess := by
    rw [parsed]
    rfl
  obtain ⟨next,told,opened,granted⟩ := granted_chronicle (.nil : Chronicle lastStart (idleWith uci) none _ _) rfl asked
    valid (by rw [parsed]; exact command) reply
  refine ⟨next,told,opened,?_,granted.uci⟩
  apply imCheckIsnetChange_same
  rw [granted.uci,granted.login]
  exact unmoved

theorem stateTold_granted : ∃ w reply, Chronicle lastStart (idleWith default) none w (some reply) ∧
    StateTold w (termMsg .accStateInfo) none default reply := by
  obtain ⟨w,told,opened,unchanged,uci⟩ := idleWith_granted (by decide : (idleWith default).daemon.records.uci.imIp = _)
  have unset : (idleWith default).daemon.records.uci = {(default : UciIsacc) with imIp := some (bytes "10.0.0.1")} := by
    decide
  have current : UpToDate w.daemon.records.uci ⟨1,10,20,30,15⟩ := by
    rw [uci,unset]
    intro field
    cases field <;> exact .inl rfl
  exact ⟨w,_,told,(stateTold_exact told opened unchanged (delivered_complete _ _ _) rfl none default).mpr current⟩

-- An option left from an earlier session is told instead of what START reported.
theorem stateTold_stale : ¬ ∀ uci w reply, Chronicle lastStart (idleWith uci) none w (some reply) →
    w.daemon.accState = .opened → (imCheckIsnetChange w.daemon.records).2 ≠ msgCodeSucess →
      StateTold w (termMsg .accStateInfo) none default reply := by
  intro always
  let left : UciIsacc := {(default : UciIsacc) with imIsp := some 9}
  have unmoved : (idleWith left).daemon.records.uci.imIp = some (idleWith left).daemon.records.loginResp.imIp := by decide
  have stale : (idleWith left).daemon.records.uci.imIsp = some 9 := by decide
  obtain ⟨w,told,opened,unchanged,uci⟩ := idleWith_granted unmoved
  have isp := (stateTold_held opened unchanged (delivered_complete _ _ _) rfl none default _).mp
    (always _ w _ told opened unchanged) .isp
  have old : StateField.isp.option w.daemon.records.uci = some 9 := (congrArg UciIsacc.imIsp uci).trans stale
  rw [readRespIsacc_held,old] at isp
  have shown : (9 : Int) = 1 := isp
  exact absurd shown (by decide)

end ImAcc
