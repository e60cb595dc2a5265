import ImAcc.AlarmQueue

-- The same answer delivered at once and by way of a task id and a poller.
namespace ImAcc
open JsonC

structure Reply (body : Option Json) (cmd : CloudMsgCmd) (code : Int) (devObj : Json) : Prop where
  message : ∃ jsonMsg imData, body = some jsonMsg ∧ HeaderComplete jsonMsg ∧
    jsonMsg.objectGet (jasonKey .data) = some imData ∧ imData.arrayGetIdx 0 = some devObj
  command : (replyHeader body).imCmd = cmd.code
  result : (replyHeader body).imCode = code

theorem Reply.withDevObj (reply : Reply (some jsonMsg) cmd code devObj) (r : Records) (body : Json → Records × Int) :
    withDevObj r jsonMsg body = body devObj := by
  obtain ⟨_,imData,⟨⟩,_,data,first⟩ := reply.message
  simp only [ImAcc.withDevObj,data,first]

theorem Reply.parsed (reply : Reply (some jsonMsg) cmd code devObj) (h : MsgHeader) :
    (imJsonParseHeader jsonMsg h).2 = 0 ∧ (imJsonParseHeader jsonMsg h).1 = replyHeader (some jsonMsg) := by
  obtain ⟨_,_,⟨⟩,complete,_⟩ := reply.message
  refine ⟨(imJsonParseHeader_sucess _ _).mpr complete,?_⟩
  rw [replyHeader,imJsonParseCloud_parsed]
  exact imJsonParseHeader_fields complete _ _

theorem imJsonParseCloud_success (reply : Reply (some jsonMsg) cmd msgCodeSucess devObj) (r : Records) (h : MsgHeader) :
    imJsonParseCloud r (some jsonMsg) h = ⟨(imJsonParseDataCloud r jsonMsg cmd.code).1,replyHeader (some jsonMsg),
      (imJsonParseDataCloud r jsonMsg cmd.code).2⟩ := by
  obtain ⟨valid,header⟩ := reply.parsed h
  simp only [imJsonParseCloud,valid,header,reply.result,reply.command]
  rfl

def given (devObj : Json) (key : JsonImCmd) (old : Int) : Int := ((supplied (some devObj) key).map Json.getInt).getD old

def startaccOf (devObj : Json) (old : StartaccResp) : StartaccResp :=
  ⟨given devObj .isp old.imIsp,given devObj .curBandwidth old.imCurBandwidth,
   given devObj .maxBandwidth old.imMaxBandwidth,given devObj .accRemaintime old.imRemaintime,
   given devObj .accBandwidth old.imAccBandwidth⟩

def isaccOf (devObj : Json) (old : IsaccResp) : IsaccResp :=
  ⟨given devObj .isAcc old.imIsAcc,given devObj .isp old.imIsp,given devObj .curBandwidth old.imCurBandwidth,
   given devObj .maxBandwidth old.imMaxBandwidth,given devObj .accRemaintime old.imAccRemaintime⟩

theorem imJsonParseDataStartaccResp_of (reply : Reply (some jsonMsg) cmd code devObj) (r : Records) :
    imJsonParseDataStartaccResp r jsonMsg = ({r with startaccResp := startaccOf devObj r.startaccResp},msgCodeSucess) := by
  rw [imJsonParseDataStartaccResp,reply.withDevObj]
  simp only [imJsonGetInt,imJsonGet_value]
  rfl

theorem imJsonParseDataIsaccResp_of (reply : Reply (some jsonMsg) cmd code devObj)
    (required : (supplied (some devObj) .isAcc).isSome = true) (r : Records) :
    imJsonParseDataIsaccResp r jsonMsg = ({r with isaccResp := isaccOf devObj r.isaccResp},msgCodeSucess) := by
  have success : getCode (some devObj) .isAcc = 0 := getCode_sucess.mpr required
  rw [imJsonParseDataIsaccResp,reply.withDevObj]
  simp only [imJsonGetInt,imJsonGet_value,imJsonGet_code,success]
  rfl

def Daemon.at (d : Daemon) (now : Timeval) : Daemon := {d with timers := {d.timers with clock := now}}

inductive Delayable where
  | startAcc
  | accStateInfo
  deriving DecidableEq

def Delayable.cmd : Delayable → CloudMsgCmd
  | .startAcc => .startAcc
  | .accStateInfo => .isAcc

def Delayable.handle : Delayable → MsgHeader → Daemon → List Exchange → Option Handled
  | .startAcc => startAccRetry true
  | .accStateInfo => ImAcc.accStateInfo true

def Delayable.immediate (q : Delayable) (header : MsgHeader) (d : Daemon) (now : Exchange) : Option Daemon :=
  (q.handle header d [now]).map (·.daemon)

def Delayable.polled (q : Delayable) (header : MsgHeader) (d : Daemon) (delay task : Exchange) (p : Poller)
    (first second : Timeval) : Option Daemon :=
  (q.handle header d [delay]).bind fun h => (imRollqueryThread (h.daemon.at first) p [task]).map fun t =>
    if t.poller.any (·.registering) then rollOpened (t.daemon.at second) else t.daemon

theorem imJsonParseCloud_delay (reply : Reply (some jsonMsg) cmd msgCodeMsgdelay delayObj)
    (task : (supplied (some delayObj) .taskid).isSome = true) (r : Records) (h : MsgHeader)
    (request : cmd = .startAcc ∨ cmd = .isAcc) (waiting : r.speedupinfoResp.imAccState.transient = true) :
    ∃ taskid, imJsonParseCloud r (some jsonMsg) h =
      ⟨{r with taskresultCmd := {r.taskresultCmd with imTaskid := taskid}},replyHeader (some jsonMsg),msgCodeSucess⟩ := by
  obtain ⟨valid,header⟩ := reply.parsed h
  have success : getCode (some delayObj) .taskid = 0 := getCode_sucess.mpr task
  have known : CloudMsgCmd.ofCode cmd.code = some cmd := CloudMsgCmd.ofCode_code cmd
  have data : imJsonParseDataTaskresultResp r jsonMsg cmd.code msgCodeMsgdelay = imJsonParseDataTaskid r jsonMsg := by
    unfold imJsonParseDataTaskresultResp
    rw [if_neg (by simp [waiting]),known]
    rcases request with rfl | rfl <;> rfl
  refine ⟨(imJsonGetString (some delayObj) .taskid r.taskresultCmd.imTaskid).2,?_⟩
  simp only [imJsonParseCloud,valid,header,reply.result,reply.command,data,imJsonParseDataTaskid,reply.withDevObj,
    imJsonGetString,imJsonGet_code,success]
  rfl

def sessionNames (regnum : Nat) : List (SnmpAlarmCallback × Nat × Nat × Timeval) :=
  [(.imUdpbrocastTimerProc,regnum,saRepeat,interval 0),
   (.imStartHeartbeatCloud,(regnum+1) % 2^32,saRepeat,interval timer5min),
   (.imStartFlowCount,((regnum+1) % 2^32 + 1) % 2^32,saRepeat,interval timer5min)]

theorem sessionNames_of (s : Timers) (first second : Timers → Timers)
    (kept : ∀ t, (first t).thealarms = t.thealarms ∧ (first t).regnum = t.regnum)
    (kept' : ∀ t, (second t).thealarms = t.thealarms ∧ (second t).regnum = t.regnum) :
    names (snmpAlarmRegister (second (snmpAlarmRegister (first (snmpAlarmRegister s 0 saRepeat .imUdpbrocastTimerProc).1)
      timer5min saRepeat .imStartHeartbeatCloud).1) timer5min saRepeat .imStartFlowCount).1.thealarms =
      names s.thealarms ++ sessionNames s.regnum := by
  simp only [snmpAlarmRegister_names,(kept _).1,(kept _).2,(kept' _).1,(kept' _).2,(snmpAlarmRegister_queue _ _ _ _).2,
    sessionNames,List.append_assoc]
  rfl

theorem rollOpened_names (d : Daemon) (second : Timeval) :
    names (rollOpened ((rollOpening d).at second)).timers.thealarms =
      names d.timers.thealarms ++ sessionNames d.timers.regnum :=
  sessionNames_of {d.timers with udpFuncArg := udpInfo .accSuccess (successText d.records)}
    (fun t => {t with handleT0 := d.timers.regnum}) (fun t => {t with clock := second})
    (fun _ => ⟨rfl,rfl⟩) (fun _ => ⟨rfl,rfl⟩)

theorem startAccOpened_names (d : Daemon) :
    names (startAccOpened d).timers.thealarms = names d.timers.thealarms ++ sessionNames d.timers.regnum :=
  sessionNames_of {d.timers with udpFuncArg := udpInfo .accSuccess (successText (startedInfo d.records))}
    (fun t => {t with handleT0 := d.timers.regnum}) (fun t => t) (fun _ => ⟨rfl,rfl⟩) (fun _ => ⟨rfl,rfl⟩)

structure SameDelivery (a b : Daemon) : Prop where
  speedupinfo : a.records.speedupinfoResp = b.records.speedupinfoResp
  peakflow : a.records.peakflowResp = b.records.peakflowResp
  alarms : names a.timers.thealarms = names b.timers.thealarms
  persisted : a.records.uci = b.records.uci

structure Granted (d : Daemon) (devObj : Json) (after : Daemon) : Prop where
  speedupinfo : after.records.speedupinfoResp = (speedupinfoOfStart {(d.setAccState .opened).records with
    startaccResp := startaccOf devObj d.records.startaccResp}).speedupinfoResp
  peakflow : after.records.peakflowResp = (imCountFlowPeakflow d.records
    (startaccOf devObj d.records.startaccResp).imCurBandwidth).peakflowResp
  alarms : names after.timers.thealarms = names d.timers.thealarms ++ sessionNames d.timers.regnum

theorem Granted.same (here : Granted d devObj a) (there : Granted d devObj b) (persisted : a.records.uci = b.records.uci) :
    SameDelivery a b :=
  ⟨here.speedupinfo.trans there.speedupinfo.symm,here.peakflow.trans there.peakflow.symm,
   here.alarms.trans there.alarms.symm,persisted⟩

theorem startAcc_immediate (idle : d.accState = .closed) (reply : Reply now.body .startAcc msgCodeSucess devObj)
    (header : MsgHeader) :
    ∃ a, Delayable.immediate .startAcc header d now = some a ∧ Granted d devObj a ∧ a.records.uci = d.records.uci := by
  obtain ⟨sent,body,stack⟩ := now
  obtain ⟨jsonMsg,_,rfl,_⟩ := reply.message
  have parsed := imJsonParseCloud_success reply (d.setAccState .opening).records header
  have data : imJsonParseDataCloud (d.setAccState .opening).records jsonMsg CloudMsgCmd.startAcc.code =
    imJsonParseDataStartaccResp (d.setAccState .opening).records jsonMsg := rfl
  rw [data,imJsonParseDataStartaccResp_of reply] at parsed
  have code := reply.result
  refine ⟨startAccOpened {(d.setAccState .opening).send (.cloud (imJsonMakeCmdStartacc d.records.acc)) with
    records := {(d.setAccState .opening).records with startaccResp := startaccOf devObj d.records.startaccResp}},?_,
    ⟨rfl,rfl,startAccOpened_names _⟩,rfl⟩
  simp only [Delayable.immediate,Delayable.handle,startAccRetry,idle,imCloudStartaac,imCloudExchange,parsed,code]
  rfl

theorem startAcc_delayed (header : MsgHeader) (idle : d.accState = .closed)
    (delayed : Reply delay.body .startAcc msgCodeMsgdelay delayObj)
    (task : (supplied (some delayObj) .taskid).isSome = true) :
    ∃ h taskid, startAccRetry true header d [delay] = some h ∧
      h.daemon = {(d.setAccState .opening).send (.cloud (imJsonMakeCmdStartacc d.records.acc)) with
        records := {(d.setAccState .opening).records with
          taskresultCmd := {d.records.taskresultCmd with imTaskid := taskid}}} := by
  obtain ⟨sent,body,stack⟩ := delay
  obtain ⟨jsonMsg,_,rfl,_⟩ := delayed.message
  obtain ⟨taskid,put⟩ := imJsonParseCloud_delay delayed task (d.setAccState .opening).records header (.inl rfl) rfl
  have code := delayed.result
  have handled : (startAccRetry true header d [⟨sent,some jsonMsg,stack⟩]).map (·.daemon) =
      some {(d.setAccState .opening).send (.cloud (imJsonMakeCmdStartacc d.records.acc)) with
        records := {(d.setAccState .opening).records with
          taskresultCmd := {d.records.taskresultCmd with imTaskid := taskid}}} := by
    simp only [startAccRetry,idle,imCloudStartaac,imCloudExchange,put,code]
    rfl
  obtain ⟨h,ran,after⟩ := Option.map_eq_some_iff.mp handled
  exact ⟨h,taskid,ran,after⟩

def resultText (d : Daemon) : Bytes := imJsonMakeCmdGettaskresult d.records.acc d.records.taskresultCmd

theorem taskresult_data (waiting : r.speedupinfoResp.imAccState.transient = true) :
    imJsonParseDataCloud r jsonMsg CloudMsgCmd.getTaskresult.code = taskresultData r jsonMsg := by
  simp only [imJsonParseDataCloud,imJsonParseDataTaskresultResp,CloudMsgCmd.ofCode_code,waiting]
  rfl

theorem taskresult_opening (opening : r.speedupinfoResp.imAccState = .opening)
    (reply : Reply (some jsonMsg) .getTaskresult msgCodeSucess devObj) (h : MsgHeader) :
    imJsonParseCloud r (some jsonMsg) h = ⟨configWriteImAcc (speedupinfoOfStart
      {r with startaccResp := startaccOf devObj r.startaccResp}),replyHeader (some jsonMsg),msgCodeSucess⟩ := by
  rw [imJsonParseCloud_success reply,taskresult_data (by rw [opening]; rfl),taskresultData,opening]
  dsimp only
  rw [imJsonParseDataStartaccResp_of reply]
  rfl

theorem taskresult_querying (querying : r.speedupinfoResp.imAccState = .querying)
    (reply : Reply (some jsonMsg) .getTaskresult msgCodeSucess devObj)
    (required : (supplied (some devObj) .isAcc).isSome = true) (h : MsgHeader) :
    imJsonParseCloud r (some jsonMsg) h = ⟨configWriteImAcc (speedupinfoOfIsacc
      {r with isaccResp := isaccOf devObj r.isaccResp}),replyHeader (some jsonMsg),msgCodeSucess⟩ := by
  rw [imJsonParseCloud_success reply,taskresult_data (by rw [querying]; rfl),taskresultData,querying]
  dsimp only
  rw [imJsonParseDataIsaccResp_of reply required]
  rfl

section
variable (d : Daemon) (p : Poller) (ex : Exchange) {r : Records} {header : MsgHeader}

theorem imCloudGettaskresult_parsed (parsed : imJsonParseCloud d.records ex.body p.header = ⟨r,header,msgCodeSucess⟩) :
    imCloudGettaskresult d p.header ex = ⟨{d.send (.cloud (resultText d)) with records := r},header,msgCodeSucess⟩ := by
  rw [imCloudGettaskresult,imCloudExchange,parsed]
  rfl

theorem imRollqueryThread_opening
    (parsed : imJsonParseCloud d.records ex.body p.header = ⟨r,header,msgCodeSucess⟩)
    (code : header.imCode = msgCodeSucess) (opening : r.speedupinfoResp.imAccState = .opening) :
    imRollqueryThread d p [ex] = some ⟨rollOpening {d.send (.cloud (resultText d)) with records := r},
      some {p with header := header,registering := true},[]⟩ := by
  have state : Daemon.accState {d.send (.cloud (resultText d)) with records := r} = .opening := opening
  simp only [imRollqueryThread,imCloudGettaskresult_parsed d p ex parsed,code,and_self,if_true,state]

theorem imRollqueryThread_querying
    (parsed : imJsonParseCloud d.records ex.body p.header = ⟨r,header,msgCodeSucess⟩)
    (code : header.imCode = msgCodeSucess) (querying : r.speedupinfoResp.imAccState = .querying) :
    imRollqueryThread d p [ex] = some ⟨{d.send (.cloud (resultText d)) with
      records := configWriteImAcc r}.setAccState .closed,none,[]⟩ := by
  have state : Daemon.accState {d.send (.cloud (resultText d)) with records := r} = .querying := querying
  simp only [imRollqueryThread,imCloudGettaskresult_parsed d p ex parsed,code,and_self,if_true,state]

end

theorem Delayable.polled_registering (ran : Delayable.handle q header d [delay] = some h)
    (found : imRollqueryThread (h.daemon.at first) p [task] = some ⟨rolled,some p',rest⟩) (busy : p'.registering = true) :
    q.polled header d delay task p first second = some (rollOpened (rolled.at second)) := by
  simp [Delayable.polled,ran,found,busy]

theorem Delayable.polled_ended (ran : Delayable.handle q header d [delay] = some h)
    (found : imRollqueryThread (h.daemon.at first) p [task] = some ⟨rolled,none,rest⟩) :
    q.polled header d delay task p first second = some rolled := by
  simp [Delayable.polled,ran,found]

theorem startAcc_polled (idle : d.accState = .closed) (delayed : Reply delay.body .startAcc msgCodeMsgdelay delayObj)
    (task : (supplied (some delayObj) .taskid).isSome = true)
    (reply : Reply polled.body .getTaskresult msgCodeSucess devObj) (header : MsgHeader) (p : Poller)
    (first second : Timeval) :
    ∃ b, Delayable.polled .startAcc header d delay polled p first second = some b ∧ Granted d devObj b ∧
      b.records.uci = (configWriteImAcc (speedupinfoOfStart {(d.setAccState .opening).records with
        startaccResp := startaccOf devObj d.records.startaccResp})).uci := by
  obtain ⟨h,taskid,ran,after⟩ := startAcc_delayed header idle delayed task
  obtain ⟨sent,body,stack⟩ := polled
  obtain ⟨jsonMsg,_,rfl,_⟩ := reply.message
  have opening : (h.daemon.at first).records.speedupinfoResp.imAccState = .opening := by rw [after]; rfl
  have parsed := taskresult_opening opening reply p.header
  have found := imRollqueryThread_opening (h.daemon.at first) p ⟨sent,some jsonMsg,stack⟩ parsed reply.result opening
  refine ⟨_,Delayable.polled_registering ran found rfl,⟨?_,?_,?_⟩,?_⟩
  · rw [after]; rfl
  · rw [after]; rfl
  · rw [rollOpened_names,after]; rfl
  · rw [after]; rfl

-- Delivered at once, the answer leaves QUERYING; by way of the poller, CLOSED.
theorem accStateInfo_immediate (idle : d.accState = .closed)
    (changed : (imCheckIsnetChange d.records).2 = msgCodeSucess) (reply : Reply now.body .isAcc msgCodeSucess devObj)
    (required : (supplied (some devObj) .isAcc).isSome = true) (header : MsgHeader) :
    ∃ a, Delayable.immediate .accStateInfo header d now = some a ∧ a.accState = .querying := by
  obtain ⟨sent,body,stack⟩ := now
  obtain ⟨jsonMsg,_,rfl,_⟩ := reply.message
  have parsed := imJsonParseCloud_success reply (d.checked.setAccState .querying).records header
  have data : imJsonParseDataCloud (d.checked.setAccState .querying).records jsonMsg CloudMsgCmd.isAcc.code =
    imJsonParseDataIsaccResp (d.checked.setAccState .querying).records jsonMsg := rfl
  rw [data,imJsonParseDataIsaccResp_of reply required] at parsed
  have code := reply.result
  have handled : (isAccRetry true header d.checked [⟨sent,some jsonMsg,stack⟩]).map (·.daemon.accState) =
      some .querying := by
    simp only [isAccRetry,imCloudIsaac,imCloudExchange,parsed,code]
    rfl
  obtain ⟨h,ran,state⟩ := Option.map_eq_some_iff.mp handled
  refine ⟨h.daemon,?_,state⟩
  simp only [Delayable.immediate,Delayable.handle,accStateInfo_asks idle changed,ran,Option.map_some]

theorem accStateInfo_polled (idle : d.accState = .closed)
    (changed : (imCheckIsnetChange d.records).2 = msgCodeSucess)
    (delayed : Reply delay.body .isAcc msgCodeMsgdelay delayObj)
    (task : (supplied (some delayObj) .taskid).isSome = true)
    (reply : Reply polled.body .getTaskresult msgCodeSucess devObj)
    (required : (supplied (some devObj) .isAcc).isSome = true) (header : MsgHeader) (p : Poller)
    (first second : Timeval) :
    ∃ b, Delayable.polled .accStateInfo header d delay polled p first second = some b ∧ b.accState = .closed := by
  obtain ⟨sent,body,stack⟩ := delay
  obtain ⟨sent',body',stack'⟩ := polled
  obtain ⟨delayMsg,_,rfl,_⟩ := delayed.message
  obtain ⟨jsonMsg,_,rfl,_⟩ := reply.message
  obtain ⟨taskid,put⟩ :=
    imJsonParseCloud_delay delayed task (d.checked.setAccState .querying).records header (.inr rfl) rfl
  have code := delayed.result
  have handled : (isAccRetry true header d.checked [⟨sent,some delayMsg,stack⟩]).map (·.daemon.accState) =
      some .querying := by
    simp only [isAccRetry,imCloudIsaac,imCloudExchange,put,code]
    rfl
  obtain ⟨h,ran,querying⟩ := Option.map_eq_some_iff.mp handled
  have parsed := taskresult_querying (r := (h.daemon.at first).records) querying reply required p.header
  have found := imRollqueryThread_querying (h.daemon.at first) p ⟨sent',some jsonMsg,stack'⟩ parsed reply.result querying
  rw [← accStateInfo_asks idle changed] at ran
  exact ⟨_,Delayable.polled_ended ran found,rfl⟩

-- The state it was polled in, and the object's members over what the records held.
structure Persisted (d : Daemon) (devObj : Json) : Prop where
  accState : d.records.uci.imAccState = some AccOpenState.opening.code
  isAcc : d.records.uci.imIsAcc = some d.records.speedupinfoResp.imIsAcc
  isp : d.records.uci.imIsp = some (given devObj .isp d.records.startaccResp.imIsp)
  curBandwidth : d.records.uci.imCurBandwidth = some (given devObj .curBandwidth d.records.startaccResp.imCurBandwidth)
  maxBandwidth : d.records.uci.imMaxBandwidth = some (given devObj .maxBandwidth d.records.startaccResp.imMaxBandwidth)
  accRemaintime : d.records.uci.imAccRemaintime =
    some (given devObj .accRemaintime d.records.startaccResp.imRemaintime)

theorem persisted_exact (d : Daemon) (devObj : Json) : d.records.uci = (configWriteImAcc (speedupinfoOfStart
      {(d.setAccState .opening).records with startaccResp := startaccOf devObj d.records.startaccResp})).uci ↔
    Persisted d devObj := by
  constructor
  · intro same
    have field {α : Type} (read : UciIsacc → α) := congrArg read same
    exact ⟨field _,field _,field _,field _,field _,field _⟩
  · intro persisted
    have parts : d.records.uci = ⟨d.records.uci.imAccState,d.records.uci.imIsAcc,d.records.uci.imIsp,
      d.records.uci.imCurBandwidth,d.records.uci.imMaxBandwidth,d.records.uci.imAccBandwidth,
      d.records.uci.imAccRemaintime,d.records.uci.imIp⟩ := rfl
    rw [persisted.accState,persisted.isAcc,persisted.isp,persisted.curBandwidth,persisted.maxBandwidth,
      persisted.accRemaintime] at parts
    exact parts

structure BothWays (q : Delayable) (d : Daemon) (now delay task : Exchange) (devObj : Json) : Prop where
  idle : d.accState = .closed
  changed : q = .accStateInfo → (imCheckIsnetChange d.records).2 = msgCodeSucess
  now : Reply now.body q.cmd msgCodeSucess devObj
  delayed : ∃ delayObj, Reply delay.body q.cmd msgCodeMsgdelay delayObj ∧
    (supplied (some delayObj) .taskid).isSome = true
  task : Reply task.body .getTaskresult msgCodeSucess devObj
  required : q = .accStateInfo → (supplied (some devObj) .isAcc).isSome = true

-- A start comes to the same both ways exactly where what the poller persists is there
-- already, since only the poller persists; an is-acc query never does.
theorem sameDelivery_exact (both : BothWays q d now delay task devObj) (header : MsgHeader) (p : Poller)
    (first second : Timeval) :
    ∃ a b, q.immediate header d now = some a ∧ q.polled header d delay task p first second = some b ∧
      (SameDelivery a b ↔ q = .startAcc ∧ Persisted d devObj) := by
  obtain ⟨delayObj,delayed,taskid⟩ := both.delayed
  cases q with
  | startAcc =>
    obtain ⟨a,now,here,uci⟩ := startAcc_immediate both.idle both.now header
    obtain ⟨b,later,there,uci'⟩ := startAcc_polled both.idle delayed taskid both.task header p first second
    refine ⟨a,b,now,later,?_⟩
    rw [← persisted_exact d devObj,← uci',← uci]
    constructor
    · intro same; exact ⟨rfl,same.persisted⟩
    · rintro ⟨_,persisted⟩
      exact here.same there persisted
  | accStateInfo =>
    have required := both.required rfl
    obtain ⟨a,now,querying⟩ := accStateInfo_immediate both.idle (both.changed rfl) both.now required header
    obtain ⟨b,later,closed⟩ :=
      accStateInfo_polled both.idle (both.changed rfl) delayed taskid both.task required header p first second
    refine ⟨a,b,now,later,?_⟩
    constructor
    · intro same
      have state : a.accState = b.accState := congrArg SpeedupInfoResp.imAccState same.speedupinfo
      rw [querying,closed] at state
      cases state
    · rintro ⟨other,_⟩
      cases other

theorem delivered_complete (cmd : Int) (code : Int) (data : List (List (Bytes × Json))) :
    HeaderComplete (messageJson cmd code data) := by
  refine ⟨headerJson cmd code,rfl,?_⟩
  intro key member
  simp only [headerKeys,List.mem_cons,List.not_mem_nil,or_false] at member
  rcases member with rfl | rfl | rfl | rfl | rfl | rfl | rfl <;> rfl

theorem delivered_reply (cmd : CloudMsgCmd) (members : List (Bytes × Json)) (small : Json.clamp 32 code = code) :
    Reply (delivered cmd code [members]).body cmd code (.object members) := by
  have header : replyHeader (delivered cmd code [members]).body =
      (imJsonParseHeader (messageJson cmd.code code [members]) default).1 := by
    rw [replyHeader]
    exact imJsonParseCloud_parsed _ _ _
  refine ⟨⟨_,_,rfl,delivered_complete _ _ _,rfl,rfl⟩,?_,?_⟩
  · rw [header]
    cases cmd <;> rfl
  · rw [header]
    exact small

def moved : Daemon := (imCloudHeartbeat booted.daemon
  (delivered .heartBeat msgCodeSucess [[(jasonKey .ip,.string (bytes "10.0.0.2"))]])).daemon

def plan : List (Bytes × Json) := [(jasonKey .isAcc,.int 1),(jasonKey .taskid,.string (bytes "t1"))]

theorem moved_both (q : Delayable) : BothWays q moved (delivered q.cmd msgCodeSucess [plan])
    (delivered q.cmd msgCodeMsgdelay [plan]) (delivered .getTaskresult msgCodeSucess [plan]) (.object plan) := by
  refine ⟨by decide,fun _ => by decide,delivered_reply _ _ (by decide),?_,delivered_reply _ _ (by decide),fun _ => by decide⟩
  exact ⟨_,delivered_reply _ _ (by decide),by decide⟩

theorem sameDelivery_start : ∃ a b, Delayable.immediate .startAcc default moved (delivered .startAcc msgCodeSucess [plan]) = some a ∧
    Delayable.polled .startAcc default moved (delivered .startAcc msgCodeMsgdelay [plan])
      (delivered .getTaskresult msgCodeSucess [plan]) ⟨default,0,false,0⟩ ⟨20,0⟩ ⟨21,0⟩ = some b ∧
    (SameDelivery a b ↔ Delayable.startAcc = .startAcc ∧ Persisted moved (.object plan)) :=
  sameDelivery_exact (moved_both .startAcc) default ⟨default,0,false,0⟩ ⟨20,0⟩ ⟨21,0⟩

-- An is-acc query answered at once is left in QUERYING for good.
theorem sameDelivery_stuck : ¬ ∀ q d now delay task devObj, BothWays q d now delay task devObj →
    ∀ header p first second, ∃ a b, q.immediate header d now = some a ∧
      q.polled header d delay task p first second = some b ∧ SameDelivery a b := by
  intro always
  have both := moved_both .accStateInfo
  obtain ⟨a,b,now,later,same⟩ := always _ _ _ _ _ _ both default ⟨default,0,false,0⟩ ⟨20,0⟩ ⟨21,0⟩
  obtain ⟨delayObj,delayed,taskid⟩ := both.delayed
  obtain ⟨a',now',querying⟩ :=
    accStateInfo_immediate both.idle (both.changed rfl) both.now (both.required rfl) default
  obtain ⟨b',later',closed⟩ := accStateInfo_polled both.idle (both.changed rfl) delayed taskid both.task
    (both.required rfl) default ⟨default,0,false,0⟩ ⟨20,0⟩ ⟨21,0⟩
  cases now.symm.trans now'
  cases later.symm.trans later'
  have state : a.accState = b.accState := congrArg SpeedupInfoResp.imAccState same.speedupinfo
  rw [querying,closed] at state
  cases state

end ImAcc
