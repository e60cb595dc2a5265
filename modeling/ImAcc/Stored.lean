import ImAcc.Operations

namespace ImAcc
open JsonC

structure Stored where
  sessionId : Bytes
  accTime : Int
  copies : Bytes × Bytes × Bytes × Bytes
  heartbeatResp : HeartbeatResp
  isaccResp : IsaccResp
  startaccResp : StartaccResp
  flowinfoResp : FlowInfoResp
  acclistResp : List AccHistroy
  speedupinfoResp : SpeedupInfoResp
  uciIp : Option Bytes

-- Everything a rejected reply must not touch, but for the address of the login.
def stored (r : Records) : Stored :=
  {sessionId := r.loginResp.imSessionId,accTime := r.loginResp.imAccTime
   copies := (r.acc.imSessionId,r.countflowCmd.imSessionId,r.getaacflowCmd.imSessionId,r.taskresultCmd.imSessionId)
   heartbeatResp := r.heartbeatResp,isaccResp := r.isaccResp,startaccResp := r.startaccResp
   flowinfoResp := r.flowinfoResp,acclistResp := r.acclistResp,speedupinfoResp := r.speedupinfoResp,uciIp := r.uci.imIp}

def Unchanged (before after : Records) : Prop :=
  stored after = stored before ∧ after.loginResp.imIp = before.loginResp.imIp

def Agrees (devObj : Option Json) (key : JsonImCmd) (read : Json → α) (value : α) : Prop :=
  ∀ item ∈ supplied devObj key, read item = value

theorem agrees_exact (devObj : Option Json) (key : JsonImCmd) (read : Json → α) (value : α) :
    ((supplied devObj key).map read).getD value = value ↔ Agrees devObj key read value := by
  unfold Agrees
  cases supplied devObj key <;> simp

def devObjOf (jsonMsg : Json) : Option Json := (jsonMsg.objectGet (jasonKey .data)).bind (Json.arrayGetIdx 0)

theorem withDevObj_devObjOf (r : Records) (jsonMsg : Json) (body : Json → Records × Int) :
    withDevObj r jsonMsg body = (devObjOf jsonMsg).elim (r,msgCodeFormatErr) body := by
  unfold withDevObj devObjOf
  cases jsonMsg.objectGet (jasonKey .data) with
  | none => rfl
  | some imData => cases found : imData.arrayGetIdx 0 <;> simp [found]

structure LoginAgrees (r : Records) (devObj : Json) : Prop where
  sessionId : Agrees (some devObj) .sessionid Json.getString r.loginResp.imSessionId
  accTime : Agrees (some devObj) .accTime Json.getInt r.loginResp.imAccTime
  copies : r.acc.imSessionId = r.loginResp.imSessionId ∧ r.countflowCmd.imSessionId = r.loginResp.imSessionId ∧
    r.getaacflowCmd.imSessionId = r.loginResp.imSessionId ∧ r.taskresultCmd.imSessionId = r.loginResp.imSessionId
  uciIp : r.uci.imIp = uciText (((supplied (some devObj) .ip).map Json.getString).getD r.loginResp.imIp)

structure IsaccAgrees (old : IsaccResp) (devObj : Json) : Prop where
  isAcc : Agrees (some devObj) .isAcc Json.getInt old.imIsAcc
  isp : Agrees (some devObj) .isp Json.getInt old.imIsp
  curBandwidth : Agrees (some devObj) .curBandwidth Json.getInt old.imCurBandwidth
  maxBandwidth : Agrees (some devObj) .maxBandwidth Json.getInt old.imMaxBandwidth
  accRemaintime : Agrees (some devObj) .accRemaintime Json.getInt old.imAccRemaintime

def readUlong (bits : Nat) (item : Json) : Nat := toUlong bits item.getInt64

structure FlowAgrees (bits : Nat) (old : FlowInfoResp) (devObj : Json) : Prop where
  totalFlow : Agrees (some devObj) .totalFlow (readUlong bits) old.imTotalFlow
  remainFlow : Agrees (some devObj) .remainFlow (readUlong bits) old.imRemainFlow

structure SlotAgrees (bits : Nat) (slot : AccHistroy) (devObj : Option Json) : Prop where
  useTime : Agrees devObj .useTime Json.getInt slot.imUseTime
  useFlow : Agrees devObj .useFlow (readUlong bits) slot.imUseFlow
  openAccTime : Agrees devObj .openAccTime (readUlong bits) slot.imOpenAccTime

def DataAgrees (r : Records) (jsonMsg : Json) (cmd : Int) : Prop :=
  match CloudMsgCmd.ofCode cmd with
  | some .devLogin => ∀ devObj ∈ devObjOf jsonMsg, LoginAgrees r devObj
  | some .isAcc => ∀ devObj ∈ devObjOf jsonMsg, IsaccAgrees r.isaccResp devObj
  | some .getTaskresult => r.speedupinfoResp.imAccState = .querying →
      ∀ devObj ∈ devObjOf jsonMsg, IsaccAgrees r.isaccResp devObj
  | some .getflowInfo => ∀ devObj ∈ devObjOf jsonMsg, FlowAgrees r.ulongBits r.flowinfoResp devObj
  | some .getAcclist => ∀ imData ∈ jsonMsg.objectGet (jasonKey .data), ∀ i < imData.arrayLength,
      ∀ slot ∈ r.acclistResp[i]?, SlotAgrees r.ulongBits slot (imData.arrayGetIdx i)
  | _ => True

def IpAgrees (r : Records) (jsonMsg : Json) (cmd : Int) : Prop :=
  CloudMsgCmd.ofCode cmd = some .devLogin →
    ∀ devObj ∈ devObjOf jsonMsg, Agrees (some devObj) .ip Json.getString r.loginResp.imIp

theorem login_exact (r : Records) (jsonMsg : Json) :
    (stored (imJsonParseDataLoginResp r jsonMsg).1 = stored r ↔ ∀ devObj ∈ devObjOf jsonMsg, LoginAgrees r devObj) ∧
    ((imJsonParseDataLoginResp r jsonMsg).1.loginResp.imIp = r.loginResp.imIp ↔
      ∀ devObj ∈ devObjOf jsonMsg, Agrees (some devObj) .ip Json.getString r.loginResp.imIp) := by
  rw [imJsonParseDataLoginResp,withDevObj_devObjOf]
  cases devObjOf jsonMsg with
  | none => simp
  | some devObj =>
    simp only [Option.elim,imJsonGetString,imJsonGetInt,imJsonGet_value,Option.mem_some_iff,forall_eq']
    constructor
    · simp only [stored,imInitSession,uciSetIp,Stored.mk.injEq,Prod.mk.injEq,true_and]
      constructor
      · rintro ⟨session,accTime,⟨acc,count,getaac,task⟩,uciIp⟩
        rw [session] at acc count getaac task
        exact ⟨(agrees_exact ..).mp session,(agrees_exact ..).mp accTime,
          ⟨acc.symm,count.symm,getaac.symm,task.symm⟩,uciIp.symm⟩
      · intro agrees
        have session := (agrees_exact ..).mpr agrees.sessionId
        obtain ⟨acc,count,getaac,task⟩ := agrees.copies
        rw [session]
        exact ⟨rfl,(agrees_exact ..).mpr agrees.accTime,⟨acc.symm,count.symm,getaac.symm,task.symm⟩,agrees.uciIp.symm⟩
    · exact agrees_exact ..

theorem isacc_exact (r : Records) (jsonMsg : Json) : stored (imJsonParseDataIsaccResp r jsonMsg).1 = stored r ↔
    ∀ devObj ∈ devObjOf jsonMsg, IsaccAgrees r.isaccResp devObj := by
  rw [imJsonParseDataIsaccResp,withDevObj_devObjOf]
  cases devObjOf jsonMsg with
  | none => simp
  | some devObj =>
    simp only [Option.elim,imJsonGetInt,imJsonGet_value,Option.mem_some_iff,forall_eq',stored,Stored.mk.injEq,true_and,
      and_true]
    constructor
    · intro same
      have field {α : Type} (read : IsaccResp → α) := congrArg read same
      exact ⟨(agrees_exact ..).mp (field IsaccResp.imIsAcc),(agrees_exact ..).mp (field IsaccResp.imIsp),
        (agrees_exact ..).mp (field IsaccResp.imCurBandwidth),(agrees_exact ..).mp (field IsaccResp.imMaxBandwidth),
        (agrees_exact ..).mp (field IsaccResp.imAccRemaintime)⟩
    · intro agrees
      rw [(agrees_exact ..).mpr agrees.isAcc,(agrees_exact ..).mpr agrees.isp,(agrees_exact ..).mpr agrees.curBandwidth,
        (agrees_exact ..).mpr agrees.maxBandwidth,(agrees_exact ..).mpr agrees.accRemaintime]

theorem flowinfo_exact (r : Records) (jsonMsg : Json) : stored (imJsonParseDataGetflowinfoResp r jsonMsg).1 = stored r ↔
    ∀ devObj ∈ devObjOf jsonMsg, FlowAgrees r.ulongBits r.flowinfoResp devObj := by
  rw [imJsonParseDataGetflowinfoResp,withDevObj_devObjOf]
  cases devObjOf jsonMsg with
  | none => simp
  | some devObj =>
    simp only [Option.elim,imJsonGetInt64,imJsonGet_value,Option.mem_some_iff,forall_eq',stored,Stored.mk.injEq,true_and,
      and_true]
    constructor
    · intro same
      exact ⟨(agrees_exact ..).mp (congrArg FlowInfoResp.imTotalFlow same),
        (agrees_exact ..).mp (congrArg FlowInfoResp.imRemainFlow same)⟩
    · intro agrees
      have total := (agrees_exact ..).mpr agrees.totalFlow
      have remain := (agrees_exact ..).mpr agrees.remainFlow
      unfold readUlong at total remain
      rw [total,remain]

def historyOf (bits : Nat) (devObj : Option Json) (slot : AccHistroy) : AccHistroy :=
  ⟨((supplied devObj .useTime).map Json.getInt).getD slot.imUseTime,
   ((supplied devObj .useFlow).map (readUlong bits)).getD slot.imUseFlow,
   ((supplied devObj .openAccTime).map (readUlong bits)).getD slot.imOpenAccTime⟩

theorem historyOf_exact (bits : Nat) (devObj : Option Json) (slot : AccHistroy) :
    historyOf bits devObj slot = slot ↔ SlotAgrees bits slot devObj := by
  constructor
  · intro same
    exact ⟨(agrees_exact ..).mp (congrArg AccHistroy.imUseTime same),
      (agrees_exact ..).mp (congrArg AccHistroy.imUseFlow same),
      (agrees_exact ..).mp (congrArg AccHistroy.imOpenAccTime same)⟩
  · intro agrees
    unfold historyOf
    rw [(agrees_exact ..).mpr agrees.useTime,(agrees_exact ..).mpr agrees.useFlow,
      (agrees_exact ..).mpr agrees.openAccTime]

theorem accHistroyStore_records (imData : Json) (state : Records × Int) (i : Nat) :
    (accHistroyStore imData state i).1 =
      let slot := historyOf state.1.ulongBits (imData.arrayGetIdx i) (state.1.acclistResp.getD i default)
      {state.1 with acclistResp := state.1.acclistResp.set i slot} := by
  simp only [accHistroyStore,imJsonGetInt,imJsonGetInt64,imJsonGet_value]
  rfl

theorem acclist_records (imData : Json) (indices : List Nat) (distinct : indices.Nodup) (state : Records × Int) :
    ∃ slots, (indices.foldl (accHistroyStore imData) state).1 = {state.1 with acclistResp := slots} ∧
      ∀ j, slots[j]? = if j ∈ indices then
        state.1.acclistResp[j]?.map (historyOf state.1.ulongBits (imData.arrayGetIdx j))
      else state.1.acclistResp[j]? := by
  induction indices generalizing state with
  | nil => exact ⟨state.1.acclistResp,rfl,fun j => by simp⟩
  | cons i rest ih =>
    obtain ⟨fresh,others⟩ := List.nodup_cons.mp distinct
    obtain ⟨slots,made,each⟩ := ih others (accHistroyStore imData state i)
    have written := accHistroyStore_records imData state i
    refine ⟨slots,?_,fun j => ?_⟩
    · rw [List.foldl_cons,made,written]
    · rw [each j,written]
      by_cases here : j = i
      · subst here
        rw [if_neg fresh,if_pos (by simp)]
        cases present : state.1.acclistResp[j]? with
        | none => simp [List.getElem?_eq_none_iff.mp present]
        | some slot =>
          obtain ⟨place,same⟩ := List.getElem?_eq_some_iff.mp present
          simp [List.getD,place,same]
      · have other : i ≠ j := fun same => here same.symm
        simp only [List.getElem?_set_ne other,List.mem_cons,here,false_or]

theorem acclist_exact (r : Records) (jsonMsg : Json) : stored (imJsonParseDataGetacclistResp r jsonMsg).1 = stored r ↔
    ∀ imData ∈ jsonMsg.objectGet (jasonKey .data), ∀ i < imData.arrayLength,
      ∀ slot ∈ r.acclistResp[i]?, SlotAgrees r.ulongBits slot (imData.arrayGetIdx i) := by
  unfold imJsonParseDataGetacclistResp
  cases jsonMsg.objectGet (jasonKey .data) with
  | none => simp
  | some imData =>
    obtain ⟨slots,made,each⟩ :=
      acclist_records imData (List.range imData.arrayLength) List.nodup_range (r,msgCodeSucess)
    simp only [made,Option.mem_some_iff,forall_eq',stored,Stored.mk.injEq,true_and,and_true]
    constructor
    · intro same i below slot present
      have written := each i
      rw [same,if_pos (List.mem_range.mpr below)] at written
      rw [← historyOf_exact]
      rw [present,Option.map_some] at written
      exact (Option.some.inj written).symm
    · intro agrees
      refine List.ext_getElem? fun j => ?_
      rw [each j]
      split
      · rename_i below
        cases present : r.acclistResp[j]? with
        | none => rfl
        | some slot =>
          rw [Option.map_some,(historyOf_exact ..).mpr (agrees j (List.mem_range.mp below) slot present)]
      · rfl

theorem withDevObj_failed (failed : (withDevObj r jsonMsg body).2 ≠ msgCodeSucess)
    (fine : ∀ devObj, (body devObj).2 = msgCodeSucess) : (withDevObj r jsonMsg body).1 = r := by
  rw [withDevObj_devObjOf] at failed ⊢
  cases found : devObjOf jsonMsg with
  | none => rfl
  | some devObj =>
    rw [found] at failed
    exact absurd (fine devObj) failed

-- The records a body keeps for every element are kept with no element at all.
theorem withDevObj_keeps {α : Type} (read : Records → α) (keep : ∀ devObj, read (body devObj).1 = read r) :
    read (withDevObj r jsonMsg body).1 = read r := by
  rw [withDevObj_devObjOf]
  cases devObjOf jsonMsg with
  | none => rfl
  | some devObj => exact keep devObj

theorem heartbeat_rejected (rejected : (imJsonParseDataHeartbeatResp r jsonMsg).2 ≠ msgCodeSucess) :
    (imJsonParseDataHeartbeatResp r jsonMsg).1 = r := by
  rw [imJsonParseDataHeartbeatResp,withDevObj_devObjOf] at rejected ⊢
  cases found : devObjOf jsonMsg with
  | none => rfl
  | some devObj =>
    rw [found] at rejected
    simp only [Option.elim,imJsonGetString,imJsonGet_code] at rejected
    have absent : supplied (some devObj) .ip = none := by
      by_contra present
      exact rejected (getCode_sucess.mpr (Option.isSome_iff_ne_none.mpr present))
    simp only [Option.elim,imJsonGetString,imJsonGet_value,absent,Option.map_none,Option.getD_none]

theorem taskresultData_exact (rejected : (taskresultData r jsonMsg).2 ≠ msgCodeSucess) :
    stored (taskresultData r jsonMsg).1 = stored r ↔
      (r.speedupinfoResp.imAccState = .querying → ∀ devObj ∈ devObjOf jsonMsg, IsaccAgrees r.isaccResp devObj) := by
  unfold taskresultData at rejected ⊢
  cases state : r.speedupinfoResp.imAccState with
  | opening =>
    simp only [state,adopt] at rejected ⊢
    have same : (imJsonParseDataStartaccResp r jsonMsg).1 = r := withDevObj_failed rejected fun _ => rfl
    rw [if_neg rejected,same]
    exact ⟨fun _ => nofun,fun _ => rfl⟩
  | querying =>
    simp only [state,adopt] at rejected ⊢
    rw [if_neg rejected,forall_const]
    exact isacc_exact r jsonMsg
  | unset | closed | opened => exact ⟨fun _ => nofun,fun _ => rfl⟩

theorem delayed_stored (r : Records) (jsonMsg : Json) (cmd : Int) :
    stored (imJsonParseDataTaskresultResp r jsonMsg cmd msgCodeMsgdelay).1 = stored r ∧
      (imJsonParseDataTaskresultResp r jsonMsg cmd msgCodeMsgdelay).1.loginResp = r.loginResp := by
  have taskid : stored (imJsonParseDataTaskid r jsonMsg).1 = stored r ∧
      (imJsonParseDataTaskid r jsonMsg).1.loginResp = r.loginResp :=
    ⟨withDevObj_keeps stored fun _ => rfl,withDevObj_keeps Records.loginResp fun _ => rfl⟩
  unfold imJsonParseDataTaskresultResp
  split
  · exact ⟨rfl,rfl⟩
  · cases CloudMsgCmd.ofCode cmd with
    | none => exact ⟨rfl,rfl⟩
    | some kind =>
      cases kind with
      | isAcc | startAcc => exact taskid
      | _ => exact ⟨rfl,rfl⟩

theorem taskresult_exact
    (rejected : (imJsonParseDataTaskresultResp r jsonMsg CloudMsgCmd.getTaskresult.code msgCodeSucess).2 ≠ msgCodeSucess) :
    stored (imJsonParseDataTaskresultResp r jsonMsg CloudMsgCmd.getTaskresult.code msgCodeSucess).1 = stored r ↔
      (r.speedupinfoResp.imAccState = .querying → ∀ devObj ∈ devObjOf jsonMsg, IsaccAgrees r.isaccResp devObj) := by
  unfold imJsonParseDataTaskresultResp at rejected ⊢
  rw [CloudMsgCmd.ofCode_code] at rejected ⊢
  split
  · rename_i idle
    refine ⟨fun _ querying => ?_,fun _ => rfl⟩
    rw [querying] at idle
    cases idle
  · rename_i awaited
    rw [if_neg awaited] at rejected
    exact taskresultData_exact rejected

theorem imJsonParseDataCloud_exact (rejected : (imJsonParseDataCloud r jsonMsg cmd).2 ≠ msgCodeSucess) :
    stored (imJsonParseDataCloud r jsonMsg cmd).1 = stored r ↔ DataAgrees r jsonMsg cmd := by
  unfold imJsonParseDataCloud at rejected ⊢
  unfold DataAgrees
  cases command : CloudMsgCmd.ofCode cmd with
  | none => simp [command] at rejected
  | some kind =>
    simp only [command] at rejected ⊢
    cases kind with
    | devLogin => exact (login_exact r jsonMsg).1
    | isAcc => exact isacc_exact r jsonMsg
    | getflowInfo => exact flowinfo_exact r jsonMsg
    | getAcclist => exact acclist_exact r jsonMsg
    | getTaskresult => exact taskresult_exact rejected
    | heartBeat => exact iff_true_intro (congrArg stored (heartbeat_rejected rejected))
    | startAcc => exact iff_true_intro (congrArg stored (withDevObj_failed rejected fun _ => rfl))
    | getAccinfo | ungetflow | getflow => exact iff_true_intro (withDevObj_keeps stored fun _ => rfl)
    | devLogout | getaccFlow | stopAcc | countFlow => exact absurd rfl rejected

theorem taskresultData_records (r : Records) (jsonMsg : Json) : ∃ start isacc info uci,
    (taskresultData r jsonMsg).1 =
      {r with startaccResp := start,isaccResp := isacc,speedupinfoResp := info,uci := uci} := by
  have start : ∃ resp, (imJsonParseDataStartaccResp r jsonMsg).1 = {r with startaccResp := resp} := by
    rw [imJsonParseDataStartaccResp,withDevObj_devObjOf]
    cases devObjOf jsonMsg with
    | none => exact ⟨r.startaccResp,rfl⟩
    | some devObj => exact ⟨_,rfl⟩
  have isacc : ∃ resp, (imJsonParseDataIsaccResp r jsonMsg).1 = {r with isaccResp := resp} := by
    rw [imJsonParseDataIsaccResp,withDevObj_devObjOf]
    cases devObjOf jsonMsg with
    | none => exact ⟨r.isaccResp,rfl⟩
    | some devObj => exact ⟨_,rfl⟩
  unfold taskresultData adopt
  cases r.speedupinfoResp.imAccState with
  | opening =>
    obtain ⟨resp,made⟩ := start
    dsimp only
    split <;> rw [made] <;> exact ⟨_,_,_,_,rfl⟩
  | querying =>
    obtain ⟨resp,made⟩ := isacc
    dsimp only
    split <;> rw [made] <;> exact ⟨_,_,_,_,rfl⟩
  | unset | closed | opened => exact ⟨_,_,_,_,rfl⟩

theorem taskresultData_keeps {α : Type} (read : Records → α)
    (keep : ∀ start isacc info uci,
      read {r with startaccResp := start,isaccResp := isacc,speedupinfoResp := info,uci := uci} = read r) :
    read (taskresultData r jsonMsg).1 = read r := by
  obtain ⟨start,isacc,info,uci,made⟩ := taskresultData_records r jsonMsg
  rw [made]
  exact keep start isacc info uci

theorem acclist_keeps {α : Type} (read : Records → α) (keep : ∀ slots, read {r with acclistResp := slots} = read r) :
    read (imJsonParseDataGetacclistResp r jsonMsg).1 = read r := by
  unfold imJsonParseDataGetacclistResp
  split
  · rfl
  · obtain ⟨slots,made,_⟩ := acclist_records _ _ List.nodup_range (r,msgCodeSucess)
    rw [made]
    exact keep slots

theorem taskresultResp_keeps {α : Type} (read : Records → α) (cmd errcode : Int)
    (task : ∀ imTaskid, read {r with taskresultCmd := {r.taskresultCmd with imTaskid := imTaskid}} = read r)
    (result : errcode = msgCodeSucess → read (taskresultData r jsonMsg).1 = read r) :
    read (imJsonParseDataTaskresultResp r jsonMsg cmd errcode).1 = read r := by
  have taskid : read (imJsonParseDataTaskid r jsonMsg).1 = read r := withDevObj_keeps read fun _ => task _
  unfold imJsonParseDataTaskresultResp
  split
  · rfl
  · cases CloudMsgCmd.ofCode cmd with
    | none => rfl
    | some kind =>
      cases kind with
      | isAcc | startAcc =>
        dsimp only
        split
        · rfl
        · exact taskid
      | getTaskresult =>
        dsimp only
        split
        · rfl
        · exact result (not_not.mp ‹_›)
      | _ => rfl

theorem imJsonParseDataCloud_keeps {α : Type} (read : Records → α) (cmd : Int)
    (login : CloudMsgCmd.ofCode cmd = some .devLogin → read (imJsonParseDataLoginResp r jsonMsg).1 = read r)
    (acclist : CloudMsgCmd.ofCode cmd = some .getAcclist → read (imJsonParseDataGetacclistResp r jsonMsg).1 = read r)
    (result : CloudMsgCmd.ofCode cmd = some .getTaskresult → read (taskresultData r jsonMsg).1 = read r)
    (keep : ∀ heartbeat isacc startacc flowinfo accspec, read {r with
      heartbeatResp := heartbeat,isaccResp := isacc,startaccResp := startacc,flowinfoResp := flowinfo,accspec := accspec} =
        read r) :
    read (imJsonParseDataCloud r jsonMsg cmd).1 = read r := by
  unfold imJsonParseDataCloud
  cases command : CloudMsgCmd.ofCode cmd with
  | none => rfl
  | some kind =>
    cases kind with
    | devLogin => exact login command
    | getAcclist => exact acclist command
    | getTaskresult =>
      dsimp only [imJsonParseDataTaskresultResp]
      split
      · rfl
      · exact result command
    | heartBeat => exact withDevObj_keeps read fun _ => keep _ r.isaccResp r.startaccResp r.flowinfoResp r.accspec
    | isAcc => exact withDevObj_keeps read fun _ => keep r.heartbeatResp _ r.startaccResp r.flowinfoResp r.accspec
    | startAcc => exact withDevObj_keeps read fun _ => keep r.heartbeatResp r.isaccResp _ r.flowinfoResp r.accspec
    | getflowInfo => exact withDevObj_keeps read fun _ => keep r.heartbeatResp r.isaccResp r.startaccResp _ r.accspec
    | getAccinfo => exact withDevObj_keeps read fun _ => keep r.heartbeatResp r.isaccResp r.startaccResp r.flowinfoResp _
    | ungetflow | getflow => exact withDevObj_keeps read fun _ => rfl
    | devLogout | getaccFlow | stopAcc | countFlow => rfl

theorem imJsonParseDataCloud_ip (r : Records) (jsonMsg : Json) (cmd : Int) :
    (imJsonParseDataCloud r jsonMsg cmd).1.loginResp.imIp = r.loginResp.imIp ↔ IpAgrees r jsonMsg cmd := by
  unfold IpAgrees
  by_cases login : CloudMsgCmd.ofCode cmd = some .devLogin
  · unfold imJsonParseDataCloud
    simpa [login] using (login_exact r jsonMsg).2
  · refine iff_of_true ?_ fun asked => absurd asked login
    exact imJsonParseDataCloud_keeps (fun r => r.loginResp.imIp) cmd (absurd · login)
      (fun _ => acclist_keeps (fun r => r.loginResp.imIp) fun _ => rfl)
      (fun _ => taskresultData_keeps (fun r => r.loginResp.imIp) fun _ _ _ _ => rfl) fun _ _ _ _ _ => rfl

def headerInt (body : Option Json) (key : JsonImCmd) (old : Int) : Int :=
  ((supplied (body.bind (Json.objectGet (jasonKey .header))) key).map Json.getInt).getD old

theorem imJsonParseHeader_ints (jsonMsg : Json) (h : MsgHeader) :
    (imJsonParseHeader jsonMsg h).1.imCode = headerInt (some jsonMsg) .code h.imCode ∧
      (imJsonParseHeader jsonMsg h).1.imCmd = headerInt (some jsonMsg) .cmd h.imCmd := by
  unfold imJsonParseHeader headerInt
  cases found : jsonMsg.objectGet (jasonKey .header) with
  | none => simp [found,supplied]
  | some jsonHeader => simp [found,imJsonGetInt]

theorem imJsonParseCloud_code (r : Records) (body : Option Json) (h : MsgHeader) :
    (imJsonParseCloud r body h).header.imCode = headerInt body .code h.imCode := by
  cases body with
  | none => rfl
  | some jsonMsg => rw [imJsonParseCloud_parsed]; exact (imJsonParseHeader_ints jsonMsg h).1

def Parsed (body : Option Json) (h : MsgHeader) (jsonMsg : Json) : Prop :=
  body = some jsonMsg ∧ HeaderComplete jsonMsg ∧ headerInt body .code h.imCode = msgCodeSucess

theorem imJsonParseCloud_exact (rejected : (imJsonParseCloud r body h).ret ≠ msgCodeSucess) :
    (stored (imJsonParseCloud r body h).records = stored r ↔
      ∀ jsonMsg, Parsed body h jsonMsg → DataAgrees r jsonMsg (headerInt body .cmd h.imCmd)) ∧
    ((imJsonParseCloud r body h).records.loginResp.imIp = r.loginResp.imIp ↔
      ∀ jsonMsg, Parsed body h jsonMsg → IpAgrees r jsonMsg (headerInt body .cmd h.imCmd)) := by
  cases body with
  | none => exact ⟨iff_of_true rfl nofun,iff_of_true rfl nofun⟩
  | some jsonMsg =>
    obtain ⟨code,cmd⟩ := imJsonParseHeader_ints jsonMsg h
    rw [← cmd]
    have only {P : Json → Prop} (parsed : Parsed (some jsonMsg) h jsonMsg) :
        (∀ msg, Parsed (some jsonMsg) h msg → P msg) ↔ P jsonMsg := by
      constructor
      · exact fun all => all jsonMsg parsed
      · rintro here msg ⟨⟨⟩,_⟩; exact here
    have never {P : Json → Prop} (missed : ¬(HeaderComplete jsonMsg ∧ (imJsonParseHeader jsonMsg h).1.imCode = 0)) :
        ∀ msg, Parsed (some jsonMsg) h msg → P msg := by
      rintro msg ⟨⟨⟩,complete,success⟩
      exact absurd ⟨complete,code.trans success⟩ missed
    unfold imJsonParseCloud at rejected ⊢
    dsimp only at rejected ⊢
    split
    · rename_i failed
      have missed : ¬(HeaderComplete jsonMsg ∧ (imJsonParseHeader jsonMsg h).1.imCode = 0) :=
        fun both => failed ((imJsonParseHeader_sucess _ _).mpr both.1)
      exact ⟨iff_of_true rfl (never missed),iff_of_true rfl (never missed)⟩
    · rename_i valid
      have complete := (imJsonParseHeader_sucess jsonMsg h).mp (not_not.mp valid)
      rw [if_neg valid] at rejected
      split
      · rename_i success
        rw [if_pos success] at rejected
        have parsed : Parsed (some jsonMsg) h jsonMsg := ⟨rfl,complete,code.symm.trans success⟩
        rw [only parsed,only parsed]
        exact ⟨imJsonParseDataCloud_exact rejected,imJsonParseDataCloud_ip ..⟩
      · rename_i other
        have missed : ¬(HeaderComplete jsonMsg ∧ (imJsonParseHeader jsonMsg h).1.imCode = 0) := fun both => other both.2
        split
        · obtain ⟨kept,login⟩ := delayed_stored r jsonMsg (imJsonParseHeader jsonMsg h).1.imCmd
          exact ⟨iff_of_true kept (never missed),iff_of_true (congrArg LoginResp.imIp login) (never missed)⟩
        · exact ⟨iff_of_true rfl (never missed),iff_of_true rfl (never missed)⟩

def CloudOp.settle (op : CloudOp) (parsed : CloudParse) : Records :=
  if op = .heartbeat ∧ parsed.header.imCode = msgCodeSucess then
    {parsed.records with loginResp := {parsed.records.loginResp with imIp := parsed.records.heartbeatResp.imIp}}
  else parsed.records

theorem CloudOp.settle_keeps {α : Type} (read : Records → α)
    (keep : ∀ r imIp, read {r with loginResp := {r.loginResp with imIp := imIp}} = read r) (op : CloudOp) (parsed : CloudParse) :
    read (op.settle parsed) = read parsed.records := by
  unfold CloudOp.settle
  split
  · exact keep _ _
  · rfl

theorem CloudOp.run_records (op : CloudOp) (d : Daemon) (header : MsgHeader) (ex : Exchange)
    (parses : op = .login → ex.sent = msgCodeSucess) : (op.run d header ex).daemon.records =
      op.settle (imJsonParseCloud d.records ex.body (op.header header ex)) := by
  cases op with
  | login =>
    have sent := parses rfl
    simp only [CloudOp.run,imCloudLogin,sent,ne_eq,not_true_eq_false,if_false]
    split <;> rfl
  | heartbeat =>
    simp only [CloudOp.run,imCloudHeartbeat,CloudOp.settle,true_and]
    split
    · rename_i success
      exact (if_pos success).symm
    · rename_i other
      exact (if_neg other).symm
  | _ => rfl

-- The data parsed all the same hold nothing new, and a heartbeat copies no other address.
structure Harmless (op : CloudOp) (r : Records) (body : Option Json) (h : MsgHeader) : Prop where
  data : ∀ jsonMsg, Parsed body h jsonMsg → DataAgrees r jsonMsg (headerInt body .cmd h.imCmd)
  ip : op ≠ .heartbeat → ∀ jsonMsg, Parsed body h jsonMsg → IpAgrees r jsonMsg (headerInt body .cmd h.imCmd)
  heartbeat : op = .heartbeat → headerInt body .code h.imCode = msgCodeSucess →
    r.heartbeatResp.imIp = r.loginResp.imIp

theorem settle_exact (op : CloudOp) (rejected : (imJsonParseCloud r body h).ret ≠ msgCodeSucess) :
    Unchanged r (op.settle (imJsonParseCloud r body h)) ↔ Harmless op r body h := by
  obtain ⟨data,ip⟩ := imJsonParseCloud_exact rejected
  have code := imJsonParseCloud_code r body h
  unfold CloudOp.settle Unchanged
  split
  · rename_i beat
    have said : headerInt body .code h.imCode = msgCodeSucess := code.symm.trans beat.2
    change stored (imJsonParseCloud r body h).records = stored r ∧
      (imJsonParseCloud r body h).records.heartbeatResp.imIp = r.loginResp.imIp ↔ _
    constructor
    · rintro ⟨same,copied⟩
      have kept : (imJsonParseCloud r body h).records.heartbeatResp = r.heartbeatResp := congrArg Stored.heartbeatResp same
      exact ⟨data.mp same,absurd beat.1,fun _ _ => kept ▸ copied⟩
    · intro harmless
      have same := data.mpr harmless.data
      have kept : (imJsonParseCloud r body h).records.heartbeatResp = r.heartbeatResp := congrArg Stored.heartbeatResp same
      exact ⟨same,kept ▸ harmless.heartbeat beat.1 said⟩
  · rename_i plain
    constructor
    · rintro ⟨same,login⟩
      exact ⟨data.mp same,fun _ => ip.mp login,fun beat said => absurd ⟨beat,code.trans said⟩ plain⟩
    · intro harmless
      refine ⟨data.mpr harmless.data,ip.mpr ?_⟩
      by_cases beat : op = .heartbeat
      · rintro jsonMsg ⟨_,_,said⟩
        exact absurd ⟨beat,code.trans said⟩ plain
      · exact harmless.ip beat

theorem rejected_exact (op : CloudOp) (d : Daemon) (header : MsgHeader) (ex : Exchange)
    (parses : op = .login → ex.sent = msgCodeSucess)
    (rejected : (imJsonParseCloud d.records ex.body (op.header header ex)).ret ≠ msgCodeSucess) :
    Unchanged d.records (op.run d header ex).daemon.records ↔ Harmless op d.records ex.body (op.header header ex) := by
  rw [CloudOp.run_records op d header ex parses]
  exact settle_exact op rejected

theorem rejected_exact_empty :
    Unchanged booted.daemon.records (CloudOp.run .isaac booted.daemon default (delivered .isAcc msgCodeSucess [])).daemon.records := by
  have none : devObjOf (messageJson CloudMsgCmd.isAcc.code msgCodeSucess []) = none := rfl
  refine (rejected_exact .isaac booted.daemon default _ nofun (by decide)).mpr ⟨?_,fun _ => ?_,nofun⟩
  · rintro _ ⟨⟨⟩,_⟩
    exact fun devObj found => nomatch none.symm.trans found
  · rintro _ ⟨⟨⟩,_⟩
    exact fun _ devObj found => nomatch none.symm.trans found

-- A login reply without acc_time, rejected for it: the new session is in use all the same.
def shortLogin : Exchange := delivered .devLogin msgCodeSucess [[(jasonKey .sessionid,.string (bytes "s2"))]]

theorem rejected_replaces : ¬ ∀ (op : CloudOp) (d : Daemon) (header : MsgHeader) (ex : Exchange),
    (op = .login → ex.sent = msgCodeSucess) →
    (imJsonParseCloud d.records ex.body (op.header header ex)).ret ≠ msgCodeSucess →
      Unchanged d.records (op.run d header ex).daemon.records := by
  intro always
  have same := (always .login booted.daemon default shortLogin (fun _ => rfl) (by decide)).1
  exact absurd (congrArg Stored.sessionId same) (by decide)

end ImAcc
