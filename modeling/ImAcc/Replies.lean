import ImAcc.Announced
import ImAcc.Grammar

-- Cloud replies: their grammar, the records written, and a reply that arrives again.
namespace ImAcc
open JsonC

def Supplied (jsonMsg : Json) (keys : List JsonImCmd) : Prop := ∃ devObj, devObjOf jsonMsg = some devObj ∧
  ∀ key ∈ keys, (supplied (some devObj) key).isSome = true

def RecordSupplied (item : Option Json) : Prop := ∀ key ∈ [JsonImCmd.useTime,.useFlow,.openAccTime],
  (supplied item key).isSome = true

def HistorySupplied (jsonMsg : Json) : Prop := ∃ imData, jsonMsg.objectGet (jasonKey .data) = some imData ∧
  ∀ i < imData.arrayLength, RecordSupplied (imData.arrayGetIdx i)

-- The result of a task is read as the reply it stands for.
def ReplyComplete (state : AccOpenState) (jsonMsg : Json) : CloudMsgCmd → Prop
  | .devLogin => Supplied jsonMsg [.sessionid,.accTime,.ip]
  | .heartBeat => Supplied jsonMsg [.ip]
  | .isAcc => Supplied jsonMsg [.isAcc]
  | .startAcc | .ungetflow | .getflow => Supplied jsonMsg []
  | .getflowInfo => Supplied jsonMsg [.totalFlow,.remainFlow]
  | .getAcclist => HistorySupplied jsonMsg
  | .getAccinfo => Supplied jsonMsg [.accUrl]
  | .getTaskresult => match state with
    | .opening => Supplied jsonMsg []
    | .querying => Supplied jsonMsg [.isAcc]
    | .unset | .closed | .opened => False
  | .devLogout | .getaccFlow | .stopAcc | .countFlow => True

-- A delay is only accepted in one of the two waiting states.
def DelayComplete (state : AccOpenState) (jsonMsg : Json) (kind : CloudMsgCmd) : Prop :=
  state.transient = true ∧ match kind with
  | .isAcc | .startAcc => Supplied jsonMsg [.taskid]
  | .getTaskresult => True
  | _ => False

structure CloudMessage (state : AccOpenState) (jsonMsg : Json) : Prop where
  header : HeaderComplete jsonMsg
  reply : headerCode jsonMsg = msgCodeSucess → ∀ kind : CloudMsgCmd, headerCmd jsonMsg = kind.code →
    ReplyComplete state jsonMsg kind
  delayed : headerCode jsonMsg = msgCodeMsgdelay → ∃ kind : CloudMsgCmd, headerCmd jsonMsg = kind.code ∧
    DelayComplete state jsonMsg kind

theorem withDevObj_supplied (keys : List JsonImCmd)
    (all : ∀ devObj, (body devObj).2 = 0 ↔ ∀ key ∈ keys, (supplied (some devObj) key).isSome = true) :
    (withDevObj r jsonMsg body).2 = 0 ↔ Supplied jsonMsg keys := by
  rw [withDevObj_devObjOf,Supplied]
  cases devObjOf jsonMsg with
  | none => simp
  | some devObj => simpa using all devObj

theorem accHistroyStore_sucess (imData : Json) (state : Records × Int) (valid : 0 ≤ state.2) (i : Nat) :
    0 ≤ (accHistroyStore imData state i).2 ∧
      ((accHistroyStore imData state i).2 = 0 ↔ state.2 = 0 ∧ RecordSupplied (imData.arrayGetIdx i)) := by
  have first := orInto_sucess valid (getCode_nonneg (imData.arrayGetIdx i) .useTime)
  have second := orInto_sucess (orInto_nonneg state.2 (getCode (imData.arrayGetIdx i) .useTime))
    (getCode_nonneg (imData.arrayGetIdx i) .useFlow)
  have third := orInto_sucess (orInto_nonneg (orInto state.2 (getCode (imData.arrayGetIdx i) .useTime))
    (getCode (imData.arrayGetIdx i) .useFlow)) (getCode_nonneg (imData.arrayGetIdx i) .openAccTime)
  simp only [accHistroyStore,imJsonGetInt,imJsonGetInt64,imJsonGet_code]
  refine ⟨orInto_nonneg _ _,?_⟩
  rw [third,second,first]
  simp [RecordSupplied,and_assoc]

theorem acclist_codes (imData : Json) (indices : List Nat) (state : Records × Int) (valid : 0 ≤ state.2) :
    (indices.foldl (accHistroyStore imData) state).2 = 0 ↔
      state.2 = 0 ∧ ∀ i ∈ indices, RecordSupplied (imData.arrayGetIdx i) := by
  induction indices generalizing state with
  | nil => simp
  | cons i rest ih =>
    obtain ⟨nonneg,here⟩ := accHistroyStore_sucess imData state valid i
    rw [List.foldl_cons,ih _ nonneg,here,List.forall_mem_cons,and_assoc]

theorem acclist_accepts (r : Records) (jsonMsg : Json) :
    (imJsonParseDataGetacclistResp r jsonMsg).2 = 0 ↔ HistorySupplied jsonMsg := by
  unfold imJsonParseDataGetacclistResp HistorySupplied
  cases jsonMsg.objectGet (jasonKey .data) with
  | none => simp
  | some imData =>
    dsimp only
    rw [acclist_codes imData _ _ (Int.le_refl 0)]
    simp only [List.mem_range,Option.some.injEq,exists_eq_left']
    exact and_iff_right rfl

theorem orInto_all (devObj : Json) (keys : List JsonImCmd) :
    (keys.map (getCode (some devObj))).foldl orInto msgCodeSucess = 0 ↔
      ∀ key ∈ keys, (supplied (some devObj) key).isSome = true := by
  have codes := foldl_orInto_sucess (keys.map (getCode (some devObj))) (Int.le_refl 0)
    (by intro code member; obtain ⟨key,_,rfl⟩ := List.mem_map.mp member; exact getCode_nonneg _ _)
  rw [msgCodeSucess,codes]
  simp

theorem startacc_accepts (r : Records) (jsonMsg : Json) :
    (imJsonParseDataStartaccResp r jsonMsg).2 = 0 ↔ Supplied jsonMsg [] :=
  withDevObj_supplied [] fun _ => ⟨fun _ => nofun,fun _ => rfl⟩

theorem isacc_accepts (r : Records) (jsonMsg : Json) :
    (imJsonParseDataIsaccResp r jsonMsg).2 = 0 ↔ Supplied jsonMsg [.isAcc] := by
  refine withDevObj_supplied _ fun devObj => ?_
  simp only [imJsonGetInt,imJsonGet_code]
  exact orInto_all devObj [.isAcc]

theorem taskresultData_accepts (r : Records) (jsonMsg : Json) : (taskresultData r jsonMsg).2 = 0 ↔
    ReplyComplete r.speedupinfoResp.imAccState jsonMsg .getTaskresult := by
  unfold taskresultData ReplyComplete
  cases r.speedupinfoResp.imAccState with
  | opening => exact startacc_accepts r jsonMsg
  | querying => exact isacc_accepts r jsonMsg
  | unset | closed | opened => simp

theorem imJsonParseDataCloud_accepts (r : Records) (jsonMsg : Json) (kind : CloudMsgCmd) :
    (imJsonParseDataCloud r jsonMsg kind.code).2 = 0 ↔ ReplyComplete r.speedupinfoResp.imAccState jsonMsg kind := by
  unfold imJsonParseDataCloud
  rw [CloudMsgCmd.ofCode_code]
  cases kind with
  | devLogin =>
    refine withDevObj_supplied _ fun devObj => ?_
    simp only [imJsonGetString,imJsonGetInt,imJsonGet_code]
    exact orInto_all devObj [.sessionid,.accTime,.ip]
  | heartBeat | getAccinfo =>
    refine withDevObj_supplied _ fun devObj => ?_
    simp [imJsonGetString]
  | isAcc => exact isacc_accepts r jsonMsg
  | startAcc => exact startacc_accepts r jsonMsg
  | ungetflow | getflow => exact withDevObj_supplied [] fun _ => ⟨fun _ key member => absurd member List.not_mem_nil,fun _ => rfl⟩
  | getflowInfo =>
    refine withDevObj_supplied _ fun devObj => ?_
    simp only [imJsonGetInt64,imJsonGet_code]
    exact orInto_all devObj [.totalFlow,.remainFlow]
  | getAcclist => exact acclist_accepts r jsonMsg
  | getTaskresult =>
    have data := taskresultData_accepts r jsonMsg
    dsimp only
    unfold imJsonParseDataTaskresultResp
    rw [CloudMsgCmd.ofCode_code]
    cases state : r.speedupinfoResp.imAccState with
    | opening | querying => rw [state] at data; exact data
    | unset | closed | opened =>
      constructor <;> intro impossible <;> cases impossible
  | devLogout | getaccFlow | stopAcc | countFlow => exact ⟨fun _ => trivial,fun _ => rfl⟩

theorem delayed_accepts (r : Records) (jsonMsg : Json) (cmd : Int) :
    (imJsonParseDataTaskresultResp r jsonMsg cmd msgCodeMsgdelay).2 = 0 ↔
      ∃ kind : CloudMsgCmd, cmd = kind.code ∧ DelayComplete r.speedupinfoResp.imAccState jsonMsg kind := by
  have taskid : (imJsonParseDataTaskid r jsonMsg).2 = 0 ↔ Supplied jsonMsg [.taskid] := by
    refine withDevObj_supplied _ fun devObj => ?_
    simp [imJsonGetString]
  unfold imJsonParseDataTaskresultResp DelayComplete
  cases waiting : r.speedupinfoResp.imAccState.transient with
  | false => simp
  | true =>
    cases known : CloudMsgCmd.ofCode cmd with
    | none =>
      refine ⟨fun accepted => absurd (show msgCodeUnknown = 0 from accepted) (by decide),?_⟩
      rintro ⟨kind,number,_⟩
      rw [number,CloudMsgCmd.ofCode_code] at known
      cases known
    | some kind =>
      obtain rfl := CloudMsgCmd.ofCode_exact.mp known
      have only (P : CloudMsgCmd → Prop) : (∃ other : CloudMsgCmd, kind.code = other.code ∧ P other) ↔ P kind := by
        constructor
        · rintro ⟨other,same,holds⟩
          rw [same,CloudMsgCmd.ofCode_code] at known
          cases known
          exact holds
        · exact fun holds => ⟨kind,rfl,holds⟩
      rw [only]
      cases kind with
      | isAcc | startAcc => simpa using taskid
      | _ => simp [msgCodeUnknown,msgCodeSucess,msgCodeMsgdelay]

theorem imJsonParseCloud_answers (complete : HeaderComplete jsonMsg) (r : Records) (h : MsgHeader) :
    let parsed := imJsonParseCloud r (some jsonMsg) h
    (headerCode jsonMsg = msgCodeSucess →
      (parsed.records,parsed.ret) = imJsonParseDataCloud r jsonMsg (headerCmd jsonMsg)) ∧
    (headerCode jsonMsg = msgCodeMsgdelay →
      (parsed.records,parsed.ret) = imJsonParseDataTaskresultResp r jsonMsg (headerCmd jsonMsg) msgCodeMsgdelay) ∧
    (headerCode jsonMsg ≠ msgCodeSucess → headerCode jsonMsg ≠ msgCodeMsgdelay →
      (parsed.records,parsed.ret) = (r,msgCodeSucess)) := by
  have valid : (imJsonParseHeader jsonMsg h).2 = msgCodeSucess := (imJsonParseHeader_sucess jsonMsg h).mpr complete
  obtain ⟨cmd,code⟩ := complete.numbers h
  unfold imJsonParseCloud
  dsimp only
  rw [if_neg (not_not.mpr valid),cmd,code,valid]
  refine ⟨fun success => ?_,fun delay => ?_,fun other neither => ?_⟩
  · rw [if_pos success]
  · rw [if_neg (by rw [delay]; decide),if_pos delay]
  · rw [if_neg other,if_neg neither]

theorem imJsonParseCloud_incomplete (incomplete : ¬HeaderComplete jsonMsg) (r : Records) (h : MsgHeader) :
    (imJsonParseCloud r (some jsonMsg) h).records = r ∧ (imJsonParseCloud r (some jsonMsg) h).ret ≠ msgCodeSucess := by
  have rejected : (imJsonParseHeader jsonMsg h).2 ≠ msgCodeSucess := mt (imJsonParseHeader_sucess jsonMsg h).mp incomplete
  unfold imJsonParseCloud
  dsimp only
  rw [if_pos rejected]
  exact ⟨rfl,rejected⟩

theorem dataCloud_accepts (r : Records) (jsonMsg : Json) (cmd : Int) : (imJsonParseDataCloud r jsonMsg cmd).2 = 0 ↔
    ∀ kind : CloudMsgCmd, cmd = kind.code → ReplyComplete r.speedupinfoResp.imAccState jsonMsg kind := by
  cases known : CloudMsgCmd.ofCode cmd with
  | none =>
    unfold imJsonParseDataCloud
    rw [known]
    refine ⟨fun _ kind number => ?_,fun _ => rfl⟩
    rw [number,CloudMsgCmd.ofCode_code] at known
    cases known
  | some kind =>
    obtain rfl := CloudMsgCmd.ofCode_exact.mp known
    rw [imJsonParseDataCloud_accepts]
    refine ⟨fun data other same => ?_,fun all => all kind rfl⟩
    rw [same,CloudMsgCmd.ofCode_code] at known
    cases known
    exact data

theorem imJsonParseCloud_message (r : Records) (jsonMsg : Json) (h : MsgHeader) :
    (imJsonParseCloud r (some jsonMsg) h).ret = msgCodeSucess ↔ CloudMessage r.speedupinfoResp.imAccState jsonMsg := by
  by_cases complete : HeaderComplete jsonMsg
  · obtain ⟨success,delay,other⟩ := imJsonParseCloud_answers complete r h
    have apart : msgCodeMsgdelay ≠ msgCodeSucess := by decide
    by_cases code : headerCode jsonMsg = msgCodeSucess
    · have ret := congrArg Prod.snd (success code)
      dsimp only at ret
      rw [ret]
      refine (dataCloud_accepts r jsonMsg _).trans ⟨fun data => ⟨complete,fun _ => data,fun delayed => ?_⟩,
        fun message => message.reply code⟩
      exact absurd (delayed.symm.trans code) apart
    by_cases waits : headerCode jsonMsg = msgCodeMsgdelay
    · have ret := congrArg Prod.snd (delay waits)
      dsimp only at ret
      rw [ret]
      exact (delayed_accepts r jsonMsg _).trans
        ⟨fun data => ⟨complete,fun success => absurd success code,fun _ => data⟩,fun message => message.delayed waits⟩
    · have ret := congrArg Prod.snd (other code waits)
      dsimp only at ret
      rw [ret]
      exact ⟨fun _ => ⟨complete,fun success => absurd success code,fun delayed => absurd delayed waits⟩,fun _ => rfl⟩
  · exact ⟨fun accepted => absurd accepted (imJsonParseCloud_incomplete complete r h).2,
      fun message => absurd message.header complete⟩

-- before, with the records that belong to the reply as they are in after.
def ownReply (state : AccOpenState) (kind : Option CloudMsgCmd) (before after : Records) : Records := match kind with
  | some .devLogin => {before with
    loginResp := after.loginResp
    acc := {before.acc with imSessionId := after.acc.imSessionId}
    countflowCmd := {before.countflowCmd with imSessionId := after.countflowCmd.imSessionId}
    getaacflowCmd := {before.getaacflowCmd with imSessionId := after.getaacflowCmd.imSessionId}
    taskresultCmd := {before.taskresultCmd with imSessionId := after.taskresultCmd.imSessionId}
    uci := {before.uci with imIp := after.uci.imIp}}
  | some .heartBeat => {before with heartbeatResp := after.heartbeatResp}
  | some .isAcc => {before with isaccResp := after.isaccResp}
  | some .startAcc => {before with startaccResp := after.startaccResp}
  | some .getflowInfo => {before with flowinfoResp := {after.flowinfoResp with
    imAccRemaintime := before.flowinfoResp.imAccRemaintime}}
  | some .getAcclist => {before with acclistResp := after.acclistResp}
  | some .getAccinfo => {before with accspec := after.accspec}
  | some .getTaskresult => match state with
    | .opening => {before with
      startaccResp := after.startaccResp
      speedupinfoResp := {after.speedupinfoResp with
        imAccState := before.speedupinfoResp.imAccState
        imIsAcc := before.speedupinfoResp.imIsAcc}
      uci := {after.uci with imAccBandwidth := before.uci.imAccBandwidth,imIp := before.uci.imIp}}
    | .querying => {before with
      isaccResp := after.isaccResp
      speedupinfoResp := {after.speedupinfoResp with
        imAccState := before.speedupinfoResp.imAccState
        imAccBandwidth := before.speedupinfoResp.imAccBandwidth}
      uci := {after.uci with imAccBandwidth := before.uci.imAccBandwidth,imIp := before.uci.imIp}}
    | .unset | .closed | .opened => before
  | some .devLogout | some .getaccFlow | some .stopAcc | some .countFlow | some .ungetflow | some .getflow | none => before

theorem acclist_owns (imData : Json) (n : Nat) (state : Records × Int) :
    ((List.range n).foldl (accHistroyStore imData) state).1 =
      {state.1 with acclistResp := ((List.range n).foldl (accHistroyStore imData) state).1.acclistResp} := by
  obtain ⟨slots,made,_⟩ := acclist_records imData (List.range n) List.nodup_range state
  rw [made]

theorem startacc_owns (r : Records) (jsonMsg : Json) : (imJsonParseDataStartaccResp r jsonMsg).1 =
    {r with startaccResp := (imJsonParseDataStartaccResp r jsonMsg).1.startaccResp} :=
  withDevObj_written (fun before after => {before with startaccResp := after.startaccResp}) rfl fun _ => rfl

theorem isacc_owns (r : Records) (jsonMsg : Json) : (imJsonParseDataIsaccResp r jsonMsg).1 =
    {r with isaccResp := (imJsonParseDataIsaccResp r jsonMsg).1.isaccResp} :=
  withDevObj_written (fun before after => {before with isaccResp := after.isaccResp}) rfl fun _ => rfl

theorem taskresultData_owns (r : Records) (jsonMsg : Json) (waits : r.speedupinfoResp.imAccState.transient = true) :
    (taskresultData r jsonMsg).1 =
      ownReply r.speedupinfoResp.imAccState (some .getTaskresult) r (taskresultData r jsonMsg).1 := by
  cases state : r.speedupinfoResp.imAccState with
  | opening =>
    have start := startacc_owns r jsonMsg
    have data : (taskresultData r jsonMsg).1 =
        configWriteImAcc (adopt speedupinfoOfStart (imJsonParseDataStartaccResp r jsonMsg)).1 := by
      rw [taskresultData,state]
    rw [data]
    unfold adopt ownReply
    generalize imJsonParseDataStartaccResp r jsonMsg = parsed at start ⊢
    rw [start]
    split <;> rfl
  | querying =>
    have query := isacc_owns r jsonMsg
    have data : (taskresultData r jsonMsg).1 =
        configWriteImAcc (adopt speedupinfoOfIsacc (imJsonParseDataIsaccResp r jsonMsg)).1 := by
      rw [taskresultData,state]
    rw [data]
    unfold adopt ownReply
    generalize imJsonParseDataIsaccResp r jsonMsg = parsed at query ⊢
    rw [query]
    split <;> rfl
  | unset | closed | opened =>
    rw [state] at waits
    cases waits

theorem imJsonParseDataCloud_owns (r : Records) (jsonMsg : Json) (cmd : Int) : (imJsonParseDataCloud r jsonMsg cmd).1 =
    ownReply r.speedupinfoResp.imAccState (CloudMsgCmd.ofCode cmd) r (imJsonParseDataCloud r jsonMsg cmd).1 := by
  unfold imJsonParseDataCloud
  cases CloudMsgCmd.ofCode cmd with
  | none => rfl
  | some kind =>
    cases kind with
    | getAcclist =>
      dsimp only [ownReply]
      unfold imJsonParseDataGetacclistResp
      split
      · rfl
      · exact acclist_owns _ _ _
    | getTaskresult =>
      have data := taskresultData_owns r jsonMsg
      dsimp only
      unfold imJsonParseDataTaskresultResp
      rw [CloudMsgCmd.ofCode_code]
      cases waits : r.speedupinfoResp.imAccState.transient with
      | false =>
        rw [if_pos rfl]
        cases r.speedupinfoResp.imAccState <;> rfl
      | true => exact data waits
    | devLogout | getaccFlow | stopAcc | countFlow => rfl
    | startAcc => exact startacc_owns r jsonMsg
    | isAcc => exact isacc_owns r jsonMsg
    | devLogin | heartBeat | getflowInfo | getAccinfo | ungetflow | getflow =>
      exact withDevObj_written (ownReply r.speedupinfoResp.imAccState _) rfl fun _ => rfl

theorem delayed_owns (r : Records) (jsonMsg : Json) (cmd : Int) :
    let parsed := imJsonParseDataTaskresultResp r jsonMsg cmd msgCodeMsgdelay
    parsed.1 = {r with taskresultCmd := {r.taskresultCmd with imTaskid := parsed.1.taskresultCmd.imTaskid}} := by
  have taskid : (imJsonParseDataTaskid r jsonMsg).1 =
      {r with taskresultCmd :=
        {r.taskresultCmd with imTaskid := (imJsonParseDataTaskid r jsonMsg).1.taskresultCmd.imTaskid}} :=
    withDevObj_written (fun before after =>
      {before with taskresultCmd := {before.taskresultCmd with imTaskid := after.taskresultCmd.imTaskid}}) rfl fun _ => rfl
  dsimp only
  unfold imJsonParseDataTaskresultResp
  split
  · rfl
  · cases CloudMsgCmd.ofCode cmd with
    | none => rfl
    | some kind =>
      cases kind with
      | isAcc | startAcc => exact taskid
      | _ => rfl

-- What is accepted, and all that either verdict writes.
theorem imJsonParseCloud_grammar (r : Records) (jsonMsg : Json) (h : MsgHeader) :
    let parsed := imJsonParseCloud r (some jsonMsg) h
    let state := r.speedupinfoResp.imAccState
    (parsed.ret = msgCodeSucess ↔ CloudMessage state jsonMsg) ∧
    (HeaderComplete jsonMsg → headerCode jsonMsg = msgCodeSucess →
      parsed.records = ownReply state (CloudMsgCmd.ofCode (headerCmd jsonMsg)) r parsed.records) ∧
    (HeaderComplete jsonMsg → headerCode jsonMsg = msgCodeMsgdelay → parsed.records =
      {r with taskresultCmd := {r.taskresultCmd with imTaskid := parsed.records.taskresultCmd.imTaskid}}) ∧
    (¬(HeaderComplete jsonMsg ∧ (headerCode jsonMsg = msgCodeSucess ∨ headerCode jsonMsg = msgCodeMsgdelay)) →
      parsed.records = r) := by
  refine ⟨imJsonParseCloud_message r jsonMsg h,fun complete code => ?_,fun complete code => ?_,fun neither => ?_⟩
  · have parsed := congrArg Prod.fst ((imJsonParseCloud_answers complete r h).1 code)
    dsimp only at parsed ⊢
    rw [parsed]
    exact imJsonParseDataCloud_owns r jsonMsg _
  · have parsed := congrArg Prod.fst ((imJsonParseCloud_answers complete r h).2.1 code)
    dsimp only at parsed ⊢
    rw [parsed]
    exact delayed_owns r jsonMsg _
  · by_cases complete : HeaderComplete jsonMsg
    · have parsed := (imJsonParseCloud_answers complete r h).2.2 (fun code => neither ⟨complete,.inl code⟩)
        fun code => neither ⟨complete,.inr code⟩
      exact congrArg Prod.fst parsed
    · exact (imJsonParseCloud_incomplete complete r h).1

theorem getD_again (found : Option α) (value : α) : found.getD (found.getD value) = found.getD value := by
  cases found <;> rfl

theorem withDevObj_again {body : Records → Json → Records × Int} (parse : Records → Records × Int)
    (shape : ∀ r, parse r = withDevObj r jsonMsg (body r))
    (again : ∀ devObj, body (body r devObj).1 devObj = body r devObj) :
    parse (parse r).1 = parse r := by
  simp only [shape,withDevObj_devObjOf]
  cases devObjOf jsonMsg with
  | none => rfl
  | some devObj => exact again devObj

theorem imJsonParseHeader_again (jsonMsg : Json) (h : MsgHeader) :
    imJsonParseHeader jsonMsg (imJsonParseHeader jsonMsg h).1 = imJsonParseHeader jsonMsg h := by
  unfold imJsonParseHeader
  cases jsonMsg.objectGet (jasonKey .header) with
  | none => rfl
  | some jsonHeader => simp only [imJsonGetInt,imJsonGetString,imJsonGet_value,imJsonGet_code,getD_again]

theorem startacc_steady (same : s.startaccResp = (imJsonParseDataStartaccResp r jsonMsg).1.startaccResp) :
    imJsonParseDataStartaccResp s jsonMsg = (s,(imJsonParseDataStartaccResp r jsonMsg).2) := by
  unfold imJsonParseDataStartaccResp at same ⊢
  rw [withDevObj_devObjOf] at same ⊢
  rw [withDevObj_devObjOf]
  cases found : devObjOf jsonMsg with
  | none => rfl
  | some devObj =>
    rw [found] at same
    dsimp only [Option.elim] at same ⊢
    simp only [imJsonGetInt,imJsonGet_value] at same ⊢
    simp only [same,getD_again]
    rw [← same]

theorem isacc_steady (same : s.isaccResp = (imJsonParseDataIsaccResp r jsonMsg).1.isaccResp) :
    imJsonParseDataIsaccResp s jsonMsg = (s,(imJsonParseDataIsaccResp r jsonMsg).2) := by
  unfold imJsonParseDataIsaccResp at same ⊢
  rw [withDevObj_devObjOf] at same ⊢
  rw [withDevObj_devObjOf]
  cases found : devObjOf jsonMsg with
  | none => rfl
  | some devObj =>
    rw [found] at same
    dsimp only [Option.elim] at same ⊢
    simp only [imJsonGetInt,imJsonGet_value,imJsonGet_code] at same ⊢
    simp only [same,getD_again]
    rw [← same]

theorem historyOf_again (bits : Nat) (devObj : Option Json) (slot : AccHistroy) :
    historyOf bits devObj (historyOf bits devObj slot) = historyOf bits devObj slot := by
  simp only [historyOf,getD_again]

theorem acclist_again (r : Records) (jsonMsg : Json) :
    imJsonParseDataGetacclistResp (imJsonParseDataGetacclistResp r jsonMsg).1 jsonMsg =
      imJsonParseDataGetacclistResp r jsonMsg := by
  unfold imJsonParseDataGetacclistResp
  cases jsonMsg.objectGet (jasonKey .data) with
  | none => rfl
  | some imData =>
    dsimp only
    refine Prod.ext ?_ (acclist_ret _ rfl)
    obtain ⟨slots,made,each⟩ := acclist_records imData (List.range imData.arrayLength) List.nodup_range (r,msgCodeSucess)
    rw [made]
    obtain ⟨slots',made',each'⟩ := acclist_records imData (List.range imData.arrayLength) List.nodup_range
      ({r with acclistResp := slots},msgCodeSucess)
    rw [made']
    have same : slots' = slots := by
      refine List.ext_getElem? fun j => ?_
      rw [each' j]
      dsimp only
      rw [each j]
      split
      · rw [Option.map_map]
        exact congrArg (Option.map · _) (funext fun slot => historyOf_again _ _ slot)
      · rfl
    rw [same]

theorem taskresultData_again (r : Records) (jsonMsg : Json) (waits : r.speedupinfoResp.imAccState.transient = true) :
    taskresultData (taskresultData r jsonMsg).1 jsonMsg = taskresultData r jsonMsg := by
  have kept := (taskresultData_frame r jsonMsg).accState
  cases state : r.speedupinfoResp.imAccState with
  | opening =>
    rw [state] at kept
    have shape (s : Records) (opening : s.speedupinfoResp.imAccState = .opening) : taskresultData s jsonMsg =
        let parsed := adopt speedupinfoOfStart (imJsonParseDataStartaccResp s jsonMsg)
        (configWriteImAcc parsed.1,parsed.2) := by rw [taskresultData,opening]
    rw [shape _ kept,shape r state]
    have steady : (configWriteImAcc (adopt speedupinfoOfStart (imJsonParseDataStartaccResp r jsonMsg)).1).startaccResp =
        (imJsonParseDataStartaccResp r jsonMsg).1.startaccResp := by
      unfold adopt
      split <;> rfl
    dsimp only
    rw [startacc_steady steady]
    unfold adopt
    dsimp only
    split <;> rfl
  | querying =>
    rw [state] at kept
    have shape (s : Records) (querying : s.speedupinfoResp.imAccState = .querying) : taskresultData s jsonMsg =
        let parsed := adopt speedupinfoOfIsacc (imJsonParseDataIsaccResp s jsonMsg)
        (configWriteImAcc parsed.1,parsed.2) := by rw [taskresultData,querying]
    rw [shape _ kept,shape r state]
    have steady : (configWriteImAcc (adopt speedupinfoOfIsacc (imJsonParseDataIsaccResp r jsonMsg)).1).isaccResp =
        (imJsonParseDataIsaccResp r jsonMsg).1.isaccResp := by
      unfold adopt
      split <;> rfl
    dsimp only
    rw [isacc_steady steady]
    unfold adopt
    dsimp only
    split <;> rfl
  | unset | closed | opened =>
    rw [state] at waits
    cases waits

theorem imJsonParseDataTaskresultResp_again (r : Records) (jsonMsg : Json) (cmd errcode : Int) :
    imJsonParseDataTaskresultResp (imJsonParseDataTaskresultResp r jsonMsg cmd errcode).1 jsonMsg cmd errcode =
      imJsonParseDataTaskresultResp r jsonMsg cmd errcode := by
  have kept := (imJsonParseDataTaskresultResp_frame r jsonMsg cmd errcode).accState
  have taskid : imJsonParseDataTaskid (imJsonParseDataTaskid r jsonMsg).1 jsonMsg = imJsonParseDataTaskid r jsonMsg := by
    refine withDevObj_again (imJsonParseDataTaskid · jsonMsg) (fun _ => rfl) fun devObj => ?_
    simp only [imJsonGetString,imJsonGet_value,imJsonGet_code,getD_again]
  cases waits : r.speedupinfoResp.imAccState.transient with
  | false =>
    have refused : imJsonParseDataTaskresultResp r jsonMsg cmd errcode = (r,msgCodeUnknown) := if_pos waits
    rw [refused,refused]
  | true =>
    have asked (s : Records) (same : s.speedupinfoResp.imAccState = r.speedupinfoResp.imAccState) :
        ¬s.speedupinfoResp.imAccState.transient = false := by
      rw [same,waits]
      exact Bool.noConfusion
    unfold imJsonParseDataTaskresultResp at kept ⊢
    rw [if_neg (asked r rfl)] at kept ⊢
    rw [if_neg (asked _ kept)]
    cases CloudMsgCmd.ofCode cmd with
    | none => rfl
    | some kind =>
      cases kind with
      | isAcc | startAcc =>
        dsimp only
        split
        · rfl
        · exact taskid
      | getTaskresult =>
        dsimp only
        split
        · rfl
        · exact taskresultData_again r jsonMsg waits
      | _ => rfl

theorem imJsonParseDataCloud_again (r : Records) (jsonMsg : Json) (cmd : Int) :
    imJsonParseDataCloud (imJsonParseDataCloud r jsonMsg cmd).1 jsonMsg cmd = imJsonParseDataCloud r jsonMsg cmd := by
  unfold imJsonParseDataCloud
  cases CloudMsgCmd.ofCode cmd with
  | none => rfl
  | some kind =>
    cases kind with
    | devLogin =>
      refine withDevObj_again (imJsonParseDataLoginResp · jsonMsg) (fun _ => rfl) fun devObj => ?_
      simp only [imJsonGetString,imJsonGetInt,imJsonGet_value,imJsonGet_code,imInitSession,uciSetIp,getD_again]
    | heartBeat =>
      refine withDevObj_again (imJsonParseDataHeartbeatResp · jsonMsg) (fun _ => rfl) fun devObj => ?_
      simp only [imJsonGetString,imJsonGet_value,imJsonGet_code,getD_again]
    | getAccinfo =>
      refine withDevObj_again (imJsonParseDataGetaccinfoResp · jsonMsg) (fun _ => rfl) fun devObj => ?_
      simp only [imJsonGetString,imJsonGet_value,imJsonGet_code,getD_again]
    | getflowInfo =>
      refine withDevObj_again (imJsonParseDataGetflowinfoResp · jsonMsg) (fun _ => rfl) fun devObj => ?_
      simp only [imJsonGetInt64,imJsonGet_value,imJsonGet_code,getD_again]
    | isAcc => exact isacc_steady rfl
    | startAcc => exact startacc_steady rfl
    | ungetflow => exact withDevObj_again (imJsonParseDataUngetflowResp · jsonMsg) (fun _ => rfl) fun _ => rfl
    | getflow => exact withDevObj_again (imJsonParseDataGetflowResp · jsonMsg) (fun _ => rfl) fun _ => rfl
    | getAcclist => exact acclist_again r jsonMsg
    | getTaskresult => exact imJsonParseDataTaskresultResp_again r jsonMsg _ _
    | devLogout | getaccFlow | stopAcc | countFlow => rfl

theorem imJsonParseCloud_again (r : Records) (pMsg : Option Json) (h : MsgHeader) :
    imJsonParseCloud (imJsonParseCloud r pMsg h).records pMsg (imJsonParseCloud r pMsg h).header =
      imJsonParseCloud r pMsg h := by
  cases pMsg with
  | none => rfl
  | some jsonMsg =>
    rw [imJsonParseCloud_parsed]
    unfold imJsonParseCloud
    dsimp only
    rw [imJsonParseHeader_again]
    split
    · rfl
    split
    · rw [imJsonParseDataCloud_again]
    split
    · rw [imJsonParseDataTaskresultResp_again]
    · rfl

theorem iosinfoFree_again (new : IosinfoCmd) (table : List IosinfoCmd) (free : new.devicetoken = []) :
    iosinfoFree new (iosinfoFree new table) = iosinfoFree new table := by
  induction table with
  | nil => rfl
  | cons slot rest ih =>
    by_cases empty : slot.devicetoken = []
    · have here : iosinfoFree new (slot :: rest) = new :: rest := if_pos empty
      rw [here]
      exact if_pos free
    · have later (slots : List IosinfoCmd) : iosinfoFree new (slot :: slots) = slot :: iosinfoFree new slots := if_neg empty
      rw [later,later,ih]

theorem iosinfoFree_token (new : IosinfoCmd) (table : List IosinfoCmd) :
    new ∈ iosinfoFree new table ∨ iosinfoFree new table = table := by
  induction table with
  | nil => exact .inr rfl
  | cons slot rest ih =>
    unfold iosinfoFree
    split
    · exact .inl List.mem_cons_self
    · rcases ih with taken | full
      · exact .inl (List.mem_cons_of_mem _ taken)
      · exact .inr (congrArg (slot :: ·) full)

theorem iosinfoRegister_again (new : IosinfoCmd) (table : List IosinfoCmd) :
    iosinfoRegister new (iosinfoRegister new table) = iosinfoRegister new table := by
  by_cases known : (table.any fun slot => slot.devicetoken ≠ [] && new.devicetoken = slot.devicetoken) = true
  · have kept : iosinfoRegister new table = table := if_pos known
    rw [kept,kept]
  · have added : iosinfoRegister new table = iosinfoFree new table := if_neg known
    rw [added]
    by_cases free : new.devicetoken = []
    · have unknown : ¬((iosinfoFree new table).any fun slot =>
          slot.devicetoken ≠ [] && new.devicetoken = slot.devicetoken) = true := by
        intro some
        obtain ⟨slot,_,both⟩ := List.any_eq_true.mp some
        rw [Bool.and_eq_true,decide_eq_true_eq,decide_eq_true_eq] at both
        exact both.1 (both.2.symm.trans free)
      exact (if_neg unknown).trans (iosinfoFree_again new table free)
    · rcases iosinfoFree_token new table with taken | full
      · exact if_pos (List.any_eq_true.mpr ⟨new,taken,by simpa using free⟩)
      · rw [full]
        exact added.trans full

theorem imJsonParseDataTerminal_again (r : Records) (jsonMsg : Json) (cmd : Int) :
    imJsonParseDataTerminal (imJsonParseDataTerminal r jsonMsg cmd).1 jsonMsg cmd =
      imJsonParseDataTerminal r jsonMsg cmd := by
  unfold imJsonParseDataTerminal
  cases TermMsgCmd.ofCode cmd with
  | none => rfl
  | some kind =>
    cases kind with
    | startAcc | stopAcc =>
      refine withDevObj_again (imJsonParseDataSpeedup · jsonMsg) (fun _ => rfl) fun devObj => ?_
      simp only [imJsonGetString,imJsonGet_value,imJsonGet_code,getD_again]
    | getflow =>
      refine withDevObj_again (imJsonParseDataGetflow · jsonMsg) (fun _ => rfl) fun devObj => ?_
      simp only [imJsonGetString,imJsonGet_value,imJsonGet_code,getD_again]
    | keepacc =>
      refine withDevObj_again (imJsonParseDataKeepacc · jsonMsg) (fun _ => rfl) fun devObj => ?_
      simp only [imJsonGetInt,imJsonGet_value,imJsonGet_code,getD_again]
    | iosinfo =>
      refine withDevObj_again (imJsonParseDataIosinfo · jsonMsg) (fun _ => rfl) fun devObj => ?_
      dsimp only
      split
      · dsimp only
        rw [iosinfoRegister_again]
      · rfl
    | accStateInfo | getflowInfo | ungettedflow | peakflow | getAcclist => rfl

theorem imJsonParseTerminal_again (r : Records) (pMsg : Option Json) :
    imJsonParseTerminal (imJsonParseTerminal r pMsg).1 pMsg = imJsonParseTerminal r pMsg := by
  cases pMsg with
  | none => rfl
  | some jsonMsg =>
    by_cases complete : HeaderComplete jsonMsg
    · have header := imJsonParseDataTerminal_header {r with cmdHeader := (imJsonParseHeader jsonMsg r.cmdHeader).1} jsonMsg
        (headerCmd jsonMsg)
      have again := imJsonParseDataTerminal_again {r with cmdHeader := (imJsonParseHeader jsonMsg r.cmdHeader).1} jsonMsg
        (headerCmd jsonMsg)
      rw [imJsonParseTerminal_complete complete r]
      generalize imJsonParseDataTerminal _ jsonMsg (headerCmd jsonMsg) = parsed at header again ⊢
      have same : {parsed.1 with cmdHeader := (imJsonParseHeader jsonMsg r.cmdHeader).1} = parsed.1 := by
        dsimp only at header
        rw [← header]
      rw [imJsonParseTerminal_complete complete,header,imJsonParseHeader_again,same]
      exact again
    · rw [imJsonParseTerminal_rejected complete r,imJsonParseTerminal_rejected complete]
      dsimp only
      rw [imJsonParseHeader_again]

-- A message that is delivered again changes nothing and is answered alike.
theorem parse_again (r : Records) (pMsg : Option Json) (h : MsgHeader) :
    imJsonParseTerminal (imJsonParseTerminal r pMsg).1 pMsg = imJsonParseTerminal r pMsg ∧
    imJsonParseCloud (imJsonParseCloud r pMsg h).records pMsg (imJsonParseCloud r pMsg h).header =
      imJsonParseCloud r pMsg h :=
  ⟨imJsonParseTerminal_again r pMsg,imJsonParseCloud_again r pMsg h⟩

end ImAcc
