import ImAcc.Answers

-- The plan through the uci section to a later process, the quota from cloud to terminal.
namespace ImAcc
open JsonC Rounds

structure Restored (written read : SpeedupInfoResp) : Prop where
  imIsAcc : read.imIsAcc = written.imIsAcc
  imIsp : read.imIsp = written.imIsp
  imCurBandwidth : read.imCurBandwidth = written.imCurBandwidth
  imMaxBandwidth : read.imMaxBandwidth = written.imMaxBandwidth
  imAccBandwidth : read.imAccBandwidth = written.imAccBandwidth
  imAccRemaintime : read.imAccRemaintime = written.imAccRemaintime

def rereadImAcc (bits : Nat) (r : Records) : SpeedupInfoResp :=
  (configReadImAcc (Records.boot bits (configWriteImAcc r).uci)).speedupinfoResp

theorem rereadImAcc_kept (bits : Nat) (r : Records) : rereadImAcc bits r =
    {r.speedupinfoResp with
      imAccState := default
      imAccBandwidth := r.uci.imAccBandwidth.getD 0} := rfl

theorem restored_exact (bits : Nat) (r : Records) : Restored r.speedupinfoResp (rereadImAcc bits r) ↔
    r.uci.imAccBandwidth.getD 0 = r.speedupinfoResp.imAccBandwidth := by
  rw [rereadImAcc_kept]
  constructor
  · intro restored
    exact restored.imAccBandwidth
  · intro same
    exact ⟨rfl,rfl,rfl,rfl,same,rfl⟩

-- On a fresh device a bandwidth of 5 comes back as 0.
theorem restored_fresh : ¬ ∀ (bits : Nat) (r : Records), Restored r.speedupinfoResp (rereadImAcc bits r) := by
  intro always
  let plan : SpeedupInfoResp := {(default : SpeedupInfoResp) with imAccBandwidth := 5}
  have restored := always 32 {Records.boot 32 default with speedupinfoResp := plan}
  exact absurd restored.imAccBandwidth (by decide)

-- A CMD_GETFLOW_INFO reply with these two quotas, whose numbers json-c has cut to an int64.
structure FlowReply (jsonMsg : Json) (total remain : Nat) : Prop where
  complete : HeaderComplete jsonMsg
  command : headerCmd jsonMsg = CloudMsgCmd.getflowInfo.code
  success : headerCode jsonMsg = msgCodeSucess
  data : ∃ devObj, devObjOf jsonMsg = some devObj ∧ Supplies (some devObj) .totalFlow (Json.clamp 64 total) ∧
    Supplies (some devObj) .remainFlow (Json.clamp 64 remain)

def flowHeld (bits quota : Nat) : Nat := toUlong bits (Json.clamp 64 quota)

theorem flowHeld_told (wide : 32 ≤ bits) (quota : Nat) :
    newIntOfUlong (flowHeld bits quota) = .int quota ↔ quota < 2^31 := by
  constructor
  · intro same
    have told := Json.int.inj same
    have below := Int.bmod_lt (x := (flowHeld bits quota : Int)) (m := 2^32) (by decide)
    rw [told] at below
    omega
  · intro small
    have fits : Json.clamp 64 quota = quota := by
      unfold Json.clamp
      omega
    unfold flowHeld
    rw [fits]
    exact newIntOfUlong_toUlong wide (clamp_range.mpr (by omega))

def flowStored (r : Records) (total remain : Nat) : Records :=
  {r with flowinfoResp := ⟨flowHeld r.ulongBits total,flowHeld r.ulongBits remain,r.flowinfoResp.imAccRemaintime⟩}

theorem FlowReply.parsed (reply : FlowReply jsonMsg total remain) (r : Records) (h : MsgHeader) :
    (imJsonParseCloud r (some jsonMsg) h).ret = msgCodeSucess ∧
      (imJsonParseCloud r (some jsonMsg) h).header.imCode = msgCodeSucess ∧
      (imJsonParseCloud r (some jsonMsg) h).records = flowStored r total remain := by
  obtain ⟨devObj,found,⟨whole,wholeFound,wholeRead⟩,left,leftFound,leftRead⟩ := reply.data
  rw [Option.mem_def] at wholeFound leftFound
  have stored : imJsonParseDataGetflowinfoResp r jsonMsg = (flowStored r total remain,msgCodeSucess) := by
    rw [imJsonParseDataGetflowinfoResp,withDevObj_devObjOf,found]
    simp only [Option.elim,imJsonGetInt64,imJsonGet_value,imJsonGet_code,getCode_sucess.mpr (Option.isSome_of_mem wholeFound),
      getCode_sucess.mpr (Option.isSome_of_mem leftFound),wholeFound,leftFound,Option.map_some,Option.getD_some,wholeRead,leftRead]
    rfl
  obtain ⟨header,code,parsed⟩ := reply.complete.carries reply.command reply.success r h
  rw [parsed]
  exact ⟨congrArg Prod.snd stored,code,congrArg Prod.fst stored⟩

theorem imJsonMakeTermresFlowinfo_quotas (r : Records) : ∃ devObj,
    (imJsonMakeTermresFlowinfo r .empty).2.json = .array [devObj] ∧
      devObj.objectGet (jasonKey .totalFlow) = some (newIntOfUlong r.flowinfoResp.imTotalFlow) ∧
      devObj.objectGet (jasonKey .remainFlow) = some (newIntOfUlong r.flowinfoResp.imRemainFlow) := by
  unfold imJsonMakeTermresFlowinfo
  dsimp only
  split
  · exact ⟨_,rfl,rfl,rfl⟩
  · exact ⟨_,rfl,rfl,rfl⟩

def flowAnswer (d : Daemon) : Daemon × TermData :=
  ({d with records := (imJsonMakeTermresFlowinfo d.records .empty).1},(imJsonMakeTermresFlowinfo d.records .empty).2)

theorem getflowInfoRetry_told (reply : FlowReply jsonMsg total remain) (header : MsgHeader) (d : Daemon) (sent : Int)
    (stack : MsgHeader) : ∃ h, getflowInfoRetry header d [⟨sent,some jsonMsg,stack⟩] = some h ∧ h.rest = [] ∧
      h.errcode = msgCodeSucess ∧ h.daemon.records.ulongBits = d.records.ulongBits ∧
      h.data = (imJsonMakeTermresFlowinfo (flowStored d.records total remain) .empty).2 := by
  obtain ⟨ret,code,records⟩ := reply.parsed d.records header
  have width := congrArg Records.ulongBits records
  refine ⟨_,cloudRetry_success ret code,rfl,rfl,?_,?_⟩
  · exact width
  · rw [← records]
    rfl

def FlowRelayed (w : World) (pMsg : Json) (thread : Option MsgHeader) (header : MsgHeader) (replies : List Exchange)
    (total remain : Nat) : Prop :=
  ∃ next msg devObj, step w (.message (some pMsg) thread header replies) = some next ∧
    next.daemon.answers = w.daemon.answers ++ [msg] ∧ msg.objectGet (jasonKey .data) = some (.array [devObj]) ∧
    devObj.objectGet (jasonKey .totalFlow) = some (.int total) ∧
    devObj.objectGet (jasonKey .remainFlow) = some (.int remain)

theorem flow_told (asked : HeaderComplete pMsg) (cmd : headerCmd pMsg = TermMsgCmd.getflowInfo.code)
    (reply : FlowReply jsonMsg total remain)
    (queried : afterRounds (stale w.daemon.accState) logsIn replies = [⟨sent,some jsonMsg,stack⟩])
    (thread : Option MsgHeader) (header : MsgHeader) : ∃ next msg devObj bits,
      step w (.message (some pMsg) thread header replies) = some next ∧ next.daemon.records.ulongBits = bits ∧
      next.daemon.answers = w.daemon.answers ++ [msg] ∧ msg.objectGet (jasonKey .data) = some (.array [devObj]) ∧
      devObj.objectGet (jasonKey .totalFlow) = some (newIntOfUlong (flowHeld bits total)) ∧
      devObj.objectGet (jasonKey .remainFlow) = some (newIntOfUlong (flowHeld bits remain)) := by
  obtain ⟨found,parsed,command⟩ := received_bare asked cmd rfl w.daemon
  have switched : terminalSwitch thread.isSome header (received w.daemon (some pMsg)).1 replies =
      cloudRetry (exchangeWith fun d => imJsonMakeCmdGetflowInfo d.records.loginResp) flowAnswer header
        (received w.daemon (some pMsg)).1 replies := by
    unfold terminalSwitch
    rw [parsed,command]
    rfl
  have cycles : Cycles (fun s : MsgHeader × Daemon =>
      cloudRetry (exchangeWith fun d => imJsonMakeCmdGetflowInfo d.records.loginResp) flowAnswer s.1 s.2) _ _ _ _ _ :=
    cloudRetry_cycles (fun _ => rfl) w.daemon.accState w.daemon.answers
  have ready : Awaits w.daemon.accState w.daemon.answers (header,(received w.daemon (some pMsg)).1) := by
    rw [parsed]
    exact ⟨rfl,rfl⟩
  obtain ⟨mid,⟨_,quiet⟩,same⟩ := cycles.settled ready replies
  obtain ⟨h,ran,rest,code,width,data⟩ := getflowInfoRetry_told reply mid.1 mid.2 sent stack
  have told : terminalSwitch thread.isSome header (received w.daemon (some pMsg)).1 replies = some h := by
    rw [switched]
    refine same.trans ?_
    rw [queried]
    exact ran
  obtain ⟨devObj,shown,whole,left⟩ := imJsonMakeTermresFlowinfo_quotas (flowStored mid.2.records total remain)
  obtain ⟨msg,made,carried⟩ := respone_data asked h.errcode [devObj]
  rw [← shown,← data] at made
  refine ⟨_,msg,devObj,mid.2.records.ulongBits,message_step (congrArg Prod.snd parsed) told rest,?_,?_,carried,whole,left⟩
  · dsimp only [Daemon.reply]
    rw [made]
    exact width
  · dsimp only
    rw [Daemon.reply_answers,made,terminalSwitch_answers told,ready.2]
    rfl

-- Exactly the quotas that fit the int they are told in are relayed.
theorem flowRelayed_exact (path : Reached Transition.free (World.boot bits uci lanIp login) w) (wide : 32 ≤ bits)
    (asked : HeaderComplete pMsg) (cmd : headerCmd pMsg = TermMsgCmd.getflowInfo.code)
    (reply : FlowReply jsonMsg total remain)
    (queried : afterRounds (stale w.daemon.accState) logsIn replies = [⟨sent,some jsonMsg,stack⟩])
    (thread : Option MsgHeader) (header : MsgHeader) :
    FlowRelayed w pMsg thread header replies total remain ↔ total < 2^31 ∧ remain < 2^31 := by
  obtain ⟨next,msg,devObj,width,taken,same,sent,carried,whole,left⟩ := flow_told asked cmd reply queried thread header
  have tabled := reached_keeps path (tabled_kept bits) (boot_tabled bits uci lanIp login)
  have kept := step_keeps (tabled_kept bits) tabled taken
  rw [← same,kept.1] at whole left
  constructor
  · rintro ⟨next',msg',devObj',taken',sent',carried',whole',left'⟩
    rw [taken] at taken'
    cases taken'
    have one : msg = msg' := by simpa using sent.symm.trans sent'
    rw [← one,carried] at carried'
    cases carried'
    rw [whole] at whole'
    rw [left] at left'
    exact ⟨(flowHeld_told wide total).mp (Option.some.inj whole'),(flowHeld_told wide remain).mp (Option.some.inj left')⟩
  · rintro ⟨small,small'⟩
    rw [(flowHeld_told wide total).mpr small] at whole
    rw [(flowHeld_told wide remain).mpr small'] at left
    exact ⟨next,msg,devObj,taken,sent,carried,whole,left⟩

def quotaReply (total remain : Int) : Json :=
  messageJson CloudMsgCmd.getflowInfo.code msgCodeSucess
    [[(jasonKey .totalFlow,.int total),(jasonKey .remainFlow,.int remain)]]

def quotaReplies (total remain : Int) : List Exchange :=
  [delivered .getflowInfo msgCodeInvalidses [],loginReply,⟨msgCodeSucess,some (quotaReply total remain),default⟩]

theorem quotaReply_flow (total remain : Nat) (small : total < 2^63) (small' : remain < 2^63) :
    FlowReply (quotaReply total remain) total remain := by
  have fits {n : Nat} (below : n < 2^63) : (n : Int) = Json.clamp 64 n := by
    unfold Json.clamp
    omega
  exact ⟨delivered_complete _ _ _,rfl,rfl,_,rfl,⟨_,rfl,fits small⟩,_,rfl,fits small'⟩

theorem flowRelayed_small : FlowRelayed booted (termMsg .getflowInfo) none default (quotaReplies 5000 1000) 5000 1000 :=
  (flowRelayed_exact (.refl : Reached Transition.free booted booted) (by decide) (delivered_complete _ _ _) rfl
    (quotaReply_flow 5000 1000 (by decide) (by decide)) rfl none default).mpr (by decide)

-- A quota of 3000000000 is told as a negative number.
theorem flowRelayed_large : FlowReply (quotaReply 3000000000 1000) 3000000000 1000 ∧
    ¬FlowRelayed booted (termMsg .getflowInfo) none default (quotaReplies 3000000000 1000) 3000000000 1000 := by
  have reply := quotaReply_flow 3000000000 1000 (by decide) (by decide)
  have asked : HeaderComplete (termMsg .getflowInfo) := delivered_complete _ _ _
  have queried : afterRounds (stale booted.daemon.accState) logsIn (quotaReplies 3000000000 1000) =
    [⟨msgCodeSucess,some (quotaReply 3000000000 1000),default⟩] := rfl
  refine ⟨reply,?_⟩
  rintro ⟨next,msg,devObj,taken,sent,carried,whole,_⟩
  obtain ⟨next',msg',devObj',bits,taken',width,sent',carried',whole',_⟩ := flow_told asked rfl reply queried none default
  rw [taken] at taken'
  cases taken'
  have one : msg = msg' := by simpa using sent.symm.trans sent'
  rw [one,carried'] at carried
  cases carried
  have tabled := step_keeps (tabled_kept 32) (boot_tabled 32 default (bytes "192.168.1.1") loginReply) taken
  rw [← width,tabled.1,whole] at whole'
  exact absurd ((flowHeld_told (by decide) 3000000000).mp (Option.some.inj whole').symm) (by decide)

end ImAcc
