import ImAcc.Capacity
import ImAcc.Devices
import ImAcc.NetChange

-- The char arrays of the global records over whole runs, their strcpy calls included.
namespace ImAcc
open JsonC Script

-- The arrays with the sizes im_wideband_speedup.h gives them.
def Records.arrays (r : Records) : List (Bytes × Nat) :=
  [(r.cmdHeader.imSessionid,maxSessionid),(r.cmdHeader.imSign,maxSign),(r.speedup.imDevName,maxNameLen),
   (r.getflow.imGetflowId,maxString),(r.getflow.imDevName,maxNameLen),(r.loginCmd.imDevId,maxString),
   (r.loginCmd.imIp,maxIpLen),(r.loginResp.imSessionId,maxString),(r.loginResp.imIp,maxIpLen),
   (r.acc.imSessionId,maxString),(r.acc.imDevId,maxString),(r.acc.imIp,maxString),(r.accspec.imAccUrl,maxString),
   (r.countflowCmd.imSessionId,maxString),(r.getaacflowCmd.imSessionId,maxString),(r.getaacflowCmd.imTaskId,maxString),
   (r.ungetflowResp.imGetflowId,maxString),(r.ungetflowResp.imGetflowInfo,maxString),(r.heartbeatResp.imIp,maxIpLen),
   (r.taskresultCmd.imTaskid,maxString),(r.taskresultCmd.imSessionId,maxString),(r.uciSaveIp,maxIpLen)] ++
  r.iosinfo.flatMap fun slot => [(slot.devicetoken,maxDeviceToken),(slot.devid,maxSessionid)]

def Fitted (r : Records) : Prop := ∀ array ∈ r.arrays, array.1.length < array.2

def ReplyFits (ex : Exchange) : Prop := ∀ jsonMsg ∈ ex.body, ∀ state, CloudFits state jsonMsg

def Event.pMsg : Event → Option Json
  | .message pMsg _ _ _ => pMsg
  | _ => none

-- What comes in fits, in whatever state it comes.
def Fitting (_ : World) (event : Event) : Prop :=
  (∀ jsonMsg ∈ event.pMsg, TerminalFits jsonMsg) ∧ ∀ ex ∈ event.replies, ReplyFits ex

def Act.Inside (d : Daemon) : Act → Prop
  | .parse pMsg => TerminalContained d.records pMsg
  | .exchange op header ex => CloudContained d.records ex.body (op.header header ex)
  | _ => True

-- The arrays that nothing writes after the start-up.
def Records.settledArrays (r : Records) : List (Bytes × Nat) :=
  [(r.loginCmd.imDevId,maxString),(r.loginCmd.imIp,maxIpLen),(r.acc.imDevId,maxString),(r.acc.imIp,maxString),
   (r.getaacflowCmd.imTaskId,maxString),(r.ungetflowResp.imGetflowId,maxString),(r.ungetflowResp.imGetflowInfo,maxString)]

-- The session id is short in all its copies, the option as the address it was set to.
structure Contents (r : Records) : Prop where
  texts : ∀ i, (r.texts r.cmdHeader i).length < i.capacity
  session : ∃ session, Coherent r session
  saved : r.uciSaveIp.length < maxIpLen
  option : ∀ ip ∈ r.uci.imIp, ip.length < maxIpLen
  devices : ∀ slot ∈ r.iosinfo, slot.devicetoken.length < maxDeviceToken ∧ slot.devid.length < maxSessionid
  settled : ∀ array ∈ r.settledArrays, array.1.length < array.2

theorem Contents.fitted (contents : Contents r) : Fitted r := by
  obtain ⟨session,coherent⟩ := contents.session
  have texts := contents.texts
  have copies (id : Bytes) (copy : id ∈ sessionIds r) : id.length < maxString := by
    rw [coherent id copy,← coherent r.loginResp.imSessionId (.head _)]
    exact texts .loginSession
  simp only [sessionIds,List.forall_mem_cons] at copies
  obtain ⟨_,acc,countflow,getaacflow,taskresult,_⟩ := copies
  have settled := contents.settled
  simp only [Records.settledArrays,List.forall_mem_cons] at settled
  obtain ⟨devId,ip,accId,accIp,taskId,flowId,flowInfo,_⟩ := settled
  unfold Fitted Records.arrays
  rw [List.forall_mem_append]
  constructor
  · simp only [List.forall_mem_cons]
    exact ⟨texts .headerSessionid,texts .headerSign,texts .speedupName,texts .getflowId,texts .getflowName,devId,ip,
      texts .loginSession,texts .loginIp,acc,accId,accIp,texts .accUrl,countflow,getaacflow,taskId,flowId,flowInfo,
      texts .heartbeatIp,texts .taskid,taskresult,contents.saved,List.forall_mem_nil _⟩
  · intro array member
    obtain ⟨slot,held,listed⟩ := List.mem_flatMap.mp member
    obtain ⟨token,devid⟩ := contents.devices slot held
    rcases List.mem_pair.mp listed with rfl | rfl
    · exact token
    · exact devid

theorem iosinfoFree_mem (member : slot ∈ iosinfoFree new table) : slot = new ∨ slot ∈ table := by
  induction table with
  | nil => cases member
  | cons first rest ih =>
    unfold iosinfoFree at member
    split at member
    · exact (List.mem_cons.mp member).imp_right (List.mem_cons_of_mem _)
    · rcases List.mem_cons.mp member with rfl | later
      · exact .inr List.mem_cons_self
      · exact (ih later).imp_right (List.mem_cons_of_mem _)

theorem iosinfoRegister_mem (member : slot ∈ iosinfoRegister new table) : slot = new ∨ slot ∈ table := by
  unfold iosinfoRegister at member
  split at member
  · exact .inr member
  · exact iosinfoFree_mem member

theorem registration_fits (named : registration jsonMsg = some new) (fits : TerminalFits jsonMsg) :
    new.devicetoken.length < maxDeviceToken ∧ new.devid.length < maxSessionid := by
  have accepted := (registration_accepted jsonMsg).mp (by rw [named]; rfl)
  have texts := fits.data accepted.1.header
  rw [accepted.2] at texts
  unfold registration at named
  split at named
  · obtain ⟨devObj,found,device⟩ := Option.bind_eq_some_iff.mp named
    obtain ⟨token,tokenGiven,rest⟩ := Option.bind_eq_some_iff.mp device
    obtain ⟨devid,devidGiven,rfl⟩ := Option.map_eq_some_iff.mp rest
    rw [found] at texts
    exact ⟨texts (.devicetoken,.devicetoken) (by decide) token tokenGiven,texts (.devid,.devid) (by decide) devid devidGiven⟩
  · cases named

theorem received_contents (held : Contents d.records) (fits : ∀ jsonMsg ∈ pMsg, TerminalFits jsonMsg) :
    Contents (received d pMsg).1.records := by
  have kept {α : Type} (read : Records → α) (keep : ∀ header speedup getflow keepacc iosinfo, read {d.records with
      cmdHeader := header,speedup := speedup,getflow := getflow,keepacc := keepacc,iosinfo := iosinfo} = read d.records) :=
    received_keeps read d pMsg keep
  obtain ⟨session,coherent⟩ := held.session
  refine ⟨fun i => imJsonParseTerminal_short (held.texts i) fits,⟨session,coherent.same (kept sessionIds fun _ _ _ _ _ => rfl)⟩,
    ?_,?_,?_,?_⟩
  · rw [kept Records.uciSaveIp fun _ _ _ _ _ => rfl]
    exact held.saved
  · rw [kept Records.uci fun _ _ _ _ _ => rfl]
    exact held.option
  · have table : (received d pMsg).1.records.iosinfo = _ := imJsonParseTerminal_iosinfo d.records pMsg
    rw [table]
    cases named : pMsg.bind registration with
    | none => exact held.devices
    | some new =>
      obtain ⟨jsonMsg,found,device⟩ := Option.bind_eq_some_iff.mp named
      intro slot member
      rcases iosinfoRegister_mem member with rfl | old
      · exact registration_fits device (fits jsonMsg found)
      · exact held.devices slot old
  · rw [kept Records.settledArrays fun _ _ _ _ _ => rfl]
    exact held.settled

theorem imJsonParseCloud_settled (r : Records) (body : Option Json) (h : MsgHeader) :
    Records.settledArrays (imJsonParseCloud r body h).records = r.settledArrays := by
  cases body with
  | none => rfl
  | some jsonMsg =>
    rcases imJsonParseCloud_cases r jsonMsg h with ⟨_,_,parsed⟩ | ⟨_,same | ⟨cmd,delayed⟩⟩
    · rw [parsed]
      apply imJsonParseDataCloud_keeps Records.settledArrays
      · exact fun _ => withDevObj_keeps Records.settledArrays fun _ => rfl
      · exact fun _ => acclist_keeps Records.settledArrays fun _ => rfl
      · exact fun _ => taskresultData_keeps Records.settledArrays fun _ _ _ _ => rfl
      · exact fun _ _ _ _ _ => rfl
    · rw [same]
    · rw [delayed]
      exact taskresultResp_keeps Records.settledArrays cmd msgCodeMsgdelay (fun _ => rfl) nofun

theorem texts_header {i : TextArray} (global : i ≠ .headerSessionid ∧ i ≠ .headerSign) (r : Records) (h h' : MsgHeader) :
    r.texts h i = r.texts h' i := by
  cases i with
  | headerSessionid => exact absurd rfl global.1
  | headerSign => exact absurd rfl global.2
  | _ => rfl

theorem imJsonParseCloud_contents (held : Contents r) (fits : ∀ jsonMsg ∈ body, ∀ state, CloudFits state jsonMsg)
    (h : MsgHeader) : Contents (imJsonParseCloud r body h).records := by
  have frame := imJsonParseCloud_frame r body h
  have texts (i : TextArray) : ((imJsonParseCloud r body h).records.texts
      (imJsonParseCloud r body h).records.cmdHeader i).length < i.capacity := by
    by_cases global : i ≠ .headerSessionid ∧ i ≠ .headerSign
    · have before := held.texts i
      rw [texts_header global r r.cmdHeader h] at before
      rw [texts_header global _ _ (imJsonParseCloud r body h).header]
      exact imJsonParseCloud_short before fun jsonMsg found => fits jsonMsg found _
    · have same : (imJsonParseCloud r body h).records.texts (imJsonParseCloud r body h).records.cmdHeader i =
          r.texts r.cmdHeader i := by
        rw [frame.cmdHeader]
        cases i with
        | headerSessionid | headerSign => rfl
        | _ => exact absurd ⟨nofun,nofun⟩ global
      rw [same]
      exact held.texts i
  obtain ⟨session,coherent⟩ := held.session
  refine ⟨texts,⟨_,imJsonParseCloud_coherent coherent body h⟩,?_,?_,?_,?_⟩
  · rw [frame.uciSaveIp]
    exact held.saved
  · have address := texts .loginIp
    have read := imJsonParseCloud_addresses r body h
    intro ip option
    split at read
    · obtain ⟨memory,rest⟩ := Prod.mk.inj read
      rw [(Prod.mk.inj rest).1,← memory] at option
      unfold uciText at option
      split at option
      · cases option
      · cases option
        exact address
    · rw [(Prod.mk.inj (Prod.mk.inj read).2).1] at option
      exact held.option ip option
  · rw [frame.iosinfo]
    exact held.devices
  · rw [imJsonParseCloud_settled]
    exact held.settled

theorem settle_contents (op : CloudOp) {reply : CloudParse} (held : Contents reply.records) :
    Contents (op.settle reply) := by
  unfold CloudOp.settle
  split
  · refine ⟨?_,held.session,held.saved,held.option,held.devices,held.settled⟩
    intro i
    have before := held.texts i
    cases i with
    | loginIp => exact held.texts .heartbeatIp
    | _ => exact before
  · exact held

theorem act_contents (act : Act) (held : Contents d.records)
    (message : ∀ pMsg, act = .parse pMsg → ∀ jsonMsg ∈ pMsg, TerminalFits jsonMsg)
    (reply : ∀ ex ∈ act.exchanged, ReplyFits ex) : Contents (act.apply d).records := by
  cases act with
  | parse pMsg => exact received_contents held (message pMsg rfl)
  | exchange op header ex =>
    rcases CloudOp.run_cases op d header ex with same | settled
    · change Contents (op.run d header ex).daemon.records
      rw [same]
      exact held
    · change Contents (op.run d header ex).daemon.records
      rw [settled]
      exact settle_contents op (imJsonParseCloud_contents held (reply ex rfl) _)
  | recheck =>
    refine ⟨held.texts,held.session,?_,held.option,held.devices,held.settled⟩
    change (d.records.uci.imIp.getD d.records.uciSaveIp).length < maxIpLen
    cases option : d.records.uci.imIp with
    | none => exact held.saved
    | some ip => exact held.option ip option
  | udp =>
    change Contents (sendUdp d).records
    rw [sendUdp_records]
    exact held
  | _ => exact ⟨held.texts,held.session,held.saved,held.option,held.devices,held.settled⟩

theorem imWindbandInit_contents (held : Contents r) : Contents (imWindbandInit r) := by
  obtain ⟨session,coherent⟩ := held.session
  refine ⟨held.texts,⟨session,imWindbandInit_coherent coherent⟩,held.saved,held.option,held.devices,?_⟩
  have settled := held.settled
  simp only [Records.settledArrays,List.forall_mem_cons] at settled ⊢
  obtain ⟨devId,ip,_,_,rest⟩ := settled
  exact ⟨devId,ip,devId,Nat.lt_trans ip (by decide),rest⟩

theorem boot_contents (config : ∀ ip ∈ uci.imIp, ip.length < maxIpLen) (lan : lanIp.length < maxIpLen)
    (first : ReplyFits login) : Contents (World.boot bits uci lanIp login).daemon.records := by
  have ready : Contents (Daemon.ready bits uci lanIp).records := by
    have blank {n : Nat} : ([] : Bytes).length < n+1 := Nat.succ_pos n
    refine ⟨fun i => ?_,⟨[],fun id member => ?_⟩,blank,config,fun slot member => ?_,?_⟩
    · cases i <;> exact blank
    · exact List.eq_of_mem_replicate (show id ∈ List.replicate 5 [] from member)
    · rw [List.eq_of_mem_replicate member]
      exact ⟨blank,blank⟩
    · simp only [Records.settledArrays,List.forall_mem_cons]
      exact ⟨show (bytes "IMOVE00000001").length < maxString by decide,lan,blank,blank,blank,blank,blank,nofun⟩
  rw [World.boot_ready]
  refine imWindbandInit_contents (act_contents (.exchange .login default login) ready nofun ?_)
  rintro ex ⟨⟩
  exact first

theorem step_parsed (taken : step w event = some next) : ∃ acts, Plays acting w.daemon acts next.daemon ∧
    acts.filterMap Act.exchanged = event.replies ∧ ∀ pMsg, .parse pMsg ∈ acts → pMsg = event.pMsg := by
  obtain ⟨acts,plays,inner,exchanged⟩ := step_inner taken
  rw [List.append_nil] at exchanged
  have none (pMsg : Option Json) (member : .parse pMsg ∈ acts) : False := inner (.parse pMsg) member
  cases event with
  | message pMsg thread header replies =>
    refine ⟨.parse pMsg :: acts,⟨trivial,plays⟩,exchanged,fun other member => ?_⟩
    rcases List.mem_cons.mp member with same | later
    · exact Act.parse.inj same
    · exact (none other later).elim
  | _ => exact ⟨acts,plays,exchanged,fun other member => (none other member).elim⟩

theorem Fitting.acts {acts : List Act} {act : Act} (fits : Fitting w event) (exchanged : acts.filterMap Act.exchanged = event.replies)
    (parsed : ∀ pMsg, .parse pMsg ∈ acts → pMsg = event.pMsg) (member : act ∈ acts) :
    (∀ pMsg, act = .parse pMsg → ∀ jsonMsg ∈ pMsg, TerminalFits jsonMsg) ∧ ∀ ex ∈ act.exchanged, ReplyFits ex := by
  constructor
  · rintro pMsg rfl
    rw [parsed pMsg member]
    exact fits.1
  · intro ex sent
    refine fits.2 ex ?_
    rw [← exchanged]
    exact List.mem_filterMap.mpr ⟨act,member,sent⟩

theorem step_contents (held : Contents w.daemon.records) (fits : Fitting w event) (taken : step w event = some next) :
    Contents next.daemon.records := by
  obtain ⟨acts,plays,exchanged,parsed⟩ := step_parsed taken
  refine plays.keeps (I := fun d => Contents d.records) held fun d act member before _ => ?_
  obtain ⟨message,reply⟩ := fits.acts exchanged parsed member
  exact act_contents act before message reply

theorem act_inside (d : Daemon) (act : Act) (message : ∀ pMsg, act = .parse pMsg → ∀ jsonMsg ∈ pMsg, TerminalFits jsonMsg)
    (reply : ∀ ex ∈ act.exchanged, ReplyFits ex) : act.Inside d := by
  cases act with
  | parse pMsg => exact (terminal_contained d.records pMsg).mpr (message pMsg rfl)
  | exchange op header ex =>
    exact (cloud_contained d.records ex.body _).mpr fun jsonMsg found => reply ex rfl jsonMsg found _
  | _ => trivial

-- As long as what comes in fits, every array holds its text with the NUL, between the
-- steps and at every act of one, and no call of a parser leaves an array.
theorem reached_fitted (config : ∀ ip ∈ uci.imIp, ip.length < maxIpLen) (lan : lanIp.length < maxIpLen)
    (first : ReplyFits login) (path : Reached Fitting (World.boot bits uci lanIp login) w) :
    Fitted w.daemon.records ∧ ∀ event next, Fitting w event → step w event = some next →
      ∃ acts, Plays acting w.daemon acts next.daemon ∧ acts.filterMap Act.exchanged = event.replies ∧
        ∀ v ∈ visits acting w.daemon acts, Fitted v.1.records ∧ v.2.Inside v.1 := by
  have held : Contents w.daemon.records :=
    path.invariant (I := fun w => Contents w.daemon.records) (boot_contents config lan first)
      fun _ _ _ held fits taken => step_contents held fits taken
  refine ⟨held.fitted,fun event next fits taken => ?_⟩
  obtain ⟨acts,plays,exchanged,parsed⟩ := step_parsed taken
  refine ⟨acts,plays,exchanged,fun v visited => ?_⟩
  have inner := plays.visited (I := fun d => Contents d.records) held (fun d act member before _ => ?_) v visited
  · obtain ⟨message,reply⟩ := fits.acts exchanged parsed inner.2.2
    exact ⟨inner.1.fitted,act_inside v.1 v.2 message reply⟩
  · obtain ⟨message,reply⟩ := fits.acts exchanged parsed member
    exact act_contents act before message reply

def putOffStart : List Event := [told .startAcc [taskReply .startAcc],.poll 0 [resultReply]]

theorem replyFits_delivered {jsonMsg : Json} (fits : ∀ state,
    (∀ c ∈ cloudCopies ((Records.boot 32 default).setAccState state) (some jsonMsg) default, c.Fits TextArray.capacity) ∧
      ∀ i ∈ cloudIndices (some jsonMsg) default, i < maxAccHis) : ReplyFits ⟨sent,some jsonMsg,stack⟩ := by
  rintro _ ⟨⟩ state
  exact (cloudWrites_fit _ jsonMsg default).mp (fits state)

theorem reached_fitted_delayed : ∃ w, Transition.run step booted putOffStart = some w ∧ Fitted w.daemon.records := by
  have taken : (Transition.run step booted putOffStart).isSome = true := by decide
  obtain ⟨w,ran⟩ := Option.isSome_iff_exists.mp taken
  have reply : ReplyFits (taskReply .startAcc) := replyFits_delivered fun state => by cases state <;> decide
  have result : ReplyFits resultReply := replyFits_delivered fun state => by cases state <;> decide
  have login : ReplyFits loginReply := replyFits_delivered fun state => by cases state <;> decide
  have message : TerminalFits (termMsg .startAcc) := (terminalCopies_fits (Records.boot 32 default) _).mp (by decide)
  have met : Transition.Met step Fitting booted putOffStart := by
    refine ⟨⟨?_,List.forall_mem_singleton.mpr reply⟩,fun _ _ => ⟨⟨nofun,List.forall_mem_singleton.mpr result⟩,fun _ _ => trivial⟩⟩
    rintro _ ⟨⟩
    exact message
  exact ⟨w,ran,(reached_fitted (by decide) (by decide) login (Transition.met_reached ran met)).1⟩

end ImAcc
