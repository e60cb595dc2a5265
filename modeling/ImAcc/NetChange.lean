import ImAcc.Coherence
import ImAcc.StateInfo

-- The external address in its two copies: a login reply writes both, a heartbeat one.
-- A query goes to the cloud where they differ.
namespace ImAcc
open JsonC Script

def savedIp (r : Records) : Bytes := r.uci.imIp.getD r.uciSaveIp

theorem imCheckIsnetChange_exact : (imCheckIsnetChange r).2 = msgCodeSucess ↔ savedIp r ≠ r.loginResp.imIp := by
  change (if savedIp r = r.loginResp.imIp then msgCodeUnknown else msgCodeSucess) = msgCodeSucess ↔ _
  split
  · rename_i same
    exact ⟨nofun,fun other => absurd same other⟩
  · rename_i other
    exact ⟨fun _ => other,fun _ => rfl⟩

def ipGiven (jsonMsg : Json) : Option Bytes :=
  (devObjOf jsonMsg).bind fun devObj => (supplied (some devObj) .ip).map Json.getString

def replied (kind : CloudMsgCmd) : Option Json → Option Json
  | none => none
  | some jsonMsg =>
    let header := imJsonParseHeader jsonMsg default
    if header.2 = msgCodeSucess ∧ header.1.imCode = msgCodeSucess ∧ CloudMsgCmd.ofCode header.1.imCmd = some kind then
      some jsonMsg
    else none

def Act.body : Act → Option Json
  | .exchange op _ ex => if op = .login → ex.sent = msgCodeSucess then ex.body else none
  | _ => none

def Act.reported (act : Act) : List Bytes :=
  [.devLogin,.heartBeat].filterMap fun kind => (replied kind act.body).bind ipGiven

def Act.stores (act : Act) : Bool := ((replied .devLogin act.body).bind devObjOf).isSome

def headerAfter (body : Option Json) (h : MsgHeader) : MsgHeader := body.elim h fun jsonMsg => (imJsonParseHeader jsonMsg h).1

def Act.unfounded (act : Act) : Bool :=
  match act with
  | .exchange .heartbeat _ ex =>
    (headerAfter ex.body ex.stack).imCode = msgCodeSucess && ((replied .heartBeat ex.body).bind ipGiven).isNone
  | _ => false

def since (acts : List Act) (_ : Daemon) (act : Act) : List Act := act :: acts

def StoreTold (w : World) (pMsg : Json) (thread : Option MsgHeader) (header : MsgHeader) : Prop :=
  ∃ next msg, step w (.message (some pMsg) thread header []) = some next ∧
    next.daemon.out = w.daemon.out ++ [.reply msg] ∧ msg.objectGet (jasonKey .data) =
      some (imJsonMakeTermresSpeedupinfo (readRespIsacc w.daemon.records) .empty).json

theorem storeTold_exact (idle : w.daemon.accState = .closed) (asked : HeaderComplete pMsg)
    (cmd : headerCmd pMsg = TermMsgCmd.accStateInfo.code) (thread : Option MsgHeader) (header : MsgHeader) :
    StoreTold w pMsg thread header ↔ savedIp w.daemon.records = w.daemon.records.loginResp.imIp := by
  constructor
  · rintro ⟨next,msg,taken,_⟩
    by_contra other
    obtain ⟨h,ran,_,_⟩ := step_message taken
    obtain ⟨found,parsed,command⟩ := received_bare asked cmd rfl w.daemon
    have changed := imCheckIsnetChange_exact.mpr other
    have valid : (received w.daemon (some pMsg)).2 = msgCodeSucess := congrArg Prod.snd parsed
    obtain ⟨switched,handled,_⟩ := Option.map_eq_some_iff.mp ((if_pos valid).symm.trans ran)
    change terminalSwitch thread.isSome header (received w.daemon (some pMsg)).1 [] = _ at handled
    unfold terminalSwitch at handled
    rw [parsed,command] at handled
    dsimp only at handled
    rw [accStateInfo_asks (d := {w.daemon with records := {w.daemon.records with cmdHeader := found}}) idle changed] at handled
    cases handled
  · intro same
    have settled : w.daemon.accState.transient = false := by
      rw [idle]
      rfl
    have unchanged : (imCheckIsnetChange w.daemon.records).2 ≠ msgCodeSucess :=
      fun changed => imCheckIsnetChange_exact.mp changed same
    exact stateInfo_told settled unchanged asked cmd thread header

structure Copies (r : Records) (ip saved : Bytes) : Prop where
  memory : r.loginResp.imIp = ip
  stored : savedIp r = saved

def addresses (r : Records) : Bytes × Option Bytes × Bytes := (r.loginResp.imIp,r.uci.imIp,r.uciSaveIp)

theorem Copies.same (copies : Copies r ip saved) (same : addresses s = addresses r) : Copies s ip saved := by
  obtain ⟨memory,rest⟩ := Prod.mk.inj same
  obtain ⟨option,save⟩ := Prod.mk.inj rest
  refine ⟨memory.trans copies.memory,?_⟩
  rw [savedIp,option,save]
  exact copies.stored

theorem replied_some {kind : CloudMsgCmd} (complete : (imJsonParseHeader jsonMsg default).2 = msgCodeSucess)
    (success : (imJsonParseHeader jsonMsg default).1.imCode = msgCodeSucess) :
    replied kind (some jsonMsg) =
      if CloudMsgCmd.ofCode (imJsonParseHeader jsonMsg default).1.imCmd = some kind then some jsonMsg else none := by
  by_cases command : CloudMsgCmd.ofCode (imJsonParseHeader jsonMsg default).1.imCmd = some kind
  · rw [if_pos command]
    exact if_pos ⟨complete,success,command⟩
  · rw [if_neg command]
    exact if_neg fun all => command all.2.2

theorem replied_refused {kind : CloudMsgCmd} (refused : ¬((imJsonParseHeader jsonMsg default).2 = msgCodeSucess ∧
    (imJsonParseHeader jsonMsg default).1.imCode = msgCodeSucess)) : replied kind (some jsonMsg) = none :=
  if_neg fun all => refused ⟨all.1,all.2.1⟩

theorem imJsonParseDataLoginResp_addresses (r : Records) (jsonMsg : Json) :
    addresses (imJsonParseDataLoginResp r jsonMsg).1 =
      if (devObjOf jsonMsg).isSome then
        let ip := (ipGiven jsonMsg).getD r.loginResp.imIp
        (ip,uciText ip,r.uciSaveIp)
      else addresses r := by
  unfold imJsonParseDataLoginResp ipGiven
  rw [withDevObj_devObjOf]
  cases devObjOf jsonMsg with
  | none => rfl
  | some devObj =>
    have stored : (imJsonGetString (some devObj) .ip r.loginResp.imIp).2 =
        ((supplied (some devObj) .ip).map Json.getString).getD r.loginResp.imIp := imJsonGet_value _ _ _ _
    rw [Option.bind_some,← stored]
    rfl

theorem imJsonParseDataHeartbeatResp_ip (r : Records) (jsonMsg : Json) :
    (imJsonParseDataHeartbeatResp r jsonMsg).1.heartbeatResp.imIp = (ipGiven jsonMsg).getD r.heartbeatResp.imIp := by
  unfold imJsonParseDataHeartbeatResp ipGiven
  rw [withDevObj_devObjOf]
  cases devObjOf jsonMsg with
  | none => rfl
  | some devObj =>
    rw [Option.bind_some]
    exact imJsonGet_value _ _ _ _

-- A task result is written to the configuration, whose address it leaves.
theorem taskresultData_addresses (r : Records) (jsonMsg : Json) : addresses (taskresultData r jsonMsg).1 = addresses r := by
  have start : addresses (imJsonParseDataStartaccResp r jsonMsg).1 = addresses r := withDevObj_keeps addresses fun _ => rfl
  have isacc : addresses (imJsonParseDataIsaccResp r jsonMsg).1 = addresses r := withDevObj_keeps addresses fun _ => rfl
  unfold taskresultData adopt
  cases r.speedupinfoResp.imAccState with
  | opening => dsimp only; split <;> exact start
  | querying => dsimp only; split <;> exact isacc
  | unset | closed | opened => rfl

theorem imJsonParseCloud_addresses (r : Records) (body : Option Json) (h : MsgHeader) :
    addresses (imJsonParseCloud r body h).records =
      if ((replied .devLogin body).bind devObjOf).isSome then
        let ip := ((replied .devLogin body).bind ipGiven).getD r.loginResp.imIp
        (ip,uciText ip,r.uciSaveIp)
      else addresses r := by
  cases body with
  | none => rfl
  | some jsonMsg =>
    rcases imJsonParseCloud_cases r jsonMsg h with ⟨complete,success,parsed⟩ | ⟨refused,same | ⟨cmd,delayed⟩⟩
    · rw [parsed,replied_some complete success]
      by_cases login : CloudMsgCmd.ofCode (imJsonParseHeader jsonMsg default).1.imCmd = some .devLogin
      · rw [if_pos login,CloudMsgCmd.ofCode_exact.mp login]
        exact imJsonParseDataLoginResp_addresses r jsonMsg
      · rw [if_neg login]
        apply imJsonParseDataCloud_keeps addresses
        · exact fun found => absurd found login
        · exact fun _ => acclist_keeps addresses fun _ => rfl
        · exact fun _ => taskresultData_addresses r jsonMsg
        · exact fun _ _ _ _ _ => rfl
    · rw [same,replied_refused refused]
      rfl
    · rw [delayed,replied_refused refused]
      exact taskresultResp_keeps addresses cmd msgCodeMsgdelay (fun _ => rfl) nofun

theorem imJsonParseCloud_heartbeat (r : Records) (jsonMsg : Json) (h : MsgHeader)
    (beat : (replied .heartBeat (some jsonMsg)).bind ipGiven = some ip) :
    (imJsonParseCloud r (some jsonMsg) h).records.heartbeatResp.imIp = ip := by
  obtain ⟨found,replied,given⟩ := Option.bind_eq_some_iff.mp beat
  unfold ImAcc.replied at replied
  dsimp only at replied
  split at replied
  · rename_i all
    cases replied
    obtain ⟨complete,success,command⟩ := all
    rcases imJsonParseCloud_cases r jsonMsg h with ⟨_,_,parsed⟩ | ⟨refused,_⟩
    · rw [parsed,CloudMsgCmd.ofCode_exact.mp command]
      refine (imJsonParseDataHeartbeatResp_ip r jsonMsg).trans ?_
      rw [given]
      rfl
    · exact absurd ⟨complete,success⟩ refused
  · cases replied

theorem imJsonParseCloud_headerAfter (r : Records) (body : Option Json) (h : MsgHeader) :
    (imJsonParseCloud r body h).header = headerAfter body h := by
  cases body with
  | none => rfl
  | some jsonMsg => exact imJsonParseCloud_parsed r jsonMsg h

theorem readRespIsacc_savedIp (r : Records) : savedIp (readRespIsacc r) = savedIp r := by
  unfold savedIp readRespIsacc
  cases r.uci.imIp <;> rfl

theorem Act.reported_kind {kind : CloudMsgCmd} (listed : kind ∈ [CloudMsgCmd.devLogin,.heartBeat])
    (given : (replied kind (Act.body act)).bind ipGiven = some ip) : ip ∈ act.reported :=
  List.mem_filterMap.mpr ⟨kind,listed,given⟩

theorem imJsonParseCloud_copies (copies : Copies r ip saved) (address : ip ≠ []) (body : Option Json) (h : MsgHeader)
    (same : ∀ other ∈ (replied .devLogin body).bind ipGiven, other = ip) :
    Copies (imJsonParseCloud r body h).records ip
      (if ((replied .devLogin body).bind devObjOf).isSome then ip else saved) := by
  have read := imJsonParseCloud_addresses r body h
  split
  · rename_i login
    have given : ((replied .devLogin body).bind ipGiven).getD r.loginResp.imIp = ip := by
      cases reported : (replied .devLogin body).bind ipGiven with
      | none => exact copies.memory
      | some other => exact same other reported
    have option : uciText ip = some ip := if_neg address
    rw [if_pos login,given] at read
    dsimp only at read
    rw [option] at read
    obtain ⟨memory,rest⟩ := Prod.mk.inj read
    refine ⟨memory,?_⟩
    rw [savedIp,(Prod.mk.inj rest).1]
    rfl
  · rename_i other
    rw [if_neg other] at read
    exact copies.same read

-- A heartbeat's code 0 puts the address it reported last in the memory, and there alone.
theorem CloudOp.settle_copies (op : CloudOp) (parsed : CloudParse) (copies : Copies parsed.records ip saved)
    (founded : op = .heartbeat → parsed.header.imCode = msgCodeSucess → parsed.records.heartbeatResp.imIp = ip) :
    Copies (op.settle parsed) ip saved := by
  unfold CloudOp.settle
  split
  · rename_i beat
    exact ⟨founded beat.1 beat.2,copies.stored⟩
  · exact copies

theorem CloudOp.run_copies (op : CloudOp) (header : MsgHeader) (ex : Exchange) (copies : Copies d.records ip saved)
    (address : ip ≠ []) (same : ∀ other ∈ (Act.exchange op header ex).reported, other = ip)
    (founded : (Act.exchange op header ex).unfounded = false) :
    Copies (op.run d header ex).daemon.records ip (if (Act.exchange op header ex).stores then ip else saved) := by
  by_cases parses : op = .login → ex.sent = msgCodeSucess
  · have body : (Act.exchange op header ex).body = ex.body := if_pos parses
    have given {kind : CloudMsgCmd} (listed : kind ∈ [CloudMsgCmd.devLogin,.heartBeat]) :
        ∀ other ∈ (replied kind ex.body).bind ipGiven, other = ip :=
      fun other found => same other (Act.reported_kind listed (by rw [body]; exact found))
    rw [CloudOp.run_records op d header ex parses,Act.stores,body]
    refine CloudOp.settle_copies op _ (imJsonParseCloud_copies copies address ex.body _ (given (by decide))) ?_
    rintro rfl success
    rw [imJsonParseCloud_headerAfter] at success
    cases beat : (replied .heartBeat ex.body).bind ipGiven with
    | none =>
      have missing : (Act.exchange .heartbeat header ex).unfounded = true :=
        Bool.and_eq_true_iff.mpr ⟨decide_eq_true success,by rw [beat]; rfl⟩
      rw [missing] at founded
      cases founded
    | some other =>
      cases given (by decide) other beat
      cases message : ex.body with
      | none => rw [message] at beat; cases beat
      | some jsonMsg => exact imJsonParseCloud_heartbeat _ _ _ (message ▸ beat)
  · have silent : (Act.exchange op header ex).stores = false := by
      rw [Act.stores,Act.body,if_neg parses]
      rfl
    rw [CloudOp.run_lost op d header ex parses,silent]
    exact copies

theorem Copies.act (copies : Copies d.records ip saved) (address : ip ≠ []) (act : Act)
    (same : ∀ other ∈ act.reported, other = ip) (founded : act.unfounded = false) :
    Copies (act.apply d).records ip (if act.stores then ip else saved) := by
  cases act with
  | parse pMsg => exact copies.same (received_keeps addresses d pMsg fun _ _ _ _ _ => rfl)
  | udp => exact copies.same (congrArg addresses (sendUdp_records d))
  | recheck => exact ⟨copies.memory,(readRespIsacc_savedIp d.records).trans copies.stored⟩
  | exchange op header ex => exact CloudOp.run_copies op header ex copies address same founded
  | _ => exact copies.same rfl

structure Unmoved (ip : Bytes) (acts : List Act) : Prop where
  same : ∀ act ∈ acts, ∀ other ∈ act.reported, other = ip
  founded : ∀ act ∈ acts, act.unfounded = false

theorem chronicle_copies (told : Chronicle since w [] later acts) (address : w.daemon.records.loginResp.imIp ≠ [])
    (unmoved : Unmoved w.daemon.records.loginResp.imIp acts) :
    Copies later.daemon.records w.daemon.records.loginResp.imIp
      (if acts.any Act.stores then w.daemon.records.loginResp.imIp else savedIp w.daemon.records) := by
  refine told.keeps (I := fun d acts => Unmoved w.daemon.records.loginResp.imIp acts →
    Copies d.records w.daemon.records.loginResp.imIp
      (if acts.any Act.stores then w.daemon.records.loginResp.imIp else savedIp w.daemon.records)) ?_ ?_ unmoved
  · exact fun _ => ⟨rfl,rfl⟩
  · intro d acts act held _ unmoved
    obtain ⟨same,sames⟩ := List.forall_mem_cons.mp unmoved.same
    obtain ⟨founded,foundeds⟩ := List.forall_mem_cons.mp unmoved.founded
    have copies := (held ⟨sames,foundeds⟩).act address act same founded
    have joined (ip saved : Bytes) : (if act.stores || acts.any Act.stores then ip else saved) =
        if act.stores then ip else if acts.any Act.stores then ip else saved := by cases act.stores <;> rfl
    rwa [since,List.any_cons,joined]

-- After a change that no later reply reports anew, a query of a closed session is answered
-- from the store exactly if a login reply has been stored.
theorem netChange_exact (found : (imCheckIsnetChange w.daemon.records).2 = msgCodeSucess)
    (address : w.daemon.records.loginResp.imIp ≠ []) (told : Chronicle since w [] later acts)
    (unmoved : Unmoved w.daemon.records.loginResp.imIp acts) (idle : later.daemon.accState = .closed)
    (asked : HeaderComplete pMsg) (cmd : headerCmd pMsg = TermMsgCmd.accStateInfo.code) (thread : Option MsgHeader)
    (header : MsgHeader) : StoreTold later pMsg thread header ↔ ∃ act ∈ acts, act.stores = true := by
  obtain ⟨memory,stored⟩ := chronicle_copies told address unmoved
  rw [storeTold_exact idle asked cmd,memory,stored,← List.any_eq_true]
  split
  · rename_i login
    exact iff_of_true rfl login
  · rename_i none
    exact iff_of_false (imCheckIsnetChange_exact.mp found) none

def beatReply (ip : Bytes) : Exchange := delivered .heartBeat msgCodeSucess [[(jasonKey .ip,.string ip)]]

def changing : List Event := started ++ [told .startAcc [grant],.alarm 1 none [beatReply (bytes "10.0.0.2")],
  told .stopAcc [delivered .stopAcc msgCodeSucess [[]]]]

def changed : World := (Transition.run step booted changing).getD booted

theorem changed_reached : Transition.run step booted changing = some changed := by
  have taken : (Transition.run step booted changing).isSome = true := by decide
  obtain ⟨w,ran⟩ := Option.isSome_iff_exists.mp taken
  rw [changed,ran]
  rfl

theorem changed_found : savedIp changed.daemon.records ≠ changed.daemon.records.loginResp.imIp := by decide

def putOff : Json :=
  (imJsonMakeResponeSend (some (termMsg .accStateInfo)) msgCodeMsgdelayTerm (some TermData.empty.json)).getD (.int 0)

def delayedQuery : List Act := [.parse (some (termMsg .accStateInfo)),.recheck,.state .querying,
  .exchange .isaac default (taskReply .isAcc),.reply putOff]

def resultReply : Exchange := delivered .getTaskresult msgCodeSucess [[(jasonKey .isAcc,.int 1)]]

def resultTaken : List Act := [.exchange .gettaskresult default resultReply,.persist,.state .closed]

theorem watched_since (acts earlier : List Act) (d : Daemon) :
    watched acting since earlier d acts = acts.reverse ++ earlier := by
  induction acts generalizing earlier d with
  | nil => rfl
  | cons act rest ih => rw [watched,ih,since,List.reverse_cons,List.append_assoc,List.singleton_append]

theorem chronicle_since (told : Chronicle since start begun w earlier) (taken : step w event = some next)
    (plays : Plays acting w.daemon acts next.daemon) (exchanged : acts.filterMap Act.exchanged = event.replies) :
    Chronicle since start begun next (acts.reverse ++ earlier) := by
  rw [← watched_since acts earlier w.daemon]
  exact told.step taken plays exchanged

def movedLogin : Exchange := delivered .devLogin msgCodeSucess
  [[(jasonKey .sessionid,.string (bytes "s2")),(jasonKey .accTime,.int 0),(jasonKey .ip,.string (bytes "10.0.0.2"))]]

def expiredReplies : List Exchange := [delivered .isAcc msgCodeInvalidses [],movedLogin,taskReply .isAcc]

def renewedQuery : List Act := [.parse (some (termMsg .accStateInfo)),.recheck,.state .querying,
  .exchange .isaac default (delivered .isAcc msgCodeInvalidses []),.exchange .login default movedLogin,.state .closed,
  .state .querying,.exchange .isaac default (taskReply .isAcc),.reply putOff]

theorem putOff_chronicle (asked : step changed (told .accStateInfo replies) =
      some ⟨playing changed.daemon acts,[⟨default,0,false,4⟩],4⟩)
    (asks : Plays acting changed.daemon acts (playing changed.daemon acts))
    (exchanged : acts.filterMap Act.exchanged = replies)
    (polled : step ⟨playing changed.daemon acts,[⟨default,0,false,4⟩],4⟩ (.poll 0 [resultReply]) =
      some ⟨playing changed.daemon (acts ++ resultTaken),[],4⟩) :
    Chronicle since changed [] ⟨playing changed.daemon (acts ++ resultTaken),[],4⟩
      (resultTaken.reverse ++ (acts.reverse ++ [])) := by
  have query := chronicle_since (.nil : Chronicle since changed [] changed []) asked asks exchanged
  exact chronicle_since query polled ⟨trivial,trivial,trivial,List.foldl_append⟩ rfl

theorem netChange_renewed : ∃ later acts, (∃ act ∈ acts, act.stores = true) ∧ Chronicle since changed [] later acts ∧
    StoreTold later (termMsg .accStateInfo) none default := by
  have told := putOff_chronicle
    (by rfl : step changed (told .accStateInfo expiredReplies) = some ⟨playing changed.daemon renewedQuery,_,_⟩)
    ⟨trivial,trivial,trivial,trivial,trivial,trivial,trivial,trivial,trivial,rfl⟩ rfl (by rfl)
  have login : ∃ act ∈ resultTaken.reverse ++ (renewedQuery.reverse ++ []), act.stores = true := by decide
  exact ⟨_,_,login,told,(netChange_exact (imCheckIsnetChange_exact.mpr changed_found) (by decide) told ⟨by decide,by decide⟩
    rfl (delivered_complete _ _ _) rfl none default).mpr login⟩

-- An address that only a heartbeat reports is never stored: each query asks again.
theorem netChange_again : ¬ ∀ w later acts, Transition.Reached step Transition.free booted w →
    (imCheckIsnetChange w.daemon.records).2 = msgCodeSucess → Chronicle since w [] later acts → .persist ∈ acts →
    (∀ act ∈ acts, ∀ other ∈ act.reported, other = w.daemon.records.loginResp.imIp) → later.daemon.accState = .closed →
      StoreTold later (termMsg .accStateInfo) none default := by
  intro always
  have told := putOff_chronicle
    (by rfl : step changed (told .accStateInfo [taskReply .isAcc]) = some ⟨playing changed.daemon delayedQuery,_,_⟩)
    ⟨trivial,trivial,trivial,trivial,trivial,rfl⟩ rfl (by rfl)
  have store := always _ _ _ (Transition.run_reached changed_reached) (imCheckIsnetChange_exact.mpr changed_found) told
    (.tail _ (.head _)) (by decide) rfl
  have same := (storeTold_exact rfl (delivered_complete _ _ _) rfl none default).mp store
  exact absurd same (by decide)

end ImAcc
