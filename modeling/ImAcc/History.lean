import ImAcc.Acts
import ImAcc.Capacity
import ImAcc.Delivery

-- The acceleration history on its way from the cloud to a terminal.
namespace ImAcc
open JsonC

theorem acclist_length (imData : Json) (indices : List Nat) (state : Records × Int) :
    (indices.foldl (accHistroyStore imData) state).1.acclistResp.length = state.1.acclistResp.length := by
  induction indices generalizing state with
  | nil => rfl
  | cons i rest ih =>
    rw [List.foldl_cons,ih,accHistroyStore_records]
    exact List.length_set

theorem imJsonParseCloud_length (r : Records) (pMsg : Option Json) (h : MsgHeader) :
    (imJsonParseCloud r pMsg h).records.acclistResp.length = r.acclistResp.length := by
  cases pMsg with
  | none => rfl
  | some jsonMsg =>
    dsimp only [imJsonParseCloud]
    split
    · rfl
    · split
      · by_cases history : (imJsonParseHeader jsonMsg h).1.imCmd = CloudMsgCmd.getAcclist.code
        · rw [history]
          change (imJsonParseDataGetacclistResp r jsonMsg).1.acclistResp.length = _
          unfold imJsonParseDataGetacclistResp
          split
          · rfl
          · exact acclist_length _ _ _
        · rw [imJsonParseDataCloud_acclist history]
      · split
        · rw [delayed_acclist]
        · rfl

def Tabled (bits : Nat) (d : Daemon) : Prop :=
  d.records.ulongBits = bits ∧ d.records.acclistResp.length = maxAccHis

theorem tabled_kept (bits : Nat) : Kept (Tabled bits) := by
  intro d act held allowed
  cases act with
  | parse pMsg =>
    have width := received_keeps Records.ulongBits d pMsg fun _ _ _ _ _ => rfl
    have length := received_keeps (·.acclistResp.length) d pMsg fun _ _ _ _ _ => rfl
    exact ⟨width.trans held.1,length.trans held.2⟩
  | exchange op header ex =>
    have width := CloudOp.run_keeps Records.ulongBits (fun _ _ => rfl)
      (fun h => (imJsonParseCloud_frame d.records ex.body h).ulongBits) op header
    have length := CloudOp.run_keeps (·.acclistResp.length) (fun _ _ => rfl)
      (imJsonParseCloud_length d.records ex.body) op header
    exact ⟨width.trans held.1,length.trans held.2⟩
  | udp =>
    simp only [Tabled,Act.apply,sendUdp_records]
    exact held
  | _ => exact held

theorem boot_tabled (bits : Nat) (uci : UciIsacc) (lanIp : Bytes) (ex : Exchange) :
    Tabled bits (World.boot bits uci lanIp ex).daemon := by
  have before : Tabled bits (.ready bits uci lanIp) := ⟨rfl,List.length_replicate⟩
  have login := tabled_kept bits _ (.exchange .login default ex) before trivial
  rw [World.boot_ready]
  exact login

def recordMembers (useTime useFlow openAccTime : Json) : List (Bytes × Json) :=
  [(jasonKey .useTime,useTime),(jasonKey .useFlow,useFlow),(jasonKey .openAccTime,openAccTime)]

def slotMembers (slot : AccHistroy) : List (Bytes × Json) :=
  recordMembers (.int slot.imUseTime) (newIntOfUlong slot.imUseFlow) (newIntOfUlong slot.imOpenAccTime)

-- The one object is overwritten in place, so the members never grow.
theorem recordMembers_add (a b c : Json) (slot : AccHistroy) (refs : Nat) :
    (((TermData.mk (recordMembers a b c) refs).add .useTime (.int slot.imUseTime)).add .useFlow
      (newIntOfUlong slot.imUseFlow)).add .openAccTime (newIntOfUlong slot.imOpenAccTime) =
    ⟨slotMembers slot,refs⟩ := by
  have apart : jasonKey .useTime ≠ jasonKey .useFlow ∧ jasonKey .useTime ≠ jasonKey .openAccTime ∧
      jasonKey .useFlow ≠ jasonKey .openAccTime := by decide
  simp [TermData.add,recordMembers,slotMembers,Json.membersAdd,apart]

theorem emptyMembers_add (slot : AccHistroy) :
    ((TermData.empty.add .useTime (.int slot.imUseTime)).add .useFlow (newIntOfUlong slot.imUseFlow)).add
      .openAccTime (newIntOfUlong slot.imOpenAccTime) = ⟨slotMembers slot,0⟩ := by
  have apart : jasonKey .useTime ≠ jasonKey .useFlow ∧ jasonKey .useTime ≠ jasonKey .openAccTime ∧
      jasonKey .useFlow ≠ jasonKey .openAccTime := by decide
  simp [TermData.add,TermData.empty,recordMembers,slotMembers,Json.membersAdd,apart]

-- The loop appends the object once a turn: after n turns n references to the slot seen last.
theorem imJsonMakeTermresAcclist_turns (r : Records) (n : Nat) :
    (List.range (n+1)).foldl (fun t i =>
      let slot := r.acclistResp.getD i default
      (((t.add .useTime (.int slot.imUseTime)).add .useFlow (newIntOfUlong slot.imUseFlow)).add
        .openAccTime (newIntOfUlong slot.imOpenAccTime)).append) TermData.empty =
    ⟨slotMembers (r.acclistResp.getD n default),n+1⟩ := by
  induction n with
  | zero =>
    change TermData.append _ = _
    rw [emptyMembers_add]
    rfl
  | succ n ih =>
    rw [List.range_succ,List.foldl_append,ih]
    change TermData.append _ = _
    rw [slotMembers,recordMembers_add]
    rfl

theorem imJsonMakeTermresAcclist_exact (r : Records) : imJsonMakeTermresAcclist r .empty =
    ⟨slotMembers (r.acclistResp.getD 19 default),maxAccHis⟩ :=
  imJsonMakeTermresAcclist_turns r 19

structure AccRecord where
  useTime : Int
  useFlow : Int
  openAccTime : Int
  deriving DecidableEq

def AccRecord.InRange (x : AccRecord) : Prop :=
  Json.clamp 32 x.useTime = x.useTime ∧ Json.clamp 32 x.useFlow = x.useFlow ∧ Json.clamp 32 x.openAccTime = x.openAccTime

def AccRecord.json (x : AccRecord) : Json := .object (recordMembers (.int x.useTime) (.int x.useFlow) (.int x.openAccTime))

def Supplies (item : Option Json) (key : JsonImCmd) (value : Int) : Prop :=
  ∃ member ∈ supplied item key, member.getInt64 = value

structure AccRecord.In (x : AccRecord) (item : Option Json) : Prop where
  useTime : Supplies item .useTime x.useTime
  useFlow : Supplies item .useFlow x.useFlow
  openAccTime : Supplies item .openAccTime x.openAccTime
  inRange : x.InRange

structure HistoryReply (jsonMsg : Json) (xs : List AccRecord) : Prop where
  complete : HeaderComplete jsonMsg
  command : headerCmd jsonMsg = CloudMsgCmd.getAcclist.code
  success : headerCode jsonMsg = msgCodeSucess
  data : ∃ imData, jsonMsg.objectGet (jasonKey .data) = some imData ∧ imData.arrayLength = xs.length ∧
    ∀ (i : Nat) (x : AccRecord), xs[i]? = some x → x.In (imData.arrayGetIdx i)

def historyJson (xs : List AccRecord) : Json := .array ((xs.filter (·.useTime ≠ 0)).map AccRecord.json)

theorem clamp_range : Json.clamp 32 n = n ↔ -2^31 ≤ n ∧ n < 2^31 := by
  unfold Json.clamp
  omega

theorem newIntOfUlong_toUlong (wide : 32 ≤ bits) (inRange : Json.clamp 32 n = n) : newIntOfUlong (toUlong bits n) = .int n := by
  obtain ⟨low,high⟩ := clamp_range.mp inRange
  have positive : (0:Int) < 2^bits := Int.pow_pos (by decide)
  have stored : ((toUlong bits n : Nat) : Int) = n % 2^bits := Int.toNat_of_nonneg (Int.emod_nonneg _ (by omega))
  have divides : ((2^32 : Nat) : Int) ∣ 2^bits := pow_dvd_pow (2:Int) wide
  unfold newIntOfUlong
  rw [stored,← Int.emod_bmod,Int.emod_emod_of_dvd n divides,Int.emod_bmod]
  congr 1
  apply Int.bmod_eq_of_le <;> omega

theorem AccRecord.stored (wide : 32 ≤ bits) {x : AccRecord} (here : x.In item) (slot : AccHistroy) :
    slotMembers (historyOf bits item slot) = recordMembers (.int x.useTime) (.int x.useFlow) (.int x.openAccTime) := by
  obtain ⟨time,found,read⟩ := here.useTime
  obtain ⟨flow,found',read'⟩ := here.useFlow
  obtain ⟨opened,found'',read''⟩ := here.openAccTime
  rw [Option.mem_def] at found found' found''
  obtain ⟨inTime,inFlow,inOpened⟩ := here.inRange
  simp only [slotMembers,historyOf,found,found',found'',Option.map_some,Option.getD_some,readUlong,read',read'']
  rw [newIntOfUlong_toUlong wide inFlow,newIntOfUlong_toUlong wide inOpened]
  have time : time.getInt = x.useTime := by rw [Json.getInt,read,inTime]
  rw [time]

theorem recordMembers_inj (same : AccRecord.json x = AccRecord.json y) : x = y := by
  cases x
  cases y
  simpa [AccRecord.json,recordMembers] using same

theorem HistoryReply.data_parsed (reply : HistoryReply jsonMsg xs) (r : Records) :
    ∃ imData, jsonMsg.objectGet (jasonKey .data) = some imData ∧ imData.arrayLength = xs.length ∧
      imJsonParseDataGetacclistResp r jsonMsg =
        (List.range xs.length).foldl (accHistroyStore imData) (r,msgCodeSucess) ∧
      ∀ (i : Nat) (x : AccRecord), xs[i]? = some x → x.In (imData.arrayGetIdx i) := by
  obtain ⟨imData,found,length,each⟩ := reply.data
  refine ⟨imData,found,length,?_,each⟩
  unfold imJsonParseDataGetacclistResp
  rw [found,← length]

theorem HistoryReply.last (reply : HistoryReply jsonMsg xs) (tabled : Tabled bits d) (wide : 32 ≤ bits)
    (last : xs[19]? = some x) :
    slotMembers ((imJsonParseDataGetacclistResp d.records jsonMsg).1.acclistResp.getD 19 default) =
      recordMembers (.int x.useTime) (.int x.useFlow) (.int x.openAccTime) := by
  obtain ⟨imData,_,_,parsed,each⟩ := reply.data_parsed d.records
  obtain ⟨slots,made,slot⟩ := acclist_records imData _ List.nodup_range (d.records,msgCodeSucess)
  have turn : 19 ∈ List.range xs.length := List.mem_range.mpr (List.getElem?_eq_some_iff.mp last).1
  have place : 19 < d.records.acclistResp.length := by rw [tabled.2]; decide
  have stored : slots[19]? = some (historyOf bits (imData.arrayGetIdx 19) d.records.acclistResp[19]) := by
    rw [slot 19,if_pos turn,List.getElem?_eq_getElem place,Option.map_some,tabled.1]
  rw [parsed,made]
  dsimp only
  rw [List.getD_eq_getElem?_getD,stored,Option.getD_some]
  exact AccRecord.stored wide (each 19 x last) _

theorem acclist_data_exact (reply : HistoryReply jsonMsg xs) (tabled : Tabled bits d) (wide : 32 ≤ bits)
    (few : xs.length ≤ maxAccHis) :
    (imJsonMakeTermresAcclist (imJsonParseDataGetacclistResp d.records jsonMsg).1 .empty).json = historyJson xs ↔
      ∃ x : AccRecord, x.useTime ≠ 0 ∧ xs = List.replicate maxAccHis x := by
  rw [imJsonMakeTermresAcclist_exact]
  constructor
  · intro same
    have items := Json.array.inj same
    have count : (xs.filter (·.useTime ≠ 0)).length = maxAccHis := by
      simpa using (congrArg List.length items).symm
    have whole : xs.filter (·.useTime ≠ 0) = xs :=
      List.filter_sublist.eq_of_length_le (by omega)
    rw [whole] at items count
    have full : 0 < xs.length := by rw [count]; decide
    have alike : ∀ y ∈ xs, y = xs[0] := by
      intro y member
      have shown {z} (inside : z ∈ xs) := List.eq_of_mem_replicate (items ▸ List.mem_map_of_mem inside)
      exact recordMembers_inj ((shown member).trans (shown (List.getElem_mem full)).symm)
    refine ⟨xs[0],?_,List.eq_replicate_iff.mpr ⟨count,alike⟩⟩
    have used := List.filter_eq_self.mp whole xs[0] (List.getElem_mem full)
    exact of_decide_eq_true used
  · rintro ⟨x,used,rfl⟩
    have kept : (List.replicate maxAccHis x).filter (·.useTime ≠ 0) = List.replicate maxAccHis x := by
      apply List.filter_eq_self.mpr
      intro y member
      rw [List.eq_of_mem_replicate member]
      exact decide_eq_true used
    rw [historyJson,kept,List.map_replicate,reply.last tabled wide rfl]
    rfl

theorem acclist_sucess (imData : Json) (indices : List Nat) (state : Records × Int) (start : state.2 = msgCodeSucess)
    (found : ∀ i ∈ indices, ∀ key ∈ [JsonImCmd.useTime,.useFlow,.openAccTime],
      (supplied (imData.arrayGetIdx i) key).isSome = true) :
    (indices.foldl (accHistroyStore imData) state).2 = msgCodeSucess := by
  induction indices generalizing state with
  | nil => exact start
  | cons i rest ih =>
    refine ih _ ?_ fun j member => found j (List.mem_cons_of_mem _ member)
    have code (key : JsonImCmd) (listed : key ∈ [JsonImCmd.useTime,.useFlow,.openAccTime]) :
        getCode (imData.arrayGetIdx i) key = 0 := getCode_sucess.mpr (found i List.mem_cons_self key listed)
    simp only [accHistroyStore,imJsonGetInt,imJsonGetInt64,imJsonGet_code,start,code .useTime (by simp),
      code .useFlow (by simp),code .openAccTime (by simp)]
    rfl

theorem Supplies.isSome (supplies : Supplies item key value) : (supplied item key).isSome = true := by
  obtain ⟨member,found,_⟩ := supplies
  exact Option.isSome_of_mem found

theorem HeaderComplete.carries {kind : CloudMsgCmd} (complete : HeaderComplete jsonMsg)
    (command : headerCmd jsonMsg = kind.code) (success : headerCode jsonMsg = msgCodeSucess) (r : Records) (h : MsgHeader) :
    ∃ header : MsgHeader, header.imCode = msgCodeSucess ∧ imJsonParseCloud r (some jsonMsg) h =
      ⟨(imJsonParseDataCloud r jsonMsg kind.code).1,header,(imJsonParseDataCloud r jsonMsg kind.code).2⟩ := by
  have valid : (imJsonParseHeader jsonMsg h).2 = msgCodeSucess := (imJsonParseHeader_sucess jsonMsg h).mpr complete
  obtain ⟨cmd,code⟩ := complete.numbers h
  rw [command] at cmd
  rw [success] at code
  refine ⟨(imJsonParseHeader jsonMsg h).1,code,?_⟩
  unfold imJsonParseCloud
  dsimp only
  rw [if_neg (not_not.mpr valid),if_pos code,cmd]

theorem HistoryReply.parsed (reply : HistoryReply jsonMsg xs) (r : Records) (h : MsgHeader) :
    (imJsonParseCloud r (some jsonMsg) h).ret = msgCodeSucess ∧
      (imJsonParseCloud r (some jsonMsg) h).header.imCode = msgCodeSucess ∧
      (imJsonParseCloud r (some jsonMsg) h).records = (imJsonParseDataGetacclistResp r jsonMsg).1 := by
  obtain ⟨imData,_,_,data,each⟩ := reply.data_parsed r
  have accepted : (imJsonParseDataGetacclistResp r jsonMsg).2 = msgCodeSucess := by
    rw [data]
    refine acclist_sucess imData _ _ rfl ?_
    intro i turn key listed
    have here := each i _ (List.getElem?_eq_getElem (List.mem_range.mp turn))
    simp only [List.mem_cons,List.not_mem_nil,or_false] at listed
    rcases listed with rfl | rfl | rfl
    · exact here.useTime.isSome
    · exact here.useFlow.isSome
    · exact here.openAccTime.isSome
  obtain ⟨header,code,parsed⟩ := reply.complete.carries reply.command reply.success r h
  rw [parsed]
  exact ⟨accepted,code,rfl⟩

theorem respone_data (complete : HeaderComplete pMsg) (errcode : Int) (items : List Json) :
    ∃ msg, imJsonMakeResponeSend (some pMsg) errcode (some (.array items)) = some msg ∧
      msg.objectGet (jasonKey .data) = some (.array items) := by
  obtain ⟨jsonHeader,found,all⟩ := complete
  cases pMsg with
  | object members =>
    obtain ⟨old,code⟩ := Option.isSome_iff_exists.mp (all .code (by decide))
    have present : jsonHeader.objectGet (jasonKey .code) = some old := code
    have edited : imJsonMakeHeader (.object members) errcode = ((Json.object members).objectAdd (jasonKey .header)
        (jsonHeader.objectAdd (jasonKey .code) (.int errcode)),msgCodeSucess) := by
      simp only [imJsonMakeHeader,found,imJsonObjectSetInt,present]
    refine ⟨_,by simp only [imJsonMakeResponeSend,edited]; rfl,?_⟩
    exact (Json.objectGet_objectAdd _ _ _ _).trans (if_pos rfl)
  | _ => cases found

theorem received_parsed (asked : HeaderComplete pMsg) (cmd : headerCmd pMsg = kind.code) (d : Daemon) : ∃ found,
    received d (some pMsg) =
      ({d with records := (imJsonParseDataTerminal {d.records with cmdHeader := found} pMsg kind.code).1},
        (imJsonParseDataTerminal {d.records with cmdHeader := found} pMsg kind.code).2) ∧
      TermMsgCmd.ofCode found.imCmd = some kind := by
  have valid : (imJsonParseHeader pMsg d.records.cmdHeader).2 = msgCodeSucess := (imJsonParseHeader_sucess pMsg _).mpr asked
  have number := (asked.numbers d.records.cmdHeader).1.trans cmd
  refine ⟨_,?_,TermMsgCmd.ofCode_exact.mpr number⟩
  unfold received imJsonParseTerminal
  dsimp only
  rw [if_neg (not_not.mpr valid),number]

def TermMsgCmd.bare : TermMsgCmd → Bool
  | .accStateInfo | .getflowInfo | .ungettedflow | .peakflow | .getAcclist => true
  | .startAcc | .stopAcc | .getflow | .keepacc | .iosinfo => false

theorem received_bare (asked : HeaderComplete pMsg) (cmd : headerCmd pMsg = kind.code) (bare : kind.bare = true)
    (d : Daemon) : ∃ found,
      received d (some pMsg) = ({d with records := {d.records with cmdHeader := found}},msgCodeSucess) ∧
      TermMsgCmd.ofCode found.imCmd = some kind := by
  obtain ⟨found,parsed,command⟩ := received_parsed asked cmd d
  refine ⟨found,parsed.trans ?_,command⟩
  unfold imJsonParseDataTerminal
  rw [TermMsgCmd.ofCode_code]
  cases kind with
  | accStateInfo | getflowInfo | ungettedflow | peakflow | getAcclist => rfl
  | startAcc | stopAcc | getflow | keepacc | iosinfo => cases bare

theorem cloudRetry_success (accepted : (ask d header ex).ret = msgCodeSucess)
    (success : (ask d header ex).header.imCode = msgCodeSucess) : cloudRetry ask answer header d (ex :: rest) =
      some ⟨(answer (ask d header ex).daemon).1,msgCodeSucess,(answer (ask d header ex).daemon).2,false,rest⟩ := by
  unfold cloudRetry
  dsimp only
  rw [if_neg (not_not.mpr accepted),if_pos success]

theorem getAcclistRetry_told (reply : HistoryReply jsonMsg xs) (header : MsgHeader) (d : Daemon) (sent : Int)
    (stack : MsgHeader) : getAcclistRetry header d [⟨sent,some jsonMsg,stack⟩] =
      some ⟨{d.send (.cloud (imJsonMakeCmdAcclist d.records.loginResp)) with
          records := (imJsonParseDataGetacclistResp d.records jsonMsg).1},msgCodeSucess,
        imJsonMakeTermresAcclist (imJsonParseDataGetacclistResp d.records jsonMsg).1 .empty,false,[]⟩ := by
  obtain ⟨ret,code,records⟩ := reply.parsed d.records header
  refine (cloudRetry_success ret code).trans ?_
  rw [← records]
  rfl

theorem acclist_told (asked : HeaderComplete pMsg) (cmd : headerCmd pMsg = TermMsgCmd.getAcclist.code)
    (reply : HistoryReply jsonMsg xs) (w : World) (thread : Option MsgHeader) (header : MsgHeader) (sent : Int)
    (stack : MsgHeader) : ∃ next msg,
      step w (.message (some pMsg) thread header [⟨sent,some jsonMsg,stack⟩]) = some next ∧
      next.daemon.out = w.daemon.out ++ [.cloud (imJsonMakeCmdAcclist w.daemon.records.loginResp),.reply msg] ∧
      msg.objectGet (jasonKey .data) = some (imJsonMakeTermresAcclist
        (imJsonParseDataGetacclistResp (received w.daemon (some pMsg)).1.records jsonMsg).1 .empty).json := by
  obtain ⟨found,parsed,command⟩ := received_bare asked cmd rfl w.daemon
  have switched : terminalSwitch thread.isSome header (received w.daemon (some pMsg)).1 [⟨sent,some jsonMsg,stack⟩] =
      getAcclistRetry header (received w.daemon (some pMsg)).1 [⟨sent,some jsonMsg,stack⟩] := by
    unfold terminalSwitch
    rw [parsed,command]
  have told := switched.trans (getAcclistRetry_told reply header (received w.daemon (some pMsg)).1 sent stack)
  obtain ⟨msg,made,data⟩ := respone_data asked msgCodeSucess (List.replicate _ (.object _))
  refine ⟨_,msg,message_step (congrArg Prod.snd parsed) told rfl,?_,data⟩
  dsimp only [Daemon.reply,TermData.json]
  rw [made]
  simp only [Daemon.send,parsed,List.append_assoc]
  rfl

def HistoryRelayed (w : World) (pMsg : Json) (thread : Option MsgHeader) (header : MsgHeader) (ex : Exchange)
    (xs : List AccRecord) : Prop :=
  ∃ next msg, step w (.message (some pMsg) thread header [ex]) = some next ∧
    next.daemon.out = w.daemon.out ++ [.cloud (imJsonMakeCmdAcclist w.daemon.records.loginResp),.reply msg] ∧
    msg.objectGet (jasonKey .data) = some (historyJson xs)

-- It is exactly where the reply fills the table with one and the same record, used.
theorem historyRelayed_exact (path : Reached Transition.free (World.boot bits uci lanIp login) w) (wide : 32 ≤ bits)
    (asked : HeaderComplete pMsg) (cmd : headerCmd pMsg = TermMsgCmd.getAcclist.code)
    (reply : HistoryReply jsonMsg xs) (few : xs.length ≤ maxAccHis) (thread : Option MsgHeader) (header : MsgHeader)
    (sent : Int) (stack : MsgHeader) :
    HistoryRelayed w pMsg thread header ⟨sent,some jsonMsg,stack⟩ xs ↔
      ∃ x : AccRecord, x.useTime ≠ 0 ∧ xs = List.replicate maxAccHis x := by
  have tabled := reached_keeps path (tabled_kept bits) (boot_tabled bits uci lanIp login)
  have parsed := tabled_kept bits _ (.parse (some pMsg)) tabled trivial
  obtain ⟨next,msg,taken,out,data⟩ := acclist_told asked cmd reply w thread header sent stack
  rw [← acclist_data_exact reply parsed wide few]
  constructor
  · rintro ⟨next',msg',taken',out',relayed⟩
    rw [taken] at taken'
    cases taken'
    have same : msg = msg' := by simpa using out.symm.trans out'
    rw [same,relayed] at data
    exact (Option.some.inj data).symm
  · intro same
    exact ⟨next,msg,taken,out,data.trans (congrArg some same)⟩

def historyMessage (xs : List AccRecord) : Json :=
  messageJson CloudMsgCmd.getAcclist.code msgCodeSucess
    (xs.map fun x => recordMembers (.int x.useTime) (.int x.useFlow) (.int x.openAccTime))

theorem historyMessage_reply (inRange : ∀ x ∈ xs, AccRecord.InRange x) : HistoryReply (historyMessage xs) xs := by
  refine ⟨delivered_complete _ _ _,rfl,rfl,_,rfl,by simp [Json.arrayLength],?_⟩
  intro i x here
  have item : Json.arrayGetIdx i (.array ((xs.map fun x => recordMembers (.int x.useTime) (.int x.useFlow)
      (.int x.openAccTime)).map .object)) = some x.json := by
    simp [Json.arrayGetIdx,List.getElem?_map,here,AccRecord.json,Json.nonNull]
  rw [item]
  exact ⟨⟨_,rfl,rfl⟩,⟨_,rfl,rfl⟩,⟨_,rfl,rfl⟩,inRange x (List.mem_of_getElem? here)⟩

def historyRequest : Json := termMsg .getAcclist

theorem historyRelayed_repeated : ∃ x : AccRecord, x.useTime ≠ 0 ∧
    HistoryRelayed booted historyRequest none default ⟨msgCodeSucess,some (historyMessage (List.replicate maxAccHis x)),default⟩
      (List.replicate maxAccHis x) := by
  have inRange : ∀ x ∈ List.replicate maxAccHis (⟨60,5,1000⟩ : AccRecord), AccRecord.InRange x := by
    intro x member
    rw [List.eq_of_mem_replicate member]
    exact ⟨rfl,rfl,rfl⟩
  refine ⟨⟨60,5,1000⟩,by decide,?_⟩
  exact (historyRelayed_exact (.refl : Reached Transition.free booted booted) (by decide) (delivered_complete _ _ _) rfl
    (historyMessage_reply inRange) (by decide) none default msgCodeSucess default).mpr ⟨_,by decide,rfl⟩

-- A history of one record is answered with twenty references to the empty last slot.
theorem historyRelayed_single : ¬ ∀ (w : World) (jsonMsg : Json) (xs : List AccRecord),
    Reached Transition.free booted w → HistoryReply jsonMsg xs → xs.length ≤ maxAccHis →
      HistoryRelayed w historyRequest none default ⟨msgCodeSucess,some jsonMsg,default⟩ xs := by
  intro always
  have reply : HistoryReply (historyMessage [⟨60,5,1000⟩]) [⟨60,5,1000⟩] :=
    historyMessage_reply fun x member => List.mem_singleton.mp member ▸ ⟨rfl,rfl,rfl⟩
  obtain ⟨next,msg,taken,out,relayed⟩ := always booted _ _ .refl reply (by decide)
  have asked : HeaderComplete historyRequest := delivered_complete _ _ _
  obtain ⟨next',msg',taken',out',data⟩ := acclist_told asked rfl reply booted none default msgCodeSucess default
  rw [taken] at taken'
  cases taken'
  have same : msg = msg' := by simpa using out.symm.trans out'
  have tabled := tabled_kept 32 _ (.parse (some historyRequest)) (boot_tabled 32 default (bytes "192.168.1.1") loginReply) trivial
  rw [same,data] at relayed
  obtain ⟨x,_,repeated⟩ := (acclist_data_exact reply tabled (by decide) (by decide)).mp (Option.some.inj relayed)
  have count : 1 = maxAccHis := (congrArg List.length repeated).trans List.length_replicate
  exact absurd count (by decide)

end ImAcc
