import ImAcc.Capacity
import ImAcc.Embedded
import ImAcc.Signature

-- The texts the daemon composes against the arrays they are composed in.
namespace ImAcc
open JsonC JsonText Json

-- With its NUL.
def FitsIn (size : Nat) (text : Bytes) : Prop := text.length+1 ≤ size

instance (size : Nat) (text : Bytes) : Decidable (FitsIn size text) := inferInstanceAs (Decidable (_ ≤ _))

def iosserverUrl : Bytes := bytes "http://172.20.10.236:9091/interface/push_msg/"

def urlSign (url sign : Bytes) : Bytes := url ++ bytes "?sign=" ++ sign ++ bytes "\n"

def storedTexts (r : Records) : List (Bytes × Nat) :=
  [(r.loginCmd.imDevId,maxString),(r.loginCmd.imIp,maxIpLen),(r.loginResp.imSessionId,maxString),
   (r.acc.imSessionId,maxString),(r.acc.imDevId,maxString),(r.acc.imIp,maxString),
   (r.countflowCmd.imSessionId,maxString),(r.getaacflowCmd.imSessionId,maxString),
   (r.getaacflowCmd.imTaskId,maxString),(r.taskresultCmd.imTaskid,maxString)]

def StoredFit (r : Records) : Prop := ∀ text ∈ storedTexts r, FitsIn text.2 text.1

instance (r : Records) : Decidable (StoredFit r) := inferInstanceAs (Decidable (∀ text ∈ storedTexts r, _))

structure OutgoingFit (stack : Md5Ctx) (r : Records) (notyType : BrocastNotifyType) (notyMsg : Bytes) (tim : Int) : Prop where
  cmds : ∀ op : CloudOp, FitsIn 1024 (op.imJsonMakeCmd r)
  udpInfo : FitsIn 1024 (udpInfo notyType notyMsg)
  msg : FitsIn 1024 (pushed stack r.iosinfo notyMsg tim).1
  jsonString : FitsIn 1024 ((pushed stack r.iosinfo notyMsg tim).1 ++ signKey)
  urlSign : FitsIn 128 (urlSign iosserverUrl (pushed stack r.iosinfo notyMsg tim).2)

-- What json-c writes between the quotes.
def escapedLength (text : Bytes) : Nat := (text.flatMap Json.escape).length

def payloadLength (iosinfo : List IosinfoCmd) (notyMsg : Bytes) (tim : Int) : Nat :=
  25+(decimal (Int.bmod tim (2^32))).length+((named iosinfo).getLast?.elim 0 fun last =>
    (named iosinfo).length*(71+escapedLength notyMsg+escapedLength last.devicetoken)-1)

theorem quote_length (text : Bytes) : (quote text).length = escapedLength text+2 := by
  rw [quote,List.length_cons,List.length_append]
  rfl

def pushMembers (notyMsg devicetoken : Bytes) : List (Bytes × Json) :=
  [(jasonKey .badge,.int 1),(jasonKey .message,.string notyMsg),(jasonKey .device,.string devicetoken),
   (jasonKey .modele,.string Counted.moduleName)]

theorem brocastDevice_members (registered : slot.devicetoken ≠ []) (members : List (Bytes × Json))
    (before : members = [] ∨ ∃ devicetoken, members = pushMembers notyMsg devicetoken) (refs : Nat) :
    brocastDevice notyMsg ⟨members,refs⟩ slot = ⟨pushMembers notyMsg slot.devicetoken,refs+1⟩ := by
  have apart : jasonKey .badge ≠ jasonKey .message ∧ jasonKey .badge ≠ jasonKey .device ∧ jasonKey .badge ≠ jasonKey .modele ∧
      jasonKey .message ≠ jasonKey .device ∧ jasonKey .message ≠ jasonKey .modele ∧ jasonKey .device ≠ jasonKey .modele := by
    decide
  rw [brocastDevice,if_neg registered]
  rcases before with rfl | ⟨devicetoken,rfl⟩ <;>
    simp [TermData.add,TermData.append,pushMembers,Json.membersAdd,apart]

theorem brocast_members (iosinfo : List IosinfoCmd) (notyMsg : Bytes) : iosinfo.foldl (brocastDevice notyMsg) .empty =
    ⟨(named iosinfo).getLast?.elim [] fun last => pushMembers notyMsg last.devicetoken,(named iosinfo).length⟩ := by
  induction iosinfo using List.reverseRecOn with
  | nil => rfl
  | append_singleton rest slot ih =>
    rw [List.foldl_append,List.foldl_cons,List.foldl_nil,ih,named_snoc]
    by_cases empty : slot.devicetoken = []
    · rw [if_pos empty,brocastDevice,if_pos empty]
    · rw [if_neg empty,List.getLast?_concat,List.length_append]
      refine brocastDevice_members empty _ ?_ _
      cases (named rest).getLast? with
      | none => exact .inl rfl
      | some last => exact .inr ⟨_,rfl⟩

theorem pushMembers_length (notyMsg devicetoken : Bytes) :
    (toText (.object (pushMembers notyMsg devicetoken))).length = 69+escapedLength notyMsg+escapedLength devicetoken := by
  have bracket : (bytes "\x7b").length = 1 ∧ (bytes " \x7d").length = 2 ∧ (bytes " ").length = 1 ∧ (bytes ",").length = 1 ∧
      (bytes ": ").length = 2 ∧ (decimal 1).length = 1 := by decide
  have keys : escapedLength (jasonKey .badge) = 5 ∧ escapedLength (jasonKey .message) = 7 ∧
      escapedLength (jasonKey .device) = 6 ∧ escapedLength (jasonKey .modele) = 6 ∧
      escapedLength Counted.moduleName = 12 := by decide
  simp only [pushMembers,toText,membersText,memberText,List.length_append,quote_length,bracket,keys]
  omega

theorem itemsText_length (item : Json) (n : Nat) :
    (itemsText (List.replicate (n+1) item)).length+1 = (n+1)*((toText item).length+2) := by
  have blank : (bytes " ").length = 1 ∧ (bytes ",").length = 1 := by decide
  induction n with
  | zero => simp only [List.replicate_succ,List.replicate_zero,itemsText,List.length_append,blank]; omega
  | succ n ih =>
    rw [List.replicate_succ,List.replicate_succ,itemsText,← List.replicate_succ]
    simp only [List.length_append,blank]
    rw [Nat.succ_mul (n+1),← ih]
    omega

theorem payload_length (stack : Md5Ctx) (iosinfo : List IosinfoCmd) (notyMsg : Bytes) (tim : Int) :
    (pushed stack iosinfo notyMsg tim).1.length = payloadLength iosinfo notyMsg tim := by
  have bracket : (bytes "\x7b").length = 1 ∧ (bytes " \x7d").length = 2 ∧ (bytes " ").length = 1 ∧ (bytes ",").length = 1 ∧
      (bytes ": ").length = 2 ∧ (bytes "[").length = 1 ∧ (bytes " ]").length = 2 := by decide
  have keys : escapedLength (jasonKey .data) = 4 ∧ escapedLength (jasonKey .rand) = 4 := by decide
  have members : brocastObj iosinfo notyMsg tim = .object
      [(jasonKey .data,(iosinfo.foldl (brocastDevice notyMsg) .empty).json),
      (jasonKey .rand,.int (Int.bmod tim (2^32)))] := by
    have apart : jasonKey .data ≠ jasonKey .rand := by decide
    simp [brocastObj,Json.objectAdd,Json.membersAdd,apart]
  change (toText (brocastObj iosinfo notyMsg tim)).length = _
  rw [members,brocast_members,payloadLength]
  simp only [toText,membersText,memberText,TermData.json,List.length_append,quote_length,bracket,keys]
  cases last : (named iosinfo).getLast? with
  | none =>
    rw [List.getLast?_eq_none_iff.mp last]
    simp only [Option.elim,List.length_nil,List.replicate_zero,itemsText]
    omega
  | some slot =>
    obtain ⟨n,count⟩ : ∃ n, (named iosinfo).length = n+1 :=
      ⟨_,(Nat.succ_pred_eq_of_pos (List.length_pos_of_mem (List.mem_of_getLast? last))).symm⟩
    have items := itemsText_length (.object (pushMembers notyMsg slot.devicetoken)) n
    rw [pushMembers_length] at items
    rw [count]
    simp only [Option.elim]
    have same : (n+1)*(69+escapedLength notyMsg+escapedLength slot.devicetoken+2) =
        (n+1)*(71+escapedLength notyMsg+escapedLength slot.devicetoken) := by congr 1; omega
    omega

theorem cloudCmdText_length (cmd : CloudMsgCmd) (data : Bytes) : (cloudCmdText cmd data).length = 119+data.length := by
  have head : (cloudCmdHead cmd).length = 116 := by cases cmd <;> rfl
  have tail : (bytes "\x7d]\x7d").length = 3 := rfl
  rw [cloudCmdText_parts,List.length_append,List.length_append,head,tail]
  omega

theorem sessionText_length (session : Bytes) : (sessionText session).length = 14+session.length := by
  have quotes : (bytes "\"sessionid\":\"").length = 13 ∧ (bytes "\"").length = 1 := by decide
  simp only [sessionText,List.length_append,quotes]
  omega

theorem accText_length (acc : AccCmd) :
    (accText acc).length = 35+acc.imSessionId.length+acc.imDevId.length+acc.imIp.length := by
  have parts : (bytes ",\"dev_id\":\"").length = 11 ∧ (bytes "\", \"ip\":\"").length = 9 ∧ (bytes "\"").length = 1 := by decide
  simp only [accText,List.length_append,sessionText_length,parts]
  omega

theorem imJsonMakeCmdLogin_length (login : LoginCmd) :
    (imJsonMakeCmdLogin login).length = 138+login.imDevId.length+login.imIp.length := by
  have parts : cmdLoginHead.length = 115 ∧ (bytes "\x7d]\x7d").length = 3 ∧ (bytes "\"dev_id\":\"").length = 10 ∧
      (bytes ", \"ip\":\"").length = 8 := by decide
  rw [imJsonMakeCmdLogin_parts]
  simp only [loginText,List.length_append,parts,List.length_singleton]
  omega

theorem bmod_length (x : Int) (some : 0 < m) (wide : m ≤ 2^64) : (decimal (Int.bmod x m)).length ≤ 20 := by
  have low := Int.le_bmod (x := x) some
  have high := Int.bmod_lt (x := x) some
  exact decimal_length (by omega) (by omega)

theorem imJsonMakeCmd_fits (stored : StoredFit r) (wide : r.ulongBits ≤ 64) (op : CloudOp) :
    FitsIn 1024 (op.imJsonMakeCmd r) := by
  simp only [StoredFit,storedTexts,List.forall_mem_cons,FitsIn,maxString,maxIpLen] at stored
  obtain ⟨loginDev,loginIp,session,accSession,accDev,accIp,countSession,getSession,getTask,task,_⟩ := stored
  unfold FitsIn
  cases op with
  | login => rw [CloudOp.imJsonMakeCmd,imJsonMakeCmdLogin_length]; omega
  | isaac => rw [CloudOp.imJsonMakeCmd,imJsonMakeCmdIsacc,cloudCmdText_length,accText_length]; omega
  | startaac => rw [CloudOp.imJsonMakeCmd,imJsonMakeCmdStartacc,cloudCmdText_length,accText_length]; omega
  | countflow =>
    have number := bmod_length r.countflowCmd.imUseFlow (Nat.two_pow_pos _)
      (Nat.pow_le_pow_right (by decide) wide : 2^r.ulongBits ≤ 2^64)
    have label : (bytes ",\"use_flow\":").length = 12 := by decide
    simp only [CloudOp.imJsonMakeCmd,imJsonMakeCmdCountflow,cloudCmdText_length,List.length_append,sessionText_length,label]
    omega
  | getaacflow =>
    have label : (bytes " \"taskid\":\"").length = 11 ∧ (bytes "\"").length = 1 := by decide
    simp only [CloudOp.imJsonMakeCmd,imJsonMakeCmdGetaacflow,cloudCmdText_length,List.length_append,sessionText_length,label]
    omega
  | gettaskresult =>
    have label : (bytes ",\"task_id\":\"").length = 12 ∧ (bytes "\"").length = 1 := by decide
    simp only [CloudOp.imJsonMakeCmd,imJsonMakeCmdGettaskresult,cloudCmdText_length,List.length_append,sessionText_length,label]
    omega
  | logout | heartbeat | stopaac | getflow | getflowinfo | getacclist | getflowInfo | ungetflow | getaccinfo =>
    have bare (cmd : CloudMsgCmd) : (cloudCmdText cmd (sessionText r.loginResp.imSessionId)).length+1 ≤ 1024 := by
      rw [cloudCmdText_length,sessionText_length]
      omega
    exact bare _

theorem udpInfo_length (notyType : BrocastNotifyType) (notyMsg : Bytes) :
    (udpInfo notyType notyMsg).length = 42+notyMsg.length := by
  have head : (udpHead notyType).length = 40 := by cases notyType <;> rfl
  rw [udpInfo_parts]
  simp only [List.length_append,List.length_singleton,head]
  omega

theorem urlSign_length (url sign : Bytes) : (urlSign url sign).length = url.length+7+sign.length := by
  have parts : (bytes "?sign=").length = 6 ∧ (bytes "\n").length = 1 := by decide
  simp only [urlSign,List.length_append,parts]
  omega

-- Of all these texts the payload alone can be too long, and first with the key behind it.
theorem outgoingFit_exact (stored : StoredFit r) (wide : r.ulongBits ≤ 64) (short : notyMsg.length ≤ 511) (stack : Md5Ctx)
    (notyType : BrocastNotifyType) (tim : Int) :
    OutgoingFit stack r notyType notyMsg tim ↔ payloadLength r.iosinfo notyMsg tim+33 ≤ 1024 := by
  have key : signKey.length = 32 := rfl
  have url : iosserverUrl.length = 45 := rfl
  have signed := pushed_length stack r.iosinfo notyMsg tim
  constructor
  · intro fit
    have fits := fit.jsonString
    rwa [FitsIn,List.length_append,payload_length,key,Nat.add_assoc] at fits
  · intro fits
    refine ⟨imJsonMakeCmd_fits stored wide,?_,?_,?_,?_⟩
    · rw [FitsIn,udpInfo_length]
      omega
    · rw [FitsIn,payload_length]
      omega
    · rw [FitsIn,List.length_append,payload_length,key]
      omega
    · rw [FitsIn,urlSign_length,url,signed]
      decide

def blankCtx : Md5Ctx := ⟨0,0,⟨0,0,0,0⟩,fun _ => 0⟩

def crowded (n : Nat) : Records := heard (Records.boot 32 default)
  ([97,98,99,100,101].take n |>.map fun b => some (registering (List.replicate 64 b) (bytes "1")))

theorem outgoingFit_four : OutgoingFit blankCtx (crowded 4) .accStop (brocastNotify .accStop) 0 :=
  (outgoingFit_exact (by decide) (by decide) (by decide) _ _ _).mpr (by decide)

-- Five devices and a notice of 69 bytes.
theorem outgoingFit_five : ¬ ∀ messages stack notyType notyMsg tim, let r := heard (Records.boot 32 default) messages
    StoredFit r → (∀ slot ∈ r.iosinfo, FitsIn maxDeviceToken slot.devicetoken) → notyMsg.length ≤ 511 →
      OutgoingFit stack r notyType notyMsg tim := by
  intro always
  have fit : OutgoingFit blankCtx (crowded 5) .accStop (brocastNotify .accStop) 0 :=
    always _ _ _ _ _ (by decide) (by decide) (by decide)
  have fits := fit.msg
  rw [FitsIn,payload_length] at fits
  exact absurd fits (by decide)

end ImAcc
