import ImAcc.CloudOps

-- What im_json_parse_cloud can do: the records it never writes, and its verdict.
namespace ImAcc
open JsonC

def getCode (jsonMsg : Option Json) (key : JsonImCmd) : Int :=
  match jsonMsg with
  | none => msgCodeUnknown
  | some obj => if (obj.objectGet (jasonKey key)).isSome then msgCodeSucess else msgCodeFormatErr

@[simp] theorem imJsonGet_code (read : Json → α) (jsonMsg : Option Json) (key : JsonImCmd) (value : α) :
    (imJsonGet read jsonMsg key value).1 = getCode jsonMsg key := by
  cases jsonMsg with
  | none => rfl
  | some obj => cases found : obj.objectGet (jasonKey key) <;> simp [imJsonGet,getCode,found]

@[simp] theorem imJsonGet_value (read : Json → α) (jsonMsg : Option Json) (key : JsonImCmd) (value : α) :
    (imJsonGet read jsonMsg key value).2 = ((supplied jsonMsg key).map read).getD value := by
  cases jsonMsg with
  | none => rfl
  | some obj => cases found : obj.objectGet (jasonKey key) <;> simp [imJsonGet,supplied,found]

theorem getCode_nonneg (jsonMsg : Option Json) (key : JsonImCmd) : 0 ≤ getCode jsonMsg key := by
  cases jsonMsg with
  | none => simp [getCode]
  | some obj => simp only [getCode]; split <;> decide

@[simp] theorem getCode_sucess : getCode jsonMsg key = 0 ↔ (supplied jsonMsg key).isSome = true := by
  cases jsonMsg with
  | none => simp [getCode,supplied]
  | some obj => cases found : obj.objectGet (jasonKey key) <;> simp [getCode,supplied,found]

theorem orInto_nonneg (ret code : Int) : 0 ≤ orInto ret code := Int.natCast_nonneg _

theorem orInto_sucess (left : 0 ≤ ret) (right : 0 ≤ code) : orInto ret code = 0 ↔ ret = 0 ∧ code = 0 := by
  have split : orInto ret code = 0 ↔ ret.toNat = 0 ∧ code.toNat = 0 := by
    simp [orInto,Nat.or_eq_zero_iff]
  rw [split]
  omega

theorem foldl_orInto_sucess (codes : List Int) (left : 0 ≤ ret) (all : ∀ code ∈ codes, 0 ≤ code) :
    codes.foldl orInto ret = 0 ↔ ret = 0 ∧ ∀ code ∈ codes, code = 0 := by
  induction codes generalizing ret with
  | nil => simp
  | cons code rest ih =>
    have head := all code (by simp)
    rw [List.foldl_cons,ih (orInto_nonneg _ _) (fun c member => all c (by simp [member])),orInto_sucess left head]
    simp [and_assoc]

def headerKeys : List JsonImCmd := [.cmd,.ver,.seq,.device,.code,.sessionid,.sign]

def HeaderComplete (jsonMsg : Json) : Prop :=
  ∃ jsonHeader, jsonMsg.objectGet (jasonKey .header) = some jsonHeader ∧
    ∀ key ∈ headerKeys, (supplied (some jsonHeader) key).isSome = true

theorem imJsonParseHeader_sucess (jsonMsg : Json) (h : MsgHeader) :
    (imJsonParseHeader jsonMsg h).2 = 0 ↔ HeaderComplete jsonMsg := by
  unfold imJsonParseHeader HeaderComplete
  cases found : jsonMsg.objectGet (jasonKey .header) with
  | none => simp
  | some jsonHeader =>
    have folded := foldl_orInto_sucess (headerKeys.map (getCode (some jsonHeader))) (Int.le_refl 0)
      (by intro code member; obtain ⟨key,_,rfl⟩ := List.mem_map.mp member; exact getCode_nonneg _ _)
    simp only [headerKeys,List.map_cons,List.map_nil,true_and] at folded
    simp only [imJsonGetInt,imJsonGetString,imJsonGet_code,msgCodeSucess,msgCodeFormatErr,folded]
    simp [headerKeys,Option.isSome_iff_ne_none]

theorem imJsonParseHeader_fields (complete : HeaderComplete jsonMsg) (h h' : MsgHeader) :
    (imJsonParseHeader jsonMsg h).1 = (imJsonParseHeader jsonMsg h').1 := by
  obtain ⟨jsonHeader,found,all⟩ := complete
  have value {α : Type} (read : Json → α) (key : JsonImCmd) (member : key ∈ headerKeys) (old new : α) :
      ((supplied (some jsonHeader) key).map read).getD old =
        ((supplied (some jsonHeader) key).map read).getD new := by
    obtain ⟨item,present⟩ := Option.isSome_iff_exists.mp (all key member)
    simp [present]
  simp only [imJsonParseHeader,found,imJsonGetInt,imJsonGetString,imJsonGet_value]
  congr 1 <;> exact value _ _ (by decide) _ _

theorem imJsonParseHeader_ret (jsonMsg : Json) (h h' : MsgHeader) :
    (imJsonParseHeader jsonMsg h).2 = (imJsonParseHeader jsonMsg h').2 := by
  unfold imJsonParseHeader
  cases jsonMsg.objectGet (jasonKey .header) with
  | none => rfl
  | some jsonHeader => simp [imJsonGetInt,imJsonGetString]

-- The header left by an earlier reply plays no part.
theorem imJsonParseCloud_cases (r : Records) (jsonMsg : Json) (h : MsgHeader) : let header := imJsonParseHeader jsonMsg default
    (header.2 = msgCodeSucess ∧ header.1.imCode = msgCodeSucess ∧
      (imJsonParseCloud r (some jsonMsg) h).records = (imJsonParseDataCloud r jsonMsg header.1.imCmd).1) ∨
    (¬(header.2 = msgCodeSucess ∧ header.1.imCode = msgCodeSucess) ∧ ((imJsonParseCloud r (some jsonMsg) h).records = r ∨
      ∃ cmd, (imJsonParseCloud r (some jsonMsg) h).records = (imJsonParseDataTaskresultResp r jsonMsg cmd msgCodeMsgdelay).1)) := by
  dsimp only
  by_cases complete : (imJsonParseHeader jsonMsg default).2 = msgCodeSucess
  · have valid := (imJsonParseHeader_ret jsonMsg h default).trans complete
    unfold imJsonParseCloud
    dsimp only
    rw [imJsonParseHeader_fields ((imJsonParseHeader_sucess jsonMsg default).mp complete) h default,if_neg (not_not.mpr valid)]
    by_cases success : (imJsonParseHeader jsonMsg default).1.imCode = msgCodeSucess
    · rw [if_pos success]
      exact .inl ⟨complete,success,rfl⟩
    · rw [if_neg success]
      refine .inr ⟨fun both => success both.2,?_⟩
      split
      · exact .inr ⟨_,rfl⟩
      · exact .inl rfl
  · have rejected : (imJsonParseHeader jsonMsg h).2 ≠ msgCodeSucess :=
      fun valid => complete ((imJsonParseHeader_ret jsonMsg default h).trans valid)
    unfold imJsonParseCloud
    dsimp only
    rw [if_pos rejected]
    exact .inr ⟨fun both => complete both.1,.inl rfl⟩

structure CloudFrame (before after : Records) : Prop where
  ulongBits : after.ulongBits = before.ulongBits
  cmdHeader : after.cmdHeader = before.cmdHeader
  speedup : after.speedup = before.speedup
  getflow : after.getflow = before.getflow
  keepacc : after.keepacc = before.keepacc
  iosinfo : after.iosinfo = before.iosinfo
  loginCmd : after.loginCmd = before.loginCmd
  accState : after.speedupinfoResp.imAccState = before.speedupinfoResp.imAccState
  ungetflowResp : after.ungetflowResp = before.ungetflowResp
  peakflowResp : after.peakflowResp = before.peakflowResp
  uciSaveIp : after.uciSaveIp = before.uciSaveIp

theorem CloudFrame.refl (r : Records) : CloudFrame r r := ⟨rfl,rfl,rfl,rfl,rfl,rfl,rfl,rfl,rfl,rfl,rfl⟩

theorem CloudFrame.trans (ab : CloudFrame a b) (bc : CloudFrame b c) : CloudFrame a c :=
  ⟨bc.ulongBits.trans ab.ulongBits,bc.cmdHeader.trans ab.cmdHeader,bc.speedup.trans ab.speedup,
   bc.getflow.trans ab.getflow,bc.keepacc.trans ab.keepacc,bc.iosinfo.trans ab.iosinfo,
   bc.loginCmd.trans ab.loginCmd,bc.accState.trans ab.accState,bc.ungetflowResp.trans ab.ungetflowResp,
   bc.peakflowResp.trans ab.peakflowResp,bc.uciSaveIp.trans ab.uciSaveIp⟩

theorem withDevObj_frame (keep : ∀ devObj, CloudFrame r (body devObj).1) :
    CloudFrame r (withDevObj r jsonMsg body).1 := by
  unfold withDevObj
  split
  · exact .refl r
  · split
    · exact .refl r
    · exact keep _

theorem accHistroyStore_frame (keep : CloudFrame r state.1) :
    CloudFrame r (accHistroyStore imData state i).1 :=
  keep.trans ⟨rfl,rfl,rfl,rfl,rfl,rfl,rfl,rfl,rfl,rfl,rfl⟩

theorem acclist_frame (indices : List Nat) (keep : CloudFrame r state.1) :
    CloudFrame r (indices.foldl (accHistroyStore imData) state).1 := by
  induction indices generalizing state with
  | nil => exact keep
  | cons i rest ih => exact ih (accHistroyStore_frame keep)

theorem taskresultData_frame (r : Records) (jsonMsg : Json) : CloudFrame r (taskresultData r jsonMsg).1 := by
  have start : CloudFrame r (imJsonParseDataStartaccResp r jsonMsg).1 :=
    withDevObj_frame fun _ => ⟨rfl,rfl,rfl,rfl,rfl,rfl,rfl,rfl,rfl,rfl,rfl⟩
  have isacc : CloudFrame r (imJsonParseDataIsaccResp r jsonMsg).1 :=
    withDevObj_frame fun _ => ⟨rfl,rfl,rfl,rfl,rfl,rfl,rfl,rfl,rfl,rfl,rfl⟩
  have written (s : Records) : CloudFrame s (configWriteImAcc s) := ⟨rfl,rfl,rfl,rfl,rfl,rfl,rfl,rfl,rfl,rfl,rfl⟩
  have ofStart (s : Records) : CloudFrame s (speedupinfoOfStart s) := ⟨rfl,rfl,rfl,rfl,rfl,rfl,rfl,rfl,rfl,rfl,rfl⟩
  have ofIsacc (s : Records) : CloudFrame s (speedupinfoOfIsacc s) := ⟨rfl,rfl,rfl,rfl,rfl,rfl,rfl,rfl,rfl,rfl,rfl⟩
  unfold taskresultData adopt
  cases r.speedupinfoResp.imAccState with
  | opening =>
    dsimp only
    split
    · exact (start.trans (ofStart _)).trans (written _)
    · exact start.trans (written _)
  | querying =>
    dsimp only
    split
    · exact (isacc.trans (ofIsacc _)).trans (written _)
    · exact isacc.trans (written _)
  | unset => exact written r
  | closed => exact written r
  | opened => exact written r

theorem imJsonParseDataTaskresultResp_frame (r : Records) (jsonMsg : Json) (cmd errcode : Int) :
    CloudFrame r (imJsonParseDataTaskresultResp r jsonMsg cmd errcode).1 := by
  have taskid : CloudFrame r (imJsonParseDataTaskid r jsonMsg).1 :=
    withDevObj_frame fun _ => ⟨rfl,rfl,rfl,rfl,rfl,rfl,rfl,rfl,rfl,rfl,rfl⟩
  unfold imJsonParseDataTaskresultResp
  split
  · exact .refl r
  · cases CloudMsgCmd.ofCode cmd with
    | none => exact .refl r
    | some kind =>
      cases kind with
      | isAcc | startAcc => dsimp only; split <;> [exact .refl r; exact taskid]
      | getTaskresult => dsimp only; split <;> [exact .refl r; exact taskresultData_frame r jsonMsg]
      | _ => exact .refl r

theorem imJsonParseDataCloud_frame (r : Records) (jsonMsg : Json) (cmd : Int) :
    CloudFrame r (imJsonParseDataCloud r jsonMsg cmd).1 := by
  unfold imJsonParseDataCloud
  cases CloudMsgCmd.ofCode cmd with
  | none => exact .refl r
  | some kind =>
    cases kind with
    | getAcclist =>
      dsimp only [imJsonParseDataGetacclistResp]
      split
      · exact .refl r
      · exact acclist_frame _ (.refl r)
    | getTaskresult => exact imJsonParseDataTaskresultResp_frame ..
    | devLogout | getaccFlow | stopAcc | countFlow => exact .refl r
    | _ => exact withDevObj_frame fun _ => ⟨rfl,rfl,rfl,rfl,rfl,rfl,rfl,rfl,rfl,rfl,rfl⟩

theorem imJsonParseCloud_frame (r : Records) (pMsg : Option Json) (h : MsgHeader) :
    CloudFrame r (imJsonParseCloud r pMsg h).records := by
  unfold imJsonParseCloud
  cases pMsg with
  | none => exact .refl r
  | some jsonMsg =>
    dsimp only
    split
    · exact .refl r
    · split
      · exact imJsonParseDataCloud_frame ..
      · split
        · exact imJsonParseDataTaskresultResp_frame ..
        · exact .refl r

theorem withDevObj_ret (r s : Records) (jsonMsg : Json) (same : ∀ devObj, (f devObj).2 = (g devObj).2) :
    (withDevObj r jsonMsg f).2 = (withDevObj s jsonMsg g).2 := by
  unfold withDevObj
  cases jsonMsg.objectGet (jasonKey .data) with
  | none => rfl
  | some imData =>
    cases first : imData.arrayGetIdx 0 with
    | none => simp [first]
    | some devObj => simpa [first] using same devObj

theorem acclist_ret (indices : List Nat) (same : a.2 = b.2) :
    (indices.foldl (accHistroyStore imData) a).2 = (indices.foldl (accHistroyStore imData) b).2 := by
  induction indices generalizing a b with
  | nil => exact same
  | cons i rest ih => exact ih (by simp [accHistroyStore,imJsonGetInt,imJsonGetInt64,same])

theorem taskresultData_ret (r s : Records) (jsonMsg : Json)
    (same : r.speedupinfoResp.imAccState = s.speedupinfoResp.imAccState) :
    (taskresultData r jsonMsg).2 = (taskresultData s jsonMsg).2 := by
  unfold taskresultData
  rw [same]
  cases s.speedupinfoResp.imAccState with
  | opening => exact withDevObj_ret _ _ _ fun _ => rfl
  | querying => exact withDevObj_ret _ _ _ fun _ => by simp [imJsonGetInt]
  | _ => rfl

theorem imJsonParseDataTaskresultResp_ret (r s : Records) (jsonMsg : Json) (cmd errcode : Int)
    (same : r.speedupinfoResp.imAccState = s.speedupinfoResp.imAccState) :
    (imJsonParseDataTaskresultResp r jsonMsg cmd errcode).2 =
      (imJsonParseDataTaskresultResp s jsonMsg cmd errcode).2 := by
  have taskid : (imJsonParseDataTaskid r jsonMsg).2 = (imJsonParseDataTaskid s jsonMsg).2 :=
    withDevObj_ret _ _ _ fun _ => by simp [imJsonGetString]
  have task := taskresultData_ret r s jsonMsg same
  unfold imJsonParseDataTaskresultResp
  rw [same]
  split
  · rfl
  · cases CloudMsgCmd.ofCode cmd with
    | none => rfl
    | some kind =>
      cases kind with
      | isAcc | startAcc => dsimp only; split <;> [rfl; exact taskid]
      | getTaskresult => dsimp only; split <;> [rfl; exact task]
      | _ => rfl

theorem imJsonParseDataCloud_ret (r s : Records) (jsonMsg : Json) (cmd : Int)
    (same : r.speedupinfoResp.imAccState = s.speedupinfoResp.imAccState) :
    (imJsonParseDataCloud r jsonMsg cmd).2 = (imJsonParseDataCloud s jsonMsg cmd).2 := by
  unfold imJsonParseDataCloud
  cases CloudMsgCmd.ofCode cmd with
  | none => rfl
  | some kind =>
    cases kind with
    | getAcclist =>
      dsimp only [imJsonParseDataGetacclistResp]
      split
      · rfl
      · exact acclist_ret _ rfl
    | getTaskresult => exact imJsonParseDataTaskresultResp_ret _ _ _ _ _ same
    | devLogout | getaccFlow | stopAcc | countFlow => rfl
    | _ => exact withDevObj_ret _ _ _ fun _ => by simp [imJsonGetString,imJsonGetInt,imJsonGetInt64]

theorem imJsonParseCloud_ret (r s : Records) (pMsg : Option Json) (h h' : MsgHeader)
    (same : r.speedupinfoResp.imAccState = s.speedupinfoResp.imAccState) :
    (imJsonParseCloud r pMsg h).ret = (imJsonParseCloud s pMsg h').ret := by
  cases pMsg with
  | none => rfl
  | some jsonMsg =>
    have verdict := imJsonParseHeader_ret jsonMsg h h'
    by_cases complete : HeaderComplete jsonMsg
    · have fields := imJsonParseHeader_fields complete h h'
      simp only [imJsonParseCloud,verdict,fields]
      split
      · rfl
      · split
        · exact imJsonParseDataCloud_ret _ _ _ _ same
        · split
          · exact imJsonParseDataTaskresultResp_ret _ _ _ _ _ same
          · rfl
    · have failed : (imJsonParseHeader jsonMsg h').2 ≠ 0 := fun ok => complete ((imJsonParseHeader_sucess _ _).mp ok)
      simp [imJsonParseCloud,failed,verdict]

-- The verdict, and an accepted reply's header, depend on the reply and the state alone.
def blank (state : AccOpenState) : Records := (Records.boot 32 default).setAccState state

def accepts (state : AccOpenState) (body : Option Json) : Bool :=
  (imJsonParseCloud (blank state) body default).ret = msgCodeSucess

def replyHeader (body : Option Json) : MsgHeader := (imJsonParseCloud (blank .unset) body default).header

theorem imJsonParseCloud_accepts (r : Records) (body : Option Json) (h : MsgHeader) :
    (imJsonParseCloud r body h).ret = 0 ↔ accepts r.speedupinfoResp.imAccState body = true := by
  rw [imJsonParseCloud_ret r (blank r.speedupinfoResp.imAccState) body h default rfl]
  exact decide_eq_true_iff.symm

theorem imJsonParseCloud_complete (accepted : (imJsonParseCloud r body h).ret = 0) :
    ∃ jsonMsg, body = some jsonMsg ∧ HeaderComplete jsonMsg := by
  cases body with
  | none => simp [imJsonParseCloud] at accepted
  | some jsonMsg =>
    refine ⟨jsonMsg,rfl,?_⟩
    by_contra incomplete
    have failed : (imJsonParseHeader jsonMsg h).2 ≠ 0 := fun ok => incomplete ((imJsonParseHeader_sucess _ _).mp ok)
    simp [imJsonParseCloud,failed] at accepted

theorem imJsonParseCloud_parsed (r : Records) (jsonMsg : Json) (h : MsgHeader) :
    (imJsonParseCloud r (some jsonMsg) h).header = (imJsonParseHeader jsonMsg h).1 := by
  simp only [imJsonParseCloud]
  split
  · rfl
  · split
    · rfl
    · split <;> rfl

theorem imJsonParseCloud_header (accepted : (imJsonParseCloud r body h).ret = 0) :
    (imJsonParseCloud r body h).header = replyHeader body := by
  obtain ⟨jsonMsg,rfl,complete⟩ := imJsonParseCloud_complete accepted
  rw [replyHeader,imJsonParseCloud_parsed,imJsonParseCloud_parsed]
  exact imJsonParseHeader_fields complete _ _

end ImAcc
