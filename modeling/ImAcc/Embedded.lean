import ImAcc.Lib.TextCost
import ImAcc.Acts
import ImAcc.Messages

-- Strings that one peer sent, pasted into the texts for another.
namespace ImAcc
open JsonC JsonText

def UdpSurvives (notyType : BrocastNotifyType) (notyData : Bytes) : Prop :=
  read (udpInfo notyType notyData) = some (.object
    [(jasonKey .sendInformId,.number (decimal notyType.code)),(jasonKey .sendInformMsg,.string notyData)])

def CmdSurvives (op : CloudOp) (r : Records) : Prop :=
  read (op.imJsonMakeCmd r) = some (messageValue op.cmd (op.pasted r))

def udpHead (notyType : BrocastNotifyType) : Bytes :=
  bytes "\x7b\"" ++ jasonKey .sendInformId ++ bytes "\":" ++ decimal notyType.code ++ bytes ", \"" ++
  jasonKey .sendInformMsg ++ bytes "\":\""

theorem udpInfo_parts (notyType : BrocastNotifyType) (notyData : Bytes) :
    udpInfo notyType notyData = udpHead notyType ++ (notyData ++ [34]) ++ [125] := by
  have closing : bytes "\"\x7d" = [34] ++ [125] := rfl
  simp only [udpInfo,udpHead,closing,List.append_assoc]

theorem udp_exact (notyType : BrocastNotifyType) (notyData : Bytes) : UdpSurvives notyType notyData ↔ Plain notyData := by
  constructor
  · intro survives
    have paid := read_cost survives
    have head : weight (udpHead notyType) = 39 ∧ (decimal notyType.code).length = 1 := by
      cases notyType <;> exact ⟨rfl,rfl⟩
    have keys : textCost (jasonKey .sendInformId) = 14 ∧ textCost (jasonKey .sendInformMsg) = 15 := ⟨rfl,rfl⟩
    have closing : weight [34] = 1 ∧ weight [125] = 1 := ⟨rfl,rfl⟩
    rw [udpInfo_parts] at paid
    simp only [weight_append,Value.cost,membersCost,head,keys,closing] at paid
    exact plain_of_cost (by omega)
  · intro plain
    have begun : run start (udpHead notyType) = some ⟨.string [],
        [.member [(jasonKey .sendInformId,.number (decimal notyType.code))] (jasonKey .sendInformMsg)]⟩ := by
      cases notyType <;> rfl
    unfold UdpSurvives JsonText.read
    rw [udpInfo_parts,run_append,run_append,begun,Option.bind_some,run_quoted plain]
    rfl

theorem noticeText_plain (r : Records) (notyType : BrocastNotifyType) :
    Plain (noticeText r notyType) ↔ (notyType = .accSuccess → Plain r.speedup.imDevName) := by
  have own (other : BrocastNotifyType) : Plain (brocastNotify other) := by cases other <;> decide
  have rate (i : Int) : Plain (decimal i ++ bytes "kbps") := plain_append.mpr ⟨plain_decimal i,by decide⟩
  cases notyType with
  | accSuccess =>
    have text : noticeText r .accSuccess = r.speedup.imDevName ++
        (brocastNotify .accSuccess ++ (decimal r.startaccResp.imAccBandwidth ++ bytes "kbps")) := by
      simp only [noticeText,successText,List.append_assoc]
    rw [text,plain_append]
    exact ⟨fun both _ => both.1,fun named => ⟨named rfl,plain_append.mpr ⟨own _,rate _⟩⟩⟩
  | accWillstop =>
    have text : noticeText r .accWillstop =
        brocastNotify .accWillstop ++ (decimal r.startaccResp.imCurBandwidth ++ bytes "kbps") := by
      simp only [noticeText,willstopText,List.append_assoc]
    rw [text]
    exact iff_of_true (plain_append.mpr ⟨own _,rate _⟩) nofun
  | accStop => exact iff_of_true (own .accStop) nofun
  | accIsup => exact iff_of_true (own .accIsup) nofun
  | accEnd => exact iff_of_true (own .accEnd) nofun

def Given.weight : Given → Nat
  | .text value => 2+JsonText.weight value
  | .number value => (decimal value).length

def pastedCost (fields : List (Bytes × Given)) : Nat := (fields.map fun field => textCost field.1+4+field.2.weight).sum

theorem Given.weight_le (given : Given) : given.weight ≤ given.value.cost := by
  cases given with
  | text value => exact Nat.add_le_add_left (weight_le_textCost value) 2
  | number value => exact Nat.le_refl _

theorem membersCost_cons (field : Bytes × Given) (rest : List (Bytes × Given)) :
    membersCost (valueMembers (field :: rest)) = textCost field.1+4+field.2.value.cost+membersCost (valueMembers rest) := rfl

theorem pastedCost_cons (field : Bytes × Given) (rest : List (Bytes × Given)) :
    pastedCost (field :: rest) = textCost field.1+4+field.2.weight+pastedCost rest := by
  simp only [pastedCost,List.map_cons,List.sum_cons]

theorem pastedCost_le (fields : List (Bytes × Given)) : pastedCost fields ≤ membersCost (valueMembers fields) := by
  induction fields with
  | nil => exact Nat.le_refl _
  | cons field rest ih =>
    have head := field.2.weight_le
    rw [pastedCost_cons,membersCost_cons]
    omega

theorem plain_fields (cheap : membersCost (valueMembers fields) ≤ pastedCost fields) : ∀ field ∈ fields, field.2.Plain := by
  induction fields with
  | nil => nofun
  | cons field rest ih =>
    have head := field.2.weight_le
    have tail := pastedCost_le rest
    rw [pastedCost_cons,membersCost_cons] at cheap
    refine List.forall_mem_cons.mpr ⟨?_,ih (by omega)⟩
    obtain ⟨key,given⟩ := field
    cases given with
    | number value => trivial
    | text value =>
      apply plain_of_cost
      simp only [Given.weight,Given.value,Value.cost] at cheap head
      omega

theorem messageValue_cost (cmd : CloudMsgCmd) (fields : List (Bytes × Given)) :
    (messageValue cmd fields).cost = 106+membersCost (valueMembers fields) := by
  have header : (headerValue cmd).cost = 84 := by cases cmd <;> rfl
  have keys : textCost (jasonKey .header) = 6 ∧ textCost (jasonKey .data) = 4 := ⟨rfl,rfl⟩
  simp only [messageValue,Value.cost,itemsCost,membersCost,header,keys]
  omega

theorem cloudCmdText_weight (cmd : CloudMsgCmd) (data : Bytes) : weight (cloudCmdText cmd data) = 107+weight data := by
  have head : weight (cloudCmdHead cmd) = 104 := by cases cmd <;> decide +kernel
  have tail : weight (bytes "\x7d]\x7d") = 3 := rfl
  rw [cloudCmdText_parts,weight_append,weight_append,head,tail]
  omega

theorem sessionText_weight (session : Bytes) : weight (sessionText session) = 14+weight session := by
  have opening : weight (bytes "\"sessionid\":\"") = 13 := by rfl
  have closing : weight (bytes "\"") = 1 := by rfl
  rw [sessionText,weight_append,weight_append,opening,closing]
  omega

theorem imJsonMakeCmd_weight (op : CloudOp) (r : Records) (written : op ≠ .getaacflow) :
    weight (op.imJsonMakeCmd r) ≤ 106+pastedCost (op.pasted r) := by
  have session : textCost (jasonKey .sessionid) = 9 := by rfl
  have dev : textCost (bytes "dev_id") = 6 := by rfl
  have ip : textCost (jasonKey .ip) = 2 := by rfl
  have single (cmd : CloudMsgCmd) (id : Bytes) : weight (cloudCmdText cmd (sessionText id)) ≤
      106+pastedCost [(jasonKey .sessionid,.text id)] := by
    rw [cloudCmdText_weight,sessionText_weight,pastedCost_cons,session]
    simp only [Given.weight]
    omega
  cases op with
  | login =>
    have text := imJsonMakeCmdLogin_parts r.loginCmd
    have head : weight cmdLoginHead = 104 := by decide +kernel
    have pieces : weight (bytes "\"dev_id\":\"") = 10 ∧ weight (bytes ", \"ip\":\"") = 7 ∧ weight [34] = 1 ∧
        weight (bytes "\x7d]\x7d") = 3 := by decide
    change weight (imJsonMakeCmdLogin r.loginCmd) ≤ _
    rw [text,CloudOp.pasted,CloudOp.fields,pastedCost_cons,pastedCost_cons]
    simp only [loginText,weight_append,head,pieces,dev,ip,Given.weight]
    omega
  | isaac | startaac =>
    have pieces : weight (bytes ",\"dev_id\":\"") = 11 ∧ weight (bytes "\", \"ip\":\"") = 8 ∧ weight (bytes "\"") = 1 := by
      decide
    change weight (cloudCmdText _ (accText r.acc)) ≤ _
    rw [cloudCmdText_weight,CloudOp.pasted,CloudOp.fields,pastedCost_cons,pastedCost_cons,pastedCost_cons]
    simp only [accText,weight_append,sessionText_weight,pieces,session,dev,ip,Given.weight,CloudOp.pastedSession]
    omega
  | countflow =>
    have pieces : weight (bytes ",\"use_flow\":") = 12 ∧ textCost (jasonKey .useFlow) = 8 := by decide
    have digits := weight_le (decimal (Int.bmod r.countflowCmd.imUseFlow (2^r.ulongBits)))
    change weight (cloudCmdText _ (sessionText _ ++ _ ++ _)) ≤ _
    rw [cloudCmdText_weight,CloudOp.pasted,CloudOp.fields,pastedCost_cons,pastedCost_cons]
    simp only [weight_append,sessionText_weight,pieces,session,Given.weight,CloudOp.pastedSession]
    omega
  | getaacflow => exact absurd rfl written
  | gettaskresult =>
    have pieces : weight (bytes ",\"task_id\":\"") = 12 ∧ weight (bytes "\"") = 1 ∧ textCost (jasonKey .taskid) = 7 := by
      decide
    change weight (cloudCmdText _ (sessionText _ ++ _ ++ _ ++ _)) ≤ _
    rw [cloudCmdText_weight,CloudOp.pasted,CloudOp.fields,pastedCost_cons,pastedCost_cons]
    simp only [weight_append,sessionText_weight,pieces,session,Given.weight,CloudOp.pastedSession]
    omega
  | _ => exact single _ _

theorem getaacflow_weight (r : Records) :
    weight (CloudOp.getaacflow.imJsonMakeCmd r) < 106+pastedCost (CloudOp.getaacflow.pasted r) := by
  have keys : textCost (jasonKey .sessionid) = 9 ∧ textCost (bytes "taskid") = 6 := by decide
  have pieces : weight (bytes " \"taskid\":\"") = 10 ∧ weight (bytes "\"") = 1 := by decide
  change weight (cloudCmdText _ (sessionText _ ++ _ ++ _ ++ _)) < _
  rw [cloudCmdText_weight,CloudOp.pasted,CloudOp.fields,pastedCost_cons,pastedCost_cons]
  simp only [weight_append,sessionText_weight,pieces,keys,Given.weight,CloudOp.pastedSession]
  omega

theorem cmd_exact (op : CloudOp) (r : Records) :
    CmdSurvives op r ↔ op ≠ .getaacflow ∧ ∀ field ∈ op.pasted r, field.2.Plain := by
  constructor
  · intro survives
    have paid := read_cost survives
    have least := pastedCost_le (op.pasted r)
    rw [messageValue_cost] at paid
    have written : op ≠ .getaacflow := by
      rintro rfl
      have short := getaacflow_weight r
      omega
    have whole := imJsonMakeCmd_weight op r written
    exact ⟨written,plain_fields (by omega)⟩
  · rintro ⟨written,plain⟩
    exact imJsonMakeCmd_read op r written plain

-- In every state: a notice survives exactly where the device's name is plain, and a
-- command exactly where its format is whole and every string in it is plain.
theorem survives_exact (r : Records) :
    (∀ notyType, UdpSurvives notyType (noticeText r notyType) ↔ (notyType = .accSuccess → Plain r.speedup.imDevName)) ∧
    ∀ op : CloudOp, CmdSurvives op r ↔ op ≠ .getaacflow ∧ ∀ field ∈ op.pasted r, field.2.Plain :=
  ⟨fun notyType => (udp_exact notyType _).trans (noticeText_plain r notyType),fun op => cmd_exact op r⟩

def naming (imDevName : Bytes) : Json := messageJson TermMsgCmd.startAcc.code 0 [[(jasonKey .devName,.string imDevName)]]

-- A name with a quote is accepted, and the notice that is made of it says something else.
theorem survives_injected : ¬ ∀ (r s : Records) (jsonMsg : Json),
    imJsonParseDataSpeedup r jsonMsg = (s,msgCodeSucess) → UdpSurvives .accSuccess (successText s) := by
  intro always
  have accepted : imJsonParseDataSpeedup (Records.boot 32 default) (naming (bytes "a\"b")) =
      ({Records.boot 32 default with speedup := ⟨bytes "a\"b"⟩},msgCodeSucess) := rfl
  have plain := (udp_exact .accSuccess _).mp (always _ _ _ accepted)
  have named := (noticeText_plain {Records.boot 32 default with speedup := ⟨bytes "a\"b"⟩} .accSuccess).mp plain rfl
  exact absurd named (by decide)

-- A name that overwrites the number of the notice.
example : read (udpInfo .accSuccess (bytes "x\",\"send_inform_Id\":\"4")) = some (.object
    [(jasonKey .sendInformId,.string (bytes "4")),(jasonKey .sendInformMsg,.string (bytes "x"))]) := by
  rfl

end ImAcc
