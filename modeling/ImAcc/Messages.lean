import ImAcc.Lib.JsonText
import ImAcc.Capacity
import ImAcc.Delivery

-- The commands for the cloud as JSON texts: what the text of each format is read as.
namespace ImAcc
open JsonC JsonText

inductive Given where
  | text (value : Bytes)
  | number (value : Int)

def Given.value : Given → Value
  | .text value => .string value
  | .number value => .number (decimal value)

def Given.json : Given → Json
  | .text value => .string value
  | .number value => .int value

def Given.Plain : Given → Prop
  | .text value => JsonText.Plain value
  | .number _ => True

def CloudOp.fields (op : CloudOp) (session : Bytes) (useFlow : Int) (r : Records) : List (Bytes × Given) :=
  match op with
  | .login => [(bytes "dev_id",.text r.loginCmd.imDevId),(jasonKey .ip,.text r.loginCmd.imIp)]
  | .isaac | .startaac =>
    [(jasonKey .sessionid,.text session),(bytes "dev_id",.text r.acc.imDevId),(jasonKey .ip,.text r.acc.imIp)]
  | .countflow => [(jasonKey .sessionid,.text session),(jasonKey .useFlow,.number useFlow)]
  | .getaacflow => [(jasonKey .sessionid,.text session),(bytes "taskid",.text r.getaacflowCmd.imTaskId)]
  | .gettaskresult => [(jasonKey .sessionid,.text session),(jasonKey .taskid,.text r.taskresultCmd.imTaskid)]
  | .logout | .heartbeat | .stopaac | .getflow | .getflowinfo | .getacclist | .getflowInfo | .ungetflow | .getaccinfo =>
    [(jasonKey .sessionid,.text session)]

def CloudOp.pastedSession (op : CloudOp) (r : Records) : Bytes :=
  match op with
  | .login => []
  | .isaac | .startaac | .gettaskresult => r.acc.imSessionId
  | .countflow => r.countflowCmd.imSessionId
  | .getaacflow => r.getaacflowCmd.imSessionId
  | .logout | .heartbeat | .stopaac | .getflow | .getflowinfo | .getacclist | .getflowInfo | .ungetflow | .getaccinfo =>
    r.loginResp.imSessionId

-- The one in the argument: the poll's is not the one it is written with.
def CloudOp.givenSession (op : CloudOp) (r : Records) : Bytes :=
  match op with
  | .gettaskresult => r.taskresultCmd.imSessionId
  | other => other.pastedSession r

def CloudOp.given (op : CloudOp) (r : Records) : List (Bytes × Given) :=
  op.fields (op.givenSession r) r.countflowCmd.imUseFlow r

def CloudOp.pasted (op : CloudOp) (r : Records) : List (Bytes × Given) :=
  op.fields (op.pastedSession r) (Int.bmod r.countflowCmd.imUseFlow (2^r.ulongBits)) r

-- One object, its header accepted, its data an array of one object with these members.
def RoundTrips (text : Bytes) (cmd : CloudMsgCmd) (fields : List (Bytes × Given)) : Prop :=
  ∃ whole, read text = some (.object whole) ∧ ∀ truncated h, let jsonMsg := (Value.object whole).json truncated
    (imJsonParseHeader jsonMsg h).2 = msgCodeSucess ∧ (imJsonParseHeader jsonMsg h).1.imCmd = cmd.code ∧
    jsonMsg.objectGet (jasonKey .data) = some (.array [.object (fields.map fun field => (field.1,field.2.json))])

def headerValue (cmd : CloudMsgCmd) : Value :=
  .object [(jasonKey .cmd,.number (decimal cmd.code)),(jasonKey .ver,.number (decimal cmdVersion)),
    (jasonKey .seq,.number (bytes "1")),(jasonKey .device,.number (bytes "1")),(jasonKey .code,.number (bytes "0")),
    (jasonKey .sessionid,.string cmdSessionid),(jasonKey .sign,.string (bytes " "))]

def valueMembers (fields : List (Bytes × Given)) : List (Bytes × Value) := fields.map fun field => (field.1,field.2.value)

def messageValue (cmd : CloudMsgCmd) (fields : List (Bytes × Given)) : Value :=
  .object [(jasonKey .header,headerValue cmd),(jasonKey .data,.array [.object (valueMembers fields)])]

def inData (cmd : CloudMsgCmd) (token : Token) (members : List (Bytes × Value)) : State :=
  ⟨token,[.object members,.array [],.member [(jasonKey .header,headerValue cmd)] (jasonKey .data)]⟩

def cloudCmdHead (cmd : CloudMsgCmd) : Bytes :=
  bytes "\x7b\"header\": \x7b\"cmd\": " ++ decimal cmd.code ++ bytes ", \"ver\": " ++ decimal cmdVersion ++
  bytes ",\"seq\": 1, \"device\": 1,\"code\": 0, \"sessionid\":\"" ++ cmdSessionid ++
  bytes "\", \"sign\":\" \"\x7d,\"data\": [\x7b"

def cmdLoginHead : Bytes :=
  bytes "\x7b\"header\": \x7b\"cmd\": " ++ decimal CloudMsgCmd.devLogin.code ++ bytes ",\"ver\": " ++
  decimal cmdVersion ++ bytes ",\"seq\": 1, \"device\": 1,\"code\": 0, \"sessionid\":\"" ++ cmdSessionid ++
  bytes "\", \"sign\":\" \"\x7d,\"data\": [\x7b"

theorem run_cloudCmdHead (cmd : CloudMsgCmd) : run start (cloudCmdHead cmd) = some (inData cmd .names []) := by
  let stack : List Frame := [.member [] (jasonKey .cmd),.member [] (jasonKey .header)]
  obtain ⟨place,complete,ran⟩ := run_decimal cmd.code stack
  have opens : run start (bytes "\x7b\"header\": \x7b\"cmd\": ") = some ⟨.value,stack⟩ := by rfl
  have comma : bytes ", \"ver\": " = [44] ++ bytes " \"ver\": " := by rfl
  unfold cloudCmdHead
  simp only [List.append_assoc]
  rw [run_append,opens,Option.bind_some,run_append,ran,Option.bind_some,comma,List.append_assoc,run_append,
    number_comma complete,Option.bind_some]
  rfl

theorem run_cmdLoginHead : run start cmdLoginHead = some (inData .devLogin .names []) := by
  rfl

def Reads (token : Token) (members : List (Bytes × Value)) (text : Bytes) (after : List (Bytes × Value)) : Prop :=
  ∀ stack : List Frame, run ⟨token,.object members :: stack⟩ text = some ⟨.next,.object after :: stack⟩

theorem Reads.append (first : Reads token a s b) (second : Reads .next b t c) : Reads token a (s ++ t) c := by
  intro stack
  rw [run_append,first stack]
  exact second stack

theorem reads_text (plain : Plain text) (opens : ∀ stack : List Frame,
      run ⟨token,.object members :: stack⟩ head = some ⟨.string [],.member members key :: stack⟩)
    (added : Json.membersAdd key (.string text) members = after) : Reads token members (head ++ text ++ [34]) after := by
  intro stack
  rw [List.append_assoc,run_append,opens,← added]
  exact run_quoted plain _

def Fills (data : Bytes) (fields : List (Bytes × Given)) : Prop := ∀ stack : List Frame,
  run ⟨.names,.object [] :: stack⟩ (data ++ [125]) = closeObject (.object (valueMembers fields) :: stack)

theorem Reads.fills (reads : Reads .names [] data (valueMembers fields)) : Fills data fields := by
  intro stack
  rw [run_append,reads stack]
  exact Option.bind_fun_some _

theorem sessionText_reads (plain : Plain session) :
    Reads .names [] (sessionText session) [(jasonKey .sessionid,.string session)] :=
  reads_text plain (fun _ => rfl) rfl

theorem accText_reads (session : Plain acc.imSessionId) (dev : Plain acc.imDevId) (ip : Plain acc.imIp) :
    Reads .names [] (accText acc) [(jasonKey .sessionid,.string acc.imSessionId),(bytes "dev_id",.string acc.imDevId),
      (jasonKey .ip,.string acc.imIp)] := by
  have parts : accText acc = sessionText acc.imSessionId ++ (bytes ",\"dev_id\":\"" ++ acc.imDevId ++ [34]) ++
      (bytes ", \"ip\":\"" ++ acc.imIp ++ [34]) := by
    have between : bytes "\", \"ip\":\"" = [34] ++ bytes ", \"ip\":\"" := rfl
    have closing : bytes "\"" = [34] := rfl
    simp only [accText,between,closing,List.append_assoc]
  rw [parts]
  exact ((sessionText_reads session).append (reads_text dev (fun _ => rfl) rfl)).append (reads_text ip (fun _ => rfl) rfl)

theorem countflow_fills (plain : Plain session) (useFlow : Int) :
    Fills (sessionText session ++ bytes ",\"use_flow\":" ++ decimal useFlow)
      [(jasonKey .sessionid,.text session),(jasonKey .useFlow,.number useFlow)] := by
  intro stack
  obtain ⟨place,complete,ran⟩ := run_decimal useFlow (.member [(jasonKey .sessionid,.string session)] (jasonKey .useFlow) :: stack)
  have opens : run ⟨.next,.object [(jasonKey .sessionid,.string session)] :: stack⟩ (bytes ",\"use_flow\":") =
      some ⟨.value,.member [(jasonKey .sessionid,.string session)] (jasonKey .useFlow) :: stack⟩ := rfl
  rw [List.append_assoc,List.append_assoc,run_append,sessionText_reads plain stack,Option.bind_some,run_append,opens,
    Option.bind_some,run_append,ran,Option.bind_some]
  exact number_close complete _ _ _ _

theorem taskresult_reads (session : Plain s) (task : Plain t) :
    Reads .names [] (sessionText s ++ bytes ",\"task_id\":\"" ++ t ++ bytes "\"")
      [(jasonKey .sessionid,.string s),(jasonKey .taskid,.string t)] := by
  have second : Reads .next [(jasonKey .sessionid,.string s)] (bytes ",\"task_id\":\"" ++ t ++ [34])
      [(jasonKey .sessionid,.string s),(jasonKey .taskid,.string t)] := reads_text task (fun _ => rfl) rfl
  have both := (sessionText_reads session).append second
  rwa [← List.append_assoc,← List.append_assoc] at both

theorem getaacflow_unread (session : Plain s) (stack : List Frame) (rest : Bytes) :
    run ⟨.names,.object [] :: stack⟩ (sessionText s ++ bytes " \"taskid\":\"" ++ rest) = none := by
  rw [List.append_assoc,run_append,sessionText_reads session stack]
  rfl

theorem read_message (begun : run start head = some (inData cmd .names [])) (fills : Fills data fields) :
    read (head ++ data ++ bytes "\x7d]\x7d") = some (messageValue cmd fields) := by
  have tail : bytes "\x7d]\x7d" = [125] ++ [93,125] := rfl
  unfold JsonText.read
  rw [tail,List.append_assoc,run_append,begun,Option.bind_some,← List.append_assoc,run_append,inData,fills]
  rfl

theorem cloudCmdText_parts (cmd : CloudMsgCmd) (data : Bytes) :
    cloudCmdText cmd data = cloudCmdHead cmd ++ data ++ bytes "\x7d]\x7d" := rfl

def loginText (login : LoginCmd) : Bytes :=
  bytes "\"dev_id\":\"" ++ login.imDevId ++ [34] ++ (bytes ", \"ip\":\"" ++ login.imIp ++ [34])

theorem imJsonMakeCmdLogin_parts (login : LoginCmd) :
    imJsonMakeCmdLogin login = cmdLoginHead ++ loginText login ++ bytes "\x7d]\x7d" := by
  have opening : bytes "\", \"sign\":\" \"\x7d,\"data\": [\x7b\"dev_id\":\"" =
      bytes "\", \"sign\":\" \"\x7d,\"data\": [\x7b" ++ bytes "\"dev_id\":\"" := rfl
  have between : bytes "\", \"ip\":\"" = [34] ++ bytes ", \"ip\":\"" := rfl
  have closing : bytes "\"\x7d]\x7d" = [34] ++ bytes "\x7d]\x7d" := rfl
  simp only [imJsonMakeCmdLogin,cmdLoginHead,loginText,opening,between,closing,List.append_assoc]

theorem loginText_reads (dev : Plain login.imDevId) (ip : Plain login.imIp) : Reads .names [] (loginText login)
    [(bytes "dev_id",.string login.imDevId),(jasonKey .ip,.string login.imIp)] :=
  Reads.append (reads_text dev (fun _ => rfl) rfl) (reads_text ip (fun _ => rfl) rfl)

-- Every format but one, written with plain strings, is read as what it was written with.
theorem imJsonMakeCmd_read (op : CloudOp) (r : Records) (written : op ≠ .getaacflow)
    (plain : ∀ field ∈ op.pasted r, field.2.Plain) :
    read (op.imJsonMakeCmd r) = some (messageValue op.cmd (op.pasted r)) := by
  have cloud {cmd data fields} (fills : Fills data fields) :
      read (cloudCmdText cmd data) = some (messageValue cmd fields) := read_message (run_cloudCmdHead cmd) fills
  have session {cmd s} (plain : Plain s) : read (cloudCmdText cmd (sessionText s)) =
      some (messageValue cmd [(jasonKey .sessionid,.text s)]) := cloud (Reads.fills (sessionText_reads plain))
  cases op with
  | getaacflow => exact absurd rfl written
  | login =>
    have dev : Plain r.loginCmd.imDevId := plain _ (.head _)
    have ip : Plain r.loginCmd.imIp := plain _ (.tail _ (.head _))
    refine (congrArg JsonText.read (imJsonMakeCmdLogin_parts r.loginCmd)).trans ?_
    exact read_message run_cmdLoginHead (Reads.fills (loginText_reads dev ip))
  | isaac | startaac =>
    have id : Plain r.acc.imSessionId := plain _ (.head _)
    have dev : Plain r.acc.imDevId := plain _ (.tail _ (.head _))
    have ip : Plain r.acc.imIp := plain _ (.tail _ (.tail _ (.head _)))
    exact cloud (Reads.fills (accText_reads id dev ip))
  | countflow => exact cloud (countflow_fills (plain _ (.head _)) _)
  | gettaskresult =>
    have id : Plain r.acc.imSessionId := plain _ (.head _)
    have task : Plain r.taskresultCmd.imTaskid := plain _ (.tail _ (.head _))
    exact cloud (Reads.fills (taskresult_reads id task))
  | _ => exact session (plain _ (.head _))

theorem getaacflow_read (session : Plain r.getaacflowCmd.imSessionId) :
    read (CloudOp.getaacflow.imJsonMakeCmd r) = none := by
  have text : CloudOp.getaacflow.imJsonMakeCmd r = cloudCmdHead .getaccFlow ++
      (sessionText r.getaacflowCmd.imSessionId ++ bytes " \"taskid\":\"" ++
        (r.getaacflowCmd.imTaskId ++ bytes "\"" ++ bytes "\x7d]\x7d")) := by
    change cloudCmdText _ _ = _
    rw [cloudCmdText_parts]
    simp only [List.append_assoc]
  unfold JsonText.read
  rw [text,run_append,run_cloudCmdHead,Option.bind_some,inData,getaacflow_unread session]
  rfl

theorem valueMembers_json (fields : List (Bytes × Given))
    (fits : ∀ field ∈ fields, ∀ i, field.2 = .number i → Json.clamp 64 i = i) (truncated : Bytes → Int) :
    membersJson truncated (valueMembers fields) = fields.map fun field => (field.1,field.2.json) := by
  induction fields with
  | nil => rfl
  | cons field rest ih =>
    obtain ⟨key,given⟩ := field
    have tail := ih fun field member => fits field (List.mem_cons_of_mem _ member)
    have head : given.value.json truncated = given.json := by
      cases given with
      | text value => rfl
      | number i => exact number_json truncated (fits _ List.mem_cons_self i rfl)
    change (key,given.value.json truncated) :: membersJson truncated (valueMembers rest) = _
    rw [tail,head]
    rfl

theorem messageValue_json (cmd : CloudMsgCmd) (fields : List (Bytes × Given))
    (fits : ∀ field ∈ fields, ∀ i, field.2 = .number i → Json.clamp 64 i = i) (truncated : Bytes → Int) :
    (messageValue cmd fields).json truncated =
      messageJson cmd.code msgCodeSucess [fields.map fun field => (field.1,field.2.json)] := by
  have header : (headerValue cmd).json truncated = headerJson cmd.code msgCodeSucess := by
    cases cmd <;> rfl
  change Json.object [(_,(headerValue cmd).json truncated),(_,.array [.object (membersJson truncated (valueMembers fields))])] = _
  rw [header,valueMembers_json fields fits]
  rfl

theorem messageValue_parsed (cmd : CloudMsgCmd) (fields : List (Bytes × Given))
    (fits : ∀ field ∈ fields, ∀ i, field.2 = .number i → Json.clamp 64 i = i) (truncated : Bytes → Int) (h : MsgHeader) :
    let jsonMsg := (messageValue cmd fields).json truncated
    (imJsonParseHeader jsonMsg h).2 = msgCodeSucess ∧ (imJsonParseHeader jsonMsg h).1.imCmd = cmd.code ∧
      jsonMsg.objectGet (jasonKey .data) = some (.array [.object (fields.map fun field => (field.1,field.2.json))]) := by
  have complete := delivered_complete cmd.code msgCodeSucess [fields.map fun field => (field.1,field.2.json)]
  have number : headerCmd (messageJson cmd.code msgCodeSucess [fields.map fun field => (field.1,field.2.json)]) = cmd.code := by
    cases cmd <;> rfl
  dsimp only
  rw [messageValue_json cmd fields fits]
  exact ⟨(imJsonParseHeader_sucess _ h).mpr complete,(complete.numbers h).1.trans number,rfl⟩

theorem useFlow_printed (wide : 32 ≤ bits) (small : flow < 2^31) :
    Int.bmod (flow : Nat) (2^bits) = flow ∧ Json.clamp 64 (flow : Int) = flow := by
  have room : (2 : Int)^32 ≤ 2^bits := pow_le_pow_right₀ (by decide) wide
  constructor
  · apply Int.bmod_eq_of_le <;> push_cast <;> omega
  · unfold Json.clamp
    omega

theorem CloudOp.fields_fits (op : CloudOp) (session : Bytes) (r : Records) (fits : Json.clamp 64 useFlow = useFlow) :
    ∀ field ∈ op.fields session useFlow r, ∀ i, field.2 = .number i → Json.clamp 64 i = i := by
  have text (value : Bytes) : ∀ i, Given.text value = .number i → Json.clamp 64 i = i := nofun
  have flow : ∀ i, Given.number useFlow = .number i → Json.clamp 64 i = i := by
    intro i number
    cases number
    exact fits
  cases op with
  | countflow => exact List.forall_mem_cons.mpr ⟨text _,List.forall_mem_cons.mpr ⟨flow,nofun⟩⟩
  | login | getaacflow | gettaskresult => exact List.forall_mem_cons.mpr ⟨text _,List.forall_mem_cons.mpr ⟨text _,nofun⟩⟩
  | isaac | startaac =>
    exact List.forall_mem_cons.mpr ⟨text _,List.forall_mem_cons.mpr ⟨text _,List.forall_mem_cons.mpr ⟨text _,nofun⟩⟩⟩
  | _ => exact List.forall_mem_cons.mpr ⟨text _,nofun⟩

-- With plain strings and a small flow every command comes back, except the one whose
-- format lacks a comma, and a poll whose argument holds another session id than s_im_acc.
theorem roundTrips_exact (op : CloudOp) (r : Records) (wide : 32 ≤ r.ulongBits)
    (plain : ∀ field ∈ op.pasted r, field.2.Plain) (small : r.countflowCmd.imUseFlow < 2^31) :
    RoundTrips (op.imJsonMakeCmd r) op.cmd (op.given r) ↔
      op ≠ .getaacflow ∧ (op = .gettaskresult → r.acc.imSessionId = r.taskresultCmd.imSessionId) := by
  obtain ⟨printed,fits⟩ := useFlow_printed wide small
  have bounded : ∀ field ∈ op.pasted r, ∀ i, field.2 = .number i → Json.clamp 64 i = i :=
    op.fields_fits _ r (by rw [printed]; exact fits)
  constructor
  · rintro ⟨whole,parsed,seen⟩
    have written : op ≠ .getaacflow := by
      rintro rfl
      rw [getaacflow_read (plain _ (.head _))] at parsed
      cases parsed
    refine ⟨written,?_⟩
    rintro rfl
    rw [imJsonMakeCmd_read _ r written plain] at parsed
    have pasted := (messageValue_parsed CloudMsgCmd.getTaskresult _ bounded (fun _ => 0) default).2.2
    have given := (seen (fun _ => 0) default).2.2
    rw [← Option.some.inj parsed] at given
    have same := Option.some.inj (pasted.symm.trans given)
    have sessions : CloudOp.gettaskresult.pastedSession r = CloudOp.gettaskresult.givenSession r := by
      simpa [CloudOp.pasted,CloudOp.given,CloudOp.fields,Given.json] using same
    exact sessions
  · rintro ⟨written,same⟩
    have given : op.pasted r = op.given r := by
      unfold CloudOp.pasted CloudOp.given
      rw [printed]
      cases op with
      | gettaskresult => exact congrArg (CloudOp.gettaskresult.fields · _ r) (same rfl)
      | _ => rfl
    rw [← given]
    exact ⟨_,imJsonMakeCmd_read op r written plain,fun truncated h => messageValue_parsed op.cmd _ bounded truncated h⟩

theorem roundTrips_poll : RoundTrips (CloudOp.gettaskresult.imJsonMakeCmd booted.daemon.records) .getTaskresult
    (CloudOp.gettaskresult.given booted.daemon.records) := by
  have session : Plain booted.daemon.records.acc.imSessionId := (by decide : Plain (bytes "s1"))
  have task : Plain booted.daemon.records.taskresultCmd.imTaskid := (by decide : Plain [])
  have plain : ∀ field ∈ CloudOp.gettaskresult.pasted booted.daemon.records, field.2.Plain :=
    List.forall_mem_cons.mpr ⟨session,List.forall_mem_cons.mpr ⟨task,nofun⟩⟩
  exact (roundTrips_exact .gettaskresult booted.daemon.records (by decide) plain (by decide)).mpr ⟨by decide,fun _ => by decide⟩

-- The flow query of a session id and a task id is no JSON text.
theorem roundTrips_comma : ¬ ∀ (op : CloudOp) (r : Records), 32 ≤ r.ulongBits →
    (∀ field ∈ op.pasted r, field.2.Plain) → r.countflowCmd.imUseFlow < 2^31 →
      RoundTrips (op.imJsonMakeCmd r) op.cmd (op.given r) := by
  intro always
  have session : Plain booted.daemon.records.getaacflowCmd.imSessionId := (by decide : Plain (bytes "s1"))
  have task : Plain booted.daemon.records.getaacflowCmd.imTaskId := (by decide : Plain [])
  obtain ⟨whole,parsed,_⟩ := always .getaacflow booted.daemon.records (by decide)
    (List.forall_mem_cons.mpr ⟨session,List.forall_mem_cons.mpr ⟨task,nofun⟩⟩) (by decide)
  rw [getaacflow_read session] at parsed
  cases parsed

end ImAcc
