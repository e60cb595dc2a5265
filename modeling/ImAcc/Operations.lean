import ImAcc.Control

-- The fifteen operations as one family, and what a returned MSG_CODE_SUCESS tells.
namespace ImAcc
open JsonC

inductive CloudOp where
  | login | logout | heartbeat | isaac | startaac | stopaac | getflow | countflow | getaacflow
  | getflowinfo | getacclist | getflowInfo | ungetflow | getaccinfo | gettaskresult
  deriving DecidableEq, Repr

-- header is the caller's; three operations and the login use one of their own.
def CloudOp.run (op : CloudOp) (d : Daemon) (header : MsgHeader) (ex : Exchange) : CloudResult :=
  match op with
  | .login => imCloudLogin d ex
  | .logout => imCloudLogout d ex
  | .heartbeat => imCloudHeartbeat d ex
  | .isaac => imCloudIsaac d header ex
  | .startaac => imCloudStartaac d header ex
  | .stopaac => imCloudStopaac d header ex
  | .getflow => imCloudGetflow d header ex
  | .countflow => imCloudCountflow d ex
  | .getaacflow => imCloudGetaacflow d header ex
  | .getflowinfo => imCloudGetflowinfo d header ex
  | .getacclist => imCloudGetacclist d header ex
  | .getflowInfo => imCloudGetflowInfo d header ex
  | .ungetflow => imCloudUngetflow d header ex
  | .getaccinfo => imCloudGetaccinfo d header ex
  | .gettaskresult => imCloudGettaskresult d header ex

def CloudOp.cmd : CloudOp → CloudMsgCmd
  | .login => .devLogin
  | .logout => .devLogout
  | .heartbeat => .heartBeat
  | .isaac => .isAcc
  | .startaac => .startAcc
  | .stopaac => .stopAcc
  | .getflow => .getflow
  | .countflow => .countFlow
  | .getaacflow => .getaccFlow
  | .getflowinfo | .getflowInfo => .getflowInfo
  | .getacclist => .getAcclist
  | .ungetflow => .ungetflow
  | .getaccinfo => .getAccinfo
  | .gettaskresult => .getTaskresult

def CloudOp.imJsonMakeCmd (op : CloudOp) (r : Records) : Bytes :=
  match op with
  | .login => imJsonMakeCmdLogin r.loginCmd
  | .logout => imJsonMakeCmdLogout r.loginResp
  | .heartbeat => imJsonMakeCmdHeartbeat r.loginResp
  | .isaac => imJsonMakeCmdIsacc r.acc
  | .startaac => imJsonMakeCmdStartacc r.acc
  | .stopaac => imJsonMakeCmdStopacc r.loginResp
  | .getflow => imJsonMakeCmdGetflow r.loginResp
  | .countflow => imJsonMakeCmdCountflow r.ulongBits r.countflowCmd
  | .getaacflow => imJsonMakeCmdGetaacflow r.getaacflowCmd
  | .getflowinfo => imJsonMakeCmdFlowinfo r.loginResp
  | .getacclist => imJsonMakeCmdAcclist r.loginResp
  | .getflowInfo => imJsonMakeCmdGetflowInfo r.loginResp
  | .ungetflow => imJsonMakeCmdUngetflow r.loginResp
  | .getaccinfo => imJsonMakeCmdAccinfo r.loginResp
  | .gettaskresult => imJsonMakeCmdGettaskresult r.acc r.taskresultCmd

def CloudOp.header (op : CloudOp) (header : MsgHeader) (ex : Exchange) : MsgHeader :=
  match op with
  | .login | .logout | .heartbeat | .countflow => ex.stack
  | _ => header

theorem imCloudHeartbeat_ret (d : Daemon) (ex : Exchange) : (imCloudHeartbeat d ex).ret =
    (imJsonParseCloud d.records ex.body ex.stack).ret := by
  unfold imCloudHeartbeat
  dsimp only
  split <;> rfl

theorem CloudOp.run_ret (plain : op ≠ .login) (d : Daemon) (header : MsgHeader) (ex : Exchange) :
    (CloudOp.run op d header ex).ret = (imJsonParseCloud d.records ex.body (op.header header ex)).ret := by
  cases op with
  | login => exact absurd rfl plain
  | heartbeat => exact imCloudHeartbeat_ret d ex
  | _ => rfl

theorem CloudOp.run_out (op : CloudOp) (d : Daemon) (header : MsgHeader) (ex : Exchange) :
    (op.run d header ex).daemon.out = d.out ++ [.cloud (op.imJsonMakeCmd d.records)] := by
  cases op with
  | login =>
    unfold CloudOp.run imCloudLogin
    dsimp only
    split
    · rfl
    · split
      · rfl
      · rfl
  | heartbeat =>
    unfold CloudOp.run imCloudHeartbeat
    dsimp only
    split
    · rfl
    · rfl
  | _ => rfl

theorem CloudOp.run_accepts (plain : op ≠ .login) (d : Daemon) (header : MsgHeader) (ex : Exchange) :
    (CloudOp.run op d header ex).ret = 0 ↔ accepts d.accState ex.body = true := by
  rw [CloudOp.run_ret plain]
  exact imJsonParseCloud_accepts ..

theorem imCloudLogin_sent (success : (imCloudLogin d ex).ret = 0) : ex.sent = 0 := by
  by_contra lost
  simp [imCloudLogin,lost] at success

theorem imCloudLogin_accepts (sent : ex.sent = 0) (accepted : accepts d.accState ex.body = true)
    (code : replyCode ex.body = 0) : (imCloudLogin d ex).ret = 0 := by
  have parsed := (imCloudExchange_accepts d (imJsonMakeCmdLogin d.records.loginCmd) ex.stack ex).mpr accepted
  unfold imCloudLogin
  dsimp only
  split
  · exact absurd sent ‹_›
  · split
    · rw [imCloudExchange_header parsed]
      exact code
    · exact parsed

-- The command a reply answers is compared with nothing, so it does not matter.
theorem CloudOp.success (op : CloudOp) (d : Daemon) (header : MsgHeader) (ex : Exchange) :
    ((op.run d header ex).ret = 0 →
      (op = .login → ex.sent = 0) ∧ (op ≠ .login → accepts d.accState ex.body = true)) ∧
    (ex.sent = 0 → accepts d.accState ex.body = true → (op = .login → replyCode ex.body = 0) →
      (op.run d header ex).ret = 0) := by
  refine ⟨fun success => ⟨?_,fun plain => (CloudOp.run_accepts plain d header ex).mp success⟩,?_⟩
  · rintro rfl
    exact imCloudLogin_sent success
  · intro sent accepted code
    by_cases login : op = .login
    · subst login
      exact imCloudLogin_accepts sent accepted (code rfl)
    · exact (CloudOp.run_accepts login d header ex).mpr accepted

theorem CloudOp.success_stop : (CloudOp.run .stopaac booted.daemon default (delivered .countFlow msgCodeSucess [])).ret = 0 :=
  (CloudOp.success .stopaac booted.daemon default (delivered .countFlow msgCodeSucess [])).2 rfl (by decide) nofun

-- The answer to a flow count is a success of STOP_ACC.
theorem CloudOp.success_other : ¬ ∀ (op : CloudOp) (d : Daemon) (header : MsgHeader) (ex : Exchange),
    (op.run d header ex).ret = 0 →
      ex.sent = 0 ∧ accepts d.accState ex.body = true ∧ (replyHeader ex.body).imCmd = op.cmd.code := by
  intro always
  have other := always .stopaac booted.daemon default (delivered .countFlow msgCodeSucess []) (by decide)
  exact absurd other.2.2 (by decide)

end ImAcc
