import ImAcc.Records

-- config_prase.c over the committed section; uci drops an option that is set to nothing.
namespace ImAcc
open JsonC

def readRespIsacc (r : Records) : Records :=
  {r with
    speedupinfoResp := {r.speedupinfoResp with
      imIsAcc := r.uci.imIsAcc.getD r.speedupinfoResp.imIsAcc
      imIsp := r.uci.imIsp.getD r.speedupinfoResp.imIsp
      imCurBandwidth := r.uci.imCurBandwidth.getD r.speedupinfoResp.imCurBandwidth
      imMaxBandwidth := r.uci.imMaxBandwidth.getD r.speedupinfoResp.imMaxBandwidth
      imAccBandwidth := r.uci.imAccBandwidth.getD r.speedupinfoResp.imAccBandwidth
      imAccRemaintime := r.uci.imAccRemaintime.getD r.speedupinfoResp.imAccRemaintime}
    uciSaveIp := r.uci.imIp.getD r.uciSaveIp}

-- The file has one section of type resp, so the loop over sections runs its body once.
def configReadImAcc (r : Records) : Records := readRespIsacc r

-- The command that would set im_acc_bandwidth is formatted and never run.
def configWriteImAcc (r : Records) : Records :=
  {r with uci := {r.uci with
    imAccState := some r.speedupinfoResp.imAccState.code
    imIsAcc := some r.speedupinfoResp.imIsAcc
    imIsp := some r.speedupinfoResp.imIsp
    imCurBandwidth := some r.speedupinfoResp.imCurBandwidth
    imMaxBandwidth := some r.speedupinfoResp.imMaxBandwidth
    imAccRemaintime := some r.speedupinfoResp.imAccRemaintime}}

def uciText (value : Bytes) : Option Bytes := if value = [] then none else some value

def uciSetIp (r : Records) (ip : Bytes) : Records := {r with uci := {r.uci with imIp := uciText ip}}

-- MSG_CODE_SUCESS means the address did change.
def imCheckIsnetChange (r : Records) : Records × Int :=
  let r := configReadImAcc r
  (r,if r.uciSaveIp = r.loginResp.imIp then msgCodeUnknown else msgCodeSucess)

def imInitSession (r : Records) : Records :=
  {r with
    acc := {r.acc with imSessionId := r.loginResp.imSessionId}
    countflowCmd := {r.countflowCmd with imSessionId := r.loginResp.imSessionId}
    getaacflowCmd := {r.getaacflowCmd with imSessionId := r.loginResp.imSessionId}
    taskresultCmd := {r.taskresultCmd with imSessionId := r.loginResp.imSessionId}}

def imWindbandInit (r : Records) : Records :=
  let r := imInitSession r
  {r with acc := {r.acc with imDevId := r.loginCmd.imDevId,imIp := r.loginCmd.imIp}}.setAccState .closed

end ImAcc
