import ImAcc.Control

-- What STOP_ACC tells the terminal against what the cloud answered.
namespace ImAcc
open JsonC

def Carries (body : Option Json) (code : Int) : Prop :=
  ∃ jsonMsg jsonHeader item, body = some jsonMsg ∧ jsonMsg.objectGet (jasonKey .header) = some jsonHeader ∧
    jsonHeader.objectGet (jasonKey .code) = some item ∧ item.getInt = code

theorem accepts_parsed (accepted : accepts state body = true) :
    ∃ jsonMsg, body = some jsonMsg ∧ HeaderComplete jsonMsg ∧ replyHeader body = (imJsonParseHeader jsonMsg default).1 := by
  have parsed : (imJsonParseCloud (blank state) body default).ret = 0 := of_decide_eq_true accepted
  obtain ⟨jsonMsg,rfl,complete⟩ := imJsonParseCloud_complete parsed
  exact ⟨jsonMsg,rfl,complete,imJsonParseCloud_parsed _ _ _⟩

theorem accepts_carries (accepted : accepts state body = true) : Carries body code ↔ replyCode body = code := by
  obtain ⟨jsonMsg,rfl,⟨jsonHeader,found,all⟩,header⟩ := accepts_parsed accepted
  obtain ⟨item,supplies⟩ := Option.isSome_iff_exists.mp (all .code (by decide))
  have read : replyCode (some jsonMsg) = item.getInt := by
    rw [replyCode,header]
    simp only [imJsonParseHeader,found,imJsonGetInt,imJsonGet_value,supplies,Option.map_some,Option.getD_some]
  rw [read]
  constructor
  · rintro ⟨_,_,other,⟨⟩,found',given,same⟩
    cases found.symm.trans found'
    cases supplies.symm.trans given
    exact same
  · intro same
    exact ⟨jsonMsg,jsonHeader,item,rfl,found,supplies,same⟩

def Output.isAccStop : Output → Bool
  | .brocast .accStop _ => true
  | _ => false

structure Untouched (before after : Daemon) : Prop where
  accState : after.accState = before.accState
  alarms : after.timers.thealarms = before.timers.thealarms
  cntTime : after.cntTime = before.cntTime
  flowCount : after.flowCount = before.flowCount
  silent : after.out.countP (·.isAccStop) = before.out.countP (·.isAccStop)

def StopTold (d : Daemon) (ex : Exchange) (h : Handled) : Prop :=
  ¬Carries ex.body msgCodeSucess → h.errcode ≠ msgCodeSucess ∧ Untouched d h.daemon

theorem Daemon.reply_silent (d : Daemon) (pMsg : Option Json) (errcode : Int) (data : Option Json) :
    (d.reply pMsg errcode data).out.countP (·.isAccStop) = d.out.countP (·.isAccStop) := by
  unfold Daemon.reply
  split
  · rfl
  · simp [Daemon.send,Output.isAccStop]

theorem stopAcc_rejected (header : MsgHeader) (rest : List Exchange) (rejected : accepts d.accState ex.body = false) :
    ∃ h, stopAcc header d (ex :: rest) = some h ∧ h.errcode = msgCodeUnknown ∧ Untouched d h.daemon := by
  have quiet := imCloudExchange_quiet d (imJsonMakeCmdStopacc d.records.loginResp) header ex
  have failed : (imCloudStopaac d header ex).ret ≠ msgCodeSucess := by
    intro success
    have accepted := (imCloudExchange_accepts ..).mp success
    rw [rejected] at accepted
    cases accepted
  refine ⟨_,if_pos failed,rfl,quiet.accState,congrArg Timers.thealarms quiet.timers,quiet.cntTime,
    quiet.flowCount,?_⟩
  change List.countP _ (d.out ++ [_]) = _
  simp [Output.isAccStop]

theorem stopAcc_accepted (header : MsgHeader) (rest : List Exchange) (accepted : accepts d.accState ex.body = true) :
    ∃ h, stopAcc header d (ex :: rest) = some h ∧ h.errcode = msgCodeSucess := by
  have success : (imCloudStopaac d header ex).ret = msgCodeSucess := (imCloudExchange_accepts ..).mpr accepted
  exact ⟨_,if_neg (not_not.mpr success),rfl⟩

-- The code of an accepted reply is not looked at.
theorem stopTold_exact (command : TermMsgCmd.ofCode d.records.cmdHeader.imCmd = some .stopAcc)
    (ran : imHandleCmdTerminal created header d pMsg (ex :: rest) = some h) :
    StopTold d ex h ↔ accepts d.accState ex.body = false ∨ replyCode ex.body = msgCodeSucess := by
  have switch : terminalSwitch created header d (ex :: rest) = stopAcc header d (ex :: rest) := by
    simp only [terminalSwitch,command]
  obtain ⟨handled,taken,rfl⟩ := Option.map_eq_some_iff.mp ran
  rw [switch] at taken
  cases verdict : accepts d.accState ex.body with
  | false =>
    obtain ⟨other,same,unknown,kept⟩ := stopAcc_rejected header rest verdict
    cases same.symm.trans taken
    simp only [true_or,iff_true]
    intro _
    have quiet := Daemon.reply_quiet handled.daemon pMsg handled.errcode (some handled.data.json)
    refine ⟨by rw [unknown]; decide,?_⟩
    exact ⟨quiet.accState.trans kept.accState,by rw [quiet.timers,kept.alarms],quiet.cntTime.trans kept.cntTime,
      quiet.flowCount.trans kept.flowCount,(Daemon.reply_silent ..).trans kept.silent⟩
  | true =>
    obtain ⟨other,same,success⟩ := stopAcc_accepted header rest verdict
    cases same.symm.trans taken
    simp only [Bool.true_eq_false,false_or]
    rw [← accepts_carries verdict]
    constructor
    · intro told
      by_contra missing
      exact (told missing).1 success
    · exact fun carried missing => absurd carried missing

def stopReceived : Daemon := (received booted.daemon (some (termMsg .stopAcc))).1

theorem stopTold_success : ∃ h, imHandleCmdTerminal true default stopReceived (some (termMsg .stopAcc))
    [delivered .stopAcc msgCodeSucess []] = some h ∧ StopTold stopReceived (delivered .stopAcc msgCodeSucess []) h := by
  have runs : (imHandleCmdTerminal true default stopReceived (some (termMsg .stopAcc))
    [delivered .stopAcc msgCodeSucess []]).isSome = true := by decide
  obtain ⟨h,ran⟩ := Option.isSome_iff_exists.mp runs
  exact ⟨h,ran,(stopTold_exact (by decide) ran).mpr (.inr (by decide))⟩

-- An expired session is relayed as a stop that took place.
theorem stopTold_expired : ¬ ∀ created header d pMsg ex rest h,
    TermMsgCmd.ofCode d.records.cmdHeader.imCmd = some .stopAcc →
    imHandleCmdTerminal created header d pMsg (ex :: rest) = some h → StopTold d ex h := by
  intro always
  have seen : (imHandleCmdTerminal true default stopReceived (some (termMsg .stopAcc))
    [delivered .stopAcc msgCodeInvalidses []]).map (·.errcode) = some msgCodeSucess := by decide
  obtain ⟨h,ran,success⟩ := Option.map_eq_some_iff.mp seen
  have expired : ¬Carries (delivered .stopAcc msgCodeInvalidses []).body msgCodeSucess := by
    have accepted : accepts .closed (delivered .stopAcc msgCodeInvalidses []).body = true := by decide
    rw [accepts_carries accepted]
    decide
  exact (always _ _ _ _ _ _ h (by decide) ran expired).1 success

end ImAcc
