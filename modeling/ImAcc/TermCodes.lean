import ImAcc.Answers

-- The two enumerations of result codes, and which of them a reply to a terminal uses.
namespace ImAcc
open JsonC Rounds

@[simp] def msgCodeTimeout : Int := 2
@[simp] def msgCodeSpeedupMax : Int := 13
@[simp] def msgCodeSpeedupMaxTerm : Int := 120

def TermCode (code : Int) : Prop :=
  code = msgCodeSucess ∨ code = msgCodeUnknown ∨ code = msgCodeTimeout ∨
    msgCodeFormatErrTerm ≤ code ∧ code ≤ msgCodeSpeedupMaxTerm

-- An error of the cloud is the member of the same name, 107 further on.
def SpeaksTerm (cloud : Option Int) (code : Int) : Prop :=
  TermCode code ∧ ∀ c ∈ cloud, msgCodeFormatErr ≤ c → c ≤ msgCodeSpeedupMax →
    code ≠ msgCodeSucess → code ≠ msgCodeUnknown → code ≠ msgCodeTimeout → code = c+107

-- The code of the last reply the cloud gives to the command itself, where it is accepted.
def cloudCode (d : Daemon) (replies : List Exchange) : Option Int :=
  let asked := match queries d with
    | some (_,state) => (afterRounds (stale state) logsIn replies).head?.map fun ex => (state,ex)
    | none =>
      if TermMsgCmd.ofCode d.records.cmdHeader.imCmd = some TermMsgCmd.stopAcc then
        replies.head?.map fun ex => (d.accState,ex) else none
  asked.bind fun last => if accepts last.1 last.2.body then some (replyCode last.2.body) else none

-- An expired session has a meaning of its own, and a delay where the command starts a poller.
def Translated (d : Daemon) (replies : List Exchange) : Prop :=
  ∀ delays state, queries d = some (delays,state) → ∀ c ∈ cloudCode d replies,
    TermCode c ∨ c = msgCodeInvalidses ∨ delays = true ∧ c = msgCodeMsgdelay

-- The code a reply carries.
def codeTold (msg : Json) : Option Int :=
  (memberAt (jasonKey .header) msg).bind fun jsonHeader => match memberAt (jasonKey .code) jsonHeader with
    | some (.int code) => some code
    | _ => none

theorem Edited.code (edited : Edited request errcode result msg) : codeTold msg = some errcode := by
  obtain ⟨_,new,_,after,code,_⟩ := edited.header
  unfold codeTold
  rw [after,Option.bind_some,code]

theorem withDevObj_refused (each : ∀ devObj, (body devObj).2 = msgCodeSucess ∨ (body devObj).2 = msgCodeFormatErr) :
    (withDevObj r jsonMsg body).2 = msgCodeSucess ∨ (withDevObj r jsonMsg body).2 = msgCodeFormatErr := by
  rw [withDevObj_devObjOf]
  cases devObjOf jsonMsg with
  | none => exact .inr rfl
  | some devObj => exact each devObj

theorem getCode_refused (devObj : Json) (key : JsonImCmd) :
    getCode (some devObj) key = msgCodeSucess ∨ getCode (some devObj) key = msgCodeFormatErr := by
  unfold getCode
  dsimp only
  split
  · exact .inl rfl
  · exact .inr rfl

theorem orInto_refused (devObj : Json) (left right : JsonImCmd) :
    orInto (orInto msgCodeSucess (getCode (some devObj) left)) (getCode (some devObj) right) = msgCodeSucess ∨
      orInto (orInto msgCodeSucess (getCode (some devObj) left)) (getCode (some devObj) right) = msgCodeFormatErr := by
  rcases getCode_refused devObj left with first | first <;> rcases getCode_refused devObj right with second | second
  · rw [first,second]; exact .inl rfl
  · rw [first,second]; exact .inr rfl
  · rw [first,second]; exact .inr rfl
  · rw [first,second]; exact .inr rfl

theorem imJsonParseDataTerminal_refused (r : Records) (jsonMsg : Json) (cmd : Int) :
    (imJsonParseDataTerminal r jsonMsg cmd).2 = msgCodeSucess ∨ (imJsonParseDataTerminal r jsonMsg cmd).2 = msgCodeFormatErr := by
  unfold imJsonParseDataTerminal
  cases TermMsgCmd.ofCode cmd with
  | none => exact .inl rfl
  | some kind =>
    cases kind with
    | startAcc | stopAcc =>
      apply withDevObj_refused
      intro devObj
      simpa [imJsonGetString] using getCode_refused devObj .devName
    | keepacc =>
      apply withDevObj_refused
      intro devObj
      simpa [imJsonGetInt] using getCode_refused devObj .isKeepacc
    | getflow =>
      apply withDevObj_refused
      intro devObj
      simpa only [imJsonGetString,imJsonGet_code] using orInto_refused devObj .getFlowId .devName
    | iosinfo =>
      apply withDevObj_refused
      intro devObj
      simpa only [imJsonGetString,imJsonGet_code] using orInto_refused devObj .devicetoken .devid
    | accStateInfo | getflowInfo | ungettedflow | peakflow | getAcclist => exact .inl rfl

theorem received_refused (refused : (received d (some pMsg)).2 ≠ msgCodeSucess) :
    (received d (some pMsg)).2 = msgCodeFormatErr := by
  have header : (imJsonParseHeader pMsg d.records.cmdHeader).2 = msgCodeSucess ∨
      (imJsonParseHeader pMsg d.records.cmdHeader).2 = msgCodeFormatErr := by
    unfold imJsonParseHeader
    split
    · exact .inr rfl
    · dsimp only
      split
      · exact .inl rfl
      · exact .inr rfl
  change (imJsonParseTerminal d.records (some pMsg)).2 ≠ msgCodeSucess at refused
  change (imJsonParseTerminal d.records (some pMsg)).2 = msgCodeFormatErr
  by_cases complete : HeaderComplete pMsg
  · rw [imJsonParseTerminal_complete complete] at refused ⊢
    exact (imJsonParseDataTerminal_refused ..).resolve_left refused
  · rw [imJsonParseTerminal_rejected complete] at refused ⊢
    exact header.resolve_left refused

theorem termCode_own (own : code ∈ ownCodes) : TermCode code := by
  simp only [ownCodes,List.mem_cons,List.not_mem_nil,or_false] at own
  unfold TermCode
  rcases own with rfl | rfl | rfl | rfl <;> decide

theorem terminalSwitch_speaks (asks : queries d = none) (ran : terminalSwitch created header d replies = some h) :
    SpeaksTerm (cloudCode d replies) h.errcode := by
  refine ⟨termCode_own (terminalSwitch_own asks ran).2,?_⟩
  intro c given _ _ failed unknown
  unfold cloudCode at given
  rw [asks] at given
  dsimp only at given
  by_cases stops : TermMsgCmd.ofCode d.records.cmdHeader.imCmd = some TermMsgCmd.stopAcc
  · unfold terminalSwitch at ran
    simp only [stops] at ran
    rcases (stopAcc_answers ran).2 with code | code
    · exact absurd code failed
    · exact absurd code unknown
  · rw [if_neg stops] at given
    cases given

theorem cloudCode_last (asks : queries d = some (delays,state))
    (left : afterRounds (stale state) logsIn replies = query :: rest) :
    cloudCode d replies = if accepts state query.body then some (replyCode query.body) else none := by
  unfold cloudCode
  rw [asks]
  dsimp only
  rw [left]
  rfl

theorem toldCode_speaks (delays : Bool) (state : AccOpenState) (query : Exchange) :
    SpeaksTerm (if accepts state query.body then some (replyCode query.body) else none) (toldCode delays state query) ↔
      (accepts state query.body = true →
        TermCode (replyCode query.body) ∨ delays = true ∧ replyCode query.body = msgCodeMsgdelay) := by
  unfold toldCode
  by_cases accepted : accepts state query.body = true
  · rw [if_pos accepted,if_pos accepted]
    by_cases delayed : delays = true ∧ replyCode query.body = msgCodeMsgdelay
    · rw [if_pos delayed]
      refine ⟨fun _ _ => .inr delayed,fun _ => ⟨by unfold TermCode; decide,?_⟩⟩
      rintro c ⟨⟩ _ _ _ _ _
      rw [delayed.2]
      rfl
    · rw [if_neg delayed]
      constructor
      · intro speaks _
        exact .inl speaks.1
      · intro plain
        have term := (plain accepted).resolve_right delayed
        refine ⟨term,?_⟩
        rintro c ⟨⟩ low high success unknown timeout
        simp only [TermCode,msgCodeSucess,msgCodeUnknown,msgCodeTimeout,msgCodeFormatErrTerm,msgCodeSpeedupMaxTerm,
          msgCodeFormatErr,msgCodeSpeedupMax] at *
        omega
  · rw [if_neg accepted,if_neg accepted]
    refine ⟨fun _ ok => absurd ok accepted,fun _ => ⟨.inr (.inl rfl),?_⟩⟩
    intro c given
    cases given

theorem terminalSwitch_code (ran : terminalSwitch created header d replies = some h) :
    SpeaksTerm (cloudCode d replies) h.errcode ↔ Translated d replies := by
  cases asks : queries d with
  | none =>
    refine ⟨fun _ delays state found => ?_,fun _ => terminalSwitch_speaks asks ran⟩
    rw [asks] at found
    cases found
  | some kind =>
    obtain ⟨delays,state⟩ := kind
    obtain ⟨run,Ready,begun,same,ready,cycles⟩ := terminalSwitch_cycles asks created header
    rw [same] at ran
    obtain ⟨query,rest,left,how⟩ := cycles.ended ready ran
    have last := cloudCode_last asks left
    have translated : Translated d replies ↔ (accepts state query.body = true → TermCode (replyCode query.body) ∨
        replyCode query.body = msgCodeInvalidses ∨ delays = true ∧ replyCode query.body = msgCodeMsgdelay) := by
      unfold Translated
      rw [asks,last]
      constructor
      · intro all accepted
        exact all delays state rfl _ (if_pos accepted)
      · rintro one _ _ ⟨⟩ c given
        split at given
        · rename_i accepted
          cases given
          exact one accepted
        · cases given
    rw [translated,last]
    rcases how with ⟨fresh,code,_⟩ | ⟨old,code,_⟩
    · rw [code,toldCode_speaks delays state query]
      constructor
      · intro plain accepted
        rcases plain accepted with term | delayed
        · exact .inl term
        · exact .inr (.inr delayed)
      · intro all accepted
        rcases all accepted with term | expired | delayed
        · exact .inl term
        · exact absurd (stale_exact.mpr ⟨accepted,expired⟩) (by rw [fresh]; decide)
        · exact .inr delayed
    · rw [code]
      refine ⟨fun _ _ => .inr (.inl (stale_exact.mp old).2),fun _ => ⟨.inr (.inl rfl),?_⟩⟩
      intro c _ _ _ _ unknown
      exact absurd rfl unknown

-- In the terminal's codes where the message is right and the cloud's last code is translated.
theorem replyCode_exact (ran : imHandleMsg created header d pMsg replies = some h) :
    (∀ msg, h.daemon.answers = d.answers ++ [msg] → ∀ code ∈ codeTold msg,
      SpeaksTerm (cloudCode (received d pMsg).1 replies) code) ↔
    ∀ request ∈ pMsg, (TerminalMessage request → Translated (received d pMsg).1 replies) ∧
      (¬TerminalMessage request → ¬CodeGiven request) := by
  cases pMsg with
  | none =>
    cases ran
    refine ⟨fun _ => nofun,fun _ msg one => ?_⟩
    have none : d.answers = d.answers ++ [msg] := one
    simp at none
  | some request =>
    simp only [Option.mem_some_iff,forall_eq']
    by_cases accepted : (received d (some request)).2 = msgCodeSucess
    · have message := (received_sucess d request).mp accepted
      rw [imHandleMsg_accepted accepted] at ran
      obtain ⟨h',switched,_⟩ := Option.map_eq_some_iff.mp ran
      obtain ⟨same,msg,handled,_,_,sent,edited⟩ := imHandleCmdTerminal_replies message.header.code switched
      cases handled.symm.trans ran
      rw [← terminalSwitch_code switched]
      constructor
      · intro all
        exact ⟨fun _ => all msg sent _ edited.code,fun refused => absurd message refused⟩
      · rintro ⟨speaks,_⟩ other one code told
        have alike : [msg] = [other] := List.append_cancel_left (sent.symm.trans one)
        cases alike
        rw [edited.code] at told
        cases told
        exact speaks message
    · have refused := mt (received_sucess d request).mpr accepted
      rw [imHandleMsg_refused accepted] at ran
      cases ran
      have sent := (received d (some request)).1.reply_answers (some request) (received d (some request)).2 none
      constructor
      · intro all
        refine ⟨fun message => absurd message refused,fun _ given => ?_⟩
        obtain ⟨msg,made,edited⟩ := imJsonMakeResponeSend_edits given (received d (some request)).2 none
        rw [made] at sent
        have speaks := all msg sent _ edited.code
        rw [received_refused accepted] at speaks
        rcases speaks.1 with success | unknown | timeout | term
        · cases success
        · cases unknown
        · cases timeout
        · exact absurd term.1 (by decide)
      · rintro ⟨_,bare⟩ msg one
        rw [imJsonMakeResponeSend_fails (bare refused)] at sent
        have none : d.answers = d.answers ++ [msg] := by
          rw [← one]
          exact (sent.trans (List.append_nil _)).symm
        simp at none

theorem replyCode_ended : ∃ h, imHandleMsg true default booted.daemon (some (termMsg .getflow)) [delivered .getflow 8 []] = some h ∧
    ((∀ msg, h.daemon.answers = booted.daemon.answers ++ [msg] → ∀ code ∈ codeTold msg,
      SpeaksTerm (cloudCode (received booted.daemon (some (termMsg .getflow))).1 [delivered .getflow 8 []]) code) ↔
    ∀ request ∈ some (termMsg .getflow),
      (TerminalMessage request →
        Translated (received booted.daemon (some (termMsg .getflow))).1 [delivered .getflow 8 []]) ∧
      (¬TerminalMessage request → ¬CodeGiven request)) := by
  cases ran : imHandleMsg true default booted.daemon (some (termMsg .getflow)) [delivered .getflow 8 []] with
  | none => exact absurd ran (by decide)
  | some h => exact ⟨h,rfl,replyCode_exact ran⟩

theorem replyCode_untranslated : ∃ w h msg, Transition.run step booted started = some w ∧
    imHandleMsg true default w.daemon (some (termMsg .getflow)) [delivered .getflow 8 []] = some h ∧
    h.daemon.answers = w.daemon.answers ++ [msg] ∧ codeTold msg = some 8 ∧
    ¬SpeaksTerm (cloudCode (received w.daemon (some (termMsg .getflow))).1 [delivered .getflow 8 []]) 8 := by
  refine ⟨_,_,_,rfl,rfl,rfl,rfl,?_⟩
  rintro ⟨term,_⟩
  unfold TermCode at term
  revert term
  decide

end ImAcc
