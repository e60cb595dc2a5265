import ImAcc.Conduct
import ImAcc.Lib.Journal

-- What every login request, success notice and datagram is due to, over the log.
namespace ImAcc
open JsonC Script Transition Journal

def cloudText : Output → Option Bytes
  | .cloud msg => some msg
  | _ => none

def sentTexts (out : List Output) : List Bytes := out.filterMap cloudText

def commandHead : Bytes := bytes "\x7b\"header\": \x7b\"cmd\": "
def commandOf (msg : Bytes) : Bytes := (msg.drop commandHead.length).take 3

def renewingCmds : List CloudMsgCmd := [.isAcc,.startAcc,.getflow,.getflowInfo,.ungetflow,.getAcclist]

-- A task query is answered so by the code 5, or by a header without a code.
def Expires (asked : Bytes) (body : Option Json) : Prop :=
  if commandOf asked = decimal CloudMsgCmd.getTaskresult.code then
    headerInt body .code msgCodeIvalidedevid = msgCodeIvalidedevid
  else commandOf asked ∈ renewingCmds.map (decimal ·.code) ∧ replyCode body = msgCodeInvalidses

def Opens (asked : Bytes) (body : Option Json) : Prop :=
  (commandOf asked = decimal CloudMsgCmd.startAcc.code ∨ commandOf asked = decimal CloudMsgCmd.getTaskresult.code) ∧
    accepts .opening body = true ∧ replyCode body = msgCodeSucess

def AnsweredBy (replies : List Exchange) (log : List Output) (asked : Bytes) (ex : Exchange) : Prop :=
  (sentTexts log).getLast? = some asked ∧ replies[(sentTexts log).length-1]? = some ex

def spoken : Output → Option (Option Bytes)
  | .cloud msg => some (some msg)
  | .brocast .accSuccess _ => some none
  | _ => none

def notified : Output → Option (BrocastNotifyType × Bytes)
  | .brocast notyType notyData => some (notyType,notyData)
  | _ => none

def loginDue (replies : List Exchange) (log : List Output) : Output → Prop
  | .cloud msg => commandOf msg = decimal CloudMsgCmd.devLogin.code →
    sentTexts log = [] ∨ ∃ asked ex, AnsweredBy replies log asked ex ∧ Expires asked ex.body
  | _ => True

def successDue (replies : List Exchange) (log : List Output) : Output → Prop
  | .brocast .accSuccess _ => ∃ asked ex, latest spoken log = some (some asked) ∧ AnsweredBy replies log asked ex ∧
    Opens asked ex.body
  | _ => True

def datagramDue (log : List Output) : Output → Prop
  | .udp msg => ∃ notice, latest notified log = some notice ∧ msg = udpInfo notice.1 notice.2
  | _ => True

theorem sentTexts_append (log added : List Output) : sentTexts (log ++ added) = sentTexts log ++ sentTexts added :=
  List.filterMap_append

theorem CloudOp.commandOf_cmd (op : CloudOp) (r : Records) : commandOf (op.imJsonMakeCmd r) = decimal op.cmd.code := by
  have cut (cmd : CloudMsgCmd) (rest : Bytes) : commandOf (commandHead ++ (decimal cmd.code ++ rest)) =
        decimal cmd.code := by
    have digits : (decimal cmd.code).length = 3 := by cases cmd <;> decide
    unfold commandOf
    rw [List.drop_left,← digits,List.take_left]
  have made (cmd : CloudMsgCmd) (data : Bytes) : commandOf (cloudCmdText cmd data) = decimal cmd.code := by
    unfold cloudCmdText
    simp only [List.append_assoc]
    exact cut cmd _
  cases op with
  | login =>
    unfold CloudOp.imJsonMakeCmd imJsonMakeCmdLogin
    simp only [List.append_assoc]
    exact cut .devLogin _
  | _ => exact made _ _

theorem AnsweredBy.append (answered : AnsweredBy replies log asked ex) (more : List Exchange) :
    AnsweredBy (replies ++ more) log asked ex := by
  refine ⟨answered.1,?_⟩
  obtain ⟨short,_⟩ := List.getElem?_eq_some_iff.mp answered.2
  rw [List.getElem?_append_left short]
  exact answered.2

theorem loginDue_append (more : List Exchange) (due : loginDue replies log output) :
    loginDue (replies ++ more) log output := by
  cases output with
  | cloud msg =>
    intro login
    refine (due login).imp_right ?_
    rintro ⟨asked,ex,answered,expires⟩
    exact ⟨asked,ex,answered.append more,expires⟩
  | _ => trivial

theorem successDue_append (more : List Exchange) (due : successDue replies log output) :
    successDue (replies ++ more) log output := by
  cases output with
  | brocast notyType notyData =>
    cases notyType with
    | accSuccess =>
      obtain ⟨asked,ex,last,answered,opens⟩ := due
      exact ⟨asked,ex,last,answered.append more,opens⟩
    | _ => trivial
  | _ => trivial

structure Told (replies : List Exchange) (s : Daemon × Option Heard) : Prop where
  count : (sentTexts s.1.out).length = replies.length
  heard : ∀ h ∈ s.2, ∃ msg, AnsweredBy replies s.1.out msg h.ex ∧ latest spoken s.1.out = some (some msg) ∧
    commandOf msg = decimal h.op.cmd.code
  login : Due (loginDue replies) s.1.out
  success : Due (successDue replies) s.1.out

theorem Told.forget (told : Told replies s) : Told replies (s.1,none) :=
  ⟨told.count,fun _ member => absurd member (Option.not_mem_none _),told.login,told.success⟩

theorem command_injective {a b : CloudMsgCmd} : decimal a.code = decimal b.code ↔ a = b := by
  constructor
  · cases a <;> cases b <;> first | (intro _; rfl) | (intro same; revert same; decide)
  · rintro rfl
    rfl

theorem CloudOp.login_cmd (op : CloudOp) : op.cmd = .devLogin ↔ op = .login := by cases op <;> simp [CloudOp.cmd]

theorem CloudOp.task_cmd (op : CloudOp) : op.cmd = .getTaskresult ↔ op = .gettaskresult := by cases op <;> simp [CloudOp.cmd]

theorem CloudOp.renews_cmd {op : CloudOp} (renews : op.renews = true) :
    decimal op.cmd.code ∈ renewingCmds.map (decimal ·.code) := by
  refine List.mem_map_of_mem (f := fun cmd : CloudMsgCmd => decimal cmd.code) ?_
  cases op <;> simp_all [CloudOp.renews,CloudOp.cmd,renewingCmds]

theorem Heard.Expired.expires {h : Heard} (expired : h.Expired) (command : commandOf msg = decimal h.op.cmd.code) :
    Expires msg h.ex.body := by
  have task : decimal h.op.cmd.code = decimal CloudMsgCmd.getTaskresult.code ↔ h.op = .gettaskresult :=
    command_injective.trans h.op.task_cmd
  unfold Heard.Expired at expired
  unfold Expires
  rw [command]
  by_cases polled : h.op = .gettaskresult
  · rw [if_pos polled] at expired
    rwa [if_pos (task.mpr polled)]
  · rw [if_neg polled] at expired
    rw [if_neg fun same => polled (task.mp same)]
    exact ⟨CloudOp.renews_cmd expired.1,expired.2⟩

theorem Heard.Grants.opens {h : Heard} {op : CloudOp} (grants : h.Grants op)
    (command : commandOf msg = decimal h.op.cmd.code)
    (kind : op = .startaac ∨ op = .gettaskresult) : Opens msg h.ex.body := by
  obtain ⟨rfl,accepted,code⟩ := grants
  refine ⟨?_,accepted,code⟩
  rcases kind with same | same
  · exact .inl (by rw [command,same]; rfl)
  · exact .inr (by rw [command,same]; rfl)

theorem Told.aside (told : Told replies (d,last)) (out : d'.out = Daemon.out d ++ added)
    (aside : ∀ output ∈ added, spoken output = none) : Told replies (d',last) := by
  induction added generalizing d with
  | nil =>
    rw [List.append_nil] at out
    obtain ⟨count,heard,login,success⟩ := told
    simp only [← out] at count heard login success
    exact ⟨count,heard,login,success⟩
  | cons output rest ih =>
    have mute : spoken output = none := aside output List.mem_cons_self
    have silent : sentTexts (d.out ++ [output]) = sentTexts d.out := by
      rw [sentTexts_append]
      cases output with
      | cloud msg => cases mute
      | _ => exact List.append_nil _
    refine ih (d := d.send output) ⟨?_,?_,?_,?_⟩ (by rw [out]; exact (List.append_assoc d.out [output] rest).symm)
      fun later member => aside later (List.mem_cons_of_mem _ member)
    · exact (congrArg List.length silent).trans told.count
    · intro h member
      obtain ⟨msg,answered,last,command⟩ := told.heard h member
      refine ⟨msg,?_,?_,command⟩
      · change AnsweredBy replies (d.out ++ [output]) msg h.ex
        unfold AnsweredBy
        rwa [silent]
      · change latest spoken (d.out ++ [output]) = _
        rwa [latest_snoc,mute,Option.none_or]
    · refine due_snoc.mpr ⟨told.login,?_⟩
      cases output with
      | cloud msg => cases mute
      | _ => trivial
    · refine due_snoc.mpr ⟨told.success,?_⟩
      cases output with
      | brocast notyType notyData =>
        cases notyType with
        | accSuccess => cases mute
        | _ => trivial
      | _ => trivial

theorem Told.exchange (told : Told replies (d,last)) (permitted : Permitted (d,last) (.exchange op header ex)) :
    Told (replies ++ [ex]) ((op.run d header ex).daemon,some ⟨op,ex⟩) := by
  have out := CloudOp.run_out op d header ex
  have texts : sentTexts (op.run d header ex).daemon.out = sentTexts d.out ++ [op.imJsonMakeCmd d.records] := by
    rw [out,sentTexts_append]
    rfl
  constructor
  · rw [texts,List.length_append,List.length_append,told.count]
    rfl
  · rintro h ⟨⟩
    refine ⟨op.imJsonMakeCmd d.records,⟨?_,?_⟩,?_,CloudOp.commandOf_cmd op d.records⟩
    · rw [texts,List.getLast?_append]
      rfl
    · rw [texts,List.length_append,told.count]
      exact List.getElem?_concat_length
    · rw [out,latest_snoc]
      rfl
  · rw [out]
    refine due_snoc.mpr ⟨told.login.mono fun _ _ due => loginDue_append [ex] due,fun command => .inr ?_⟩
    rw [CloudOp.commandOf_cmd,command_injective,CloudOp.login_cmd] at command
    subst command
    obtain ⟨h,member,expired⟩ := permitted
    obtain ⟨asked,answered,_,kind⟩ := told.heard h member
    exact ⟨asked,h.ex,answered.append [ex],expired.expires kind⟩
  · rw [out]
    exact due_snoc.mpr ⟨told.success.mono fun _ _ due => successDue_append [ex] due,trivial⟩

theorem Told.opening {op : CloudOp} (told : Told replies (d,last)) (granted : ∃ h ∈ last, h.Grants op)
    (kind : op = .startaac ∨ op = .gettaskresult) (out : d'.out = d.out ++ [.brocast .accSuccess text]) :
    Told replies (d',none) := by
  obtain ⟨h,member,grants⟩ := granted
  obtain ⟨asked,answered,last,command⟩ := told.heard h member
  refine ⟨?_,fun _ member => absurd member (Option.not_mem_none _),?_,?_⟩
  · rw [out,sentTexts_append]
    exact (congrArg List.length (List.append_nil _)).trans told.count
  · rw [out]
    exact due_snoc.mpr ⟨told.login,trivial⟩
  · rw [out]
    exact due_snoc.mpr ⟨told.success,asked,h.ex,last,answered,grants.opens command kind⟩

theorem Told.unasked (told : Told replies s) (permitted : Permitted s act) (silent : act.exchanged = none) :
    Told replies (act.apply s.1,hears s.2 act) := by
  have out := act_out s.1 act
  cases act with
  | exchange op header ex => cases silent
  | granted => exact told.opening permitted.2 (.inl rfl) out
  | found => exact told.opening permitted.2 (.inr rfl) out
  | notice notyType =>
    refine told.aside out fun output member => ?_
    rw [List.mem_singleton.mp member]
    cases notyType with
    | accSuccess => exact absurd rfl permitted
    | _ => rfl
  | udp =>
    refine told.aside out fun output member => ?_
    simp only [Act.puts] at member
    split at member
    · rw [List.mem_singleton.mp member]
      rfl
    · cases member
  | reply msg =>
    refine told.aside out fun output member => ?_
    rw [List.mem_singleton.mp member]
    rfl
  | _ => exact told.aside out fun output member => absurd member List.not_mem_nil

theorem Told.acted (told : Told replies s) (permitted : Permitted s act) :
    Told (replies ++ act.exchanged.toList) (act.apply s.1,hears s.2 act) := by
  cases asked : act.exchanged with
  | none =>
    rw [Option.toList_none,List.append_nil]
    exact told.unasked permitted asked
  | some ex =>
    cases act with
    | exchange op header ex => cases asked; exact told.exchange permitted
    | _ => cases asked

theorem Told.plays (told : Told replies s) (plays : Plays conduct s acts t) :
    Told (replies ++ acts.filterMap Act.exchanged) t := by
  induction acts generalizing replies s with
  | nil =>
    cases plays
    rwa [List.filterMap_nil,List.append_nil]
  | cons act rest ih =>
    have first := ih (told.acted plays.1) plays.2
    rw [List.append_assoc] at first
    have same : act.exchanged.toList ++ rest.filterMap Act.exchanged = (act :: rest).filterMap Act.exchanged := by
      cases seen : act.exchanged <;> simp [seen]
    rwa [same] at first

theorem step_told (told : Told replies (w.daemon,none)) (taken : step w event = some next) :
    Told (replies ++ event.replies) (next.daemon,none) := by
  obtain ⟨last,acts,plays,_,exchanged⟩ := step_conduct taken
  rw [List.append_nil] at exchanged
  rw [← exchanged]
  exact (told.plays plays).forget

theorem run_told (told : Told replies (start.daemon,none)) (ran : run step start events = some w) :
    Told (replies ++ events.flatMap Event.replies) (w.daemon,none) := by
  induction events generalizing start replies with
  | nil =>
    cases ran
    rwa [List.flatMap_nil,List.append_nil]
  | cons event rest ih =>
    obtain ⟨next,taken,later⟩ := Option.bind_eq_some_iff.mp ran
    rw [List.flatMap_cons,← List.append_assoc]
    exact ih (step_told told taken) later

theorem boot_out (ulongBits : Nat) (uci : UciIsacc) (lanIp : Bytes) (ex : Exchange) :
    (World.boot ulongBits uci lanIp ex).daemon.out =
      [] ++ [.cloud (imJsonMakeCmdLogin (Daemon.ready ulongBits uci lanIp).records.loginCmd)] := by
  rw [World.boot_ready]
  exact CloudOp.run_out .login (.ready ulongBits uci lanIp) default ex

theorem boot_told (ulongBits : Nat) (uci : UciIsacc) (lanIp : Bytes) (ex : Exchange) :
    Told [ex] ((World.boot ulongBits uci lanIp ex).daemon,none) := by
  refine ⟨?_,fun _ member => absurd member (Option.not_mem_none _),?_,?_⟩
  · rw [boot_out]
    rfl
  · rw [boot_out]
    exact due_snoc.mpr ⟨due_nil _,fun _ => .inl rfl⟩
  · rw [boot_out]
    exact due_snoc.mpr ⟨due_nil _,trivial⟩

-- No login is sent but the first and those that renew a session just found expired.
theorem run_login_due (ran : run step (World.boot ulongBits uci lanIp ex) events = some w) :
    Due (loginDue (ex :: events.flatMap Event.replies)) w.daemon.out :=
  (run_told (boot_told ulongBits uci lanIp ex) ran).login

def renewedStart : List Event := started ++ [told .startAcc
  [delivered .startAcc msgCodeInvalidses [],loginReply,delivered .startAcc msgCodeSucess [[]]],.alarm 0 none []]

theorem run_login_due_renewed : ∃ w, Transition.run step booted renewedStart = some w ∧
    (sentTexts w.daemon.out).countP (commandOf · = decimal CloudMsgCmd.devLogin.code) = 2 ∧
    Due (loginDue (loginReply :: renewedStart.flatMap Event.replies)) w.daemon.out := by
  have ran : ((Transition.run step booted renewedStart).map fun w =>
      (sentTexts w.daemon.out).countP (commandOf · = decimal CloudMsgCmd.devLogin.code)) = some 2 := by decide
  obtain ⟨w,ran,twice⟩ := Option.map_eq_some_iff.mp ran
  exact ⟨w,ran,twice,run_login_due ran⟩

-- No success is announced but on a grant, and no grant is announced twice.
theorem run_success_due (ran : run step (World.boot ulongBits uci lanIp ex) events = some w) :
    Due (successDue (ex :: events.flatMap Event.replies)) w.daemon.out :=
  (run_told (boot_told ulongBits uci lanIp ex) ran).success

theorem run_success_due_renewed : ∃ w, Transition.run step booted renewedStart = some w ∧
    (latest spoken w.daemon.out) = some none ∧
    Due (successDue (loginReply :: renewedStart.flatMap Event.replies)) w.daemon.out := by
  have ran : ((Transition.run step booted renewedStart).map fun w => latest spoken w.daemon.out) =
      some (some none) := by decide
  obtain ⟨w,ran,announced⟩ := Option.map_eq_some_iff.mp ran
  exact ⟨w,ran,announced,run_success_due ran⟩

def CarriesUdp (before after : Timers) : Prop :=
  after.udpFuncArg = before.udpFuncArg ∧
    idsOf .imUdpbrocastTimerProc after.thealarms ⊆ idsOf .imUdpbrocastTimerProc before.thealarms

theorem CarriesUdp.trans (ab : CarriesUdp a b) (bc : CarriesUdp b c) : CarriesUdp a c :=
  ⟨bc.1.trans ab.1,List.Subset.trans bc.2 ab.2⟩

theorem carries_same (same : after = before) : CarriesUdp before after := same ▸ ⟨rfl,List.Subset.refl _⟩

theorem snmpAlarmRegister_carries (s : Timers) (seconds flags : Nat) (session : callback ≠ .imUdpbrocastTimerProc) :
    CarriesUdp s (snmpAlarmRegister s seconds flags callback).1 := by
  constructor
  · obtain ⟨itimer,made⟩ := snmpAlarmRegister_parts s seconds flags callback
    rw [made]
  · rw [idsOf_register,if_neg session,List.append_nil]
    exact List.Subset.refl _

theorem registerHearbeat_carries (d : Daemon) : CarriesUdp d.timers d.registerHearbeat.timers :=
  snmpAlarmRegister_carries d.timers _ _ nofun

theorem registerFlowcount_carries (d : Daemon) : CarriesUdp d.timers d.registerFlowcount.timers :=
  snmpAlarmRegister_carries d.timers _ _ nofun

theorem carries_fewer (fewer : (names alarms).Sublist (names s.thealarms)) : CarriesUdp s {s with thealarms := alarms} :=
  ⟨rfl,(idsOf_sublist _ fewer).subset⟩

theorem unregister_carries (s : Timers) (clientreg : Nat) :
    CarriesUdp s {s with thealarms := snmpAlarmUnregister clientreg s.thealarms} :=
  carries_fewer ((snmpAlarmUnregister_sublist clientreg s.thealarms).map _)

-- A datagram has the text of the notice before it, and there is one while an alarm is armed.
structure Fresh (d : Daemon) : Prop where
  due : Due datagramDue d.out
  text : ∀ notice ∈ latest notified d.out, d.timers.udpFuncArg = udpInfo notice.1 notice.2
  armed : idsOf .imUdpbrocastTimerProc d.timers.thealarms ≠ [] → (latest notified d.out).isSome = true

theorem Fresh.aside (fresh : Fresh d) (carries : CarriesUdp d.timers d'.timers) (out : d'.out = d.out ++ added)
    (mute : ∀ output ∈ added, notified output = none) (due : Due datagramDue d'.out) : Fresh d' := by
  have same : latest notified d'.out = latest notified d.out := by
    rw [out,latest_append,latest,List.findSome?_eq_none_iff.mpr
      fun output member => mute output (List.mem_reverse.mp member)]
    rfl
  refine ⟨due,?_,?_⟩
  · rw [same,carries.1]
    exact fresh.text
  · rw [same]
    exact fun armed => fresh.armed fun none => armed (List.subset_nil.mp (none ▸ carries.2))

theorem Fresh.notify (fresh : Fresh d) (out : d'.out = d.out ++ [.brocast notyType notyData])
    (text : d'.timers.udpFuncArg = udpInfo notyType notyData) : Fresh d' := by
  have last : latest notified d'.out = some (notyType,notyData) := by rw [out,latest_snoc]; rfl
  refine ⟨?_,?_,?_⟩
  · rw [out]
    exact due_snoc.mpr ⟨fresh.due,trivial⟩
  · rw [last]
    rintro notice ⟨⟩
    exact text
  · intro _
    rw [last]
    rfl

theorem imBrocastToTerminal_text (d : Daemon) (notyType : BrocastNotifyType) (notyData : Bytes) :
    (imBrocastToTerminal d notyType notyData).timers.udpFuncArg = udpInfo notyType notyData := by
  obtain ⟨itimer,made⟩ := imUdpbrocastTimerStart_parts d.timers (udpInfo notyType notyData)
  exact congrArg Timers.udpFuncArg made

theorem exchange_quiet (op : CloudOp) (d : Daemon) (header : MsgHeader) (ex : Exchange) :
    Quiet d (op.run d header ex).daemon := by
  cases op with
  | login => exact imCloudLogin_quiet d ex
  | heartbeat => exact imCloudHeartbeat_quiet d ex
  | _ => exact imCloudExchange_quiet ..

theorem act_carries (d : Daemon) (act : Act) (mute : ∀ output ∈ act.puts d, notified output = none) :
    CarriesUdp d.timers (act.apply d).timers := by
  cases act with
  | parse pMsg => exact carries_same (received_quiet d pMsg).timers
  | exchange op header ex => exact carries_same (exchange_quiet op d header ex).timers
  | granted | found | notice notyType => cases mute _ List.mem_cons_self
  | finish => exact registerFlowcount_carries d
  | stopHearbeat | stopFlowcount => exact unregister_carries d.timers _
  | udp =>
    have timers : (sendUdp d).timers = (imUdpbrocastTimerProc d.timers).1 := by
      unfold sendUdp
      dsimp only
      split <;> rfl
    change CarriesUdp d.timers (sendUdp d).timers
    rw [timers]
    unfold imUdpbrocastTimerProc
    split
    · exact ⟨rfl,List.Subset.refl _⟩
    · exact unregister_carries d.timers _
  | moved now clientreg => exact carries_fewer (reschedule_names now clientreg _)
  | alarmInit =>
    obtain ⟨itimer,made⟩ := setAnAlarm_parts {d.timers with startAlarms := true}
    change CarriesUdp d.timers (setAnAlarm {d.timers with startAlarms := true})
    rw [made]
    exact ⟨rfl,List.Subset.refl _⟩
  | clock now => exact ⟨rfl,List.Subset.refl _⟩
  | _ => exact carries_same rfl

theorem Fresh.mute (fresh : Fresh d) (act : Act) (puts : act.puts d = added)
    (mute : ∀ output ∈ added, notified output = none)
    (due : Due datagramDue (d.out ++ added)) :
    Fresh (act.apply d) := by
  have out := act_out d act
  rw [← puts] at mute due
  exact fresh.aside (act_carries d act mute) out mute (out ▸ due)

theorem Fresh.acted (fresh : Fresh d) (act : Act) (armed : act = .udp → (latest notified d.out).isSome = true) :
    Fresh (act.apply d) := by
  have single {output : Output} (mute : notified output = none) : ∀ o ∈ [output], notified o = none := by
    intro o member
    rwa [List.mem_singleton.mp member]
  cases act with
  | granted =>
    have text := imBrocastToTerminal_text {d with records := startedInfo d.records} .accSuccess (successText d.records)
    have registered (d : Daemon) : CarriesUdp d.timers d.registerHearbeat.registerFlowcount.timers :=
      (registerHearbeat_carries d).trans (registerFlowcount_carries d.registerHearbeat)
    exact fresh.notify (act_out d .granted) ((registered _).1.trans text)
  | found =>
    have text := imBrocastToTerminal_text d .accSuccess (successText d.records)
    exact fresh.notify (act_out d .found) ((registerHearbeat_carries _).1.trans text)
  | notice notyType => exact fresh.notify (act_out d (.notice notyType)) (imBrocastToTerminal_text ..)
  | udp =>
    obtain ⟨notice,last⟩ := Option.isSome_iff_exists.mp (armed rfl)
    by_cases early : (imUdpbrocastTimerProc d.timers).2 = true
    · exact fresh.mute .udp (if_pos early) (single rfl) (due_snoc.mpr ⟨fresh.due,notice,last,fresh.text notice last⟩)
    · exact fresh.mute .udp (if_neg early) nofun ((List.append_nil d.out).symm ▸ fresh.due)
  | exchange op header ex => exact fresh.mute _ rfl (single rfl) (due_snoc.mpr ⟨fresh.due,trivial⟩)
  | reply msg => exact fresh.mute _ rfl (single rfl) (due_snoc.mpr ⟨fresh.due,trivial⟩)
  | _ => exact fresh.mute _ rfl nofun ((List.append_nil d.out).symm ▸ fresh.due)

theorem permits_udp (permitted : Event.permits w event .udp = true) :
    idsOf .imUdpbrocastTimerProc w.daemon.timers.thealarms ≠ [] := by
  cases event with
  | alarm i ifaList replies =>
    have fired : firing w (.alarm i ifaList replies) = some .imUdpbrocastTimerProc := of_decide_eq_true permitted
    obtain ⟨a,place,callback⟩ := Option.map_eq_some_iff.mp fired
    exact List.ne_nil_of_mem (mem_idsOf.mpr ⟨a,List.mem_of_getElem? place,callback,rfl⟩)
  | _ => cases permitted

theorem step_fresh (fresh : Fresh w.daemon) (taken : step w event = some next) : Fresh next.daemon := by
  obtain ⟨last,acts,plays,kind,_⟩ := step_conduct taken
  have kept := plays.keeps
    (I := fun s => Fresh s.1 ∧ (Event.permits w event .udp = true → (latest notified s.1.out).isSome = true))
    ⟨fresh,fun permitted => fresh.armed (permits_udp permitted)⟩ ?_
  · exact kept.1
  · rintro s act member ⟨held,notice⟩ _
    refine ⟨held.acted act fun udp => notice (udp ▸ kind act member),fun ticking => ?_⟩
    change (latest notified (act.apply s.1).out).isSome = true
    rw [act_out,latest_append,Option.isSome_or,notice ticking,Bool.or_true]

theorem boot_fresh (ulongBits : Nat) (uci : UciIsacc) (lanIp : Bytes) (ex : Exchange) :
    Fresh (World.boot ulongBits uci lanIp ex).daemon := by
  refine ⟨?_,?_,?_⟩
  · rw [boot_out]
    exact due_snoc.mpr ⟨due_nil _,trivial⟩
  · rw [boot_out]
    exact nofun
  · rw [World.boot_timers]
    exact fun armed => absurd rfl armed

-- Every datagram repeats the latest notice.
theorem reached_datagram_due {guard : World → Event → Prop} (path : Reached guard (World.boot ulongBits uci lanIp ex) w) :
    Due datagramDue w.daemon.out := by
  have fresh := path.invariant (I := fun w => Fresh w.daemon) (boot_fresh ulongBits uci lanIp ex)
    fun _ _ _ held _ taken => step_fresh held taken
  exact fresh.due

theorem reached_datagram_due_sent : ∃ w, Reached free booted w ∧
    (w.daemon.out.getLast?.map fun last => last matches .udp _) = some true ∧ Due datagramDue w.daemon.out := by
  have ran : ((Transition.run step booted renewedStart).map fun w =>
      w.daemon.out.getLast?.map fun last => last matches .udp _) = some (some true) := by decide
  obtain ⟨w,ran,sent⟩ := Option.map_eq_some_iff.mp ran
  exact ⟨w,run_reached ran,sent,reached_datagram_due (run_reached ran)⟩

end ImAcc
