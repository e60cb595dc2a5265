import ImAcc.Retries

-- The reply to a terminal: when one is sent, what it says, and the code it carries.
namespace ImAcc
open JsonC Rounds

def memberAt (key : Bytes) : Json → Option Json
  | .object members => members.lookup key
  | _ => none

theorem lookup_others (key : Bytes) (members : List (Bytes × Json)) (other : k ≠ key) :
    (members.filter (·.1 ≠ key)).lookup k = members.lookup k := by
  induction members with
  | nil => rfl
  | cons member rest ih =>
    obtain ⟨name,value⟩ := member
    by_cases here : name = key
    · have apart : (k == name) = false := beq_eq_false_iff_ne.mpr (here ▸ other)
      rw [List.filter_cons_of_neg (by simpa using here),ih,List.lookup_cons,apart]
    · rw [List.filter_cons_of_pos (by simpa using here),List.lookup_cons,List.lookup_cons,ih]

theorem memberAt_objectAdd (members : List (Bytes × Json)) (key : Bytes) (value : Json) (k : Bytes) :
    memberAt k (Json.objectAdd (.object members) key value) = if k = key then some value else memberAt k (.object members) :=
  Json.lookup_membersAdd ..

-- The request with its code replaced and, where there is a result, its data.
structure Edited (request : Json) (errcode : Int) (data : Option Json) (msg : Json) : Prop where
  others : ∀ key, key ≠ jasonKey .header → (data.isSome = true → key ≠ jasonKey .data) →
    memberAt key msg = memberAt key request
  data : ∀ result ∈ data, memberAt (jasonKey .data) msg = some result
  header : ∃ old new, memberAt (jasonKey .header) request = some old ∧ memberAt (jasonKey .header) msg = some new ∧
    memberAt (jasonKey .code) new = some (.int errcode) ∧
    ∀ key, key ≠ jasonKey .code → memberAt key new = memberAt key old

def CodeGiven (request : Json) : Prop := (supplied (request.objectGet (jasonKey .header)) .code).isSome = true

theorem HeaderComplete.code (complete : HeaderComplete request) : CodeGiven request := by
  obtain ⟨jsonHeader,found,all⟩ := complete
  unfold CodeGiven
  rw [found]
  exact all .code (by decide)

theorem objectGet_object {v u : Json} (found : v.objectGet key = some u) :
    ∃ members, v = .object members ∧ memberAt key v = some u := by
  cases v with
  | object members =>
    refine ⟨members,rfl,?_⟩
    obtain ⟨value,here,live⟩ := Option.bind_eq_some_iff.mp found
    cases value <;> cases live <;> exact here
  | _ => cases found

theorem imJsonMakeHeader_edits (given : CodeGiven request) (errcode : Int) :
    ∃ members, imJsonMakeHeader request errcode = (.object members,msgCodeSucess) ∧
      Edited request errcode none (.object members) := by
  obtain ⟨old,found⟩ := Option.isSome_iff_exists.mp given
  obtain ⟨jsonHeader,header,code⟩ := Option.bind_eq_some_iff.mp found
  obtain ⟨members,rfl,member⟩ := objectGet_object header
  obtain ⟨inner,rfl,_⟩ := objectGet_object code
  refine ⟨Json.membersAdd (jasonKey .header) (.object (Json.membersAdd (jasonKey .code) (.int errcode) inner)) members,?_,?_,nofun,?_⟩
  · simp only [imJsonMakeHeader,header,imJsonObjectSetInt,code]
    rfl
  · intro key other _
    exact (memberAt_objectAdd members _ _ key).trans (if_neg other)
  · refine ⟨.object inner,_,member,(memberAt_objectAdd members _ _ _).trans (if_pos rfl),?_,?_⟩
    · exact (memberAt_objectAdd inner _ _ _).trans (if_pos rfl)
    · intro key other
      exact (memberAt_objectAdd inner _ _ key).trans (if_neg other)

theorem imJsonMakeHeader_fails (bare : ¬CodeGiven request) (errcode : Int) :
    (imJsonMakeHeader request errcode).2 ≠ msgCodeSucess := by
  unfold CodeGiven supplied at bare
  unfold imJsonMakeHeader
  cases header : request.objectGet (jasonKey .header) with
  | none =>
    dsimp only
    decide
  | some jsonHeader =>
    rw [header] at bare
    cases code : jsonHeader.objectGet (jasonKey .code) with
    | none =>
      simp only [imJsonObjectSetInt,code]
      decide
    | some old => exact absurd (by rw [Option.bind_some,code]; rfl) bare

theorem imJsonMakeData_edits (edited : Edited request errcode none (.object members)) (result : Json) :
    Edited request errcode (some result) (imJsonMakeData (.object members) result) := by
  obtain ⟨others,_,old,new,before,after,code,rest⟩ := edited
  have added (key : Bytes) := memberAt_objectAdd (members.filter (·.1 ≠ jasonKey .data)) (jasonKey .data) result key
  refine ⟨?_,?_,old,new,before,?_,code,rest⟩
  · intro key header data
    refine (added key).trans ((if_neg (data rfl)).trans ?_)
    exact (lookup_others _ members (data rfl)).trans (others key header nofun)
  · intro given same
    cases same
    exact (added _).trans (if_pos rfl)
  · refine (added _).trans ((if_neg (by decide)).trans ?_)
    exact (lookup_others _ members (by decide)).trans after

theorem imJsonMakeResponeSend_edits (given : CodeGiven request) (errcode : Int) (data : Option Json) :
    ∃ msg, imJsonMakeResponeSend (some request) errcode data = some msg ∧ Edited request errcode data msg := by
  obtain ⟨members,made,edited⟩ := imJsonMakeHeader_edits given errcode
  cases data with
  | none => exact ⟨.object members,by simp [imJsonMakeResponeSend,made],edited⟩
  | some result => exact ⟨_,by simp [imJsonMakeResponeSend,made],imJsonMakeData_edits edited result⟩

theorem imJsonMakeResponeSend_fails (bare : ¬CodeGiven request) (errcode : Int) (data : Option Json) :
    imJsonMakeResponeSend (some request) errcode data = none :=
  if_pos (imJsonMakeHeader_fails bare errcode)

theorem Daemon.reply_answers (d : Daemon) (pMsg : Option Json) (errcode : Int) (data : Option Json) :
    (d.reply pMsg errcode data).answers = d.answers ++ (imJsonMakeResponeSend pMsg errcode data).toList := by
  unfold Daemon.reply
  cases imJsonMakeResponeSend pMsg errcode data with
  | none => exact (List.append_nil _).symm
  | some msg => exact d.answers_send (.reply msg)

-- Each query finds its session expired, and each login after it succeeds.
def Stuck (d : Daemon) (replies : Nat → Exchange) : Prop :=
  ∃ delays state, queries d = some (delays,state) ∧ Endless (stale state) logsIn replies

theorem terminalSwitch_stops (created : Bool) (header : MsgHeader) (d : Daemon) (replies : Nat → Exchange) :
    (∃ n h, terminalSwitch created header d (upTo replies n) = some h) ↔ ¬Stuck d replies := by
  unfold Stuck
  cases asks : queries d with
  | none =>
    obtain ⟨h,ran⟩ := terminalSwitch_alone asks created header (replies 0) []
    exact ⟨fun _ => nofun,fun _ => ⟨1,h,ran⟩⟩
  | some kind =>
    obtain ⟨delays,state⟩ := kind
    obtain ⟨run,Ready,begun,same,ready,cycles⟩ := terminalSwitch_cycles asks created header
    rw [same,cycles.stops_exact ready]
    constructor
    · rintro broken ⟨_,_,same,endless⟩
      cases same
      exact broken endless
    · intro free endless
      exact free ⟨delays,state,rfl,endless⟩

theorem terminalSwitch_answers (ran : terminalSwitch created header d replies = some h) : h.daemon.answers = d.answers := by
  cases asks : queries d with
  | none => exact (terminalSwitch_own asks ran).1
  | some kind =>
    obtain ⟨delays,state⟩ := kind
    obtain ⟨run,Ready,begun,same,ready,cycles⟩ := terminalSwitch_cycles asks created header
    rw [same] at ran
    obtain ⟨_,_,_,⟨_,ended⟩ | ⟨_,failed⟩⟩ := cycles.ended ready ran
    · exact ended.2
    · exact failed.2

theorem imHandleCmdTerminal_replies (given : CodeGiven pMsg) (ran : terminalSwitch created header d replies = some h) :
    ∃ h' msg, imHandleCmdTerminal created header d (some pMsg) replies = some h' ∧
      h'.errcode = h.errcode ∧ h'.data = h.data ∧
      h'.daemon.answers = d.answers ++ [msg] ∧ Edited pMsg h.errcode (some h.data.json) msg := by
  obtain ⟨msg,made,edited⟩ := imJsonMakeResponeSend_edits given h.errcode (some h.data.json)
  refine ⟨{h with daemon := h.daemon.reply (some pMsg) h.errcode (some h.data.json)},msg,?_,rfl,rfl,?_,edited⟩
  · unfold imHandleCmdTerminal
    rw [ran]
    rfl
  · dsimp only
    rw [Daemon.reply_answers,made,terminalSwitch_answers ran]
    rfl

-- A command of an accepted message is answered, once, unless it queries for ever.
theorem terminal_answered (complete : HeaderComplete pMsg) (created : Bool) (header : MsgHeader) (d : Daemon)
    (replies : Nat → Exchange) :
    (∃ n h msg, imHandleCmdTerminal created header d (some pMsg) (upTo replies n) = some h ∧
      h.daemon.answers = d.answers ++ [msg]) ↔ ¬Stuck d replies := by
  rw [← terminalSwitch_stops created header]
  constructor
  · rintro ⟨n,h,msg,handled,_⟩
    obtain ⟨h',ran,_⟩ := Option.map_eq_some_iff.mp handled
    exact ⟨n,h',ran⟩
  · rintro ⟨n,h,ran⟩
    obtain ⟨h',msg,handled,_,_,sent,_⟩ := imHandleCmdTerminal_replies complete.code ran
    exact ⟨n,h',msg,handled,sent⟩

def expiring (cmd : CloudMsgCmd) (i : Nat) : Exchange :=
  if i % 2 = 0 then delivered cmd msgCodeInvalidses [] else loginReply

theorem terminal_answered_lost :
    ∃ n h msg, imHandleCmdTerminal true default (received booted.daemon (some (termMsg .getflow))).1
    (some (termMsg .getflow)) (upTo (fun _ => lost) n) = some h ∧
      h.daemon.answers = (received booted.daemon (some (termMsg .getflow))).1.answers ++ [msg] := by
  apply (terminal_answered ((imJsonParseHeader_sucess _ default).mp (by decide)) _ _ _ _).mpr
  rintro ⟨delays,state,_,endless⟩
  have accepted := (stale_exact.mp (endless 0).1).1
  cases accepted

theorem expiring_endless (asked : stale state (delivered cmd msgCodeInvalidses []) = true) :
    Endless (stale state) logsIn (expiring cmd) := by
  intro i
  have query : expiring cmd (2*i) = delivered cmd msgCodeInvalidses [] := if_pos (by omega)
  have login : expiring cmd (2*i+1) = loginReply := if_neg (by omega)
  rw [query,login]
  exact ⟨asked,by decide⟩

theorem imHandleMsg_accepted (accepted : (received d pMsg).2 = msgCodeSucess) :
    imHandleMsg created header d pMsg replies = imHandleCmdTerminal created header (received d pMsg).1 pMsg replies :=
  if_pos accepted

-- The daemon that has just started handles GETFLOW and never gets back to its loop.
theorem terminal_unanswered : ∃ w, Transition.run step booted started = some w ∧
    (received w.daemon (some (termMsg .getflow))).2 = msgCodeSucess ∧
    ∀ n, imHandleMsg true default w.daemon (some (termMsg .getflow)) (upTo (expiring .getflow) n) = none := by
  obtain ⟨w,ran,accepted,asks⟩ : ∃ w, Transition.run step booted started = some w ∧
      (received w.daemon (some (termMsg .getflow))).2 = msgCodeSucess ∧
      queries (received w.daemon (some (termMsg .getflow))).1 = some (false,.closed) := ⟨_,rfl,by decide,by decide⟩
  have stuck : Stuck (received w.daemon (some (termMsg .getflow))).1 (expiring .getflow) :=
    ⟨false,.closed,asks,expiring_endless (by decide)⟩
  refine ⟨w,ran,accepted,?_⟩
  intro n
  rw [imHandleMsg_accepted accepted]
  unfold imHandleCmdTerminal
  rw [Option.map_eq_none_iff]
  apply Option.eq_none_iff_forall_ne_some.mpr
  intro h handled
  exact (terminalSwitch_stops true default _ _).mp ⟨n,h,handled⟩ stuck

-- One message: the request edited, with the code the handling ends with.
def Answered (created : Bool) (header : MsgHeader) (d : Daemon) (pMsg : Json) (replies : Nat → Exchange) : Prop :=
  ∃ n h msg, imHandleMsg created header d (some pMsg) (upTo replies n) = some h ∧ h.daemon.answers = d.answers ++ [msg] ∧
    Edited pMsg h.errcode (if (received d (some pMsg)).2 = msgCodeSucess then some h.data.json else none) msg

theorem received_sucess (d : Daemon) (pMsg : Json) : (received d (some pMsg)).2 = msgCodeSucess ↔ TerminalMessage pMsg :=
  imJsonParseTerminal_sucess d.records pMsg

theorem imHandleMsg_refused (refused : (received d (some pMsg)).2 ≠ msgCodeSucess) :
    imHandleMsg created header d (some pMsg) replies =
      some ⟨(received d (some pMsg)).1.reply (some pMsg) (received d (some pMsg)).2 none,(received d (some pMsg)).2,
        .empty,false,replies⟩ :=
  if_neg refused

theorem answered_accepted (accepted : (received d (some pMsg)).2 = msgCodeSucess) (created : Bool) (header : MsgHeader)
    (replies : Nat → Exchange) : Answered created header d pMsg replies ↔ ¬Stuck (received d (some pMsg)).1 replies := by
  unfold Answered
  rw [← terminalSwitch_stops created header]
  simp only [imHandleMsg_accepted accepted,if_pos accepted]
  constructor
  · rintro ⟨n,h,_,handled,_⟩
    obtain ⟨h',ran,_⟩ := Option.map_eq_some_iff.mp handled
    exact ⟨n,h',ran⟩
  · rintro ⟨n,h,ran⟩
    have given := ((received_sucess d pMsg).mp accepted).header.code
    obtain ⟨h',msg,handled,code,data,sent,edited⟩ := imHandleCmdTerminal_replies given ran
    rw [← code,← data] at edited
    exact ⟨n,h',msg,handled,sent,edited⟩

theorem answered_refused (refused : (received d (some pMsg)).2 ≠ msgCodeSucess) (created : Bool) (header : MsgHeader)
    (replies : Nat → Exchange) : Answered created header d pMsg replies ↔ CodeGiven pMsg := by
  unfold Answered
  simp only [imHandleMsg_refused refused,if_neg refused,Option.some.injEq]
  have sent := (received d (some pMsg)).1.reply_answers (some pMsg) (received d (some pMsg)).2 none
  constructor
  · rintro ⟨n,h,msg,rfl,one,_⟩
    by_contra bare
    rw [imJsonMakeResponeSend_fails bare] at sent
    have unsent : d.answers = d.answers ++ [msg] := by
      rw [← one]
      exact (sent.trans (List.append_nil _)).symm
    simp at unsent
  · intro given
    obtain ⟨msg,made,edited⟩ := imJsonMakeResponeSend_edits given (received d (some pMsg)).2 none
    refine ⟨0,_,msg,rfl,?_,edited⟩
    rw [made] at sent
    exact sent

-- Exactly the messages whose header has a code are answered, but for the commands that
-- query for ever.
theorem message_answered (created : Bool) (header : MsgHeader) (d : Daemon) (pMsg : Json) (replies : Nat → Exchange) :
    Answered created header d pMsg replies ↔
      CodeGiven pMsg ∧ (TerminalMessage pMsg → ¬Stuck (received d (some pMsg)).1 replies) := by
  by_cases accepted : (received d (some pMsg)).2 = msgCodeSucess
  · have message := (received_sucess d pMsg).mp accepted
    rw [answered_accepted accepted]
    exact ⟨fun free => ⟨message.header.code,fun _ => free⟩,fun both => both.2 message⟩
  · have refused := mt (received_sucess d pMsg).mpr accepted
    rw [answered_refused accepted]
    exact ⟨fun given => ⟨given,fun message => absurd message refused⟩,fun both => both.1⟩

-- A KEEPACC without a code is dropped.
def codeless : Json := .object [(jasonKey .header,.object [(jasonKey .cmd,.int TermMsgCmd.keepacc.code)])]

theorem message_unanswered : ∃ w, Transition.run step booted started = some w ∧
    ∀ replies, ¬Answered true default w.daemon codeless replies := by
  obtain ⟨w,ran,refused⟩ : ∃ w, Transition.run step booted started = some w ∧
      (received w.daemon (some codeless)).2 ≠ msgCodeSucess := ⟨_,rfl,by decide⟩
  refine ⟨w,ran,fun replies answered => ?_⟩
  have given := (answered_refused refused true default replies).mp answered
  exact absurd given (by unfold CodeGiven; decide)

end ImAcc
