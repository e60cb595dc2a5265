import ImAcc.Attended

-- Which request a poller works for: STOP_ACC leaves the poller of its request running.
namespace ImAcc
open JsonC

def stopTaken (d : Daemon) (pMsg : Option Json) (replies : List Exchange) : Bool :=
  stops d pMsg && replies.head?.any (accepts d.accState ·.body)

def Unstopped (w : World) : Event → Prop
  | .message pMsg _ _ replies => stopTaken w.daemon pMsg replies = true → w.pollers = []
  | .isaccInit .. | .alarmInit | .poll .. | .resume .. | .alarm .. | .clock .. => True

def Undisturbed (w : World) : Event → Prop
  | .message pMsg _ _ _ => stops w.daemon pMsg = true → w.pollers = []
  | .isaccInit .. | .alarmInit | .poll .. | .resume .. | .alarm .. | .clock .. => True

instance (w : World) : (event : Event) → Decidable (Unstopped w event)
  | .message pMsg _ _ replies =>
    inferInstanceAs (Decidable (stopTaken w.daemon pMsg replies = true → w.pollers = []))
  | .isaccInit .. | .alarmInit | .poll .. | .resume .. | .alarm .. | .clock .. => isTrue trivial

instance (w : World) : (event : Event) → Decidable (Undisturbed w event)
  | .message pMsg _ _ _ => inferInstanceAs (Decidable (stops w.daemon pMsg = true → w.pollers = []))
  | .isaccInit .. | .alarmInit | .poll .. | .resume .. | .alarm .. | .clock .. => isTrue trivial

theorem Undisturbed.unstopped (w : World) (event : Event) (met : Undisturbed w event) : Unstopped w event := by
  cases event with
  | message pMsg thread header replies => exact fun taken => met (Bool.and_eq_true_iff.mp taken).1
  | _ => trivial

theorem stopTaken_exact (command : stops d pMsg = true) (taken : StopTaken d replies d') :
    stopTaken d pMsg replies = true := by
  obtain ⟨ex,_,head,accepted,_⟩ := taken
  simp [stopTaken,command,head,accepted]

def Alone (w : World) : Prop :=
  w.pollers = [] ∨ ∃ p, w.pollers = [p] ∧ w.daemon.accState.transient = true

theorem Alone.idle (alone : Alone w) (final : w.daemon.accState.transient = false) : w.pollers = [] := by
  rcases alone with none | ⟨p,_,waiting⟩
  · exact none
  · rw [final] at waiting; cases waiting

theorem Alone.only (alone : Alone w) (found : w.pollers[i]? = some p) :
    i = 0 ∧ w.pollers = [p] ∧ w.daemon.accState.transient = true := by
  rcases alone with none | ⟨q,one,waiting⟩
  · simp [none] at found
  · rw [one] at found
    obtain ⟨place,same⟩ := List.getElem?_eq_some_iff.mp found
    have first : i = 0 := by simp only [List.length_singleton] at place; omega
    subst first
    cases same
    exact ⟨rfl,one,waiting⟩

theorem Alone.keep (alone : Alone w) (same : d.accState = w.daemon.accState) : Alone {w with daemon := d} := by
  rcases alone with none | ⟨p,one,waiting⟩
  · exact .inl none
  · exact .inr ⟨p,one,by rw [same]; exact waiting⟩

theorem spawn_cases (spawned : Bool) (thread : Option MsgHeader) (request : Nat) :
    spawn spawned thread request = [] ∨
      ∃ header, spawned = true ∧ spawn spawned thread request = [⟨header,0,false,request⟩] := by
  cases spawned with
  | false => exact .inl rfl
  | true =>
    cases thread with
    | none => exact .inl rfl
    | some header => exact .inr ⟨header,rfl,rfl⟩

theorem Asked.spawned (asked : Asked settled created state d replies d' true) : d'.accState = state := by
  obtain ⟨begun,last,_,same,outcome⟩ := asked
  cases outcome with
  | delayed _ _ keep => exact keep.accState.trans same.accState

theorem asked_alone (asked : Asked settled created state d replies d' spawned)
    (waits : state.transient = true) : Alone ⟨d',spawn spawned thread request,request⟩ := by
  rcases spawn_cases spawned thread request with none | ⟨header,rfl,one⟩
  · exact .inl none
  · exact .inr ⟨_,one,by rw [asked.spawned]; exact waits⟩

theorem enters_idle (entry : enters d = some state) : d.accState = .closed ∧ state.transient = true := by
  unfold enters at entry
  cases command : TermMsgCmd.ofCode d.records.cmdHeader.imCmd with
  | none => simp [command] at entry
  | some kind =>
    simp only [command] at entry
    cases kind with
    | startAcc | accStateInfo =>
      dsimp only at entry
      split at entry
      · cases entry; simp_all [AccOpenState.transient]
      · cases entry
    | _ => cases entry

theorem asks_idle (request : asks d pMsg = some state) : d.accState = .closed ∧ state.transient = true := by
  unfold asks at request
  split at request
  · obtain ⟨idle,waits⟩ := enters_idle request
    exact ⟨(received_quiet d pMsg).accState.symm.trans idle,waits⟩
  · cases request

theorem message_alone (alone : Alone w) (met : Unstopped w (.message pMsg thread header replies))
    (taken : step w (.message pMsg thread header replies) = some next) : Alone next := by
  obtain ⟨⟨after,errcode,data,spawned,rest⟩,ran,exact,rfl⟩ := step_message taken
  have handled := imHandleMsg_handles ran exact
  cases request : asks w.daemon pMsg with
  | none =>
    rw [request] at handled
    cases handled with
    | quiet keep =>
      rcases alone with none | ⟨p,one,waiting⟩
      · exact .inl (by simp [none,spawn])
      · exact .inr ⟨p,by simp [one,spawn],by rw [keep.accState]; exact waiting⟩
    | stopped command done => exact .inl (by simp [met (stopTaken_exact command done),spawn])
  | some state =>
    rw [request] at handled
    obtain ⟨idle,waits⟩ := asks_idle request
    have none := alone.idle (by rw [idle]; rfl)
    cases handled with
    | asked asked =>
      rw [none,List.nil_append]
      exact asked_alone asked waits

theorem isaccInit_alone (alone : Alone w) (taken : step w (.isaccInit thread header replies) = some next) :
    Alone next := by
  obtain ⟨q,ran,exact,rfl⟩ := step_isaccInit taken
  by_cases idle : w.daemon.accState = .closed
  · rw [alone.idle (by rw [idle]; rfl),List.nil_append]
    exact asked_alone (imAutoQueryIsacc_asked ran exact idle) rfl
  · rw [imAutoQueryIsacc_idle idle] at ran
    cases ran
    rcases alone with none | ⟨p,one,waiting⟩
    · exact .inl (by simp [none,spawn])
    · exact .inr ⟨p,by simp [one,spawn],waiting⟩

theorem poll_alone (alone : Alone w) (taken : step w (.poll i replies) = some next) : Alone next := by
  obtain ⟨p,⟨after,kept,rest⟩,found,idle,ran,rfl⟩ := step_poll taken
  obtain ⟨rfl,one,waiting⟩ := alone.only found
  have rolled := imRollqueryThread_rolls ran idle
  cases kept with
  | none => exact .inl (by simp [one])
  | some q =>
    refine .inr ⟨q,by simp [one],?_⟩
    cases rolled with
    | registering _ state made => rw [made,rollOpening_accState,state]; rfl
    | again keep => rw [keep.accState]; exact waiting

theorem step_alone (alone : Alone w) (met : Unstopped w event) (taken : step w event = some next) :
    Alone next := by
  cases event with
  | isaccInit thread header replies => exact isaccInit_alone alone taken
  | message pMsg thread header replies => exact message_alone alone met taken
  | poll i replies => exact poll_alone alone taken
  | resume i =>
    obtain ⟨p,found,_,rfl⟩ := step_resume taken
    obtain ⟨rfl,one,_⟩ := alone.only found
    exact .inl (by simp [one])
  | alarm i ifaList replies =>
    obtain ⟨result,ran,rfl⟩ := step_alarm taken
    exact alone.keep (runAlarm_fewer ran).accState
  | alarmInit | clock => cases taken; exact alone

def Current (w : World) : Prop := ∀ p ∈ w.pollers, p.request = w.request

theorem requestAfter_kept (request : asks w.daemon pMsg = none) (running : stops w.daemon pMsg = false) :
    requestAfter w pMsg = w.request := by
  have ignored : ¬((received w.daemon pMsg).2 = msgCodeSucess ∧ supersedes (received w.daemon pMsg).1 = true) := by
    rintro ⟨valid,replaced⟩
    rw [asks,if_pos valid] at request
    rw [stops,decide_eq_true valid,Bool.true_and] at running
    unfold supersedes at replaced
    unfold enters at request
    cases command : TermMsgCmd.ofCode (received w.daemon pMsg).1.records.cmdHeader.imCmd with
    | none => simp [command] at replaced
    | some kind => cases kind <;> simp_all
  exact if_neg ignored

theorem spawn_request (member : p ∈ spawn spawned thread request) : p.request = request := by
  rcases spawn_cases spawned thread request with none | ⟨header,_,one⟩
  · rw [none] at member; cases member
  · rw [one,List.mem_singleton] at member
    rw [member]

theorem message_current (alone : Alone w) (current : Current w)
    (met : Undisturbed w (.message pMsg thread header replies))
    (taken : step w (.message pMsg thread header replies) = some next) : Current next := by
  obtain ⟨h,ran,exact,rfl⟩ := step_message taken
  intro p member
  rcases List.mem_append.mp member with old | new
  · have running : stops w.daemon pMsg = false := by
      by_contra stopped
      rw [met (by simpa using stopped)] at old
      cases old
    cases request : asks w.daemon pMsg with
    | none => rw [requestAfter_kept request running]; exact current p old
    | some state =>
      rw [alone.idle (by rw [(asks_idle request).1]; rfl)] at old
      cases old
  · exact spawn_request new

theorem isaccInit_current (alone : Alone w) (current : Current w)
    (taken : step w (.isaccInit thread header replies) = some next) : Current next := by
  obtain ⟨q,ran,exact,rfl⟩ := step_isaccInit taken
  intro p member
  rcases List.mem_append.mp member with old | new
  · by_cases idle : w.daemon.accState = .closed
    · rw [alone.idle (by rw [idle]; rfl)] at old
      cases old
    · rw [if_neg idle]
      exact current p old
  · exact spawn_request new

theorem poll_current (alone : Alone w) (current : Current w) (taken : step w (.poll i replies) = some next) :
    Current next := by
  obtain ⟨p,⟨after,kept,rest⟩,found,idle,ran,rfl⟩ := step_poll taken
  obtain ⟨rfl,one,_⟩ := alone.only found
  have owner := current p (by simp [one])
  have rolled := imRollqueryThread_rolls ran idle
  intro q member
  cases kept with
  | none => simp [one] at member
  | some r =>
    have same : q = r := by simpa [one] using member
    subst same
    cases rolled with
    | registering _ _ _ _ request => exact request.trans owner
    | again _ _ request => exact request.trans owner

theorem step_current (alone : Alone w) (current : Current w) (met : Undisturbed w event)
    (taken : step w event = some next) : Current next := by
  cases event with
  | isaccInit thread header replies => exact isaccInit_current alone current taken
  | message pMsg thread header replies => exact message_current alone current met taken
  | poll i replies => exact poll_current alone current taken
  | resume i =>
    obtain ⟨p,_,_,rfl⟩ := step_resume taken
    exact fun q member => current q (List.mem_of_mem_eraseIdx member)
  | alarm i ifaList replies =>
    obtain ⟨result,_,rfl⟩ := step_alarm taken
    exact current
  | alarmInit | clock => cases taken; exact current

theorem reached_current (path : Reached Undisturbed (World.boot ulongBits uci lanIp ex) w) : Alone w ∧ Current w :=
  path.invariant (I := fun u => Alone u ∧ Current u) ⟨.inl rfl,nofun⟩ fun u event _ held met taken =>
    ⟨step_alone held.1 (met.unstopped u event) taken,step_current held.1 held.2 met taken⟩

def pollerOf : Event → Option Nat
  | .poll i _ | .resume i => some i
  | .isaccInit .. | .alarmInit | .message .. | .alarm .. | .clock .. => none

def sessionAlarms (d : Daemon) : List SnmpAlarm :=
  d.timers.thealarms.filter (·.thecallback ≠ .imUdpbrocastTimerProc)

def Acts (before after : Daemon) : Prop :=
  after.accState ≠ before.accState ∨ sessionAlarms after ≠ sessionAlarms before

-- A poller that acts in its next step acts for the request in progress.
def ActsForCurrent (w : World) : Prop :=
  ∀ event i p next, pollerOf event = some i → w.pollers[i]? = some p → step w event = some next →
    Acts w.daemon next.daemon → p.request = w.request

theorem reached_actsForCurrent (path : Reached Undisturbed (World.boot ulongBits uci lanIp ex) w) :
    ActsForCurrent w := by
  intro event i p next poller found taken acts
  exact (reached_current path).2 p (List.mem_of_getElem? found)

-- A delayed START_ACC polled to its end: the poller acts, for its own request.
def polledStart : List Event := started ++ [told .startAcc [taskReply .startAcc]]

theorem reached_actsForCurrent_polled : ∃ w, w.pollers.length = 1 ∧ ActsForCurrent w := by
  have ran : ((Transition.run step booted polledStart).map fun w => w.pollers.length) = some 1 := by decide
  obtain ⟨w,ran,one⟩ := Option.map_eq_some_iff.mp ran
  exact ⟨w,one,reached_actsForCurrent (Transition.met_reached ran (by decide))⟩

def overtaken : List Event :=
  started ++ [told .startAcc [taskReply .startAcc],told .stopAcc [delivered .stopAcc msgCodeSucess []],
    told .startAcc [delivered .startAcc msgCodeSucess [[]]]] ++ List.replicate 9 (.poll 0 [lost])

theorem reached_actsForOther : ¬ ∀ ulongBits uci lanIp ex w,
    Reached Transition.free (World.boot ulongBits uci lanIp ex) w → ActsForCurrent w := by
  intro always
  have ran : ((Transition.run step booted overtaken).bind fun w => (step w (.poll 0 [lost])).bind fun next =>
    w.pollers[0]?.map fun p => (p.request,w.request,w.daemon.accState,next.daemon.accState)) =
      some (2,4,.opened,.closed) := by decide
  obtain ⟨w,ran,rest⟩ := Option.bind_eq_some_iff.mp ran
  obtain ⟨next,taken,rest⟩ := Option.bind_eq_some_iff.mp rest
  obtain ⟨p,found,seen⟩ := Option.map_eq_some_iff.mp rest
  obtain ⟨mine,now,before,after⟩ : p.request = 2 ∧ w.request = 4 ∧ w.daemon.accState = .opened ∧
    next.daemon.accState = .closed := by simpa using seen
  have owner := always _ _ _ _ w (Transition.run_reached ran) (.poll 0 [lost]) 0 p next rfl found taken
    (.inl (by rw [before,after]; decide))
  rw [mine,now] at owner
  cases owner

end ImAcc
