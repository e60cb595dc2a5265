import ImAcc.AlarmQueue

-- Who is left to finish a request: in a transient state no START_ACC and no query is
-- taken, so only a poller can still leave it.
namespace ImAcc
open JsonC

def Attended (w : World) : Prop := w.daemon.accState.transient = true → w.pollers ≠ []

-- The answer that ends a request has a code its command settles, and the poller that
-- a delayed one needs can be created.
def Settled (settled : List Int) (state : AccOpenState) (thread : Option MsgHeader) (replies : List Exchange) : Prop :=
  ∀ last ∈ answering replies, accepts state last.body = true →
    replyCode last.body ∈ settled ∧ (replyCode last.body = msgCodeMsgdelay → thread.isSome = true)

def Finishes (w : World) : Event → Prop
  | .isaccInit thread _ replies =>
    w.pollers ≠ [] ∨ (w.daemon.accState = .closed → Settled settledInit .querying thread replies)
  | .message pMsg thread _ replies =>
    w.pollers ≠ [] ∨ ∀ state ∈ asks w.daemon pMsg, Settled (settledIn state) state thread replies
  | .alarmInit | .poll .. | .resume .. | .alarm .. | .clock .. => True

instance (settled : List Int) (state : AccOpenState) (thread : Option MsgHeader) (replies : List Exchange) :
    Decidable (Settled settled state thread replies) :=
  inferInstanceAs (Decidable (∀ last ∈ answering replies, accepts state last.body = true →
    replyCode last.body ∈ settled ∧ (replyCode last.body = msgCodeMsgdelay → thread.isSome = true)))

instance (w : World) : (event : Event) → Decidable (Finishes w event)
  | .isaccInit thread _ replies =>
    inferInstanceAs (Decidable
      (w.pollers ≠ [] ∨ (w.daemon.accState = .closed → Settled settledInit .querying thread replies)))
  | .message pMsg thread _ replies =>
    inferInstanceAs (Decidable
      (w.pollers ≠ [] ∨ ∀ state ∈ asks w.daemon pMsg, Settled (settledIn state) state thread replies))
  | .alarmInit | .poll .. | .resume .. | .alarm .. | .clock .. => isTrue trivial

theorem World.boot_closed (ulongBits : Nat) (uci : UciIsacc) (lanIp : Bytes) (ex : Exchange) :
    (World.boot ulongBits uci lanIp ex).daemon.accState = .closed := rfl

theorem boot_attended (ulongBits : Nat) (uci : UciIsacc) (lanIp : Bytes) (ex : Exchange) :
    Attended (World.boot ulongBits uci lanIp ex) := by
  intro waiting
  rw [World.boot_closed] at waiting
  cases waiting

theorem spawn_attended (created : spawned = thread.isSome) (present : thread.isSome = true) :
    pollers ++ spawn spawned thread request ≠ [] := by
  obtain ⟨header,rfl⟩ := Option.isSome_iff_exists.mp present
  simp [created,spawn]

theorem Asked.attended (asked : Asked settled thread.isSome state d replies d' spawned)
    (meets : Settled settled state thread replies) (waiting : d'.accState.transient = true) :
    spawned = thread.isSome ∧ thread.isSome = true := by
  obtain ⟨begun,last,answer,same,outcome⟩ := asked
  have entered : begun.accState = state := same.accState
  cases outcome with
  | closed keep => rw [keep.accState] at waiting; cases waiting
  | opened _ keep => rw [keep.accState] at waiting; cases waiting
  | delayed accepted code =>
    rw [entered] at accepted
    exact ⟨rfl,(meets last answer accepted).2 code⟩
  | left accepted code =>
    rw [entered] at accepted
    exact absurd (meets last answer accepted).1 code

theorem requested_attended (kept : pollers ≠ [] ∨ (d'.accState.transient = true →
    spawned = thread.isSome ∧ thread.isSome = true)) :
    Attended ⟨d',pollers ++ spawn spawned thread request,request'⟩ := by
  intro waiting
  rcases kept with running | made
  · exact List.append_ne_nil_of_left_ne_nil running _
  · obtain ⟨created,present⟩ := made waiting
    exact spawn_attended created present

theorem isaccInit_attended (attended : Attended w) (meets : Finishes w (.isaccInit thread header replies))
    (taken : step w (.isaccInit thread header replies) = some next) : Attended next := by
  obtain ⟨q,ran,exact,rfl⟩ := step_isaccInit taken
  by_cases idle : w.daemon.accState = .closed
  · apply requested_attended
    rcases meets with running | settles
    · exact .inl running
    · exact .inr ((imAutoQueryIsacc_asked ran exact idle).attended (settles idle))
  · rw [imAutoQueryIsacc_idle idle] at ran
    cases ran
    intro waiting
    exact List.append_ne_nil_of_left_ne_nil (attended waiting) _

theorem message_attended (attended : Attended w) (meets : Finishes w (.message pMsg thread header replies))
    (taken : step w (.message pMsg thread header replies) = some next) : Attended next := by
  obtain ⟨⟨after,errcode,data,spawned,rest⟩,ran,exact,rfl⟩ := step_message taken
  have handled := imHandleMsg_handles ran exact
  cases request : asks w.daemon pMsg with
  | none =>
    rw [request] at handled
    intro waiting
    cases handled with
    | quiet keep =>
      rw [keep.accState] at waiting
      exact List.append_ne_nil_of_left_ne_nil (attended waiting) _
    | stopped _ taken =>
      obtain ⟨_,_,_,_,_,stopped⟩ := taken
      rw [stopped.accState] at waiting
      cases waiting
  | some state =>
    rw [request] at handled
    cases handled with
    | asked asked =>
      apply requested_attended
      rcases meets with running | settles
      · exact .inl running
      · exact .inr (asked.attended (settles state request))

theorem poll_attended (taken : step w (.poll i replies) = some next) : Attended next := by
  obtain ⟨p,⟨after,kept,rest⟩,found,idle,ran,rfl⟩ := step_poll taken
  have rolled := imRollqueryThread_rolls ran idle
  intro waiting
  cases kept with
  | some q =>
    have place := (List.getElem?_eq_some_iff.mp found).1
    simp only [Option.elim]
    intro none
    rw [← List.length_eq_zero_iff,List.length_set] at none
    omega
  | none =>
    cases rolled with
    | closed keep => rw [keep.accState] at waiting; cases waiting
    | ended _ final => rw [final] at waiting; cases waiting

theorem step_attended (attended : Attended w) (meets : Finishes w event) (taken : step w event = some next) :
    Attended next := by
  cases event with
  | isaccInit thread header replies => exact isaccInit_attended attended meets taken
  | message pMsg thread header replies => exact message_attended attended meets taken
  | poll i replies => exact poll_attended taken
  | resume i =>
    obtain ⟨p,_,_,rfl⟩ := step_resume taken
    intro waiting
    cases waiting
  | alarm i ifaList replies =>
    obtain ⟨result,ran,rfl⟩ := step_alarm taken
    intro waiting
    rw [(runAlarm_fewer ran).accState] at waiting
    exact attended waiting
  | alarmInit | clock => cases taken; exact attended

theorem reached_attended (path : Reached Finishes (World.boot ulongBits uci lanIp ex) w) : Attended w :=
  path.invariant (boot_attended _ _ _ _) fun _ _ _ attended meets taken => step_attended attended meets taken

def delayedStart : List Event := started ++ [told .startAcc [taskReply .startAcc]]

theorem reached_attended_delayed : ∃ w, w.daemon.accState = .opening ∧ w.pollers.length = 1 ∧ Attended w := by
  have ran : ((Transition.run step booted delayedStart).map fun w => (w.daemon.accState,w.pollers.length)) =
    some (.opening,1) := by decide
  obtain ⟨w,ran,seen⟩ := Option.map_eq_some_iff.mp ran
  have path : Reached Finishes booted w := Transition.met_reached ran (by decide)
  exact ⟨w,congrArg Prod.fst seen,congrArg Prod.snd seen,reached_attended path⟩

-- The same START_ACC answered with a code the switch has no branch for.
def refusedStart : List Event := started ++ [told .startAcc [delivered .startAcc 8 []]]

theorem reached_unattended :
    ¬ ∀ ulongBits uci lanIp ex w, Reached Transition.free (World.boot ulongBits uci lanIp ex) w → Attended w := by
  intro always
  have ran : ((Transition.run step booted refusedStart).map fun w => (w.daemon.accState,w.pollers.length)) =
    some (.opening,0) := by decide
  obtain ⟨w,ran,seen⟩ := Option.map_eq_some_iff.mp ran
  obtain ⟨state,alone⟩ := Prod.mk.inj seen
  have waiting : w.daemon.accState.transient = true := by rw [state]; rfl
  exact always _ _ _ _ w (Transition.run_reached ran) waiting (List.length_eq_zero_iff.mp alone)

end ImAcc
