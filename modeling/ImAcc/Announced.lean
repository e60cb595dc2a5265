import ImAcc.Acts
import ImAcc.Subsystems

-- Whose name a success notification carries: stored by a message, read at an opening.
namespace ImAcc
open JsonC Transition Script

def deviceNamed (jsonMsg : Json) : Option Bytes :=
  (devObjOf jsonMsg).bind fun devObj => (supplied (some devObj) .devName).map Json.getString

-- The name a message leaves in s_im_speedup, whether or not its command is accepted.
def renames : Option Json → Option Bytes
  | none => none
  | some jsonMsg =>
    let header := imJsonParseHeader jsonMsg default
    if header.2 ≠ msgCodeSucess then none
    else match TermMsgCmd.ofCode header.1.imCmd with
      | some .startAcc | some .stopAcc => deviceNamed jsonMsg
      | _ => none

-- The START_ACC whose acceptance the state OPENING goes back to, by its device.
def openerAfter (w : World) (event : Event) (opener : Bytes) : Bytes :=
  match event with
  | .message pMsg _ _ _ => if asks w.daemon pMsg = some .opening then (renames pMsg).getD [] else opener
  | _ => opener

def openerStep (s : World × Bytes) (event : Event) : Option (World × Bytes) :=
  (step s.1 event).map fun next => (next,openerAfter s.1 event s.2)

def NamesOpener (opener : Bytes) (output : Output) : Prop :=
  ∀ text, output = .brocast .accSuccess text →
    ∃ imAccBandwidth, text = opener ++ brocastNotify .accSuccess ++ decimal imAccBandwidth ++ bytes "kbps"

def successTexts (outputs : List Output) : List Bytes :=
  outputs.filterMap fun output => match output with
    | .brocast .accSuccess text => some text
    | _ => none

-- While a session is being opened, a message that stores a name ends that, or stores
-- the name of the opener.
def SteadyName (s : World × Bytes) (event : Event) : Prop :=
  match event with
  | .message pMsg _ _ _ => s.1.daemon.accState = .opening →
    stopping s.1 event = true ∨ ∀ name ∈ renames pMsg, name = s.2
  | _ => True

theorem imJsonParseDataSpeedup_name (r : Records) (jsonMsg : Json) :
    (imJsonParseDataSpeedup r jsonMsg).1.speedup.imDevName = (deviceNamed jsonMsg).getD r.speedup.imDevName := by
  unfold imJsonParseDataSpeedup deviceNamed
  rw [withDevObj_devObjOf]
  cases devObjOf jsonMsg with
  | none => rfl
  | some devObj => exact imJsonGet_value ..

theorem imJsonParseDataSpeedup_sucess (parsed : (imJsonParseDataSpeedup r jsonMsg).2 = msgCodeSucess) :
    ∃ name, deviceNamed jsonMsg = some name := by
  unfold imJsonParseDataSpeedup at parsed
  rw [withDevObj_devObjOf] at parsed
  unfold deviceNamed
  cases found : devObjOf jsonMsg with
  | none => rw [found] at parsed; cases parsed
  | some devObj =>
    rw [found] at parsed
    have code : getCode (some devObj) .devName = 0 := (imJsonGet_code Json.getString ..).symm.trans parsed
    obtain ⟨item,given⟩ := Option.isSome_iff_exists.mp (getCode_sucess.mp code)
    exact ⟨item.getString,by rw [Option.bind_some,given]; rfl⟩

theorem imJsonParseDataTerminal_header (r : Records) (jsonMsg : Json) (cmd : Int) :
    (imJsonParseDataTerminal r jsonMsg cmd).1.cmdHeader = r.cmdHeader := by
  unfold imJsonParseDataTerminal
  cases TermMsgCmd.ofCode cmd with
  | none => rfl
  | some kind =>
    cases kind with
    | startAcc | stopAcc | getflow | keepacc => exact withDevObj_keeps Records.cmdHeader fun _ => rfl
    | iosinfo =>
      refine withDevObj_keeps Records.cmdHeader fun devObj => ?_
      dsimp only
      split
      · rfl
      · rfl
    | _ => rfl

theorem received_speedup (d : Daemon) (pMsg : Option Json) :
    (received d pMsg).1.records.speedup.imDevName = (renames pMsg).getD d.records.speedup.imDevName := by
  cases pMsg with
  | none => rfl
  | some jsonMsg =>
    have verdict := imJsonParseHeader_ret jsonMsg d.records.cmdHeader default
    unfold received imJsonParseTerminal renames
    dsimp only
    rw [verdict]
    split
    · rfl
    · rename_i accepted
      have complete := (imJsonParseHeader_sucess jsonMsg default).mp (not_not.mp accepted)
      rw [imJsonParseHeader_fields complete d.records.cmdHeader default]
      unfold imJsonParseDataTerminal
      cases TermMsgCmd.ofCode (imJsonParseHeader jsonMsg default).1.imCmd with
      | none => rfl
      | some kind =>
        cases kind with
        | startAcc | stopAcc => exact imJsonParseDataSpeedup_name ..
        | getflow | keepacc => exact withDevObj_keeps (·.speedup.imDevName) fun _ => rfl
        | iosinfo =>
          refine withDevObj_keeps (·.speedup.imDevName) fun devObj => ?_
          dsimp only
          split
          · rfl
          · rfl
        | _ => rfl

theorem inner_speedup (inner : Act.Inner opening act) (d : Daemon) :
    (act.apply d).records.speedup = d.records.speedup := by
  cases act with
  | parse pMsg => exact inner.elim
  | exchange op header ex =>
    exact CloudOp.run_keeps Records.speedup (fun _ _ => rfl) (fun h => (imJsonParseCloud_frame _ _ h).speedup) op header
  | udp => exact congrArg Records.speedup (sendUdp_records d)
  | _ => rfl

theorem inner_opening (inner : Act.Inner opening act) (d : Daemon) (waiting : (act.apply d).accState = .opening) :
    opening ∨ d.accState = .opening := by
  cases act with
  | parse pMsg => exact inner.elim
  | exchange op header ex =>
    have kept : (op.run d header ex).daemon.accState = d.accState := CloudOp.run_keeps (·.speedupinfoResp.imAccState)
      (fun _ _ => rfl) (fun h => (imJsonParseCloud_frame _ _ h).accState) op header
    exact .inr (kept.symm.trans waiting)
  | state next => exact .inl (inner waiting)
  | granted => cases waiting
  | finish => cases waiting
  | udp => exact .inr (by rwa [Act.apply,Daemon.accState,sendUdp_records] at waiting)
  | _ => exact .inr waiting

theorem act_emits (d : Daemon) (act : Act) (allowed : act.Allowed d) : ∃ added, (act.apply d).out = d.out ++ added ∧
    ∀ text, .brocast .accSuccess text ∈ added →
      d.accState = .opening ∧ NamesOpener d.records.speedup.imDevName (.brocast .accSuccess text) := by
  refine ⟨act.puts d,act_out d act,?_⟩
  intro text member
  have named : NamesOpener d.records.speedup.imDevName (.brocast .accSuccess (successText d.records)) := by
    intro text same
    cases same
    exact ⟨_,rfl⟩
  cases act with
  | granted | found =>
    cases List.mem_singleton.mp member
    exact ⟨allowed,named⟩
  | notice notyType =>
    cases List.mem_singleton.mp member
    exact absurd rfl allowed
  | udp =>
    dsimp only [Act.puts] at member
    split at member
    · cases List.mem_singleton.mp member
    · cases member
  | exchange | reply => cases List.mem_singleton.mp member
  | _ => cases member

structure Emits (opening : Prop) (start d : Daemon) : Prop where
  speedup : d.records.speedup = start.records.speedup
  waiting : d.accState = .opening → opening ∨ start.accState = .opening
  out : ∃ added, d.out = start.out ++ added ∧ ∀ text, .brocast .accSuccess text ∈ added →
    (opening ∨ start.accState = .opening) ∧ NamesOpener start.records.speedup.imDevName (.brocast .accSuccess text)

theorem script_emits (script : Scripted opening start replies d rest) : Emits opening start d := by
  obtain ⟨acts,plays,inner,_⟩ := script
  refine plays.keeps ⟨rfl,.inr,[],(List.append_nil _).symm,by simp⟩ ?_
  intro mid act member held allowed
  refine ⟨(inner_speedup (inner act member) mid).trans held.speedup,?_,?_⟩
  · intro waiting
    rcases inner_opening (inner act member) mid waiting with entered | before
    · exact .inl entered
    · exact held.waiting before
  · obtain ⟨added,out,named⟩ := held.out
    obtain ⟨added',out',named'⟩ := act_emits mid act allowed
    refine ⟨added ++ added',?_,fun text emitted => ?_⟩
    · change (act.apply mid).out = _
      rw [out',out,List.append_assoc]
    · rcases List.mem_append.mp emitted with early | late
      · exact named text early
      · obtain ⟨waiting,name⟩ := named' text late
        exact ⟨held.waiting waiting,held.speedup ▸ name⟩

theorem opened_out (w : World) (event : Event) : (event.opened w).out = w.daemon.out ∧
    (event.opened w).accState = w.daemon.accState := by
  cases event with
  | message pMsg thread header replies => exact ⟨rfl,(received_quiet w.daemon pMsg).accState⟩
  | _ => exact ⟨rfl,rfl⟩

theorem stop_emits (stop : stops d pMsg = true) (ran : imHandleMsg created header d pMsg replies = some h) :
    ∃ added, h.daemon.out = d.out ++ added ∧ ∀ text, .brocast .accSuccess text ∉ added := by
  obtain ⟨handled,switch,rfl⟩ := stop_switched stop ran
  have stopped : ∃ added, handled.daemon.out = d.out ++ added ∧ ∀ text, .brocast .accSuccess text ∉ added := by
    cases replies with
    | nil => cases switch
    | cons ex rest =>
      unfold stopAcc at switch
      dsimp only at switch
      split at switch
      · cases switch
        exact ⟨_,rfl,by simp⟩
      · cases switch
        exact ⟨_,List.append_assoc ..,by simp⟩
  obtain ⟨added,out,silent⟩ := stopped
  unfold Daemon.reply
  cases imJsonMakeResponeSend pMsg handled.errcode (some handled.data.json) with
  | none => exact ⟨added,out,silent⟩
  | some msg =>
    refine ⟨added ++ [.reply msg],?_,by simpa using silent⟩
    rw [← List.append_assoc,← out]
    rfl

def NamedRight (s : World × Bytes) : Prop :=
  s.1.daemon.accState = .opening → s.1.daemon.records.speedup.imDevName = s.2

theorem starts_renames (w : World) (pMsg : Option Json) (starts : asks w.daemon pMsg = some .opening) :
    ∃ name, renames pMsg = some name := by
  unfold asks at starts
  split at starts
  · rename_i valid
    cases pMsg with
    | none => cases valid
    | some jsonMsg =>
      have verdict := imJsonParseHeader_ret jsonMsg w.daemon.records.cmdHeader default
      unfold received imJsonParseTerminal at starts valid
      dsimp only at starts valid
      split at valid
      · rename_i rejected
        exact absurd valid rejected
      · rename_i accepted
        rw [if_neg accepted] at starts
        have complete := (imJsonParseHeader_sucess jsonMsg _).mp (not_not.mp accepted)
        have fields := imJsonParseHeader_fields complete w.daemon.records.cmdHeader default
        rw [verdict] at accepted
        unfold enters at starts
        dsimp only at starts
        rw [imJsonParseDataTerminal_header] at starts
        dsimp only at starts
        cases command : TermMsgCmd.ofCode (imJsonParseHeader jsonMsg w.daemon.records.cmdHeader).1.imCmd with
        | none => rw [command] at starts; cases starts
        | some kind =>
          rw [command] at starts
          cases kind with
          | startAcc =>
            unfold imJsonParseDataTerminal at valid
            rw [command] at valid
            obtain ⟨name,named⟩ := imJsonParseDataSpeedup_sucess valid
            refine ⟨name,?_⟩
            unfold renames
            dsimp only
            rw [if_neg accepted,← fields,command]
            exact named
          | accStateInfo => dsimp only at starts; split at starts <;> cases starts
          | _ => cases starts
  · cases starts

theorem emits_named (emits : Emits opening start d) (named : opening ∨ start.accState = .opening →
    start.records.speedup.imDevName = opener) (out : start.out = before.out) :
    (d.accState = .opening → d.records.speedup.imDevName = opener) ∧
      ∀ output ∈ emitted before d, NamesOpener opener output := by
  obtain ⟨added,made,names⟩ := emits.out
  refine ⟨fun waiting => ?_,?_⟩
  · rw [emits.speedup]
    exact named (emits.waiting waiting)
  · rw [emitted_added (made.trans (congrArg (· ++ added) out))]
    intro output member text same
    subst same
    obtain ⟨waiting,name⟩ := names text member
    rw [named waiting] at name
    exact name text rfl

theorem openerStep_named (held : NamedRight s) (steady : SteadyName s event) (taken : openerStep s event = some next) :
    NamedRight next ∧ ∀ output ∈ emitted s.1.daemon next.1.daemon, NamesOpener next.2 output := by
  obtain ⟨w,opener⟩ := s
  obtain ⟨after,stepped,rfl⟩ := Option.map_eq_some_iff.mp taken
  have emits := script_emits (step_inner stepped)
  obtain ⟨out,state⟩ := opened_out w event
  cases event with
  | message pMsg thread header replies =>
    have stored := received_speedup w.daemon pMsg
    by_cases starts : asks w.daemon pMsg = some .opening
    · obtain ⟨name,renamed⟩ := starts_renames w pMsg starts
      refine emits_named emits (fun _ => ?_) out
      change _ = openerAfter w (.message pMsg thread header replies) opener
      simp only [openerAfter,starts,if_true]
      rw [Event.opened,stored,renamed]
      rfl
    · have same : openerAfter w (.message pMsg thread header replies) opener = opener := if_neg starts
      by_cases waiting : w.daemon.accState = .opening
      · rcases steady waiting with stop | steady
        · obtain ⟨stops,answer⟩ := Bool.and_eq_true_iff.mp stop
          obtain ⟨h,ran,exact,rfl⟩ := step_message stepped
          obtain ⟨added,made,silent⟩ := stop_emits stops ran
          obtain ⟨ex,mid,rfl,quiet,done⟩ := stop_handled stops ran exact
          have accepted : accepts w.daemon.accState ex.body = true := by simpa using answer
          rw [if_pos accepted] at done
          refine ⟨fun waiting => ?_,?_⟩
          · have closed : h.daemon.accState = .closed := done.accState
            exact absurd (closed.symm.trans waiting) (by decide)
          · change ∀ output ∈ emitted w.daemon h.daemon, _
            rw [emitted_added made]
            intro output member text said
            exact absurd (said ▸ member) (silent text)
        · rw [NamedRight,same]
          refine emits_named emits (fun _ => ?_) out
          rw [Event.opened,stored,held waiting]
          cases renamed : renames pMsg with
          | none => rfl
          | some name => exact steady name renamed
      · rw [NamedRight,same]
        refine emits_named emits (fun opened => ?_) out
        rcases opened with entered | before
        · exact absurd entered starts
        · exact absurd (state.symm.trans before) waiting
  | _ => exact emits_named emits (fun opened => held (opened.resolve_left id)) out

-- In every run in which names are steady, every success notification names the opener.
theorem reached_names (path : Transition.Reached openerStep SteadyName (World.boot ulongBits uci lanIp ex,[]) s)
    (steady : SteadyName s event) (taken : openerStep s event = some next) :
    ∀ output ∈ emitted s.1.daemon next.1.daemon, NamesOpener next.2 output := by
  have unopened : (World.boot ulongBits uci lanIp ex).daemon.accState ≠ .opening := by
    have closed : (World.boot ulongBits uci lanIp ex).daemon.accState = .closed := rfl
    rw [closed]
    decide
  have held : NamedRight s := path.invariant (I := NamedRight) (fun waiting => absurd waiting unopened)
    fun _ _ _ held steady taken => (openerStep_named held steady taken).1
  exact (openerStep_named held steady taken).2

instance (s : World × Bytes) (event : Event) : Decidable (SteadyName s event) :=
  match event with
  | .message .. => inferInstanceAs (Decidable (_ = _ → _ = true ∨ ∀ _ ∈ _, _ = _))
  | .isaccInit .. | .alarmInit | .poll .. | .resume _ | .alarm .. | .clock _ => isTrue trivial

def startNaming (imDevName : Bytes) (replies : List Exchange) : Event :=
  .message (some (messageJson TermMsgCmd.startAcc.code 0 [[(jasonKey .devName,.string imDevName)]])) (some default)
    default replies

def openedByPoll : Event := .poll 0 [delivered .getTaskresult msgCodeSucess [[]]]

theorem reached_names_polled : ∃ s next, openerStep s openedByPoll = some next ∧ next.2 = bytes "a" ∧
    (successTexts (emitted s.1.daemon next.1.daemon)).length = 1 ∧
    ∀ output ∈ emitted s.1.daemon next.1.daemon, NamesOpener next.2 output := by
  let asked := [startNaming (bytes "a") [taskReply .startAcc],startNaming (bytes "a") []]
  have met : Met openerStep SteadyName (booted,[]) asked := by decide
  have ran : ((run openerStep (booted,[]) asked).bind fun s => (openerStep s openedByPoll).map fun next =>
      (next.2,(successTexts (emitted s.1.daemon next.1.daemon)).length)) = some (bytes "a",1) := by decide
  obtain ⟨s,ran,seen⟩ := Option.bind_eq_some_iff.mp ran
  obtain ⟨next,taken,seen⟩ := Option.map_eq_some_iff.mp seen
  obtain ⟨opener,told⟩ := Prod.mk.inj seen
  have steady : SteadyName s openedByPoll := trivial
  exact ⟨s,next,taken,opener,told,reached_names (met_reached ran met) steady taken⟩

theorem mem_successTexts (member : text ∈ successTexts outputs) : .brocast .accSuccess text ∈ outputs := by
  obtain ⟨output,emitted,text⟩ := List.mem_filterMap.mp member
  split at text
  · cases text
    exact emitted
  · cases text

-- A second device asks meanwhile, is refused, and is the one named.
theorem reached_misnames : ¬ ∀ ulongBits uci lanIp ex s event next,
    Transition.Reached openerStep free (World.boot ulongBits uci lanIp ex,[]) s → openerStep s event = some next →
    ∀ output ∈ emitted s.1.daemon next.1.daemon, NamesOpener next.2 output := by
  intro always
  let asked := [startNaming (bytes "a") [taskReply .startAcc],startNaming (bytes "b") []]
  have ran : ((run openerStep (booted,[]) asked).bind fun s => (openerStep s openedByPoll).map fun next =>
      (next.2,(successTexts (emitted s.1.daemon next.1.daemon)).map List.head?)) =
      some (bytes "a",[(bytes "b").head?]) := by decide
  obtain ⟨s,ran,seen⟩ := Option.bind_eq_some_iff.mp ran
  obtain ⟨next,taken,seen⟩ := Option.map_eq_some_iff.mp seen
  obtain ⟨opener,told⟩ := Prod.mk.inj seen
  obtain ⟨text,single,first⟩ := List.map_eq_singleton_iff.mp told
  have announced := mem_successTexts (single ▸ List.mem_singleton.mpr rfl : text ∈ successTexts _)
  obtain ⟨k,named⟩ := always _ _ _ _ s openedByPoll next (run_reached ran) taken _ announced text rfl
  rw [opener] at named
  rw [named] at first
  have same : (bytes "a").head? = (bytes "b").head? := first
  exact absurd same (by decide)

end ImAcc
