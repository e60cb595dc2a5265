import ImAcc.Lib.Attempts
import ImAcc.Stored

-- im_rollquery_thread as a whole, on an endless supply of outcomes: when it returns.
namespace ImAcc
open JsonC Attempts

-- The second half of the success branch follows its sleep.
def rollqueryRuns : Nat → Daemon × Poller × (Nat → Exchange) → Option Daemon
  | 0,_ => none
  | fuel+1,(d,p,replies) =>
    (imRollqueryThread d p [replies 0,replies 1]).bind fun t =>
      match t.poller with
      | none => some t.daemon
      | some q =>
        if q.registering then some (rollOpened t.daemon)
        else rollqueryRuns fuel (t.daemon,q,fun i => replies (i+(2-t.rest.length)))

theorem imRollqueryThread_reads (ran : imRollqueryThread d p [poll,login] = some t) :
    ∃ used, imRollqueryThread d p used = some {t with rest := []} := by
  unfold imRollqueryThread at ran
  dsimp only at ran
  split at ran
  · rename_i result
    refine ⟨[poll],?_⟩
    unfold imRollqueryThread
    refine (if_pos result).trans ?_
    split at ran <;> cases ran <;> rfl
  · rename_i unfinished
    split at ran
    · rename_i unknown
      cases ran
      refine ⟨[poll,login],?_⟩
      unfold imRollqueryThread
      exact (if_neg unfinished).trans (if_pos unknown)
    · rename_i known
      refine ⟨[poll],?_⟩
      unfold imRollqueryThread
      refine (if_neg unfinished).trans ((if_neg known).trans ?_)
      split at ran
      · rename_i last
        cases ran
        exact if_pos last
      · rename_i early
        cases ran
        exact if_neg early

theorem poll_taken {w : World} {t : Rolled} (found : w.pollers[i]? = some p) (idle : p.registering = false)
    (polled : imRollqueryThread w.daemon p used = some {t with rest := []}) :
    step w (.poll i used) = some {w with daemon := t.daemon,pollers := match t.poller with
      | none => w.pollers.eraseIdx i
      | some q => w.pollers.set i q} := by
  unfold step
  dsimp only
  rw [found]
  refine (if_neg (Bool.eq_false_iff.mp idle)).trans ?_
  rw [polled]
  rfl

theorem resume_taken {w : World} (found : w.pollers[i]? = some p) (registering : p.registering = true) :
    step w (.resume i) = some {w with daemon := rollOpened w.daemon,pollers := w.pollers.eraseIdx i} := by
  unfold step
  dsimp only
  rw [found]
  exact if_pos registering

def Polled (_ : World) : Event → Prop
  | .poll .. | .resume _ => True
  | .isaccInit .. | .alarmInit | .message .. | .alarm .. | .clock _ => False

theorem rollqueryRuns_reached {w : World} (ran : rollqueryRuns n (w.daemon,p,replies) = some d')
    (found : w.pollers[i]? = some p) (idle : p.registering = false) :
    Reached Polled w {w with daemon := d',pollers := w.pollers.eraseIdx i} := by
  induction n generalizing w p replies with
  | zero => cases ran
  | succ n ih =>
    obtain ⟨t,turned,later⟩ := Option.bind_eq_some_iff.mp ran
    obtain ⟨used,polled⟩ := imRollqueryThread_reads turned
    have polls := poll_taken found idle polled
    have here := (List.getElem?_eq_some_iff.mp found).1
    cases left : t.poller with
    | none =>
      rw [left] at polls later
      cases later
      exact .step .refl (show Polled w (.poll i used) from trivial) polls
    | some q =>
      rw [left] at polls later
      have turn : Reached Polled w _ := .step .refl (show Polled w (.poll i used) from trivial) polls
      have kept : (w.pollers.set i q)[i]? = some q := List.getElem?_set_self here
      dsimp only at later
      split at later
      · rename_i registering
        cases later
        have resumed := turn.step (show Polled _ (.resume i) from trivial) (resume_taken kept registering)
        rwa [List.eraseIdx_set_eq] at resumed
      · rename_i waiting
        have rest := turn.trans (ih later kept (Bool.eq_false_iff.mpr waiting))
        rwa [List.eraseIdx_set_eq] at rest

structure Polls where
  code : Int
  replies : Nat → Exchange

-- The code after the poll. A reply without one leaves the code that was there.
def Polls.polled (a : Polls) : Int := headerInt (a.replies 0).body .code a.code

def Polls.next (a : Polls) : Polls :=
  ⟨a.polled,fun i => a.replies (i+(if a.polled = msgCodeIvalidedevid then 2 else 1))⟩

def Polls.turn (state : AccOpenState) (a : Polls) : Turn :=
  if accepts state (a.replies 0).body ∧ a.polled = msgCodeSucess then .ends
  else if a.polled = msgCodeIvalidedevid then .free
  else .costs

theorem Polls.turn_ends {a : Polls} (turn : a.turn state = .ends) :
    accepts state (a.replies 0).body = true ∧ a.polled = msgCodeSucess := by
  unfold Polls.turn at turn
  by_contra other
  rw [if_neg other] at turn
  split at turn <;> cases turn

theorem Polls.turn_free {a : Polls} (turn : a.turn state = .free) :
    ¬(accepts state (a.replies 0).body = true ∧ a.polled = msgCodeSucess) ∧ a.polled = msgCodeIvalidedevid := by
  unfold Polls.turn at turn
  split at turn
  · cases turn
  · rename_i other
    refine ⟨other,?_⟩
    by_contra valid
    rw [if_neg valid] at turn
    cases turn

theorem Polls.turn_costs {a : Polls} (turn : a.turn state = .costs) :
    ¬(accepts state (a.replies 0).body = true ∧ a.polled = msgCodeSucess) ∧ a.polled ≠ msgCodeIvalidedevid := by
  unfold Polls.turn at turn
  split at turn
  · cases turn
  · rename_i other
    refine ⟨other,?_⟩
    intro invalid
    rw [if_pos invalid] at turn
    cases turn

structure Rolling (state : AccOpenState) (s : Daemon × Poller × (Nat → Exchange)) (a : Polls) (left : Nat) : Prop where
  accState : s.1.accState = state
  idle : s.2.1.registering = false
  code : s.2.1.header.imCode = a.code
  replies : s.2.2 = a.replies
  rollTime : s.2.1.rollTime+left = 9

theorem polled_sucess (d : Daemon) (header : MsgHeader) (ex : Exchange) :
    (imCloudGettaskresult d header ex).ret = msgCodeSucess ↔ accepts d.accState ex.body = true :=
  imCloudExchange_accepts ..

theorem polled_accState (d : Daemon) (header : MsgHeader) (ex : Exchange) :
    (imCloudGettaskresult d header ex).daemon.accState = d.accState :=
  (imCloudExchange_quiet ..).accState

theorem polled_code {header : MsgHeader} (d : Daemon) (a : Polls) (code : header.imCode = a.code) :
    (imCloudGettaskresult d header (a.replies 0)).header.imCode = a.polled := by
  rw [Polls.polled,← code]
  exact imJsonParseCloud_code ..

theorem rollqueryRuns_ends (awaited : state.transient = true) (rolling : Rolling state s a left)
    (turn : a.turn state = .ends) :
    ∃ d' : Daemon, d'.accState.transient = false ∧ ∀ n, rollqueryRuns (n+1) s = some d' := by
  obtain ⟨d,p,replies⟩ := s
  obtain ⟨rfl,idle,code,rfl,_⟩ := rolling
  have result := Polls.turn_ends turn
  have parsed := (polled_sucess d p.header (a.replies 0)).mpr result.1
  have success := (polled_code d a code).trans result.2
  have state := polled_accState d p.header (a.replies 0)
  unfold rollqueryRuns imRollqueryThread
  dsimp only
  rw [if_pos ⟨parsed,success⟩]
  cases asked : d.accState with
  | opening =>
    rw [state,asked]
    exact ⟨_,rfl,fun _ => rfl⟩
  | querying =>
    rw [state,asked]
    exact ⟨_,rfl,fun _ => rfl⟩
  | unset | closed | opened =>
    rw [asked] at awaited
    cases awaited

-- The login's own outcome is not looked at, and costs no poll.
theorem rollqueryRuns_free (rolling : Rolling state s a left) (turn : a.turn state = .free) :
    ∃ s', Rolling state s' a.next left ∧ ∀ n, rollqueryRuns (n+1) s = rollqueryRuns n s' := by
  obtain ⟨d,p,replies⟩ := s
  obtain ⟨rfl,idle,code,rfl,rollTime⟩ := rolling
  obtain ⟨other,invalid⟩ := Polls.turn_free turn
  let c := imCloudGettaskresult d p.header (a.replies 0)
  have said : c.header.imCode = a.polled := polled_code d a code
  have unfinished : ¬(c.ret = msgCodeSucess ∧ c.header.imCode = msgCodeSucess) := by
    rw [polled_sucess,said]
    exact other
  have taken : imRollqueryThread d p [a.replies 0,a.replies 1] =
      some ⟨(imCloudLogin c.daemon (a.replies 1)).daemon,some {p with header := c.header},[]⟩ := by
    unfold imRollqueryThread
    exact (if_neg unfinished).trans (if_pos (said.trans invalid))
  refine ⟨((imCloudLogin c.daemon (a.replies 1)).daemon,{p with header := c.header},a.next.replies),
    ⟨?_,idle,said,rfl,rollTime⟩,?_⟩
  · exact (imCloudLogin_quiet ..).accState.trans (polled_accState d p.header (a.replies 0))
  · intro n
    rw [rollqueryRuns.eq_2,taken,Polls.next,if_pos invalid]
    exact if_neg (Bool.eq_false_iff.mp idle)

theorem rollqueryRuns_costs (rolling : Rolling state s a left) (turn : a.turn state = .costs) :
    (left = 0 → ∃ d' : Daemon, d'.accState.transient = false ∧ ∀ n, rollqueryRuns (n+1) s = some d') ∧
    (∀ less, left = less+1 →
      ∃ s', Rolling state s' a.next less ∧ ∀ n, rollqueryRuns (n+1) s = rollqueryRuns n s') := by
  obtain ⟨d,p,replies⟩ := s
  obtain ⟨rfl,idle,code,rfl,rollTime⟩ := rolling
  obtain ⟨other,valid⟩ := Polls.turn_costs turn
  dsimp only at rollTime
  let c := imCloudGettaskresult d p.header (a.replies 0)
  have said : c.header.imCode = a.polled := polled_code d a code
  have unfinished : ¬(c.ret = msgCodeSucess ∧ c.header.imCode = msgCodeSucess) := by
    rw [polled_sucess,said]
    exact other
  have known : c.header.imCode ≠ msgCodeIvalidedevid := by
    rw [said]
    exact valid
  have taken : imRollqueryThread d p [a.replies 0,a.replies 1] =
      if p.rollTime ≥ 9 then some ⟨c.daemon.setAccState .closed,none,[a.replies 1]⟩
      else some ⟨c.daemon,some {p with header := c.header,rollTime := p.rollTime+1},[a.replies 1]⟩ := by
    unfold imRollqueryThread
    exact (if_neg unfinished).trans (if_neg known)
  constructor
  · rintro rfl
    refine ⟨c.daemon.setAccState .closed,rfl,?_⟩
    intro n
    rw [rollqueryRuns.eq_2,taken,if_pos (by omega)]
    rfl
  · rintro less rfl
    refine ⟨(c.daemon,{p with header := c.header,rollTime := p.rollTime+1},a.next.replies),⟨?_,idle,said,rfl,?_⟩,?_⟩
    · exact polled_accState d p.header (a.replies 0)
    · dsimp only
      omega
    · intro n
      rw [rollqueryRuns.eq_2,taken,if_neg (by omega),Polls.next,if_neg valid]
      exact if_neg (Bool.eq_false_iff.mp idle)

theorem rollqueryRuns_tries (awaited : state.transient = true) :
    Tries rollqueryRuns (Polls.turn state) Polls.next (Rolling state) fun d : Daemon => d.accState.transient = false where
  unfuelled _ := rfl
  ends _ _ _ rolling turn := rollqueryRuns_ends awaited rolling turn
  free _ _ _ rolling turn := rollqueryRuns_free rolling turn
  spent _ _ rolling turn := (rollqueryRuns_costs rolling turn).1 rfl
  costs _ _ left rolling turn := (rollqueryRuns_costs rolling turn).2 left rfl

def PollerEnds (d : Daemon) (header : MsgHeader) (request : Nat) (replies : Nat → Exchange) : Prop :=
  ∃ n d', rollqueryRuns n (d,⟨header,0,false,request⟩,replies) = some d' ∧ d'.accState.transient = false

-- Where some poll brings a result, or ten bring neither one nor the code that asks for a login.
theorem pollerEnds_exact (awaited : d.accState.transient = true) (header : MsgHeader) (request : Nat)
    (replies : Nat → Exchange) : PollerEnds d header request replies ↔
      Concludes (Polls.turn d.accState) Polls.next ⟨header.imCode,replies⟩ 9 :=
  (rollqueryRuns_tries awaited).ends_exact ⟨rfl,rfl,rfl,rfl,rfl⟩

def startedPolling : List Event := [.isaccInit (some default) default [taskReply .isAcc]]

-- A lost network ends the poller after ten polls.
theorem pollerEnds_lost : ∃ w, Transition.run step booted startedPolling = some w ∧
    PollerEnds w.daemon default 1 fun _ => lost := by
  obtain ⟨w,ran,awaited⟩ : ∃ w, Transition.run step booted startedPolling = some w ∧
    w.daemon.accState = .querying := ⟨_,rfl,by decide⟩
  refine ⟨w,ran,(pollerEnds_exact (by rw [awaited]; rfl) default 1 _).mpr ⟨10,.inr ?_⟩⟩
  rw [awaited]
  decide

def unknownDevice (i : Nat) : Exchange := if i%2 = 0 then delivered .getTaskresult msgCodeIvalidedevid [] else loginReply

theorem unknownDevice_free {a : Polls} (same : a.replies = unknownDevice) (state : AccOpenState) :
    a.turn state = .free ∧ a.next.replies = unknownDevice := by
  have polled : a.polled = msgCodeIvalidedevid := by
    unfold Polls.polled
    rw [same]
    rfl
  have unfinished : ¬(accepts state (a.replies 0).body = true ∧ a.polled = msgCodeSucess) := by
    rw [polled]
    exact fun both => absurd both.2 (by decide)
  constructor
  · unfold Polls.turn
    rw [if_neg unfinished,if_pos polled]
  · unfold Polls.next
    rw [polled,if_pos rfl,same]
    funext i
    dsimp only [unknownDevice]
    rw [Nat.add_mod_right]

-- The poller of the start-up query then never returns.
theorem pollerEnds_never : ∃ w p, Transition.run step booted startedPolling = some w ∧
    w.pollers = [p] ∧ w.daemon.accState = .querying ∧ ∀ n, rollqueryRuns n (w.daemon,p,unknownDevice) = none := by
  obtain ⟨w,ran,pollers,awaited⟩ : ∃ w,
      Transition.run step booted startedPolling = some w ∧
      w.pollers = [⟨default,0,false,1⟩] ∧ w.daemon.accState = .querying := ⟨_,rfl,rfl,by decide⟩
  refine ⟨w,_,ran,pollers,awaited,?_⟩
  intro n
  apply Option.eq_none_iff_forall_ne_some.mpr
  intro d' returned
  have rolling : Rolling .querying (w.daemon,⟨default,0,false,1⟩,unknownDevice) ⟨0,unknownDevice⟩ 9 :=
    ⟨awaited,rfl,rfl,rfl,rfl⟩
  have stuck : ¬Concludes (Polls.turn .querying) Polls.next ⟨0,unknownDevice⟩ 9 :=
    Concludes.endless (P := fun a => a.replies = unknownDevice) (fun _ same => unknownDevice_free same .querying) rfl
  exact stuck ((rollqueryRuns_tries rfl).concludes rolling returned)

def refusal : Exchange := delivered .getTaskresult msgCodeUnknown []

theorem refused_turn (d : Daemon) (p : Poller) : imRollqueryThread d p [refusal,refusal] =
    let c := imCloudGettaskresult d p.header refusal
    if p.rollTime ≥ 9 then some ⟨c.daemon.setAccState .closed,none,[refusal]⟩
    else some ⟨c.daemon,some {p with header := c.header,rollTime := p.rollTime+1},[refusal]⟩ := by
  have said : (imCloudGettaskresult d p.header refusal).header.imCode = msgCodeUnknown :=
    polled_code d ⟨p.header.imCode,fun _ => refusal⟩ rfl
  unfold imRollqueryThread
  dsimp only
  rw [said,if_neg fun both => absurd both.2 (by decide),if_neg (by decide)]

theorem rollqueryRuns_refused (left : Nat) (d : Daemon) (idle : p.registering = false) (turns : 9 ≤ p.rollTime+left) :
    ∃ n d', rollqueryRuns n (d,p,fun _ => refusal) = some d' ∧ Daemon.accState d' = .closed := by
  induction left generalizing d p with
  | zero =>
    refine ⟨1,(imCloudGettaskresult d p.header refusal).daemon.setAccState .closed,?_,rfl⟩
    rw [rollqueryRuns,refused_turn]
    dsimp only
    rw [if_pos (show p.rollTime ≥ 9 from turns)]
    rfl
  | succ left ih =>
    let c := imCloudGettaskresult d p.header refusal
    by_cases last : p.rollTime ≥ 9
    · exact ih d idle (by omega)
    · let q : Poller := {p with header := c.header,rollTime := p.rollTime+1}
      have fewer : 9 ≤ q.rollTime+left := by
        change 9 ≤ p.rollTime+1+left
        omega
      obtain ⟨n,d',ran,closed⟩ := ih (p := q) c.daemon idle fewer
      refine ⟨n+1,d',?_,closed⟩
      rw [rollqueryRuns,refused_turn]
      dsimp only
      rw [if_neg last]
      exact (if_neg (Bool.eq_false_iff.mp idle)).trans ran

theorem poller_rests (d : Daemon) (p : Poller) (rest : List Poller) (request : Nat) :
    ∃ d', Reached Polled ⟨d,p :: rest,request⟩ ⟨d',rest,request⟩ ∧ d'.accState.transient = false := by
  let w : World := ⟨d,p :: rest,request⟩
  cases registering : p.registering with
  | true => exact ⟨rollOpened d,.step .refl (show Polled w (.resume 0) from trivial) (resume_taken rfl registering),rfl⟩
  | false =>
    obtain ⟨n,d',ran,closed⟩ := rollqueryRuns_refused 9 d registering (Nat.le_add_left ..)
    refine ⟨d',rollqueryRuns_reached (w := w) (i := 0) ran rfl registering,?_⟩
    rw [closed]
    rfl

-- However many pollers there are and wherever they stand, they can all be run to their ends.
theorem pollers_rest (w : World) : ∃ next, Reached Polled w next ∧ next.pollers = [] ∧
    ((w.pollers = [] → w.daemon.accState.transient = false) → next.daemon.accState.transient = false) := by
  obtain ⟨d,pollers,request⟩ := w
  induction pollers generalizing d with
  | nil => exact ⟨_,.refl,rfl,fun settled => settled rfl⟩
  | cons p rest ih =>
    obtain ⟨d',path,settled⟩ := poller_rests d p rest request
    obtain ⟨next,later,none,last⟩ := ih d'
    exact ⟨next,path.trans later,none,fun _ => last fun _ => settled⟩

end ImAcc
