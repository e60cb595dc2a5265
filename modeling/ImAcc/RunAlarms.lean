import ImAcc.Lib.Draining
import ImAcc.WakeUp

-- run_alarms as a whole, with a clock that stands still: what is called, and what is left.
namespace ImAcc
open Draining Transition

-- removes is what each call's callback unregisters; the result has the calls and what is left.
def runAlarms (now : Timeval) : (Nat → List Nat) → Nat → List SnmpAlarm →
    Option (List (SnmpAlarm × List Nat) × List SnmpAlarm)
  | _,0,_ => none
  | removes,fuel+1,thealarms =>
    match saFindNext thealarms with
    | none => some ([],thealarms)
    | some a =>
      if a.tNext.before now then
        let called := (removes 0).foldl (fun alarms clientreg => snmpAlarmUnregister clientreg alarms) thealarms
        let updated := match saFindSpecific a.clientreg called with
          | none => called
          | some _ => reschedule now a.clientreg called
        (runAlarms now (fun i => removes (i+1)) fuel updated).map fun r => ((a,removes 0) :: r.1,r.2)
      else some ([],thealarms)

def Timeval.ofMicros (n : Int) : Timeval := ⟨n/1000000,n%1000000⟩

theorem ofMicros_normal (n : Int) : (Timeval.ofMicros n).Normal := by
  unfold Timeval.ofMicros Timeval.Normal
  dsimp only
  omega

theorem ofMicros_micros (n : Int) : (Timeval.ofMicros n).micros = n := by
  unfold Timeval.ofMicros Timeval.micros
  dsimp only
  omega

theorem add_ofMicros (a b : Timeval) : a.add b = .ofMicros (a.micros+b.micros) := by
  unfold Timeval.add Timeval.carry Timeval.ofMicros Timeval.micros
  simp only [Timeval.mk.injEq]
  omega

-- An alarm that repeats after a positive interval is set that far ahead, any other goes.
def alarmAgenda (now : Timeval) : Agenda SnmpAlarm Nat Int where
  name := SnmpAlarm.clientreg
  time a := a.tNext.micros
  limit := now.micros
  renew a :=
    if a.flags &&& saRepeat ≠ 0 ∧ 0 < a.t.micros then
      some {a with tLast := now,tNext := .ofMicros (now.micros+a.t.micros)}
    else none
  renamed a b renewed := by
    split at renewed
    · cases renewed
      rfl
    · cases renewed
  later a b renewed := by
    split at renewed
    · rename_i repeats
      cases renewed
      rw [ofMicros_micros]
      omega
    · cases renewed

-- Distinct handles, normalised deadlines and intervals.
structure Regular (alarms : List SnmpAlarm) : Prop where
  distinct : (alarms.map SnmpAlarm.clientreg).Nodup
  normal : ∀ a ∈ alarms, a.tNext.Normal ∧ a.t.Normal ∧ 0 ≤ a.t.tvSec

theorem unregister_filter (distinct : (alarms.map SnmpAlarm.clientreg).Nodup) (clientreg : Nat) :
    snmpAlarmUnregister clientreg alarms = alarms.filter fun a => a.clientreg ≠ clientreg := by
  induction alarms with
  | nil => rfl
  | cons a rest ih =>
    obtain ⟨fresh,others⟩ := List.nodup_cons.mp distinct
    unfold snmpAlarmUnregister
    by_cases here : a.clientreg = clientreg
    · have kept : rest.filter (fun b => b.clientreg ≠ clientreg) = rest := by
        apply List.filter_eq_self.mpr
        intro b member
        exact decide_eq_true fun same => fresh (List.mem_map.mpr ⟨b,member,same.trans here.symm⟩)
      rw [if_pos here,List.filter_cons_of_neg (by simpa using here),kept]
    · rw [if_neg here,List.filter_cons_of_pos (by simpa using here),ih others]

theorem unregisters_filter (distinct : (alarms.map SnmpAlarm.clientreg).Nodup) (removed : List Nat) :
    removed.foldl (fun alarms clientreg => snmpAlarmUnregister clientreg alarms) alarms =
      alarms.filter fun a => a.clientreg ∉ removed := by
  induction removed generalizing alarms with
  | nil => exact (List.filter_eq_self.mpr fun a _ => decide_eq_true List.not_mem_nil).symm
  | cons clientreg rest ih =>
    have fewer := distinct.sublist ((snmpAlarmUnregister_sublist clientreg alarms).map SnmpAlarm.clientreg)
    rw [List.foldl_cons,ih fewer,unregister_filter distinct,List.filter_filter]
    apply List.filter_congr
    intro a _
    simp [Bool.and_comm]

theorem reschedule_absent (absent : saFindSpecific clientreg alarms = none) (now : Timeval) :
    reschedule now clientreg alarms = alarms := by
  induction alarms with
  | nil => rfl
  | cons a rest ih =>
    have apart := List.find?_eq_none.mp absent
    have other : a.clientreg ≠ clientreg := by simpa using apart a List.mem_cons_self
    have rest : saFindSpecific clientreg rest = none :=
      List.find?_eq_none.mpr fun b member => apart b (List.mem_cons_of_mem _ member)
    rw [reschedule,if_neg other,ih rest]

theorem reschedule_found (now : Timeval) (clientreg : Nat) (alarms : List SnmpAlarm) :
    (match saFindSpecific clientreg alarms with
      | none => alarms
      | some _ => reschedule now clientreg alarms) = reschedule now clientreg alarms := by
  split
  · rename_i absent
    exact (reschedule_absent absent now).symm
  · rfl

theorem reschedule_filterMap (distinct : (alarms.map SnmpAlarm.clientreg).Nodup) (now : Timeval) (clientreg : Nat) :
    reschedule now clientreg alarms = alarms.filterMap fun a =>
      if a.clientreg = clientreg then saUpdateEntry now {a with tLast := now,tNext := timevalZero} else some a := by
  induction alarms with
  | nil => rfl
  | cons a rest ih =>
    obtain ⟨fresh,others⟩ := List.nodup_cons.mp distinct
    unfold reschedule
    by_cases here : a.clientreg = clientreg
    · have kept : (rest.filterMap fun a =>
          if a.clientreg = clientreg then saUpdateEntry now {a with tLast := now,tNext := timevalZero} else some a) = rest := by
        rw [← ih others]
        apply reschedule_absent
        apply List.find?_eq_none.mpr
        intro b member
        rw [decide_eq_true_eq]
        exact fun same => fresh (List.mem_map.mpr ⟨b,member,same.trans here.symm⟩)
      rw [if_pos here,List.filterMap_cons,if_pos here,kept]
      cases saUpdateEntry now {a with tLast := now,tNext := timevalZero} <;> rfl
    · rw [if_neg here,List.filterMap_cons,if_neg here,ih others]

-- A last call at zero would stand for none, a next one at zero for unset.
theorem saUpdateEntry_renews (positive : 0 < Timeval.micros now) (normal : a.t.Normal ∧ 0 ≤ a.t.tvSec) :
    saUpdateEntry now {a with tLast := now,tNext := timevalZero} = (alarmAgenda now).renew a := by
  have called : now ≠ timevalZero := by
    rintro rfl
    exact absurd positive (by decide)
  have waits : a.t = timevalZero ↔ ¬0 < a.t.micros := by
    obtain ⟨⟨low,high⟩,sec⟩ := normal
    constructor
    · intro zero
      rw [zero]
      decide
    · intro none
      apply micros_inj ⟨low,high⟩ timevalZero_normal
      unfold Timeval.micros at none ⊢
      dsimp only [timevalZero]
      omega
  unfold saUpdateEntry alarmAgenda
  dsimp only
  rw [if_neg called,if_pos rfl,add_ofMicros]
  by_cases again : a.flags &&& saRepeat ≠ 0
  · rw [if_pos again]
    by_cases zero : a.t = timevalZero
    · rw [if_pos zero,if_neg fun both => waits.mp zero both.2]
    · rw [if_neg zero,if_pos ⟨again,not_not.mp (mt waits.mpr zero)⟩]
  · rw [if_neg again,if_neg fun both => again both.1]

theorem saFindNext_first (now : Timeval) (regular : Regular (first :: rest)) :
    ∃ least ∈ first :: rest, saFindNext (first :: rest) = some least ∧
      ∀ a ∈ first :: rest, a.clientreg ≠ least.clientreg → (alarmAgenda now).Precedes (first :: rest) least a := by
  induction rest generalizing first with
  | nil =>
    refine ⟨first,List.mem_singleton.mpr rfl,rfl,?_⟩
    intro a member other
    rw [List.mem_singleton.mp member] at other
    exact absurd rfl other
  | cons second rest ih =>
    obtain ⟨one,others⟩ := List.forall_mem_cons.mp regular.normal
    obtain ⟨two,later⟩ := List.forall_mem_cons.mp others
    have earlier := before_iff two.1 one.1
    have names := regular.distinct
    rw [List.map_cons,List.map_cons] at names
    rw [saFindNext_cons]
    by_cases lower : second.tNext.before first.tNext
    · rw [if_pos lower]
      obtain ⟨least,member,found,below⟩ := ih ⟨(List.nodup_cons.mp names).2,others⟩
      obtain ⟨least',_,found',bound⟩ := saFindNext_least fun a member => (others a member).1
      cases found.symm.trans found'
      have less : least.tNext.micros < first.tNext.micros := (bound second List.mem_cons_self).trans_lt (earlier.mp lower)
      refine ⟨least,List.mem_cons_of_mem _ member,found,?_⟩
      intro a queued other
      rcases List.mem_cons.mp queued with rfl | queued
      · exact .inl less
      · exact (below a queued other).wider (List.sublist_cons_self _ _)
    · rw [if_neg lower]
      have fewer : (first.clientreg :: rest.map SnmpAlarm.clientreg).Sublist
          (first.clientreg :: second.clientreg :: rest.map SnmpAlarm.clientreg) := (List.sublist_cons_self _ _).cons_cons _
      have single : ∀ a ∈ first :: rest, a.tNext.Normal ∧ a.t.Normal ∧ 0 ≤ a.t.tvSec :=
        List.forall_mem_cons.mpr ⟨one,later⟩
      obtain ⟨least,member,found,below⟩ := ih ⟨names.sublist fewer,single⟩
      obtain ⟨least',_,found',bound⟩ := saFindNext_least fun a member => (single a member).1
      cases found.symm.trans found'
      have most := bound first List.mem_cons_self
      have above : first.tNext.micros ≤ second.tNext.micros := not_lt.mp (mt earlier.mpr lower)
      refine ⟨least,?_,found,?_⟩
      · exact List.mem_cons.mpr ((List.mem_cons.mp member).imp_right (List.mem_cons_of_mem _))
      intro a queued other
      rcases List.mem_cons.mp queued with rfl | queued
      · exact (below a List.mem_cons_self other).wider fewer
      rcases List.mem_cons.mp queued with rfl | queued
      · rcases (most.trans above).lt_or_eq with less | same
        · exact .inl less
        -- An equal time: then least is the head of the queue, or would have to follow it.
        · refine .inr ⟨same,?_⟩
          by_cases head : first.clientreg = least.clientreg
          · change [least.clientreg,a.clientreg].Sublist (first.clientreg :: a.clientreg :: rest.map SnmpAlarm.clientreg)
            rw [← head]
            exact (List.singleton_sublist.mpr List.mem_cons_self).cons_cons _
          · rcases below first List.mem_cons_self head with less | ⟨_,order⟩
            · change least.tNext.micros < first.tNext.micros at less
              omega
            · have again := List.singleton_sublist.mp order.tail
              exact absurd again (List.nodup_cons.mp (names.sublist fewer)).1
      · exact (below a (List.mem_cons_of_mem _ queued) other).wider fewer

theorem called_after (regular : Regular alarms) (positive : 0 < Timeval.micros now) (clientreg : Nat) (removed : List Nat) :
    (let called := removed.foldl (fun alarms clientreg => snmpAlarmUnregister clientreg alarms) alarms
     match saFindSpecific clientreg called with
     | none => called
     | some _ => reschedule now clientreg called) = (alarmAgenda now).after clientreg removed alarms := by
  dsimp only
  rw [unregisters_filter regular.distinct]
  rw [reschedule_found,reschedule_filterMap (regular.distinct.sublist (List.filter_sublist.map _)),List.filterMap_filter]
  apply List.filterMap_congr
  intro a member
  have renews : saUpdateEntry now {a with tLast := now,tNext := timevalZero} = (alarmAgenda now).renew a :=
    saUpdateEntry_renews positive (regular.normal a member).2
  unfold Agenda.turned
  rw [renews]
  by_cases gone : a.clientreg ∈ removed
  · rw [if_neg (by simpa using gone)]
    exact (if_pos gone).symm
  · rw [if_pos (by simpa using gone)]
    exact (if_neg gone).symm

theorem after_regular (regular : Regular alarms) (now : Timeval) (clientreg : Nat) (removed : List Nat) :
    Regular ((alarmAgenda now).after clientreg removed alarms) := by
  refine ⟨regular.distinct.sublist (Agenda.after_names (g := alarmAgenda now) clientreg removed alarms),?_⟩
  intro b member
  obtain ⟨a,queued,turned⟩ := List.mem_filterMap.mp member
  have normal := regular.normal a queued
  unfold Agenda.turned alarmAgenda at turned
  dsimp only at turned
  split at turned
  · cases turned
  split at turned
  · split at turned
    · cases turned
      exact ⟨ofMicros_normal _,normal.2⟩
    · cases turned
  · cases turned
    exact normal

theorem saFindNext_turn (regular : Regular alarms) (normal : Timeval.Normal now) (found : saFindNext alarms = some least) :
    least ∈ alarms ∧ (least.tNext.before now = true ↔ (alarmAgenda now).due least = true) ∧
      (∀ a ∈ alarms, a.clientreg ≠ least.clientreg → (alarmAgenda now).Precedes alarms least a) ∧
      (¬least.tNext.before now = true → ∀ a ∈ alarms, (alarmAgenda now).due a = false) := by
  cases alarms with
  | nil => cases found
  | cons first rest =>
    obtain ⟨least',member,first_,below⟩ := saFindNext_first now regular
    cases found.symm.trans first_
    have passed := before_iff (regular.normal least member).1 normal
    refine ⟨member,?_,below,?_⟩
    · rw [passed]
      exact decide_eq_true_iff.symm
    · intro waits a queued
      obtain ⟨least',_,found',bound⟩ := saFindNext_least fun a member => (regular.normal a member).1
      cases found.symm.trans found'
      have later := (not_lt.mp (mt passed.mpr waits)).trans (bound a queued)
      exact decide_eq_false (not_lt.mpr later)

theorem runAlarms_drains (regular : Regular alarms) (normal : Timeval.Normal now) (positive : 0 < now.micros)
    (ran : runAlarms now removes fuel alarms = some (calls,left)) : (alarmAgenda now).Drains alarms calls left ∧
      calls.map Prod.snd = (List.range calls.length).map removes := by
  induction fuel generalizing alarms removes calls with
  | zero => cases ran
  | succ fuel ih =>
    unfold runAlarms at ran
    split at ran
    · rename_i none
      cases ran
      cases left with
      | nil => exact ⟨.idle nofun,rfl⟩
      | cons first rest =>
        obtain ⟨least,_,found,_⟩ := saFindNext_first now regular
        cases none.symm.trans found
    · rename_i least found
      obtain ⟨member,passed,below,idle⟩ := saFindNext_turn regular normal found
      split at ran
      · rename_i due
        obtain ⟨⟨calls',left'⟩,later,same⟩ := Option.map_eq_some_iff.mp ran
        cases same
        have turned := called_after regular positive least.clientreg (removes 0)
        dsimp only at turned
        rw [turned] at later
        obtain ⟨drains,removed⟩ := ih (after_regular regular now least.clientreg (removes 0)) later
        refine ⟨.turn member (passed.mp due) below drains,?_⟩
        rw [List.map_cons,removed,List.length_cons,List.range_succ_eq_map,List.map_cons,List.map_map]
        rfl
      · rename_i waits
        cases ran
        exact ⟨.idle (idle waits),rfl⟩

theorem runAlarms_returns (regular : Regular alarms) (normal : Timeval.Normal now) (positive : 0 < now.micros)
    (removes : Nat → List Nat) (enough : alarms.countP (alarmAgenda now).due < fuel) :
    (runAlarms now removes fuel alarms).isSome = true := by
  induction fuel generalizing alarms removes with
  | zero => exact absurd enough (Nat.not_lt_zero _)
  | succ fuel ih =>
    unfold runAlarms
    split
    · rfl
    · rename_i least found
      obtain ⟨member,passed,_⟩ := saFindNext_turn regular normal found
      split
      · rename_i due
        have fewer := Agenda.after_fewer member (passed.mp due) (removes 0)
        have turned := called_after regular positive least.clientreg (removes 0)
        dsimp only at turned ⊢
        rw [turned,Option.isSome_map]
        exact ih (after_regular regular now least.clientreg (removes 0)) (fun i => removes (i+1))
          (fewer.trans_le (Nat.le_of_lt_succ enough))
      · rfl

-- Whatever the callbacks remove, run_alarms returns, and drains exactly what is due.
theorem runAlarms_drained (regular : Regular alarms) (normal : Timeval.Normal now) (positive : 0 < now.micros)
    (removes : Nat → List Nat) (enough : alarms.length < fuel) : ∃ calls left,
      runAlarms now removes fuel alarms = some (calls,left) ∧ (alarmAgenda now).Drained alarms calls left ∧
      calls.map Prod.snd = (List.range calls.length).map removes := by
  have due : alarms.countP (alarmAgenda now).due < fuel := List.countP_le_length.trans_lt enough
  obtain ⟨⟨calls,left⟩,ran⟩ := Option.isSome_iff_exists.mp (runAlarms_returns regular normal positive removes due)
  obtain ⟨drains,removed⟩ := runAlarms_drains regular normal positive ran
  exact ⟨calls,left,ran,drains.drained regular.distinct,removed⟩

-- Tied at 90 s, the second for once only; the first removes the third, the fourth is later.
def fourAlarms : List SnmpAlarm :=
  [⟨⟨300,0⟩,saRepeat,1,⟨1,0⟩,⟨90,0⟩,.imStartHeartbeatCloud⟩,⟨⟨300,0⟩,0,2,⟨1,0⟩,⟨90,0⟩,.imStartFlowCount⟩,
   ⟨⟨300,0⟩,saRepeat,3,⟨1,0⟩,⟨95,0⟩,.imStartFlowCount⟩,
   ⟨⟨0,500000⟩,saRepeat,4,⟨1,0⟩,⟨110,0⟩,.imUdpbrocastTimerProc⟩]

def removesThird (call : Nat) : List Nat := if call = 0 then [3] else []

theorem runAlarms_drained_four : ∃ calls left, runAlarms ⟨100,0⟩ removesThird 5 fourAlarms = some (calls,left) ∧
    (alarmAgenda ⟨100,0⟩).Drained fourAlarms calls left ∧ calls.map Prod.snd = (List.range calls.length).map removesThird :=
  runAlarms_drained ⟨by decide,by decide⟩ (by decide) (by decide) removesThird (by decide)

-- alarm_handler step by step, with what the callback of each turn unregisters.
def turn (now : Reading) (removed : List Nat) : List WakeEvent := .fire now :: removed.map .unregister ++ [.completed now]

def alarmHandler (now again : Reading) (turns : List (List Nat)) : List WakeEvent :=
  .signal :: turns.flatMap (turn now) ++ [.rearm now again]

theorem run_unregisters (w : Wake) (removed : List Nat) : run wakeStep w (removed.map .unregister) = some {w with
    timers := {w.timers with
      thealarms := removed.foldl (fun alarms clientreg => snmpAlarmUnregister clientreg alarms) w.timers.thealarms}} := by
  induction removed generalizing w with
  | nil => rfl
  | cons clientreg rest ih =>
    rw [List.map_cons,run]
    exact ih (w.snmpAlarmUnregister clientreg)

theorem run_turn (looping : w.phase = .looping) (now : Reading) (removed : List Nat) : run wakeStep w (turn now removed) =
    (saFindNext w.timers.thealarms).bind fun a => if a.tNext.before now then
      some {w with timers := {w.timers with
        clock := now
        thealarms := reschedule now a.clientreg
          (removed.foldl (fun alarms clientreg => snmpAlarmUnregister clientreg alarms) w.timers.thealarms)}}
    else none := by
  obtain ⟨timers,armed,phase⟩ := w
  obtain rfl : phase = .looping := looping
  rw [turn,List.cons_append,run]
  simp only [wakeStep]
  cases saFindNext timers.thealarms with
  | none => rfl
  | some a =>
    dsimp only [Option.bind_some]
    split
    · rw [Option.bind_some,run_append,run_unregisters,Option.bind_some]
      simp only [run,wakeStep,settled_reschedule,Option.bind_some]
    · rfl

-- Its loop is run_alarms, where it is given the turns that this takes.
theorem run_turns (looping : w.phase = .looping) (now again : Reading) (turns : List (List Nat)) :
    run wakeStep w (turns.flatMap (turn now) ++ [.rearm now again]) =
      (runAlarms now (fun i => turns.getD i []) (turns.length+1) w.timers.thealarms).bind fun r =>
        if r.1.length = turns.length then
          some ({w with timers := {w.timers with thealarms := r.2},phase := .outside}.setAnAlarm again)
        else none := by
  induction turns generalizing w with
  | nil =>
    obtain ⟨timers,armed,phase⟩ := w
    obtain rfl : phase = .looping := looping
    rw [List.flatMap_nil,List.nil_append,run,List.length_nil,runAlarms]
    simp only [wakeStep,run]
    cases saFindNext timers.thealarms with
    | none => rfl
    | some a =>
      dsimp only [Option.any_some]
      split
      · rfl
      · rfl
  | cons removed rest ih =>
    rw [List.flatMap_cons,List.append_assoc,run_append,run_turn looping,List.length_cons,runAlarms]
    cases found : saFindNext w.timers.thealarms with
    | none => rfl
    | some a =>
      dsimp only [Option.bind_some]
      by_cases due : a.tNext.before now
      · rw [if_pos due,if_pos due,Option.bind_some]
        let alarms := removed.foldl (fun alarms clientreg => snmpAlarmUnregister clientreg alarms) w.timers.thealarms
        let updated : Wake :=
          {w with timers := {w.timers with clock := now,thealarms := reschedule now a.clientreg alarms}}
        refine (ih (w := updated) looping).trans ?_
        rw [List.getD_cons_zero,reschedule_found,Option.bind_map]
        refine congrArg (Option.bind _) (funext fun r => ?_)
        simp only [Function.comp,List.length_cons,Nat.add_right_cancel_iff]
        rfl
      · rw [if_neg due,if_neg due]
        rfl

-- alarm_handler is run_alarms with set_an_alarm after it.
theorem run_alarmHandler (outside : w.phase = .outside) (now again : Reading) (turns : List (List Nat)) :
    run wakeStep w (alarmHandler now again turns) =
      (runAlarms now (fun i => turns.getD i []) (turns.length+1) w.timers.thealarms).bind fun r =>
        if r.1.length = turns.length then
          some ({w with timers := {w.timers with thealarms := r.2,itimer := none},phase := .outside}.setAnAlarm again)
        else none := by
  obtain ⟨timers,armed,phase⟩ := w
  obtain rfl : phase = .outside := outside
  rw [alarmHandler,List.cons_append,run]
  exact run_turns (w := ⟨{timers with itimer := none},armed,.looping⟩) rfl now again turns

theorem runAlarms_turns (ran : runAlarms now removes fuel alarms = some (calls,left)) :
    runAlarms now (fun i => (calls.map Prod.snd).getD i []) (calls.length+1) alarms = some (calls,left) := by
  induction fuel generalizing alarms removes calls with
  | zero => cases ran
  | succ fuel ih =>
    unfold runAlarms at ran
    split at ran
    · rename_i none
      cases ran
      rw [runAlarms,none]
    · rename_i least found
      split at ran
      · rename_i due
        obtain ⟨⟨calls',left'⟩,later,same⟩ := Option.map_eq_some_iff.mp ran
        cases same
        rw [List.length_cons,runAlarms,found]
        dsimp only
        rw [if_pos due,List.map_cons,List.getD_cons_zero]
        exact congrArg (Option.map _) (ih later)
      · rename_i waits
        cases ran
        rw [runAlarms,found]
        exact if_neg waits

-- Handled to its end, a signal is run_alarms and set_an_alarm, whatever callbacks remove.
theorem alarmHandler_drained (w : Wake) (now again : Reading) :
    (∀ seconds flags callback, (wakeStep w (.register seconds flags callback now now)).map Wake.timers =
      some (snmpAlarmRegister {w.timers with clock := now} seconds flags callback).1) ∧
    (w.phase = .outside → Regular w.timers.thealarms → 0 < now.1.micros →
      (∀ removes, ∃ n next, run wakeStep w (alarmHandler now again ((List.range n).map removes)) = some next) ∧
      ∀ turns next, run wakeStep w (alarmHandler now again turns) = some next → ∃ calls left,
        runAlarms now (fun i => turns.getD i []) (turns.length+1) w.timers.thealarms = some (calls,left) ∧
        calls.map Prod.snd = turns ∧ (alarmAgenda now).Drained w.timers.thealarms calls left ∧ next.phase = .outside ∧
        next.timers = setAnAlarm {w.timers with clock := again,thealarms := left,itimer := none}) := by
  refine ⟨fun seconds flags callback => congrArg some (snmpAlarmRegister_timers w seconds flags callback now),?_⟩
  intro outside regular positive
  have handled (turns : List (List Nat)) := run_alarmHandler outside now again turns
  constructor
  · intro removes
    have due := Nat.lt_succ_self (w.timers.thealarms.countP (alarmAgenda now).due)
    obtain ⟨⟨calls,left⟩,ran⟩ := Option.isSome_iff_exists.mp (runAlarms_returns regular now.2 positive removes due)
    obtain ⟨_,removed⟩ := runAlarms_drains regular now.2 positive ran
    have taken := runAlarms_turns ran
    rw [removed] at taken
    refine ⟨calls.length,?_⟩
    rw [handled,List.length_map,List.length_range,taken,Option.bind_some,if_pos rfl]
    exact ⟨_,rfl⟩
  · intro turns next ran
    rw [handled,Option.bind_eq_some_iff] at ran
    obtain ⟨⟨calls,left⟩,drained,rest⟩ := ran
    split at rest
    · rename_i all
      cases rest
      obtain ⟨drains,removed⟩ := runAlarms_drains regular now.2 positive drained
      refine ⟨calls,left,drained,?_,drains.drained regular.distinct,rfl,rfl⟩
      rw [removed]
      apply List.ext_getElem
      · simpa using all
      · intro i _ inside
        simp [List.getElem?_eq_getElem inside]
    · cases rest

theorem alarmHandler_drained_four : let w : Wake := {Wake.boot with timers := {Timers.boot with thealarms := fourAlarms}}
    ∃ n next calls left, run wakeStep w (alarmHandler ⟨⟨100,0⟩,by decide⟩ ⟨⟨100,5⟩,by decide⟩
      ((List.range n).map removesThird)) = some next ∧ (alarmAgenda ⟨100,0⟩).Drained fourAlarms calls left ∧
      next.timers = setAnAlarm {Timers.boot with clock := ⟨100,5⟩,thealarms := left} := by
  intro w
  have drained := (alarmHandler_drained w ⟨⟨100,0⟩,by decide⟩ ⟨⟨100,5⟩,by decide⟩).2 rfl ⟨by decide,by decide⟩ (by decide)
  obtain ⟨n,next,ran⟩ := drained.1 removesThird
  obtain ⟨calls,left,_,_,queue,_,timers⟩ := drained.2 _ next ran
  exact ⟨n,next,calls,left,ran,queue,timers⟩

end ImAcc
