import ImAcc.AlarmQueue

namespace ImAcc
open Transition

def Timeval.Normal (tv : Timeval) : Prop := 0 ≤ tv.tvUsec ∧ tv.tvUsec < 1000000

instance (tv : Timeval) : Decidable tv.Normal := inferInstanceAs (Decidable (_ ∧ _))

def Timeval.micros (tv : Timeval) : Int := tv.tvSec*1000000+tv.tvUsec

-- What gettimeofday can answer, and the intervals an alarm can be registered with.
abbrev Reading := {tv : Timeval // tv.Normal}
abbrev Interval := {t : Timeval // t.Normal ∧ 0 < t.micros}

theorem before_iff (left : a.Normal) (right : b.Normal) : Timeval.before a b = true ↔ a.micros < b.micros := by
  obtain ⟨_,_⟩ := left
  obtain ⟨_,_⟩ := right
  unfold Timeval.before Timeval.micros
  simp only [Bool.or_eq_true,Bool.and_eq_true,decide_eq_true_eq]
  omega

theorem carry_normal (tv : Timeval) : tv.carry.Normal := by
  unfold Timeval.carry Timeval.Normal
  dsimp only
  omega

theorem carry_micros (tv : Timeval) : tv.carry.micros = tv.micros := by
  unfold Timeval.carry Timeval.micros
  dsimp only
  omega

theorem micros_inj (left : a.Normal) (right : b.Normal) (same : Timeval.micros a = b.micros) : a = b := by
  obtain ⟨sec,usec⟩ := a
  obtain ⟨sec',usec'⟩ := b
  obtain ⟨_,_⟩ := left
  obtain ⟨_,_⟩ := right
  simp only [Timeval.micros,Timeval.mk.injEq] at *
  omega

theorem timevalZero_normal : timevalZero.Normal := by decide

theorem interval_positive (seconds : Nat) : (interval seconds).Normal ∧ 0 < (interval seconds).micros := by
  unfold interval
  split
  · decide
  · unfold Timeval.Normal Timeval.micros
    dsimp only
    omega

-- Outside alarm_handler, at the loop test of run_alarms, or in the callback of an alarm.
inductive Phase where
  | outside
  | looping
  | running (clientreg : Nat) (now : Reading)
  deriving DecidableEq

-- armed is the time of the last setitimer; the value it was given is timers.itimer.
structure Wake where
  timers : Timers
  armed : Timeval
  phase : Phase
  deriving DecidableEq

def Wake.boot : Wake := ⟨Timers.boot,timevalZero,.outside⟩

-- The time the signal is due at. A value of zero disarms the timer.
def Wake.expiry (w : Wake) : Option Int :=
  w.timers.itimer.bind fun delta => if delta = timevalZero then none else some (w.armed.micros+delta.micros)

-- set_an_alarm with the reading it takes.
def Wake.setAnAlarm (w : Wake) (now : Reading) : Wake :=
  {w with
    timers := ImAcc.setAnAlarm {w.timers with clock := now}
    armed := match getNextAlarmDelayTime now w.timers.thealarms with
      | none => w.armed
      | some (nextalarm,_) => if nextalarm = 0 then w.armed else now}

def Wake.initAlarmPostConfig (w : Wake) (now : Reading) : Wake :=
  {w with timers := {w.timers with startAlarms := true}}.setAnAlarm now

-- The queue of snmp_alarm_register_hr once sa_update_entry has read the clock.
def entered (s : Timers) (t : Timeval) (flags : Nat) (callback : SnmpAlarmCallback) (entry : Timeval) : List SnmpAlarm :=
  let fresh := {t := t,flags := flags,clientreg := s.regnum,tLast := timevalZero,tNext := timevalZero,thecallback := callback}
  s.thealarms ++ (saUpdateEntry entry fresh).toList

def Wake.snmpAlarmRegisterHr (w : Wake) (t : Interval) (flags : Nat) (callback : SnmpAlarmCallback)
    (entry now : Reading) : Wake :=
  let alarms := entered w.timers t flags callback entry
  let registered := {w with timers := {w.timers with
    clock := entry,thealarms := alarms,regnum := (w.timers.regnum+1) % 2^32}}
  if w.timers.startAlarms then registered.setAnAlarm now else registered

def Wake.snmpAlarmRegister (w : Wake) (seconds flags : Nat) (callback : SnmpAlarmCallback) (entry now : Reading) : Wake :=
  w.snmpAlarmRegisterHr ⟨interval seconds,interval_positive seconds⟩ flags callback entry now

def Wake.snmpAlarmUnregister (w : Wake) (clientreg : Nat) : Wake :=
  {w with timers := {w.timers with thealarms := ImAcc.snmpAlarmUnregister clientreg w.timers.thealarms}}

-- sa_update_entry reads the clock again where the reading of the turn is zero.
def settled (now again : Timeval) (clientreg : Nat) : List SnmpAlarm → List SnmpAlarm
  | [] => []
  | a :: rest =>
    if a.clientreg = clientreg then
      (saUpdateEntry again {a with tLast := now,tNext := timevalZero}).toList ++ rest
    else a :: settled now again clientreg rest

-- A callback registers and unregisters by the same calls as the rest of the program.
inductive WakeEvent where
  | init (now : Reading)
  | register (seconds flags : Nat) (callback : SnmpAlarmCallback) (entry now : Reading)
  | registerHr (t : Interval) (flags : Nat) (callback : SnmpAlarmCallback) (entry now : Reading)
  | unregister (clientreg : Nat)
  | signal
  | fire (now : Reading)
  | completed (again : Reading)
  | rearm (idle now : Reading)

-- The signal finds the one-shot timer expired, and is blocked while it is handled.
def wakeStep (w : Wake) : WakeEvent → Option Wake
  | .init now => some (w.initAlarmPostConfig now)
  | .register seconds flags callback entry now => some (w.snmpAlarmRegister seconds flags callback entry now)
  | .registerHr t flags callback entry now => some (w.snmpAlarmRegisterHr t flags callback entry now)
  | .unregister clientreg => some (w.snmpAlarmUnregister clientreg)
  | .signal => match w.phase with
    | .outside => some {w with timers := {w.timers with itimer := none},phase := .looping}
    | _ => none
  | .fire now => match w.phase,saFindNext w.timers.thealarms with
    | .looping,some a =>
      if a.tNext.before now then some {w with timers := {w.timers with clock := now},phase := .running a.clientreg now}
      else none
    | _,_ => none
  | .completed again => match w.phase with
    | .running clientreg now =>
      some {w with timers := {w.timers with thealarms := settled now again clientreg w.timers.thealarms},phase := .looping}
    | _ => none
  | .rearm idle now => match w.phase with
    | .looping =>
      if (saFindNext w.timers.thealarms).any (·.tNext.before idle) then none
      else some ({w with phase := .outside}.setAnAlarm now)
    | _ => none

-- The signal is due by the earliest deadline, or within a microsecond where that has passed.
def Wake.Awake (w : Wake) : Prop := w.timers.thealarms ≠ [] → ∃ due, w.expiry = some due ∧
  ((∀ a ∈ w.timers.thealarms, due ≤ a.tNext.micros) ∨
    (∃ a ∈ w.timers.thealarms, a.tNext.micros ≤ w.timers.clock.micros) ∧ due ≤ w.timers.clock.micros+1)

-- The earliest alarm is not due at the very reading set_an_alarm takes, nor its handle zero.
def Armable (alarms : List SnmpAlarm) (now : Timeval) : Prop :=
  ∀ a ∈ saFindNext alarms, a.tNext ≠ now ∧ a.clientreg ≠ 0

instance (alarms : List SnmpAlarm) (now : Timeval) : Decidable (Armable alarms now) :=
  inferInstanceAs (Decidable (∀ a ∈ saFindNext alarms, _ ∧ _))

-- The step's own call of set_an_alarm, where it is made and no handler is to make another.
def Timely (w : Wake) : WakeEvent → Prop
  | .init now => w.phase = .outside → Armable w.timers.thealarms now
  | .register seconds flags callback entry now => w.phase = .outside → w.timers.startAlarms = true →
    Armable (entered w.timers (interval seconds) flags callback entry) now
  | .registerHr t flags callback entry now => w.phase = .outside → w.timers.startAlarms = true →
    Armable (entered w.timers t flags callback entry) now
  | .rearm _ now => Armable w.timers.thealarms now
  | .unregister _ | .signal | .fire _ | .completed _ => True

instance (w : Wake) (event : WakeEvent) : Decidable (Timely w event) :=
  match event with
  | .init _ => inferInstanceAs (Decidable (_ → Armable _ _))
  | .register .. | .registerHr .. => inferInstanceAs (Decidable (_ → _ → Armable _ _))
  | .rearm .. => inferInstanceAs (Decidable (Armable _ _))
  | .unregister _ | .signal | .fire _ | .completed _ => isTrue trivial

theorem snmpAlarmRegister_timers (w : Wake) (seconds flags : Nat) (callback : SnmpAlarmCallback) (now : Reading) :
    (w.snmpAlarmRegister seconds flags callback now now).timers =
      (ImAcc.snmpAlarmRegister {w.timers with clock := now} seconds flags callback).1 := by
  unfold Wake.snmpAlarmRegister Wake.snmpAlarmRegisterHr ImAcc.snmpAlarmRegister
  dsimp only
  split
  · rfl
  · rfl

theorem settled_reschedule (now : Timeval) (clientreg : Nat) (alarms : List SnmpAlarm) :
    settled now now clientreg alarms = reschedule now clientreg alarms := by
  induction alarms with
  | nil => rfl
  | cons a rest ih => rw [settled,reschedule,ih]

theorem saFindNext_cons (a b : SnmpAlarm) (rest : List SnmpAlarm) :
    saFindNext (a :: b :: rest) = saFindNext ((if b.tNext.before a.tNext then b else a) :: rest) := by
  unfold saFindNext
  simp only [List.foldl]
  split
  · rfl
  · rfl

theorem saFindNext_least (normal : ∀ a ∈ first :: rest, a.tNext.Normal) :
    ∃ least ∈ first :: rest, saFindNext (first :: rest) = some least ∧
      ∀ a ∈ first :: rest, least.tNext.micros ≤ a.tNext.micros := by
  induction rest generalizing first with
  | nil => exact ⟨first,List.mem_singleton.mpr rfl,rfl,fun a member => List.mem_singleton.mp member ▸ le_rfl⟩
  | cons second rest ih =>
    obtain ⟨one,others⟩ := List.forall_mem_cons.mp normal
    obtain ⟨two,later⟩ := List.forall_mem_cons.mp others
    have earlier := before_iff two one
    rw [saFindNext_cons]
    by_cases lower : second.tNext.before first.tNext
    · rw [if_pos lower]
      obtain ⟨least,member,found,below⟩ := ih others
      refine ⟨least,List.mem_cons_of_mem _ member,found,List.forall_mem_cons.mpr ⟨?_,below⟩⟩
      exact (below second List.mem_cons_self).trans (earlier.mp lower).le
    · rw [if_neg lower]
      obtain ⟨least,member,found,below⟩ := ih (List.forall_mem_cons.mpr ⟨one,later⟩)
      have first := below first List.mem_cons_self
      have second : least.tNext.micros ≤ second.tNext.micros :=
        first.trans (not_lt.mp fun less => lower (earlier.mpr less))
      refine ⟨least,?_,found,List.forall_mem_cons.mpr ⟨first,List.forall_mem_cons.mpr ⟨second,?_⟩⟩⟩
      · exact List.mem_cons.mpr ((List.mem_cons.mp member).imp_right (List.mem_cons_of_mem _))
      · exact fun a member => below a (List.mem_cons_of_mem _ member)

theorem setAnAlarm_rest (w : Wake) (now : Reading) : (w.setAnAlarm now).timers.thealarms = w.timers.thealarms ∧
    (w.setAnAlarm now).timers.clock = now ∧ (w.setAnAlarm now).timers.startAlarms = w.timers.startAlarms := by
  obtain ⟨itimer,made⟩ := setAnAlarm_parts {w.timers with clock := now}
  unfold Wake.setAnAlarm
  rw [made]
  exact ⟨rfl,rfl,rfl⟩

theorem setAnAlarm_expiry {w : Wake} {now : Reading} (found : saFindNext w.timers.thealarms = some least)
    (normal : least.tNext.Normal) (early : least.tNext ≠ now) (named : least.clientreg ≠ 0) :
    (w.setAnAlarm now).expiry = some (max least.tNext.micros (now.1.micros+1)) := by
  have passed := before_iff normal now.2
  have apart : least.tNext.micros ≠ now.1.micros := fun same => early (micros_inj normal now.2 same)
  by_cases before : least.tNext.before now
  · have less := passed.mp before
    have next : getNextAlarmDelayTime now w.timers.thealarms = some (least.clientreg,⟨0,1⟩) := by
      simp [getNextAlarmDelayTime,found,before]
    simp only [Wake.setAnAlarm,setAnAlarm,next,named,if_false]
    simp only [Wake.expiry,Option.bind_some,timevalZero,Timeval.mk.injEq,Timeval.micros] at less ⊢
    simp
    omega
  · have more := not_lt.mp fun less => before (passed.mpr less)
    let left : Timeval := ⟨least.tNext.tvSec-now.1.tvSec,least.tNext.tvUsec-now.1.tvUsec⟩
    have next : getNextAlarmDelayTime now w.timers.thealarms = some (least.clientreg,left.carry) := by
      simp [getNextAlarmDelayTime,found,before,left]
    have delay : left.carry.micros = least.tNext.micros-now.1.micros := by
      rw [carry_micros]
      simp only [Timeval.micros,left]
      omega
    have waits : left.carry ≠ timevalZero := by
      intro zero
      have none : left.carry.micros = 0 := by rw [zero]; rfl
      omega
    have due : now.1.micros+left.carry.micros = max least.tNext.micros (now.1.micros+1) := by omega
    simp only [Wake.setAnAlarm,setAnAlarm,next,named,if_false]
    simp only [Wake.expiry,Option.bind_some,waits,if_false,due]

theorem setAnAlarm_awake {w : Wake} {now : Reading} (normal : ∀ a ∈ w.timers.thealarms, a.tNext.Normal)
    (armable : Armable w.timers.thealarms now) : (w.setAnAlarm now).Awake := by
  obtain ⟨queue,clock,_⟩ := setAnAlarm_rest w now
  unfold Wake.Awake
  rw [queue,clock]
  intro waiting
  obtain ⟨first,rest,alarms⟩ := List.exists_cons_of_ne_nil waiting
  rw [alarms] at normal
  obtain ⟨least,member,found,below⟩ := saFindNext_least normal
  rw [← alarms] at found member below
  rw [← alarms] at normal
  obtain ⟨early,named⟩ := armable least found
  refine ⟨_,setAnAlarm_expiry found (normal least member) early named,?_⟩
  rcases le_or_gt least.tNext.micros now.1.micros with past | future
  · exact .inr ⟨⟨least,member,past⟩,by omega⟩
  · refine .inl fun a queued => ?_
    have least := below a queued
    omega

theorem Wake.Awake.fewer (awake : Wake.Awake w) (fewer : alarms.Sublist w.timers.thealarms) :
    Wake.Awake {w with timers := {w.timers with thealarms := alarms}} := by
  intro waiting
  have some : w.timers.thealarms ≠ [] := fun none => waiting (List.sublist_nil.mp (none ▸ fewer))
  obtain ⟨due,armed,early | ⟨_,soon⟩⟩ := awake some
  · exact ⟨due,armed,.inl fun a member => early a (fewer.subset member)⟩
  · refine ⟨due,armed,?_⟩
    by_cases past : ∃ a ∈ alarms, a.tNext.micros ≤ w.timers.clock.micros
    · exact .inr ⟨past,soon⟩
    · refine .inl fun a member => ?_
      have later := not_le.mp fun before => past ⟨a,member,before⟩
      omega

theorem saUpdateEntry_normal (normal : a.tNext.Normal) (updated : saUpdateEntry now a = some b) : b.tNext.Normal := by
  unfold saUpdateEntry at updated
  split at updated
  · cases updated
    exact carry_normal _
  · split at updated
    · split at updated
      · split at updated
        · cases updated
        · cases updated
          exact carry_normal _
      · cases updated
    · cases updated
      exact normal

structure Sound (w : Wake) : Prop where
  normal : ∀ a ∈ w.timers.thealarms, a.tNext.Normal
  awake : w.timers.startAlarms = true → w.phase = .outside → w.Awake

theorem entered_normal (normal : ∀ a ∈ s.thealarms, a.tNext.Normal) (t : Timeval) (flags : Nat)
    (callback : SnmpAlarmCallback) (entry : Timeval) : ∀ a ∈ entered s t flags callback entry, a.tNext.Normal := by
  intro a member
  rcases List.mem_append.mp member with old | new
  · exact normal a old
  · exact saUpdateEntry_normal timevalZero_normal (Option.mem_toList.mp new)

theorem settled_normal (normal : ∀ a ∈ alarms, a.tNext.Normal) (now again : Timeval) (clientreg : Nat) :
    ∀ a ∈ settled now again clientreg alarms, a.tNext.Normal := by
  induction alarms with
  | nil => exact normal
  | cons first rest ih =>
    obtain ⟨one,others⟩ := List.forall_mem_cons.mp normal
    unfold settled
    split
    · intro a member
      rcases List.mem_append.mp member with moved | other
      · exact saUpdateEntry_normal timevalZero_normal (Option.mem_toList.mp moved)
      · exact others a other
    · exact List.forall_mem_cons.mpr ⟨one,ih others⟩

theorem setAnAlarm_sound {w : Wake} {now : Reading} (normal : ∀ a ∈ w.timers.thealarms, a.tNext.Normal)
    (armable : w.phase = .outside → Armable w.timers.thealarms now) : Sound (w.setAnAlarm now) :=
  ⟨(setAnAlarm_rest w now).1 ▸ normal,fun _ outside => setAnAlarm_awake normal (armable outside)⟩

theorem snmpAlarmRegisterHr_sound (sound : Sound w) (timely : Timely w (.registerHr t flags callback entry now)) :
    Sound (w.snmpAlarmRegisterHr t flags callback entry now) := by
  have normal := entered_normal sound.normal t flags callback entry
  unfold Wake.snmpAlarmRegisterHr
  dsimp only
  split
  · rename_i started
    exact setAnAlarm_sound normal fun outside => timely outside started
  · rename_i stopped
    exact ⟨normal,fun started => absurd started stopped⟩

theorem wakeStep_sound (sound : Sound w) (timely : Timely w event) (taken : wakeStep w event = some next) : Sound next := by
  cases event with
  | init now =>
    cases taken
    exact setAnAlarm_sound sound.normal timely
  | register seconds flags callback entry now =>
    cases taken
    exact snmpAlarmRegisterHr_sound (t := ⟨interval seconds,interval_positive seconds⟩) sound timely
  | registerHr t flags callback entry now =>
    cases taken
    exact snmpAlarmRegisterHr_sound sound timely
  | unregister clientreg =>
    cases taken
    have fewer := snmpAlarmUnregister_sublist clientreg w.timers.thealarms
    exact ⟨fun a member => sound.normal a (fewer.subset member),fun started out => (sound.awake started out).fewer fewer⟩
  | signal =>
    unfold wakeStep at taken
    dsimp only at taken
    split at taken
    · cases taken
      exact ⟨sound.normal,nofun⟩
    · cases taken
  | fire now =>
    unfold wakeStep at taken
    dsimp only at taken
    split at taken
    · split at taken
      · cases taken
        exact ⟨sound.normal,nofun⟩
      · cases taken
    · cases taken
  | completed again =>
    unfold wakeStep at taken
    dsimp only at taken
    split at taken
    · cases taken
      exact ⟨settled_normal sound.normal _ _ _,nofun⟩
    · cases taken
  | rearm idle now =>
    unfold wakeStep at taken
    dsimp only at taken
    split at taken
    · split at taken
      · cases taken
      · cases taken
        exact setAnAlarm_sound sound.normal fun _ => timely
    · cases taken

theorem reached_awake (path : Transition.Reached wakeStep Timely .boot w) (ready : w.timers.startAlarms = true)
    (outside : w.phase = .outside) : w.Awake := by
  have sound : Sound w := path.invariant ⟨nofun,fun started => absurd started Bool.false_ne_true⟩
    fun _ _ _ held met taken => wakeStep_sound held met taken
  exact sound.awake ready outside

theorem reached_awake_again : ∃ w : Wake, w.timers.thealarms.length = 2 ∧ w.Awake := by
  let events : List WakeEvent :=
    [.register 1 saRepeat .imStartHeartbeatCloud ⟨⟨10,0⟩,by decide⟩ ⟨⟨10,0⟩,by decide⟩,.init ⟨⟨10,7⟩,by decide⟩,
     .signal,.fire ⟨⟨11,1⟩,by decide⟩,
     .register 0 saRepeat .imUdpbrocastTimerProc ⟨⟨11,2⟩,by decide⟩ ⟨⟨11,3⟩,by decide⟩,
     .completed ⟨⟨11,4⟩,by decide⟩,.rearm ⟨⟨11,5⟩,by decide⟩ ⟨⟨11,6⟩,by decide⟩]
  have met : Met wakeStep Timely .boot events := by decide
  have ran : ((run wakeStep .boot events).map fun w => (w.timers.thealarms.length,w.timers.startAlarms,w.phase)) =
      some (2,true,.outside) := by decide
  obtain ⟨w,ran,seen⟩ := Option.map_eq_some_iff.mp ran
  simp only [Prod.mk.injEq] at seen
  exact ⟨w,seen.1,reached_awake (met_reached ran met) seen.2.1 seen.2.2⟩

-- The handler runs in the very microsecond its only alarm is due in.
def punctual : List WakeEvent :=
  [.init ⟨⟨10,0⟩,by decide⟩,.register 1 saRepeat .imStartHeartbeatCloud ⟨⟨10,0⟩,by decide⟩ ⟨⟨10,0⟩,by decide⟩,
   .signal,.rearm ⟨⟨11,0⟩,by decide⟩ ⟨⟨11,0⟩,by decide⟩]

theorem reached_asleep : ¬ ∀ w : Wake, Transition.Reached wakeStep free .boot w → w.timers.startAlarms = true →
    w.phase = .outside → w.Awake := by
  intro always
  have ran : ((run wakeStep .boot punctual).map fun w =>
      (w.expiry,w.timers.thealarms.length,w.timers.startAlarms,w.phase)) = some (none,1,true,.outside) := by decide
  obtain ⟨w,ran,seen⟩ := Option.map_eq_some_iff.mp ran
  simp only [Prod.mk.injEq] at seen
  obtain ⟨disarmed,queued,ready,outside⟩ := seen
  obtain ⟨due,armed,_⟩ := always w (run_reached ran) ready outside (by intro none; simp [none] at queued)
  rw [disarmed] at armed
  cases armed

end ImAcc
