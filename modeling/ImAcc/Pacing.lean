import ImAcc.Lib.Spacing
import ImAcc.WakeUp

-- How often timer.c calls an alarm, over any run of it and by any clock.
namespace ImAcc
open Transition Spacing

-- A registration, or a call with the reading it was made at.
inductive Mark where
  | registered (clientreg : Nat) (t reading : Timeval)
  | called (clientreg : Nat) (reading : Timeval)
  deriving DecidableEq

def Mark.clientreg : Mark → Nat
  | .registered clientreg _ _ | .called clientreg _ => clientreg

def Mark.reading : Mark → Timeval
  | .registered _ _ reading | .called _ reading => reading

def marks (w : Wake) : WakeEvent → List Mark
  | .register seconds _ _ entry _ => [.registered w.timers.regnum (interval seconds) entry]
  | .registerHr t _ _ entry _ => [.registered w.timers.regnum t entry]
  | .fire now => (saFindNext w.timers.thealarms).toList.map fun a => .called a.clientreg now
  | .init _ | .unregister _ | .signal | .completed _ | .rearm .. => []

def markedStep (s : Wake × List Mark) (event : WakeEvent) : Option (Wake × List Mark) :=
  (wakeStep s.1 event).map fun w => (w,s.2 ++ marks s.1 event)

-- regnum does not come round, and the clock of run_alarms is past its zero.
def Clocked (s : Wake × List Mark) : WakeEvent → Prop
  | .register .. | .registerHr .. => s.1.timers.regnum+1 < 2^32
  | .fire now => 0 < now.1.micros
  | .init _ | .unregister _ | .signal | .completed _ | .rearm .. => True

instance (s : Wake × List Mark) (event : WakeEvent) : Decidable (Clocked s event) :=
  match event with
  | .register .. | .registerHr .. => inferInstanceAs (Decidable (_ < _))
  | .fire _ => inferInstanceAs (Decidable (_ < _))
  | .init _ | .unregister _ | .signal | .completed _ | .rearm .. => isTrue trivial

def timesOf (clientreg : Nat) (log : List Mark) : List Int :=
  (log.filter fun m => m.clientreg = clientreg).map fun m => m.reading.micros

theorem timesOf_snoc (clientreg : Nat) (log : List Mark) (m : Mark) : timesOf clientreg (log ++ [m]) =
    if m.clientreg = clientreg then timesOf clientreg log ++ [m.reading.micros] else timesOf clientreg log := by
  unfold timesOf
  rw [List.filter_append]
  split
  · rename_i here
    rw [List.filter_cons_of_pos (by simpa using here),List.filter_nil,List.map_append,List.map_singleton]
  · rename_i other
    rw [List.filter_cons_of_neg (by simpa using other),List.filter_nil,List.append_nil]

theorem timesOf_fresh (fresh : ∀ m ∈ log, Mark.clientreg m ≠ clientreg) : timesOf clientreg log = [] := by
  unfold timesOf
  rw [List.filter_eq_nil_iff.mpr fun m member => by simpa using fresh m member]
  rfl

-- Marks of one handle lie an interval apart, and an alarm waits for its own.
structure Paced (w : Wake) (log : List Mark) : Prop where
  distinct : (w.timers.thealarms.map (·.clientreg)).Nodup
  normal : ∀ a ∈ w.timers.thealarms, a.tNext.Normal
  below : ∀ a ∈ w.timers.thealarms, a.clientreg < w.timers.regnum
  earlier : ∀ m ∈ log, m.clientreg < w.timers.regnum
  positive : ∀ clientreg t reading, .registered clientreg t reading ∈ log → 0 < t.micros
  single : ∀ clientreg t reading t' reading', .registered clientreg t reading ∈ log →
    .registered clientreg t' reading' ∈ log → t = t'
  spaced : ∀ clientreg t reading, .registered clientreg t reading ∈ log → Spaced t.micros (timesOf clientreg log)
  known : ∀ a ∈ w.timers.thealarms, ∃ reading, .registered a.clientreg a.t reading ∈ log
  waits : ∀ a ∈ w.timers.thealarms, ∃ last, (timesOf a.clientreg log).getLast? = some last ∧
    ((∀ now, w.phase ≠ .running a.clientreg now) → last+a.t.micros ≤ a.tNext.micros) ∧
      ∀ now, w.phase = .running a.clientreg now → last = now.1.micros
  calling : ∀ clientreg now, w.phase = .running clientreg now → clientreg < w.timers.regnum ∧ 0 < now.1.micros

theorem Paced.quiet {w : Wake} (paced : Paced w log) (fewer : (Wake.timers next).thealarms.Sublist w.timers.thealarms)
    (number : next.timers.regnum = w.timers.regnum)
    (phase : ∀ clientreg now, next.phase = .running clientreg now ↔ w.phase = .running clientreg now) :
    Paced next log where
  distinct := paced.distinct.sublist (fewer.map _)
  normal a member := paced.normal a (fewer.subset member)
  below a member := number ▸ paced.below a (fewer.subset member)
  earlier m member := number ▸ paced.earlier m member
  positive := paced.positive
  single := paced.single
  spaced := paced.spaced
  known a member := paced.known a (fewer.subset member)
  waits a member := by
    obtain ⟨last,here,idle,running⟩ := paced.waits a (fewer.subset member)
    refine ⟨last,here,fun still => idle fun now same => still now ((phase _ _).mpr same),fun now same => ?_⟩
    exact running now ((phase _ _).mp same)
  calling clientreg now same := number ▸ paced.calling clientreg now ((phase _ _).mp same)

theorem setAnAlarm_number (w : Wake) (now : Reading) :
    (w.setAnAlarm now).timers.regnum = w.timers.regnum ∧ (w.setAnAlarm now).phase = w.phase := by
  obtain ⟨itimer,made⟩ := setAnAlarm_parts {w.timers with clock := now}
  unfold Wake.setAnAlarm
  rw [made]
  exact ⟨rfl,rfl⟩

theorem Paced.rearmed {w : Wake} (paced : Paced w log) (now : Reading) : Paced (w.setAnAlarm now) log := by
  have number := setAnAlarm_number w now
  refine paced.quiet ?_ number.1 fun clientreg then' => by rw [number.2]
  rw [(setAnAlarm_rest w now).1]

theorem entered_entry (s : Timers) (t : Timeval) (flags : Nat) (callback : SnmpAlarmCallback) (entry : Timeval) :
    entered s t flags callback entry = s.thealarms ++ [⟨t,flags,s.regnum,entry,entry.add t,callback⟩] := rfl

theorem Paced.enters {w next : Wake} (paced : Paced w log) (t : Interval) (flags : Nat) (callback : SnmpAlarmCallback)
    (entry : Reading) (queue : next.timers.thealarms = entered w.timers t flags callback entry)
    (number : next.timers.regnum = w.timers.regnum+1) (phase : next.phase = w.phase) :
    Paced next (log ++ [.registered w.timers.regnum t entry]) := by
  rw [entered_entry] at queue
  have apart : ∀ m ∈ log, m.clientreg ≠ w.timers.regnum := fun m member => Nat.ne_of_lt (paced.earlier m member)
  have old : ∀ clientreg t' reading, Mark.registered clientreg t' reading ∈ log ++ [.registered w.timers.regnum t entry] →
      .registered clientreg t' reading ∈ log ∨ clientreg = w.timers.regnum ∧ t' = t := by
    intro clientreg t' reading member
    rcases List.mem_append.mp member with before | here
    · exact .inl before
    · cases List.mem_singleton.mp here
      exact .inr ⟨rfl,rfl⟩
  have others (clientreg : Nat) (other : w.timers.regnum ≠ clientreg) :
      timesOf clientreg (log ++ [.registered w.timers.regnum t entry]) = timesOf clientreg log := by
    rw [timesOf_snoc]
    exact if_neg other
  have fresh : timesOf w.timers.regnum (log ++ [.registered w.timers.regnum t entry]) = [entry.1.micros] := by
    rw [timesOf_snoc,timesOf_fresh apart]
    exact if_pos rfl
  have due : (entry.1.add t).micros = entry.1.micros+t.1.micros := by
    unfold Timeval.add
    rw [carry_micros]
    unfold Timeval.micros
    dsimp only
    omega
  refine ⟨?distinct,?normal,?below,?earlier,?positive,?single,?spaced,?known,?waits,?calling⟩
  case distinct =>
    rw [queue,List.map_append]
    refine List.nodup_append.mpr ⟨paced.distinct,List.nodup_singleton _,?_⟩
    intro id before id' here
    obtain ⟨a,member,rfl⟩ := List.mem_map.mp before
    rw [List.mem_singleton.mp here]
    exact Nat.ne_of_lt (paced.below a member)
  case normal =>
    intro a member
    rw [queue] at member
    rcases List.mem_append.mp member with before | here
    · exact paced.normal a before
    · rw [List.mem_singleton.mp here]
      exact carry_normal _
  case below =>
    intro a member
    rw [queue] at member
    rw [number]
    rcases List.mem_append.mp member with before | here
    · exact Nat.lt_succ_of_lt (paced.below a before)
    · rw [List.mem_singleton.mp here]
      exact Nat.lt_succ_self _
  case earlier =>
    intro m member
    rw [number]
    rcases List.mem_append.mp member with before | here
    · exact Nat.lt_succ_of_lt (paced.earlier m before)
    · rw [List.mem_singleton.mp here]
      exact Nat.lt_succ_self _
  case positive =>
    intro clientreg t' reading member
    rcases old _ _ _ member with before | ⟨_,rfl⟩
    · exact paced.positive _ _ _ before
    · exact t.2.2
  case single =>
    intro clientreg t' reading t'' reading' first second
    rcases old _ _ _ first with before | ⟨same,rfl⟩
    · rcases old _ _ _ second with again | ⟨same,_⟩
      · exact paced.single _ _ _ _ _ before again
      · exact absurd same (apart _ before)
    · rcases old _ _ _ second with again | ⟨_,rfl⟩
      · exact absurd same (apart _ again)
      · rfl
  case spaced =>
    intro clientreg t' reading member
    rcases old _ _ _ member with before | ⟨rfl,_⟩
    · rw [others clientreg fun same => apart _ before same.symm]
      exact paced.spaced _ _ _ before
    · rw [fresh]
      exact List.pairwise_singleton _ _
  case known =>
    intro a member
    rw [queue] at member
    rcases List.mem_append.mp member with before | here
    · obtain ⟨reading,entered⟩ := paced.known a before
      exact ⟨reading,List.mem_append_left _ entered⟩
    · rw [List.mem_singleton.mp here]
      exact ⟨entry,List.mem_append_right _ (List.mem_singleton_self _)⟩
  case waits =>
    intro a member
    rw [queue] at member
    rcases List.mem_append.mp member with before | here
    · obtain ⟨last,here,idle,running⟩ := paced.waits a before
      refine ⟨last,?_,fun still => idle (phase ▸ still),fun now same => running now (phase ▸ same)⟩
      rw [others _ fun same => absurd (paced.below a before) (by rw [same]; exact Nat.lt_irrefl _)]
      exact here
    · rw [List.mem_singleton.mp here]
      refine ⟨entry.1.micros,by rw [fresh]; rfl,fun _ => le_of_eq due.symm,fun now same => ?_⟩
      exact absurd (paced.calling _ now (phase ▸ same)).1 (Nat.lt_irrefl _)
  case calling =>
    intro clientreg now same
    obtain ⟨inside,past⟩ := paced.calling clientreg now (phase ▸ same)
    exact ⟨number ▸ Nat.lt_succ_of_lt inside,past⟩

theorem Paced.registered {w : Wake} (paced : Paced w log) (t : Interval) (flags : Nat) (callback : SnmpAlarmCallback)
    (entry now : Reading) (room : w.timers.regnum+1 < 2^32) :
    Paced (w.snmpAlarmRegisterHr t flags callback entry now) (log ++ [.registered w.timers.regnum t entry]) := by
  have number : (w.timers.regnum+1) % 2^32 = w.timers.regnum+1 := Nat.mod_eq_of_lt room
  unfold Wake.snmpAlarmRegisterHr
  dsimp only
  split
  · refine Paced.rearmed ?_ now
    exact paced.enters t flags callback entry rfl number rfl
  · exact paced.enters t flags callback entry rfl number rfl

theorem saFindNext_member (normal : ∀ a ∈ alarms, SnmpAlarm.tNext a |>.Normal) (found : saFindNext alarms = some a) :
    a ∈ alarms := by
  rcases alarms with _ | ⟨first,rest⟩
  · cases found
  · obtain ⟨least,member,here,_⟩ := saFindNext_least normal
    cases here.symm.trans found
    exact member

theorem Paced.fires {w : Wake} {now : Reading} (paced : Paced w log) (looping : w.phase = .looping)
    (found : saFindNext w.timers.thealarms = some a) (due : a.tNext.before now = true) (past : 0 < now.1.micros) :
    Paced {w with timers := {w.timers with clock := now},phase := .running a.clientreg now}
      (log ++ [.called a.clientreg now]) := by
  have member := saFindNext_member paced.normal found
  have still (clientreg : Nat) (now : Reading) : w.phase ≠ .running clientreg now := fun same => by
    rw [looping] at same
    cases same
  have old {clientreg t reading} (entered : .registered clientreg t reading ∈ log ++ [.called a.clientreg now]) :
      .registered clientreg t reading ∈ log := by
    rcases List.mem_append.mp entered with before | here
    · exact before
    · cases List.mem_singleton.mp here
  obtain ⟨last,here,idle,_⟩ := paced.waits a member
  have later : last+a.t.micros < now.1.micros :=
    lt_of_le_of_lt (idle (still _)) ((before_iff (paced.normal a member) now.2).mp due)
  have marked : timesOf a.clientreg (log ++ [.called a.clientreg now]) = timesOf a.clientreg log ++ [now.1.micros] := by
    rw [timesOf_snoc]
    exact if_pos rfl
  have others (clientreg : Nat) (other : a.clientreg ≠ clientreg) :
      timesOf clientreg (log ++ [.called a.clientreg now]) = timesOf clientreg log := by
    rw [timesOf_snoc]
    exact if_neg other
  refine ⟨paced.distinct,paced.normal,paced.below,?earlier,fun _ _ _ entered => paced.positive _ _ _ (old entered),
    fun _ _ _ _ _ first second => paced.single _ _ _ _ _ (old first) (old second),?spaced,?known,?waits,?calling⟩
  case earlier =>
    intro m entered
    rcases List.mem_append.mp entered with before | here
    · exact paced.earlier m before
    · rw [List.mem_singleton.mp here]
      exact paced.below a member
  case spaced =>
    intro clientreg t reading entered
    by_cases same : a.clientreg = clientreg
    · subst same
      obtain ⟨reading',known⟩ := paced.known a member
      have interval := paced.single _ _ _ _ _ known (old entered)
      rw [marked]
      refine (paced.spaced _ _ _ (old entered)).snoc (le_of_lt (paced.positive _ _ _ (old entered))) here ?_
      rw [← interval]
      exact later
    · rw [others clientreg same]
      exact paced.spaced _ _ _ (old entered)
  case known =>
    intro b queued
    obtain ⟨reading,entered⟩ := paced.known b queued
    exact ⟨reading,List.mem_append_left _ entered⟩
  case waits =>
    intro b queued
    by_cases same : a.clientreg = b.clientreg
    · refine ⟨now.1.micros,?_,fun idle => absurd (congrArg (Phase.running · now) same) (idle now),?_⟩
      · rw [← same,marked,List.getLast?_concat]
      · intro now' running
        rw [(Phase.running.inj running).2]
    · obtain ⟨last,here,idle,_⟩ := paced.waits b queued
      refine ⟨last,by rw [others _ same]; exact here,fun _ => idle (still _),fun now' running => ?_⟩
      exact absurd (Phase.running.inj running).1 same
  case calling =>
    intro clientreg now' running
    cases running
    exact ⟨paced.below a member,past⟩

theorem settled_member (member : b ∈ settled now again clientreg alarms) (distinct : (alarms.map (·.clientreg)).Nodup) :
    (b ∈ alarms ∧ b.clientreg ≠ clientreg) ∨
      ∃ a ∈ alarms, a.clientreg = clientreg ∧ saUpdateEntry again {a with tLast := now,tNext := timevalZero} = some b := by
  induction alarms with
  | nil => cases member
  | cons a rest ih =>
    obtain ⟨fresh,others⟩ := List.nodup_cons.mp distinct
    unfold settled at member
    split at member
    · rename_i here
      rcases List.mem_append.mp member with updated | other
      · exact .inr ⟨a,List.mem_cons_self,here,Option.mem_toList.mp updated⟩
      · refine .inl ⟨List.mem_cons_of_mem _ other,fun same => fresh ?_⟩
        exact List.mem_map.mpr ⟨b,other,same.trans here.symm⟩
    · rename_i other
      rcases List.mem_cons.mp member with rfl | later
      · exact .inl ⟨List.mem_cons_self,other⟩
      · rcases ih later others with ⟨kept,apart⟩ | ⟨a,inside,here,updated⟩
        · exact .inl ⟨List.mem_cons_of_mem _ kept,apart⟩
        · exact .inr ⟨a,List.mem_cons_of_mem _ inside,here,updated⟩

theorem settled_ids (now again : Timeval) (clientreg : Nat) (alarms : List SnmpAlarm) :
    ((settled now again clientreg alarms).map (·.clientreg)).Sublist (alarms.map (·.clientreg)) := by
  induction alarms with
  | nil => exact .refl _
  | cons a rest ih =>
    unfold settled
    split
    · cases updated : saUpdateEntry again {a with tLast := now,tNext := timevalZero} with
      | none => exact List.sublist_cons_self _ _
      | some b =>
        have same : b.clientreg = a.clientreg := congrArg (·.2.1) (saUpdateEntry_name updated)
        rw [Option.toList,List.cons_append,List.nil_append,List.map_cons,List.map_cons,same]
    · exact ih.cons_cons _

theorem saUpdateEntry_after {now : Timeval} {a : SnmpAlarm} (past : 0 < now.micros)
    (updated : saUpdateEntry again {a with tLast := now,tNext := timevalZero} = some b) :
    b.clientreg = a.clientreg ∧ b.t = a.t ∧ b.tNext = now.add a.t := by
  have nonzero : now ≠ timevalZero := fun zero => absurd past (by rw [zero]; decide)
  unfold saUpdateEntry at updated
  rw [if_neg nonzero,if_pos rfl] at updated
  split at updated
  · split at updated
    · cases updated
    · cases updated
      exact ⟨rfl,rfl,rfl⟩
  · cases updated

theorem add_micros (a b : Timeval) : (a.add b).micros = a.micros+b.micros := by
  unfold Timeval.add
  rw [carry_micros]
  unfold Timeval.micros
  dsimp only
  omega

theorem Paced.completes {w : Wake} {now : Reading} (paced : Paced w log) (running : w.phase = .running clientreg now)
    (again : Timeval) : Paced {w with
      timers := {w.timers with thealarms := settled now again clientreg w.timers.thealarms}
      phase := .looping} log := by
  have past := (paced.calling clientreg now running).2
  have from_queue {b} (member : b ∈ settled now.1 again clientreg w.timers.thealarms) :
      (b ∈ w.timers.thealarms ∧ b.clientreg ≠ clientreg) ∨ ∃ a ∈ w.timers.thealarms, a.clientreg = clientreg ∧
        b.clientreg = a.clientreg ∧ b.t = a.t ∧ b.tNext = now.1.add a.t := by
    rcases settled_member member paced.distinct with kept | ⟨a,inside,here,updated⟩
    · exact .inl kept
    · exact .inr ⟨a,inside,here,saUpdateEntry_after past updated⟩
  refine ⟨paced.distinct.sublist (settled_ids now again clientreg _),?normal,?below,paced.earlier,paced.positive,
    paced.single,paced.spaced,?known,?waits,?calling⟩
  case calling => exact fun _ _ impossible => by cases impossible
  case normal =>
    intro b member
    exact settled_normal paced.normal now again clientreg b member
  case below =>
    intro b member
    rcases from_queue member with ⟨kept,_⟩ | ⟨a,inside,_,same,_⟩
    · exact paced.below b kept
    · rw [same]
      exact paced.below a inside
  case known =>
    intro b member
    rcases from_queue member with ⟨kept,_⟩ | ⟨a,inside,_,same,interval,_⟩
    · exact paced.known b kept
    · rw [same,interval]
      exact paced.known a inside
  case waits =>
    intro b member
    rcases from_queue member with ⟨kept,other⟩ | ⟨a,inside,here,same,interval,due⟩
    · obtain ⟨last,marked,idle,_⟩ := paced.waits b kept
      refine ⟨last,marked,fun _ => idle fun now' calling => ?_,fun _ impossible => by cases impossible⟩
      exact other (Phase.running.inj (calling.symm.trans running)).1
    · obtain ⟨last,marked,_,called⟩ := paced.waits a inside
      refine ⟨last,by rw [same]; exact marked,fun _ => ?_,fun _ impossible => by cases impossible⟩
      rw [called now (by rw [here]; exact running),interval,due,add_micros]

theorem wakeStep_paced (paced : Paced w log) (clocked : Clocked (w,log) event) (taken : wakeStep w event = some next) :
    Paced next (log ++ marks w event) := by
  cases event with
  | init now =>
    cases taken
    rw [marks,List.append_nil]
    have started : Paced {w with timers := {w.timers with startAlarms := true}} log :=
      paced.quiet (.refl _) rfl fun _ _ => .rfl
    exact started.rearmed now
  | register seconds flags callback entry now =>
    cases taken
    exact paced.registered ⟨interval seconds,interval_positive seconds⟩ flags callback entry now clocked
  | registerHr t flags callback entry now =>
    cases taken
    exact paced.registered t flags callback entry now clocked
  | unregister clientreg =>
    cases taken
    rw [marks,List.append_nil]
    exact paced.quiet (snmpAlarmUnregister_sublist clientreg _) rfl fun _ _ => .rfl
  | signal =>
    unfold wakeStep at taken
    dsimp only at taken
    split at taken
    · rename_i outside
      cases taken
      rw [marks,List.append_nil]
      refine paced.quiet (.refl _) rfl fun _ _ => ?_
      rw [outside]
      exact ⟨nofun,nofun⟩
    · cases taken
  | fire now =>
    unfold wakeStep at taken
    dsimp only at taken
    split at taken
    · rename_i looping found
      split at taken
      · rename_i due
        cases taken
        rw [marks,found]
        exact paced.fires looping found due clocked
      · cases taken
    · cases taken
  | completed again =>
    unfold wakeStep at taken
    dsimp only at taken
    split at taken
    · rename_i running
      cases taken
      rw [marks,List.append_nil]
      exact paced.completes running again
    · cases taken
  | rearm idle now =>
    unfold wakeStep at taken
    dsimp only at taken
    split at taken
    · rename_i looping
      split at taken
      · cases taken
      · cases taken
        rw [marks,List.append_nil]
        have left : Paced {w with phase := .outside} log := by
          refine paced.quiet (.refl _) rfl fun _ _ => ?_
          rw [looping]
          exact ⟨nofun,nofun⟩
        exact left.rearmed now
    · cases taken

def PacedRun (s : Wake × List Mark) : Prop := Paced s.1 s.2

theorem reached_marks (path : Transition.Reached markedStep Clocked (Wake.boot,[]) s) : PacedRun s := by
  refine path.invariant ?_ ?_
  · refine ⟨List.nodup_nil,?_,?_,?_,?_,?_,?_,?_,?_,?_⟩ <;> simp [Wake.boot,Timers.boot]
  · intro s event next paced clocked taken
    obtain ⟨w,stepped,rfl⟩ := Option.map_eq_some_iff.mp taken
    exact wakeStep_paced paced clocked stepped

def callsWithin (clientreg : Nat) (lo hi : Int) (log : List Mark) : List Int :=
  (timesOf clientreg log).filter fun at' => lo ≤ at' ∧ at' ≤ hi

end ImAcc
