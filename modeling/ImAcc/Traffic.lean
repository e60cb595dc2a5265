import ImAcc.History
import ImAcc.Interfaces
import ImAcc.Lib.JsonText

-- The traffic reported for a session against the bytes eth1 has received in all.
namespace ImAcc
open JsonC Transition

-- The totals at the last opening, and at the last step begun without a baseline.
structure Metered where
  world : World
  total : Nat
  opened : Nat
  based : Nat

-- So many bytes arrive, then the event happens.
def Metered.step (m : Metered) (e : Event × Nat) : Option Metered :=
  (ImAcc.step m.world e.1).map fun next =>
    ⟨next,m.total+e.2,
     if m.world.daemon.accState ≠ .opened ∧ next.daemon.accState = .opened then m.total+e.2 else m.opened,
     if m.world.daemon.flowCount = 0 then m.total+e.2 else m.based⟩

def Metered.boot (bits : Nat) (uci : UciIsacc) (lanIp : Bytes) (ex : Exchange) (total : Nat) : Metered :=
  ⟨World.boot bits uci lanIp ex,total,0,0⟩

def Shows (bits total : Nat) (ifaList : Option (List Ifaddr)) : Prop :=
  ∀ list ∈ ifaList, ∀ counter ∈ list.findSome? (Ifaddr.offers wanIfname), counter = total % 2^bits

-- No list is read in which no name is compared.
def Comparable (ifaList : Option (List Ifaddr)) : Prop := ∀ list ∈ ifaList, list.any Ifaddr.compared = true

def Served (m : Metered) (e : Event × Nat) : Prop :=
  match e.1 with
  | .alarm _ ifaList _ => Shows m.world.daemon.records.ulongBits (m.total+e.2) ifaList ∧ Comparable ifaList
  | _ => True

instance (bits total : Nat) (ifaList : Option (List Ifaddr)) : Decidable (Shows bits total ifaList) :=
  inferInstanceAs (Decidable (∀ list ∈ ifaList, ∀ counter ∈ list.findSome? (Ifaddr.offers wanIfname),
    counter = total % 2^bits))

instance (ifaList : Option (List Ifaddr)) : Decidable (Comparable ifaList) :=
  inferInstanceAs (Decidable (∀ list ∈ ifaList, list.any Ifaddr.compared = true))

instance (m : Metered) : (e : Event × Nat) → Decidable (Served m e)
  | (.alarm _ ifaList _,arrived) => inferInstanceAs
    (Decidable (Shows m.world.daemon.records.ulongBits (m.total+arrived) ifaList ∧ Comparable ifaList))
  | (.isaccInit ..,_) | (.alarmInit,_) | (.message ..,_) | (.poll ..,_) | (.resume _,_) | (.clock _,_) => isTrue trivial

theorem reading_counter (shows : Shows bits total ifaList) (comparable : Comparable ifaList)
    (read : (imGetIfDbytes ifaList wanIfname obytes).2 = msgCodeSucess) :
    (imGetIfDbytes ifaList wanIfname obytes).1 = total % 2^bits := by
  cases ifaList with
  | none => exact absurd (show msgCodeUnknown = msgCodeSucess from read) (by decide)
  | some list =>
    have any := comparable list rfl
    have result := imGetIfDbytes_result list wanIfname obytes
    cases found : list.findSome? (Ifaddr.offers wanIfname) with
    | none =>
      rw [found,if_pos any] at result
      rw [result] at read
      exact absurd (show msgCodeUnknown = msgCodeSucess from read) (by decide)
    | some counter =>
      rw [found] at result
      rw [result]
      exact shows list rfl counter found

def flowReport (bits : Nat) (session : Bytes) (flow : Nat) : Output := .cloud (imJsonMakeCmdCountflow bits ⟨session,flow⟩)

inductive FlowTicked (ifaList : Option (List Ifaddr)) (before after : Daemon) : Prop where
  | unread : (imGetIfDbytes ifaList wanIfname before.records.countflowCmd.imUseFlow).2 ≠ msgCodeSucess →
      after.flowCount = before.flowCount → after.out = before.out → FlowTicked ifaList before after
  | baseline : (imGetIfDbytes ifaList wanIfname before.records.countflowCmd.imUseFlow).2 = msgCodeSucess →
      before.flowCount = 0 →
      after.flowCount = (imGetIfDbytes ifaList wanIfname before.records.countflowCmd.imUseFlow).1 →
      after.out = before.out → FlowTicked ifaList before after
  | reported : (imGetIfDbytes ifaList wanIfname before.records.countflowCmd.imUseFlow).2 = msgCodeSucess →
      before.flowCount ≠ 0 → after.flowCount = before.flowCount →
      after.out = before.out ++ [flowReport before.records.ulongBits before.records.countflowCmd.imSessionId
        (toUlong before.records.ulongBits
          ((imGetIfDbytes ifaList wanIfname before.records.countflowCmd.imUseFlow).1-before.flowCount : Int)/1024)] →
      FlowTicked ifaList before after

theorem imStartFlowCount_ticked (ran : imStartFlowCount d ifaList replies = some result) :
    FlowTicked ifaList d result.1 := by
  unfold imStartFlowCount at ran
  dsimp only at ran
  split at ran
  · rename_i unread
    cases ran
    exact .unread unread rfl rfl
  · rename_i read
    split at ran
    · rename_i fresh
      cases ran
      exact .baseline (not_not.mp read) fresh rfl rfl
    · rename_i based
      cases replies with
      | nil => cases ran
      | cons ex rest =>
        cases ran
        exact .reported (not_not.mp read) based rfl rfl

def FlowAlarm (d : Daemon) (i : Nat) : Prop := ∃ a ∈ d.timers.thealarms[i]?, a.thecallback = .imStartFlowCount

theorem flowAlarm_ticked (alarm : FlowAlarm w.daemon i) (taken : ImAcc.step w (.alarm i ifaList replies) = some next) :
    FlowTicked ifaList w.daemon next.daemon := by
  obtain ⟨a,place,flow⟩ := alarm
  have ran := alarm_exact taken
  unfold runAlarm at ran
  rw [Option.mem_def.mp place] at ran
  obtain ⟨called,back,same⟩ := Option.map_eq_some_iff.mp ran
  have daemon : next.daemon = called.1.reschedule w.daemon.timers.clock a.clientreg := (congrArg Prod.fst same).symm
  rw [flow] at back
  rw [daemon]
  have ticked := imStartFlowCount_ticked back
  cases ticked with
  | unread read kept silent => exact .unread read kept silent
  | baseline read fresh based silent => exact .baseline read fresh based silent
  | reported read based kept sent => exact .reported read based kept sent

-- No other function sets the baseline: it is kept or dropped.
def Dropped (before after : Daemon) : Prop := after.flowCount = before.flowCount ∨ after.flowCount = 0

theorem Quiet.dropped (quiet : Quiet before after) : Dropped before after := .inl quiet.flowCount

theorem Asked.dropped (asked : Asked codes created state d replies d' began) : Dropped d d' := by
  obtain ⟨begun,last,_,same,outcome⟩ := asked
  have before : begun.flowCount = d.flowCount := same.flowCount
  cases outcome with
  | closed keep => exact .inl (keep.flowCount.trans before)
  | opened _ keep => exact .inl (keep.flowCount.trans before)
  | delayed _ _ keep => exact .inl (keep.flowCount.trans before)
  | left _ _ keep => exact .inl (keep.flowCount.trans before)

theorem Handles.dropped (handled : Handles created d replies state stop d' spawned) : Dropped d d' := by
  cases handled with
  | quiet keep => exact keep.dropped
  | stopped _ taken =>
    obtain ⟨_,mid,_,_,_,stopped⟩ := taken
    exact .inr stopped.flowCount
  | asked asked => exact asked.dropped

theorem Rolls.dropped (rolled : Rolls d p d' q) : Dropped d d' := by
  cases rolled with
  | registering keep _ same _ _ => exact .inl ((congrArg Daemon.flowCount same).trans keep.flowCount)
  | closed keep => exact .inl keep.flowCount
  | ended keep _ => exact keep.dropped
  | again keep _ _ => exact keep.dropped

theorem imStartHeartbeatCloud_dropped (d : Daemon) (ex : Exchange) : Dropped d (imStartHeartbeatCloud d ex) := by
  have sent := (imCloudHeartbeat_quiet d ex).flowCount
  unfold imStartHeartbeatCloud
  dsimp only
  split
  · exact .inl sent
  · split
    · exact .inl sent
    · split
      · exact .inr rfl
      · exact .inl sent

theorem sendUdp_dropped (d : Daemon) : Dropped d (sendUdp d) := by
  unfold sendUdp
  dsimp only
  split <;> exact .inl rfl

theorem step_dropped (taken : ImAcc.step w event = some next)
    (other : ∀ i ifaList replies, event = .alarm i ifaList replies → ¬FlowAlarm w.daemon i) :
    Dropped w.daemon next.daemon := by
  cases event with
  | isaccInit thread header replies =>
    obtain ⟨q,ran,exact,rfl⟩ := step_isaccInit taken
    by_cases idle : w.daemon.accState = .closed
    · exact (imAutoQueryIsacc_asked ran exact idle).dropped
    · rw [imAutoQueryIsacc_idle idle] at ran
      cases ran
      exact .inl rfl
  | message pMsg thread header replies =>
    obtain ⟨h,ran,exact,rfl⟩ := step_message taken
    exact (imHandleMsg_handles ran exact).dropped
  | poll i replies =>
    obtain ⟨p,t,_,idle,ran,rfl⟩ := step_poll taken
    exact (imRollqueryThread_rolls ran idle).dropped
  | resume i =>
    obtain ⟨p,_,_,rfl⟩ := step_resume taken
    exact .inl rfl
  | alarm i ifaList replies =>
    have ran := alarm_exact taken
    unfold runAlarm at ran
    cases place : w.daemon.timers.thealarms[i]? with
    | none => simp [place] at ran
    | some a =>
      simp only [place] at ran
      obtain ⟨called,back,same⟩ := Option.map_eq_some_iff.mp ran
      have after : next.daemon.flowCount = called.1.flowCount := (congrArg (·.1.flowCount) same).symm
      unfold Dropped
      rw [after]
      unfold runCallback at back
      cases callback : a.thecallback with
      | imStartFlowCount => exact absurd ⟨a,place,callback⟩ (other i ifaList replies rfl)
      | imStartHeartbeatCloud =>
        simp only [callback] at back
        cases replies with
        | nil => cases back
        | cons ex rest =>
          cases back
          exact imStartHeartbeatCloud_dropped w.daemon ex
      | imUdpbrocastTimerProc =>
        simp only [callback] at back
        cases back
        exact sendUdp_dropped w.daemon
  | alarmInit | clock => cases taken; exact .inl rfl

-- The counter as it stood at the last step that began without a baseline.
structure Baselined (bits : Nat) (m : Metered) : Prop where
  tabled : Tabled bits m.world.daemon
  opened : m.opened ≤ m.total
  based : m.based ≤ m.total
  baseline : m.world.daemon.flowCount ≠ 0 → m.world.daemon.flowCount = m.based % 2^bits

theorem Metered.step_parts (taken : Metered.step m e = some next) :
    ImAcc.step m.world e.1 = some next.world ∧ next.total = m.total+e.2 ∧
      next.opened =
        (if m.world.daemon.accState ≠ .opened ∧ next.world.daemon.accState = .opened then next.total else m.opened) ∧
      next.based = (if m.world.daemon.flowCount = 0 then next.total else m.based) := by
  obtain ⟨world,ran,rfl⟩ := Option.map_eq_some_iff.mp taken
  exact ⟨ran,rfl,rfl,rfl⟩

theorem step_baselined (held : Baselined bits m) (served : Served m e) (taken : m.step e = some next) :
    Baselined bits next := by
  obtain ⟨ran,total,opened,based⟩ := Metered.step_parts taken
  have grown : m.total ≤ next.total := by omega
  refine ⟨step_keeps (tabled_kept bits) held.tabled ran,?_,?_,?_⟩
  · rw [opened]
    split
    · exact Nat.le_refl _
    · exact Nat.le_trans held.opened grown
  · rw [based]
    split
    · exact Nat.le_refl _
    · exact Nat.le_trans held.based grown
  · intro set
    have kept (dropped : Dropped m.world.daemon next.world.daemon) :
        next.world.daemon.flowCount = next.based % 2^bits := by
      have same := dropped.resolve_right set
      rw [same] at set
      rw [same,based,if_neg set]
      exact held.baseline set
    by_cases flow : ∃ i ifaList replies, e.1 = .alarm i ifaList replies ∧ FlowAlarm m.world.daemon i
    · obtain ⟨event,arrived⟩ := e
      obtain ⟨i,ifaList,replies,rfl,alarm⟩ := flow
      obtain ⟨shows,comparable⟩ := served
      have ticked := flowAlarm_ticked alarm ran
      cases ticked with
      | unread _ same _ => exact kept (.inl same)
      | reported _ _ same _ => exact kept (.inl same)
      | baseline read fresh taken _ =>
        rw [taken,based,if_pos fresh,total,reading_counter shows comparable read,held.tabled.1]
    · refine kept (step_dropped ran ?_)
      intro i ifaList replies event alarm
      exact flow ⟨i,ifaList,replies,event,alarm⟩

theorem reached_baselined (path : Transition.Reached Metered.step Served (.boot bits uci lanIp ex total) m) :
    Baselined bits m := by
  refine path.invariant ?_ fun _ _ _ held served taken => step_baselined held served taken
  have fresh : (Metered.boot bits uci lanIp ex total).world.daemon.flowCount = 0 := by
    unfold Metered.boot
    rw [World.boot_ready]
    exact (imCloudLogin_quiet (.ready bits uci lanIp) ex).flowCount
  exact ⟨boot_tabled bits uci lanIp ex,Nat.zero_le _,Nat.zero_le _,fun set => absurd fresh set⟩

theorem toUlong_difference (later : based ≤ total) :
    toUlong bits (((total % 2^bits : Nat) : Int)-((based % 2^bits : Nat) : Int)) = (total-based) % 2^bits := by
  unfold toUlong
  have span : ((total-based : Nat) : Int) = (total : Int)-based := Int.ofNat_sub later
  have width : ((2^bits : Nat) : Int) = 2^bits := by push_cast; rfl
  rw [← width,Int.natCast_emod,Int.natCast_emod,← Int.sub_emod,← span,← Int.natCast_emod,Int.toNat_natCast]

theorem flowReport_injective (small : 2*x < 2^bits ∨ x = 0) (small' : 2*y < 2^bits ∨ y = 0) :
    flowReport bits session x = flowReport bits session y ↔ x = y := by
  have figure {n : Nat} (fits : 2*n < 2^bits ∨ n = 0) : decimal (Int.bmod n (2^bits)) = bytes n.repr := by
    rcases fits with fits | rfl
    · rw [Int.bmod_eq_of_le (by omega) (by omega)]
      rfl
    · rw [Nat.cast_zero,Int.zero_bmod]
      rfl
  constructor
  · intro same
    have texts := Output.cloud.inj same
    simp only [imJsonMakeCmdCountflow,cloudCmdText,List.append_cancel_right_eq,List.append_cancel_left_eq] at texts
    rw [figure small,figure small'] at texts
    have values := congrArg Json.digitsValue texts
    rw [JsonText.digitsValue_repr,JsonText.digitsValue_repr] at values
    exact Int.ofNat.inj values
  · rintro rfl
    rfl

-- A report carries what arrived since the session was opened, in whole units of 1024 bytes.
def ReportRight (m next : Metered) : Prop :=
  emitted m.world.daemon next.world.daemon = [flowReport m.world.daemon.records.ulongBits
    m.world.daemon.records.countflowCmd.imSessionId ((next.total-m.opened)/1024)]

-- What arrived between the opening and the baseline is lost in the rounding; of a baseline
-- from before the session, what arrived before the opening.
def Near (bits based opened total : Nat) : Prop :=
  if opened ≤ based then based-opened ≤ (total-opened)%1024
  else (total-opened)%1024 + (opened-based)%2^bits < 1024 ∨ 2^bits - (opened-based)%2^bits ≤ (total-opened)%1024

theorem width_units (bits : Nat) : 1024 ∣ 2^bits ∨ 2^bits ≤ 1024 := by
  rcases Nat.le_total 10 bits with wide | narrow
  · exact .inl (Nat.pow_dvd_pow 2 wide)
  · exact .inr (Nat.pow_le_pow_right (by decide) narrow)

-- So many bytes before the opening are lost in the rounding, or wrap below it.
theorem wrapped_units (units : 1024 ∣ width ∨ width ≤ 1024) (since : b < width) (before : g < width) :
    (g+b)%width/1024 = b/1024 ↔ b%1024+g < 1024 ∨ width-g ≤ b%1024 := by
  by_cases wraps : g+b < width
  · rw [Nat.mod_eq_of_lt wraps]
    omega
  · have once : (g+b)%width = g+b-width := by
      rw [Nat.mod_eq_sub_mod (by omega),Nat.mod_eq_of_lt (by omega)]
    rw [once]
    rcases units with ⟨k,rfl⟩ | narrow <;> omega

theorem near_exact (later : based ≤ total) (since : opened ≤ total) (growth : total-opened < 2^bits) :
    (total-based)%2^bits/1024 = (total-opened)/1024 ↔ Near bits based opened total := by
  unfold Near
  split
  · rename_i within
    rw [Nat.mod_eq_of_lt (by omega : total-based < 2^bits)]
    omega
  · have both : total-based = (opened-based)+(total-opened) := by omega
    rw [both,Nat.add_mod,Nat.mod_eq_of_lt growth]
    exact wrapped_units (width_units bits) growth (Nat.mod_lt _ (Nat.two_pow_pos bits))

theorem report_sent (held : Baselined bits m) (served : Served m (.alarm i ifaList replies,arrived))
    (taken : m.step (.alarm i ifaList replies,arrived) = some next) (alarm : FlowAlarm m.world.daemon i)
    (sends : emitted m.world.daemon next.world.daemon ≠ []) : m.based ≤ next.total ∧ m.opened ≤ next.total ∧
      emitted m.world.daemon next.world.daemon = [flowReport m.world.daemon.records.ulongBits
        m.world.daemon.records.countflowCmd.imSessionId ((next.total-m.based)%2^bits/1024)] := by
  obtain ⟨ran,grown,_,_⟩ := Metered.step_parts taken
  have later : m.based ≤ next.total := Nat.le_trans held.based (by omega)
  have silent (same : next.world.daemon.out = m.world.daemon.out) : emitted m.world.daemon next.world.daemon = [] :=
    emitted_added (same.trans (List.append_nil _).symm)
  have ticked := flowAlarm_ticked alarm ran
  refine ⟨later,Nat.le_trans held.opened (by omega),?_⟩
  cases ticked with
  | unread _ _ same => exact absurd (silent same) sends
  | baseline _ _ _ same => exact absurd (silent same) sends
  | reported read based kept sent =>
    have reading := reading_counter served.1 served.2 read
    rw [emitted_added sent,reading,held.baseline based,← grown,held.tabled.1,toUlong_difference later]

theorem reportRight_near (held : Baselined bits m) (later : m.based ≤ next.total) (since : m.opened ≤ next.total)
    (sent : emitted m.world.daemon next.world.daemon = [flowReport m.world.daemon.records.ulongBits
      m.world.daemon.records.countflowCmd.imSessionId ((next.total-m.based)%2^bits/1024)])
    (growth : next.total-m.opened < 2^bits) : ReportRight m next ↔ Near bits m.based m.opened next.total := by
  have below : (next.total-m.based)%2^bits < 2^bits := Nat.mod_lt _ (Nat.two_pow_pos bits)
  unfold ReportRight
  rw [sent,List.singleton_inj,held.tabled.1,flowReport_injective (by omega) (by omega)]
  exact near_exact later since growth

theorem flowReported_exact (path : Transition.Reached Metered.step Served (.boot bits uci lanIp ex total) m)
    (served : Served m (.alarm i ifaList replies,arrived)) (taken : m.step (.alarm i ifaList replies,arrived) = some next)
    (alarm : FlowAlarm m.world.daemon i) (sends : emitted m.world.daemon next.world.daemon ≠ [])
    (growth : next.total-m.opened < 2^bits) : ReportRight m next ↔ Near bits m.based m.opened next.total := by
  have held := reached_baselined path
  obtain ⟨later,since,sent⟩ := report_sent held served taken alarm sends
  exact reportRight_near held later since sent growth

def eth1 (counter : Nat) : Option (List Ifaddr) := some [⟨true,true,wanIfname,some counter⟩]

def metered (events : List (Event × Nat)) : Option Metered :=
  run Metered.step (.boot 32 default (bytes "192.168.1.1") loginReply 5000) events

def flowTick (arrived counter : Nat) (replies : List Exchange) : Event × Nat := (.alarm 2 (eth1 counter) replies,arrived)

def openedAndTicked (arrived : Nat) : List (Event × Nat) :=
  (started ++ [told .startAcc [delivered .startAcc msgCodeSucess [[]]]]).map (fun event => (event,0)) ++
    [flowTick arrived (5000+arrived) []]

structure Shown where
  opened : Nat
  based : Nat
  total : Nat
  flow : Bool
  sent : Nat
  served : Bool
  state : AccOpenState
  deriving DecidableEq

def shown (m next : Metered) (tick : Event × Nat) : Shown :=
  ⟨m.opened,m.based,next.total,(m.world.daemon.timers.thealarms[2]?.map (·.thecallback)) = some .imStartFlowCount,
   (emitted m.world.daemon next.world.daemon).length,Served m tick,m.world.daemon.accState⟩

theorem shown_sends (saw : shown m next tick = ⟨opened,based,total,true,1,true,state⟩) :
    FlowAlarm m.world.daemon 2 ∧ emitted m.world.daemon next.world.daemon ≠ [] ∧ Served m tick := by
  have callback := of_decide_eq_true (congrArg Shown.flow saw)
  obtain ⟨a,place,flow⟩ := Option.map_eq_some_iff.mp callback
  refine ⟨⟨a,place,flow⟩,?_,of_decide_eq_true (congrArg Shown.served saw)⟩
  intro silent
  have sent := congrArg Shown.sent saw
  simp only [shown,silent] at sent
  cases sent

-- The baseline is taken before anything arrives, and the report says the 4096 bytes.
theorem flowReported_near : ∃ m next, metered (openedAndTicked 0) = some m ∧
    m.step (flowTick 4096 9096 [lost]) = some next ∧ next.total-m.opened = 4096 ∧ ReportRight m next := by
  have ran : ((metered (openedAndTicked 0)).bind fun m => (m.step (flowTick 4096 9096 [lost])).map fun next =>
      shown m next (flowTick 4096 9096 [lost])) = some ⟨5000,5000,9096,true,1,true,.opened⟩ := by decide
  obtain ⟨m,reached,rest⟩ := Option.bind_eq_some_iff.mp ran
  obtain ⟨next,taken,saw⟩ := Option.map_eq_some_iff.mp rest
  obtain ⟨alarm,sends,served⟩ := shown_sends saw
  obtain ⟨opened,based,total,_⟩ := Shown.mk.inj saw
  refine ⟨m,next,reached,taken,by omega,?_⟩
  refine (flowReported_exact (met_reached reached (by decide)) served taken alarm sends (by omega)).mpr ?_
  rw [opened,based,total]
  unfold Near
  decide

-- The first tick comes after 2048 bytes; the report at 4096 bytes says half of them.
theorem flowReported_late : ¬ ∀ bits uci lanIp ex total m i ifaList replies arrived next,
    Transition.Reached Metered.step Served (.boot bits uci lanIp ex total) m →
    Served m (.alarm i ifaList replies,arrived) → m.step (.alarm i ifaList replies,arrived) = some next →
    FlowAlarm m.world.daemon i → emitted m.world.daemon next.world.daemon ≠ [] → m.world.daemon.accState = .opened →
    next.total-m.opened < 2^bits → ReportRight m next := by
  intro always
  have ran : ((metered (openedAndTicked 2048)).bind fun m => (m.step (flowTick 2048 9096 [lost])).map fun next =>
      shown m next (flowTick 2048 9096 [lost])) = some ⟨5000,7048,9096,true,1,true,.opened⟩ := by decide
  obtain ⟨m,reached,rest⟩ := Option.bind_eq_some_iff.mp ran
  obtain ⟨next,taken,saw⟩ := Option.map_eq_some_iff.mp rest
  obtain ⟨alarm,sends,served⟩ := shown_sends saw
  obtain ⟨opened,based,total,_,_,_,state⟩ := Shown.mk.inj saw
  have path : Transition.Reached Metered.step Served (.boot 32 default (bytes "192.168.1.1") loginReply 5000) m :=
    met_reached reached (by decide)
  have held := reached_baselined path
  obtain ⟨later,since,sent⟩ := report_sent held served taken alarm sends
  have right := always _ _ _ _ _ m _ _ _ _ next path served taken alarm sends state (by omega)
  have near := (reportRight_near held later since sent (by omega)).mp right
  rw [opened,based,total] at near
  unfold Near at near
  exact absurd near (by decide)

end ImAcc
