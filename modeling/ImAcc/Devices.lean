import ImAcc.Grammar
import ImAcc.Lib.Arrivals

-- The table of iOS devices: what a history of terminal messages leaves in it.
namespace ImAcc
open JsonC Arrivals

def deviceOf (devObj : Json) : Option IosinfoCmd :=
  (supplied (some devObj) .devicetoken).bind fun token =>
    (supplied (some devObj) .devid).map fun devid => ⟨token.getString,devid.getString⟩

def registration (jsonMsg : Json) : Option IosinfoCmd :=
  if (imJsonParseHeader jsonMsg default).2 = msgCodeSucess ∧ headerCmd jsonMsg = TermMsgCmd.iosinfo.code then
    (devObjOf jsonMsg).bind deviceOf
  else none

theorem deviceOf_named (devObj : Json) : (deviceOf devObj).isSome = true ↔
    ∀ code ∈ TermMsgCmd.iosinfo.required.map (getCode (some devObj)), code = 0 := by
  unfold deviceOf
  cases token : supplied (some devObj) .devicetoken with
  | none => simp [TermMsgCmd.required,token]
  | some item => simp [TermMsgCmd.required,token]

theorem registration_accepted (jsonMsg : Json) : (registration jsonMsg).isSome = true ↔
    TerminalMessage jsonMsg ∧ headerCmd jsonMsg = TermMsgCmd.iosinfo.code := by
  unfold registration
  by_cases asked : (imJsonParseHeader jsonMsg default).2 = msgCodeSucess ∧ headerCmd jsonMsg = TermMsgCmd.iosinfo.code
  · have complete := (imJsonParseHeader_sucess jsonMsg default).mp asked.1
    have message : TerminalMessage jsonMsg ↔ DataComplete jsonMsg .iosinfo := by
      rw [← imJsonParseTerminal_sucess (Records.boot 32 default),imJsonParseTerminal_complete complete,asked.2,
        imJsonParseDataTerminal_sucess]
    rw [if_pos asked,message,DataComplete_required (by decide)]
    cases devObjOf jsonMsg with
    | none => simp
    | some devObj => simpa [asked.2] using deviceOf_named devObj
  · rw [if_neg asked]
    refine ⟨nofun,?_⟩
    rintro ⟨message,command⟩
    exact absurd ⟨(imJsonParseHeader_sucess jsonMsg default).mpr message.header,command⟩ asked

theorem imJsonParseDataIosinfo_registers (r : Records) (jsonMsg : Json) : (imJsonParseDataIosinfo r jsonMsg).1.iosinfo =
    ((devObjOf jsonMsg).bind deviceOf).elim r.iosinfo fun new => iosinfoRegister new r.iosinfo := by
  unfold imJsonParseDataIosinfo
  rw [withDevObj_devObjOf]
  cases devObjOf jsonMsg with
  | none => rfl
  | some devObj =>
    have codes := (orInto_both devObj .devicetoken .devid).trans (deviceOf_named devObj).symm
    simp only [imJsonGetString,imJsonGet_code,imJsonGet_value,Option.elim_some,Option.bind_some,msgCodeSucess] at codes ⊢
    rw [apply_ite Records.iosinfo,if_congr codes rfl rfl]
    unfold deviceOf
    cases token : supplied (some devObj) .devicetoken with
    | none => rfl
    | some item => cases supplied (some devObj) .devid <;> rfl

theorem imJsonParseTerminal_iosinfo (r : Records) (pMsg : Option Json) : (imJsonParseTerminal r pMsg).1.iosinfo =
    (pMsg.bind registration).elim r.iosinfo fun new => iosinfoRegister new r.iosinfo := by
  cases pMsg with
  | none => rfl
  | some jsonMsg =>
    by_cases complete : HeaderComplete jsonMsg
    · have valid := (imJsonParseHeader_sucess jsonMsg default).mpr complete
      rw [imJsonParseTerminal_complete complete]
      by_cases command : headerCmd jsonMsg = TermMsgCmd.iosinfo.code
      · have device : imJsonParseDataTerminal {r with cmdHeader := (imJsonParseHeader jsonMsg r.cmdHeader).1} jsonMsg
            (headerCmd jsonMsg) =
            imJsonParseDataIosinfo {r with cmdHeader := (imJsonParseHeader jsonMsg r.cmdHeader).1} jsonMsg := by
          unfold imJsonParseDataTerminal
          rw [command,TermMsgCmd.ofCode_code]
        rw [device,imJsonParseDataIosinfo_registers,Option.bind_some,registration,if_pos ⟨valid,command⟩]
      · rw [Option.bind_some,registration,if_neg (fun asked => command asked.2),imJsonParseDataTerminal_owns]
        cases kind : TermMsgCmd.ofCode (headerCmd jsonMsg) with
        | none => rfl
        | some known =>
          have number := TermMsgCmd.ofCode_exact.mp kind
          cases known with
          | iosinfo => exact absurd number command
          | _ => rfl
    · have failed : (imJsonParseHeader jsonMsg default).2 ≠ msgCodeSucess :=
        mt (imJsonParseHeader_sucess jsonMsg default).mp complete
      rw [imJsonParseTerminal_rejected complete,Option.bind_some,registration,if_neg (fun asked => failed asked.1)]
      rfl

theorem imJsonParseTerminal_refused (refused : (imJsonParseTerminal r pMsg).2 ≠ msgCodeSucess) :
    (imJsonParseTerminal r pMsg).1.iosinfo = r.iosinfo := by
  rw [imJsonParseTerminal_iosinfo]
  cases pMsg with
  | none => rfl
  | some jsonMsg =>
    cases named : registration jsonMsg with
    | none => rw [Option.bind_some,named]; rfl
    | some new =>
      have accepted := (registration_accepted jsonMsg).mp (by rw [named]; rfl)
      exact absurd ((imJsonParseTerminal_sucess r jsonMsg).mpr accepted.1) refused

theorem iosinfoFree_occupied (taken : ∀ slot ∈ occupied, slot.devicetoken ≠ []) (new : IosinfoCmd)
    (free : List IosinfoCmd) :
    iosinfoFree new (occupied ++ free) = occupied ++ iosinfoFree new free := by
  induction occupied with
  | nil => rfl
  | cons slot rest ih =>
    rw [List.cons_append,iosinfoFree,if_neg (taken slot List.mem_cons_self),
      ih fun s member => taken s (List.mem_cons_of_mem _ member)]
    rfl

-- The first distinct tokens that found room, each with the devid of its first arrival.
structure DeviceTable (arrivals table : List IosinfoCmd) : Prop where
  size : table.length = maxIosDev
  holds : ∃ free, table = held IosinfoCmd.devicetoken maxIosDev arrivals ++ free ∧ ∀ slot ∈ free, slot.devicetoken = []
  distinct : ((table.filter (·.devicetoken ≠ [])).map IosinfoCmd.devicetoken).Nodup

def named (devices : List IosinfoCmd) : List IosinfoCmd := devices.filter (·.devicetoken ≠ [])

theorem named_taken (devices : List IosinfoCmd) :
    ∀ slot ∈ held IosinfoCmd.devicetoken size (named devices), slot.devicetoken ≠ [] := by
  intro slot member
  have arrived := firsts_mem _ (List.mem_of_mem_take member)
  exact of_decide_eq_true (List.mem_filter.mp arrived).2

theorem deviceTable_of (size : table.length = maxIosDev)
    (holds : table = held IosinfoCmd.devicetoken maxIosDev (named devices) ++ free)
    (vacant : ∀ slot ∈ free, slot.devicetoken = []) : DeviceTable (named devices) table := by
  refine ⟨size,⟨free,holds,vacant⟩,?_⟩
  have occupied : table.filter (·.devicetoken ≠ []) = held IosinfoCmd.devicetoken maxIosDev (named devices) := by
    rw [holds,List.filter_append,List.filter_eq_self.mpr,List.filter_eq_nil_iff.mpr,List.append_nil]
    · intro slot member
      simpa using vacant slot member
    · intro slot member
      exact decide_eq_true (named_taken devices slot member)
  rw [occupied]
  exact held_nodup ..

theorem DeviceTable.empty : DeviceTable (named []) (List.replicate maxIosDev default) := by
  have vacant : ∀ slot ∈ List.replicate maxIosDev (default : IosinfoCmd), slot.devicetoken = [] := by
    intro slot member
    rw [List.eq_of_mem_replicate member]
    rfl
  exact deviceTable_of List.length_replicate rfl vacant

theorem iosinfoRegister_repeated (known : Known IosinfoCmd.devicetoken occupied new.devicetoken)
    (taken : ∀ slot ∈ occupied, slot.devicetoken ≠ []) :
    iosinfoRegister new (occupied ++ free) = occupied ++ free := by
  obtain ⟨slot,member,same⟩ := known
  have found :
      (occupied ++ free).any (fun slot => slot.devicetoken ≠ [] && new.devicetoken = slot.devicetoken) = true := by
    apply List.any_eq_true.mpr
    refine ⟨slot,List.mem_append_left _ member,?_⟩
    simp [← same,taken slot member]
  unfold iosinfoRegister
  rw [if_pos found]

theorem iosinfoRegister_new (fresh : ¬Known IosinfoCmd.devicetoken occupied new.devicetoken)
    (taken : ∀ slot ∈ occupied, slot.devicetoken ≠ []) (vacant : ∀ slot ∈ free, slot.devicetoken = []) :
    iosinfoRegister new (occupied ++ free) = occupied ++ iosinfoFree new free := by
  have absent :
      (occupied ++ free).any (fun slot => slot.devicetoken ≠ [] && new.devicetoken = slot.devicetoken) ≠ true := by
    intro found
    obtain ⟨slot,member,same⟩ := List.any_eq_true.mp found
    have equal : slot.devicetoken ≠ [] ∧ new.devicetoken = slot.devicetoken := by simpa using same
    rcases List.mem_append.mp member with held | free
    · exact fresh ⟨slot,held,equal.2.symm⟩
    · exact equal.1 (vacant slot free)
  unfold iosinfoRegister
  rw [if_neg absent,iosinfoFree_occupied taken]

theorem named_snoc (devices : List IosinfoCmd) (new : IosinfoCmd) :
    named (devices ++ [new]) = if new.devicetoken = [] then named devices else named devices ++ [new] := by
  unfold named
  rw [List.filter_append]
  by_cases empty : new.devicetoken = [] <;> simp [empty]

-- An empty token leaves its devid in a slot that stays free.
theorem DeviceTable.register (before : DeviceTable (named devices) table) (new : IosinfoCmd) :
    DeviceTable (named (devices ++ [new])) (iosinfoRegister new table) := by
  obtain ⟨size,⟨free,rfl,vacant⟩,_⟩ := before
  have taken : ∀ slot ∈ held IosinfoCmd.devicetoken maxIosDev (named devices), slot.devicetoken ≠ [] :=
    named_taken devices
  rw [List.length_append] at size
  by_cases empty : new.devicetoken = []
  · have fresh : ¬Known IosinfoCmd.devicetoken (held IosinfoCmd.devicetoken maxIosDev (named devices)) new.devicetoken := by
      rintro ⟨slot,member,same⟩
      exact taken slot member (same.trans empty)
    rw [iosinfoRegister_new fresh taken vacant]
    have same : named (devices ++ [new]) = named devices := by rw [named_snoc,if_pos empty]
    rw [same]
    cases free with
    | nil => exact deviceTable_of (by simpa [iosinfoFree] using size) rfl vacant
    | cons slot rest =>
      rw [iosinfoFree,if_pos (vacant slot List.mem_cons_self)]
      apply deviceTable_of _ rfl
      · rintro s (_ | ⟨_,member⟩)
        · exact empty
        · exact vacant s (List.mem_cons_of_mem _ member)
      · simpa using size
  · have snoc : named (devices ++ [new]) = named devices ++ [new] := by rw [named_snoc,if_neg empty]
    by_cases known : Known IosinfoCmd.devicetoken (held IosinfoCmd.devicetoken maxIosDev (named devices)) new.devicetoken
    · rw [iosinfoRegister_repeated known taken]
      apply deviceTable_of (by rw [List.length_append]; exact size) _ vacant
      rw [snoc,held_repeated _ (held_known _ known)]
    · rw [iosinfoRegister_new known taken vacant]
      cases free with
      | nil =>
        apply deviceTable_of (by simpa [iosinfoFree] using size) _ vacant
        rw [snoc,held_full _ (by simpa using size)]
        rfl
      | cons slot rest =>
        have room : (held IosinfoCmd.devicetoken maxIosDev (named devices)).length < maxIosDev := by
          rw [List.length_cons] at size
          omega
        rw [iosinfoFree,if_pos (vacant slot List.mem_cons_self)]
        have later : ∀ s ∈ rest, s.devicetoken = [] := fun s member => vacant s (List.mem_cons_of_mem _ member)
        refine deviceTable_of ?_ ?_ later
        · simpa using size
        · rw [snoc,held_room _ (mt (held_all _ room).mpr known) room,List.append_assoc]
          rfl

def heard (r : Records) (messages : List (Option Json)) : Records :=
  messages.foldl (fun r pMsg => (imJsonParseTerminal r pMsg).1) r

def devicesOf (messages : List (Option Json)) : List IosinfoCmd := messages.filterMap (·.bind registration)

theorem heard_table (start : DeviceTable (named devices) r.iosinfo) (messages : List (Option Json)) :
    DeviceTable (named (devices ++ devicesOf messages)) (heard r messages).iosinfo := by
  induction messages generalizing r devices with
  | nil => simpa [devicesOf,heard] using start
  | cons pMsg rest ih =>
    have step := imJsonParseTerminal_iosinfo r pMsg
    unfold heard devicesOf at ih ⊢
    rw [List.foldl_cons,List.filterMap_cons]
    cases device : pMsg.bind registration with
    | none =>
      rw [device] at step
      apply ih
      rw [step]
      exact start
    | some new =>
      rw [device] at step
      have registered : DeviceTable (named (devices ++ [new])) (imJsonParseTerminal r pMsg).1.iosinfo := by
        rw [step]
        exact start.register new
      have later := ih registered
      rwa [List.append_assoc] at later

theorem DeviceTable.slot {slot : IosinfoCmd} {i : Nat} (before : DeviceTable (named devices) table)
    (found : table[i]? = some slot)
    (occupied : slot.devicetoken ≠ []) : (held IosinfoCmd.devicetoken maxIosDev (named devices))[i]? = some slot := by
  obtain ⟨_,⟨free,rfl,vacant⟩,_⟩ := before
  rw [List.getElem?_append] at found
  split at found
  · exact found
  · exact absurd (vacant slot (List.mem_of_getElem? found)) occupied

theorem DeviceTable.kept {slot : IosinfoCmd} {i : Nat} (before : DeviceTable (named devices) table)
    (after : DeviceTable (named (devices ++ later)) table') (found : table[i]? = some slot)
    (occupied : slot.devicetoken ≠ []) : table'[i]? = some slot := by
  have here := before.slot found occupied
  have grown : named (devices ++ later) = named devices ++ named later := List.filter_append ..
  obtain ⟨more,longer⟩ := held_extends IosinfoCmd.devicetoken maxIosDev (named devices) (named later)
  obtain ⟨_,⟨free,rfl,_⟩,_⟩ := after
  rw [grown,← longer,List.append_assoc]
  exact (List.getElem?_append_left (List.getElem?_eq_some_iff.mp here).1).trans here

-- From the empty table: its contents, their permanence, and the messages that change nothing.
theorem iosinfo_history (r : Records) (messages : List (Option Json)) :
    let start : Records := {r with iosinfo := List.replicate maxIosDev default}
    let table := (heard start messages).iosinfo
    DeviceTable (named (devicesOf messages)) table ∧
    (∀ (later : List (Option Json)) (i : Nat) (slot : IosinfoCmd), table[i]? = some slot → slot.devicetoken ≠ [] →
      (heard start (messages ++ later)).iosinfo[i]? = some slot) ∧
    (∀ pMsg, (imJsonParseTerminal (heard start messages) pMsg).2 ≠ msgCodeSucess →
      (imJsonParseTerminal (heard start messages) pMsg).1.iosinfo = table) := by
  dsimp only
  have start : DeviceTable (named []) ({r with iosinfo := List.replicate maxIosDev default} : Records).iosinfo := .empty
  refine ⟨heard_table start messages,?_,fun _ => imJsonParseTerminal_refused⟩
  intro later i slot found occupied
  have table := heard_table start messages
  have longer := heard_table start (messages ++ later)
  rw [devicesOf,List.filterMap_append,← List.append_assoc] at longer
  exact table.kept longer found occupied

end ImAcc
