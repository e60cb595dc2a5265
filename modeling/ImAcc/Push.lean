import ImAcc.Counted
import ImAcc.Devices
import Mathlib.Data.List.Induction

-- The push to the iOS server: what im_json_make_cmd_brocast_IOS builds from the table.
namespace ImAcc
open JsonC Arrivals

def signKey : Bytes := bytes "D1FA1059ECDD12F6ECF5016317C89BA3"

-- pDataObj is made once, outside the loop; dataarray takes one more reference to it.
def brocastDevice (notyMsg : Bytes) (t : TermData) (slot : IosinfoCmd) : TermData :=
  if slot.devicetoken = [] then t
  else ((((t.add .badge (.int 1)).add .message (.string notyMsg)).add .device (.string slot.devicetoken)).add
    .modele (.string Counted.moduleName)).append

def brocastObj (iosinfo : List IosinfoCmd) (notyMsg : Bytes) (tim : Int) : Json :=
  ((Json.object []).objectAdd (jasonKey .data) (iosinfo.foldl (brocastDevice notyMsg) .empty).json).objectAdd
    (jasonKey .rand) (.int (Int.bmod tim (2^32)))

-- The text and its signature; the digest is im_get_string_md5.
def imJsonMakeCmdBrocastIOS (imGetStringMd5 : Bytes → Bytes) (iosinfo : List IosinfoCmd) (notyMsg : Bytes) (tim : Int) :
    Bytes × Bytes :=
  let msg := (brocastObj iosinfo notyMsg tim).toText
  (msg,imGetStringMd5 (imGetStringMd5 (msg ++ signKey) ++ signKey))

def PushShows (iosinfo : List IosinfoCmd) (notyMsg : Bytes) (msg : Json) : Prop :=
  ∃ items, msg.objectGet (jasonKey .data) = some (.array items) ∧
    List.Forall₂ (fun slot item => Json.objectGet (jasonKey .device) item = some (.string slot.devicetoken) ∧
      Json.objectGet (jasonKey .message) item = some (.string notyMsg)) (named iosinfo) items

theorem forall₂_replicate {R : α → β → Prop} (all : List α) (item : β) :
    List.Forall₂ R all (List.replicate all.length item) ↔ ∀ x ∈ all, R x item := by
  induction all with
  | nil => simp
  | cons x rest ih => simp [List.replicate_succ,ih]

theorem TermData.lookup_add (t : TermData) (key : JsonImCmd) (value : Json) (k : Bytes) :
    (t.add key value).members.lookup k = if k = jasonKey key then some value else t.members.lookup k :=
  Json.lookup_membersAdd ..

theorem brocastDevice_shows (notyMsg : Bytes) (t : TermData) (registered : slot.devicetoken ≠ []) :
    (brocastDevice notyMsg t slot).refs = t.refs+1 ∧
      (brocastDevice notyMsg t slot).members.lookup (jasonKey .device) = some (.string slot.devicetoken) ∧
      (brocastDevice notyMsg t slot).members.lookup (jasonKey .message) = some (.string notyMsg) := by
  unfold brocastDevice
  rw [if_neg registered]
  refine ⟨rfl,?_,?_⟩
  · simp only [TermData.append,TermData.lookup_add]
    rw [if_neg (by decide),if_pos trivial]
  · simp only [TermData.append,TermData.lookup_add]
    rw [if_neg (by decide),if_neg (by decide),if_pos trivial]

theorem brocast_elements (iosinfo : List IosinfoCmd) (notyMsg : Bytes) :
    let t := iosinfo.foldl (brocastDevice notyMsg) .empty
    t.refs = (named iosinfo).length ∧ ∀ last ∈ (named iosinfo).getLast?,
      t.members.lookup (jasonKey .device) = some (.string last.devicetoken) ∧
        t.members.lookup (jasonKey .message) = some (.string notyMsg) := by
  dsimp only
  induction iosinfo using List.reverseRecOn with
  | nil => exact ⟨rfl,nofun⟩
  | append_singleton rest slot ih =>
    rw [List.foldl_append,List.foldl_cons,List.foldl_nil,named_snoc]
    by_cases empty : slot.devicetoken = []
    · rw [if_pos empty,brocastDevice,if_pos empty]
      exact ih
    · obtain ⟨refs,device,message⟩ := brocastDevice_shows notyMsg (rest.foldl (brocastDevice notyMsg) .empty) empty
      rw [if_neg empty,refs,ih.1,List.length_append,List.getLast?_concat]
      refine ⟨rfl,?_⟩
      intro last same
      cases same
      exact ⟨device,message⟩

theorem brocastObj_data (iosinfo : List IosinfoCmd) (notyMsg : Bytes) (tim : Int) :
    (brocastObj iosinfo notyMsg tim).objectGet (jasonKey .data) =
      some (iosinfo.foldl (brocastDevice notyMsg) .empty).json := by
  unfold brocastObj
  rw [Json.objectAdd]
  refine (Json.objectGet_objectAdd ..).trans ?_
  rw [if_neg (by decide)]
  exact (Json.objectGet_objectAdd ..).trans (if_pos rfl)

theorem pushShows_last (last : (named iosinfo).getLast? = some slot) (notyMsg : Bytes) (tim : Int) :
    PushShows iosinfo notyMsg (brocastObj iosinfo notyMsg tim) ↔
      ∀ other ∈ named iosinfo, slot.devicetoken = other.devicetoken := by
  obtain ⟨refs,shown⟩ := brocast_elements iosinfo notyMsg
  obtain ⟨device,message⟩ := shown slot last
  have element : Json.objectGet (jasonKey .device) (.object (iosinfo.foldl (brocastDevice notyMsg) .empty).members) =
      some (.string slot.devicetoken) := by rw [Json.objectGet,device]; rfl
  have text : Json.objectGet (jasonKey .message) (.object (iosinfo.foldl (brocastDevice notyMsg) .empty).members) =
      some (.string notyMsg) := by rw [Json.objectGet,message]; rfl
  unfold PushShows
  rw [brocastObj_data,TermData.json,refs]
  simp only [Option.some.injEq,Json.array.injEq,exists_eq_left',forall₂_replicate,element,text,Json.string.injEq,and_true]

def AllAlike (iosinfo : List IosinfoCmd) : Prop :=
  ∀ a ∈ named iosinfo, ∀ b ∈ named iosinfo, a.devicetoken = b.devicetoken

theorem pushShows_alike (iosinfo : List IosinfoCmd) (notyMsg : Bytes) (tim : Int) :
    PushShows iosinfo notyMsg (brocastObj iosinfo notyMsg tim) ↔ AllAlike iosinfo := by
  cases last : (named iosinfo).getLast? with
  | none =>
    have empty := List.getLast?_eq_none_iff.mp last
    obtain ⟨refs,_⟩ := brocast_elements iosinfo notyMsg
    unfold PushShows AllAlike
    rw [brocastObj_data,TermData.json,refs,empty]
    simp
  | some slot =>
    rw [pushShows_last last]
    constructor
    · intro same a here b there
      rw [← same a here,same b there]
    · intro alike other member
      exact alike slot (List.mem_of_getLast? last) other member

theorem DeviceTable.alike (table : DeviceTable arrivals devices) : AllAlike devices ↔ (named devices).length ≤ 1 := by
  have distinct := table.distinct
  unfold AllAlike
  change ((named devices).map IosinfoCmd.devicetoken).Nodup at distinct
  generalize named devices = registered at distinct ⊢
  constructor
  · intro alike
    rcases registered with _ | ⟨a,_ | ⟨b,rest⟩⟩
    · simp
    · simp
    · have same := alike a (by simp) b (by simp)
      rw [List.map_cons,List.map_cons,List.nodup_cons] at distinct
      exact absurd (by rw [same]; exact List.mem_cons_self) distinct.1
  · intro single a here b there
    rcases registered with _ | ⟨c,_ | ⟨d,rest⟩⟩
    · cases here
    · cases List.mem_singleton.mp here
      cases List.mem_singleton.mp there
      rfl
    · simp at single

-- Right where all devices have one token; of the tables that messages fill, those with at
-- most one device.
theorem push_exact (notyMsg : Bytes) (tim : Int) :
    (∀ iosinfo : List IosinfoCmd, PushShows iosinfo notyMsg (brocastObj iosinfo notyMsg tim) ↔ AllAlike iosinfo) ∧
    ∀ (r : Records) (messages : List (Option Json)),
      let table := (heard {r with iosinfo := List.replicate maxIosDev default} messages).iosinfo
      PushShows table notyMsg (brocastObj table notyMsg tim) ↔ (named table).length ≤ 1 := by
  refine ⟨fun iosinfo => pushShows_alike iosinfo notyMsg tim,?_⟩
  intro r messages
  dsimp only
  have start : DeviceTable (named []) ({r with iosinfo := List.replicate maxIosDev default} : Records).iosinfo := .empty
  rw [pushShows_alike]
  exact (heard_table start messages).alike

def registering (token devid : Bytes) : Json :=
  messageJson TermMsgCmd.iosinfo.code 0 [[(jasonKey .devicetoken,.string token),(jasonKey .devid,.string devid)]]

def twoDevices : List IosinfoCmd :=
  (heard (Records.boot 32 default)
    [some (registering (bytes "a") (bytes "1")),some (registering (bytes "b") (bytes "2"))]).iosinfo

theorem push_repeated : ¬PushShows twoDevices (bytes "hi") (brocastObj twoDevices (bytes "hi") 0) := by
  rw [pushShows_alike]
  intro alike
  have registered : named twoDevices = [⟨bytes "a",bytes "1"⟩,⟨bytes "b",bytes "2"⟩] := by decide
  unfold AllAlike at alike
  rw [registered] at alike
  exact absurd (alike _ List.mem_cons_self _ (List.mem_cons_of_mem _ List.mem_cons_self)) (by decide)

end ImAcc
