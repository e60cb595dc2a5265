import ImAcc.Lib.Ledger
import ImAcc.HttpClient
import ImAcc.System

-- What the daemon takes from the system and gives back.
namespace ImAcc
open JsonC Ledger

-- curlGlobal is what curl_global_init counts; memory is malloc's, or holds a message.
inductive Handle where
  | descriptor (fd : Nat)
  | curlGlobal
  | curl (handle : Nat)
  | headers (list : Nat)
  | interfaces (list : Nat)
  | memory (address : Nat)
  deriving DecidableEq

def Handle.isDescriptor : Handle → Bool
  | .descriptor _ => true
  | .curlGlobal | .curl _ | .headers _ | .interfaces _ | .memory _ => false

@[simp] theorem descriptor_counts : (Handle.descriptor fd).isDescriptor = true := rfl
@[simp] theorem curlGlobal_counts : Handle.curlGlobal.isDescriptor = false := rfl
@[simp] theorem curl_counts : (Handle.curl handle).isDescriptor = false := rfl
@[simp] theorem headers_counts : (Handle.headers list).isDescriptor = false := rfl
@[simp] theorem interfaces_counts : (Handle.interfaces list).isDescriptor = false := rfl
@[simp] theorem memory_counts : (Handle.memory address).isDescriptor = false := rfl

-- socket's answer is none for -1; close(-1) gives nothing back.
def usesFd (socket : Option Nat) : List (Use Handle) := socket.toList.map fun fd => .use (.descriptor fd)
def closesFd (socket : Option Nat) : List (Use Handle) := socket.toList.map fun fd => .give (.descriptor fd)

def imUdpclientInit (socket : Option Nat) (setsockopt : Int) : Int × List (Use Handle) :=
  match socket with
  | none => (-1,[])
  | some fd => (setsockopt,[.take (.descriptor fd),.use (.descriptor fd)])

def imUdpSendmsg (msg : Option Bytes) (socket : Option Nat) (setsockopt sendto : Int) : Int × List (Use Handle) :=
  match msg with
  | none => (msgCodeUnknown,[])
  | some _ =>
    let init := imUdpclientInit socket setsockopt
    if init.1 ≠ msgCodeSucess then (msgCodeUnknown,init.2 ++ closesFd socket)
    else (if sendto < 0 then msgCodeUnknown else msgCodeSucess,init.2 ++ usesFd socket ++ closesFd socket)

def imGetLocalIpv4 (ifname localIp : Option Bytes) (socket : Option Nat) (ioctl : Option Bytes) :
    Int × Option Bytes × List (Use Handle) :=
  match ifname,localIp,socket with
  | some _,some _,some fd =>
    let ret := if ioctl.isSome then msgCodeSucess else msgCodeUnknown
    (ret,ioctl.or localIp,[.take (.descriptor fd),.use (.descriptor fd),.give (.descriptor fd)])
  | _,_,_ => (msgCodeUnknown,localIp,[])

-- A list of headers is named by its first node.
structure CurlAnswers where
  globalInit : Int
  easyInit : Option Nat
  firstHeader : Option Nat
  secondHeader : Option Nat
  perform : Int
  getinfo : Int
  retcode : Int

def imCurlInit (a : CurlAnswers) : Int × Option Nat × List (Use Handle) :=
  if a.globalInit ≠ 0 then (-1,none,[])
  else match a.easyInit with
    | none => (-1,none,[.take .curlGlobal])
    | some handle => (a.globalInit,some handle,[.take .curlGlobal,.take (.curl handle)])

def imCurlClean (curlhandle : Option Nat) : Int × List (Use Handle) :=
  match curlhandle with
  | none => (-1,[])
  | some handle => (0,[.give (.curl handle),.give .curlGlobal])

def imCurlPerform (a : CurlAnswers) (curlhandle : Option Nat) : Int × List (Use Handle) :=
  match curlhandle with
  | none => (-1,[])
  | some handle =>
    if a.perform ≠ 0 then (-1,[.use (.curl handle)])
    else (if a.getinfo = 0 ∧ a.retcode = 200 then 0 else -1,[.use (.curl handle),.use (.curl handle)])

-- Without memory for the second node the list is not found again.
def appended (a : CurlAnswers) : Option Nat × List (Use Handle) :=
  match a.firstHeader,a.secondHeader with
  | some list,some _ => (some list,[.take (.headers list)])
  | some list,none => (none,[.take (.headers list)])
  | none,some list => (some list,[.take (.headers list)])
  | none,none => (none,[])

-- The body goes through im_get_respone, in HttpClient.
def imCurlSendMsg (a : CurlAnswers) (curlhandle : Option Nat) (url postdata : Option Bytes) : Int × List (Use Handle) :=
  match curlhandle,url,postdata with
  | some handle,some _,some _ =>
    let headers := appended a
    let performed := imCurlPerform a curlhandle
    (performed.1,headers.2 ++ .use (.curl handle) :: performed.2 ++
      headers.1.toList.flatMap fun list => [.use (.headers list),.give (.headers list)])
  | _,_,_ => (-1,[])

def imHttpSendmsg (a : CurlAnswers) (url postdata : Option Bytes) : Int × List (Use Handle) :=
  match url,postdata with
  | some _,some _ =>
    let init := imCurlInit a
    let sent := if init.1 < 0 then (init.1,[]) else imCurlSendMsg a init.2.1 url postdata
    let clean := imCurlClean init.2.1
    (if clean.1 < 0 then -1 else sent.1,init.2.2 ++ sent.2 ++ clean.2)
  | _,_ => (msgCodeUnknown,[])

-- The list getifaddrs gives may be empty, a NULL that freeifaddrs leaves alone.
def imGetIfDbytesUses (ifiObytes : Bool) (ifaList : Option (Option Nat)) : List (Use Handle) :=
  match ifiObytes,ifaList with
  | true,some (some list) => [.take (.interfaces list),.use (.interfaces list),.give (.interfaces list)]
  | _,_ => []

-- String_Copy does not look at malloc's answer; the copy is the caller's.
def encodeToUTF8Uses (pwszBuffer pszOutputBuffer : Option Nat) (copy : Nat) : List (Use Handle) :=
  match pwszBuffer,pszOutputBuffer with
  | some wide,some out =>
    [.take (.memory wide),.take (.memory out),.use (.memory wide),.use (.memory out),.give (.memory wide),
      .take (.memory copy),.use (.memory out),.give (.memory out)]
  | some wide,none => [.take (.memory wide),.give (.memory wide),.take (.memory copy)]
  | none,_ => [.take (.memory copy)]

inductive SystemCall where
  | udp (msg : Option Bytes) (socket : Option Nat) (setsockopt sendto : Int)
  | ipv4 (ifname localIp : Option Bytes) (socket : Option Nat) (ioctl : Option Bytes)
  | http (answers : CurlAnswers) (url postdata : Option Bytes)
  | ifDbytes (ifiObytes : Bool) (ifaList : Option (Option Nat))
  | encode (pwszBuffer pszOutputBuffer : Option Nat) (copy : Nat)

def SystemCall.uses : SystemCall → List (Use Handle)
  | .udp msg socket setsockopt sendto => (imUdpSendmsg msg socket setsockopt sendto).2
  | .ipv4 ifname localIp socket ioctl => (imGetLocalIpv4 ifname localIp socket ioctl).2.2
  | .http answers url postdata => (imHttpSendmsg answers url postdata).2
  | .ifDbytes ifiObytes ifaList => imGetIfDbytesUses ifiObytes ifaList
  | .encode pwszBuffer pszOutputBuffer copy => encodeToUTF8Uses pwszBuffer pszOutputBuffer copy

-- What is never given back; no caller frees a text EncodeToUTF8 returned.
def CurlAnswers.strayed (a : CurlAnswers) : Multiset Handle :=
  match a.firstHeader,a.secondHeader with
  | some list,none => {.headers list}
  | _,_ => 0

def CurlAnswers.lost (a : CurlAnswers) : Multiset Handle :=
  if a.globalInit ≠ 0 then 0 else if a.easyInit.isNone then {.curlGlobal} else a.strayed

def SystemCall.lost : SystemCall → Multiset Handle
  | .http answers (some _) (some _) => answers.lost
  | .encode _ _ copy => {.memory copy}
  | .udp .. | .ipv4 .. | .http .. | .ifDbytes .. => 0

abbrev Runs (limit : Nat) (stock : Multiset Handle) (uses : List (Use Handle)) (left : Multiset Handle) : Prop :=
  Ran (fun handle : Handle => handle.isDescriptor = true) limit stock uses left

abbrev descriptors (stock : Multiset Handle) : Nat := stock.countP fun handle => handle.isDescriptor = true

theorem imUdpSendmsg_runs (msg : Option Bytes) (socket : Option Nat) (setsockopt sendto : Int) :
    Runs 1 0 (imUdpSendmsg msg socket setsockopt sendto).2 0 := by
  cases msg with
  | none => simp [imUdpSendmsg]
  | some msg =>
    cases socket with
    | none => simp [imUdpSendmsg,imUdpclientInit,closesFd,msgCodeSucess]
    | some fd =>
      unfold imUdpSendmsg imUdpclientInit
      dsimp only
      split
      · simp [closesFd]
      · simp [usesFd,closesFd]

theorem imGetLocalIpv4_runs (ifname localIp : Option Bytes) (socket : Option Nat) (ioctl : Option Bytes) :
    Runs 1 0 (imGetLocalIpv4 ifname localIp socket ioctl).2.2 0 := by
  unfold imGetLocalIpv4
  split
  · simp
  · simp

theorem imCurlPerform_runs (a : CurlAnswers) (owned : .curl handle ∈ stock) (few : descriptors stock ≤ limit) :
    Runs limit stock (imCurlPerform a (some handle)).2 stock := by
  unfold imCurlPerform
  dsimp only
  split <;> simpa [owned] using few

theorem imCurlSendMsg_runs (a : CurlAnswers) (url postdata : Bytes) (owned : .curl handle ∈ stock)
    (few : descriptors stock ≤ limit) :
    Runs limit stock (imCurlSendMsg a (some handle) (some url) (some postdata)).2 (a.strayed+stock) := by
  have performed (list : Nat) :
      Runs limit (.headers list ::ₘ stock) (imCurlPerform a (some handle)).2 (.headers list ::ₘ stock) :=
    imCurlPerform_runs a (Multiset.mem_cons_of_mem owned) (by simpa [descriptors] using few)
  have freed (list : Nat) :
      Runs limit (.headers list ::ₘ stock) [.use (.headers list),.give (.headers list)] stock := by
    simpa using few
  unfold imCurlSendMsg appended CurlAnswers.strayed
  cases a.firstHeader with
  | none =>
    cases a.secondHeader with
    | none => simpa [owned] using imCurlPerform_runs a owned few
    | some list => simpa [owned] using ⟨few,(performed list).append (freed list)⟩
  | some list =>
    cases a.secondHeader with
    | none => simpa [owned] using ⟨few,performed list⟩
    | some _ => simpa [owned] using ⟨few,(performed list).append (freed list)⟩

theorem CurlAnswers.strayed_uncounted (a : CurlAnswers) : descriptors a.strayed = 0 := by
  unfold CurlAnswers.strayed
  split <;> simp

theorem imHttpSendmsg_runs (a : CurlAnswers) (url postdata : Bytes) :
    Runs 1 0 (imHttpSendmsg a (some url) (some postdata)).2 a.lost := by
  unfold imHttpSendmsg imCurlInit CurlAnswers.lost
  dsimp only
  by_cases refused : a.globalInit ≠ 0
  · simp [refused,imCurlClean]
  rw [if_neg refused,if_neg refused]
  cases a.easyInit with
  | none => simp [imCurlClean]
  | some handle =>
    have success : ¬a.globalInit < 0 := by omega
    have sent : Runs 1 (.curl handle ::ₘ {.curlGlobal}) (imCurlSendMsg a (some handle) (some url) (some postdata)).2
        (a.strayed+(.curl handle ::ₘ {.curlGlobal})) :=
      imCurlSendMsg_runs a url postdata (Multiset.mem_cons_self _ _) (by simp)
    have cleaned : Runs 0 (.curl handle ::ₘ {.curlGlobal}) (imCurlClean (some handle)).2 0 := by simp [imCurlClean]
    have uncounted : Multiset.countP _ a.strayed = 0 := a.strayed_uncounted
    have around := cleaned.frame a.strayed
    rw [uncounted,zero_add a.strayed,add_comm _ a.strayed] at around
    have ended := sent.append (around.loosened (Nat.zero_le 1))
    simpa [success] using ended

theorem CurlAnswers.lost_uncounted (a : CurlAnswers) : descriptors a.lost = 0 := by
  unfold CurlAnswers.lost
  split
  · rfl
  · split
    · simp
    · exact a.strayed_uncounted

theorem SystemCall.lost_uncounted (call : SystemCall) : descriptors call.lost = 0 := by
  cases call with
  | udp => rfl
  | ipv4 => rfl
  | ifDbytes => rfl
  | encode => simp [SystemCall.lost]
  | http answers url postdata =>
    cases url with
    | none => rfl
    | some url =>
      cases postdata with
      | none => rfl
      | some postdata => exact answers.lost_uncounted

theorem SystemCall.runs (call : SystemCall) : Runs 1 0 call.uses call.lost := by
  cases call with
  | udp msg socket setsockopt sendto => exact imUdpSendmsg_runs msg socket setsockopt sendto
  | ipv4 ifname localIp socket ioctl => exact imGetLocalIpv4_runs ifname localIp socket ioctl
  | http answers url postdata =>
    cases url with
    | none => simp [SystemCall.uses,SystemCall.lost,imHttpSendmsg]
    | some url =>
      cases postdata with
      | none => simp [SystemCall.uses,SystemCall.lost,imHttpSendmsg]
      | some postdata => exact imHttpSendmsg_runs answers url postdata
  | ifDbytes ifiObytes ifaList =>
    simp only [SystemCall.uses,SystemCall.lost,imGetIfDbytesUses]
    split <;> simp
  | encode pwszBuffer pszOutputBuffer copy =>
    cases pwszBuffer with
    | none => simp [SystemCall.uses,SystemCall.lost,encodeToUTF8Uses]
    | some wide =>
      cases pszOutputBuffer with
      | none => simp [SystemCall.uses,SystemCall.lost,encodeToUTF8Uses]
      | some out =>
        have wideHeld : Handle.memory wide ∈ ({.memory wide} : Multiset Handle) := Multiset.mem_singleton_self _
        have outHeld : Handle.memory out ∈ ({.memory out} : Multiset Handle) := Multiset.mem_singleton_self _
        simp [SystemCall.uses,SystemCall.lost,encodeToUTF8Uses,Multiset.erase_cons_tail_of_mem wideHeld,
          Multiset.erase_cons_tail_of_mem outHeld]

def lostBy (calls : List SystemCall) : Multiset Handle := (calls.map SystemCall.lost).sum

theorem SystemCall.runs_within (call : SystemCall) (few : descriptors stock < limit) :
    Runs limit stock call.uses (stock+call.lost) := by
  have framed := call.runs.frame stock
  rw [zero_add,add_comm call.lost] at framed
  exact framed.loosened (by rw [Nat.add_comm]; exact few)

theorem calls_run (calls : List SystemCall) (few : descriptors stock < limit) :
    Runs limit stock (calls.flatMap SystemCall.uses) (stock+lostBy calls) :=
  Ran.all (Nat.le_of_lt few) calls SystemCall.uses SystemCall.lost
    fun call _ => ⟨call.runs_within few,call.lost_uncounted⟩

-- EINTR is positive: accept's error never equals it.
def eintr : Int := 4

-- handled are the calls the message leads to, none its reply.
structure Client where
  acceptSocket : Int
  ret : Int
  pMsg : Nat
  handled : List (Option SystemCall)

def Client.calls (c : Client) : List SystemCall := if c.acceptSocket < 0 ∨ c.ret < 0 then [] else c.handled.filterMap id

-- With some where main returns.
def Client.turn (serverSocket : Nat) (c : Client) : Option Int × List (Use Handle) :=
  if c.acceptSocket < 0 then
    (if c.acceptSocket = eintr then none else some (-1),[.use (.descriptor serverSocket)])
  else
    let accepted := Handle.descriptor c.acceptSocket.toNat
    let received := [.use (.descriptor serverSocket),.take accepted,.use accepted]
    if c.ret < 0 then (none,received ++ [.give accepted])
    else (none,received ++ [.take (.memory c.pMsg),.use (.memory c.pMsg)] ++
      c.handled.flatMap (fun call => call.elim [.use accepted] SystemCall.uses) ++
      [.give (.memory c.pMsg),.give accepted])

def serve (serverSocket : Nat) : List Client → Option Int × List (Use Handle)
  | [] => (none,[])
  | c :: rest =>
    let turn := c.turn serverSocket
    if turn.1.isSome then turn
    else
      let later := serve serverSocket rest
      (later.1,turn.2 ++ later.2)

-- im_check_internet_connect's loop, and the one im_start_login_cloud begins with.
def untilFound (ifname : Bytes) : List (Option Nat × Option Bytes) → Bool × List (Use Handle)
  | [] => (false,[])
  | (socket,ioctl) :: rest =>
    let asked := imGetLocalIpv4 (some ifname) (some []) socket ioctl
    if asked.1 = msgCodeSucess then (true,asked.2.2)
    else
      let later := untilFound ifname rest
      (later.1,asked.2.2 ++ later.2)

def lanIfname : Bytes := bytes "br-lan"

-- begun are the calls of im_cloud_login and of im_isacc_init.
structure Process where
  wan : List (Option Nat × Option Bytes)
  lan : List (Option Nat × Option Bytes)
  begun : List SystemCall
  serverSocket : Int
  clients : List Client

def Process.main (p : Process) : Option Int × List (Use Handle) :=
  let checked := untilFound wanIfname p.wan
  if !checked.1 then (none,checked.2)
  else
    let login := untilFound lanIfname p.lan
    if !login.1 then (none,checked.2 ++ login.2)
    else
      let started := checked.2 ++ login.2 ++ p.begun.flatMap SystemCall.uses
      if p.serverSocket < 0 then (some (-1),started)
      else
        let served := serve p.serverSocket.toNat p.clients
        (served.1,started ++ .take (.descriptor p.serverSocket.toNat) :: served.2)

def acceptedClients (clients : List Client) : List Client := clients.takeWhile fun c => 0 ≤ c.acceptSocket

def Process.calls (p : Process) : List SystemCall :=
  if (untilFound wanIfname p.wan).1 && (untilFound lanIfname p.lan).1 then
    p.begun ++ if p.serverSocket < 0 then [] else (acceptedClients p.clients).flatMap Client.calls
  else []

-- main closes its own socket nowhere.
def Process.left (p : Process) : Multiset Handle :=
  lostBy p.calls +
    if (untilFound wanIfname p.wan).1 ∧ (untilFound lanIfname p.lan).1 ∧ 0 ≤ p.serverSocket then
      {.descriptor p.serverSocket.toNat}
    else 0

theorem lostBy_append (calls more : List SystemCall) : lostBy (calls ++ more) = lostBy calls+lostBy more := by
  rw [lostBy,List.map_append,List.sum_append]
  rfl

theorem lostBy_uncounted (calls : List SystemCall) : descriptors (lostBy calls) = 0 := by
  induction calls with
  | nil => rfl
  | cons call rest ih =>
    rw [lostBy,List.map_cons,List.sum_cons,descriptors,Multiset.countP_add,← descriptors,← descriptors,
      call.lost_uncounted,← lostBy,ih]

theorem untilFound_runs (ifname : Bytes) (attempts : List (Option Nat × Option Bytes)) :
    Runs 1 0 (untilFound ifname attempts).2 0 := by
  induction attempts with
  | nil => simp [untilFound]
  | cons attempt rest ih =>
    have asked := imGetLocalIpv4_runs (some ifname) (some []) attempt.1 attempt.2
    rw [untilFound]
    dsimp only
    split
    · exact asked
    · exact asked.append ih

theorem handled_runs (handled : List (Option SystemCall)) (owned : .descriptor fd ∈ stock)
    (few : descriptors stock < limit) :
    Runs limit stock (handled.flatMap fun call => call.elim [.use (.descriptor fd)] SystemCall.uses)
      (stock+lostBy (handled.filterMap id)) := by
  have each (call : Option SystemCall) : Runs limit stock (call.elim [.use (.descriptor fd)] SystemCall.uses)
      (stock+call.elim 0 SystemCall.lost) ∧ descriptors (call.elim 0 SystemCall.lost) = 0 := by
    cases call with
    | none => exact ⟨by simpa [owned] using Nat.le_of_lt few,rfl⟩
    | some call => exact ⟨call.runs_within few,call.lost_uncounted⟩
  have ran := Ran.all (Nat.le_of_lt few) handled (fun call => call.elim [.use (.descriptor fd)] SystemCall.uses)
    (fun call => call.elim 0 SystemCall.lost) fun call _ => each call
  have same : (handled.map fun call => call.elim 0 SystemCall.lost).sum = lostBy (handled.filterMap id) := by
    clear each ran
    induction handled with
    | nil => rfl
    | cons call rest ih =>
      rw [List.map_cons,List.sum_cons,ih]
      cases call with
      | none => exact zero_add _
      | some call => rfl
  rwa [same] at ran

theorem Client.turn_runs (c : Client) (owned : .descriptor serverSocket ∈ stock) (few : descriptors stock+2 ≤ limit) :
    Runs limit stock (c.turn serverSocket).2 (stock+lostBy c.calls) := by
  unfold descriptors at few
  unfold Client.turn Client.calls
  by_cases failed : c.acceptSocket < 0
  · have none : c.acceptSocket < 0 ∨ c.ret < 0 := .inl failed
    rw [if_pos failed,if_pos none]
    simp [owned,lostBy]
    omega
  rw [if_neg failed]
  generalize c.acceptSocket.toNat = fd
  have opened : Runs limit stock [.use (.descriptor serverSocket),.take (.descriptor fd),.use (.descriptor fd)]
      (.descriptor fd ::ₘ stock) := by
    simp [owned,Multiset.countP_cons]
    omega
  dsimp only
  by_cases broken : c.ret < 0
  · have none : c.acceptSocket < 0 ∨ c.ret < 0 := .inr broken
    rw [if_pos broken,if_pos none]
    refine opened.append ?_
    simp [lostBy,Multiset.countP_cons]
    omega
  · rw [if_neg broken,if_neg (not_or.mpr ⟨failed,broken⟩)]
    have received : Runs limit (.descriptor fd ::ₘ stock) [.take (.memory c.pMsg),.use (.memory c.pMsg)]
        (.memory c.pMsg ::ₘ .descriptor fd ::ₘ stock) := by
      simp [Multiset.countP_cons]
      omega
    have room : descriptors (.memory c.pMsg ::ₘ .descriptor fd ::ₘ stock) < limit := by
      simp [descriptors,Multiset.countP_cons]
      omega
    have handled := handled_runs c.handled (Multiset.mem_cons_of_mem (Multiset.mem_cons_self _ _)) room
    have closed (lost : Multiset Handle) (uncounted : lost.countP (fun handle => handle.isDescriptor = true) = 0) :
        Runs limit (.memory c.pMsg ::ₘ .descriptor fd ::ₘ stock+lost)
          [.give (.memory c.pMsg),.give (.descriptor fd)] (stock+lost) := by
      simp [uncounted,Multiset.countP_cons]
      omega
    exact ((opened.append received).append handled).append (closed _ (lostBy_uncounted _))

theorem serve_runs (clients : List Client) (owned : .descriptor serverSocket ∈ stock) (few : descriptors stock+2 ≤ limit) :
    Runs limit stock (serve serverSocket clients).2 (stock+lostBy ((acceptedClients clients).flatMap Client.calls)) := by
  induction clients generalizing stock with
  | nil =>
    have room : descriptors stock ≤ limit := by omega
    simpa [serve,acceptedClients,lostBy] using room
  | cons c rest ih =>
    have turned := c.turn_runs owned few
    have more : descriptors (stock+lostBy c.calls)+2 ≤ limit := by
      rw [descriptors,Multiset.countP_add,← descriptors,← descriptors,lostBy_uncounted]
      exact few
    have later := ih (Multiset.mem_add.mpr (.inl owned)) more
    rw [add_assoc,← lostBy_append] at later
    rw [serve,acceptedClients,List.takeWhile_cons]
    by_cases failed : c.acceptSocket < 0
    · have refused : c.calls = [] := if_pos (.inl failed)
      have returned : (c.turn serverSocket).1 = some (-1) := by
        have other : c.acceptSocket ≠ eintr := by unfold eintr; omega
        simp [Client.turn,failed,other]
      have negative : ¬0 ≤ c.acceptSocket := by omega
      rw [refused] at turned
      simpa [returned,negative] using turned
    · have going : (c.turn serverSocket).1 = none := by
        unfold Client.turn
        rw [if_neg failed]
        dsimp only
        split <;> rfl
      have positive : 0 ≤ c.acceptSocket := by omega
      simpa [going,positive,acceptedClients] using turned.append later

theorem Process.main_runs (p : Process) : Runs 3 0 p.main.2 p.left := by
  have checked := (untilFound_runs wanIfname p.wan).loosened (show 1 ≤ 3 by decide)
  have login := (untilFound_runs lanIfname p.lan).loosened (show 1 ≤ 3 by decide)
  unfold Process.main Process.left Process.calls
  dsimp only
  by_cases connected : (untilFound wanIfname p.wan).1 = true
  · by_cases addressed : (untilFound lanIfname p.lan).1 = true
    · have begun := calls_run p.begun (show descriptors 0 < 3 by decide)
      have started := (checked.append login).append begun
      rw [zero_add] at started
      by_cases failed : p.serverSocket < 0
      · have negative : ¬0 ≤ p.serverSocket := by omega
        simpa [connected,addressed,failed,negative] using started
      · have uncounted : Multiset.countP _ (lostBy p.begun) = 0 := lostBy_uncounted p.begun
        have opened : Runs 3 (lostBy p.begun) [.take (.descriptor p.serverSocket.toNat)]
            (.descriptor p.serverSocket.toNat ::ₘ lostBy p.begun) := by
          simp [uncounted,Multiset.countP_cons]
        have room : descriptors (.descriptor p.serverSocket.toNat ::ₘ lostBy p.begun)+2 ≤ 3 := by
          simp [descriptors,uncounted,Multiset.countP_cons]
        have served := serve_runs p.clients (Multiset.mem_cons_self _ _) room
        have positive : 0 ≤ p.serverSocket := by omega
        have ended := (started.append opened).append served
        rw [Multiset.cons_add,← lostBy_append,← Multiset.singleton_add,add_comm] at ended
        simpa [connected,addressed,failed,positive] using ended
    · simpa [connected,addressed,lostBy] using checked.append login
  · simpa [connected,lostBy] using checked

def Process.account (p : Process) : Account Handle := ⟨p.main.2,3,p.left⟩
def threadAccount (calls : List SystemCall) : Account Handle := ⟨calls.flatMap SystemCall.uses,1,lostBy calls⟩

-- In any order of their steps: what is left is main's socket and what the calls lose, and
-- never are more descriptors open than three and one for each thread.
theorem handles_exact (p : Process) (threads : List (List SystemCall))
    (interleaves : Interleaves (byThreads 0 (p.account :: threads.map threadAccount)) trace) :
    held 0 trace = some (leftByThreads 0 (p.account :: threads.map threadAccount)) ∧
    ∀ before behind, trace = before ++ behind →
      ∃ now, held 0 before = some now ∧ (now.countP fun handle => handle.2.isDescriptor = true) ≤ 3+threads.length := by
  have each (account : Account Handle) (member : account ∈ p.account :: threads.map threadAccount) :
      Runs account.limit 0 account.uses account.left := by
    rcases List.mem_cons.mp member with rfl | other
    · exact p.main_runs
    · obtain ⟨calls,_,rfl⟩ := List.mem_map.mp other
      have ran := calls_run calls (show descriptors 0 < 1 by decide)
      rwa [zero_add] at ran
  have ran := interleaves_ran _ each interleaves
  have limits : ((p.account :: threads.map threadAccount).map Account.limit).sum = 3+threads.length := by
    simp [Process.account,threadAccount,Function.comp_def]
  rw [limits] at ran
  refine ⟨ran.held,?_⟩
  rintro before behind rfl
  exact ran.now

def wanTwice : List (Option Nat × Option Bytes) := [(some 3,none),(some 3,some (bytes "10.0.0.1"))]
def answered : CurlAnswers := ⟨0,some 1,some 1,some 2,0,0,200⟩
def announced : SystemCall := .udp (some (bytes "notice")) (some 6) 0 6

def visited : Process :=
  ⟨wanTwice,[(some 3,some (bytes "192.168.1.1"))],[.http answered (some []) (some [])],3,
    [⟨5,20,1,[some announced,none]⟩,⟨-1,0,0,[]⟩]⟩

def beside : List (List SystemCall) :=
  [[.encode (some 2) (some 3) 4,announced],[.http {answered with secondHeader := none} (some []) (some [])]]

theorem handles_visited : ∃ trace, Interleaves (byThreads 0 (visited.account :: beside.map threadAccount)) trace ∧
    held 0 trace = some {(0,.descriptor 3),(1,.memory 4),(2,.headers 1)} := by
  have interleaves := interleaves_flatten (byThreads 0 (visited.account :: beside.map threadAccount))
  refine ⟨_,interleaves,(handles_exact visited beside interleaves).1.trans ?_⟩
  decide

end ImAcc
