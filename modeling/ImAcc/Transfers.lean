import ImAcc.Lib.JsonStream
import ImAcc.Descriptors
import ImAcc.Operations

-- im_http_sendmsg with its callback, and json_tokener_parse on the buffer.
namespace ImAcc
open JsonC JsonText

structure Transfer where
  answers : CurlAnswers
  chunks : List Chunk
  stack : MsgHeader

def Transfer.delivered (t : Transfer) : List Chunk :=
  if t.answers.globalInit ≠ 0 ∨ t.answers.easyInit = none then [] else t.chunks

section
variable (jsonTokenerParse : Bytes → Option Json)

-- none is undefined: a chunk without an end, or a body the caller's buffer does not hold.
def Transfer.exchange (url msg : Bytes) (t : Transfer) : Option Exchange :=
  (gathered [] t.delivered).bind fun (httpresp,_) =>
    if httpresp.length < httprespSize then
      some ⟨(imHttpSendmsg t.answers (some url) (some msg)).1,jsonTokenerParse (cString httpresp),t.stack⟩
    else none

def Transfer.undivided (reply : Bytes) (t : Transfer) : Exchange := ⟨msgCodeSucess,jsonTokenerParse reply,t.stack⟩

-- Login alone asks for the result of im_http_sendmsg.
def TakesWhole (t : Transfer) (reply : Bytes) (ex : Exchange) : Prop :=
  ex.body = jsonTokenerParse reply ∧
    ∀ (op : CloudOp) d header, op ≠ .login → op.run d header ex = op.run d header (t.undivided jsonTokenerParse reply)

end

variable {jsonTokenerParse : Bytes → Option Json}

def TakesNothing (ex : Exchange) : Prop := ∀ (op : CloudOp) d header, op ≠ .login → op ≠ .heartbeat →
  (op.run d header ex).daemon.records = d.records ∧ (op.run d header ex).ret = msgCodeFormatErr

theorem run_unsent (op : CloudOp) (d : Daemon) (header : MsgHeader) (ex : Exchange) (login : op ≠ .login) :
    op.run d header ex = op.run d header ⟨msgCodeSucess,ex.body,ex.stack⟩ := by
  cases op with
  | login => exact absurd rfl login
  | _ => rfl

-- Login and heartbeat read a header that was never filled.
theorem run_unread (nothing : ex.body = none) : TakesNothing ex := by
  intro op d header login heartbeat
  have exchange (msg : Bytes) (header : MsgHeader) : (imCloudExchange d msg header ex).daemon.records = d.records ∧
      (imCloudExchange d msg header ex).ret = msgCodeFormatErr := by
    rw [imCloudExchange,nothing]
    exact ⟨rfl,rfl⟩
  cases op with
  | login => exact absurd rfl login
  | heartbeat => exact absurd rfl heartbeat
  | _ => exact exchange _ _

theorem exchange_gathered (url msg : Bytes) {t : Transfer} (got : gathered [] t.delivered = some (text,all))
    (short : text.length < httprespSize) :
    ∃ ex, t.exchange jsonTokenerParse url msg = some ex ∧ ex.body = jsonTokenerParse (cString text) ∧ ex.stack = t.stack := by
  refine ⟨⟨(imHttpSendmsg t.answers (some url) (some msg)).1,jsonTokenerParse (cString text),t.stack⟩,?_,rfl,rfl⟩
  rw [Transfer.exchange,got,Option.bind_some]
  exact if_pos short

theorem takes_whole {t : Transfer} (body : ex.body = jsonTokenerParse reply) (stack : ex.stack = t.stack) :
    TakesWhole jsonTokenerParse t reply ex := by
  refine ⟨body,fun op d header login => ?_⟩
  rw [run_unsent op d header ex login,body,stack]
  rfl

-- A reply is taken whole or not at all, wherever the transfer broke off.
theorem reply_atomic (tokener : Tokener jsonTokenerParse) (whole : read reply = some (.object members))
    (clean : (0 : UInt8) ∉ reply) (short : reply.length < httprespSize) (url msg : Bytes) :
    (∀ (t : Transfer) missing, (∀ c ∈ t.delivered, c.ended = true) → bodyOf t.delivered ++ missing = reply →
      ∃ ex, t.exchange jsonTokenerParse url msg = some ex ∧
        if missing.all isBlank then TakesWhole jsonTokenerParse t reply ex else TakesNothing ex) ∧
    ∀ (t : Transfer) before c, StopsAt t.delivered before c → (0 : UInt8) ∈ c.beyond → bodyOf before ++ c.data = reply →
      (reply ++ cString c.beyond).length < httprespSize → ((cString c.beyond).dropWhile Json.isSpace).head? ≠ some 47 →
      ∃ ex, t.exchange jsonTokenerParse url msg = some ex ∧ TakesWhole jsonTokenerParse t reply ex := by
  constructor
  · rintro t missing ended rfl
    have inside : Clean t.delivered := by
      intro c member nul
      exact clean (List.mem_append_left _ (List.mem_flatMap.mpr ⟨c,member,nul⟩))
    have room : (bodyOf t.delivered).length < httprespSize := by
      rw [List.length_append] at short
      omega
    obtain ⟨ex,exchanged,body,stack⟩ := exchange_gathered url msg (gathered_all inside ended) room
    refine ⟨ex,exchanged,?_⟩
    rw [cString_whole fun nul => clean (List.mem_append_left _ nul),tokener.cut whole rfl] at body
    split
    · rename_i blank
      rw [if_pos blank] at body
      exact takes_whole body stack
    · rename_i more
      rw [if_neg more] at body
      exact run_unread body
  · rintro t before c stops later rfl room other
    obtain ⟨⟨unread,chunks⟩,ended,unended⟩ := stops
    have inside : Clean before := by
      intro b member nul
      exact clean (List.mem_append_left _ (List.mem_flatMap.mpr ⟨b,member,nul⟩))
    have got : gathered [] t.delivered = some (bodyOf before ++ c.data ++ cString c.beyond,false) := by
      rw [chunks,gathered_before inside ended,List.nil_append,
        gathered_unended (fun nul => clean (List.mem_append_right _ nul)) unended,if_pos later]
    obtain ⟨ex,exchanged,body,stack⟩ := exchange_gathered url msg got room
    refine ⟨ex,exchanged,takes_whole ?_ stack⟩
    have ended : (0 : UInt8) ∉ cString c.beyond := fun nul => by simpa using List.mem_takeWhile_imp nul
    rw [body,cString_clean clean,cString_whole ended,tokener.more whole rfl other]

-- One reply in a first chunk only, and in a chunk that an A follows.
def numbered : Bytes := bytes "\x7b\"header\":1\x7d"
def brokenOff : Transfer := ⟨answered,[⟨bytes "\x7b\"header\"",[0]⟩],default⟩
def followed : Transfer := ⟨answered,[⟨numbered,[65,0]⟩],default⟩

theorem reply_atomic_two :
    let parse (text : Bytes) := (firstValue text).map (Value.json fun _ => 0)
    (∃ ex, brokenOff.exchange parse [] [] = some ex ∧ (CloudOp.startaac.run booted.daemon default ex).ret = msgCodeFormatErr) ∧
    ∃ ex, followed.exchange parse [] [] = some ex ∧ ex.body = some (.object [(bytes "header",.int 1)]) := by
  intro parse
  have whole : read numbered = some (.object [(bytes "header",.number [49])]) := by rfl
  have atomic := reply_atomic (firstValue_tokener fun _ => 0) whole (by decide) (by decide) [] []
  obtain ⟨ex,exchanged,cut⟩ := atomic.1 brokenOff (bytes ":1\x7d") (by decide) (by decide)
  obtain ⟨ex',exchanged',body,_⟩ :=
    atomic.2 followed [] ⟨numbered,[65,0]⟩ ⟨⟨[],rfl⟩,nofun,rfl⟩ (by decide) (by decide) (by decide) (by decide)
  rw [if_neg (by decide)] at cut
  exact ⟨⟨ex,exchanged,(cut .startaac booted.daemon default (by decide) (by decide)).2⟩,⟨ex',exchanged',body.trans rfl⟩⟩

end ImAcc
