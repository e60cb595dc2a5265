import ImAcc.Lib.Json

-- im_httpclient.c: a chunk is its bytes in memory and what readable memory follows them.
namespace ImAcc
open JsonC

-- none is a string that runs out of the readable memory.
def strlen (memory : Bytes) : Option Nat := if (0 : UInt8) ∈ memory then some (cString memory).length else none

-- size and nmemb are not read. The buffer is the text it holds before its NUL.
def imGetRespone (ptr : Bytes) (stream : Option Bytes) : Option (Option Bytes × Nat) :=
  (strlen ptr).map fun len => match stream with
    | some httpresp => (some (httpresp ++ cString ptr),len)
    | none => (none,1)

structure Chunk where
  data : Bytes
  beyond : Bytes

def Chunk.ptr (c : Chunk) : Bytes := c.data ++ c.beyond

def Chunk.ended (c : Chunk) : Bool := c.beyond.head? = some 0

def bodyOf (chunks : List Chunk) : Bytes := chunks.flatMap Chunk.data

-- libcurl gives up where the callback returns anything but the chunk's length.
def gathered : Bytes → List Chunk → Option (Bytes × Bool)
  | httpresp,[] => some (httpresp,true)
  | httpresp,c :: rest => (imGetRespone c.ptr (some httpresp)).bind fun (stream,len) =>
    if len = c.data.length then gathered (stream.getD []) rest else some (stream.getD [],false)

def httprespSize : Nat := 1024

def Reassembled (chunks : List Chunk) : Prop :=
  if (bodyOf chunks).length < httprespSize then gathered [] chunks = some (bodyOf chunks,true)
  else ∃ got, gathered [] chunks = some got ∧ got.1.length < httprespSize

theorem gathered_ended (clean : (0 : UInt8) ∉ c.data) (ended : c.ended = true) (httpresp : Bytes) (rest : List Chunk) :
    gathered httpresp (c :: rest) = gathered (httpresp ++ c.data) rest := by
  obtain ⟨data,beyond⟩ := c
  have head : beyond.head? = some 0 := of_decide_eq_true ended
  obtain ⟨others,rfl⟩ : ∃ others, beyond = 0 :: others := by
    cases beyond with
    | nil => cases head
    | cons b others => cases head; exact ⟨others,rfl⟩
  have text : cString (data ++ 0 :: others) = data := by
    rw [cString_clean clean]
    exact List.append_nil data
  have here : (0 : UInt8) ∈ data ++ 0 :: others := List.mem_append_right _ List.mem_cons_self
  rw [gathered,imGetRespone,Chunk.ptr,strlen,if_pos here,text]
  exact if_pos rfl

-- Bytes behind the chunk are taken for part of it, and the transfer ends.
theorem gathered_unended (clean : (0 : UInt8) ∉ c.data) (unended : c.ended = false) (httpresp : Bytes) (rest : List Chunk) :
    gathered httpresp (c :: rest) =
      if (0 : UInt8) ∈ c.beyond then some (httpresp ++ c.data ++ cString c.beyond,false) else none := by
  obtain ⟨data,beyond⟩ := c
  have head : beyond.head? ≠ some 0 := of_decide_eq_false unended
  rw [gathered,imGetRespone,Chunk.ptr,strlen,cString_clean clean]
  by_cases later : (0 : UInt8) ∈ beyond
  · have more : (data ++ cString beyond).length ≠ data.length := by
      cases beyond with
      | nil => cases later
      | cons b others =>
        have other : b ≠ 0 := fun same => head (congrArg some same)
        rw [cString,List.takeWhile_cons_of_pos (by simpa using other),List.length_append,List.length_cons]
        omega
    rw [if_pos (List.mem_append_right _ later),if_pos later]
    refine (if_neg more).trans ?_
    rw [List.append_assoc]
    rfl
  · rw [if_neg fun member => (List.mem_append.mp member).elim clean later,if_neg later]
    rfl

def Clean (chunks : List Chunk) : Prop := ∀ c ∈ chunks, (0 : UInt8) ∉ c.data

instance (chunks : List Chunk) : Decidable (Clean chunks) :=
  inferInstanceAs (Decidable (∀ c ∈ chunks, (0 : UInt8) ∉ c.data))

theorem gathered_before (clean : Clean before) (ended : ∀ c ∈ before, Chunk.ended c = true) (httpresp : Bytes)
    (rest : List Chunk) : gathered httpresp (before ++ rest) = gathered (httpresp ++ bodyOf before) rest := by
  induction before generalizing httpresp with
  | nil => rw [bodyOf,List.flatMap_nil,List.append_nil,List.nil_append]
  | cons c others ih =>
    obtain ⟨first,later⟩ := List.forall_mem_cons.mp clean
    obtain ⟨here,after⟩ := List.forall_mem_cons.mp ended
    rw [List.cons_append,gathered_ended first here,ih later after,bodyOf,bodyOf,List.flatMap_cons,List.append_assoc]

def StopsAt (chunks : List Chunk) (before : List Chunk) (c : Chunk) : Prop :=
  (∃ after, chunks = before ++ c :: after) ∧ (∀ b ∈ before, b.ended = true) ∧ c.ended = false

theorem ended_or_stops (chunks : List Chunk) :
    (∀ c ∈ chunks, c.ended = true) ∨ ∃ before c, StopsAt chunks before c := by
  induction chunks with
  | nil => exact .inl nofun
  | cons c rest ih =>
    cases here : c.ended with
    | false => exact .inr ⟨[],c,⟨rest,rfl⟩,nofun,here⟩
    | true =>
      rcases ih with all | ⟨before,d,⟨after,rfl⟩,ended,stops⟩
      · exact .inl (List.forall_mem_cons.mpr ⟨here,all⟩)
      · exact .inr ⟨c :: before,d,⟨after,rfl⟩,List.forall_mem_cons.mpr ⟨here,ended⟩,stops⟩

theorem gathered_stops (clean : Clean chunks) (stops : StopsAt chunks before c) : gathered [] chunks =
    if (0 : UInt8) ∈ c.beyond then some (bodyOf before ++ c.data ++ cString c.beyond,false) else none := by
  obtain ⟨⟨after,rfl⟩,ended,unended⟩ := stops
  have first : Clean before := fun b member => clean b (List.mem_append_left _ member)
  have here := clean c (List.mem_append_right _ List.mem_cons_self)
  rw [gathered_before first ended,List.nil_append,gathered_unended here unended]

theorem gathered_all (clean : Clean chunks) (ended : ∀ c ∈ chunks, Chunk.ended c = true) :
    gathered [] chunks = some (bodyOf chunks,true) := by
  have all := gathered_before clean ended [] []
  rwa [List.append_nil,List.nil_append] at all

-- A short body is reassembled exactly if a NUL follows every chunk; a long one stays
-- in the buffer exactly if some chunk without one ends the transfer in time.
theorem reassembled_exact (clean : Clean chunks) : Reassembled chunks ↔
    if (bodyOf chunks).length < httprespSize then ∀ c ∈ chunks, c.ended = true
    else ∃ before c, StopsAt chunks before c ∧ (0 : UInt8) ∈ c.beyond ∧
      (bodyOf before).length+c.data.length+(cString c.beyond).length < httprespSize := by
  unfold Reassembled
  split
  · constructor
    · intro whole
      rcases ended_or_stops chunks with all | ⟨before,c,stops⟩
      · exact all
      · rw [gathered_stops clean stops] at whole
        split at whole
        · cases congrArg Prod.snd (Option.some.inj whole)
        · cases whole
    · exact gathered_all clean
  · rename_i long
    constructor
    · rintro ⟨got,result,within⟩
      rcases ended_or_stops chunks with all | ⟨before,c,stops⟩
      · rw [gathered_all clean all] at result
        cases result
        exact absurd within long
      · rw [gathered_stops clean stops] at result
        split at result
        · rename_i later
          cases result
          refine ⟨before,c,stops,later,?_⟩
          rwa [List.length_append,List.length_append] at within
        · cases result
    · rintro ⟨before,c,stops,later,within⟩
      refine ⟨_,(gathered_stops clean stops).trans (if_pos later),?_⟩
      rwa [List.length_append,List.length_append]

theorem reassembled_two : Reassembled [⟨bytes "\x7b\"header\"",[0]⟩,⟨bytes ":1\x7d",[0,65]⟩] :=
  (reassembled_exact (by decide)).mpr (by rw [if_pos (by decide)]; decide)

-- The last chunk's neighbour in memory is not a NUL: the transfer is given up.
theorem reassembled_neighbour : ¬ ∀ chunks, Clean chunks → Reassembled chunks := by
  intro always
  have whole := always [⟨bytes "\x7b\x7d",[65,0]⟩] (by decide)
  unfold Reassembled at whole
  rw [if_pos (by decide)] at whole
  exact absurd (congrArg (Option.map Prod.snd) whole) (by decide)

end ImAcc
