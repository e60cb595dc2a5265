import ImAcc.Counted

-- Who owns which reference while a message is handled.
namespace ImAcc.Counted
open JsonC RefCount

def Owned (handling : Handling Unit) : Prop := ∃ h, handling [] = .ok ((),h)

def Bare (text : Json) : Prop :=
  ∀ jsonHeader ∈ text.objectGet (jasonKey .header), ∀ key ∈ headerKeys, supplied (some jsonHeader) key = none

theorem bind_ok {x : Handling α} {f : α → Handling β} (ran : x h = .ok (a,g)) : (x >>= f) h = f a g := by
  change (x h).bind (fun p => f p.1 p.2) = _
  rw [ran]
  rfl

theorem bind_error {x : Handling α} {f : α → Handling β} (failed : x h = .error v) : (x >>= f) h = .error v := by
  change (x h).bind (fun p => f p.1 p.2) = _
  rw [failed]
  rfl

theorem objectGet_ok (read : memberOf h a key = p) : objectGet a key h = .ok (p,h) := by
  rw [objectGet,read]

theorem tokenerParse_ok (root : (load text g).1 = p) : tokenerParse (some text) g = .ok (p,(load text g).2) := by
  change Except.ok (load text g) = _
  rw [← root]

theorem imJsonGet_absent (absent : memberOf h obj (jasonKey key) = none) :
    imJsonGet (some obj) key h = .ok (msgCodeFormatErr,h) := by
  unfold imJsonGet
  exact (bind_ok (objectGet_ok absent)).trans rfl

theorem imJsonGetAll_absent (keys : List JsonImCmd) (ret : Int)
    (absent : ∀ key ∈ keys, memberOf h obj (jasonKey key) = none) :
    imJsonGetAll (some obj) keys ret h = .ok ((keys.map fun _ => msgCodeFormatErr).foldl orInto ret,h) := by
  induction keys generalizing ret with
  | nil => rfl
  | cons key rest ih =>
    rw [imJsonGetAll,bind_ok (imJsonGet_absent (absent key (by simp)))]
    exact ih _ fun other member => absent other (by simp [member])

structure Fresh (h : Objects) : Prop where
  once : ∀ (a : Nat) (c : Cell Node), h[a]? = some c → c.count = 1
  layered : Layered Node.refs h

theorem imJsonGet_present (fresh : Fresh h) (found : memberOf h obj (jasonKey key) = some b) :
    ∃ v, imJsonGet (some obj) key h = .error v := by
  obtain ⟨d,parent,holds⟩ := memberOf_ref found
  have inside : b < h.length :=
    Nat.lt_trans (fresh.layered obj d parent b holds) (List.getElem?_eq_some_iff.mp parent).1
  have here : h[b]? = some h[b] := List.getElem?_eq_getElem inside
  have last : countAt h b = 1 := (countAt_of here).trans (fresh.once b _ here)
  obtain ⟨v,failed⟩ := put_held fresh.layered parent (by rw [fresh.once obj d parent]; decide) holds last
  refine ⟨v,?_⟩
  unfold imJsonGet
  refine (bind_ok (objectGet_ok found)).trans (bind_error ?_)
  change (put Node.refs b h).map _ = _
  rw [failed]
  rfl

theorem imJsonGetAll_present (keys : List JsonImCmd) (ret : Int) (fresh : Fresh h)
    (present : ∃ key ∈ keys, memberOf h obj (jasonKey key) ≠ none) : ∃ v, imJsonGetAll (some obj) keys ret h = .error v := by
  induction keys generalizing ret with
  | nil => obtain ⟨_,member,_⟩ := present; cases member
  | cons key rest ih =>
    rw [imJsonGetAll]
    cases found : memberOf h obj (jasonKey key) with
    | some b =>
      obtain ⟨v,failed⟩ := imJsonGet_present fresh found
      exact ⟨v,bind_error failed⟩
    | none =>
      rw [bind_ok (imJsonGet_absent found)]
      refine ih _ ?_
      obtain ⟨other,member,holds⟩ := present
      rcases List.mem_cons.mp member with same | later
      · subst same; exact absurd found holds
      · exact ⟨other,later,holds⟩

theorem load_fresh (text : Json) : Fresh (load text []).2 := by
  have loaded := load_loaded text []
  obtain ⟨fresh,grown,once⟩ := loaded.grown
  refine ⟨fun a c found => once c ?_,loaded.layered nofun⟩
  rw [grown,List.nil_append] at found
  exact List.mem_of_getElem? found

theorem holds_load (text : Json) (g : Objects) : Holds (load text g).2 text (load text g).1 :=
  ⟨g,rfl,List.prefix_refl _⟩

theorem Bare.members (bare : Bare text) (holds : Holds h text (some root)) (found : memberOf h root (jasonKey .header) = some a) :
    ∀ key ∈ headerKeys, memberOf h a (jasonKey key) = none := by
  obtain ⟨absent,present⟩ := holds.member (jasonKey .header)
  cases given : text.objectGet (jasonKey .header) with
  | none =>
    rw [absent given] at found
    cases found
  | some jsonHeader =>
    obtain ⟨b,same,inner⟩ := present jsonHeader given
    cases same.symm.trans found
    intro key member
    exact (inner.member (jasonKey key)).1 (bare jsonHeader given key member)

theorem imJsonParseHeader_bare (bare : Bare text) (holds : Holds h text (some root)) :
    imJsonParseHeader root h = .ok (msgCodeFormatErr,h) := by
  unfold imJsonParseHeader
  cases found : memberOf h root (jasonKey .header) with
  | none => exact bind_ok (objectGet_ok found)
  | some a =>
    have absent := bare.members holds found
    refine (bind_ok (objectGet_ok found)).trans ?_
    dsimp only
    rw [bind_ok (imJsonGetAll_absent headerKeys msgCodeSucess absent)]
    rfl

theorem imJsonMakeHeader_bare (bare : Bare text) (holds : Holds h text (some root)) (errcode : Int) :
    ∃ ret, ret ≠ msgCodeSucess ∧ imJsonMakeHeader root errcode h = .ok (ret,h) := by
  unfold imJsonMakeHeader
  cases found : memberOf h root (jasonKey .header) with
  | none => exact ⟨msgCodeUnknown,by decide,bind_ok (objectGet_ok found)⟩
  | some a =>
    have absent := bare.members holds found .code (by decide)
    refine ⟨msgCodeFormatErr,by decide,(bind_ok (objectGet_ok found)).trans ?_⟩
    exact bind_ok (objectGet_ok absent)

theorem objectPut_loaded (accounted : Accounted Node.refs [] g) (root : (load text g).1 = some a) :
    ∃ h, objectPut (some a) (load text g).2 = .ok ((),h) ∧ Accounted Node.refs [] h := by
  have loaded := (load_loaded text g).accounted [] accounted
  rw [root] at loaded
  obtain ⟨h,released,kept⟩ := put_accounted loaded
  refine ⟨h,?_,kept⟩
  change (put Node.refs a _).map _ = _
  rw [released]
  rfl

theorem imJsonParseTerminal_bare (bare : ∀ text ∈ pMsg, Bare text) :
    ∃ h, imJsonParseTerminal pMsg [] = .ok (msgCodeFormatErr,h) ∧ Accounted Node.refs [] h := by
  have nothing : Accounted Node.refs [] ([] : Objects) := fun _ => rfl
  unfold imJsonParseTerminal
  cases pMsg with
  | none => exact ⟨[],rfl,nothing⟩
  | some text =>
    have holds := holds_load text []
    cases root : (load text []).1 with
    | none =>
      have accounted := (load_loaded text []).accounted [] nothing
      rw [root] at accounted
      exact ⟨(load text []).2,bind_ok (tokenerParse_ok root),accounted⟩
    | some a =>
      rw [root] at holds
      obtain ⟨h,released,kept⟩ := objectPut_loaded nothing root
      refine ⟨h,?_,kept⟩
      refine (bind_ok (tokenerParse_ok root)).trans ?_
      dsimp only
      rw [bind_ok (imJsonParseHeader_bare (bare text rfl) holds)]
      refine (bind_ok (a := msgCodeFormatErr) (g := (load text []).2) rfl).trans ?_
      exact bind_ok released

theorem imJsonParseHeader_found (fresh : Fresh h) (holds : Holds h text (some root)) (dirty : ¬Bare text) :
    ∃ v, imJsonParseHeader root h = .error v := by
  obtain ⟨jsonHeader,given,key,member,supplies⟩ :
      ∃ jsonHeader ∈ text.objectGet (jasonKey .header), ∃ key ∈ headerKeys, supplied (some jsonHeader) key ≠ none := by
    by_contra nothing
    refine dirty fun jsonHeader given key member => ?_
    by_contra supplies
    exact nothing ⟨jsonHeader,given,key,member,supplies⟩
  obtain ⟨b,found,inner⟩ := (holds.member (jasonKey .header)).2 jsonHeader given
  obtain ⟨item,given⟩ := Option.ne_none_iff_exists'.mp supplies
  obtain ⟨_,here,_⟩ := (inner.member (jasonKey key)).2 item given
  obtain ⟨v,failed⟩ := imJsonGetAll_present headerKeys msgCodeSucess fresh ⟨key,member,by rw [here]; exact nofun⟩
  refine ⟨v,?_⟩
  unfold imJsonParseHeader
  exact (bind_ok (objectGet_ok found)).trans (bind_error failed)

theorem imJsonParseTerminal_found (dirty : ¬Bare text) : ∃ v, imJsonParseTerminal (some text) [] = .error v := by
  have holds := holds_load text []
  cases root : (load text []).1 with
  | none =>
    cases text with
    | null => exact absurd (fun _ given => nomatch given) dirty
    | _ => cases root
  | some a =>
    rw [root] at holds
    obtain ⟨v,failed⟩ := imJsonParseHeader_found (load_fresh text) holds dirty
    refine ⟨v,?_⟩
    unfold imJsonParseTerminal
    exact (bind_ok (tokenerParse_ok root)).trans (bind_error failed)

theorem imJsonMakeResponeSend_bare (bare : ∀ text ∈ pMsg, Bare text) (accounted : Accounted Node.refs [] g) (errcode : Int) :
    ∃ h, imJsonMakeResponeSend pMsg errcode none g = .ok ((),h) := by
  unfold imJsonMakeResponeSend
  cases pMsg with
  | none => exact ⟨g,rfl⟩
  | some text =>
    have holds := holds_load text g
    cases root : (load text g).1 with
    | none =>
      exact ⟨(load text g).2,bind_ok (tokenerParse_ok root)⟩
    | some a =>
      rw [root] at holds
      obtain ⟨h,released,_⟩ := objectPut_loaded accounted root
      obtain ⟨ret,failed,made⟩ := imJsonMakeHeader_bare (bare text rfl) holds errcode
      refine ⟨h,(bind_ok (tokenerParse_ok root)).trans ?_⟩
      dsimp only
      rw [bind_ok made,if_neg failed]
      exact released

-- Ownership is kept by the messages in whose header nothing is found to read, and by no other.
theorem owned_exact (created : Bool) (header : MsgHeader) (d : Daemon) (pMsg : Option Json) (replies : List Exchange) :
    Owned (imHandleMsg created header d pMsg replies) ↔ ∀ text ∈ pMsg, Bare text := by
  unfold Owned imHandleMsg
  constructor
  · rintro ⟨h,ran⟩ text rfl
    by_contra dirty
    obtain ⟨v,failed⟩ := imJsonParseTerminal_found dirty
    rw [bind_error failed] at ran
    cases ran
  · intro bare
    obtain ⟨g,parsed,accounted⟩ := imJsonParseTerminal_bare bare
    obtain ⟨h,sent⟩ := imJsonMakeResponeSend_bare bare accounted msgCodeFormatErr
    refine ⟨h,(bind_ok parsed).trans ?_⟩
    exact sent

-- The first getter of any complete message frees a member the message still holds.
theorem owned_message : ¬ ∀ (created : Bool) (header : MsgHeader) (d : Daemon) (pMsg : Option Json) (replies : List Exchange),
    Owned (imHandleMsg created header d pMsg replies) := by
  intro always
  obtain ⟨h,ran⟩ := always true default booted.daemon (some (termMsg .peakflow)) []
  have stopped : imHandleMsg true default booted.daemon (some (termMsg .peakflow)) [] [] = .error .freedInReach := rfl
  exact nomatch ran.symm.trans stopped

end ImAcc.Counted
