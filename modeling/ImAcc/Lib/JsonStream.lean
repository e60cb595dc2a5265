import ImAcc.Lib.JsonText
import Mathlib.Data.List.Induction

-- A text that breaks off, or goes on behind its value, before a parser of one value.
namespace JsonText
open JsonC

def Value.composite : Value → Bool
  | .array _ | .object _ => true
  | .null | .boolean _ | .number _ | .string _ => false

def State.closed (s : State) : Option Value :=
  match s.token,s.stack with
  | .root v,[] => some v
  | _,_ => none

inductive Outside : State → Prop where
  | literal (scalar : v.composite = false) : Outside ⟨.literal left v,[]⟩
  | number : Outside ⟨.number place digits,[]⟩
  | string : Outside ⟨.string pieces,[]⟩
  | escape : Outside ⟨.escape pieces,[]⟩
  | unicode : Outside ⟨.unicode pieces hex,[]⟩
  | root (scalar : v.composite = false) : Outside ⟨.root v,[]⟩

def Inside (s : State) : Prop := s.stack ≠ []

def Behind (s : State) : Prop := ∃ v : Value, v.composite = true ∧ s = ⟨.root v,[]⟩

inductive Place (text : Bytes) : State → Prop where
  | before (blank : text.all isBlank = true) : Place text start
  | inside (inside : Inside s) : Place text s
  | behind (behind : Behind s) : Place text s
  | outside (outside : Outside s) : Place text s

variable {s t : State} {v : Value} {stack : List Frame}

theorem closed_exact : s.closed = some v ↔ s = ⟨.root v,[]⟩ := by
  obtain ⟨token,stack⟩ := s
  cases token <;> cases stack <;> simp [State.closed]

theorem closed_result (closed : s.closed = some v) : s.result = some v := by
  rw [closed_exact.mp closed]
  rfl

theorem step_root (v : Value) (b : UInt8) : step ⟨.root v,[]⟩ b = if isBlank b then some ⟨.root v,[]⟩ else none := rfl

theorem run_root (v : Value) (text : Bytes) :
    run ⟨.root v,[]⟩ text = if text.all isBlank then some ⟨.root v,[]⟩ else none := by
  induction text with
  | nil => rfl
  | cons b rest ih =>
    rw [run,step_root,List.all_cons]
    cases isBlank b with
    | true => simpa using ih
    | false => rfl

theorem Outside.blank (scalar : v.composite = false) (taken : step ⟨.root v,[]⟩ b = some t) : Outside t := by
  rw [step_root] at taken
  split at taken
  · cases taken
    exact .root scalar
  · cases taken

theorem Outside.step (outside : Outside s) (taken : JsonText.step s b = some t) : Outside t := by
  cases outside with
  | @literal left v scalar =>
    cases left with
    | nil => cases taken
    | cons c left =>
      unfold JsonText.step State.plain at taken
      dsimp only at taken
      split at taken
      · cases taken
      · split at taken
        · cases taken
          exact .root scalar
        · cases taken
          exact .literal scalar
  | number =>
    unfold JsonText.step at taken
    dsimp only at taken
    split at taken
    · cases taken
      exact .number
    · split at taken
      · exact Outside.blank rfl taken
      · cases taken
  | string =>
    unfold JsonText.step State.plain at taken
    dsimp only at taken
    split at taken
    · cases taken
      exact .root rfl
    · split at taken
      · cases taken
        exact .escape
      · split at taken
        · cases taken
        · cases taken
          exact .string
  | escape =>
    unfold JsonText.step State.plain at taken
    dsimp only at taken
    split at taken
    · cases taken
      exact .unicode
    · obtain ⟨c,_,rfl⟩ := Option.map_eq_some_iff.mp taken
      exact .string
  | unicode =>
    obtain ⟨h,_,rfl⟩ := Option.map_eq_some_iff.mp taken
    dsimp only
    split
    · exact .unicode
    · exact .string
  | root scalar => exact Outside.blank scalar taken

theorem Outside.run (outside : Outside s) (ran : JsonText.run s text = some t) : Outside t := by
  induction text generalizing s with
  | nil =>
    cases ran
    exact outside
  | cons b rest ih =>
    obtain ⟨m,taken,later⟩ := Option.bind_eq_some_iff.mp ran
    exact ih (outside.step taken) later

theorem Outside.unclosed (outside : Outside s) (composite : v.composite = true) : s.closed ≠ some v := by
  intro closed
  obtain rfl := closed_exact.mp closed
  cases outside with
  | root scalar =>
    rw [scalar] at composite
    cases composite

theorem finish_inside (opened : stack ≠ []) (finished : finish v stack = some t) : Inside t := by
  cases stack with
  | nil => exact absurd rfl opened
  | cons frame rest =>
    cases frame with
    | array items => cases finished; exact List.cons_ne_nil _ _
    | member members key => cases finished; exact List.cons_ne_nil _ _
    | object members =>
      cases v with
      | string key => cases finished; exact List.cons_ne_nil _ _
      | _ => cases finished

theorem finish_left (composite : v.composite = true) (finished : finish v stack = some t) : Inside t ∨ Behind t := by
  cases stack with
  | nil =>
    cases finished
    exact .inr ⟨v,composite,rfl⟩
  | cons frame rest => exact .inl (finish_inside (List.cons_ne_nil _ _) finished)

theorem closeArray_left (closed : closeArray stack = some t) : Inside t ∨ Behind t := by
  unfold closeArray at closed
  split at closed
  · exact finish_left rfl closed
  · cases closed

theorem closeObject_left (closed : closeObject stack = some t) : Inside t ∨ Behind t := by
  unfold closeObject at closed
  split at closed
  · exact finish_left rfl closed
  · cases closed

theorem comma_inside (taken : comma stack = some t) : Inside t := by
  unfold comma at taken
  split at taken
  · cases taken; exact List.cons_ne_nil _ _
  · cases taken; exact List.cons_ne_nil _ _
  · cases taken

theorem opening_inside (opened : stack ≠ []) (taken : opening stack b = some t) : Inside t := by
  unfold opening at taken
  split_ifs at taken <;> cases taken
  all_goals first | exact opened | exact List.cons_ne_nil _ _

theorem plain_left (inside : Inside s) (taken : s.plain b = some t) : Inside t ∨ isBlank b = false ∧ Behind t := by
  obtain ⟨token,stack⟩ := s
  have opened : stack ≠ [] := inside
  unfold State.plain at taken
  cases token <;> dsimp only at taken
  case value =>
    split at taken
    · cases taken; exact .inl inside
    · exact .inl (opening_inside opened taken)
  case items =>
    split_ifs at taken with blank close
    · cases taken; exact .inl inside
    · exact (closeArray_left taken).imp_right fun behind => ⟨Bool.not_eq_true _ ▸ blank,behind⟩
    · exact .inl (opening_inside opened taken)
  case names =>
    split_ifs at taken with blank close quote
    · cases taken; exact .inl inside
    · exact (closeObject_left taken).imp_right fun behind => ⟨Bool.not_eq_true _ ▸ blank,behind⟩
    · cases taken; exact .inl opened
  case name =>
    split_ifs at taken
    · cases taken; exact .inl inside
    · cases taken; exact .inl opened
  case colon =>
    split_ifs at taken
    · cases taken; exact .inl inside
    · cases taken; exact .inl opened
  case next =>
    split_ifs at taken with blank comma array object
    · cases taken; exact .inl inside
    · exact .inl (comma_inside taken)
    · exact (closeArray_left taken).imp_right fun behind => ⟨Bool.not_eq_true _ ▸ blank,behind⟩
    · exact (closeObject_left taken).imp_right fun behind => ⟨Bool.not_eq_true _ ▸ blank,behind⟩
  case literal left v =>
    cases left with
    | nil => cases taken
    | cons c left =>
      dsimp only at taken
      split_ifs at taken
      · exact .inl (finish_inside opened taken)
      · cases taken; exact .inl opened
  case number => cases taken
  case string =>
    split_ifs at taken
    · exact .inl (finish_inside opened taken)
    · cases taken; exact .inl opened
    · cases taken; exact .inl opened
  case escape =>
    split at taken
    · cases taken; exact .inl opened
    · obtain ⟨c,_,rfl⟩ := Option.map_eq_some_iff.mp taken
      exact .inl opened
  case unicode =>
    obtain ⟨h,_,rfl⟩ := Option.map_eq_some_iff.mp taken
    split
    · exact .inl opened
    · exact .inl opened
  case root =>
    split at taken
    · cases taken; exact .inl inside
    · cases taken

theorem step_left (inside : Inside s) (taken : step s b = some t) : Inside t ∨ isBlank b = false ∧ Behind t := by
  obtain ⟨token,stack⟩ := s
  cases token with
  | number place digits =>
    unfold step at taken
    dsimp only at taken
    split at taken
    · cases taken
      exact .inl inside
    · split at taken
      · obtain ⟨m,finished,plain⟩ := Option.bind_eq_some_iff.mp taken
        exact plain_left (finish_inside inside finished) plain
      · cases taken
  | _ => exact plain_left inside taken

theorem blanks_inside (inside : Inside s) (blank : text.all isBlank = true) (ran : run s text = some t) : Inside t := by
  induction text generalizing s with
  | nil =>
    cases ran
    exact inside
  | cons b rest ih =>
    rw [List.all_cons,Bool.and_eq_true] at blank
    obtain ⟨m,taken,later⟩ := Option.bind_eq_some_iff.mp ran
    rcases step_left inside taken with still | ⟨solid,_⟩
    · exact ih still blank.2 later
    · rw [blank.1] at solid
      cases solid

theorem start_blank (blank : text.all isBlank = true) : run start text = some start := by
  induction text with
  | nil => rfl
  | cons b rest ih =>
    rw [List.all_cons,Bool.and_eq_true] at blank
    have taken : step start b = some start := if_pos blank.1
    rw [run,taken]
    exact ih blank.2

theorem step_place (place : Place text s) (taken : step s b = some t) : Place (text ++ [b]) t := by
  cases place with
  | before blank =>
    have first : (if isBlank b then some start else opening [] b) = some t := taken
    split at first
    · rename_i also
      cases first
      exact .before (by rw [List.all_append,blank]; simpa using also)
    · unfold opening at first
      split_ifs at first <;> cases first
      · exact .inside (List.cons_ne_nil _ _)
      · exact .inside (List.cons_ne_nil _ _)
      · exact .outside .string
      · exact .outside .number
      · exact .outside .number
      · exact .outside .number
      · exact .outside (.literal rfl)
      · exact .outside (.literal rfl)
      · exact .outside (.literal rfl)
  | inside inside =>
    rcases step_left inside taken with still | ⟨_,behind⟩
    · exact .inside still
    · exact .behind behind
  | behind behind =>
    obtain ⟨v,composite,rfl⟩ := behind
    rw [step_root] at taken
    split at taken
    · cases taken
      exact .behind ⟨v,composite,rfl⟩
    · cases taken
  | outside outside => exact .outside (outside.step taken)

theorem run_place (ran : run start text = some s) : Place text s := by
  induction text using List.reverseRecOn generalizing s with
  | nil =>
    cases ran
    exact .before rfl
  | append_singleton rest b ih =>
    rw [run_append] at ran
    obtain ⟨m,reached,taken⟩ := Option.bind_eq_some_iff.mp ran
    refine step_place (ih reached) ?_
    rw [← taken]
    exact (Option.bind_fun_some _).symm

theorem result_closed (result : t.result = some v) (composite : v.composite = true) : t.closed = some v := by
  obtain ⟨token,stack⟩ := t
  unfold State.result at result
  dsimp only at result
  split at result
  · exact result
  · split at result
    · cases result
      cases composite
    · cases result
  · cases result

theorem read_closed (whole : read text = some v) (composite : v.composite = true) : run start text = some ⟨.root v,[]⟩ := by
  obtain ⟨t,ran,result⟩ := Option.bind_eq_some_iff.mp whole
  rw [ran,closed_exact.mp (result_closed result composite)]

-- A text cut short ends before the value or inside it, unless only blanks are missing.
theorem cut_place (whole : read (before ++ behind) = some v) (composite : v.composite = true) :
    if behind.all isBlank then run start before = some ⟨.root v,[]⟩
    else before.all isBlank = true ∨ ∃ s, run start before = some s ∧ Inside s := by
  have ran := read_closed whole composite
  rw [run_append] at ran
  obtain ⟨m,reached,rest⟩ := Option.bind_eq_some_iff.mp ran
  have closed : Place (before ++ behind) ⟨.root v,[]⟩ := .behind ⟨v,composite,rfl⟩
  cases run_place reached with
  | before blank =>
    split
    · rename_i all
      rw [start_blank all] at rest
      cases rest
    · exact .inl blank
  | inside inside =>
    split
    · rename_i blank
      exact absurd rfl (blanks_inside inside blank rest)
    · exact .inr ⟨m,reached,inside⟩
  | behind behind =>
    obtain ⟨u,_,rfl⟩ := behind
    rw [run_root] at rest
    split at rest
    · cases rest
      rw [if_pos ‹_›]
      exact reached
    · cases rest
  | outside outside => exact absurd rfl ((outside.run rest).unclosed composite)

-- json_tokener_parse as json-c documents it: it wants more where a text breaks off, and it
-- stops behind its value, where only a comment would go on.
structure Tokener (parse : Bytes → Option Json) : Prop where
  before : ∀ text, text.all isBlank = true → parse text = none
  inside : ∀ text s, run start text = some s → Inside s → parse text = none
  behind : ∀ text v more, run start text = some ⟨.root v,[]⟩ → v.composite = true →
    (more.dropWhile Json.isSpace).head? ≠ some 47 → parse (text ++ more) = parse text

variable {parse : Bytes → Option Json}

theorem Tokener.cut (tokener : Tokener parse) (whole : read (first ++ missing) = some v) (composite : v.composite = true) :
    parse first = if missing.all isBlank then parse (first ++ missing) else none := by
  have place := cut_place whole composite
  split
  · rename_i blank
    rw [if_pos blank] at place
    refine (tokener.behind first v missing place composite ?_).symm
    rw [List.dropWhile_eq_nil_iff.mpr]
    · decide
    · intro b member
      have blanks := List.all_eq_true.mp blank b member
      revert blanks
      simp only [isBlank,Json.isSpace,Bool.or_eq_true,decide_eq_true_eq]
      rintro (((rfl | rfl) | rfl) | rfl) <;> decide
  · rename_i more
    rw [if_neg more] at place
    rcases place with blank | ⟨s,reached,inside⟩
    · exact tokener.before first blank
    · exact tokener.inside first s reached inside

theorem Tokener.more {more : Bytes} (tokener : Tokener parse) (whole : read text = some v)
    (composite : v.composite = true) (other : (more.dropWhile Json.isSpace).head? ≠ some 47) : parse (text ++ more) = parse text :=
  tokener.behind text v more (read_closed whole composite) composite other

-- The reader itself, stopped behind its value; it reads no comments.
def firstFrom (s : State) : Bytes → Option Value
  | [] => s.result
  | b :: rest => match s.closed with
    | some v => some v
    | none => match step s b with
      | some t => firstFrom t rest
      | none => s.result

def firstValue (text : Bytes) : Option Value := firstFrom start text

theorem firstFrom_run (ran : run s text = some t) : firstFrom s text = t.result := by
  induction text generalizing s with
  | nil =>
    cases ran
    rfl
  | cons b rest ih =>
    cases closed : s.closed with
    | some v =>
      rw [firstFrom,closed]
      rw [closed_exact.mp closed,run_root] at ran
      split at ran
      · cases ran
        rfl
      · cases ran
    | none =>
      rw [run] at ran
      obtain ⟨m,taken,later⟩ := Option.bind_eq_some_iff.mp ran
      rw [firstFrom,closed,taken]
      exact ih later

theorem firstFrom_more (ran : run s text = some t) (closed : t.closed = some v) (more : Bytes) :
    firstFrom s (text ++ more) = some v := by
  induction text generalizing s with
  | nil =>
    cases ran
    cases more with
    | nil => exact closed_result closed
    | cons b rest => rw [List.nil_append,firstFrom,closed]
  | cons b rest ih =>
    rw [List.cons_append,firstFrom]
    cases already : s.closed with
    | some w =>
      rw [closed_exact.mp already,run_root] at ran
      split at ran
      · cases ran
        exact closed
      · cases ran
    | none =>
      rw [run] at ran
      obtain ⟨m,taken,later⟩ := Option.bind_eq_some_iff.mp ran
      rw [taken]
      exact ih later

theorem firstValue_tokener (truncated : Bytes → Int) : Tokener fun text => (firstValue text).map (Value.json truncated) where
  before text blank := by
    rw [firstValue,firstFrom_run (start_blank blank)]
    rfl
  inside text s reached inside := by
    have open' : s.result = none := by
      obtain ⟨token,stack⟩ := s
      cases stack with
      | nil => exact absurd rfl inside
      | cons => cases token <;> rfl
    rw [firstValue,firstFrom_run reached,open']
    rfl
  behind text v more ran composite other := by
    rw [firstValue,firstValue,firstFrom_more ran rfl,firstFrom_run ran]
    rfl

end JsonText
