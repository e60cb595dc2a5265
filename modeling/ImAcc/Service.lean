import ImAcc.Lib.Journal
import ImAcc.Lib.Simulation
import ImAcc.Records
import Mathlib.Data.Multiset.UnionInter

-- What the daemon is for: a session asked for, awaited, opened and closed, and the notices.
namespace ImAcc
open Journal

-- A poller is told by its request's number; one in opening has announced the session.
-- handle is the next alarm's.
structure Service where
  phase : AccOpenState
  requests : Nat
  waiting : Multiset Nat
  opening : Multiset Nat
  notices : List BrocastNotifyType
  handle : Nat

def Service.boot : Service := ⟨.closed,0,0,0,[],1⟩

namespace Service

def give (s : Service) (handles : Nat) : Service := {s with handle := (s.handle+handles) % 2^32}

-- A notice takes the handle of its UDP alarm, a session those of its two.
inductive Move (mayStop : Service → Prop) : Service → Service → Prop where
  | dismiss : Move mayStop s {s with requests := s.requests+1}
  | grant : s.phase = .closed → Move mayStop s
      ({s with phase := .opened,requests := s.requests+1,notices := s.notices ++ [BrocastNotifyType.accSuccess]}.give 3)
  | delay : s.phase = .closed → state.transient = true →
      Move mayStop s {s with phase := state,requests := s.requests+1,waiting := (s.requests+1) ::ₘ s.waiting}
  | strand : s.phase = .closed → state.transient = true →
      Move mayStop s {s with phase := state,requests := s.requests+1}
  | stop : mayStop s → Move mayStop s
      ({s with phase := .closed,requests := s.requests+1,notices := s.notices ++ [BrocastNotifyType.accStop]}.give 1)
  | warn : Move mayStop s ({s with notices := s.notices ++ [BrocastNotifyType.accWillstop]}.give 1)
  | found : s.phase = .opening → s.waiting = r ::ₘ rest → Move mayStop s
      ({s with waiting := rest,opening := r ::ₘ s.opening,notices := s.notices ++ [BrocastNotifyType.accSuccess]}.give 2)
  | finish : s.opening = r ::ₘ rest → Move mayStop s ({s with phase := .opened,opening := rest}.give 1)
  | quit : s.waiting = r ::ₘ rest → Move mayStop s {s with phase := .closed,waiting := rest}
  | leave : s.phase.transient = false → s.waiting = r ::ₘ rest → Move mayStop s {s with waiting := rest}

-- Each request has one poller at most.
def Owned (s : Service) : Prop := (s.waiting + s.opening).Nodup ∧ ∀ r ∈ s.waiting + s.opening, r ≤ s.requests

-- A session that is open, or about to be, has been announced.
def Paid (s : Service) : Prop :=
  Multiset.card s.opening + (if s.phase = .opened then 1 else 0) ≤ s.notices.count .accSuccess

def Balanced (s : Service) : Prop :=
  (s.handle + Multiset.card s.opening) % 2^32 = (1 + s.notices.length + 2*s.notices.count .accSuccess) % 2^32

theorem Owned.fewer (owned : Owned s) (requests : s.requests ≤ t.requests)
    (fewer : t.waiting + t.opening ≤ s.waiting + s.opening) : Owned t :=
  ⟨Multiset.nodup_of_le fewer owned.1,fun r member => (owned.2 r (Multiset.mem_of_le fewer member)).trans requests⟩

theorem move_owned {mayStop : Service → Prop} (s t : Service) (owned : Owned s) (moved : Move mayStop s t) : Owned t := by
  cases moved with
  | dismiss | strand | grant | stop => exact owned.fewer (Nat.le_succ _) le_rfl
  | warn => exact owned.fewer le_rfl le_rfl
  | delay =>
    have fresh : s.requests+1 ∉ s.waiting + s.opening := fun member => absurd (owned.2 _ member) (by omega)
    constructor
    · rw [Multiset.cons_add,Multiset.nodup_cons]
      exact ⟨fresh,owned.1⟩
    · intro r member
      rw [Multiset.cons_add,Multiset.mem_cons] at member
      rcases member with rfl | old
      · exact le_rfl
      · exact (owned.2 r old).trans (Nat.le_succ _)
  | found opening one =>
    refine owned.fewer le_rfl (le_of_eq ?_)
    rw [one,Multiset.cons_add]
    exact Multiset.add_cons ..
  | finish one =>
    refine owned.fewer le_rfl ?_
    rw [one,Multiset.add_cons]
    exact Multiset.le_cons_self ..
  | quit one | leave _ one =>
    refine owned.fewer le_rfl ?_
    rw [one,Multiset.cons_add]
    exact Multiset.le_cons_self ..

theorem move_paid {mayStop : Service → Prop} (s t : Service) (paid : Paid s) (moved : Move mayStop s t) : Paid t := by
  have few : Multiset.card s.opening ≤ s.notices.count .accSuccess := (Nat.le_add_right _ _).trans paid
  unfold Paid at *
  cases moved with
  | dismiss | leave => exact paid
  | grant idle => simpa [give] using few
  | strand idle waits | delay idle waits =>
    rw [if_neg (by rintro rfl; cases waits)]
    exact few
  | stop | quit => simpa [give] using few
  | warn =>
    have more : s.notices.count .accSuccess = (s.notices ++ [BrocastNotifyType.accWillstop]).count .accSuccess := by simp
    exact paid.trans more.le
  | found opening one =>
    rw [opening] at paid
    simpa [give,opening] using few
  | finish one =>
    rw [one] at few
    simpa [give] using few

theorem move_balanced {mayStop : Service → Prop} (s t : Service) (balanced : Balanced s) (moved : Move mayStop s t) :
    Balanced t := by
  unfold Balanced at *
  cases moved with
  | dismiss | strand | delay | leave | quit => exact balanced
  | grant | stop | warn | found =>
    simp [give]
    omega
  | finish one =>
    rw [one] at balanced
    simp [give] at *
    omega

def Unwatched (s : Service) : Prop := s.waiting = 0 ∧ s.opening = 0

def bounds : BrocastNotifyType → Option BrocastNotifyType
  | .accSuccess => some .accSuccess
  | .accStop => some .accStop
  | _ => none

-- No session is announced while the last one announced has not been stopped.
def sessionDue (before : List BrocastNotifyType) (notyType : BrocastNotifyType) : Prop :=
  notyType = .accSuccess → latest bounds before ≠ some .accSuccess

structure Orderly (s : Service) : Prop where
  alone : Multiset.card s.waiting + Multiset.card s.opening ≤ 1
  watched : Unwatched s ∨ s.phase.transient = true
  current : latest bounds s.notices = some .accSuccess → s.phase = .opened ∨ s.opening ≠ 0
  due : Due sessionDue s.notices

theorem Orderly.idle (orderly : Orderly s) (final : s.phase.transient = false) : Unwatched s := by
  rcases orderly.watched with none | waits
  · exact none
  · rw [final] at waits
    cases waits

theorem Orderly.only (orderly : Orderly s) (one : s.waiting = r ::ₘ rest) : rest = 0 ∧ s.opening = 0 := by
  have alone := orderly.alone
  rw [one,Multiset.card_cons] at alone
  exact ⟨Multiset.card_eq_zero.mp (by omega),Multiset.card_eq_zero.mp (by omega)⟩

theorem move_orderly (s t : Service) (orderly : Orderly s) (moved : Move Unwatched s t) : Orderly t := by
  have ⟨alone,watched,current,due⟩ := orderly
  cases moved with
  | dismiss => exact ⟨alone,watched,current,due⟩
  | grant idle =>
    have none : Unwatched s := orderly.idle (by rw [idle]; rfl)
    refine ⟨alone,.inl none,fun _ => .inl rfl,due_snoc.mpr ⟨due,fun _ last => ?_⟩⟩
    rcases current last with opened | opening
    · rw [idle] at opened
      cases opened
    · exact opening none.2
  | strand idle waits =>
    have none : Unwatched s := orderly.idle (by rw [idle]; rfl)
    refine ⟨alone,.inl none,fun last => ?_,due⟩
    rcases current last with opened | opening
    · rw [idle] at opened
      cases opened
    · exact .inr opening
  | delay idle waits =>
    have none : Unwatched s := orderly.idle (by rw [idle]; rfl)
    refine ⟨?_,.inr waits,fun last => ?_,due⟩
    · rw [none.1,none.2]
      simp
    · rcases current last with opened | opening
      · rw [idle] at opened
        cases opened
      · exact .inr opening
  | stop none =>
    refine ⟨alone,.inl none,fun last => ?_,due_snoc.mpr ⟨due,nofun⟩⟩
    change latest bounds (s.notices ++ [.accStop]) = _ at last
    rw [latest_snoc] at last
    cases last
  | warn =>
    refine ⟨alone,watched,fun last => ?_,due_snoc.mpr ⟨due,nofun⟩⟩
    change latest bounds (s.notices ++ [.accWillstop]) = _ at last
    rw [latest_snoc] at last
    exact current last
  | found opening one =>
    obtain ⟨rfl,none⟩ := orderly.only one
    refine ⟨?_,.inr (by change s.phase.transient = true; rw [opening]; rfl),fun _ => .inr (Multiset.cons_ne_zero),?_⟩
    · simp [give,none]
    · refine due_snoc.mpr ⟨due,fun _ last => ?_⟩
      rcases current last with opened | sleeping
      · rw [opening] at opened
        cases opened
      · exact sleeping none
  | finish one =>
    rw [one,Multiset.card_cons] at alone
    refine ⟨?_,.inl ⟨?_,?_⟩,fun _ => .inl rfl,due⟩
    · simp only [give]
      omega
    · exact Multiset.card_eq_zero.mp (by simp only [give]; omega)
    · exact Multiset.card_eq_zero.mp (by simp only [give]; omega)
  | quit one =>
    obtain ⟨rfl,none⟩ := orderly.only one
    refine ⟨by simp [none],.inl ⟨rfl,none⟩,fun last => ?_,due⟩
    rcases current last with opened | sleeping
    · have waits : s.phase.transient = true := watched.resolve_left fun none => by
        rw [none.1] at one
        exact absurd one.symm Multiset.cons_ne_zero
      rw [opened] at waits
      cases waits
    · exact absurd none sleeping
  | leave final one =>
    have none : Unwatched s := orderly.idle final
    rw [none.1] at one
    exact absurd one.symm Multiset.cons_ne_zero

end Service

end ImAcc
