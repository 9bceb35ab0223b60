import Mathlib.Logic.Function.Basic
import KuhlHausMdp.Library.Transition
import KuhlHausMdp.MarketDataCache.Fetching

/-! Callers of one getter for one ticker, in any number of processes. Between
two phases of a caller lies one Redis operation, one REST call, or the code
from one await to the next. -/

set_option autoImplicit false

namespace KuhlHausMdp.MarketDataCache

open Transition

inductive Outcome (V : Type*) where
  | returned (value : V)
  | raised

/-- Where a caller stands. The phases from `granted` to `releasing` lie inside
`_fetch_…_with_lock`; `owned` says whether its lock object knows its token. -/
inductive Phase (C R V : Type*) where
  | start
  | firstRead (value : Value)
  | waiting (leader : C)
  | secondRead (value : Value)
  | acquiring
  | granted
  | acquired
  | lockedRead (value : Value)
  | fetching (rest : Fetch R V)
  | calling (request : Request) (next : R → Fetch R V)
  | stored (result : V)
  | closing (owned : Bool) (outcome : Outcome V)
  | releasing (owned : Bool) (outcome : Outcome V)
  | ending (outcome : Outcome V)
  | finished (outcome : Outcome V)

structure Entry where
  data : Value
  cacheTtl : Nat

/-- `pending` is each process's event table, an event being known by the caller
that made it; `answers` records what the REST client returned, in order. -/
structure Slot (P C R V : Type*) where
  entry : Option Entry
  lock : Option C
  phase : C → Phase C R V
  pending : P → Option C
  signalled : C → Bool
  answers : List R

/-- `reply c none` is a REST call that raises, `interrupt` an await that does. -/
inductive Action (C R : Type*) where
  | proceed (c : C)
  | reply (c : C) (answer : Option R)
  | interrupt (c : C)
  | lockExpires
  | entryExpires

namespace Slot

variable {P C R V : Type*}

def fresh : Slot P C R V where
  entry := none
  lock := none
  phase _ := .start
  pending _ := none
  signalled _ := false
  answers := []

def read (s : Slot P C R V) : Value :=
  match s.entry with
  | some entry => entry.data
  | none => .none

variable [DecidableEq P] [DecidableEq C]

def move (s : Slot P C R V) (c : C) (phase : Phase C R V) : Slot P C R V :=
  { s with phase := Function.update s.phase c phase }

def lead (proc : C → P) (s : Slot P C R V) (c : C) : Slot P C R V :=
  { s.move c .acquiring with pending := Function.update s.pending (proc c) (some c) }

/-- `event.set()`, then the ticker's event is popped, whoever's it is by now. -/
def finish (proc : C → P) (s : Slot P C R V) (c : C) (outcome : Outcome V) : Slot P C R V :=
  { s.move c (.finished outcome) with
    pending := Function.update s.pending (proc c) none
    signalled := Function.update s.signalled c true }

/-- What a raising await leads to; `none` where the caller is at no await. -/
def interrupted : Phase C R V → Option (Phase C R V)
  | .start | .firstRead _ | .waiting _ | .secondRead _ => some (.finished .raised)
  | .acquiring | .granted => some (.closing false .raised)
  | .acquired | .lockedRead _ | .stored _ | .fetching (.store ..) => some (.closing true .raised)
  | .closing .. | .releasing .. | .ending _ => some (.ending .raised)
  -- a REST call raises through its own reply
  | .fetching (.call ..) | .fetching .error | .calling .. | .finished _ => none

def proceed (metric : Metric R V) (ticker : String) (proc : C → P) (s : Slot P C R V) (c : C) :
    Option (Slot P C R V) :=
  match s.phase c with
  | .start => some (s.move c (.firstRead s.read))
  | .firstRead value =>
      if value.truthy then some (s.move c (.finished (.returned (metric.decode value))))
      else match s.pending (proc c) with
        -- the event table is read and written without an await between
        | some leader => some (s.move c (.waiting leader))
        | none => some (s.lead proc c)
  | .waiting leader => if s.signalled leader then some (s.move c (.secondRead s.read)) else none
  | .secondRead value =>
      if value.truthy then some (s.move c (.finished (.returned (metric.decode value))))
      else some (s.lead proc c)
  | .acquiring =>
      match s.lock with
      | none => some { s.move c .granted with lock := some c }
      | some _ => none
  | .granted => some (s.move c .acquired)
  | .acquired => some (s.move c (.lockedRead s.read))
  | .lockedRead value =>
      if value.truthy then some (s.move c (.closing true (.returned (metric.decode value))))
      else some (s.move c (.fetching (metric.fetch ticker)))
  | .fetching (.call request next) => some (s.move c (.calling request next))
  | .fetching (.store data cacheTtl result) =>
      some { s.move c (.stored result) with entry := some ⟨data, cacheTtl⟩ }
  | .fetching .error => some (s.move c (.closing true .raised))
  | .calling .. => none
  | .stored result => some (s.move c (.closing true (.returned result)))
  -- `locked()` asks whether anybody holds the lock
  | .closing owned outcome =>
      match s.lock with
      | none => some (s.move c (.ending outcome))
      | some _ => some (s.move c (.releasing owned outcome))
  | .releasing owned outcome =>
      -- another holder's lock stays: LockNotOwnedError is caught; without a
      -- token `release` raises LockError, which is not
      if owned then some { s.move c (.ending outcome) with lock := if s.lock = some c then none else s.lock }
      else some (s.move c (.ending .raised))
  | .ending outcome => some (s.finish proc c outcome)
  | .finished _ => none

def step (metric : Metric R V) (ticker : String) (proc : C → P) (s : Slot P C R V) :
    Action C R → Option (Slot P C R V)
  | .proceed c => s.proceed metric ticker proc c
  | .reply c answer =>
      match s.phase c with
      | .calling _ next =>
          match answer with
          | some response =>
              some { s.move c (.fetching (next response)) with answers := s.answers ++ [response] }
          | none => some (s.move c (.closing true .raised))
      | _ => none
  | .interrupt c => (interrupted (s.phase c)).map (s.move c)
  | .lockExpires => some { s with lock := none }
  | .entryExpires => some { s with entry := none }

/-- The step sends a REST request. -/
def StartsCall (s : Slot P C R V) (action : Action C R) : Prop :=
  ∃ c request next, action = .proceed c ∧ s.phase c = .fetching (.call request next)

end Slot

namespace Slot

/-! What a step can do. -/

/-- Steps that change a caller's phase and nothing that Redis or the REST client sees. -/
inductive Moves {P C R V : Type*} (metric : Metric R V) (ticker : String) (s : Slot P C R V) (c : C) :
    Action C R → Phase C R V → Phase C R V → Prop where
  | firstRead : Moves metric ticker s c (.proceed c) .start (.firstRead s.read)
  | firstHit {value : Value} (hit : value.truthy = true) :
      Moves metric ticker s c (.proceed c) (.firstRead value) (.finished (.returned (metric.decode value)))
  | wait {value : Value} {leader : C} (miss : value.truthy = false) :
      Moves metric ticker s c (.proceed c) (.firstRead value) (.waiting leader)
  | firstLead {value : Value} (miss : value.truthy = false) :
      Moves metric ticker s c (.proceed c) (.firstRead value) .acquiring
  | secondRead {leader : C} : Moves metric ticker s c (.proceed c) (.waiting leader) (.secondRead s.read)
  | secondHit {value : Value} (hit : value.truthy = true) :
      Moves metric ticker s c (.proceed c) (.secondRead value) (.finished (.returned (metric.decode value)))
  | secondLead {value : Value} (miss : value.truthy = false) :
      Moves metric ticker s c (.proceed c) (.secondRead value) .acquiring
  | resume : Moves metric ticker s c (.proceed c) .granted .acquired
  | lockedRead : Moves metric ticker s c (.proceed c) .acquired (.lockedRead s.read)
  | lockedHit {value : Value} (hit : value.truthy = true) :
      Moves metric ticker s c (.proceed c) (.lockedRead value) (.closing true (.returned (metric.decode value)))
  | fetch {value : Value} (miss : value.truthy = false) :
      Moves metric ticker s c (.proceed c) (.lockedRead value) (.fetching (metric.fetch ticker))
  | call {request : Request} {next : R → Fetch R V} :
      Moves metric ticker s c (.proceed c) (.fetching (.call request next)) (.calling request next)
  | error : Moves metric ticker s c (.proceed c) (.fetching .error) (.closing true .raised)
  | close {result : V} : Moves metric ticker s c (.proceed c) (.stored result) (.closing true (.returned result))
  | unlocked {owned : Bool} {outcome : Outcome V} :
      Moves metric ticker s c (.proceed c) (.closing owned outcome) (.ending outcome)
  | locked {owned : Bool} {outcome : Outcome V} :
      Moves metric ticker s c (.proceed c) (.closing owned outcome) (.releasing owned outcome)
  | tokenless {outcome : Outcome V} :
      Moves metric ticker s c (.proceed c) (.releasing false outcome) (.ending .raised)
  | finish {outcome : Outcome V} : Moves metric ticker s c (.proceed c) (.ending outcome) (.finished outcome)
  | restRaised {request : Request} {next : R → Fetch R V} :
      Moves metric ticker s c (.reply c none) (.calling request next) (.closing true .raised)
  | interrupt {phase after : Phase C R V} (raised : interrupted phase = some after) :
      Moves metric ticker s c (.interrupt c) phase after

variable {P C R V : Type*} [DecidableEq C]

/-- The callers' phases aside, only four steps of a caller touch the slot, and
the two expiries. -/
inductive Change (metric : Metric R V) (ticker : String) (s t : Slot P C R V) : Action C R → Prop where
  | moved {c : C} {action : Action C R} {phase : Phase C R V}
      (moves : Moves metric ticker s c action (s.phase c) phase) (phases : t.phase = Function.update s.phase c phase)
      (entry : t.entry = s.entry) (lock : t.lock = s.lock) (answers : t.answers = s.answers) :
      Change metric ticker s t action
  | acquired {c : C} (before : s.phase c = .acquiring) (free : s.lock = none)
      (after : t = { s.move c .granted with lock := some c }) : Change metric ticker s t (.proceed c)
  | answered {c : C} {request : Request} {next : R → Fetch R V} {response : R}
      (before : s.phase c = .calling request next)
      (after : t = { s.move c (.fetching (next response)) with answers := s.answers ++ [response] }) :
      Change metric ticker s t (.reply c (some response))
  | stored {c : C} {data : Value} {cacheTtl : Nat} {result : V}
      (before : s.phase c = .fetching (.store data cacheTtl result))
      (after : t = { s.move c (.stored result) with entry := some ⟨data, cacheTtl⟩ }) :
      Change metric ticker s t (.proceed c)
  | released {c : C} {outcome : Outcome V} (before : s.phase c = .releasing true outcome)
      (after : t = { s.move c (.ending outcome) with lock := if s.lock = some c then none else s.lock }) :
      Change metric ticker s t (.proceed c)
  | lockExpired (after : t = { s with lock := none }) : Change metric ticker s t .lockExpires
  | entryExpired (after : t = { s with entry := none }) : Change metric ticker s t .entryExpires

variable [DecidableEq P] {metric : Metric R V} {ticker : String} {proc : C → P} {s t : Slot P C R V}

omit [DecidableEq P] in
theorem Change.move {c : C} {action : Action C R} {before after : Phase C R V} (here : s.phase c = before)
    (moves : Moves metric ticker s c action before after) : Change metric ticker s (s.move c after) action :=
  .moved (here ▸ moves) rfl rfl rfl rfl

theorem Change.lead {c : C} {before : Phase C R V} (here : s.phase c = before)
    (moves : Moves metric ticker s c (.proceed c) before .acquiring) :
    Change metric ticker s (s.lead proc c) (.proceed c) :=
  .moved (here ▸ moves) rfl rfl rfl rfl

theorem change_proceed {c : C} (one : s.proceed metric ticker proc c = some t) :
    Change metric ticker s t (.proceed c) := by
  unfold proceed at one
  split at one
  case h_1 here => cases one; exact .move here .firstRead
  case h_2 value here =>
    split at one
    case isTrue hit => cases one; exact .move here (.firstHit hit)
    case isFalse miss =>
      have falsy : value.truthy = false := by simpa using miss
      split at one
      · cases one; exact .move here (.wait falsy)
      · cases one; exact .lead here (.firstLead falsy)
  case h_3 leader here =>
    split at one
    · cases one; exact .move here .secondRead
    · cases one
  case h_4 value here =>
    split at one
    case isTrue hit => cases one; exact .move here (.secondHit hit)
    case isFalse miss => cases one; exact .lead here (.secondLead (by simpa using miss))
  case h_5 here =>
    split at one
    case h_1 free => cases one; exact .acquired here free rfl
    case h_2 => cases one
  case h_6 here => cases one; exact .move here .resume
  case h_7 here => cases one; exact .move here .lockedRead
  case h_8 value here =>
    split at one
    case isTrue hit => cases one; exact .move here (.lockedHit hit)
    case isFalse miss => cases one; exact .move here (.fetch (by simpa using miss))
  case h_9 here => cases one; exact .move here .call
  case h_10 here => cases one; exact .stored here rfl
  case h_11 here => cases one; exact .move here .error
  case h_12 => cases one
  case h_13 here => cases one; exact .move here .close
  case h_14 here =>
    split at one
    · cases one; exact .move here .unlocked
    · cases one; exact .move here .locked
  case h_15 owned outcome here =>
    cases owned with
    | true => cases one; exact .released here rfl
    | false => cases one; exact .move here .tokenless
  case h_16 here => cases one; exact .moved (here ▸ .finish) rfl rfl rfl rfl
  case h_17 => cases one

theorem step_cases {action : Action C R} (one : s.step metric ticker proc action = some t) :
    Change metric ticker s t action := by
  cases action with
  | proceed c => exact change_proceed one
  | reply c answer =>
      simp only [step] at one
      split at one
      case h_1 here =>
        cases answer with
        | none => cases one; exact .move here .restRaised
        | some response => cases one; exact .answered here rfl
      case h_2 => cases one
  | interrupt c =>
      obtain ⟨phase, raised, rfl⟩ := Option.map_eq_some_iff.mp one
      exact .move rfl (.interrupt raised)
  | lockExpires => cases one; exact .lockExpired rfl
  | entryExpires => cases one; exact .entryExpired rfl

/-! The lock. -/

end Slot

/-- From the moment Redis grants the lock until `release`, unless the caller
was interrupted before it learned its token. -/
def Phase.Holding {C R V : Type*} : Phase C R V → Prop
  | .granted | .acquired | .lockedRead _ | .fetching _ | .calling .. | .stored _ => True
  | .closing owned _ | .releasing owned _ => owned = true
  | _ => False

namespace Slot

variable {P C R V : Type*} {metric : Metric R V} {ticker : String} {proc : C → P} {s t : Slot P C R V}
  {action : Action C R}

def Locked (s : Slot P C R V) : Prop := ∀ c, (s.phase c).Holding → s.lock = some c

def LockLasts (s : Slot P C R V) (action : Action C R) : Prop :=
  action = .lockExpires → ∀ c, ¬ (s.phase c).Holding

theorem Moves.holding {c : C} {before after : Phase C R V} (moves : Moves metric ticker s c action before after)
    (holds : after.Holding) : before.Holding := by
  cases moves with
  | interrupt raised =>
      cases before with
      | fetching rest =>
          trivial
      | _ =>
          first
          | trivial
          | cases raised; cases holds
  | _ => trivial

theorem Locked.only {c other : C} (locked : s.Locked) (holds : (s.phase c).Holding)
    (also : (s.phase other).Holding) : other = c := by
  have same := (locked c holds).symm.trans (locked other also)
  cases same
  rfl

variable [DecidableEq P] [DecidableEq C]

omit [DecidableEq P] in
theorem Locked.moved {c : C} {phase : Phase C R V} (locked : s.Locked)
    (phases : t.phase = Function.update s.phase c phase) (lock : t.lock = s.lock)
    (held : phase.Holding → (s.phase c).Holding) : t.Locked := by
  unfold Locked
  rw [phases, lock]
  apply (Function.forall_update_iff s.phase fun d phase => phase.Holding → s.lock = some d).mpr
  exact ⟨fun holds => locked c (held holds), fun d _ => locked d⟩

theorem Locked.step (locked : s.Locked) (lasts : s.LockLasts action)
    (one : s.step metric ticker proc action = some t) : t.Locked := by
  cases step_cases one with
  | moved moves phases entry lock answers => exact locked.moved phases lock moves.holding
  | answered before after =>
      subst after
      exact locked.moved rfl rfl fun _ => before ▸ trivial
  | stored before after =>
      subst after
      exact locked.moved rfl rfl fun _ => before ▸ trivial
  | @acquired c before free after =>
      subst after
      apply (Function.forall_update_iff s.phase fun d phase => phase.Holding → some c = some d).mpr
      exact ⟨fun _ => rfl, fun d _ holds => nomatch free.symm.trans (locked d holds)⟩
  | @released c outcome before after =>
      subst after
      have holder : (s.phase c).Holding := by rw [before]; rfl
      apply (Function.forall_update_iff s.phase fun d phase => phase.Holding → _ = some d).mpr
      exact ⟨fun holds => (nomatch holds), fun d apart holds => absurd (locked.only holder holds) apart⟩
  | lockExpired after =>
      subst after
      intro d holds
      exact absurd holds (lasts rfl d)
  | entryExpired after =>
      subst after
      exact locked

end Slot

end KuhlHausMdp.MarketDataCache
