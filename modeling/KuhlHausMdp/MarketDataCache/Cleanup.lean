import KuhlHausMdp.MarketDataCache.Coordination

/-! The `finally` block around the lock. Beside the callers' phases it is written
down with which result or exception the `try` block ends, and with which one the
`finally` block does. -/

set_option autoImplicit false

namespace KuhlHausMdp.MarketDataCache

open Transition

/-- `failure` is an exception of the REST client or of Redis, `processing` one of
the code that reads an answer. -/
inductive Exc (X : Type*) where
  | cancelled
  | failure (x : X)
  | processing
  | lockError

inductive Exit (X V : Type*) where
  | returned (value : V)
  | raised (exception : Exc X)

def Exit.outcome {X V : Type*} : Exit X V → Outcome V
  | .returned value => .returned value
  | .raised _ => .raised

/-- `body` is how the `try` block ended, `exit` how the caller is about to leave,
`failed` tells that Redis did not answer the `finally` block, and `awaits` that
the answer to its last request is still to come. -/
structure Report (X V : Type*) where
  body : Option (Exit X V)
  exit : Option (Exit X V)
  failed : Bool
  awaits : Bool

def Report.fresh {X V : Type*} : Report X V := ⟨none, none, false, false⟩

/-- `cancel` and `fail` strike an await of the caller; a `reply` of an error is a
REST call that raises. -/
inductive Event (C R X : Type*) where
  | proceed (c : C)
  | reply (c : C) (answer : Except X R)
  | cancel (c : C)
  | fail (c : C) (x : X)
  | lockExpires
  | entryExpires

namespace Event

variable {C R X : Type*}

def action : Event C R X → Action C R
  | .proceed c => .proceed c
  | .reply c answer => .reply c answer.toOption
  | .cancel c => .interrupt c
  | .fail c _ => .interrupt c
  | .lockExpires => .lockExpires
  | .entryExpires => .entryExpires

def caller : Event C R X → Option C
  | .proceed c | .reply c _ | .cancel c | .fail c _ => some c
  | .lockExpires | .entryExpires => none

def exception : Event C R X → Exc X
  | .cancel _ => .cancelled
  | .fail _ x => .failure x
  | .reply _ (.error x) => .failure x
  | _ => .processing

end Event

def Phase.cleaning {C R V : Type*} : Phase C R V → Bool
  | .closing .. | .releasing .. | .ending _ => true
  | _ => false

/-- What a caller's step from one phase to another adds to its report. -/
def Report.note {C R V X : Type*} (r : Report X V) (event : Event C R X) (before after : Phase C R V) : Report X V :=
  if before.cleaning then
    match event with
    | .cancel _ => { r with exit := some (.raised .cancelled), awaits := false }
    | .fail _ x => { r with exit := some (.raised (.failure x)), failed := true, awaits := false }
    | _ =>
        match before, after with
        -- `release` without a token raises at once
        | .releasing false _, _ => { r with exit := some (.raised .lockError) }
        | _, .ending _ => { r with exit := r.body, awaits := true }
        | _, _ => r
  else
    match after with
    | .closing _ (.returned value) => { r with body := some (.returned value) }
    | .closing _ .raised => { r with body := some (.raised event.exception) }
    | _ => r

structure Watched (P C R V X : Type*) where
  slot : Slot P C R V
  report : C → Report X V

namespace Watched

variable {P C R V X : Type*}

def fresh : Watched P C R V X := ⟨.fresh, fun _ => .fresh⟩

def atCleanup (w : Watched P C R V X) (c : C) : Bool :=
  match w.slot.phase c with
  | .closing .. | .releasing .. => true
  | .ending _ => (w.report c).awaits
  | _ => false

def refuses (w : Watched P C R V X) : Event C R X → Bool
  | .cancel c | .fail c _ => (w.slot.phase c).cleaning && !w.atCleanup c
  | _ => false

variable [DecidableEq P] [DecidableEq C]

/-- The event is written down by the caller that takes the step. -/
def noted (w : Watched P C R V X) (event : Event C R X) (slot : Slot P C R V) : Watched P C R V X :=
  match event.caller with
  | none => { w with slot := slot }
  | some c => ⟨slot, Function.update w.report c ((w.report c).note event (w.slot.phase c) (slot.phase c))⟩

def step (metric : Metric R V) (ticker : String) (proc : C → P) (w : Watched P C R V X) (event : Event C R X) :
    Option (Watched P C R V X) :=
  if w.refuses event then none else (w.slot.step metric ticker proc event.action).map (w.noted event)

end Watched

/-- The caller leaves as its `try` block ended, if Redis answered. -/
def Report.Kept {X V : Type*} (r : Report X V) : Prop := r.failed = false → ∀ seen, r.exit = some seen → r.body = some seen

namespace Watched

variable {P C R V X : Type*}

def Kept (w : Watched P C R V X) : Prop := ∀ c, (w.report c).Kept

/-- The `finally` block leaves the lock of another holder alone. -/
def Spares (w next : Watched P C R V X) (event : Event C R X) : Prop :=
  ∀ c, event.caller = some c → (w.slot.phase c).cleaning = true → ∀ other, other ≠ c →
    w.slot.lock = some other → next.slot.lock = some other

/-- No caller comes to `release` without its token, and none is cancelled in its
`finally` block unless its `try` block was. -/
def Clean (w : Watched P C R V X) : Event C R X → Prop
  | .proceed c => ∀ outcome, w.slot.phase c ≠ .releasing false outcome
  | .cancel c => w.atCleanup c = true → (w.report c).body = some (.raised .cancelled)
  | _ => True

end Watched

def Phase.Reported {C R V X : Type*} : Phase C R V → Report X V → Prop
  | .closing _ outcome, r | .releasing _ outcome, r =>
      r.exit = none ∧ r.failed = false ∧ r.awaits = false ∧
        ∃ body, r.body = some body ∧ body ≠ .raised .lockError ∧ body.outcome = outcome
  | .ending outcome, r =>
      (∃ exit, r.exit = some exit ∧ exit.outcome = outcome) ∧ (r.awaits = true → r.failed = false ∧ r.exit = r.body)
  | .finished outcome, r => r.exit = none ∨ ∃ exit, r.exit = some exit ∧ exit.outcome = outcome
  | _, r => r = .fresh

namespace Watched

variable {P C R V X : Type*}

structure Inv (w : Watched P C R V X) : Prop where
  reported : ∀ c, (w.slot.phase c).Reported (w.report c)
  kept : w.Kept

theorem Inv.fresh : (fresh : Watched P C R V X).Inv where
  reported := fun _ => rfl
  kept := fun _ _ _ none => nomatch none

end Watched

/-! One step of a caller. -/

section Moves

variable {P C R V X : Type*} {metric : Metric R V} {ticker : String} {s : Slot P C R V} {c : C} {before after : Phase C R V}
  {r : Report X V}

open Slot

theorem caller_proceed {other : C} (moves : Moves metric ticker s other (.proceed c) before after) : other = c := by
  cases moves <;> rfl

theorem caller_reply {other : C} {answer : Option R} (moves : Moves metric ticker s other (.reply c answer) before after) :
    other = c := by
  cases moves
  rfl

theorem reported_proceed (moves : Moves metric ticker s c (.proceed c) before after) (reported : before.Reported r) :
    after.Reported (r.note (.proceed c : Event C R X) before after) := by
  cases moves with
  | firstHit hit | secondHit hit =>
      cases reported
      exact .inl rfl
  | lockedHit hit | error | close =>
      cases reported
      exact ⟨rfl, rfl, rfl, _, rfl, nofun, rfl⟩
  | unlocked =>
      obtain ⟨-, answered, -, body, isBody, -, same⟩ := reported
      exact ⟨⟨body, isBody, same⟩, fun _ => ⟨answered, rfl⟩⟩
  | tokenless =>
      obtain ⟨-, -, idle, -⟩ := reported
      exact ⟨⟨_, rfl, rfl⟩, fun awaits => nomatch idle.symm.trans awaits⟩
  | finish => exact .inr reported.1
  | _ => exact reported

theorem reported_released {outcome : Outcome V} (reported : (.releasing true outcome : Phase C R V).Reported r) :
    (.ending outcome : Phase C R V).Reported
      (r.note (.proceed c : Event C R X) (.releasing true outcome) (.ending outcome : Phase C R V)) := by
  obtain ⟨-, answered, -, body, isBody, -, same⟩ := reported
  exact ⟨⟨body, isBody, same⟩, fun _ => ⟨answered, rfl⟩⟩

theorem reported_reply (x : X) (moves : Moves metric ticker s c (.reply c none) before after)
    (reported : before.Reported r) : after.Reported (r.note (.reply c (.error x) : Event C R X) before after) := by
  cases moves
  cases reported
  exact ⟨rfl, rfl, rfl, _, rfl, nofun, rfl⟩

theorem reported_interrupt {event : Event C R X} (strikes : event = .cancel c ∨ ∃ x, event = .fail c x)
    (raised : interrupted before = some after) (reported : before.Reported r) :
    after.Reported (r.note event before after) := by
  have exception : event.exception ≠ .lockError := by
    rcases strikes with rfl | ⟨x, rfl⟩ <;> exact nofun
  cases before with
  | start | firstRead value | waiting leader | secondRead value =>
      cases raised
      cases reported
      exact .inl rfl
  | acquiring | granted | acquired | lockedRead value | stored result =>
      cases raised
      cases reported
      exact ⟨rfl, rfl, rfl, _, rfl, fun same => exception (Exit.raised.inj same), rfl⟩
  | fetching rest =>
      cases rest <;> cases raised
      cases reported
      exact ⟨rfl, rfl, rfl, _, rfl, fun same => exception (Exit.raised.inj same), rfl⟩
  | closing owned outcome | releasing owned outcome | ending outcome =>
      cases raised
      rcases strikes with rfl | ⟨x, rfl⟩ <;> exact ⟨⟨_, rfl, rfl⟩, nofun⟩
  | calling request next => cases raised
  | finished outcome => cases raised

theorem kept_body {event : Event C R X} (reported : before.Reported r) (body : before.cleaning = false)
    (running : ∀ outcome, before ≠ .finished outcome) : (r.note event before after).Kept := by
  have fresh : r = .fresh := by
    cases before with
    | closing owned outcome | releasing owned outcome | ending outcome => cases body
    | finished outcome => exact absurd rfl (running outcome)
    | _ => exact reported
  subst fresh
  have silent : ((Report.fresh : Report X V).note event before after).exit = none := by
    unfold Report.note
    rw [if_neg (by rw [body]; exact Bool.false_ne_true)]
    split <;> rfl
  intro _ seen same
  cases silent.symm.trans same

theorem kept_proceed (reported : before.Reported r) (kept : r.Kept) (running : ∀ outcome, before ≠ .finished outcome)
    (token : ∀ outcome, before ≠ .releasing false outcome) : (r.note (.proceed c : Event C R X) before after).Kept := by
  cases cleaning : before.cleaning with
  | false => exact kept_body reported cleaning running
  | true =>
      unfold Report.note
      rw [if_pos cleaning]
      simp only
      split
      · exact absurd rfl (token _)
      · exact fun _ _ same => same
      · exact kept

end Moves

/-! One step of the slot. -/

namespace Watched

variable {P C R V X : Type*} [DecidableEq P] [DecidableEq C] {metric : Metric R V} {ticker : String} {proc : C → P}
  {w next : Watched P C R V X} {event : Event C R X}

open Slot

theorem step_eq_some (one : w.step metric ticker proc event = some next) :
    w.refuses event = false ∧ ∃ slot, w.slot.step metric ticker proc event.action = some slot ∧ next = w.noted event slot := by
  unfold step at one
  split at one
  case isTrue => cases one
  case isFalse allowed =>
    obtain ⟨slot, moved, same⟩ := Option.map_eq_some_iff.mp one
    exact ⟨Bool.eq_false_iff.mpr allowed, slot, moved, same.symm⟩

theorem turn_cases {s t : Slot P C R V} (one : s.step metric ticker proc event.action = some t) :
    (event.caller = none ∧ t.phase = s.phase) ∨
      ∃ c after, event.caller = some c ∧ t.phase = Function.update s.phase c after ∧
        ∀ r : Report X V, (s.phase c).Reported r → after.Reported (r.note event (s.phase c) after) := by
  have change := step_cases one
  cases event with
  | proceed c =>
      cases change with
      | @moved c' _ after moves phases =>
          cases caller_proceed moves
          exact .inr ⟨c, after, rfl, phases, fun r => reported_proceed moves⟩
      | acquired before free after =>
          subst after
          exact .inr ⟨c, .granted, rfl, rfl, fun r reported => by rw [before] at reported ⊢; exact reported⟩
      | stored before after =>
          subst after
          exact .inr ⟨c, _, rfl, rfl, fun r reported => by rw [before] at reported ⊢; exact reported⟩
      | released before after =>
          subst after
          exact .inr ⟨c, _, rfl, rfl, fun r reported => by rw [before] at reported ⊢; exact reported_released reported⟩
  | reply c answer =>
      cases answer with
      | error x =>
          cases change with
          | @moved c' _ after moves phases =>
              cases caller_reply moves
              exact .inr ⟨c, after, rfl, phases, fun r => reported_reply x moves⟩
      | ok response =>
          cases change with
          | @moved c' _ after moves => cases moves
          | answered before after =>
              subst after
              exact .inr ⟨c, _, rfl, rfl, fun r reported => by rw [before] at reported ⊢; exact reported⟩
  | cancel c =>
      cases change with
      | @moved c' _ after moves phases =>
          cases moves with
          | interrupt raised => exact .inr ⟨c, after, rfl, phases, fun r => reported_interrupt (.inl rfl) raised⟩
  | fail c x =>
      cases change with
      | @moved c' _ after moves phases =>
          cases moves with
          | interrupt raised => exact .inr ⟨c, after, rfl, phases, fun r => reported_interrupt (.inr ⟨x, rfl⟩) raised⟩
  | lockExpires =>
      cases change with
      | moved moves => cases moves
      | lockExpired after => exact .inl ⟨rfl, after ▸ rfl⟩
  | entryExpires =>
      cases change with
      | moved moves => cases moves
      | entryExpired after => exact .inl ⟨rfl, after ▸ rfl⟩

theorem reported_step (reported : ∀ c, (w.slot.phase c).Reported (w.report c))
    (one : w.step metric ticker proc event = some next) : ∀ c, (next.slot.phase c).Reported (next.report c) := by
  obtain ⟨-, slot, moved, rfl⟩ := step_eq_some one
  rcases turn_cases moved with ⟨nobody, same⟩ | ⟨c, after, own, phases, turned⟩
  · simp only [noted, nobody, same]
    exact reported
  · intro d
    simp only [noted, own, phases, Function.update_self]
    by_cases here : d = c
    · subst here
      rw [Function.update_self, Function.update_self]
      exact turned _ (reported d)
    · rw [Function.update_of_ne here, Function.update_of_ne here]
      exact reported d

theorem not_finished {s t : Slot P C R V} {c : C} (own : event.caller = some c)
    (one : s.step metric ticker proc event.action = some t) (outcome : Outcome V) : s.phase c ≠ .finished outcome := by
  intro finished
  cases event with
  | proceed d | cancel d | fail d x =>
      cases own
      simp [Event.action, Slot.step, proceed, interrupted, finished] at one
  | reply d answer =>
      cases own
      simp [Event.action, Slot.step, finished] at one
  | lockExpires | entryExpires => cases own

omit [DecidableEq P] [DecidableEq C] in
theorem atCleanup_of_allowed {c : C} (allowed : ((w.slot.phase c).cleaning && !w.atCleanup c) = false)
    (cleaning : (w.slot.phase c).cleaning = true) : w.atCleanup c = true := by
  simpa [cleaning] using allowed

theorem kept_step (inv : w.Inv) (clean : w.Clean event) (one : w.step metric ticker proc event = some next) :
    next.Kept := by
  obtain ⟨allowed, slot, moved, rfl⟩ := step_eq_some one
  intro d
  cases own : event.caller with
  | none =>
      simp only [noted, own]
      exact inv.kept d
  | some c =>
      simp only [noted, own]
      by_cases here : d = c
      · subst here
        rw [Function.update_self]
        have reported := inv.reported d
        have running := not_finished own moved
        cases event with
        | proceed d' =>
            cases own
            exact kept_proceed reported (inv.kept d) running clean
        | reply d' answer =>
            cases own
            -- a request is answered in the `try` block alone
            have calling : (w.slot.phase d).cleaning = false := by
              simp only [Event.action, Slot.step] at moved
              split at moved
              · rename_i calling
                rw [calling]
                rfl
              · cases moved
            exact kept_body reported calling running
        | cancel d' =>
            cases own
            cases cleaning : (w.slot.phase d).cleaning with
            | false => exact kept_body reported cleaning running
            | true =>
                have ended := clean (atCleanup_of_allowed allowed cleaning)
                unfold Report.note
                rw [if_pos cleaning]
                rintro _ seen same
                cases same
                exact ended
        | fail d' x =>
            cases own
            cases cleaning : (w.slot.phase d).cleaning with
            | false => exact kept_body reported cleaning running
            | true =>
                unfold Report.note
                rw [if_pos cleaning]
                intro unfailed
                cases unfailed
        | lockExpires | entryExpires => cases own
      · rw [Function.update_of_ne here]
        exact inv.kept d

theorem Inv.step (inv : w.Inv) (clean : w.Clean event) (one : w.step metric ticker proc event = some next) : next.Inv :=
  ⟨reported_step inv.reported one, kept_step inv clean one⟩

omit [DecidableEq P] in
theorem slot_noted (w : Watched P C R V X) (event : Event C R X) (slot : Slot P C R V) : (w.noted event slot).slot = slot := by
  unfold noted
  split <;> rfl

theorem spares_step (one : w.step metric ticker proc event = some next) : w.Spares next event := by
  obtain ⟨-, slot, moved, rfl⟩ := step_eq_some one
  intro c own _ other apart held
  rw [slot_noted]
  have change := step_cases moved
  cases event with
  | proceed d =>
      cases own
      cases change with
      | moved moves phases entry lock => rw [lock, held]
      -- the key is only set where nobody has it
      | acquired before free => cases free.symm.trans held
      | stored before after => rw [after, ← held]; rfl
      | released before after =>
          -- and only deleted by the caller whose token it holds
          have notOwn : w.slot.lock ≠ some c := fun mine => apart (Option.some.inj (held.symm.trans mine))
          rw [after, ← held]
          exact if_neg notOwn
  | reply d answer =>
      cases answer with
      | error x => cases change with
        | moved moves phases entry lock => rw [lock, held]
      | ok response => cases change with
        | moved moves phases entry lock => rw [lock, held]
        | answered before after => rw [after, ← held]; rfl
  | cancel d | fail d x => cases change with
    | moved moves phases entry lock => rw [lock, held]
  | lockExpires | entryExpires => cases own

omit [DecidableEq P] [DecidableEq C] in
theorem answered_of_atCleanup {c : C} (reported : (w.slot.phase c).Reported (w.report c)) (waits : w.atCleanup c = true) :
    (w.slot.phase c).cleaning = true ∧ interrupted (w.slot.phase c) = some (.ending .raised) ∧
      (w.report c).failed = false := by
  unfold atCleanup at waits
  cases here : w.slot.phase c with
  | closing owned outcome | releasing owned outcome =>
      rw [here] at reported
      exact ⟨rfl, rfl, reported.2.1⟩
  | ending outcome =>
      rw [here] at reported waits
      exact ⟨rfl, rfl, (reported.2 waits).1⟩
  | _ =>
      rw [here] at waits
      cases waits

/-- Without its token, or cancelled, a caller leaves with another exception. -/
theorem clean_of_kept (inv : w.Inv) (kept : ∀ next, w.step metric ticker proc event = some next → next.Kept) :
    w.Clean event := by
  cases event with
  | proceed c =>
      intro outcome releasing
      have one : w.step metric ticker proc (.proceed c) =
          some (w.noted (.proceed c) (w.slot.move c (.ending .raised))) := by
        simp [step, refuses, Event.action, Slot.step, proceed, releasing]
      have reported := inv.reported c
      rw [releasing] at reported
      obtain ⟨-, answered, -, body, isBody, other, -⟩ := reported
      have same := kept _ one c
      simp only [noted, Event.caller, Function.update_self, releasing, Report.note, Phase.cleaning, if_true] at same
      have lockError := same answered _ rfl
      exact other (Option.some.inj (isBody.symm.trans lockError))
  | cancel c =>
      intro waits
      obtain ⟨cleaning, strikes, answered⟩ := answered_of_atCleanup (inv.reported c) waits
      have one : w.step metric ticker proc (.cancel c) =
          some (w.noted (.cancel c) (w.slot.move c (.ending .raised))) := by
        simp [step, refuses, Event.action, Slot.step, strikes, waits]
      have same := kept _ one c
      simp only [noted, Event.caller, Function.update_self, Report.note, cleaning, if_true] at same
      exact same answered _ rfl
  | _ => trivial

/-- In every run the `finally` block releases no other holder's lock, and a
caller to which Redis answers leaves as its `try` block ended, just when no
caller comes to `release` without its token or is cancelled in the block. -/
theorem cleanup_iff (metric : Metric R V) (ticker : String) (proc : C → P) (events : List (Event C R X)) :
    Along (step metric ticker proc)
        (fun w event => ∀ next, w.step metric ticker proc event = some next → next.Kept ∧ w.Spares next event) events
        fresh ↔
      Along (step metric ticker proc) Clean events fresh := by
  apply along_congr Inv (fun inv clean one => inv.step clean one) _ Inv.fresh
  intro w event inv
  constructor
  · exact fun good => clean_of_kept inv fun next one => (good next one).1
  · exact fun clean next one => ⟨kept_step inv clean one, spares_step one⟩

/-- The second caller is cancelled while it waits for the lock of the first. -/
def cancelledWaiting : List (Event Nat (List Value) String) :=
  [.proceed 0, .proceed 0, .proceed 0, .proceed 1, .proceed 1, .cancel 1, .proceed 1, .proceed 1, .proceed 1]

/-- It leaves with a `LockError` in place of the `CancelledError`. -/
theorem lockError_cancelledWaiting :
    ∃ w : Watched Nat Nat (List Value) Value String,
      exec (step freeFloat "SPY" id) cancelledWaiting fresh = some w ∧
        (w.report 1).body = some (.raised .cancelled) ∧ (w.report 1).exit = some (.raised .lockError) ∧
        (w.report 1).failed = false ∧ ¬w.Kept := by
  refine ⟨_, rfl, rfl, rfl, rfl, ?_⟩
  intro kept
  cases kept 1 rfl _ rfl

end Watched

end KuhlHausMdp.MarketDataCache
