import Mathlib
import KuhlHausMdp.Library.WorkQueue

/-! A producer and the queues that take what it publishes. -/

set_option autoImplicit false

structure Produced (P M C : Type*) where
  producer : P
  work : WorkQueue M C

namespace Produced

open Transition

inductive Action (B M L E : Type*) where
  | producer (action : B)
  | work (action : WorkQueue.Action M L E)

namespace Action

variable {B M L E : Type*}

def ofProducer : Action B M L E → Option B
  | .producer action => some action
  | .work _ => none

def redelivers : Action B M L E → Bool
  | .producer _ => false
  | .work action => action.redelivers

def loses : Action B M L E → Bool
  | .producer _ => false
  | .work action => action.loses

end Action

variable {P B M C L E : Type*}

def fresh (start : P) : Produced P M C := ⟨start, .empty⟩

section

variable [DecidableEq L] (produce : P → B → Option P) (published : P → List M) (lane : M → L) (plan : E → M → List C)

def step (s : Produced P M C) : Action B M L E → Option (Produced P M C)
  | .producer action => (produce s.producer action).map fun producer => {
      producer := producer
      work := s.work.send ((published producer).drop (published s.producer).length) }
  -- only the producer sends
  | .work (.send _) => none
  | .work action => (WorkQueue.step lane plan s.work action).map fun work => { s with work := work }

end

variable [DecidableEq L] {produce : P → B → Option P} {published : P → List M} {lane : M → L} {plan : E → M → List C}
  {start : P} {s : Produced P M C}

theorem step_work {action : WorkQueue.Action M L E} {next : Produced P M C}
    (one : step produce published lane plan s (.work action) = some next) :
    (∀ messages, action ≠ .send messages) ∧ ∃ work, WorkQueue.step lane plan s.work action = some work ∧
      next = { s with work := work } := by
  cases action with
  | send => cases one
  | _ =>
      obtain ⟨work, moved, rfl⟩ := Option.map_eq_some_iff.mp one
      exact ⟨by simp, work, moved, rfl⟩

theorem step_producer {action : Action B M L E} {next : Produced P M C}
    (one : step produce published lane plan s action = some next) :
    (∀ move, action.ofProducer = some move → produce s.producer move = some next.producer) ∧
      (action.ofProducer = none → next.producer = s.producer) := by
  cases action with
  | producer action =>
      obtain ⟨producer, moved, rfl⟩ := Option.map_eq_some_iff.mp one
      refine ⟨fun move same => ?_, fun still => by cases still⟩
      cases same
      exact moved
  | work action =>
      obtain ⟨-, work, -, rfl⟩ := step_work one
      exact ⟨fun move same => (by cases same), fun _ => rfl⟩

theorem producer_of_run {actions : List (Action B M L E)}
    (run : exec (step produce published lane plan) actions (fresh start) = some s) :
    exec produce (actions.filterMap Action.ofProducer) start = some s.producer :=
  exec_project Produced.producer Action.ofProducer step_producer run

theorem along_producer {permitted : P → B → Prop} {actions : List (Action B M L E)}
    (along : Along (step produce published lane plan)
      (fun s action => ∀ move, action.ofProducer = some move → permitted s.producer move) actions (fresh start))
    (run : exec (step produce published lane plan) actions (fresh start) = some s) :
    Along produce permitted (actions.filterMap Action.ofProducer) start :=
  along_project Produced.producer Action.ofProducer step_producer along run

/-- A run of the whole is a run of the queues; what is permitted of the one is
permitted of the other. -/
theorem work_of_run (permitted : Produced P M C → Action B M L E → Prop)
    (allowed : WorkQueue M C → WorkQueue.Action M L E → Prop) (sends : ∀ work messages, allowed work (.send messages))
    (carries : ∀ {s : Produced P M C} {action}, permitted s (.work action) → allowed s.work action)
    {actions : List (Action B M L E)}
    (along : Along (step produce published lane plan) permitted actions (fresh start))
    (run : exec (step produce published lane plan) actions (fresh start) = some s) :
    ∃ moves, Along (WorkQueue.step lane plan) allowed moves .empty ∧
      exec (WorkQueue.step lane plan) moves .empty = some s.work := by
  apply exec_simulates Produced.work _ along run
  intro state action next fine one
  cases action with
  | producer action =>
      obtain ⟨producer, -, rfl⟩ := Option.map_eq_some_iff.mp one
      exact ⟨.send _, sends _ _, rfl⟩
  | work action =>
      obtain ⟨-, work, moved, rfl⟩ := step_work one
      exact ⟨action, carries fine, moved⟩

/-- The same where the permission does not look at the state. -/
theorem work_of_undisturbed (permitted : Bool → Bool → Prop) (quiet : permitted false false)
    {actions : List (Action B M L E)}
    (run : exec (step produce published lane plan) actions (fresh start) = some s)
    (allowed : ∀ action ∈ actions, permitted action.redelivers action.loses) :
    ∃ moves, Along (WorkQueue.step lane plan) (fun _ move => permitted move.redelivers move.loses) moves .empty ∧
      exec (WorkQueue.step lane plan) moves .empty = some s.work :=
  work_of_run (fun _ action => permitted action.redelivers action.loses) _ (fun _ _ => quiet) (fun fine => fine)
    (along_of_forall allowed (fresh start)) run

theorem consistent_of_run {actions : List (Action B M L E)}
    (run : exec (step produce published lane plan) actions (fresh start) = some s) : s.work.Consistent plan := by
  obtain ⟨moves, -, works⟩ := work_of_undisturbed (fun _ _ => True) trivial run fun _ _ => trivial
  exact WorkQueue.consistent_of_run works

theorem sent_of_run (grows : ∀ {s action next}, produce s action = some next → published s <+: published next)
    (none : published start = []) {actions : List (Action B M L E)}
    (run : exec (step produce published lane plan) actions (fresh start) = some s) :
    s.work.sent = published s.producer := by
  apply exec_invariant (fun s : Produced P M C => s.work.sent = published s.producer) _ none.symm run
  intro state action next same one
  cases action with
  | producer action =>
      obtain ⟨producer, moved, rfl⟩ := Option.map_eq_some_iff.mp one
      obtain ⟨more, grown⟩ := grows moved
      change state.work.sent ++ (published producer).drop _ = published producer
      rw [same, ← grown, List.drop_left]
  | work action =>
      obtain ⟨consumer, work, moved, rfl⟩ := step_work one
      exact (WorkQueue.sent_of_step moved consumer).trans same

end Produced
