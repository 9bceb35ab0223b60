import Mathlib
import KuhlHausMdp.FinlightDataQueues

/-! `FinlightSimpleListener`: `start`, `stop`, the `_run` tasks and one
`_handle_article` task for each article, a stretch between two awaits at a time. -/

set_option autoImplicit false

namespace KuhlHausMdp

open Transition

namespace FinlightSimpleListener

inductive Stage where
  | created
  | connecting
  | sleeping
  | finished
  deriving DecidableEq

/-- `cancelling` from `cancel` on, until the `CancelledError` is thrown. -/
structure RunTask where
  stage : Stage
  cancelling : Bool
  deriving DecidableEq

inductive Outcome where
  | returned
  | raised
  | cancelled
  deriving DecidableEq

variable {F Text : Type*}

/-- Where `_handle_article` is suspended, or how its call of `handle_message` ended:
with the body that the broker has taken, if any, and whether it was counted. -/
inductive Handling (Text : Type*) where
  | scheduled
  | publishing (channel : Nat) (body : Text)
  | raised (error : FinlightDataQueues.HandleError)
  | returned (taken : Option Text) (counted : Bool)

structure Handler (F Text : Type*) where
  article : Serde.Obj F
  handling : Handling Text

end FinlightSimpleListener

open FinlightSimpleListener in
/-- Tasks, calls of `stop` and articles are numbered as they come. `stops` has, for
each call of `stop`, the task it awaits, and none once it has returned. -/
structure FinlightSimpleListener (F Text : Type*) where
  running : Bool
  task : Option Nat
  tasks : List RunTask
  stops : List (Option Nat)
  connected : Bool
  healthy : Bool
  articlesReceived : Nat
  errors : Nat
  handlers : List (Handler F Text)
  queues : FinlightDataQueues Text

namespace FinlightSimpleListener

inductive Action (F : Type*) where
  | start
  | stop
  | stopped (call : Nat)
  | begin (task : Nat)
  | cancelled (task : Nat)
  | disconnected (task : Nat) (outcome : Outcome)
  | slept (task : Nat)
  | article (task : Nat) (article : Serde.Obj F)
  | handle (handler : Nat)
  | confirm (handler : Nat) (delivery : Delivery)
  | rabbit (action : DataQueues.Action)

variable {F Text : Type*}

def fresh : FinlightSimpleListener F Text where
  running := false
  task := none
  tasks := []
  stops := []
  connected := false
  healthy := false
  articlesReceived := 0
  errors := 0
  handlers := []
  queues := .fresh

def stageOf (s : FinlightSimpleListener F Text) (task : Nat) : Stage :=
  match s.tasks[task]? with
  | some runTask => runTask.stage
  | none => .finished

def Unfinished (s : FinlightSimpleListener F Text) (task : Nat) : Prop := s.stageOf task ≠ .finished

instance (s : FinlightSimpleListener F Text) (task : Nat) : Decidable (s.Unfinished task) :=
  inferInstanceAs (Decidable (s.stageOf task ≠ .finished))

def setStage (s : FinlightSimpleListener F Text) (task : Nat) (stage : Stage) : FinlightSimpleListener F Text :=
  { s with tasks := s.tasks.set task ⟨stage, false⟩ }

def cancel (s : FinlightSimpleListener F Text) (task : Nat) : FinlightSimpleListener F Text :=
  { s with tasks := s.tasks.set task ⟨s.stageOf task, true⟩ }

def status (s : FinlightSimpleListener F Text) (up : Bool) : FinlightSimpleListener F Text :=
  { s with connected := up, healthy := up }

/-- A task is created whether or not there is one already. -/
def start (s : FinlightSimpleListener F Text) : FinlightSimpleListener F Text :=
  { s with running := true, task := some s.tasks.length, tasks := s.tasks ++ [⟨.created, false⟩] }

/-- `stop` up to its await, or to its end when there is nothing to await. -/
def stop (s : FinlightSimpleListener F Text) : FinlightSimpleListener F Text :=
  let s := { s with running := false }
  match s.task with
  | some task =>
      if s.Unfinished task then { s.cancel task with stops := s.stops ++ [some task] }
      else { s.status false with stops := s.stops ++ [none] }
  | none => { s.status false with stops := s.stops ++ [none] }

def finishStop (s : FinlightSimpleListener F Text) (call : Nat) : FinlightSimpleListener F Text :=
  { s.status false with stops := s.stops.set call none }

def loop (s : FinlightSimpleListener F Text) (task : Nat) : FinlightSimpleListener F Text :=
  if s.running then (s.status true).setStage task .connecting else s.setStage task .finished

def disconnected (s : FinlightSimpleListener F Text) (task : Nat) : Outcome → FinlightSimpleListener F Text
  | .returned => { s with connected := false }.loop task
  -- `break` leaves the status as it is
  | .cancelled => s.setStage task .finished
  | .raised =>
      let s := { s.status false with errors := s.errors + 1 }
      if s.running then s.setStage task .sleeping else s.setStage task .finished

/-- Whether `[:80]` returns; a date or a number is a leaf, or an object. -/
def sliceable : Serde.Obj F → Bool
  | .str _ | .list _ | .tuple _ => true
  | _ => false

/-- Whether the line that logs the article returns: `getattr(article, 'headline', str(article))[:80]`. -/
def logs : Serde.Obj F → Bool
  | .object attributes =>
      match attributes.lookup "headline" with
      | some headline => sliceable headline
      | none => true
  | _ => true

def setHandler (s : FinlightSimpleListener F Text) (handler : Nat) (article : Serde.Obj F) (handling : Handling Text) :
    FinlightSimpleListener F Text :=
  { s with handlers := s.handlers.set handler ⟨article, handling⟩ }

def finishHandle (s : FinlightSimpleListener F Text) (handler : Nat) (article : Serde.Obj F) (taken : Option Text)
    (counted : Bool) : FinlightSimpleListener F Text :=
  { s with errors := if logs article then s.errors else s.errors + 1 }.setHandler handler article
    (.returned taken counted)

section

variable (number : F → ℚ) (json : Json Text)

def handleArticle (s : FinlightSimpleListener F Text) (handler : Nat) (article : Serde.Obj F) :
    FinlightSimpleListener F Text :=
  let s := { s with articlesReceived := s.articlesReceived + 1 }
  match s.queues.enter json (FinlightDataQueues.ofObj number article) with
  | (.error error, queues) =>
      { s with queues := queues, errors := s.errors + 1 }.setHandler handler article (.raised error)
  | (.ok none, queues) => { s with queues := queues }.finishHandle handler article none false
  | (.ok (some (channel, body)), queues) =>
      { s with queues := queues }.setHandler handler article (.publishing channel body)

def confirm (s : FinlightSimpleListener F Text) (handler : Nat) (article : Serde.Obj F) (channel : Nat) (body : Text)
    (delivery : Delivery) : FinlightSimpleListener F Text :=
  let taken := if s.queues.rabbit.Live channel ∧ delivery.taken then some body else none
  let counted := decide (s.queues.rabbit.Live channel ∧ delivery.returned)
  { s with queues := s.queues.confirm channel body delivery }.finishHandle handler article taken counted

def step (s : FinlightSimpleListener F Text) : Action F → Option (FinlightSimpleListener F Text)
  | .start => some s.start
  | .stop => some s.stop
  | .stopped call =>
      match s.stops[call]? with
      | some (some task) => if s.Unfinished task then none else some (s.finishStop call)
      | _ => none
  | .begin task =>
      match s.tasks[task]? with
      | some ⟨.created, false⟩ => some (s.loop task)
      | _ => none
  | .cancelled task =>
      match s.tasks[task]? with
      | some ⟨.created, true⟩ | some ⟨.sleeping, true⟩ => some (s.setStage task .finished)
      | _ => none
  | .disconnected task outcome =>
      match s.tasks[task]? with
      | some ⟨.connecting, _⟩ => some (s.disconnected task outcome)
      | _ => none
  | .slept task =>
      match s.tasks[task]? with
      | some ⟨.sleeping, false⟩ => some (s.loop task)
      | _ => none
  | .article task article =>
      match s.tasks[task]? with
      -- the library calls `on_article`, which creates a task
      | some ⟨.connecting, _⟩ => some { s with handlers := s.handlers ++ [⟨article, .scheduled⟩] }
      | _ => none
  | .handle handler =>
      match s.handlers[handler]? with
      | some ⟨article, .scheduled⟩ => some (s.handleArticle number json handler article)
      | _ => none
  | .confirm handler delivery =>
      match s.handlers[handler]? with
      | some ⟨article, .publishing channel body⟩ => some (s.confirm handler article channel body delivery)
      | _ => none
  | .rabbit action =>
      (DataQueues.step FinlightDataQueues.queues s.queues.rabbit action).map fun rabbit =>
        { s with queues := { s.queues with rabbit := rabbit } }

end

variable {number : F → ℚ} {json : Json Text} {s next : FinlightSimpleListener F Text}

inductive Performed (number : F → ℚ) (json : Json Text) (s : FinlightSimpleListener F Text) :
    Action F → FinlightSimpleListener F Text → Prop where
  | start : Performed number json s .start s.start
  | stop : Performed number json s .stop s.stop
  | stopped {call task : Nat} (awaiting : s.stops[call]? = some (some task)) (finished : ¬s.Unfinished task) :
      Performed number json s (.stopped call) (s.finishStop call)
  | begin {task : Nat} (unfinished : s.Unfinished task) : Performed number json s (.begin task) (s.loop task)
  | cancelled {task : Nat} (unfinished : s.Unfinished task) :
      Performed number json s (.cancelled task) (s.setStage task .finished)
  | disconnected {task : Nat} {outcome : Outcome} (unfinished : s.Unfinished task) :
      Performed number json s (.disconnected task outcome) (s.disconnected task outcome)
  | slept {task : Nat} (unfinished : s.Unfinished task) : Performed number json s (.slept task) (s.loop task)
  | article {task : Nat} {found : Serde.Obj F} (unfinished : s.Unfinished task) :
      Performed number json s (.article task found) { s with handlers := s.handlers ++ [⟨found, .scheduled⟩] }
  | handle {i : Nat} {article : Serde.Obj F} (at_ : s.handlers[i]? = some ⟨article, .scheduled⟩) :
      Performed number json s (.handle i) (s.handleArticle number json i article)
  | confirm {i channel : Nat} {article : Serde.Obj F} {body : Text} {delivery : Delivery}
      (at_ : s.handlers[i]? = some ⟨article, .publishing channel body⟩) :
      Performed number json s (.confirm i delivery) (s.confirm i article channel body delivery)
  | rabbit {action : DataQueues.Action} {rabbit : DataQueues}
      (one : DataQueues.step FinlightDataQueues.queues s.queues.rabbit action = some rabbit) :
      Performed number json s (.rabbit action) { s with queues := { s.queues with rabbit := rabbit } }

theorem unfinished_of_stage {task : Nat} {stage : Stage} {cancelling : Bool}
    (at_ : s.tasks[task]? = some ⟨stage, cancelling⟩) (goes : stage ≠ .finished) : s.Unfinished task := by
  unfold Unfinished stageOf
  rwa [at_]

theorem performed_of_step {action : Action F} (one : s.step number json action = some next) :
    s.Performed number json action next := by
  cases action with
  | start => cases one; exact .start
  | stop => cases one; exact .stop
  | stopped call =>
      simp only [step] at one
      split at one
      · rename_i task awaiting
        split at one
        · cases one
        · rename_i finished
          cases one
          exact .stopped awaiting finished
      · cases one
  | begin task =>
      simp only [step] at one
      split at one <;> cases one
      rename_i at_
      exact .begin (unfinished_of_stage at_ (by decide))
  | cancelled task =>
      simp only [step] at one
      split at one <;> cases one
      · rename_i at_
        exact .cancelled (unfinished_of_stage at_ (by decide))
      · rename_i at_
        exact .cancelled (unfinished_of_stage at_ (by decide))
  | disconnected task outcome =>
      simp only [step] at one
      split at one <;> cases one
      rename_i at_
      exact .disconnected (unfinished_of_stage at_ (by decide))
  | slept task =>
      simp only [step] at one
      split at one <;> cases one
      rename_i at_
      exact .slept (unfinished_of_stage at_ (by decide))
  | article task found =>
      simp only [step] at one
      split at one <;> cases one
      rename_i at_
      exact .article (unfinished_of_stage at_ (by decide))
  | handle i =>
      simp only [step] at one
      split at one <;> cases one
      rename_i article at_
      exact .handle at_
  | confirm i delivery =>
      simp only [step] at one
      split at one <;> cases one
      rename_i article channel body at_
      exact .confirm at_
  | rabbit action =>
      obtain ⟨rabbit, moved, rfl⟩ := Option.map_eq_some_iff.mp one
      exact .rabbit moved

end FinlightSimpleListener
end KuhlHausMdp
