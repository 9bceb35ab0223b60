import Mathlib.Logic.Function.Basic
import KuhlHausMdp.Library.Transition

/-! `FinlightDataListener`: `start`, `stop`, `restart`, the setters and the
`_run` tasks, one stretch between two awaits at a time. -/

set_option autoImplicit false

namespace KuhlHausMdp.FinlightDataListener

open Transition

structure Settings where
  query : Option String
  tickers : Option (List String)
  sources : Option (List String)
  language : Option String
  deriving DecidableEq

/-- The arguments of `__init__` that have no setter. -/
structure Config where
  raw : Bool
  includeEntities : Bool
  maxReconnects : Option Int

inductive Params where
  | getRawArticles (query : Option String) (sources : Option (List String)) (language : Option String)
  | getArticles (query : Option String) (tickers sources : Option (List String)) (language : Option String)
      (includeEntities : Bool)
  deriving DecidableEq

inductive Stage where
  | created
  | connecting (params : Params)
  | sleeping
  | finished
  deriving DecidableEq

/-- `cancelling` from `cancel` on, until the `CancelledError` is thrown. -/
structure RunTask where
  stage : Stage
  cancelling : Bool
  deriving DecidableEq

/-- Where a call of `stop` or `restart` is suspended: before its first line, at
`await self._task`, or in the sleep of `restart`. -/
inductive Call where
  | scheduled
  | stopping (task : Nat) (restarts : Bool)
  | pausing
  deriving DecidableEq

/-- Tasks are numbered as they are created; those to come count as finished.
`connection_status` repeats the settings, which are left out of it here.
`stopped` is whether `stop` was called after every `start`. -/
structure Listener where
  settings : Settings
  connected : Bool
  healthy : Bool
  reconnects : Nat
  running : Bool
  task : Option Nat
  created : Nat
  tasks : Nat → RunTask
  calls : Nat → Option Call
  stopped : Bool

inductive Outcome where
  | returned
  | raised
  | cancelled
  deriving DecidableEq

inductive Action where
  | start
  | stop (call : Nat)
  | restart (call : Nat)
  | setQuery (value : Option String) (call : Nat)
  | setTickers (value : Option (List String)) (call : Nat)
  | setSources (value : Option (List String)) (call : Nat)
  | setLanguage (value : Option String) (call : Nat)
  | enter (call : Nat)
  | resume (call : Nat)
  | wake (call : Nat)
  | begin (task : Nat) (built : Bool)
  | disconnected (task : Nat) (outcome : Outcome)
  | slept (task : Nat)
  | cancelled (task : Nat)

def Config.params (config : Config) (settings : Settings) : Params :=
  if config.raw then .getRawArticles settings.query settings.sources settings.language
  else .getArticles settings.query settings.tickers settings.sources settings.language config.includeEntities

/-- `self.max_reconnects and reconnects >= self.max_reconnects`. -/
def Config.exhausted (config : Config) (reconnects : Nat) : Bool :=
  match config.maxReconnects with
  | none => false
  | some most => decide (most ≠ 0 ∧ most ≤ reconnects)

namespace Listener

def fresh (settings : Settings) : Listener where
  settings := settings
  connected := false
  healthy := false
  reconnects := 0
  running := false
  task := none
  created := 0
  tasks _ := ⟨.finished, false⟩
  calls _ := none
  stopped := false

def Unfinished (s : Listener) (task : Nat) : Prop := (s.tasks task).stage ≠ .finished

instance (s : Listener) (task : Nat) : Decidable (s.Unfinished task) :=
  inferInstanceAs (Decidable ((s.tasks task).stage ≠ .finished))

def setStage (s : Listener) (task : Nat) (stage : Stage) : Listener :=
  { s with tasks := Function.update s.tasks task ⟨stage, false⟩ }

def cancel (s : Listener) (task : Nat) : Listener :=
  { s with tasks := Function.update s.tasks task { s.tasks task with cancelling := true } }

def setCall (s : Listener) (call : Nat) (stage : Option Call) : Listener :=
  { s with calls := Function.update s.calls call stage }

def status (s : Listener) (up : Bool) : Listener := { s with connected := up, healthy := up }

def createTask (s : Listener) : Listener :=
  { s with
    running := true
    task := some s.created
    created := s.created + 1
    tasks := Function.update s.tasks s.created ⟨.created, false⟩ }

def start (s : Listener) : Listener :=
  let s := { s with stopped := false }
  match s.task with
  | some task => if s.Unfinished task then s else s.createTask
  | none => s.createTask

def finishStop (s : Listener) (call : Nat) (restarts : Bool) : Listener :=
  { s with task := none }.status false |>.setCall call (if restarts then some .pausing else none)

def stop (s : Listener) (call : Nat) (restarts : Bool) : Listener :=
  let s := { s with running := false, stopped := true }
  match s.task with
  | some task =>
      if s.Unfinished task then (s.cancel task).setCall call (some (.stopping task restarts))
      else s.finishStop call restarts
  | none => s.finishStop call restarts

def assigned (s : Listener) (call : Nat) : Listener := if s.connected then s.setCall call (some .scheduled) else s

def setQuery (s : Listener) (value : Option String) (call : Nat) : Listener :=
  { s with settings := { s.settings with query := value } }.assigned call

def setTickers (s : Listener) (value : Option (List String)) (call : Nat) : Listener :=
  { s with settings := { s.settings with tickers := value } }.assigned call

def setSources (s : Listener) (value : Option (List String)) (call : Nat) : Listener :=
  { s with settings := { s.settings with sources := value } }.assigned call

def setLanguage (s : Listener) (value : Option String) (call : Nat) : Listener :=
  { s with settings := { s.settings with language := value } }.assigned call

def leave (s : Listener) (task : Nat) : Listener := (s.status false).setStage task .finished

section

variable (config : Config)

def loop (s : Listener) (task : Nat) : Listener :=
  if s.running then (s.status true).setStage task (.connecting (config.params s.settings)) else s.leave task

def reconnect (s : Listener) (task : Nat) : Listener :=
  let s := s.status false
  if s.running then
    let s := { s with reconnects := s.reconnects + 1 }
    if config.exhausted s.reconnects then s.leave task else s.setStage task .sleeping
  else s.leave task

def called (s next : Listener) (call : Nat) : Option Listener :=
  match s.calls call with
  | none => some next
  | some _ => none

def step (s : Listener) : Action → Option Listener
  | .start => some s.start
  | .stop call => s.called (s.stop call false) call
  | .restart call => s.called (s.stop call true) call
  | .setQuery value call => s.called (s.setQuery value call) call
  | .setTickers value call => s.called (s.setTickers value call) call
  | .setSources value call => s.called (s.setSources value call) call
  | .setLanguage value call => s.called (s.setLanguage value call) call
  | .enter call =>
      match s.calls call with
      | some .scheduled => some (s.stop call true)
      | _ => none
  | .resume call =>
      match s.calls call with
      | some (.stopping task restarts) => if s.Unfinished task then none else some (s.finishStop call restarts)
      | _ => none
  | .wake call =>
      match s.calls call with
      | some .pausing => some (s.start.setCall call none)
      | _ => none
  | .begin task built =>
      match s.tasks task with
      -- an exception of `FinlightApi` ends the task
      | ⟨.created, false⟩ => some (if built then s.loop config task else s.setStage task .finished)
      | _ => none
  | .disconnected task outcome =>
      match s.tasks task, outcome with
      | ⟨.connecting _, _⟩, .cancelled => some (s.leave task)
      | ⟨.connecting _, _⟩, _ => some (s.reconnect config task)
      | _, _ => none
  | .slept task =>
      match s.tasks task with
      | ⟨.sleeping, false⟩ => some (s.loop config task)
      | _ => none
  | .cancelled task =>
      match s.tasks task with
      | ⟨.created, true⟩ | ⟨.sleeping, true⟩ => some (s.setStage task .finished)
      | _ => none

end

/-- At most one `_run` task is unfinished, and it is the one `_task` refers to. -/
def Single (s : Listener) : Prop := ∀ task, s.Unfinished task → s.task = some task

/-- After a `stop` that no `start` follows, with none of them under way, every
`_run` task is finished. -/
def Quiet (s : Listener) : Prop :=
  s.stopped = true → (∀ call task restarts, s.calls call ≠ some (.stopping task restarts)) → ∀ task, ¬s.Unfinished task

/-- A `stop` comes back from its await while `_task` refers to no unfinished task. -/
def Guarded (s : Listener) : Action → Prop
  | .resume call => ∀ task restarts, s.calls call = some (.stopping task restarts) → ¬s.Unfinished task →
      ∀ other, s.task = some other → ¬s.Unfinished other
  | _ => True

/-- After a `stop` that no `start` follows, a task that is left is awaited. -/
def Awaited (s : Listener) : Prop :=
  s.stopped = true → ∀ task, s.Unfinished task → ∃ call restarts, s.calls call = some (.stopping task restarts)

structure Inv (s : Listener) : Prop where
  single : s.Single
  awaited : s.Awaited

theorem Inv.quiet {s : Listener} (inv : s.Inv) : s.Quiet := by
  intro stopped free task unfinished
  obtain ⟨call, restarts, stopping⟩ := inv.awaited stopped task unfinished
  exact free call task restarts stopping

theorem Inv.fresh (settings : Settings) : (fresh settings).Inv where
  single := fun _ unfinished => absurd rfl unfinished
  awaited := fun stopped => by cases stopped

/-! What the parts of the model do to the tasks. -/

theorem unfinished_setStage {s : Listener} {task other : Nat} {stage : Stage} :
    (s.setStage task stage).Unfinished other ↔ if other = task then stage ≠ .finished else s.Unfinished other := by
  simp only [Unfinished, setStage]
  by_cases same : other = task
  · rw [if_pos same, same, Function.update_self]
  · rw [if_neg same, Function.update_of_ne same]

theorem unfinished_cancel {s : Listener} {task other : Nat} : (s.cancel task).Unfinished other ↔ s.Unfinished other := by
  simp only [Unfinished, cancel]
  by_cases same : other = task
  · rw [same, Function.update_self]
  · rw [Function.update_of_ne same]

theorem unfinished_createTask {s : Listener} {other : Nat} :
    s.createTask.Unfinished other ↔ other = s.created ∨ s.Unfinished other := by
  simp only [Unfinished, createTask]
  by_cases same : other = s.created
  · simp [same]
  · simp [same]

/-- A step of a task, or of a setter, leaves `_task` and the awaits of `stop` as
they are and makes no task unfinished. -/
structure Follows (s next : Listener) : Prop where
  task : next.task = s.task
  stopped : next.stopped = s.stopped
  calls : ∀ call task restarts, s.calls call = some (.stopping task restarts) →
    next.calls call = some (.stopping task restarts)
  fewer : ∀ task, next.Unfinished task → s.Unfinished task

theorem Follows.refl (s : Listener) : s.Follows s := ⟨rfl, rfl, fun _ _ _ same => same, fun _ same => same⟩

theorem Follows.inv {s next : Listener} (follows : s.Follows next) (inv : s.Inv) : next.Inv where
  single := fun task unfinished => follows.task.trans (inv.single task (follows.fewer task unfinished))
  awaited := by
    intro stopped task unfinished
    obtain ⟨call, restarts, stopping⟩ := inv.awaited (follows.stopped ▸ stopped) task (follows.fewer task unfinished)
    exact ⟨call, restarts, follows.calls call task restarts stopping⟩

theorem Follows.setStage {s next : Listener} (follows : s.Follows next) {task : Nat} {stage : Stage}
    (before : s.Unfinished task ∨ stage = .finished) : s.Follows (next.setStage task stage) where
  task := follows.task
  stopped := follows.stopped
  calls := follows.calls
  fewer := by
    intro other unfinished
    rw [unfinished_setStage] at unfinished
    split at unfinished
    case isTrue same =>
      rw [same]
      exact before.resolve_right unfinished
    case isFalse => exact follows.fewer other unfinished

theorem Follows.status {s next : Listener} (follows : s.Follows next) (up : Bool) : s.Follows (next.status up) :=
  ⟨follows.task, follows.stopped, follows.calls, follows.fewer⟩

theorem follows_leave {s next : Listener} (follows : s.Follows next) (task : Nat) : s.Follows (next.leave task) :=
  (follows.status false).setStage (.inr rfl)

section

variable {config : Config} {s next : Listener} {task : Nat}

theorem follows_loop (before : s.Unfinished task) : s.Follows (s.loop config task) := by
  unfold loop
  split
  · exact ((Follows.refl s).status true).setStage (.inl before)
  · exact follows_leave (.refl s) task

theorem follows_reconnect (before : s.Unfinished task) : s.Follows (s.reconnect config task) := by
  have down := (Follows.refl s).status false
  have counted : s.Follows { s.status false with reconnects := s.reconnects + 1 } :=
    ⟨down.task, down.stopped, down.calls, down.fewer⟩
  unfold reconnect
  simp only
  split
  · split
    · exact follows_leave counted task
    · exact counted.setStage (.inl before)
  · exact follows_leave down task

theorem follows_assigned {settings : Settings} {call : Nat} (free : s.calls call = none) :
    s.Follows ({ s with settings := settings }.assigned call) := by
  unfold assigned
  split
  · refine ⟨rfl, rfl, fun other task restarts stopping => ?_, fun _ same => same⟩
    have apart : other ≠ call := by
      rintro rfl
      cases free.symm.trans stopping
    exact (Function.update_of_ne apart _ _).trans stopping
  · exact ⟨rfl, rfl, fun _ _ _ same => same, fun _ same => same⟩

end

/-! The invariant under the calls. -/

theorem Inv.start {s : Listener} (inv : s.Inv) : s.start.Inv := by
  have idle (none : ∀ task, ¬s.Unfinished task) : ({ s with stopped := false } : Listener).createTask.Inv := by
    refine ⟨fun task unfinished => ?_, fun stopped => by cases stopped⟩
    rcases unfinished_createTask.mp unfinished with rfl | old
    · rfl
    · exact absurd old (none task)
  unfold Listener.start
  simp only
  split
  · rename_i task installed
    split
    · exact ⟨inv.single, fun stopped => by cases stopped⟩
    · rename_i finished
      refine idle fun other unfinished => ?_
      obtain rfl := Option.some.inj (installed.symm.trans (inv.single other unfinished))
      exact finished unfinished
  · rename_i none
    exact idle fun other unfinished => by cases none.symm.trans (inv.single other unfinished)

theorem Inv.setCall {s : Listener} (inv : s.Inv) {call : Nat} {stage : Option Call}
    (before : ∀ task restarts, s.calls call ≠ some (.stopping task restarts)) : (s.setCall call stage).Inv where
  single := inv.single
  awaited := by
    intro stopped task unfinished
    obtain ⟨other, restarts, stopping⟩ := inv.awaited stopped task unfinished
    have apart : other ≠ call := by
      rintro rfl
      exact before task restarts stopping
    exact ⟨other, restarts, (Function.update_of_ne apart _ _).trans stopping⟩

theorem inv_finishStop {s : Listener} (none : ∀ task, ¬s.Unfinished task) (call : Nat) (restarts : Bool) :
    (s.finishStop call restarts).Inv where
  single := fun task unfinished => absurd unfinished (none task)
  awaited := fun _ task unfinished => absurd unfinished (none task)

theorem Inv.stop {s : Listener} (inv : s.Inv) (call : Nat) (restarts : Bool) : (s.stop call restarts).Inv := by
  unfold Listener.stop
  simp only
  split
  · rename_i task installed
    split
    · refine ⟨fun other unfinished => ?_, fun _ other unfinished => ?_⟩
      · exact inv.single other (unfinished_cancel.mp unfinished)
      · have same : some task = some other := installed.symm.trans (inv.single other (unfinished_cancel.mp unfinished))
        cases same
        exact ⟨call, restarts, Function.update_self ..⟩
    · rename_i finished
      refine inv_finishStop (fun other unfinished => ?_) call restarts
      have same : some task = some other := installed.symm.trans (inv.single other unfinished)
      cases same
      exact finished unfinished
  · rename_i none
    exact inv_finishStop (fun other unfinished => by cases none.symm.trans (inv.single other unfinished)) call restarts

theorem called_eq_some {s next after : Listener} {call : Nat} (one : s.called next call = some after) :
    s.calls call = none ∧ after = next := by
  unfold called at one
  split at one
  case h_1 free => exact ⟨free, (Option.some.inj one).symm⟩
  case h_2 => cases one

inductive Performed (config : Config) (s : Listener) : Action → Listener → Prop where
  | start : Performed config s .start s.start
  | stop {call : Nat} : Performed config s (.stop call) (s.stop call false)
  | restart {call : Nat} : Performed config s (.restart call) (s.stop call true)
  | setQuery {value : Option String} {call : Nat} (free : s.calls call = none) :
      Performed config s (.setQuery value call) (s.setQuery value call)
  | setTickers {value : Option (List String)} {call : Nat} (free : s.calls call = none) :
      Performed config s (.setTickers value call) (s.setTickers value call)
  | setSources {value : Option (List String)} {call : Nat} (free : s.calls call = none) :
      Performed config s (.setSources value call) (s.setSources value call)
  | setLanguage {value : Option String} {call : Nat} (free : s.calls call = none) :
      Performed config s (.setLanguage value call) (s.setLanguage value call)
  | enter {call : Nat} : Performed config s (.enter call) (s.stop call true)
  | resume {call task : Nat} {restarts : Bool} (stopping : s.calls call = some (.stopping task restarts))
      (finished : ¬s.Unfinished task) : Performed config s (.resume call) (s.finishStop call restarts)
  | wake {call : Nat} (pausing : s.calls call = some .pausing) :
      Performed config s (.wake call) (s.start.setCall call none)
  | begin {task : Nat} (created : (s.tasks task).stage = .created) :
      Performed config s (.begin task true) (s.loop config task)
  | broken {task : Nat} : Performed config s (.begin task false) (s.setStage task .finished)
  | aborted {task : Nat} : Performed config s (.disconnected task .cancelled) (s.leave task)
  | disconnected {task : Nat} {params : Params} {outcome : Outcome}
      (connecting : (s.tasks task).stage = .connecting params) :
      Performed config s (.disconnected task outcome) (s.reconnect config task)
  | slept {task : Nat} (sleeping : (s.tasks task).stage = .sleeping) :
      Performed config s (.slept task) (s.loop config task)
  | cancelled {task : Nat} : Performed config s (.cancelled task) (s.setStage task .finished)

theorem performed_of_step {config : Config} {s next : Listener} {action : Action}
    (one : s.step config action = some next) : s.Performed config action next := by
  cases action with
  | start => cases one; exact .start
  | stop call =>
      obtain ⟨-, rfl⟩ := called_eq_some one
      exact .stop
  | restart call =>
      obtain ⟨-, rfl⟩ := called_eq_some one
      exact .restart
  | setQuery value call =>
      obtain ⟨free, rfl⟩ := called_eq_some one
      exact .setQuery free
  | setTickers value call =>
      obtain ⟨free, rfl⟩ := called_eq_some one
      exact .setTickers free
  | setSources value call =>
      obtain ⟨free, rfl⟩ := called_eq_some one
      exact .setSources free
  | setLanguage value call =>
      obtain ⟨free, rfl⟩ := called_eq_some one
      exact .setLanguage free
  | enter call =>
      simp only [step] at one
      split at one <;> cases one
      exact .enter
  | resume call =>
      simp only [step] at one
      split at one
      case h_1 stopping =>
        split at one
        case isTrue => cases one
        case isFalse finished => cases one; exact .resume stopping finished
      case h_2 => cases one
  | wake call =>
      simp only [step] at one
      split at one <;> cases one
      rename_i pausing
      exact .wake pausing
  | begin task built =>
      simp only [step] at one
      split at one <;> cases one
      rename_i created
      cases built with
      | true => exact .begin (by rw [created])
      | false => exact .broken
  | disconnected task outcome =>
      simp only [step] at one
      split at one <;> cases one
      · exact .aborted
      · rename_i connecting _
        exact .disconnected (by rw [connecting])
  | slept task =>
      simp only [step] at one
      split at one <;> cases one
      rename_i sleeping
      exact .slept (by rw [sleeping])
  | cancelled task =>
      simp only [step] at one
      split at one <;> cases one
      · exact .cancelled
      · exact .cancelled

theorem unfinished_of_stage {s : Listener} {task : Nat} {stage : Stage} (at_ : (s.tasks task).stage = stage)
    (goes : stage ≠ .finished) : s.Unfinished task := by rwa [Unfinished, at_]

theorem calls_start (s : Listener) : s.start.calls = s.calls := by
  unfold start
  simp only
  split
  · split <;> rfl
  · rfl

theorem Inv.step {config : Config} {s next : Listener} {action : Action} (inv : s.Inv) (guarded : s.Guarded action)
    (one : s.step config action = some next) : next.Inv := by
  cases performed_of_step one with
  | start => exact inv.start
  | stop => exact inv.stop _ false
  | restart | enter => exact inv.stop _ true
  | setQuery free | setTickers free | setSources free | setLanguage free => exact (follows_assigned free).inv inv
  | resume stopping finished =>
      have idle := guarded _ _ stopping finished
      refine inv_finishStop (fun other unfinished => ?_) _ _
      exact idle other (inv.single other unfinished) unfinished
  | wake pausing => exact inv.start.setCall (by rw [calls_start, pausing]; exact nofun)
  | begin created => exact (follows_loop (unfinished_of_stage created nofun)).inv inv
  | disconnected connecting => exact (follows_reconnect (unfinished_of_stage connecting nofun)).inv inv
  | slept sleeping => exact (follows_loop (unfinished_of_stage sleeping nofun)).inv inv
  | aborted => exact (follows_leave (.refl s) _).inv inv
  | broken | cancelled => exact ((Follows.refl s).setStage (.inr rfl)).inv inv

/-- A `stop` that clears `_task` keeps it the one unfinished task only when
there is none. -/
theorem guarded_of_single {config : Config} {s : Listener} {action : Action}
    (single : ∀ next, s.step config action = some next → next.Single) : s.Guarded action := by
  cases action with
  | resume call =>
      intro task restarts stopping finished other installed unfinished
      have one : s.step config (.resume call) = some (s.finishStop call restarts) := by
        simp only [Listener.step, stopping, if_neg finished]
      cases single _ one other unfinished
  | _ => trivial

/-- In every state of a run there is one task and it can be stopped, just when
no `stop` comes back to a `_task` that a `start` has replaced meanwhile. -/
theorem singleTask_iff (config : Config) (settings : Settings) (actions : List Action) :
    Along (step config) (fun s action => ∀ next, s.step config action = some next → next.Single ∧ next.Quiet) actions
        (fresh settings) ↔
      Along (step config) Guarded actions (fresh settings) := by
  apply along_congr Inv (fun inv guarded one => inv.step guarded one) _ (Inv.fresh settings)
  intro s action inv
  constructor
  · exact fun kept => guarded_of_single fun next one => (kept next one).1
  · intro guarded next one
    have after := inv.step guarded one
    exact ⟨after.single, after.quiet⟩

/-- Another caller's `start` runs between the end of a task and the lines of
`stop` that follow its await; the task it creates is out of reach of the next
`stop`. -/
def overtaken : List Action :=
  [.start, .begin 0 true, .stop 0, .disconnected 0 .cancelled, .start, .resume 0, .begin 1 true, .stop 1]

theorem singleTask_overtaken :
    ∃ s, exec (step ⟨false, true, none⟩) overtaken (fresh ⟨none, none, none, none⟩) = some s ∧
      s.task = none ∧ (s.tasks 1).stage = .connecting (.getArticles none none none none true) ∧
      ¬s.Single ∧ ¬s.Quiet := by
  refine ⟨_, rfl, rfl, rfl, ?_, ?_⟩
  · intro single
    cases single 1 (by decide)
  · intro quiet
    refine quiet rfl (fun call task restarts stopping => ?_) 1 (by decide)
    have ended : ∀ call, Function.update (Function.update (Function.update (fun _ => (none : Option Call)) 0
        (some (.stopping 0 false))) 0 none) 1 none call = none := by
      intro call
      simp [Function.update_apply]
    cases (ended call).symm.trans stopping

end Listener

end KuhlHausMdp.FinlightDataListener
