import Mathlib.Logic.Function.Basic
import KuhlHausMdp.Library.Transition
import KuhlHausMdp.Enum

/-! `MassiveDataListener`: `start`, `stop`, `restart`, the setters and the
`async_task` tasks, one stretch between two awaits at a time. -/

set_option autoImplicit false

namespace KuhlHausMdp.MassiveDataListener

open Transition

structure Settings where
  feed : String
  market : String
  subscriptions : List String
  deriving DecidableEq

/-- A connection object: what it was built with and whether `unsubscribe_all`
and `close` were called on it. -/
structure WebSocketClient where
  settings : Settings
  unsubscribed : Bool
  closing : Bool
  deriving DecidableEq

/-- Where `stop` is suspended: in its first sleep, in its second, or at `close`. -/
inductive StopAt where
  | cancelled
  | unsubscribed
  | closing
  deriving DecidableEq

/-- Where an `async_task` is suspended: before its first line, at `connect`,
in the sleep that follows a failed attempt of `market_is_open`, in the sleep of
a closed market, or in its own call of `stop`. -/
inductive Stage where
  | created
  | connecting (connection : Nat)
  | retrying (attempt : Nat)
  | sleeping
  | stopping (point : StopAt)
  | finished
  deriving DecidableEq

/-- `cancelled` from `cancel` on; the `CancelledError` comes at the next step. -/
structure AsyncTask where
  stage : Stage
  cancelled : Bool
  deriving DecidableEq

inductive Call where
  | scheduled
  | stopping (point : StopAt) (restarts : Bool)
  | pausing
  deriving DecidableEq

/-- Tasks are numbered as they are created; those to come count as finished.
`connection_status` repeats the settings, which are left out of it here. -/
structure Listener where
  settings : Settings
  connected : Bool
  healthy : Bool
  reconnects : Nat
  clients : List WebSocketClient
  wsConnection : Option Nat
  wsCoroutine : Option Nat
  created : Nat
  tasks : Nat → AsyncTask
  calls : Nat → Option Call

/-- What `get_market_status` does: the `market` of its answer, or an exception. -/
inductive MarketStatus where
  | market (value : Option String)
  | raised
  deriving DecidableEq

/-- `accepted` tells whether `WebSocketClient(..)` returns, should the step come
to it, and `answered` whether the call of the connection that the step makes does. -/
inductive Action where
  | start (call : Nat) (accepted : Bool)
  | stop (call : Nat)
  | restart (call : Nat)
  | setFeed (value : String) (call : Nat)
  | setMarket (value : String) (call : Nat)
  | setSubscriptions (value : List String) (call : Nat)
  | enter (call : Nat)
  | resume (call : Nat) (answered : Bool)
  | wake (call : Nat) (accepted : Bool)
  | begin (task : Nat)
  | ask (task : Nat) (status : MarketStatus) (accepted : Bool)
  | resumeStop (task : Nat) (answered : Bool)
  | cancelled (task : Nat)

/-- `max_reconnects or 1`. -/
def attempts (maxReconnects : Option Int) : Int :=
  match maxReconnects with
  | none => 1
  | some most => if most = 0 then 1 else most

def isOpen (market : Option String) : Bool := decide (market ≠ none ∧ market ≠ some MarketStatusValue.CLOSED)

namespace Listener

def fresh (settings : Settings) : Listener where
  settings := settings
  connected := false
  healthy := false
  reconnects := 0
  clients := []
  wsConnection := none
  wsCoroutine := none
  created := 0
  tasks _ := ⟨.finished, false⟩
  calls _ := none

def Unfinished (s : Listener) (task : Nat) : Prop := (s.tasks task).stage ≠ .finished

def Live (s : Listener) (task : Nat) : Prop := s.Unfinished task ∧ (s.tasks task).cancelled = false

instance (s : Listener) (task : Nat) : Decidable (s.Live task) :=
  inferInstanceAs (Decidable ((s.tasks task).stage ≠ .finished ∧ (s.tasks task).cancelled = false))

def setStage (s : Listener) (task : Nat) (stage : Stage) : Listener :=
  { s with tasks := Function.update s.tasks task { s.tasks task with stage := stage } }

def cancel (s : Listener) (task : Nat) : Listener :=
  { s with tasks := Function.update s.tasks task { s.tasks task with cancelled := true } }

def setCall (s : Listener) (call : Nat) (stage : Option Call) : Listener :=
  { s with calls := Function.update s.calls call stage }

/-- The body of `start` when nothing in it raises. -/
def launch (s : Listener) : Listener :=
  { s with
    clients := s.clients ++ [⟨s.settings, false, false⟩]
    wsConnection := some s.clients.length
    wsCoroutine := some s.created
    created := s.created + 1
    tasks := Function.update s.tasks s.created ⟨.created, false⟩ }

def shut (s : Listener) : Listener := { s with connected := false, wsConnection := none, wsCoroutine := none }

/-- `stop` up to its first await, or to its end when there is nothing to cancel:
the `AttributeError` is caught. -/
def stop (s : Listener) : Listener × Option StopAt :=
  match s.wsCoroutine with
  | some task => (s.cancel task, some .cancelled)
  | none => (s.shut, none)

def stopFrom (s : Listener) (point : StopAt) (answered : Bool) : Listener × Option StopAt :=
  match point, s.wsConnection with
  | .cancelled, some connection =>
      if answered then
        ({ s with clients := s.clients.modify connection fun client => { client with unsubscribed := true } },
          some .unsubscribed)
      else (s.shut, none)
  | .unsubscribed, some connection =>
      ({ s with clients := s.clients.modify connection fun client => { client with closing := true } }, some .closing)
  | .cancelled, none | .unsubscribed, none | .closing, _ => (s.shut, none)

def setStopping (result : Listener × Option StopAt) (call : Nat) (restarts : Bool) : Listener :=
  result.1.setCall call (match result.2 with
    | some point => some (.stopping point restarts)
    | none => if restarts then some .pausing else none)

/-- A task in the course of its own `stop`, after which it ends. -/
def setTaskStopping (result : Listener × Option StopAt) (task : Nat) : Listener :=
  result.1.setStage task (match result.2 with
    | some point => .stopping point
    | none => .finished)

def start (s : Listener) (call : Nat) (accepted : Bool) : Listener :=
  if accepted then s.launch.setCall call none else setStopping s.stop call false

/-- What the three setters do after the assignment. -/
def assigned (s : Listener) (call : Nat) : Listener := if s.connected then s.setCall call (some .scheduled) else s

def setFeed (s : Listener) (value : String) (call : Nat) : Listener :=
  { s with settings := { s.settings with feed := value } }.assigned call

def setMarket (s : Listener) (value : String) (call : Nat) : Listener :=
  { s with settings := { s.settings with market := value } }.assigned call

def setSubscriptions (s : Listener) (value : List String) (call : Nat) : Listener :=
  { s with settings := { s.settings with subscriptions := value } }.assigned call

def fail (s : Listener) (task : Nat) : Listener := setTaskStopping { s with healthy := false }.stop task

/-- The first stretch of `async_task`; without a connection `connect` is an
`AttributeError`. -/
def begin (s : Listener) (task : Nat) : Listener :=
  let s := { s with connected := true, healthy := true }
  match s.wsConnection with
  | some connection => s.setStage task (.connecting connection)
  | none => s.fail task

/-- `async_task` with an open market: it ends once `start` has. -/
def reconnect (s : Listener) (task : Nat) (accepted : Bool) : Listener :=
  let s := { s with reconnects := s.reconnects + 1 }
  if accepted then s.launch.setStage task .finished else setTaskStopping s.stop task

/-- `market_is_open` from one attempt to its next await or its end, and the
loop of `async_task` around it. -/
def ask (maxReconnects : Option Int) (s : Listener) (task attempt : Nat) (status : MarketStatus) (accepted : Bool) :
    Listener :=
  -- no attempt at all with a negative `max_reconnects`
  if attempts maxReconnects < attempt then s.setStage task .sleeping
  else
    match status with
    | .market value => if isOpen value then s.reconnect task accepted else s.setStage task .sleeping
    | .raised => if attempts maxReconnects ≤ attempt then s.fail task else s.setStage task (.retrying attempt)

def called (s next : Listener) (call : Nat) : Option Listener :=
  match s.calls call with
  | none => some next
  | some _ => none

def step (maxReconnects : Option Int) (s : Listener) : Action → Option Listener
  | .start call accepted => s.called (s.start call accepted) call
  | .stop call => s.called (setStopping s.stop call false) call
  | .restart call => s.called (setStopping s.stop call true) call
  | .setFeed value call => s.called (s.setFeed value call) call
  | .setMarket value call => s.called (s.setMarket value call) call
  | .setSubscriptions value call => s.called (s.setSubscriptions value call) call
  | .enter call =>
      match s.calls call with
      | some .scheduled => some (setStopping s.stop call true)
      | _ => none
  | .resume call answered =>
      match s.calls call with
      | some (.stopping point restarts) => some (setStopping (s.stopFrom point answered) call restarts)
      | _ => none
  | .wake call accepted =>
      match s.calls call with
      | some .pausing => some (s.start call accepted)
      | _ => none
  | .begin task =>
      match s.tasks task with
      | ⟨.created, false⟩ => some (s.begin task)
      | _ => none
  | .ask task status accepted =>
      match s.tasks task with
      | ⟨.connecting _, false⟩ => some ({ s with connected := false }.ask maxReconnects task 1 status accepted)
      | ⟨.retrying attempt, false⟩ => some (s.ask maxReconnects task (attempt + 1) status accepted)
      | ⟨.sleeping, false⟩ => some (s.ask maxReconnects task 1 status accepted)
      | _ => none
  | .resumeStop task answered =>
      match s.tasks task with
      | ⟨.stopping point, false⟩ => some (setTaskStopping (s.stopFrom point answered) task)
      | _ => none
  | .cancelled task =>
      match s.tasks task with
      | ⟨.finished, _⟩ => none
      | ⟨_, true⟩ => some (s.setStage task .finished)
      | _ => none

/-- At most one task is unfinished and not cancelled, and `ws_coroutine` refers to it. -/
def Single (s : Listener) : Prop := ∀ task, s.Live task → s.wsCoroutine = some task

def Closable (s : Listener) : Prop :=
  ∀ task connection, s.Live task → (s.tasks task).stage = .connecting connection →
    s.wsCoroutine = some task ∧ s.wsConnection = some connection

/-- `ws_coroutine` refers to no task that is unfinished and not cancelled. -/
def Free (s : Listener) : Prop := ∀ task, s.wsCoroutine = some task → ¬s.Live task

/-- A call creates a task, or comes to the last lines of `stop`, while
`ws_coroutine` is free. -/
def Guarded (s : Listener) : Action → Prop
  | .start call accepted => s.calls call = none → accepted = true → s.Free
  | .wake call accepted => s.calls call = some .pausing → accepted = true → s.Free
  | .resume call answered => ∀ point restarts, s.calls call = some (.stopping point restarts) →
      (s.stopFrom point answered).2 = none → s.Free
  | _ => True

structure Inv (s : Listener) : Prop where
  single : s.Single
  closable : s.Closable
  numbered : ∀ task, s.Unfinished task → task < s.created

theorem Inv.fresh (settings : Settings) : (fresh settings).Inv where
  single := fun _ live => absurd rfl live.1
  closable := fun _ _ live => absurd rfl live.1
  numbered := fun _ unfinished => absurd rfl unfinished

/-! What the parts of the model do to the tasks. -/

theorem tasks_setStage {s : Listener} {task other : Nat} {stage : Stage} :
    (s.setStage task stage).tasks other =
      if other = task then { s.tasks task with stage := stage } else s.tasks other := by
  simp only [setStage, Function.update_apply]

theorem tasks_launch {s : Listener} {other : Nat} :
    s.launch.tasks other = if other = s.created then ⟨.created, false⟩ else s.tasks other := by
  simp only [launch, Function.update_apply]

theorem live_cancel {s : Listener} {task other : Nat} : (s.cancel task).Live other ↔ other ≠ task ∧ s.Live other := by
  simp only [Live, Unfinished, cancel, Function.update_apply]
  by_cases same : other = task
  · simp [same]
  · simp [same]

theorem unfinished_cancel {s : Listener} {task other : Nat} : (s.cancel task).Unfinished other ↔ s.Unfinished other := by
  simp only [Unfinished, cancel, Function.update_apply]
  split
  case isTrue same => rw [same]
  case isFalse => rfl

theorem unfinished_stop {s : Listener} {task : Nat} : s.stop.1.Unfinished task ↔ s.Unfinished task := by
  unfold stop
  split
  · exact unfinished_cancel
  · rfl

theorem created_stop (s : Listener) : s.stop.1.created = s.created := by
  unfold stop
  split <;> rfl

theorem launch_setStage {s : Listener} {task : Nat} {stage : Stage} (old : task ≠ s.created) :
    s.launch.setStage task stage = (s.setStage task stage).launch := by
  simp only [launch, setStage, Function.update_of_ne old, Function.update_comm old]

theorem stopFrom_cases (s : Listener) (point : StopAt) (answered : Bool) :
    s.stopFrom point answered = (s.shut, none) ∨
      ∃ clients next, s.stopFrom point answered = ({ s with clients := clients }, some next) := by
  unfold stopFrom
  split
  · split
    · exact .inr ⟨_, _, rfl⟩
    · exact .inl rfl
  · exact .inr ⟨_, _, rfl⟩
  all_goals exact .inl rfl

/-! The invariant under the parts of the model. -/

namespace Inv

variable {s next : Listener}

theorem congr (inv : s.Inv) (coroutine : next.wsCoroutine = s.wsCoroutine)
    (connection : next.wsConnection = s.wsConnection) (created : next.created = s.created)
    (tasks : next.tasks = s.tasks) : next.Inv where
  single := by
    intro task live
    rw [coroutine]
    rw [Live, Unfinished, tasks] at live
    exact inv.single task live
  closable := by
    intro task number live serving
    rw [coroutine, connection]
    rw [Live, Unfinished, tasks] at live
    rw [tasks] at serving
    exact inv.closable task number live serving
  numbered := by
    intro task unfinished
    rw [Unfinished, tasks] at unfinished
    rw [created]
    exact inv.numbered task unfinished

theorem of_idle (idle : ∀ task, ¬s.Live task) (numbered : ∀ task, s.Unfinished task → task < s.created) : s.Inv where
  single := fun task live => absurd live (idle task)
  closable := fun task _ live => absurd live (idle task)
  numbered := numbered

theorem idle (inv : s.Inv) (free : s.Free) (task : Nat) : ¬s.Live task :=
  fun live => free task (inv.single task live) live

theorem setStage (inv : s.Inv) {task : Nat} {stage : Stage} (unfinished : s.Unfinished task)
    (serving : ∀ connection, stage = .connecting connection → s.wsConnection = some connection) :
    (s.setStage task stage).Inv := by
  have fewer (other : Nat) (left : (s.setStage task stage).Unfinished other) : s.Unfinished other := by
    rw [Unfinished, tasks_setStage] at left
    split at left
    case isTrue same => rwa [same]
    case isFalse => exact left
  have live_of (other : Nat) (live : (s.setStage task stage).Live other) : s.Live other := by
    refine ⟨fewer other live.1, ?_⟩
    have uncancelled := live.2
    rw [tasks_setStage] at uncancelled
    split at uncancelled
    case isTrue same => rwa [same]
    case isFalse => exact uncancelled
  constructor
  · exact fun other live => inv.single other (live_of other live)
  · intro other connection live connecting
    refine ⟨inv.single other (live_of other live), ?_⟩
    rw [tasks_setStage] at connecting
    split at connecting
    case isTrue => exact serving connection connecting
    case isFalse => exact (inv.closable other connection (live_of other live) connecting).2
  · exact fun other left => inv.numbered other (fewer other left)

theorem free_finished (inv : s.Inv) {task : Nat} (live : s.Live task) : (s.setStage task .finished).Free := by
  intro other refers stays
  cases (inv.single task live).symm.trans refers
  apply stays.1
  rw [tasks_setStage, if_pos rfl]

theorem finish (inv : s.Inv) {task : Nat} (unfinished : s.Unfinished task) : (s.setStage task .finished).Inv :=
  inv.setStage unfinished nofun

theorem launch (inv : s.Inv) (free : s.Free) : s.launch.Inv := by
  have only (task : Nat) (live : s.launch.Live task) : task = s.created := by
    by_contra old
    apply inv.idle free task
    rwa [Live, Unfinished, tasks_launch, if_neg old] at live
  constructor
  · intro task live
    rw [only task live]
    rfl
  · intro task connection live connecting
    rw [only task live, tasks_launch, if_pos rfl] at connecting
    cases connecting
  · intro task unfinished
    by_cases new : task = s.created
    · exact new ▸ Nat.lt_succ_self task
    · rw [Unfinished, tasks_launch, if_neg new] at unfinished
      exact Nat.lt_succ_of_lt (inv.numbered task unfinished)

theorem shut (inv : s.Inv) (free : s.Free) : s.shut.Inv := of_idle (inv.idle free) inv.numbered

/-- The cancelled task was the last one that could be live. -/
theorem stop (inv : s.Inv) : s.stop.1.Inv := by
  have numbered (task : Nat) (unfinished : s.stop.1.Unfinished task) : task < s.stop.1.created := by
    rw [created_stop]
    exact inv.numbered task (unfinished_stop.mp unfinished)
  apply of_idle _ numbered
  intro task live
  unfold Listener.stop at live
  split at live
  case h_1 current refers =>
      obtain ⟨apart, before⟩ := live_cancel.mp live
      exact apart (Option.some.inj ((inv.single task before).symm.trans refers))
  case h_2 refers => cases (inv.single task live).symm.trans refers

theorem setStopping {result : Listener × Option StopAt} (inv : result.1.Inv) (call : Nat) (restarts : Bool) :
    (setStopping result call restarts).Inv := inv.congr rfl rfl rfl rfl

theorem setTaskStopping {result : Listener × Option StopAt} (inv : result.1.Inv) {task : Nat}
    (unfinished : result.1.Unfinished task) : (setTaskStopping result task).Inv := by
  apply inv.setStage unfinished
  intro connection
  split <;> exact nofun

theorem start (inv : s.Inv) (call : Nat) {accepted : Bool} (free : accepted = true → s.Free) :
    (s.start call accepted).Inv := by
  unfold Listener.start
  split
  case isTrue yes => exact (inv.launch (free yes)).congr rfl rfl rfl rfl
  case isFalse => exact inv.stop.setStopping call false

theorem assigned (inv : s.Inv) (call : Nat) (settings : Settings) :
    ({ s with settings := settings }.assigned call).Inv := by
  unfold Listener.assigned
  split <;> exact inv.congr rfl rfl rfl rfl

/-! A task may take its own steps at any time. -/

variable {task : Nat}

theorem fail (inv : s.Inv) (unfinished : s.Unfinished task) : (s.fail task).Inv := by
  have unhealthy : ({ s with healthy := false } : Listener).Inv := inv.congr rfl rfl rfl rfl
  exact unhealthy.stop.setTaskStopping (unfinished_stop.mpr unfinished)

theorem begin (inv : s.Inv) (unfinished : s.Unfinished task) : (s.begin task).Inv := by
  have up : ({ s with connected := true, healthy := true } : Listener).Inv := inv.congr rfl rfl rfl rfl
  unfold Listener.begin
  simp only
  split
  case h_1 connection refers =>
      apply up.setStage unfinished
      intro other same
      cases same
      exact refers
  case h_2 => exact up.fail unfinished

theorem reconnect (inv : s.Inv) (live : s.Live task) (accepted : Bool) : (s.reconnect task accepted).Inv := by
  have counted : ({ s with reconnects := s.reconnects + 1 } : Listener).Inv := inv.congr rfl rfl rfl rfl
  unfold Listener.reconnect
  simp only
  split
  case isTrue =>
      rw [launch_setStage (Nat.ne_of_lt (counted.numbered task live.1))]
      exact (counted.finish live.1).launch (counted.free_finished live)
  case isFalse => exact counted.stop.setTaskStopping (unfinished_stop.mpr live.1)

theorem ask (inv : s.Inv) (live : s.Live task) (maxReconnects : Option Int) (attempt : Nat) (status : MarketStatus)
    (accepted : Bool) : (s.ask maxReconnects task attempt status accepted).Inv := by
  unfold Listener.ask
  split
  case isTrue => exact inv.setStage live.1 nofun
  case isFalse =>
    cases status with
    | market value =>
        simp only
        split
        · exact inv.reconnect live accepted
        · exact inv.setStage live.1 nofun
    | raised =>
        simp only
        split
        · exact inv.fail live.1
        · exact inv.setStage live.1 nofun

theorem resumeStop (inv : s.Inv) (live : s.Live task) (point : StopAt) (answered : Bool) :
    (Listener.setTaskStopping (s.stopFrom point answered) task).Inv := by
  rcases s.stopFrom_cases point answered with ended | ⟨clients, next, goes⟩
  · rw [ended]
    exact (inv.finish live.1).shut (inv.free_finished live)
  · rw [goes]
    have called : ({ s with clients := clients } : Listener).Inv := inv.congr rfl rfl rfl rfl
    exact called.setTaskStopping live.1

theorem resume (inv : s.Inv) (call : Nat) (restarts : Bool) {point : StopAt} {answered : Bool}
    (free : (s.stopFrom point answered).2 = none → s.Free) :
    (Listener.setStopping (s.stopFrom point answered) call restarts).Inv := by
  apply setStopping
  rcases s.stopFrom_cases point answered with ended | ⟨clients, next, goes⟩
  · rw [ended]
    exact inv.shut (free (by rw [ended]))
  · rw [goes]
    exact inv.congr rfl rfl rfl rfl

end Inv

theorem called_eq_some {s next after : Listener} {call : Nat} (one : s.called next call = some after) :
    s.calls call = none ∧ after = next := by
  unfold called at one
  split at one
  case h_1 free => exact ⟨free, (Option.some.inj one).symm⟩
  case h_2 => cases one

theorem Inv.step {maxReconnects : Option Int} {s next : Listener} {action : Action} (inv : s.Inv)
    (guarded : s.Guarded action) (one : s.step maxReconnects action = some next) : next.Inv := by
  have live {task : Nat} {stage : Stage} (at_ : s.tasks task = ⟨stage, false⟩) (unfinished : stage ≠ .finished) :
      s.Live task := by
    rw [Live, Unfinished, at_]
    exact ⟨unfinished, rfl⟩
  cases action with
  | start call accepted =>
      obtain ⟨unused, rfl⟩ := called_eq_some one
      exact inv.start call (guarded unused)
  | stop call =>
      obtain ⟨-, rfl⟩ := called_eq_some one
      exact inv.stop.setStopping call false
  | restart call =>
      obtain ⟨-, rfl⟩ := called_eq_some one
      exact inv.stop.setStopping call true
  | setFeed value call | setMarket value call | setSubscriptions value call =>
      obtain ⟨-, rfl⟩ := called_eq_some one
      exact inv.assigned call _
  | enter call =>
      simp only [Listener.step] at one
      split at one
      · cases one
        exact inv.stop.setStopping call true
      · cases one
  | resume call answered =>
      simp only [Listener.step] at one
      split at one
      · rename_i point restarts stopping
        cases one
        exact inv.resume call restarts (guarded point restarts stopping)
      · cases one
  | wake call accepted =>
      simp only [Listener.step] at one
      split at one
      · rename_i pausing
        cases one
        exact inv.start call (guarded pausing)
      · cases one
  | begin task =>
      simp only [Listener.step] at one
      split at one
      · rename_i created
        cases one
        exact inv.begin (live created nofun).1
      · cases one
  | ask task status accepted =>
      simp only [Listener.step] at one
      split at one
      · rename_i connecting
        cases one
        have down : ({ s with connected := false } : Listener).Inv := inv.congr rfl rfl rfl rfl
        exact down.ask (live connecting nofun) ..
      · rename_i retrying
        cases one
        exact inv.ask (live retrying nofun) ..
      · rename_i sleeping
        cases one
        exact inv.ask (live sleeping nofun) ..
      · cases one
  | resumeStop task answered =>
      simp only [Listener.step] at one
      split at one
      · rename_i stopping
        cases one
        exact inv.resumeStop (live stopping nofun) ..
      · cases one
  | cancelled task =>
      simp only [Listener.step] at one
      split at one
      · cases one
      · rename_i stage going was
        cases one
        exact inv.finish (by rw [Unfinished, was]; exact going)
      · cases one

/-- A new task, or a cleared `ws_coroutine`, beside a live one breaks the rule. -/
theorem guarded_of_single {maxReconnects : Option Int} {s : Listener} {action : Action} (inv : s.Inv)
    (single : ∀ next, s.step maxReconnects action = some next → next.Single) : s.Guarded action := by
  have launching (call : Nat) (kept : (s.start call true).Single) : s.Free := by
    intro task _ live
    have old : task ≠ s.created := Nat.ne_of_lt (inv.numbered task live.1)
    have still : s.launch.Live task := by rwa [Live, Unfinished, tasks_launch, if_neg old]
    exact old (Option.some.inj (kept task still)).symm
  cases action with
  | start call accepted =>
      rintro unused rfl
      exact launching call (single _ (by simp only [step, called, unused]))
  | wake call accepted =>
      rintro pausing rfl
      exact launching call (single _ (by simp only [step, pausing]))
  | resume call answered =>
      intro point restarts stopping ended task _ live
      have one : s.step maxReconnects (.resume call answered) =
          some (setStopping (s.stopFrom point answered) call restarts) := by
        simp only [step, stopping]
      have kept := single _ one
      rcases s.stopFrom_cases point answered with shut | ⟨clients, next, goes⟩
      · rw [shut] at kept
        cases kept task live
      · rw [goes] at ended
        cases ended
  | _ => trivial

/-- In every state of a run there is one task and one connection in use, both
within reach of `stop`, just when no call creates a task or clears
`ws_coroutine` over a live one. -/
theorem singleConnection_iff (maxReconnects : Option Int) (settings : Settings) (actions : List Action) :
    Along (step maxReconnects)
        (fun s action => ∀ next, s.step maxReconnects action = some next → next.Single ∧ next.Closable) actions
        (fresh settings) ↔
      Along (step maxReconnects) Guarded actions (fresh settings) := by
  apply along_congr Inv (fun inv guarded one => inv.step guarded one) _ (Inv.fresh settings)
  intro s action inv
  constructor
  · exact fun kept => guarded_of_single inv fun next one => (kept next one).1
  · intro guarded next one
    have after := inv.step guarded one
    exact ⟨after.single, after.closable⟩

/-- Two setters in quick succession: both restarts come to `start`, and the
first of the two tasks has connected before the second is created. -/
def overlapping : List Action :=
  [.start 0 true, .begin 0, .setFeed "delayed" 0, .setMarket "crypto" 1, .enter 0, .enter 1, .cancelled 0,
    .resume 0 true, .resume 1 true, .resume 0 true, .resume 1 true, .resume 0 true, .resume 1 true,
    .wake 0 true, .begin 1, .wake 1 true]

theorem singleConnection_overlapping :
    ∃ s, exec (step (some 5)) overlapping (fresh ⟨"realtime", "stocks", ["T.*"]⟩) = some s ∧
      s.wsCoroutine = some 2 ∧ s.wsConnection = some 2 ∧ s.Live 1 ∧ (s.tasks 1).stage = .connecting 1 ∧
      ¬s.Single ∧ ¬s.Closable := by
  refine ⟨_, rfl, rfl, rfl, by decide, rfl, ?_, ?_⟩
  · intro single
    cases single 1 (by decide)
  · intro closable
    cases (closable 1 1 (by decide) rfl).1

end Listener

end KuhlHausMdp.MassiveDataListener
