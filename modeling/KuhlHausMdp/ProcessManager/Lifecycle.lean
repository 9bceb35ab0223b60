import Mathlib
import KuhlHausMdp.Library.Dict
import KuhlHausMdp.Library.Transition

/-! The processes of `ProcessManager`: `_run_worker` in each of them, and
`start_worker`, `stop_process` and `stop_all` in the parent, which waits while
they go on. -/

set_option autoImplicit false

namespace KuhlHausMdp.ProcessManager.Lifecycle

open Transition

inductive Stage where
  /-- Before the worker is instantiated, with or without the signal handlers. -/
  | starting (handlers : Bool)
  /-- In `await async_shutdown.wait()`; `busy` is whether the worker's task goes on. -/
  | serving (busy asyncShutdown : Bool)
  /-- In `wait_for(worker_task)`, once it is cancelled. -/
  | cancelling
  /-- In the first `await worker.stop()`. -/
  | stopping
  /-- In the `finally` clause. -/
  | finalStop
  /-- In the cleanup of the event loop. -/
  | closing
  | exited
  | killed
  deriving DecidableEq, Repr

/-- `started` is whether `process.start()` returned, `worker` whether there is an
instance, `stops` the number of times that `_run_worker` has called its `stop`. -/
structure Child where
  started : Bool
  stage : Stage
  shutdownEvent : Bool
  worker : Bool
  stops : Nat
  deriving DecidableEq, Repr

inductive Event where
  | installHandlers
  | instantiate (raises : Bool)
  /-- `worker.start()` returns or raises. -/
  | taskDone
  | monitorShutdown
  | wake
  /-- The worker's task has ended, or did not within five seconds. -/
  | cancelled
  | stopped (raises : Bool)
  | finalStopped (raises : Bool)
  | close
  /-- SIGTERM or SIGINT. -/
  | signal
  /-- The process is killed from outside or by a fault. -/
  | crash
  deriving DecidableEq, Repr

namespace Stage

def alive : Stage → Bool
  | exited => false
  | killed => false
  | _ => true

/-- Without a handler the signal ends the process. -/
def handlers : Stage → Bool
  | starting installed => installed
  | _ => true

end Stage

def Stage.toGo : Stage → Nat
  | .starting false => 8
  | .starting true => 7
  | .serving true false => 6
  | .serving false false => 5
  | .serving true true => 5
  | .serving false true => 4
  | .cancelling => 4
  | .stopping => 3
  | .finalStop => 2
  | .closing => 1
  | .exited => 0
  | .killed => 0

theorem Stage.toGo_pos {stage : Stage} (alive : stage.alive = true) : 0 < stage.toGo := by
  cases stage with
  | starting handlers => cases handlers <;> decide
  | serving busy noticed => cases busy <;> cases noticed <;> decide
  | cancelling | stopping | finalStop | closing => decide
  | exited | killed => cases alive

namespace Child

def start (started : Bool) : Child := ⟨started, .starting false, false, false, 0⟩

def isAlive (c : Child) : Bool := c.started && c.stage.alive

def step (c : Child) : Event → Option Child
  | .installHandlers => if c.stage = .starting false then some { c with stage := .starting true } else none
  | .instantiate raises =>
      if c.stage = .starting true then
        if raises then some { c with stage := .closing }
        else some { c with stage := .serving true false, worker := true }
      else none
  | .taskDone =>
      match c.stage with
      | .serving true noticed => some { c with stage := .serving false noticed }
      | _ => none
  | .monitorShutdown =>
      match c.stage with
      | .serving busy false => if c.shutdownEvent then some { c with stage := .serving busy true } else none
      | _ => none
  | .wake =>
      match c.stage with
      | .serving true true => some { c with stage := .cancelling }
      | .serving false true => some { c with stage := .stopping, stops := c.stops + 1 }
      | _ => none
  | .cancelled => if c.stage = .cancelling then some { c with stage := .stopping, stops := c.stops + 1 } else none
  | .stopped _ => if c.stage = .stopping then some { c with stage := .finalStop, stops := c.stops + 1 } else none
  | .finalStopped _ => if c.stage = .finalStop then some { c with stage := .closing } else none
  | .close => if c.stage = .closing then some { c with stage := .exited } else none
  | .signal =>
      if c.stage.alive then
        if c.stage.handlers then some { c with shutdownEvent := true } else some { c with stage := .killed }
      else none
  | .crash => if c.stage.alive then some { c with stage := .killed } else none

end Child

/-- What the parent is doing: the loop of `stop_all` before the rest of its names,
or in `process.join` on the child of a number. An exception ends the call. -/
inductive Call where
  | returned
  | raised
  | stopping (names : List String)
  | joining (child : Nat) (names : List String)
  deriving DecidableEq, Repr

def Call.free : Call → Bool
  | .returned => true
  | .raised => true
  | _ => false

def Call.toGo : Call → Nat
  | .returned => 0
  | .raised => 0
  | .stopping names => 2 * names.length + 1
  | .joining _ names => 2 * names.length + 2

/-- The processes ever made, the number that `processes` has for each name, and
the call under way. -/
structure Manager where
  children : List Child
  processes : Dict String Nat
  call : Call

inductive Action where
  | startWorker (name : String) (starts : Bool)
  | stopProcess (name : String)
  | stopAll
  /-- The parent goes on; `timedOut` is whether a `join` gives up. -/
  | parent (timedOut : Bool)
  | child (i : Nat) (event : Event)
  deriving DecidableEq, Repr

namespace Action

def starts : Action → Bool
  | .startWorker _ _ => true
  | _ => false

def calls : Action → Bool
  | .startWorker _ _ => true
  | .stopProcess _ => true
  | .stopAll => true
  | _ => false

def ofParent : Action → Bool
  | .parent _ => true
  | _ => false

end Action

namespace Manager

def fresh : Manager := ⟨[], ∅, .returned⟩

/-- Registered before it is started. -/
def startWorker (m : Manager) (name : String) (starts : Bool) : Manager where
  children := m.children ++ [.start starts]
  processes := m.processes.set name m.children.length
  call := if starts then .returned else .raised

def signalShutdown (m : Manager) (i : Nat) (c : Child) (names : List String) : Manager := { m with
  children := m.children.set i { c with shutdownEvent := true }
  call := if c.started then .joining i names else .raised }

def kill (m : Manager) (i : Nat) (c : Child) (names : List String) : Manager := { m with
  children := m.children.set i { c with stage := .killed }
  call := .stopping names }

def parent (m : Manager) (timedOut : Bool) : Option Manager :=
  match m.call with
  | .stopping [] => some { m with call := .returned }
  | .stopping (name :: names) =>
      match m.processes.get name with
      | none => some { m with call := .stopping names }
      | some i => (m.children[i]?).map fun c => m.signalShutdown i c names
  | .joining i names =>
      (m.children[i]?).bind fun c =>
        if c.isAlive then if timedOut then some (m.kill i c names) else none
        else some { m with call := .stopping names }
  | _ => none

/-- A process that was not started does nothing. -/
def child (m : Manager) (i : Nat) (event : Event) : Option Manager :=
  (m.children[i]?).bind fun c =>
    if c.started then (c.step event).map fun next => { m with children := m.children.set i next } else none

def step (m : Manager) : Action → Option Manager
  | .startWorker name starts => if m.call.free then some (m.startWorker name starts) else none
  | .stopProcess name => if m.call.free then some { m with call := .stopping [name] } else none
  | .stopAll => if m.call.free then some { m with call := .stopping m.processes.keys } else none
  | .parent timedOut => m.parent timedOut
  | .child i event => m.child i event

end Manager

/-! One process. -/

namespace Child

def Sound (c : Child) : Prop :=
  match c.stage with
  | .starting _ => c.worker = false ∧ c.stops = 0
  | .serving _ noticed => c.worker = true ∧ c.stops = 0 ∧ (noticed = true → c.shutdownEvent = true)
  | .cancelling => c.worker = true ∧ c.shutdownEvent = true ∧ c.stops = 0
  | .stopping => c.worker = true ∧ c.shutdownEvent = true ∧ c.stops = 1
  | .finalStop => c.worker = true ∧ c.shutdownEvent = true ∧ c.stops = 2
  | .closing => c.worker = false ∧ c.stops = 0 ∨ c.worker = true ∧ c.shutdownEvent = true ∧ c.stops = 2
  | .exited => c.worker = false ∧ c.stops = 0 ∨ c.worker = true ∧ c.shutdownEvent = true ∧ c.stops = 2
  | .killed => c.stops ≤ 2 ∧ (0 < c.stops → c.worker = true ∧ c.shutdownEvent = true)

theorem Sound.stops {c : Child} (sound : c.Sound) :
    c.stops ≤ 2 ∧ (0 < c.stops → c.worker = true ∧ c.shutdownEvent = true) := by
  unfold Sound at sound
  split at sound <;> grind

theorem Sound.signalled {c : Child} (sound : c.Sound) : Sound { c with shutdownEvent := true } := by
  unfold Sound at sound ⊢
  split at sound <;> simp_all
  all_goals grind

theorem Sound.killed {c : Child} (sound : c.Sound) : Sound { c with stage := .killed } := sound.stops

theorem Sound.step {c next : Child} {event : Event} (sound : c.Sound) (one : c.step event = some next) :
    next.Sound := by
  cases event with
  | signal =>
      simp only [Child.step] at one
      split_ifs at one
      · cases one
        exact sound.signalled
      · cases one
        exact sound.killed
  | crash =>
      simp only [Child.step] at one
      split_ifs at one
      cases one
      exact sound.killed
  | taskDone | monitorShutdown | wake =>
      unfold Sound at sound
      simp only [Child.step] at one
      split at one <;> simp_all [Sound]
      all_goals grind
  | installHandlers | instantiate | cancelled | stopped | finalStopped | close =>
      unfold Sound at sound
      simp only [Child.step] at one
      split_ifs at one <;> cases one <;> simp_all [Sound]

theorem started_step {c next : Child} {event : Event} (one : c.step event = some next) : next.started = c.started := by
  cases event with
  | taskDone | monitorShutdown | wake =>
      simp only [Child.step] at one
      split at one <;> grind
  | installHandlers | instantiate | cancelled | stopped | finalStopped | close | signal | crash =>
      simp only [Child.step] at one
      split_ifs at one <;> cases one <;> rfl

theorem kept_step {c next : Child} {event : Event} (one : c.step event = some next) :
    (c.shutdownEvent = true → next.shutdownEvent = true) ∧ c.stage.alive = true := by
  cases event with
  | taskDone | monitorShutdown | wake =>
      simp only [Child.step] at one
      split at one <;> simp_all [Stage.alive]
      all_goals grind
  | installHandlers | instantiate | cancelled | stopped | finalStopped | close | signal | crash =>
      simp only [Child.step] at one
      split_ifs at one <;> cases one <;> simp_all [Stage.alive]

theorem toGo_step {c next : Child} {event : Event} (own : event ≠ .signal) (one : c.step event = some next) :
    next.stage.toGo + 1 ≤ c.stage.toGo := by
  cases event with
  | taskDone | monitorShutdown | wake =>
      simp only [Child.step] at one
      split at one <;> simp_all [Stage.toGo]
      all_goals grind
  | instantiate raises =>
      simp only [Child.step] at one
      split_ifs at one <;> cases one <;> simp_all [Stage.toGo]
  | crash =>
      simp only [Child.step] at one
      split_ifs at one with alive
      cases one
      exact Stage.toGo_pos alive
  | installHandlers | cancelled | stopped | finalStopped | close =>
      simp only [Child.step] at one
      split_ifs at one
      cases one
      simp_all [Stage.toGo]
  | signal => exact absurd rfl own

theorem toGo_signal {c next : Child} (one : c.step .signal = some next) : next.stage.toGo ≤ c.stage.toGo := by
  simp only [Child.step] at one
  split_ifs at one <;> cases one
  · exact Nat.le_refl _
  · exact Nat.zero_le _

/-- A process that was told to shut down is nowhere stuck before its end. -/
theorem enabled_of_shutdown {c : Child} (told : c.shutdownEvent = true) (alive : c.stage.alive = true) :
    ∃ event, event ≠ .signal ∧ event ≠ .crash ∧ (c.step event).isSome := by
  obtain ⟨started, stage, event, worker, stops⟩ := c
  cases told
  cases stage with
  | starting handlers =>
      cases handlers with
      | false => exact ⟨.installHandlers, nofun, nofun, rfl⟩
      | true => exact ⟨.instantiate false, nofun, nofun, rfl⟩
  | serving busy noticed =>
      cases noticed with
      | false => exact ⟨.monitorShutdown, nofun, nofun, rfl⟩
      | true => cases busy <;> exact ⟨.wake, nofun, nofun, rfl⟩
  | cancelling => exact ⟨.cancelled, nofun, nofun, rfl⟩
  | stopping => exact ⟨.stopped false, nofun, nofun, rfl⟩
  | finalStop => exact ⟨.finalStopped false, nofun, nofun, rfl⟩
  | closing => exact ⟨.close, nofun, nofun, rfl⟩
  | exited => cases alive
  | killed => cases alive

end Child

/-! The processes of a run. -/

namespace Manager

variable {m next : Manager}

inductive Stepped (m : Manager) : Action → Manager → Prop where
  | started {name : String} {starts : Bool} (free : m.call.free = true) :
      Stepped m (.startWorker name starts) (m.startWorker name starts)
  | stopsOne {name : String} (free : m.call.free = true) :
      Stepped m (.stopProcess name) { m with call := .stopping [name] }
  | stopsAll (free : m.call.free = true) : Stepped m .stopAll { m with call := .stopping m.processes.keys }
  | returned {timedOut : Bool} (called : m.call = .stopping []) :
      Stepped m (.parent timedOut) { m with call := .returned }
  | skipped {timedOut : Bool} {name : String} {names : List String} (called : m.call = .stopping (name :: names))
      (unknown : m.processes.get name = none) : Stepped m (.parent timedOut) { m with call := .stopping names }
  | signalled {timedOut : Bool} {name : String} {names : List String} {i : Nat} {c : Child}
      (called : m.call = .stopping (name :: names)) (registered : m.processes.get name = some i)
      (at_ : m.children[i]? = some c) : Stepped m (.parent timedOut) (m.signalShutdown i c names)
  | killed {i : Nat} {names : List String} {c : Child} (called : m.call = .joining i names)
      (at_ : m.children[i]? = some c) (alive : c.isAlive = true) : Stepped m (.parent true) (m.kill i c names)
  | joined {timedOut : Bool} {i : Nat} {names : List String} {c : Child} (called : m.call = .joining i names)
      (at_ : m.children[i]? = some c) (dead : c.isAlive = false) :
      Stepped m (.parent timedOut) { m with call := .stopping names }
  | moved {i : Nat} {event : Event} {c after : Child} (at_ : m.children[i]? = some c) (started : c.started = true)
      (one : c.step event = some after) : Stepped m (.child i event) { m with children := m.children.set i after }

theorem stepped {action : Action} (one : m.step action = some next) : Stepped m action next := by
  cases action with
  | startWorker name starts =>
      simp only [step] at one
      split_ifs at one with free
      cases one
      exact .started free
  | stopProcess name =>
      simp only [step] at one
      split_ifs at one with free
      cases one
      exact .stopsOne free
  | stopAll =>
      simp only [step] at one
      split_ifs at one with free
      cases one
      exact .stopsAll free
  | parent timedOut =>
      simp only [step, parent] at one
      split at one
      · cases one
        exact .returned ‹_›
      · split at one
        · cases one
          exact .skipped ‹_› ‹_›
        · obtain ⟨c, at_, rfl⟩ := Option.map_eq_some_iff.mp one
          exact .signalled ‹_› ‹_› at_
      · obtain ⟨c, at_, one⟩ := Option.bind_eq_some_iff.mp one
        split_ifs at one with alive late
        · cases one
          subst late
          exact .killed ‹_› at_ alive
        · cases one
          exact .joined ‹_› at_ (Bool.eq_false_of_not_eq_true alive)
      · cases one
  | child i event =>
      obtain ⟨c, at_, one⟩ := Option.bind_eq_some_iff.mp one
      split_ifs at one with started
      obtain ⟨after, moved, rfl⟩ := Option.map_eq_some_iff.mp one
      exact .moved at_ started moved

inductive Moved (i : Nat) (c : Child) : Action → Child → Prop where
  | still {action : Action} (other : ∀ event, action ≠ .child i event) : Moved i c action c
  | own {event : Event} {after : Child} (one : c.step event = some after) : Moved i c (.child i event) after
  | signalled {timedOut : Bool} : Moved i c (.parent timedOut) { c with shutdownEvent := true }
  | killed : Moved i c (.parent true) { c with stage := .killed }

theorem getElem?_set_cases {A : Type*} {items : List A} {i j : Nat} {a new found : A} (at_ : items[i]? = some a)
    (after : (items.set i new)[j]? = some found) : i = j ∧ found = new ∨ i ≠ j ∧ items[j]? = some found := by
  by_cases same : i = j
  · subst same
    rw [List.getElem?_set_self (List.getElem?_eq_some_iff.mp at_).1] at after
    exact .inl ⟨rfl, (Option.some.inj after).symm⟩
  · rw [List.getElem?_set_ne same] at after
    exact .inr ⟨same, after⟩

theorem child_of_step {action : Action} {i : Nat} {after : Child} (one : m.step action = some next)
    (at_ : next.children[i]? = some after) :
    (∃ c, m.children[i]? = some c ∧ Moved i c action after) ∨
      ∃ name starts, action = .startWorker name starts ∧ i = m.children.length ∧ after = .start starts := by
  cases stepped one with
  | @started name starts =>
      change (m.children ++ [.start starts])[i]? = some after at at_
      rw [List.getElem?_append] at at_
      split_ifs at at_ with old
      · exact .inl ⟨after, at_, .still fun _ => by simp⟩
      · rw [List.getElem?_singleton] at at_
        split_ifs at at_
        exact .inr ⟨name, starts, rfl, by omega, (Option.some.inj at_).symm⟩
  | stopsOne | stopsAll | returned | skipped | joined => exact .inl ⟨after, at_, .still fun _ => by simp⟩
  | signalled _ _ found =>
      rcases getElem?_set_cases found at_ with ⟨rfl, rfl⟩ | ⟨_, same⟩
      · exact .inl ⟨_, found, .signalled⟩
      · exact .inl ⟨after, same, .still fun _ => by simp⟩
  | killed _ found _ =>
      rcases getElem?_set_cases found at_ with ⟨rfl, rfl⟩ | ⟨_, same⟩
      · exact .inl ⟨_, found, .killed⟩
      · exact .inl ⟨after, same, .still fun _ => by simp⟩
  | moved found _ moves =>
      rcases getElem?_set_cases found at_ with ⟨rfl, rfl⟩ | ⟨apart, same⟩
      · exact .inl ⟨_, found, .own moves⟩
      · exact .inl ⟨after, same, .still fun _ => by simp [apart]⟩

theorem length_step {action : Action} (one : m.step action = some next) :
    next.children.length = m.children.length + if action.starts then 1 else 0 := by
  cases stepped one with
  | started => exact List.length_append
  | stopsOne | stopsAll | returned | skipped | joined => rfl
  | signalled | killed | moved => exact List.length_set

theorem Moved.sound {i : Nat} {c after : Child} {action : Action} (moved : Moved i c action after) (sound : c.Sound) :
    after.Sound := by
  cases moved with
  | still => exact sound
  | own one => exact sound.step one
  | signalled => exact sound.signalled
  | killed => exact sound.killed

theorem sound_of_run {actions : List Action} (run : exec step actions fresh = some m) :
    ∀ (i : Nat) (c : Child), m.children[i]? = some c → c.Sound := by
  apply exec_invariant (fun m => ∀ (i : Nat) (c : Child), m.children[i]? = some c → c.Sound) _ _ run
  · intro m action next all one i after at_
    rcases child_of_step one at_ with ⟨c, found, moved⟩ | ⟨name, starts, -, -, rfl⟩
    · exact moved.sound (all i c found)
    · exact ⟨rfl, rfl⟩
  · intro i c at_
    cases List.getElem?_nil.symm.trans at_

/-! The end of a process. -/

/-- An event of the process itself, a fault included. -/
def moves (i : Nat) : Action → Bool
  | .child j event => decide (j = i ∧ event ≠ .signal)
  | _ => false

def toGo (m : Manager) (i : Nat) : Nat :=
  match m.children[i]? with
  | some c => c.stage.toGo
  | none => 8

theorem toGo_le (m : Manager) (i : Nat) : m.toGo i ≤ 8 := by
  unfold toGo
  split
  · rename_i c _
    cases c.stage with
    | starting handlers => cases handlers <;> decide
    | serving busy noticed => cases busy <;> cases noticed <;> decide
    | cancelling | stopping | finalStop | closing | exited | killed => decide
  · exact Nat.le_refl 8

theorem moves_eq_false {i : Nat} {action : Action} (other : ∀ event, action ≠ .child i event) :
    moves i action = false := by
  cases action with
  | child j event =>
      refine decide_eq_false fun both => other event ?_
      rw [both.1]
  | _ => rfl

theorem Moved.toGo {i : Nat} {c after : Child} {action : Action} (moved : Moved i c action after) :
    after.stage.toGo + (if moves i action then 1 else 0) ≤ c.stage.toGo := by
  cases moved with
  | still other =>
      rw [moves_eq_false other]
      exact Nat.le_refl _
  | @own event after one =>
      by_cases signal : event = .signal
      · subst signal
        simpa [moves] using Child.toGo_signal one
      · simpa [moves, signal] using Child.toGo_step signal one
  | signalled => exact Nat.le_refl _
  | killed => exact Nat.zero_le _

theorem toGo_of_step {action : Action} (one : m.step action = some next) (i : Nat) :
    next.toGo i + (if moves i action then 1 else 0) ≤ m.toGo i := by
  cases at_ : next.children[i]? with
  | some after =>
      rcases child_of_step one at_ with ⟨c, found, moved⟩ | ⟨name, starts, rfl, here, rfl⟩
      · simp only [toGo, at_, found]
        exact moved.toGo
      · have absent : m.children[i]? = none := List.getElem?_eq_none (Nat.le_of_eq here.symm)
        simp only [toGo, at_, absent]
        exact Nat.le_refl 8
  | none =>
      have short := List.getElem?_eq_none_iff.mp at_
      have absent : m.children[i]? = none := by
        apply List.getElem?_eq_none
        have longer := length_step one
        omega
      have foreign : moves i action = false := by
        apply moves_eq_false
        rintro event rfl
        obtain ⟨c, found, -⟩ := Option.bind_eq_some_iff.mp one
        cases absent.symm.trans found
      simp only [toGo, at_, absent, foreign]
      exact Nat.le_refl 8

theorem toGo_of_run {actions : List Action} {m last : Manager} (run : exec step actions m = some last) (i : Nat) :
    last.toGo i + actions.countP (moves i) ≤ m.toGo i := by
  induction actions generalizing m with
  | nil =>
      cases run
      exact Nat.le_refl _
  | cons action rest ih =>
      obtain ⟨next, one, more⟩ := exec_cons.mp run
      have here := toGo_of_step one i
      have later := ih more
      rw [List.countP_cons]
      omega

/-- Whatever the processes and the parent do, a worker's `stop` is called only
after its shutdown event is set, a process that has ended by itself has called it
twice or failed to make the worker, and a process has at most eight events of its
own and, once told to shut down, is stuck nowhere before its end. -/
theorem shutdown_of_run {actions : List Action} (run : exec step actions fresh = some m) {i : Nat} {c : Child}
    (at_ : m.children[i]? = some c) :
    (c.stage = .exited → c.worker = false ∧ c.stops = 0 ∨ c.worker = true ∧ c.shutdownEvent = true ∧ c.stops = 2) ∧
      (0 < c.stops → c.shutdownEvent = true) ∧ actions.countP (moves i) ≤ 8 ∧
      (c.started = true → c.shutdownEvent = true → c.stage.alive = true →
        ∃ event, moves i (.child i event) = true ∧ event ≠ .crash ∧ (m.step (.child i event)).isSome) := by
  have sound := sound_of_run run i c at_
  refine ⟨fun ended => ?_, fun stopped => (sound.stops.2 stopped).2, ?_, fun started told alive => ?_⟩
  · simpa only [Child.Sound, ended] using sound
  · have bound := toGo_of_run run i
    have start := toGo_le fresh i
    omega
  · obtain ⟨event, own, noCrash, enabled⟩ := Child.enabled_of_shutdown told alive
    refine ⟨event, decide_eq_true ⟨rfl, own⟩, noCrash, ?_⟩
    simpa only [step, child, at_, started, Option.bind_some, if_true, Option.isSome_map] using enabled

def graceful : List Action := [
  .startWorker "mdp" true, .child 0 .installHandlers, .child 0 (.instantiate false), .stopAll, .parent false,
  .child 0 .monitorShutdown, .child 0 .wake, .child 0 .cancelled, .child 0 (.stopped false),
  .child 0 (.finalStopped false), .child 0 .close]

theorem shutdown_graceful : ∃ m c, exec step graceful fresh = some m ∧ m.children[0]? = some c ∧ c.stage = .exited ∧
    (c.worker = false ∧ c.stops = 0 ∨ c.worker = true ∧ c.shutdownEvent = true ∧ c.stops = 2) ∧
      (0 < c.stops → c.shutdownEvent = true) ∧ graceful.countP (moves 0) ≤ 8 := by
  obtain ⟨m, c, run, at_, ended⟩ :
      ∃ m c, exec step graceful fresh = some m ∧ m.children[0]? = some c ∧ c.stage = .exited :=
    ⟨_, _, rfl, rfl, rfl⟩
  obtain ⟨exits, asked, bound, -⟩ := shutdown_of_run run at_
  exact ⟨m, c, run, at_, ended, exits ended, asked, bound⟩

end Manager

end KuhlHausMdp.ProcessManager.Lifecycle
