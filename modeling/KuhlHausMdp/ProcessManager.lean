import KuhlHausMdp.Library.Dict
import KuhlHausMdp.Library.Mailbox
import KuhlHausMdp.Library.Transition
import Mathlib.Data.List.Count

/-! `ProcessManager`: each worker runs in a process of its own, where a reporter
puts the worker's counters into a queue of one place once a second; `get_status`
takes them out in the parent, whenever it is called. -/

set_option autoImplicit false

namespace KuhlHausMdp.ProcessManager

open Transition

inductive WorkerClass where
  | massiveDataProcessor
  | finlightDataProcessor
  | marketDataScanner
  deriving DecidableEq, Repr

/-- Attributes that count; the processors and the scanner name theirs differently. -/
inductive Counter where
  | processed
  | processingError
  | error
  | errors
  | decodingError
  | decodingErrors
  | published
  | publishedResults
  | emptyResults
  | restarts
  deriving DecidableEq, Repr

inductive Flag where
  | mdqConnected
  | mdcConnected
  | running
  deriving DecidableEq, Repr

namespace WorkerClass

/-- What `__init__` sets. The class body of the scanner annotates `error` and
`decoding_error` too, which makes no attribute. -/
def counters : WorkerClass → List Counter
  | massiveDataProcessor => [.processed, .processingError, .error, .decodingError, .published]
  | finlightDataProcessor => [.processed, .processingError, .error, .decodingError, .published]
  | marketDataScanner => [.restarts, .processed, .decodingErrors, .emptyResults, .publishedResults, .errors]

def flags : WorkerClass → List Flag
  | massiveDataProcessor => [.running, .mdqConnected, .mdcConnected]
  | finlightDataProcessor => [.running, .mdqConnected, .mdcConnected]
  | marketDataScanner => [.mdcConnected, .running]

end WorkerClass

structure Worker where
  kind : WorkerClass
  counts : Counter → Nat
  flags : Flag → Bool

namespace Worker

def init (kind : WorkerClass) : Worker := ⟨kind, fun _ => 0, fun _ => false⟩

/-- `getattr(worker_instance, counter, default)`. -/
def getCounter (worker : Worker) (counter : Counter) (default : Nat) : Nat :=
  if counter ∈ worker.kind.counters then worker.counts counter else default

def getFlag (worker : Worker) (flag : Flag) : Bool :=
  if flag ∈ worker.kind.flags then worker.flags flag else false

end Worker

structure Status where
  processed : Nat
  errors : Nat
  decodingErrors : Nat
  published : Nat
  processingErrors : Nat
  mdqConnected : Bool
  mdcConnected : Bool
  restarts : Nat
  running : Bool
  deriving DecidableEq, Repr

def statusReporter (worker : Worker) : Status where
  processed := worker.getCounter .processed 0
  errors := worker.getCounter .errors (worker.getCounter .error 0)
  decodingErrors := worker.getCounter .decodingError 0
  published := worker.getCounter .published 0
  processingErrors := worker.getCounter .processingError 0
  mdqConnected := worker.getFlag .mdqConnected
  mdcConnected := worker.getFlag .mdcConnected
  restarts := worker.getCounter .restarts 0
  running := worker.getFlag .running

/-- A worker's process with its queue. The last three fields record its past:
the counters at the latest tick, what was counted since the tick whose report
was last put into the queue, and how much of that the latest tick found. -/
structure Process where
  worker : Worker
  pid : Nat
  alive : Bool
  statusQueue : Mailbox Status
  latest : Counter → Nat
  counted : List Counter
  missed : List Counter

inductive Event where
  | count (counter : Counter)
  | set (flag : Flag) (value : Bool)
  | tick
  | feed
  | exit
  deriving DecidableEq, Repr

namespace Process

def start (kind : WorkerClass) (pid : Nat) : Process where
  worker := .init kind
  pid := pid
  alive := true
  statusQueue := .empty
  latest := fun _ => 0
  counted := []
  missed := []

/-- A tick whose report finds the queue full is dropped. -/
def tick (p : Process) : Process := { p with
  statusQueue := p.statusQueue.put (statusReporter p.worker)
  latest := p.worker.counts
  counted := if p.statusQueue = .empty then [] else p.counted
  missed := if p.statusQueue = .empty then [] else p.counted }

def step (p : Process) (event : Event) : Option Process :=
  if p.alive then
    match event with
    | .count counter =>
        if counter ∈ p.worker.kind.counters then
          some { p with
            worker := { p.worker with
              counts := Function.update p.worker.counts counter (p.worker.counts counter + 1) }
            counted := counter :: p.counted }
        else none
    | .set flag value =>
        if flag ∈ p.worker.kind.flags then
          some { p with worker := { p.worker with flags := Function.update p.worker.flags flag value } }
        else none
    | .tick => some p.tick
    | .feed => some { p with statusQueue := p.statusQueue.feed }
    | .exit => some { p with alive := false }
  else none

end Process

/-- The three dictionaries of the source share their keys. -/
structure Manager where
  processes : Dict String Process

/-- The dictionary that `get_status` returns; `status` is what the worker's
report adds to it. -/
structure Report where
  alive : Bool
  pid : Option Nat
  status : Option Status
  deriving DecidableEq, Repr

inductive Action where
  | startWorker (name : String) (kind : WorkerClass) (pid : Nat)
  | worker (name : String) (event : Event)
  | getStatus (name : String)
  deriving DecidableEq, Repr

namespace Manager

def fresh : Manager := ⟨∅⟩

def getStatus (manager : Manager) (name : String) : Report × Manager :=
  match manager.processes.get name with
  | none => (⟨false, none, none⟩, manager)
  | some p =>
      let (status, queue) := p.statusQueue.get
      (⟨p.alive, some p.pid, status⟩, ⟨manager.processes.set name { p with statusQueue := queue }⟩)

def step (manager : Manager) : Action → Option Manager
  | .startWorker name kind pid => some ⟨manager.processes.set name (.start kind pid)⟩
  | .worker name event => (manager.processes.get name).bind fun p =>
      (p.step event).map fun next => ⟨manager.processes.set name next⟩
  | .getStatus name => some (manager.getStatus name).2

end Manager

inductive Metric where
  | processed
  | errors
  | decodingErrors
  | published
  deriving DecidableEq, Repr

def Status.value (status : Status) : Metric → Nat
  | .processed => status.processed
  | .errors => status.errors
  | .decodingErrors => status.decodingErrors
  | .published => status.published

namespace WorkerClass

def own : WorkerClass → Metric → Counter
  | _, .processed => .processed
  | marketDataScanner, .errors => .errors
  | marketDataScanner, .decodingErrors => .decodingErrors
  | marketDataScanner, .published => .publishedResults
  | _, .errors => .error
  | _, .decodingErrors => .decodingError
  | _, .published => .published

/-- The reporter asks for the attribute by that name. -/
def Named (kind : WorkerClass) (metric : Metric) : Prop :=
  kind = .marketDataScanner → metric = .processed ∨ metric = .errors

instance (kind : WorkerClass) (metric : Metric) : Decidable (kind.Named metric) :=
  inferInstanceAs (Decidable (_ → _))

end WorkerClass

theorem value_statusReporter (worker : Worker) (metric : Metric) : (statusReporter worker).value metric =
    if worker.kind.Named metric then worker.counts (worker.kind.own metric) else 0 := by
  obtain ⟨kind, counts, flags⟩ := worker
  cases kind <;> cases metric <;> rfl

namespace Process

/-- The report in the queue was made of counters that have since grown by what
was counted. -/
def Recorded (p : Process) : Prop :=
  ∀ status, p.statusQueue.held = some status →
    ∃ sent : Worker, status = statusReporter sent ∧ sent.kind = p.worker.kind ∧
      (∀ counter, p.latest counter = sent.counts counter + p.missed.count counter) ∧
      ∀ counter, p.worker.counts counter = sent.counts counter + p.counted.count counter

theorem recorded_start (kind : WorkerClass) (pid : Nat) : (start kind pid).Recorded := by
  intro status held
  cases held

theorem Recorded.tick {p : Process} (recorded : p.Recorded) : p.tick.Recorded := by
  intro status held
  change (p.statusQueue.put (statusReporter p.worker)).held = some status at held
  rw [Mailbox.held_put] at held
  by_cases free : p.statusQueue = .empty
  · -- the report of this tick
    rw [free, Mailbox.held_empty, Option.getD_none] at held
    cases held
    refine ⟨p.worker, rfl, rfl, fun counter => ?_, fun counter => ?_⟩
    · simp [Process.tick, free]
    · simp [Process.tick, free]
  · -- an older report is still there
    have older : p.statusQueue.held = some status := by
      cases queue : p.statusQueue with
      | empty => exact absurd queue free
      | buffered item => rw [queue] at held; exact held
      | piped item => rw [queue] at held; exact held
    obtain ⟨sent, same, kind, _, counted⟩ := recorded status older
    refine ⟨sent, same, kind, fun counter => ?_, fun counter => ?_⟩
    · simpa [Process.tick, free] using counted counter
    · simpa [Process.tick, free] using counted counter

theorem Recorded.step {p next : Process} {event : Event} (recorded : p.Recorded) (one : p.step event = some next) :
    next.Recorded := by
  unfold Process.step at one
  split at one
  case isFalse => cases one
  case isTrue alive =>
    cases event with
    | count counter =>
        simp only at one
        split at one
        · cases one
          intro status held
          obtain ⟨sent, same, kind, latest, counted⟩ := recorded status held
          refine ⟨sent, same, kind, latest, fun other => ?_⟩
          have before := counted other
          by_cases here : other = counter
          · subst here
            simp only [Function.update_self, List.count_cons_self]
            omega
          · simp only [Function.update_of_ne here, List.count_cons_of_ne (Ne.symm here)]
            exact before
        · cases one
    | set flag value =>
        simp only at one
        split at one
        · cases one
          exact recorded
        · cases one
    | tick =>
        cases one
        exact recorded.tick
    | feed =>
        cases one
        intro status held
        exact recorded status ((Mailbox.held_feed _).symm.trans held)
    | exit =>
        cases one
        exact recorded

/-- Nothing that the worker counts for the metric was counted between the tick
whose report is in the queue and the latest tick, and the reporter asks for that
counter by its name unless there is nothing to report. -/
def Current (p : Process) (metric : Metric) : Prop :=
  p.worker.kind.own metric ∉ p.missed ∧ (p.worker.kind.Named metric ∨ p.latest (p.worker.kind.own metric) = 0)

theorem Recorded.value_iff {p : Process} {status : Status} (recorded : p.Recorded)
    (held : p.statusQueue.held = some status) (metric : Metric) :
    status.value metric = p.latest (p.worker.kind.own metric) ↔ p.Current metric := by
  obtain ⟨sent, rfl, kind, latest, _⟩ := recorded status held
  have grown := latest (p.worker.kind.own metric)
  rw [value_statusReporter, kind, Current, ← List.count_eq_zero]
  by_cases named : p.worker.kind.Named metric
  · rw [if_pos named]
    constructor
    · intro equal
      exact ⟨by omega, .inl named⟩
    · intro current
      omega
  · rw [if_neg named]
    constructor
    · intro equal
      exact ⟨by omega, .inr equal.symm⟩
    · intro current
      exact (current.2.resolve_left named).symm

end Process

namespace Manager

def Recorded (manager : Manager) : Prop := ∀ name p, manager.processes.get name = some p → p.Recorded

theorem Recorded.set {manager : Manager} {name : String} {p : Process} (recorded : manager.Recorded)
    (new : p.Recorded) : Recorded ⟨manager.processes.set name p⟩ := by
  intro other q found
  change (manager.processes.set name p).get other = some q at found
  rw [Dict.get_set] at found
  split at found
  · cases found
    exact new
  · exact recorded other q found

theorem Recorded.step {manager next : Manager} {action : Action} (recorded : manager.Recorded)
    (one : manager.step action = some next) : next.Recorded := by
  cases action with
  | startWorker name kind pid =>
      cases one
      exact recorded.set (Process.recorded_start kind pid)
  | worker name event =>
      obtain ⟨p, found, moved⟩ := Option.bind_eq_some_iff.mp one
      obtain ⟨after, stepped, rfl⟩ := Option.map_eq_some_iff.mp moved
      exact recorded.set ((recorded name p found).step stepped)
  | getStatus name =>
      cases one
      unfold getStatus
      split
      · exact recorded
      · rename_i p found
        apply recorded.set
        intro status held
        exact recorded name p found status (Mailbox.held_get held)

/-- A report that `get_status` finds has the worker's own counters as of the
latest tick. -/
def Faithful (manager : Manager) : Action → Prop
  | .getStatus name => ∀ p, manager.processes.get name = some p →
      ∀ status, (manager.getStatus name).1.status = some status →
        ∀ metric, status.value metric = p.latest (p.worker.kind.own metric)
  | _ => True

/-- `get_status` is called while the report in the queue is current. -/
def Timely (manager : Manager) : Action → Prop
  | .getStatus name => ∀ p, manager.processes.get name = some p →
      ∀ status, p.statusQueue = .piped status → ∀ metric, p.Current metric
  | _ => True

theorem getStatus_of_get {manager : Manager} {name : String} {p : Process}
    (found : manager.processes.get name = some p) :
    (manager.getStatus name).1 = ⟨p.alive, some p.pid, p.statusQueue.get.1⟩ := by
  rw [getStatus, found]

theorem Recorded.faithful_iff {manager : Manager} {action : Action} (recorded : manager.Recorded) :
    manager.Faithful action ↔ manager.Timely action := by
  cases action with
  | startWorker | worker => rfl
  | getStatus name =>
      apply forall_congr'
      intro p
      apply forall_congr'
      intro found
      apply forall_congr'
      intro status
      rw [getStatus_of_get found, Mailbox.get_eq_some_iff]
      apply imp_congr_right
      intro queue
      apply forall_congr'
      intro metric
      exact (recorded name p found).value_iff (by rw [queue]; rfl) metric

end Manager

/-- In every run every `get_status` that finds a report returns the worker's
counters of the latest tick exactly when each is called while the report in the
queue is current. -/
theorem get_status_faithful_iff (actions : List Action) :
    Along Manager.step Manager.Faithful actions .fresh ↔ Along Manager.step Manager.Timely actions .fresh :=
  along_congr Manager.Recorded (fun recorded _ one => recorded.step one) (fun recorded => recorded.faithful_iff)
    fun _ _ => nofun

/-- A message is processed after the first report was put, and the second
report finds the queue full. -/
def overtaken : List Action := [
  .startWorker "mdp" .massiveDataProcessor 7, .worker "mdp" .tick, .worker "mdp" .feed,
  .worker "mdp" (.count .processed), .worker "mdp" .tick]

/-- The scanner published a result before its report. -/
def misnamed : List Action := [
  .startWorker "mds" .marketDataScanner 8, .worker "mds" (.count .processed),
  .worker "mds" (.count .publishedResults), .worker "mds" .tick, .worker "mds" .feed]

/-- The first run reads no message where the latest tick found one, the second
no published result where the scanner counted one. -/
theorem get_status_unfaithful :
    ¬ Along Manager.step Manager.Faithful (overtaken ++ [.getStatus "mdp"]) .fresh ∧
      ¬ Along Manager.step Manager.Faithful (misnamed ++ [.getStatus "mds"]) .fresh := by
  constructor
  · intro faithful
    obtain ⟨manager, reached⟩ : ∃ manager, exec Manager.step overtaken .fresh = some manager := ⟨_, rfl⟩
    have read := faithful.at_step overtaken reached
    cases reached
    exact absurd (read _ rfl _ rfl .processed) (by decide)
  · intro faithful
    obtain ⟨manager, reached⟩ : ∃ manager, exec Manager.step misnamed .fresh = some manager := ⟨_, rfl⟩
    have read := faithful.at_step misnamed reached
    cases reached
    exact absurd (read _ rfl _ rfl .published) (by decide)

end KuhlHausMdp.ProcessManager
