import Mathlib
import KuhlHausMdp.RollingList
import KuhlHausMdp.WebSocketMessageSerde

/-! The counters of the two data processors: `_process_message` and
`_cache_result` of many tasks, one stretch between two awaits at a time. -/

set_option autoImplicit false

namespace KuhlHausMdp.DataProcessor.Accounting

open Transition

inductive Processor where
  | massiveDataProcessor
  | finlightDataProcessor
  deriving DecidableEq, Repr

def Processor.writer : Processor → RollingList.Writer
  | .massiveDataProcessor => .massiveDataProcessor
  | .finlightDataProcessor => .finlightDataProcessor

inductive Raised where
  | dataAnalysisException
  | jsonDecodeError
  | exception
  deriving DecidableEq, Repr

/-- What becomes of the commands of one pipeline. A connection may also be lost
after the last of them. -/
structure Execution where
  stored : Bool
  raised : Option Raised
  answered : raised = none → stored = true

/-- A result and what becomes of it; `serializable` is whether `json.dumps`
accepts its data. -/
structure Write where
  result : RollingList.MarketDataAnalyzerResult
  serializable : Bool
  execution : Execution

/-- What `decode` and `json.loads` make of the bytes of a message. -/
inductive Body where
  | undecodable
  | malformed
  | document (value : Value)

/-- A message with the answers that the analyzer, Redis and RabbitMQ give while
it is handled. -/
structure Delivery where
  body : Body
  analyzeData : Value → Except Raised (Option (List Write))
  acknowledge : Option Raised

/-- Where a task is suspended: at the semaphore, in `analyze_data`, in
`pipe.execute()`, or on its way out of `message.process()`. -/
inductive Stage where
  | created
  | analyzing (data : Value)
  | executing (write : Write) (rest : List Write)
  | leaving (raised : Option Raised)
  | finished

/-- `counted` and `published` are this task's part of the counters, `written`
the results of its message that Redis has stored. -/
structure Task where
  delivery : Delivery
  stage : Stage
  counted : Nat
  published : Nat
  written : Nat

structure Counters where
  processed : Nat
  processingError : Nat
  decodingError : Nat
  published : Nat
  error : Nat
  deriving DecidableEq, Repr

structure Consumer where
  semaphore : Nat
  counters : Counters
  tasks : List Task

inductive Move where
  | callback (delivery : Delivery)
  | resume (task : Nat)

def delivered : List Move → List Delivery
  | [] => []
  | .callback delivery :: rest => delivery :: delivered rest
  | .resume _ :: rest => delivered rest

namespace Counters

def zero : Counters := ⟨0, 0, 0, 0, 0⟩

def caught (c : Counters) : Raised → Counters
  | .dataAnalysisException => { c with processingError := c.processingError + 1 }
  | .jsonDecodeError => { c with decodingError := c.decodingError + 1 }
  | .exception => { c with error := c.error + 1 }

def messages (c : Counters) : Nat := c.processed + c.processingError + c.decodingError + c.error

end Counters

/-- The argument of `analyze_data`. `UnicodeDecodeError` is no `JSONDecodeError`. -/
def parse (processor : Processor) : Body → Except Raised Value
  | .undecodable => .error .exception
  | .malformed => .error .jsonDecodeError
  | .document value =>
      match processor with
      | .massiveDataProcessor =>
          match WebSocketMessageSerde.toDict (.plain value) with
          | some data => .ok data
          | none => .error .exception
      | .finlightDataProcessor => .ok value

section

variable {Text : Type*} (json : Json Text) (processor : Processor)

/-- `_cache_result` up to `await pipe.execute()`, without a pipeline when an
exception comes first. -/
def Write.commands (write : Write) : Option (List (Redis.Command Text)) :=
  if write.serializable then RollingList.cacheResult json processor.writer write.result else none

/-- An empty pipeline is executed without asking Redis. -/
def Write.stored (write : Write) : Bool :=
  match write.commands json processor with
  | some (_ :: _) => write.execution.stored
  | _ => false

namespace Task

def ofDelivery (delivery : Delivery) : Task := ⟨delivery, .created, 0, 0, 0⟩

def nextResult (t : Task) (c : Counters) : List Write → Task × Counters
  | [] => ({ t with stage := .leaving none }, c)
  | write :: rest =>
      ({ t with
          published := t.published + 1
          stage := match write.commands json processor with
            | some _ => .executing write rest
            | none => .leaving (some .exception) },
        { c with published := c.published + 1 })

def resume (t : Task) (c : Counters) : Task × Counters :=
  match t.stage with
  | .created =>
      match parse processor t.delivery.body with
      | .ok data => ({ t with stage := .analyzing data }, c)
      | .error raised => ({ t with stage := .leaving (some raised) }, c)
  | .analyzing data =>
      match t.delivery.analyzeData data with
      | .ok results =>
          nextResult json processor { t with counted := t.counted + 1 } { c with processed := c.processed + 1 }
            (results.getD [])
      | .error raised => ({ t with stage := .leaving (some raised) }, c)
  | .executing write rest =>
      let t := { t with written := t.written + if write.stored json processor then 1 else 0 }
      match write.execution.raised with
      | none => nextResult json processor t c rest
      | some raised => ({ t with stage := .leaving (some raised) }, c)
  | .leaving raised =>
      -- an exception of `ack` or `reject` takes the place of the first one
      match t.delivery.acknowledge.or raised with
      | none => ({ t with stage := .finished }, c)
      | some raised => ({ t with stage := .finished, counted := t.counted + 1 }, c.caught raised)
  | .finished => (t, c)

end Task

namespace Consumer

def started (maxConcurrentTasks : Nat) : Consumer := ⟨maxConcurrentTasks, .zero, []⟩

/-- The semaphore after a task has moved on, unless the task has to wait for it. -/
def acquired (s : Consumer) : Stage → Option Nat
  | .created => if s.semaphore = 0 then none else some (s.semaphore - 1)
  | .analyzing _ | .executing _ _ => some s.semaphore
  | .leaving _ => some (s.semaphore + 1)
  | .finished => none

def step (s : Consumer) : Move → Option Consumer
  | .callback delivery => some { s with tasks := s.tasks ++ [.ofDelivery delivery] }
  | .resume i =>
      match s.tasks[i]? with
      | none => none
      | some task => (s.acquired task.stage).map fun semaphore =>
          let moved := task.resume json processor s.counters
          { semaphore := semaphore, counters := moved.2, tasks := s.tasks.set i moved.1 }

def written (s : Consumer) : Nat := (s.tasks.map Task.written).sum

def Idle (s : Consumer) : Prop := ∀ task ∈ s.tasks, task.stage = .finished

/-- Every message is counted once, and every published result is written. -/
structure Balanced (s : Consumer) : Prop where
  messages : s.counters.messages = s.tasks.length
  once : ∀ task ∈ s.tasks, task.counted = 1
  published : s.counters.published = s.written

end Consumer

def Write.Succeeds (write : Write) : Prop :=
  (∃ command rest, write.commands json processor = some (command :: rest)) ∧ write.execution.raised = none

def Delivery.results (d : Delivery) : Option (List Write) :=
  match parse processor d.body with
  | .error _ => none
  | .ok data =>
      match d.analyzeData data with
      | .error _ => none
      | .ok results => some (results.getD [])

def Delivery.SucceedsOnceAnalyzed (d : Delivery) : Prop :=
  ∀ results, d.results processor = some results →
    (∀ write ∈ results, write.Succeeds json processor) ∧ d.acknowledge = none

namespace Task

/-- The message is counted as processed. Of its results those in `done` are
behind it, and the pipelines of `pending` more are under way. -/
structure Publishing (t : Task) (done : List Write) (pending : Nat) : Prop where
  counted : t.counted = 1
  le : t.written + pending ≤ t.published
  succeeds : t.published = t.written + pending ↔ ∀ write ∈ done, write.Succeeds json processor

structure Untouched (t : Task) : Prop where
  counted : t.counted = 0
  published : t.published = 0
  written : t.written = 0

def Accounted (t : Task) : Prop :=
  match t.stage with
  | .created => t.Untouched
  | .analyzing data => t.Untouched ∧ parse processor t.delivery.body = .ok data
  | .executing write rest => ∃ done, t.delivery.results processor = some (done ++ write :: rest) ∧
      (write.commands json processor).isSome ∧ t.Publishing json processor done 1
  | .leaving none => ∃ done, t.delivery.results processor = some done ∧ t.Publishing json processor done 0
  | .leaving (some _) => t.Untouched ∧ t.delivery.results processor = none ∨
      t.counted = 1 ∧ t.written ≤ t.published ∧ ¬t.delivery.SucceedsOnceAnalyzed json processor
  | .finished => 1 ≤ t.counted ∧ t.written ≤ t.published ∧
      (t.counted = 1 ∧ t.published = t.written ↔ t.delivery.SucceedsOnceAnalyzed json processor)

variable {json processor}

theorem nextResult_accounted {t : Task} (done : List Write) {rest : List Write} (c : Counters)
    (results : t.delivery.results processor = some (done ++ rest)) (publishing : t.Publishing json processor done 0) :
    (t.nextResult json processor c rest).1.Accounted json processor := by
  obtain ⟨counted, le, succeeds⟩ := publishing
  cases rest with
  | nil => exact ⟨done, by simpa [nextResult] using results, counted, le, succeeds⟩
  | cons write rest =>
      cases commands : write.commands json processor with
      | none =>
          simp only [nextResult, commands, Accounted]
          refine .inr ⟨counted, by omega, fun all => ?_⟩
          -- the result raises before its pipeline is executed
          obtain ⟨⟨_, _, given⟩, -⟩ := (all _ results).1 write (by simp)
          cases commands.symm.trans given
      | some given =>
          simp only [nextResult, commands, Accounted]
          refine ⟨done, results, by simp, counted, by simpa using le, ?_⟩
          rw [← succeeds]
          simp only [Nat.add_zero, Nat.add_right_cancel_iff]

theorem stored_of_answered {write : Write} (answered : write.execution.raised = none)
    (isSome : (write.commands json processor).isSome) :
    write.stored json processor = true ↔ write.Succeeds json processor := by
  obtain ⟨commands, given⟩ := Option.isSome_iff_exists.mp isSome
  cases commands with
  | nil => simp [Write.stored, Write.Succeeds, given]
  | cons command rest => simp [Write.stored, Write.Succeeds, given, answered, write.execution.answered answered]

theorem resume_accounted {t : Task} (c : Counters) (accounted : t.Accounted json processor) :
    (t.resume json processor c).1.Accounted json processor := by
  unfold Accounted at accounted
  cases at_ : t.stage with
  | created =>
      simp only [at_] at accounted
      cases parsed : parse processor t.delivery.body with
      | ok data =>
          simp only [resume, at_, parsed, Accounted]
          exact ⟨⟨accounted.counted, accounted.published, accounted.written⟩, trivial⟩
      | error raised =>
          simp only [resume, at_, parsed, Accounted, Delivery.results]
          exact .inl ⟨⟨accounted.counted, accounted.published, accounted.written⟩, trivial⟩
  | analyzing data =>
      simp only [at_] at accounted
      obtain ⟨⟨counted, published, written⟩, parsed⟩ := accounted
      cases analyzed : t.delivery.analyzeData data with
      | ok results =>
          simp only [resume, at_, analyzed]
          apply nextResult_accounted []
          · simp [Delivery.results, parsed, analyzed]
          · constructor <;> simp [counted, published, written]
      | error raised =>
          simp only [resume, at_, analyzed, Accounted, Delivery.results, parsed]
          exact .inl ⟨⟨counted, published, written⟩, trivial⟩
  | executing write rest =>
      simp only [at_] at accounted
      obtain ⟨done, results, isSome, counted, le, succeeds⟩ := accounted
      cases raised : write.execution.raised with
      | none =>
          simp only [resume, at_, raised]
          have stored := stored_of_answered raised isSome
          apply nextResult_accounted (done ++ [write])
          · simpa using results
          · by_cases ok : write.Succeeds json processor
            · refine ⟨counted, ?_, ?_⟩
              · simpa [stored.mpr ok] using le
              · simpa [stored.mpr ok, ok, or_imp, forall_and] using succeeds
            · have unstored : write.stored json processor = false := by simpa using mt stored.mp ok
              refine ⟨counted, ?_, ?_⟩
              · simp only [unstored, Bool.false_eq_true, if_false]
                omega
              · simp only [unstored, Bool.false_eq_true, if_false]
                constructor
                · intro same
                  omega
                · intro all
                  exact absurd (all write (by simp)) ok
      | some failure =>
          simp only [resume, at_, raised, Accounted]
          refine .inr ⟨counted, ?_, fun all => ?_⟩
          · split_ifs <;> omega
          · cases raised.symm.trans ((all _ results).1 write (by simp)).2
  | leaving raised =>
      simp only [at_] at accounted
      cases raised with
      | none =>
          obtain ⟨done, results, counted, le, succeeds⟩ := accounted
          have once : t.delivery.SucceedsOnceAnalyzed json processor ↔
              (∀ write ∈ done, write.Succeeds json processor) ∧ t.delivery.acknowledge = none := by
            simp [Delivery.SucceedsOnceAnalyzed, results]
          cases acknowledge : t.delivery.acknowledge with
          | none =>
              simp only [resume, at_, acknowledge, Option.or_none, Accounted]
              exact ⟨by omega, by omega, by simp [once, acknowledge, counted, ← succeeds]⟩
          | some failure =>
              simp only [resume, at_, acknowledge, Option.some_or, Accounted]
              exact ⟨by omega, by omega, by simp [once, acknowledge, counted]⟩
      | some failure =>
          obtain ⟨last, taken⟩ : ∃ last, t.delivery.acknowledge.or (some failure) = some last := by
            cases t.delivery.acknowledge <;> simp
          simp only [resume, at_, taken, Accounted]
          rcases accounted with ⟨⟨counted, published, written⟩, unanalyzed⟩ | ⟨counted, le, fails⟩
          · refine ⟨by omega, by omega, ?_⟩
            simp [counted, published, written, Delivery.SucceedsOnceAnalyzed, unanalyzed]
          · exact ⟨by omega, le, iff_of_false (fun same => by omega) fails⟩
  | finished => simpa only [resume, at_, Accounted] using accounted

theorem caught_messages (c : Counters) (raised : Raised) : (c.caught raised).messages = c.messages + 1 := by
  cases raised <;> simp only [Counters.caught, Counters.messages] <;> omega

theorem caught_published (c : Counters) (raised : Raised) : (c.caught raised).published = c.published := by
  cases raised <;> rfl

/-- The counters grow by what the task adds to its own part of them. -/
structure Tallies (t : Task) (c : Counters) (moved : Task × Counters) : Prop where
  messages : moved.2.messages + t.counted = c.messages + moved.1.counted
  published : moved.2.published + t.published = c.published + moved.1.published

theorem Tallies.since {t later : Task} {c more : Counters} {moved : Task × Counters} {k : Nat}
    (tallies : later.Tallies more moved) (counted : later.counted = t.counted + k)
    (messages : more.messages = c.messages + k) (published : later.published = t.published)
    (same : more.published = c.published) : t.Tallies c moved := by
  obtain ⟨counts, publishes⟩ := tallies
  constructor <;> omega

variable (json processor)

theorem nextResult_tallies (t : Task) (c : Counters) (rest : List Write) :
    t.Tallies c (t.nextResult json processor c rest) := by
  cases rest with
  | nil => exact ⟨rfl, rfl⟩
  | cons write rest =>
      constructor
      · rfl
      · simp only [nextResult]
        omega

theorem resume_tallies (t : Task) (c : Counters) : t.Tallies c (t.resume json processor c) := by
  cases at_ : t.stage with
  | created => cases parsed : parse processor t.delivery.body <;> simp only [resume, at_, parsed] <;> exact ⟨rfl, rfl⟩
  | analyzing data =>
      cases analyzed : t.delivery.analyzeData data with
      | error raised => simp only [resume, at_, analyzed]; exact ⟨rfl, rfl⟩
      | ok results =>
          simp only [resume, at_, analyzed]
          refine (nextResult_tallies json processor _ _ _).since (k := 1) rfl ?_ rfl rfl
          simp only [Counters.messages]
          omega
  | executing write rest =>
      cases raised : write.execution.raised with
      | none =>
          simp only [resume, at_, raised]
          exact (nextResult_tallies json processor _ _ _).since (k := 0) rfl rfl rfl rfl
      | some failure => simp only [resume, at_, raised]; exact ⟨rfl, rfl⟩
  | leaving raised =>
      cases taken : t.delivery.acknowledge.or raised with
      | none => simp only [resume, at_, taken]; exact ⟨rfl, rfl⟩
      | some failure =>
          simp only [resume, at_, taken]
          constructor
          · simp only [caught_messages]
            omega
          · simp only [caught_published]
  | finished => simp only [resume, at_]; exact ⟨rfl, rfl⟩

end Task

namespace Consumer

structure Tallied (s : Consumer) : Prop where
  messages : s.counters.messages = (s.tasks.map Task.counted).sum
  published : s.counters.published = (s.tasks.map Task.published).sum
  accounted : ∀ task ∈ s.tasks, task.Accounted json processor

variable {json processor}

theorem sum_map_set (f : Task → Nat) {tasks : List Task} {i : Nat} {task : Task} (at_ : tasks[i]? = some task)
    (moved : Task) : ((tasks.set i moved).map f).sum + f task = (tasks.map f).sum + f moved := by
  induction tasks generalizing i with
  | nil => cases at_
  | cons first rest ih =>
      cases i with
      | zero =>
          obtain rfl : first = task := by simpa using at_
          simp only [List.set_cons_zero, List.map_cons, List.sum_cons]
          omega
      | succ i =>
          have later := ih (i := i) (by simpa using at_)
          simp only [List.set_cons_succ, List.map_cons, List.sum_cons]
          omega

theorem step_resume {s next : Consumer} {i : Nat} (one : s.step json processor (.resume i) = some next) :
    ∃ task semaphore, s.tasks[i]? = some task ∧
      next = ⟨semaphore, (task.resume json processor s.counters).2,
        s.tasks.set i (task.resume json processor s.counters).1⟩ := by
  cases at_ : s.tasks[i]? with
  | none => simp [step, at_] at one
  | some task =>
      simp only [step, at_, Option.map_eq_some_iff] at one
      obtain ⟨semaphore, -, same⟩ := one
      exact ⟨task, semaphore, rfl, same.symm⟩

theorem Tallied.step {s next : Consumer} {move : Move} (tallied : s.Tallied json processor)
    (one : s.step json processor move = some next) : next.Tallied json processor := by
  obtain ⟨messages, published, accounted⟩ := tallied
  cases move with
  | callback delivery =>
      cases one
      constructor
      · simpa [Task.ofDelivery] using messages
      · simpa [Task.ofDelivery] using published
      · intro task member
        rcases List.mem_append.mp member with old | new
        · exact accounted task old
        · obtain rfl := List.mem_singleton.mp new
          exact ⟨rfl, rfl, rfl⟩
  | resume i =>
      obtain ⟨task, semaphore, at_, rfl⟩ := step_resume one
      have grows := Task.resume_tallies json processor task s.counters
      have counted := sum_map_set Task.counted at_ (task.resume json processor s.counters).1
      have added := sum_map_set Task.published at_ (task.resume json processor s.counters).1
      refine ⟨?_, ?_, fun other member => ?_⟩
      · have := grows.messages
        simp only
        omega
      · have := grows.published
        simp only
        omega
      · rcases List.mem_or_eq_of_mem_set member with old | rfl
        · exact accounted other old
        · exact Task.resume_accounted _ (accounted task (List.mem_of_getElem? at_))

theorem Tallied.started (maxConcurrentTasks : Nat) : (started maxConcurrentTasks).Tallied json processor :=
  ⟨rfl, rfl, fun _ member => nomatch member⟩

theorem sum_map_eq_iff (f g : Task → Nat) {tasks : List Task} (le : ∀ task ∈ tasks, g task ≤ f task) :
    (tasks.map f).sum = (tasks.map g).sum ↔ ∀ task ∈ tasks, f task = g task := by
  constructor
  · intro same
    induction tasks with
    | nil => intro task member; cases member
    | cons first rest ih =>
        obtain ⟨here, later⟩ := List.forall_mem_cons.mp le
        have bound : (rest.map g).sum ≤ (rest.map f).sum := List.sum_le_sum later
        simp only [List.map_cons, List.sum_cons] at same
        exact List.forall_mem_cons.mpr ⟨by omega, ih later (by omega)⟩
  · intro same
    rw [List.map_congr_left same]

theorem Tallied.idle_balanced {s : Consumer} (tallied : s.Tallied json processor) (idle : s.Idle) :
    s.Balanced ↔ ∀ task ∈ s.tasks, task.delivery.SucceedsOnceAnalyzed json processor := by
  obtain ⟨messages, published, accounted⟩ := tallied
  have ended : ∀ task ∈ s.tasks, 1 ≤ task.counted ∧ task.written ≤ task.published ∧
      (task.counted = 1 ∧ task.published = task.written ↔ task.delivery.SucceedsOnceAnalyzed json processor) := by
    intro task member
    simpa only [Task.Accounted, idle task member] using accounted task member
  have writes := sum_map_eq_iff Task.published Task.written fun task member => (ended task member).2.1
  constructor
  · intro balanced task member
    exact (ended task member).2.2.mp ⟨balanced.once task member,
      writes.mp (published.symm.trans balanced.published) task member⟩
  · intro all
    have exact_ := fun task member => (ended task member).2.2.mpr (all task member)
    refine ⟨?_, fun task member => (exact_ task member).1, ?_⟩
    · rw [messages, List.map_congr_left fun task member => (exact_ task member).1]
      simp
    · exact published.trans (writes.mpr fun task member => (exact_ task member).2)

theorem resume_delivery (t : Task) (c : Counters) : (t.resume json processor c).1.delivery = t.delivery := by
  have next (t : Task) (c : Counters) (rest : List Write) :
      (t.nextResult json processor c rest).1.delivery = t.delivery := by cases rest <;> rfl
  unfold Task.resume
  split
  · split <;> rfl
  · split
    · exact next _ _ _
    · rfl
  · simp only
    split
    · exact next _ _ _
    · rfl
  · split <;> rfl
  · rfl

theorem deliveries_step {s after : Consumer} {move : Move} (one : s.step json processor move = some after) :
    after.tasks.map Task.delivery = s.tasks.map Task.delivery ++ delivered [move] := by
  cases move with
  | callback delivery => cases one; simp [Task.ofDelivery, delivered]
  | resume i =>
      obtain ⟨task, semaphore, at_, rfl⟩ := step_resume one
      obtain ⟨bound, rfl⟩ := List.getElem?_eq_some_iff.mp at_
      have inside : i < (s.tasks.map Task.delivery).length := by rwa [List.length_map]
      have kept := List.set_getElem_self inside
      rw [List.getElem_map] at kept
      simp only [List.map_set, resume_delivery, kept, delivered, List.append_nil]

theorem delivered_cons (move : Move) (rest : List Move) :
    delivered (move :: rest) = delivered [move] ++ delivered rest := by
  cases move <;> rfl

theorem deliveries_exec {s final : Consumer} {moves : List Move}
    (run : exec (step json processor) moves s = some final) :
    final.tasks.map Task.delivery = s.tasks.map Task.delivery ++ delivered moves := by
  induction moves generalizing s with
  | nil => cases run; simp [delivered]
  | cons move rest ih =>
      obtain ⟨next, one, more⟩ := exec_cons.mp run
      rw [ih more, deliveries_step one, delivered_cons move rest, List.append_assoc]

/-- The counters balance whenever no task is unfinished just when nothing has
failed after the analysis of a message. -/
theorem balanced_iff {maxConcurrentTasks : Nat} {moves : List Move} {s : Consumer}
    (run : exec (step json processor) moves (started maxConcurrentTasks) = some s) (idle : s.Idle) :
    s.Balanced ↔ ∀ delivery ∈ delivered moves, delivery.SucceedsOnceAnalyzed json processor := by
  have tallied := exec_invariant (fun s => s.Tallied json processor) Tallied.step (Tallied.started _) run
  have handled : s.tasks.map Task.delivery = delivered moves := deliveries_exec run
  rw [tallied.idle_balanced idle, ← handled]
  simp only [List.forall_mem_map]

end Consumer

end

/-! A trade with one result, which Redis stores or refuses. -/

def tradeResult (execution : Execution) : Write where
  result := ⟨.num 1, some "leaderboard", some 60, some "leaderboard", none⟩
  serializable := true
  execution := execution

def trade (execution : Execution) : Delivery where
  body := .document (.dict [("event_type", .str "T"), ("symbol", .str "AAPL")])
  analyzeData := fun _ => .ok (some [tradeResult execution])
  acknowledge := none

def accepted : Execution := ⟨true, none, fun _ => rfl⟩

def refused : Execution := ⟨false, some .exception, nofun⟩

def handle (delivery : Delivery) : List Move := [.callback delivery, .resume 0, .resume 0, .resume 0, .resume 0]

namespace Consumer

def handled (execution : Execution) : Option Consumer :=
  exec (step Json.document .massiveDataProcessor) (handle (trade execution)) (started 500)

theorem balanced_accepted : ∃ s, handled accepted = some s ∧ s.Idle ∧ s.Balanced := by
  let s : Consumer := ⟨500, ⟨1, 0, 0, 1, 0⟩, [⟨trade accepted, .finished, 1, 1, 1⟩]⟩
  have run : handled accepted = some s := rfl
  have idle : s.Idle := fun task member => by rw [List.mem_singleton.mp member]
  refine ⟨s, run, idle, (balanced_iff run idle).mpr ?_⟩
  intro delivery member results given
  obtain rfl : delivery = trade accepted := List.mem_singleton.mp member
  obtain rfl : [tradeResult accepted] = results := Option.some.inj given
  refine ⟨fun write one => ?_, rfl⟩
  obtain rfl := List.mem_singleton.mp one
  exact ⟨⟨_, _, rfl⟩, rfl⟩

/-- The message is counted twice, and its result as published. -/
theorem balanced_refused : ∃ s, handled refused = some s ∧ s.Idle ∧ s.counters = ⟨1, 0, 0, 1, 1⟩ ∧
    s.tasks.length = 1 ∧ s.written = 0 ∧ ¬s.Balanced := by
  let s : Consumer := ⟨500, ⟨1, 0, 0, 1, 1⟩, [⟨trade refused, .finished, 2, 1, 0⟩]⟩
  have idle : s.Idle := fun task member => by rw [List.mem_singleton.mp member]
  refine ⟨s, rfl, idle, rfl, rfl, rfl, fun balanced => ?_⟩
  exact absurd balanced.published (by decide)

end Consumer

end KuhlHausMdp.DataProcessor.Accounting
