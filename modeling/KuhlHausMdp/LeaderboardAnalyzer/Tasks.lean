import KuhlHausMdp.Library.Transition
import KuhlHausMdp.LeaderboardAnalyzer.Store

/-! The tasks `MassiveDataProcessor._callback` makes of a list of events. Each
runs `analyze_data` up to its pipeline; between two awaits nothing else runs.
What it does after the pipeline only reads these keys. -/

set_option autoImplicit false

namespace KuhlHausMdp.LeaderboardAnalyzer

open Transition MarketDataCache

/-- An aggregate event has a symbol, and prices that are numbers or None. -/
structure Event where
  data : Dict String Value
  symbol : String
  named : data.get "symbol" = some (.str symbol)
  nonempty : symbol ≠ ""
  priced : ∀ key ∈ ["open", "close"], ∀ value, data.get key = some value → value = .none ∨ ∃ q, value = .num q

/-- The await at which a task stands, with what it has read so far. -/
inductive Task where
  | queued
  | boundary (currentDay : ℤ)
  | marketOpen
  | claiming (today : ℤ)
  | clearing
  | snapshot
  | avgVolume (snapshot : TickerSnapshot)
  | freeFloat (snapshot : TickerSnapshot) (avgVolume : Value)
  | openPrice (snapshot : TickerSnapshot) (avgVolume freeFloat : Value)
  | storingOpen (snapshot : TickerSnapshot) (avgVolume freeFloat openPrice : Value)
  | committing (commit : Commit)
  | done (commit : Commit)
  | failed

/-- What an await gives back: Redis's answer, the open price keys a scan found,
the cache's answers, or an exception. -/
inductive Reply where
  | redis
  | keys (symbols : List String)
  | snapshot (snapshot : TickerSnapshot)
  | value (value : Value)
  | raised

namespace Task

def running : Task → Bool
  | queued | done _ | failed => false
  | _ => true

/-- The local day, in the minute from 9:30. -/
def openWindow (zone : ZoneInfo) (now : ℤ) : Option ℤ :=
  let etNow := now + zone.utcoffset now
  if 34200 ≤ etNow % 86400 ∧ etNow % 86400 < 34260 then some (etNow / 86400) else none

def fallbackOpen (event : Event) : Value := readOr event.data "open" (readOr event.data "close" (.num 0))

def compute (event : Event) (snapshot : TickerSnapshot) (avgVolume freeFloat openPrice : Value) : Task :=
  match metrics event.symbol event.data snapshot avgVolume freeFloat openPrice with
  | some commit => committing commit
  | none => failed

def resume (zone : ZoneInfo) (now : ℤ) (store : Store) (event : Event) : Task → Reply → Option (Store × Task)
  | boundary currentDay, .redis => some (store.checkDayBoundary currentDay, marketOpen)
  | marketOpen, .redis =>
      match openWindow zone now with
      | some today => some (store, claiming today)
      | none => some (store, snapshot)
  | claiming today, .redis =>
      -- SET NX: the first task of the day clears, the others go on
      if store.openReset today then some (store, snapshot)
      else some ({ store with openReset := Function.update store.openReset today true }, clearing)
  | clearing, .keys symbols =>
      some ({ store with
              board := Function.update store.board .topGainers ∅
              openPrice := fun symbol => if symbol ∈ symbols then none else store.openPrice symbol }, snapshot)
  | snapshot, .snapshot answer => some (store, avgVolume answer)
  | avgVolume ticker, .value answer => some (store, freeFloat ticker answer)
  | freeFloat ticker average, .value answer => some (store, openPrice ticker average answer)
  | openPrice ticker average float, .redis =>
      match store.openPrice event.symbol with
      | none => some (store, storingOpen ticker average float (fallbackOpen event))
      | some (.num price) => some (store, compute event ticker average float (.num price))
      -- what str() wrote for None is no number
      | some _ => some (store, failed)
  | storingOpen ticker average float price, .redis =>
      some ({ store with openPrice := Function.update store.openPrice event.symbol (some price) },
        compute event ticker average float price)
  | committing commit, .redis => some (store.commit commit, done commit)
  | task, .raised => if task.running then some (store, failed) else none
  | _, _ => none

end Task

/-- Tasks take slots in the order of their events; `started` of them have. -/
structure Processor where
  now : ℤ
  store : Store
  started : Nat
  task : Nat → Task

inductive ProcessorStep where
  | advance (seconds : Nat)
  | start
  | resume (k : Nat) (reply : Reply)

namespace Processor

def fresh (now : ℤ) (store : Store) : Processor where
  now := now
  store := store
  started := 0
  task _ := .queued

/-- The semaphore lets `maxConcurrentTasks` tasks run; one that starts forms its
day key at once. -/
def step (zone : ZoneInfo) (maxConcurrentTasks : Nat) (events : List Event) (s : Processor) :
    ProcessorStep → Option Processor
  | .advance seconds => some { s with now := s.now + seconds }
  | .start =>
      if s.started < events.length ∧ ((List.range s.started).filter fun k => (s.task k).running).length <
          maxConcurrentTasks then
        some { s with
          started := s.started + 1
          task := Function.update s.task s.started (.boundary (currentDayTs zone s.now)) }
      else none
  | .resume k reply =>
      match events[k]? with
      | some event => ((s.task k).resume zone s.now s.store event reply).map fun after =>
          { s with store := after.1, task := Function.update s.task k after.2 }
      | none => none

end Processor

/-! What resuming a task can do. -/

def Computes (event : Event) (commit : Commit) : Prop :=
  ∃ snapshot avgVolume freeFloat openPrice,
    metrics event.symbol event.data snapshot avgVolume freeFloat openPrice = some commit

/-- Neither done nor about to commit something that is not the event's. -/
def Underway (event : Event) (next : Task) : Prop :=
  (∀ commit, next ≠ .done commit) ∧ ∀ commit, next = .committing commit → Computes event commit

def Task.early : Task → Bool
  | committing _ | done _ => false
  | _ => true

def Task.atPipeline : Task → Bool
  | committing _ => true
  | _ => false

def Task.committed : Task → Bool
  | done _ => true
  | _ => false

theorem Task.committed_iff {task : Task} : task.committed = true ↔ ∃ commit, task = .done commit := by
  cases task <;> simp [committed]

theorem underway_of_early {event : Event} {next : Task} (early : next.early = true) : Underway event next := by
  constructor
  · rintro commit rfl
    cases early
  · rintro commit rfl
    cases early

theorem underway_compute (event : Event) (snapshot : TickerSnapshot) (avgVolume freeFloat openPrice : Value) :
    Underway event (Task.compute event snapshot avgVolume freeFloat openPrice) := by
  unfold Task.compute
  cases computed : metrics event.symbol event.data snapshot avgVolume freeFloat openPrice with
  | none => exact underway_of_early rfl
  | some commit =>
      refine ⟨fun _ same => (nomatch same), fun other same => ?_⟩
      cases same
      exact ⟨snapshot, avgVolume, freeFloat, openPrice, computed⟩

theorem resume_cases {zone : ZoneInfo} {now : ℤ} {store after : Store} {event : Event} {task next : Task}
    {reply : Reply} (one : task.resume zone now store event reply = some (after, next)) :
    (∃ commit, task = .committing commit ∧ reply = .redis ∧ next = .done commit ∧ after = store.commit commit) ∨
      task.running = true ∧ Underway event next := by
  unfold Task.resume at one
  split at one
  case h_8 =>
    split at one <;> cases one
    · exact .inr ⟨rfl, underway_of_early rfl⟩
    · exact .inr ⟨rfl, underway_compute ..⟩
    · exact .inr ⟨rfl, underway_of_early rfl⟩
  case h_9 => cases one; exact .inr ⟨rfl, underway_compute ..⟩
  case h_10 commit => cases one; exact .inl ⟨commit, rfl, rfl, rfl, rfl⟩
  case h_11 =>
    split at one
    case isTrue running => cases one; exact .inr ⟨running, underway_of_early rfl⟩
    case isFalse => cases one
  case h_12 => cases one
  -- the other awaits lead on to an early one
  all_goals (try split at one) <;> cases one <;> exact .inr ⟨rfl, underway_of_early rfl⟩

/-! The last event's task against the others. -/

namespace Processor

variable {zone : ZoneInfo} {maxConcurrentTasks : Nat} {before : List Event} {last : Event} {s t : Processor}
  {action : ProcessorStep}

/-- A step sets one task at most, and only resuming it touches the store. -/
theorem step_cases {events : List Event} (one : s.step zone maxConcurrentTasks events action = some t) :
    (t.task = s.task ∧ t.store = s.store) ∨
      ∃ k event next, events[k]? = some event ∧ t.task = Function.update s.task k next ∧
        (t.store = s.store ∧ next.early = true ∨
          ∃ reply, action = .resume k reply ∧
            (s.task k).resume zone s.now s.store event reply = some (t.store, next)) := by
  cases action with
  | advance seconds => cases one; exact .inl ⟨rfl, rfl⟩
  | start =>
      simp only [step] at one
      split at one
      case isTrue free =>
        cases one
        exact .inr ⟨s.started, _, _, List.getElem?_eq_getElem free.1, rfl, .inl ⟨rfl, rfl⟩⟩
      case isFalse => cases one
  | resume k reply =>
      simp only [step] at one
      split at one
      case h_1 event here =>
        obtain ⟨after, moved, rfl⟩ := Option.map_eq_some_iff.mp one
        exact .inr ⟨k, event, after.2, here, rfl, .inr ⟨reply, rfl, moved⟩⟩
      case h_2 => cases one

/-- An earlier event's pipeline runs while the last event's has not. -/
def EarlierFirst (before : List Event) (s : Processor) : ProcessorStep → Prop
  | .resume k .redis =>
      k < before.length → (s.task k).atPipeline = true → (s.task before.length).committed = false
  | _ => True

instance (before : List Event) (s : Processor) : ∀ action, Decidable (EarlierFirst before s action)
  | .resume k .redis => inferInstanceAs (Decidable
      (k < before.length → (s.task k).atPipeline = true → (s.task before.length).committed = false))
  | .resume _ (.keys _) | .resume _ (.snapshot _) | .resume _ (.value _) | .resume _ .raised | .advance _ | .start =>
      inferInstanceAs (Decidable True)

/-- What the last event's task is about to commit is the event's, and is shown
once it and the earlier ones are committed. -/
structure Settled (before : List Event) (last : Event) (s : Processor) : Prop where
  computed : ∀ commit, s.task before.length = .committing commit → Computes last commit
  shown : ∀ commit, s.task before.length = .done commit → Computes last commit ∧
    ((∀ k < before.length, (s.task k).committed = true) → s.store.Shows commit)

theorem settled_fresh (now : ℤ) (store : Store) : (fresh now store).Settled before last where
  computed _ same := nomatch same
  shown _ same := nomatch same

theorem task_cases {k : Nat} {event : Event} (here : (before ++ [last])[k]? = some event) :
    k < before.length ∨ k = before.length ∧ event = last := by
  rcases Nat.lt_trichotomy k before.length with earlier | rfl | beyond
  · exact .inl earlier
  · rw [List.getElem?_concat_length] at here
    exact .inr ⟨rfl, (Option.some.inj here).symm⟩
  · obtain ⟨inside, -⟩ := List.getElem?_eq_some_iff.mp here
    rw [List.length_append, List.length_singleton] at inside
    omega

/-- A task that moves on without its pipeline. -/
theorem Settled.underway (settled : s.Settled before last) {k : Nat} {event : Event} {next : Task}
    (here : (before ++ [last])[k]? = some event) (moved : t.task = Function.update s.task k next)
    (underway : Underway event next) : t.Settled before last := by
  rcases task_cases here with earlier | ⟨rfl, rfl⟩
  · have still : t.task before.length = s.task before.length := by
      rw [moved, Function.update_of_ne earlier.ne']
    constructor
    · intro commit same
      exact settled.computed commit (still.symm.trans same)
    · intro commit same
      refine ⟨(settled.shown commit (still.symm.trans same)).1, fun committed => ?_⟩
      -- the task that moved has not committed yet
      have done := committed k earlier
      rw [moved, Function.update_self, Task.committed_iff] at done
      obtain ⟨other, same⟩ := done
      exact absurd same (underway.1 other)
  · have now : t.task before.length = next := by
      rw [moved, Function.update_self]
    constructor
    · intro commit same
      exact underway.2 commit (now.symm.trans same)
    · intro commit same
      exact absurd (now.symm.trans same) (underway.1 commit)

theorem Settled.commit (settled : s.Settled before last) {k : Nat} {event : Event} {commit : Commit}
    (here : (before ++ [last])[k]? = some event) (moved : t.task = Function.update s.task k (.done commit))
    (ready : s.task k = .committing commit) (written : t.store = s.store.commit commit)
    (ordered : k < before.length → (s.task before.length).committed = false) : t.Settled before last := by
  rcases task_cases here with earlier | ⟨rfl, rfl⟩
  · have still : t.task before.length = s.task before.length := by
      rw [moved, Function.update_of_ne earlier.ne']
    constructor
    · intro other same
      exact settled.computed other (still.symm.trans same)
    · intro other same
      have pending := ordered earlier
      rw [still.symm.trans same] at pending
      cases pending
  · have now : t.task before.length = .done commit := by
      rw [moved, Function.update_self]
    constructor
    · intro other same
      cases now.symm.trans same
    · intro other same
      cases now.symm.trans same
      exact ⟨settled.computed commit ready, fun _ => written ▸ s.store.shows_commit commit⟩

theorem Settled.step (settled : s.Settled before last) (ordered : s.EarlierFirst before action)
    (one : s.step zone maxConcurrentTasks (before ++ [last]) action = some t) : t.Settled before last := by
  rcases step_cases one with ⟨task, store⟩ | ⟨k, event, next, here, moved, ⟨-, early⟩ | ⟨reply, same, resumed⟩⟩
  · constructor
    · rw [task]
      exact settled.computed
    · rw [task, store]
      exact settled.shown
  · exact settled.underway here moved (underway_of_early early)
  · rcases resume_cases resumed with ⟨commit, ready, rfl, rfl, written⟩ | ⟨-, underway⟩
    · apply settled.commit here moved ready written
      intro earlier
      subst same
      exact ordered earlier (congrArg Task.atPipeline ready)
    · exact settled.underway here moved underway

/-! What a task commits, traced back to what it was given. -/

def ProcessorStep.answer (k : Nat) : ProcessorStep → Option Reply
  | .resume j (.snapshot answer) => if j = k then some (.snapshot answer) else none
  | .resume j (.value answer) => if j = k then some (.value answer) else none
  | _ => none

def answers (k : Nat) (actions : List ProcessorStep) : List Reply := actions.filterMap (ProcessorStep.answer k)

theorem answers_append (k : Nat) (first second : List ProcessorStep) :
    answers k (first ++ second) = answers k first ++ answers k second := List.filterMap_append

/-- The price that the task went on with when it read the symbol's open price. -/
def ReadOpen (zone : ZoneInfo) (maxConcurrentTasks : Nat) (events : List Event) (k : Nat) (event : Event)
    (start : Processor) (actions : List ProcessorStep) (price : Value) : Prop :=
  ∃ earlier s snapshot avgVolume freeFloat, earlier ++ [.resume k .redis] <+: actions ∧
    exec (step zone maxConcurrentTasks events) earlier start = some s ∧
    s.task k = .openPrice snapshot avgVolume freeFloat ∧
    price = (s.store.openPrice event.symbol).getD (Task.fallbackOpen event)

/-- What stands in a task is what it was answered and read. -/
def TracedTask (event : Event) (answered : List Reply) (read : Value → Prop) : Task → Prop
  | .avgVolume snapshot => answered = [.snapshot snapshot]
  | .freeFloat snapshot avgVolume => answered = [.snapshot snapshot, .value avgVolume]
  | .openPrice snapshot avgVolume freeFloat => answered = [.snapshot snapshot, .value avgVolume, .value freeFloat]
  | .storingOpen snapshot avgVolume freeFloat openPrice =>
      answered = [.snapshot snapshot, .value avgVolume, .value freeFloat] ∧ read openPrice
  | .committing commit | .done commit => ∃ snapshot avgVolume freeFloat openPrice,
      answered = [.snapshot snapshot, .value avgVolume, .value freeFloat] ∧ read openPrice ∧
        metrics event.symbol event.data snapshot avgVolume freeFloat openPrice = some commit
  | .failed => True
  | _ => answered = []

theorem tracedTask_compute {event : Event} {read : Value → Prop} {snapshot : TickerSnapshot}
    {avgVolume freeFloat openPrice : Value} {answered : List Reply}
    (given : answered = [.snapshot snapshot, .value avgVolume, .value freeFloat]) (price : read openPrice) :
    TracedTask event answered read (Task.compute event snapshot avgVolume freeFloat openPrice) := by
  unfold Task.compute
  split
  · rename_i commit computed
    exact ⟨snapshot, avgVolume, freeFloat, openPrice, given, price, computed⟩
  · trivial

theorem TracedTask.mono {event : Event} {answered : List Reply} {read later : Value → Prop} {task : Task}
    (traced : TracedTask event answered read task) (more : ∀ price, read price → later price) :
    TracedTask event answered later task := by
  cases task with
  | storingOpen => exact ⟨traced.1, more _ traced.2⟩
  | committing | done =>
      obtain ⟨snapshot, avgVolume, freeFloat, openPrice, given, price, computed⟩ := traced
      exact ⟨snapshot, avgVolume, freeFloat, openPrice, given, more _ price, computed⟩
  | _ => exact traced

theorem TracedTask.resume {zone : ZoneInfo} {now : ℤ} {store after : Store} {event : Event} {task next : Task}
    {reply : Reply} {k : Nat} {answered : List Reply} {read later : Value → Prop}
    (traced : TracedTask event answered read task) (more : ∀ price, read price → later price)
    (reads : ∀ snapshot avgVolume freeFloat, task = .openPrice snapshot avgVolume freeFloat → reply = .redis →
      later ((store.openPrice event.symbol).getD (Task.fallbackOpen event)))
    (one : task.resume zone now store event reply = some (after, next)) :
    TracedTask event (answered ++ answers k [.resume k reply]) later next := by
  unfold Task.resume at one
  split at one
  case h_8 snapshot avgVolume freeFloat =>
    have price := reads snapshot avgVolume freeFloat rfl rfl
    have given : answered ++ answers k [.resume k .redis] =
        [.snapshot snapshot, .value avgVolume, .value freeFloat] := (List.append_nil _).trans traced
    split at one
    · rename_i absent
      cases one
      rw [absent] at price
      exact ⟨given, price⟩
    · rename_i stored
      cases one
      rw [stored] at price
      exact tracedTask_compute given price
    · cases one
      trivial
  case h_9 =>
    cases one
    exact tracedTask_compute ((List.append_nil _).trans traced.1) (more _ traced.2)
  case h_10 =>
    cases one
    have same : answered ++ answers k [.resume k .redis] = answered := List.append_nil _
    rw [same]
    exact traced.mono more
  case h_11 =>
    split at one
    · cases one
      trivial
    · cases one
  case h_12 => cases one
  -- the awaits up to the caches' last answer
  all_goals (try split at one) <;> cases one <;> simp_all [TracedTask, answers, ProcessorStep.answer]

/-- A task's trace in a run, and that those not started are as they were made. -/
structure Traced (zone : ZoneInfo) (maxConcurrentTasks : Nat) (events : List Event) (k : Nat) (event : Event)
    (start : Processor) (past : List ProcessorStep) (s : Processor) : Prop where
  run : exec (step zone maxConcurrentTasks events) past start = some s
  waiting : ∀ j, s.started ≤ j → s.task j = .queued
  task : TracedTask event (answers k past) (ReadOpen zone maxConcurrentTasks events k event start past) (s.task k)

theorem Traced.step {events : List Event} {k : Nat} {event : Event} {start : Processor} {past : List ProcessorStep}
    (here : events[k]? = some event) (traced : Traced zone maxConcurrentTasks events k event start past s)
    (one : s.step zone maxConcurrentTasks events action = some t) :
    Traced zone maxConcurrentTasks events k event start (past ++ [action]) t := by
  obtain ⟨run, waiting, task⟩ := traced
  have reached : exec (Processor.step zone maxConcurrentTasks events) (past ++ [action]) start = some t :=
    exec_append.mpr ⟨s, run, exec_cons.mpr ⟨t, one, rfl⟩⟩
  have more : ∀ price, ReadOpen zone maxConcurrentTasks events k event start past price →
      ReadOpen zone maxConcurrentTasks events k event start (past ++ [action]) price := by
    rintro price ⟨earlier, middle, snapshot, avgVolume, freeFloat, inside, facts⟩
    exact ⟨earlier, middle, snapshot, avgVolume, freeFloat, inside.trans (List.prefix_append _ _), facts⟩
  -- a step that leaves the task as it is and answers it nothing
  have still (quiet : answers k [action] = []) (same : t.task k = s.task k) :
      TracedTask event (answers k (past ++ [action]))
        (ReadOpen zone maxConcurrentTasks events k event start (past ++ [action])) (t.task k) := by
    rw [answers_append, quiet, List.append_nil, same]
    exact task.mono more
  cases action with
  | advance seconds =>
      cases one
      exact ⟨reached, waiting, still rfl rfl⟩
  | start =>
      simp only [Processor.step] at one
      split at one
      · cases one
        refine ⟨reached, fun j beyond => ?_, ?_⟩
        · change s.started + 1 ≤ j at beyond
          have apart : j ≠ s.started := by omega
          exact (Function.update_of_ne apart _ _).trans (waiting j (by omega))
        · by_cases same : k = s.started
          · subst same
            rw [waiting _ (Nat.le_refl _)] at task
            have begun : (Function.update s.task s.started (.boundary (currentDayTs zone s.now))) s.started =
                .boundary (currentDayTs zone s.now) := Function.update_self _ _ _
            simp only [begun, answers_append, show answers s.started past = [] from task]
            rfl
          · exact still rfl (Function.update_of_ne same _ _)
      · cases one
  | resume j reply =>
      simp only [Processor.step] at one
      split at one
      · rename_i moved found
        obtain ⟨after, resumed, rfl⟩ := Option.map_eq_some_iff.mp one
        have queued : s.task j ≠ .queued := by
          intro fresh
          rw [fresh] at resumed
          cases reply <;> cases resumed
        refine ⟨reached, fun other beyond => ?_, ?_⟩
        · have apart : other ≠ j := by
            rintro rfl
            exact queued (waiting _ beyond)
          exact (Function.update_of_ne apart _ _).trans (waiting other beyond)
        · by_cases same : j = k
          · subst same
            cases found.symm.trans here
            simp only [Function.update_self, answers_append]
            refine task.resume more ?_ resumed
            rintro snapshot avgVolume freeFloat reading rfl
            exact ⟨past, s, snapshot, avgVolume, freeFloat, List.prefix_refl _, run, reading, rfl⟩
          · refine still ?_ (Function.update_of_ne (Ne.symm same) _ _)
            cases reply <;> simp [answers, ProcessorStep.answer, same]
      · cases one

theorem traced_of_run {events : List Event} {k : Nat} {event : Event} {now : ℤ} {store : Store}
    {actions : List ProcessorStep} (here : events[k]? = some event)
    (run : exec (step zone maxConcurrentTasks events) actions (fresh now store) = some s) :
    Traced zone maxConcurrentTasks events k event (fresh now store) actions s := by
  refine exec_record (Traced zone maxConcurrentTasks events k event (fresh now store)) ?_ ⟨rfl, fun _ _ => rfl, rfl⟩ run
  intro past state action next traced one
  exact traced.step here one

/-- The commit that the task computed of its event: from the caches' answers to
it, in the order in which it asks, and the open price it read. -/
def ComputedBy (zone : ZoneInfo) (maxConcurrentTasks : Nat) (events : List Event) (k : Nat) (event : Event)
    (start : Processor) (actions : List ProcessorStep) (commit : Commit) : Prop :=
  ∃ snapshot avgVolume freeFloat openPrice,
    answers k actions = [.snapshot snapshot, .value avgVolume, .value freeFloat] ∧
    ReadOpen zone maxConcurrentTasks events k event start actions openPrice ∧
    metrics event.symbol event.data snapshot avgVolume freeFloat openPrice = some commit

/-- While no earlier event's pipeline runs after the last event's, the tasks,
once all have committed, leave the scores and the hash that the last event's
task computed. -/
theorem last_event_shown (zone : ZoneInfo) (maxConcurrentTasks : Nat) (before : List Event) (last : Event)
    (now : ℤ) (store : Store) (actions : List ProcessorStep) (final : Processor)
    (ordered : Along (step zone maxConcurrentTasks (before ++ [last])) (EarlierFirst before) actions (fresh now store))
    (run : exec (step zone maxConcurrentTasks (before ++ [last])) actions (fresh now store) = some final)
    (finished : ∀ k < (before ++ [last]).length, (final.task k).committed = true) :
    ∃ commit, final.task before.length = .done commit ∧
      ComputedBy zone maxConcurrentTasks (before ++ [last]) before.length last (fresh now store) actions commit ∧
      commit.symbol = last.symbol ∧ final.store.Shows commit := by
  have settled : final.Settled before last := by
    apply along_invariant (Settled before last) _ (settled_fresh now store) ordered run
    intro state action next settled ordered one
    exact settled.step ordered one
  have traced := traced_of_run (List.getElem?_concat_length ..) run
  -- all tasks are done at the end, the last event's among them
  rw [List.length_append, List.length_singleton] at finished
  obtain ⟨commit, done⟩ := Task.committed_iff.mp (finished before.length (Nat.lt_succ_self _))
  obtain ⟨-, shown⟩ := settled.shown commit done
  have computed := traced.task
  rw [done] at computed
  refine ⟨commit, done, computed, ?_, shown fun k earlier => finished k (Nat.lt_succ_of_lt earlier)⟩
  obtain ⟨snapshot, avgVolume, freeFloat, openPrice, -, -, metrics⟩ := computed
  exact (metrics_eq_some metrics).1

/-! Two events for one symbol. -/

def aggregate (accumulatedVolume timestamp : ℚ) : Event where
  data :=
    { entries := [("symbol", .str "AAPL"), ("accumulated_volume", .num accumulatedVolume), ("open", .num 10),
        ("close", .num 12), ("end_timestamp", .num timestamp)]
      unique := show ["symbol", "accumulated_volume", "open", "close", "end_timestamp"].Nodup by decide }
  symbol := "AAPL"
  named := rfl
  nonempty := by decide
  priced := by
    intro key member value read
    rcases List.mem_pair.mp member with rfl | rfl <;> exact .inr ⟨_, (Option.some.inj read).symm⟩

def bareSnapshot : TickerSnapshot where
  ticker := .str "AAPL"
  todaysChange := .none
  todaysChangePercent := .none
  updated := .none
  day := none
  lastQuote := none
  lastTrade := none
  min := none
  prevDay := none
  fairMarketValue := .none

def upToOpenPrice (k : Nat) : List ProcessorStep :=
  [.resume k .redis, .resume k .redis, .resume k (.snapshot bareSnapshot), .resume k (.value (.num 0)),
   .resume k (.value (.num 0)), .resume k .redis]

/-- The task that finds no open price stores one before its pipeline. -/
def oneByOne (first second : Nat) : List ProcessorStep :=
  [.start, .start] ++ upToOpenPrice first ++ [.resume first .redis, .resume first .redis] ++ upToOpenPrice second ++
    [.resume second .redis]

theorem last_event_shown_in_order :
    ∃ final, exec (step newYork 500 [aggregate 100 1, aggregate 200 2]) (oneByOne 0 1)
        (fresh 1700000000 Store.fresh) = some final ∧
      ∃ commit, final.task 1 = .done commit ∧
        ComputedBy newYork 500 [aggregate 100 1, aggregate 200 2] 1 (aggregate 200 2) (fresh 1700000000 Store.fresh)
          (oneByOne 0 1) commit ∧
        commit.symbol = "AAPL" ∧ final.store.Shows commit := by
  have ends : (exec (step newYork 500 [aggregate 100 1, aggregate 200 2]) (oneByOne 0 1)
      (fresh 1700000000 Store.fresh)).any (fun s => (List.range 2).all fun k => (s.task k).committed) = true := by
    decide +kernel
  obtain ⟨final, run, finished⟩ := (Option.any_eq_true _ _).mp ends
  refine ⟨final, run, last_event_shown newYork 500 [aggregate 100 1] (aggregate 200 2) 1700000000 Store.fresh
    (oneByOne 0 1) final (by decide +kernel) run ?_⟩
  intro k small
  exact List.all_eq_true.mp finished k (List.mem_range.mpr small)

/-- The older event's task runs its pipeline last, and its values stay. -/
theorem slow_task_overwrites :
    ∃ actions final, exec (step newYork 500 [aggregate 100 1, aggregate 200 2]) actions
        (fresh 1700000000 Store.fresh) = some final ∧
      (∀ k < 2, (final.task k).committed = true) ∧
        ¬ ∃ commit, Computes (aggregate 200 2) commit ∧ commit.symbol = "AAPL" ∧ final.store.Shows commit := by
  have ends : (exec (step newYork 500 [aggregate 100 1, aggregate 200 2]) (oneByOne 1 0)
      (fresh 1700000000 Store.fresh)).any (fun s => ((List.range 2).all fun k => (s.task k).committed) &&
        decide ((s.store.board .topVolume).entries = [toLex (100, "AAPL")])) = true := by
    decide +kernel
  obtain ⟨final, run, facts⟩ := (Option.any_eq_true _ _).mp ends
  obtain ⟨finished, old⟩ := Bool.and_eq_true_iff.mp facts
  refine ⟨oneByOne 1 0, final, run, fun k small => List.all_eq_true.mp finished k (List.mem_range.mpr small), ?_⟩
  rintro ⟨commit, ⟨_, _, _, _, computed⟩, named, -, boards⟩
  have newest : commit.accumulatedVolume = 200 := (Option.some.inj (metrics_eq_some computed).2).symm
  have shown := (boards .topVolume).1 100
  rw [named, Commit.score, newest, SortedSet.mem_toFinset, of_decide_eq_true old] at shown
  exact absurd (shown (List.mem_singleton_self _)) (by decide)

end Processor

end KuhlHausMdp.LeaderboardAnalyzer
