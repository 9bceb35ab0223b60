import Mathlib
import KuhlHausMdp.Library.Replacing
import KuhlHausMdp.Library.Transition

/-! Queues of a broker and the consumers that take messages from them. A consumer
turns a message into commands for a server, and the server executes the commands
of all consumers one at a time. -/

set_option autoImplicit false

/-- A message with a consumer. The broker waits for the acknowledgement of what
is `held`; `done` is what the server has executed of the commands for it. -/
structure WorkQueue.Task (M C : Type*) where
  message : M
  held : Bool
  /-- None before the analysis, and after it the commands to come. -/
  pending : Option (List C)
  done : List C
  finished : Bool

/-- `sent` is all that the broker has taken, `queue` what it has ready, both
oldest first, and `executed` what the server has executed. -/
structure WorkQueue (M C : Type*) where
  sent : List M
  queue : List M
  tasks : List (WorkQueue.Task M C)
  executed : List C

namespace WorkQueue

open Transition

/-- `resume` takes a task to its next command or to its end; the input is what its
analysis reads from outside. A task `fail`s by an exception or with its process;
the broker may `requeue` what it holds for a consumer that it has lost, and what
is ready may expire. The ready messages of a lane are delivered in order. -/
inductive Action (M L E : Type*) where
  | send (messages : List M)
  | deliver (lane : L)
  | expire (lane : L)
  | resume (task : Nat) (input : E)
  | fail (task : Nat)
  | requeue (task : Nat)

namespace Action

variable {M L E : Type*}

def redelivers : Action M L E → Bool
  | .requeue _ => true
  | _ => false

def loses : Action M L E → Bool
  | .expire _ => true
  | .fail _ => true
  | _ => false

end Action

variable {M C L E : Type*}

def received (message : M) : Task M C := ⟨message, true, none, [], false⟩

/-- A task one command further, with the command. -/
def Task.resume (plan : E → M → List C) (input : E) (t : Task M C) : Option (Task M C × List C) :=
  if t.finished then none
  else match t.pending with
    | none => some ({ t with pending := some (plan input t.message) }, [])
    | some (command :: rest) => some ({ t with pending := some rest, done := t.done ++ [command] }, [command])
    | some [] => some ({ t with finished := true, held := false }, [])

def empty : WorkQueue M C := ⟨[], [], [], []⟩

def send (s : WorkQueue M C) (messages : List M) : WorkQueue M C :=
  { s with sent := s.sent ++ messages, queue := s.queue ++ messages }

section

variable [DecidableEq L] (lane : M → L) (plan : E → M → List C)

def takeFrom (l : L) : List M → Option (M × List M)
  | [] => none
  | message :: rest =>
      if lane message = l then some (message, rest)
      else (takeFrom l rest).map fun taken => (taken.1, message :: taken.2)

def step (s : WorkQueue M C) : Action M L E → Option (WorkQueue M C)
  | .send messages => some (s.send messages)
  | .deliver l => (takeFrom lane l s.queue).map fun taken => { s with
      queue := taken.2
      tasks := s.tasks ++ [received taken.1] }
  | .expire l => (takeFrom lane l s.queue).map fun taken => { s with queue := taken.2 }
  | .resume i input =>
      match s.tasks[i]? with
      | some task => (task.resume plan input).map fun moved => { s with
          tasks := s.tasks.set i moved.1
          executed := s.executed ++ moved.2 }
      | none => none
  | .fail i =>
      match s.tasks[i]? with
      | some task =>
          if task.finished then none
          else some { s with tasks := s.tasks.set i { task with finished := true, held := false } }
      | none => none
  | .requeue i =>
      match s.tasks[i]? with
      | some task =>
          if task.held then some { s with
            tasks := s.tasks.set i { task with held := false }
            queue := task.message :: s.queue }
          else none
      | none => none

end

def Idle (s : WorkQueue M C) : Prop := s.queue = [] ∧ ∀ task ∈ s.tasks, task.finished = true

instance (s : WorkQueue M C) : Decidable s.Idle :=
  inferInstanceAs (Decidable (s.queue = [] ∧ ∀ task ∈ s.tasks, task.finished = true))

/-! One step. -/

section

variable [DecidableEq L] {lane : M → L} {plan : E → M → List C}

/-- The oldest message of the lane stands behind messages of other lanes only. -/
structure TakenFrom (lane : M → L) (l : L) (queue : List M) (message : M) (rest : List M) : Prop where
  here : lane message = l
  among : ∃ front back, queue = front ++ message :: back ∧ rest = front ++ back ∧ ∀ other ∈ front, lane other ≠ l

theorem takenFrom_of_takeFrom {l : L} {queue : List M} {taken : M × List M}
    (found : takeFrom lane l queue = some taken) : TakenFrom lane l queue taken.1 taken.2 := by
  induction queue generalizing taken with
  | nil => cases found
  | cons message rest ih =>
      rw [takeFrom] at found
      split at found
      · rename_i here
        cases found
        exact ⟨here, [], rest, rfl, rfl, fun other none => absurd none List.not_mem_nil⟩
      · rename_i other
        obtain ⟨later, behind, rfl⟩ := Option.map_eq_some_iff.mp found
        obtain ⟨here, front, back, whole, others, apart⟩ := ih behind
        refine ⟨here, message :: front, back, congrArg _ whole, congrArg _ others, ?_⟩
        exact List.forall_mem_cons.mpr ⟨other, apart⟩

/-- A task has done a part of what its message calls for, the rest is pending. -/
def Task.Follows (plan : E → M → List C) (t : Task M C) : Prop :=
  match t.pending with
  | none => t.done = []
  | some rest => ∃ input, t.done ++ rest = plan input t.message

structure Task.Moves (plan : E → M → List C) (t next : Task M C) (commands : List C) : Prop where
  message : next.message = t.message
  done : next.done = t.done ++ commands
  follows : t.Follows plan → next.Follows plan

theorem Task.moves_resume {input : E} {t next : Task M C} {commands : List C}
    (moved : t.resume plan input = some (next, commands)) :
    t.finished = false ∧ t.Moves plan next commands ∧ (next.finished = true → next.pending = some []) := by
  unfold Task.resume at moved
  split at moved
  · cases moved
  · rename_i going
    refine ⟨Bool.eq_false_of_not_eq_true going, ?_⟩
    split at moved
    · rename_i pending
      cases moved
      refine ⟨⟨rfl, (List.append_nil _).symm, fun follows => ?_⟩, fun finished => absurd finished going⟩
      have none : t.done = [] := by simpa only [Task.Follows, pending] using follows
      exact ⟨input, by rw [none, List.nil_append]⟩
    · rename_i command rest pending
      cases moved
      refine ⟨⟨rfl, rfl, fun follows => ?_⟩, fun finished => absurd finished going⟩
      obtain ⟨earlier, whole⟩ : ∃ input, t.done ++ command :: rest = plan input t.message := by
        simpa only [Task.Follows, pending] using follows
      refine ⟨earlier, ?_⟩
      rw [List.append_assoc]
      exact whole
    · rename_i pending
      cases moved
      refine ⟨⟨rfl, (List.append_nil _).symm, fun follows => ?_⟩, fun _ => pending⟩
      simpa only [Task.Follows, pending] using follows

theorem Task.moves_failed (t : Task M C) : t.Moves plan { t with finished := true, held := false } [] :=
  ⟨rfl, (List.append_nil _).symm, id⟩

theorem Task.moves_requeued (t : Task M C) : t.Moves plan { t with held := false } [] :=
  ⟨rfl, (List.append_nil _).symm, id⟩

variable {s : WorkQueue M C}

inductive Stepped (lane : M → L) (plan : E → M → List C) (s : WorkQueue M C) : Action M L E → WorkQueue M C → Prop where
  | sent (messages : List M) : Stepped lane plan s (.send messages) (s.send messages)
  | delivered (l : L) (message : M) (rest : List M) (ready : TakenFrom lane l s.queue message rest) :
      Stepped lane plan s (.deliver l) { s with queue := rest, tasks := s.tasks ++ [received message] }
  | expired (l : L) (message : M) (rest : List M) (ready : TakenFrom lane l s.queue message rest) :
      Stepped lane plan s (.expire l) { s with queue := rest }
  | resumed (i : Nat) (input : E) (task next : Task M C) (commands : List C) (at_ : s.tasks[i]? = some task)
      (moved : task.resume plan input = some (next, commands)) :
      Stepped lane plan s (.resume i input) { s with tasks := s.tasks.set i next, executed := s.executed ++ commands }
  | failed (i : Nat) (task : Task M C) (at_ : s.tasks[i]? = some task) :
      Stepped lane plan s (.fail i) { s with tasks := s.tasks.set i { task with finished := true, held := false } }
  | requeued (i : Nat) (task : Task M C) (at_ : s.tasks[i]? = some task) :
      Stepped lane plan s (.requeue i) { s with
        tasks := s.tasks.set i { task with held := false }
        queue := task.message :: s.queue }

theorem stepped_of_step {action : Action M L E} {next : WorkQueue M C} (one : step lane plan s action = some next) :
    Stepped lane plan s action next := by
  cases action with
  | send messages =>
      cases one
      exact .sent messages
  | deliver l =>
      obtain ⟨taken, found, rfl⟩ := Option.map_eq_some_iff.mp one
      exact .delivered l _ _ (takenFrom_of_takeFrom found)
  | expire l =>
      obtain ⟨taken, found, rfl⟩ := Option.map_eq_some_iff.mp one
      exact .expired l _ _ (takenFrom_of_takeFrom found)
  | resume i input =>
      simp only [step] at one
      split at one
      · obtain ⟨moved, resumed, rfl⟩ := Option.map_eq_some_iff.mp one
        exact .resumed i input _ moved.1 moved.2 ‹_› resumed
      · cases one
  | fail i =>
      simp only [step] at one
      split at one
      · split at one
        · cases one
        · cases one
          exact .failed i _ ‹_›
      · cases one
  | requeue i =>
      simp only [step] at one
      split at one
      · split at one
        · cases one
          exact .requeued i _ ‹_›
        · cases one
      · cases one

/-! A run. -/

theorem Task.Moves.among {tasks : List (Task M C)} {i : Nat} {task next : Task M C} {commands : List C}
    (moves : task.Moves plan next commands) (at_ : tasks[i]? = some task) (follows : ∀ t ∈ tasks, t.Follows plan) :
    (∀ t ∈ tasks.set i next, t.Follows plan) ∧
      ((tasks.set i next).flatMap Task.done).Perm (tasks.flatMap Task.done ++ commands) ∧
        (tasks.set i next).map Task.message = tasks.map Task.message := by
  refine ⟨fun t member => ?_, Replacing.flatMap_set_perm Task.done at_ moves.done,
    Replacing.map_set_of_same _ at_ moves.message⟩
  rcases List.mem_or_eq_of_mem_set member with other | rfl
  · exact follows t other
  · exact moves.follows (follows task (List.mem_of_getElem? at_))

/-- What the server has executed and what is under way comes from what was sent. -/
structure Consistent (plan : E → M → List C) (s : WorkQueue M C) : Prop where
  follows : ∀ task ∈ s.tasks, task.Follows plan
  executed : s.executed.Perm (s.tasks.flatMap Task.done)
  known : ∀ message ∈ s.tasks.map Task.message ++ s.queue, message ∈ s.sent

theorem Consistent.step {action : Action M L E} {next : WorkQueue M C} (consistent : Consistent plan s)
    (one : step lane plan s action = some next) : Consistent plan next := by
  obtain ⟨follows, executed, known⟩ := consistent
  cases stepped_of_step one with
  | sent messages =>
      refine ⟨follows, executed, fun message member => ?_⟩
      change message ∈ s.tasks.map Task.message ++ (s.queue ++ messages) at member
      rw [← List.append_assoc] at member
      rcases List.mem_append.mp member with older | new
      · exact List.mem_append_left _ (known message older)
      · exact List.mem_append_right _ new
  | delivered l message rest ready =>
      obtain ⟨-, front, back, whole, rfl, -⟩ := ready
      refine ⟨fun task member => ?_, ?_, fun other member => known other ?_⟩
      · rcases List.mem_append.mp member with older | new
        · exact follows task older
        · rw [List.mem_singleton.mp new]
          exact (rfl : (received message).done = [])
      · simpa [received] using executed
      · rw [whole]
        simp only [received, List.map_append, List.map_cons, List.map_nil, List.mem_append, List.mem_cons,
          List.not_mem_nil, or_false] at member ⊢
        grind
  | expired l message rest ready =>
      obtain ⟨-, front, back, whole, rfl, -⟩ := ready
      refine ⟨follows, executed, fun other member => known other ?_⟩
      rw [whole]
      exact (((List.sublist_cons_self message back).append_left front).append_left _).subset member
  | resumed i input task next commands at_ moved =>
      obtain ⟨each, done, messages⟩ := (Task.moves_resume moved).2.1.among at_ follows
      refine ⟨each, (executed.append_right commands).trans done.symm, ?_⟩
      rw [messages]
      exact known
  | failed i task at_ =>
      obtain ⟨each, done, messages⟩ := task.moves_failed.among at_ follows
      rw [List.append_nil] at done
      refine ⟨each, executed.trans done.symm, ?_⟩
      rw [messages]
      exact known
  | requeued i task at_ =>
      obtain ⟨each, done, messages⟩ := task.moves_requeued.among at_ follows
      rw [List.append_nil] at done
      refine ⟨each, executed.trans done.symm, fun message member => ?_⟩
      rw [messages] at member
      simp only [List.mem_append, List.mem_cons] at member
      rcases member with taken | rfl | ready
      · exact known message (List.mem_append_left _ taken)
      · exact known _ (List.mem_append_left _ (List.mem_map_of_mem (List.mem_of_getElem? at_)))
      · exact known message (List.mem_append_right _ ready)

theorem consistent_empty : Consistent plan (empty : WorkQueue M C) := ⟨nofun, .nil, nofun⟩

theorem consistent_of_run {actions : List (Action M L E)} (run : exec (step lane plan) actions empty = some s) :
    Consistent plan s :=
  exec_invariant (Consistent plan) (fun consistent one => consistent.step one) consistent_empty run

theorem Task.Follows.starts {t : Task M C} (follows : t.Follows plan) :
    t.done = [] ∨ ∃ input, t.done <+: plan input t.message := by
  unfold Task.Follows at follows
  split at follows
  · exact .inl follows
  · obtain ⟨input, whole⟩ := follows
    exact .inr ⟨input, _, whole⟩

theorem sent_subset {action : Action M L E} {next : WorkQueue M C} (one : step lane plan s action = some next) :
    s.sent ⊆ next.sent := by
  cases stepped_of_step one with
  | sent messages => exact List.subset_append_left _ _
  | _ => exact List.Subset.refl _

theorem sent_of_step {action : Action M L E} {next : WorkQueue M C} (one : step lane plan s action = some next)
    (consumer : ∀ messages, action ≠ .send messages) : next.sent = s.sent := by
  cases stepped_of_step one with
  | sent messages => exact absurd rfl (consumer messages)
  | _ => rfl

theorem Consistent.origin {command : C} (consistent : Consistent plan s) (member : command ∈ s.executed) :
    ∃ message ∈ s.sent, ∃ input, command ∈ plan input message := by
  obtain ⟨task, known, done⟩ := List.mem_flatMap.mp (consistent.executed.subset member)
  refine ⟨task.message, consistent.known _ (List.mem_append_left _ (List.mem_map_of_mem known)), ?_⟩
  rcases (consistent.follows task known).starts with none | ⟨input, starts⟩
  · rw [none] at done
    cases done
  · exact ⟨input, starts.subset done⟩

/-! The messages of one lane. -/

def inLane (lane : M → L) (l : L) (s : WorkQueue M C) : List M :=
  (s.tasks.map Task.message ++ s.queue).filter fun message => lane message = l

theorem TakenFrom.filter {l : L} {queue : List M} {message : M} {rest : List M}
    (ready : TakenFrom lane l queue message rest) (other : L) :
    (message :: rest).filter (fun m => lane m = other) = queue.filter fun m => lane m = other := by
  obtain ⟨here, front, back, rfl, rfl, apart⟩ := ready
  by_cases same : l = other
  · subst same
    have none : front.filter (fun m => decide (lane m = l)) = [] :=
      List.filter_eq_nil_iff.mpr fun m member => by simpa using apart m member
    simp [List.filter_append, here, none]
  · have skipped : lane message ≠ other := here ▸ same
    simp [List.filter_append, skipped]

theorem inLane_send (l : L) (s : WorkQueue M C) (messages : List M) :
    (s.send messages).inLane lane l = s.inLane lane l ++ messages.filter fun message => lane message = l := by
  rw [inLane, inLane, ← List.filter_append, List.append_assoc]
  rfl

theorem inLane_delivered {l : L} {message : M} {rest : List M} (ready : TakenFrom lane l s.queue message rest)
    (other : L) : ({ s with queue := rest, tasks := s.tasks ++ [received message] } : WorkQueue M C).inLane lane other =
      s.inLane lane other := by
  simp only [inLane, received, List.map_append, List.map_cons, List.map_nil, List.append_assoc, List.singleton_append]
  rw [List.filter_append, ready.filter, ← List.filter_append]

theorem inLane_set (l : L) {i : Nat} {task next : Task M C} (at_ : s.tasks[i]? = some task)
    (same : next.message = task.message) (executed : List C) :
    ({ s with tasks := s.tasks.set i next, executed := executed } : WorkQueue M C).inLane lane l = s.inLane lane l := by
  rw [inLane, Replacing.map_set_of_same _ at_ same]
  rfl

/-- Unless the broker redelivers, each lane keeps the order in which it was sent,
and no message appears more than once. -/
theorem inLane_sublist {actions : List (Action M L E)} (run : exec (step lane plan) actions empty = some s)
    (once : Along (step lane plan) (fun _ action => action.redelivers = false) actions empty) (l : L) :
    (s.inLane lane l).Sublist (s.sent.filter fun message => lane message = l) := by
  apply along_invariant (fun s => (s.inLane lane l).Sublist (s.sent.filter fun message => lane message = l)) _ _
    once run
  · rintro s action next inOrder permitted one
    cases stepped_of_step one with
    | sent messages =>
        rw [inLane_send, send, List.filter_append]
        exact inOrder.append_right _
    | delivered l' message rest ready =>
        rw [inLane_delivered ready]
        exact inOrder
    | expired l' message rest ready =>
        refine List.Sublist.trans ?_ inOrder
        simp only [inLane, List.filter_append]
        rw [← ready.filter]
        exact ((List.sublist_cons_self message rest).filter _).append_left _
    | resumed i input task next commands at_ moved =>
        rw [inLane_set l at_ (Task.moves_resume moved).2.1.message]
        exact inOrder
    | failed i task at_ =>
        rw [inLane_set l at_ (by rfl)]
        exact inOrder
    | requeued => cases permitted
  · exact List.Sublist.refl _

/-- Nothing lost: every lane is whole, and a finished task has done all its commands. -/
structure Whole (lane : M → L) (s : WorkQueue M C) : Prop where
  inOrder : ∀ l, s.inLane lane l = s.sent.filter fun message => lane message = l
  complete : ∀ task ∈ s.tasks, task.finished = true → task.pending = some []

theorem whole_of_run {actions : List (Action M L E)} (run : exec (step lane plan) actions empty = some s)
    (undisturbed : Along (step lane plan) (fun _ action => action.redelivers = false ∧ action.loses = false) actions
      empty) :
    s.Whole lane := by
  apply along_invariant (fun s => s.Whole lane) _ _ undisturbed run
  · rintro s action next ⟨inOrder, complete⟩ permitted one
    cases stepped_of_step one with
    | sent messages =>
        refine ⟨fun l => ?_, complete⟩
        rw [inLane_send, inOrder, send, List.filter_append]
    | delivered l message rest ready =>
        refine ⟨fun other => ?_, fun task member finished => ?_⟩
        · rw [inLane_delivered ready]
          exact inOrder other
        · rcases List.mem_append.mp member with older | new
          · exact complete task older finished
          · rw [List.mem_singleton.mp new] at finished
            cases finished
    | expired => cases permitted.2
    | resumed i input task next commands at_ moved =>
        obtain ⟨-, moves, last⟩ := Task.moves_resume moved
        refine ⟨fun l => ?_, fun other member finished => ?_⟩
        · rw [inLane_set l at_ moves.message]
          exact inOrder l
        · rcases List.mem_or_eq_of_mem_set member with older | rfl
          · exact complete other older finished
          · exact last finished
    | failed => cases permitted.2
    | requeued => cases permitted.1
  · exact ⟨fun _ => rfl, nofun⟩

theorem Whole.done {task : Task M C} (whole : s.Whole lane) (idle : s.Idle) (consistent : Consistent plan s)
    (member : task ∈ s.tasks) : ∃ input, task.done = plan input task.message := by
  have follows := consistent.follows task member
  rw [Task.Follows, whole.complete task member (idle.2 task member)] at follows
  obtain ⟨input, all⟩ := follows
  exact ⟨input, by rw [← all, List.append_nil]⟩

/-! What is seen of the commands, whoever executes them. -/

theorem subperm_of_lanes {some all : List M}
    (inOrder : ∀ l, (some.filter fun m => lane m = l).Sublist (all.filter fun m => lane m = l)) : some.Subperm all := by
  classical
  apply List.subperm_iff_count.mpr
  intro m
  have here := (inOrder (lane m)).count_le m
  rwa [List.count_filter (by simp), List.count_filter (by simp)] at here

theorem perm_of_lanes {some all : List M}
    (inOrder : ∀ l, (some.filter fun m => lane m = l) = all.filter fun m => lane m = l) : some.Perm all := by
  classical
  apply List.perm_iff_count.mpr
  intro m
  have here := congrArg (List.count m) (inOrder (lane m))
  rwa [List.count_filter (by simp), List.count_filter (by simp)] at here

section

variable {T : Type*} {seen : C → Option T} {due : M → List T}

theorem seen_done {tasks : List (Task M C)} (follows : ∀ task ∈ tasks, task.Follows plan)
    (each : ∀ task ∈ tasks, ∀ input, (plan input task.message).filterMap seen = due task.message) :
    (tasks.flatMap fun task => task.done.filterMap seen).Subperm ((tasks.map Task.message).flatMap due) := by
  induction tasks with
  | nil => exact List.nil_subperm
  | cons task rest ih =>
      obtain ⟨here, later⟩ := List.forall_mem_cons.mp follows
      obtain ⟨owed, others⟩ := List.forall_mem_cons.mp each
      have part : (task.done.filterMap seen).Subperm (due task.message) := by
        rcases here.starts with none | ⟨input, starts⟩
        · rw [none]
          exact List.nil_subperm
        · rw [← owed input]
          exact (starts.sublist.filterMap seen).subperm
      exact part.append (ih later others)

theorem Consistent.seen_subperm (consistent : Consistent plan s)
    (inOrder : ∀ l, (s.inLane lane l).Sublist (s.sent.filter fun message => lane message = l))
    (each : ∀ message ∈ s.sent, ∀ input, (plan input message).filterMap seen = due message) :
    (s.executed.filterMap seen).Subperm (s.sent.flatMap due) := by
  have taken : (s.tasks.map Task.message ++ s.queue).Subperm s.sent := subperm_of_lanes inOrder
  obtain ⟨messages, shuffled, within⟩ := (List.sublist_append_left _ _).subperm.trans taken
  have whole := consistent.executed.filterMap seen
  rw [List.filterMap_flatMap] at whole
  refine whole.subperm.trans ((seen_done consistent.follows fun task member => each task.message ?_).trans ?_)
  · exact consistent.known _ (List.mem_append_left _ (List.mem_map_of_mem member))
  · exact ⟨messages.flatMap due, shuffled.flatMap_right due, within.flatMap due⟩

theorem Whole.seen_perm (whole : s.Whole lane) (consistent : Consistent plan s) (idle : s.Idle)
    (each : ∀ message ∈ s.sent, ∀ input, (plan input message).filterMap seen = due message) :
    (s.executed.filterMap seen).Perm (s.sent.flatMap due) := by
  have taken : (s.tasks.map Task.message ++ s.queue).Perm s.sent := perm_of_lanes whole.inOrder
  rw [idle.1, List.append_nil] at taken
  have all := consistent.executed.filterMap seen
  rw [List.filterMap_flatMap] at all
  refine all.trans ((List.Perm.of_eq ?_).trans (taken.flatMap_right due))
  rw [List.flatMap_map]
  apply List.flatMap_congr
  intro task member
  obtain ⟨input, done⟩ := whole.done idle consistent member
  rw [done]
  exact each task.message (taken.subset (List.mem_map_of_mem member)) input

end

/-! Consumers that take turns. -/

/-- A task of the lane is resumed only when the earlier tasks of the lane are finished. -/
def Turns (lane : M → L) (l : L) (s : WorkQueue M C) : Action M L E → Prop
  | .resume i _ => ∀ task ∈ s.tasks[i]?, lane task.message = l →
      ∀ other ∈ s.tasks.take i, lane other.message = l → other.finished = true
  | _ => True

instance (l : L) (s : WorkQueue M C) : ∀ action : Action M L E, Decidable (Turns lane l s action)
  | .resume i _ => inferInstanceAs (Decidable (∀ task ∈ s.tasks[i]?, lane task.message = l →
      ∀ other ∈ s.tasks.take i, lane other.message = l → other.finished = true))
  | .send _ | .deliver _ | .expire _ | .fail _ | .requeue _ => isTrue trivial

theorem split_at {A : Type*} {items : List A} {i : Nat} {a : A} (at_ : items[i]? = some a) :
    ∃ back, items = items.take i ++ a :: back ∧ ∀ next, items.set i next = items.take i ++ next :: back := by
  induction items generalizing i with
  | nil => cases at_
  | cons head rest ih =>
      cases i with
      | zero =>
          cases at_
          exact ⟨rest, rfl, fun next => rfl⟩
      | succ i =>
          obtain ⟨back, whole, set⟩ := ih at_
          exact ⟨back, congrArg (head :: ·) whole, fun next => congrArg (head :: ·) (set next)⟩

section

variable {T : Type*} {seen : C → Option T} {due : M → List T} {l : L}

/-- What is seen of the lane was executed in the order of its tasks. -/
structure InTurn (lane : M → L) (l : L) (seen : C → Option T) (s : WorkQueue M C) : Prop where
  log : s.executed.filterMap seen = s.tasks.flatMap fun t => t.done.filterMap seen
  behind : s.tasks.Pairwise fun earlier later =>
    lane earlier.message = l → lane later.message = l → earlier.finished = false → later.done = []
  others : ∀ task ∈ s.tasks, lane task.message ≠ l → task.done.filterMap seen = []

/-- The task at a place moves on by commands of its own lane that come last, or
by commands that are not seen. -/
theorem InTurn.set {i : Nat} {task : Task M C} (inTurn : s.InTurn lane l seen) (next : Task M C) (commands : List C)
    (at_ : s.tasks[i]? = some task) (same : next.message = task.message) (done : next.done = task.done ++ commands)
    (stays : task.finished = true → next.finished = true)
    (turn : lane task.message = l → commands = [] ∨ task.finished = false ∧
      ∀ other ∈ s.tasks.take i, lane other.message = l → other.finished = true)
    (unseen : lane task.message ≠ l → commands.filterMap seen = []) :
    ({ s with tasks := s.tasks.set i next, executed := s.executed ++ commands } : WorkQueue M C).InTurn lane l
      seen := by
  obtain ⟨log, behind, others⟩ := inTurn
  obtain ⟨back, whole, set⟩ := split_at at_
  rw [whole] at log behind others
  obtain ⟨front, following, apart⟩ := List.pairwise_append.mp behind
  obtain ⟨later, rest⟩ := List.pairwise_cons.mp following
  have member : task ∈ s.tasks.take i ++ task :: back := List.mem_append_right _ List.mem_cons_self
  -- whatever the task adds to the log is the last of what is seen
  have last : commands.filterMap seen = [] ∨ back.flatMap (fun t => t.done.filterMap seen) = [] := by
    by_cases here : lane task.message = l
    · rcases turn here with rfl | ⟨going, -⟩
      · exact .inl rfl
      · refine .inr (List.flatMap_eq_nil_iff.mpr fun t behindIt => ?_)
        by_cases also : lane t.message = l
        · rw [later t behindIt here also going]
          rfl
        · exact others t (List.mem_append_right _ (List.mem_cons_of_mem _ behindIt)) also
    · exact .inl (unseen here)
  constructor
  · change (s.executed ++ commands).filterMap seen = (s.tasks.set i next).flatMap _
    rw [set, List.filterMap_append, log]
    simp only [List.flatMap_append, List.flatMap_cons, done, List.filterMap_append, List.append_assoc]
    rcases last with none | none <;> rw [none] <;> simp
  · change (s.tasks.set i next).Pairwise _
    rw [set, List.pairwise_append, List.pairwise_cons]
    refine ⟨front, ⟨fun t behindIt here also going => ?_, rest⟩, fun earlier before t after => ?_⟩
    · rw [same] at here
      apply later t behindIt here also
      cases ended : task.finished with
      | false => rfl
      | true => cases (stays ended).symm.trans going
    · rcases List.mem_cons.mp after with rfl | behindIt
      · intro here also going
        rw [same] at also
        rw [done, apart earlier before task List.mem_cons_self here also going]
        rcases turn also with rfl | ⟨-, ended⟩
        · rfl
        · cases (ended earlier before here).symm.trans going
      · exact apart earlier before t (List.mem_cons_of_mem _ behindIt)
  · change ∀ t ∈ s.tasks.set i next, _
    rw [set]
    intro t among elsewhere
    rcases List.mem_append.mp among with before | after
    · exact others t (List.mem_append_left _ before) elsewhere
    · rcases List.mem_cons.mp after with rfl | behindIt
      · rw [same] at elsewhere
        rw [done, List.filterMap_append, others task member elsewhere, unseen elsewhere]
        rfl
      · exact others t (List.mem_append_right _ (List.mem_cons_of_mem _ behindIt)) elsewhere

/-- When the consumers of a lane take turns, and only messages of the lane call
for what is seen, it is executed in the order of the messages. -/
theorem inTurn_of_run {actions : List (Action M L E)} (run : exec (step lane plan) actions empty = some s)
    (turns : Along (step lane plan) (Turns lane l) actions empty)
    (only : ∀ message ∈ s.sent, lane message ≠ l → ∀ input, (plan input message).filterMap seen = []) :
    s.InTurn lane l seen := by
  have both : Consistent plan s ∧
      ((∀ message ∈ s.sent, lane message ≠ l → ∀ input, (plan input message).filterMap seen = []) →
        s.InTurn lane l seen) := by
    apply along_invariant (fun s => Consistent plan s ∧
      ((∀ message ∈ s.sent, lane message ≠ l → ∀ input, (plan input message).filterMap seen = []) →
        s.InTurn lane l seen)) _ _ turns run
    · rintro s action next ⟨consistent, kept⟩ permitted one
      have after := consistent.step one
      refine ⟨after, fun only => ?_⟩
      have inTurn := kept fun message member => only message (sent_subset one member)
      cases stepped_of_step one with
      | sent messages => exact ⟨inTurn.log, inTurn.behind, inTurn.others⟩
      | delivered l' message rest ready =>
          obtain ⟨log, behind, others⟩ := inTurn
          refine ⟨?_, ?_, fun task member elsewhere => ?_⟩
          · simpa [received] using log
          · refine List.pairwise_append.mpr ⟨behind, List.pairwise_singleton _ _, fun earlier _ later new => ?_⟩
            rw [List.mem_singleton.mp new]
            exact fun _ _ _ => rfl
          · rcases List.mem_append.mp member with older | new
            · exact others task older elsewhere
            · rw [List.mem_singleton.mp new]
              rfl
      | expired => exact ⟨inTurn.log, inTurn.behind, inTurn.others⟩
      | resumed i input task next commands at_ moved =>
          obtain ⟨going, moves, -⟩ := Task.moves_resume moved
          apply inTurn.set next commands at_ moves.message moves.done
          · exact fun finished => absurd finished (going ▸ Bool.false_ne_true)
          · exact fun here => .inr ⟨going, permitted task at_ here⟩
          · intro elsewhere
            have member : next ∈ s.tasks.set i next := by
              obtain ⟨back, -, set⟩ := split_at at_
              rw [set]
              exact List.mem_append_right _ List.mem_cons_self
            have known := after.known next.message (List.mem_append_left _ (List.mem_map_of_mem member))
            have none : next.done.filterMap seen = [] := by
              rcases (after.follows next member).starts with empty | ⟨input, starts⟩
              · rw [empty]
                rfl
              · have all := only next.message known (moves.message ▸ elsewhere) input
                exact List.sublist_nil.mp (all ▸ starts.sublist.filterMap seen)
            rw [moves.done, List.filterMap_append, List.append_eq_nil_iff] at none
            exact none.2
      | failed i task at_ =>
          have same := inTurn.set { task with finished := true, held := false } [] at_ rfl
            (List.append_nil _).symm (fun _ => rfl) (fun _ => .inl rfl) (fun _ => rfl)
          rw [List.append_nil] at same
          exact same
      | requeued i task at_ =>
          have same := inTurn.set { task with held := false } [] at_ rfl
            (List.append_nil _).symm id (fun _ => .inl rfl) (fun _ => rfl)
          rw [List.append_nil] at same
          exact ⟨same.log, same.behind, same.others⟩
    · exact ⟨consistent_empty, fun _ => ⟨rfl, .nil, nofun⟩⟩
  exact both.2 only

/-- Once every message is handled and nothing was lost, what was seen is what the
messages of the lane call for, in the order in which they were sent. -/
theorem seen_of_turns {actions : List (Action M L E)} (run : exec (step lane plan) actions empty = some s)
    (turns : Along (step lane plan) (Turns lane l) actions empty) (whole : s.Whole lane) (idle : s.Idle)
    (each : ∀ message ∈ s.sent, ∀ input, (plan input message).filterMap seen = due message)
    (only : ∀ message ∈ s.sent, lane message ≠ l → due message = []) :
    s.executed.filterMap seen = s.sent.flatMap due := by
  have consistent := consistent_of_run run
  have inTurn : s.InTurn lane l seen := inTurn_of_run run turns fun message member elsewhere input =>
    (each message member input).trans (only message member elsewhere)
  have skipped (messages : List M) (known : ∀ message ∈ messages, message ∈ s.sent) :
      (messages.filter fun message => lane message = l).flatMap due = messages.flatMap due := by
    induction messages with
    | nil => rfl
    | cons message rest ih =>
        obtain ⟨here, later⟩ := List.forall_mem_cons.mp known
        by_cases inside : lane message = l
        · simp [inside, ih later]
        · simp [inside, ih later, only message here inside]
  have lanes := whole.inOrder l
  rw [inLane, idle.1, List.append_nil] at lanes
  have known : ∀ message ∈ s.tasks.map Task.message, message ∈ s.sent :=
    fun message member => consistent.known message (List.mem_append_left _ member)
  rw [← skipped s.sent fun _ => id, ← lanes, skipped _ known, List.flatMap_map, inTurn.log]
  apply List.flatMap_congr
  intro task member
  obtain ⟨input, done⟩ := whole.done idle consistent member
  rw [done]
  exact each task.message (known _ (List.mem_map_of_mem member)) input

end
end
end WorkQueue
