import KuhlHausMdp.WidgetDataService.Isolation

/-! The calls of `WidgetDataService` and its polling tasks as coroutines of one
event loop, each suspended at every `await`. `subscribe` and `unsubscribe` keep
the pub/sub lock across their awaits, `stop` goes without it, and a polling task
takes it to remove a client. -/

set_option autoImplicit false

namespace KuhlHausMdp.WidgetDataService

open Transition

variable {C W : Type*} [DecidableEq C] [DecidableEq W]

inductive Party (C : Type*) where
  | call (id : C)
  | task (task : Nat)
  deriving DecidableEq

inductive Await (W : Type*) where
  | opening (feed : String) (websocket : W)
  | closing (feed : String)
  | joining (task : Nat)

/-- An unfinished call. `unsubscribe` has the feeds still to leave, the one
under way first: one feed, or the snapshot of a `disconnect`. -/
inductive Pending (W : Type*) where
  | subscribe (feed : String) (websocket : W)
  | unsubscribe (feeds : List String) (websocket : W)
  | disconnect (websocket : W)
  | stop (task : Nat)

/-- `cancelling` holds of a task that is resumed with `CancelledError` next. -/
structure EventLoop (C W : Type*) where
  service : Service W
  calls : C → Option (Pending W)
  loops : Nat → Loop W
  cancelling : Nat → Bool
  lock : Option (Party C × Await W)

inductive Move (C W : Type*) where
  | start
  | subscribe (id : C) (feed : String) (websocket : W)
  | unsubscribe (id : C) (feed : String) (websocket : W)
  | disconnect (id : C) (websocket : W)
  | stop (id : C)
  | enter (id : C)
  | proceed (redis : Ending)
  | stopped (id : C)
  | message (task : Nat) (message : Message) (snapshot : List W)
  | send (task : Nat) (raises : Bool)
  | turn (task : Nat)
  | clean (task : Nat)
  | deliver (task : Nat)
  | crash (task : Nat) (runtimeError : Bool)

def Pending.next : Pending W → Option (Pending W)
  | .unsubscribe (_ :: feed :: rest) websocket => some (.unsubscribe (feed :: rest) websocket)
  | _ => none

/-- Where the cleanup goes on when one client is removed. -/
def Loop.next : Loop W → Loop W
  | .cleaning channel (_ :: rest) => .cleaning channel rest
  | loop => loop

namespace Service

def listening (feed : String) (s : Service W) : Service W := { s with pubsub := s.pubsub.listen feed }

def silenced (feed : String) (s : Service W) : Service W :=
  { s with
    pubsub := s.pubsub.silence feed
    subscriptions := s.subscriptions.erase feed }

end Service

namespace EventLoop

def fresh : EventLoop C W := ⟨.fresh, fun _ => none, fun _ => .polling, fun _ => false, none⟩

def move (s : EventLoop C W) (task : Nat) (loop : Loop W) : EventLoop C W :=
  { s with loops := Function.update s.loops task loop }

/-- The task that a polling task awaits inside `unsubscribe`. -/
def awaited (s : EventLoop C W) (task : Nat) : Option Nat :=
  match s.lock with
  | some (.task holder, .joining awaited) => if holder = task then some awaited else none
  | _ => none

/-- `self._pubsub_task.cancel()`, of an unfinished task. -/
def cancel (s : EventLoop C W) (task : Nat) : EventLoop C W :=
  { s with cancelling := Function.update s.cancelling task true }

def endTask (s : EventLoop C W) (task : Nat) (how : TaskState) : EventLoop C W :=
  { s with
    service := { s.service with tasks := s.service.tasks.set task how }
    lock := s.lock.filter fun holder => holder.1 ≠ .task task }

def release (s : EventLoop C W) : Party C → Ending → EventLoop C W
  | .call id, .returned =>
      { s with lock := none, calls := Function.update s.calls id ((s.calls id).bind Pending.next) }
  | .call id, .raised => { s with lock := none, calls := Function.update s.calls id none }
  | .task task, .returned => { s with lock := none }.move task (s.loops task).next
  -- `_handle_pubsub` raises it again
  | .task task, .raised => { s with lock := none }.endTask task (.failed false)

/-- `await self._pubsub_task` in `unsubscribe`, of a finished task: a
`CancelledError` or `RuntimeError` is caught. -/
def join (s : EventLoop C W) (party : Party C) (task : Nat) : EventLoop C W :=
  if s.service.tasks[task]? = some (.failed false) then s.release party .raised
  else { s with service := { s.service with pubsubTask := none } }.release party .returned

/-- The `except` clause of `unsubscribe` takes a task's own `CancelledError`,
and its cleanup goes on. -/
def swallow (s : EventLoop C W) (task : Nat) : EventLoop C W :=
  { s with
    cancelling := Function.update s.cancelling task false
    service := { s.service with pubsubTask := none } }.release (.task task) .returned

/-- `if not self.subscriptions and self._pubsub_task`. -/
def stopPolling (s : EventLoop C W) (party : Party C) : EventLoop C W :=
  match s.service.pubsubTask with
  | none => s.release party .returned
  | some task =>
      if s.service.subscriptions.keys = [] then
        if s.service.Running task then { s.cancel task with lock := some (party, .joining task) }
        else s.join party task
      else s.release party .returned

def unsubscribe (s : EventLoop C W) (party : Party C) (feed : String) (websocket : W) : EventLoop C W :=
  match s.service.subscriptions.get feed with
  | none => s.stopPolling party
  | some clients =>
      let s := { s with service := s.service.discarded feed websocket }
      if clients.erase websocket = ∅ then { s with lock := some (party, .closing feed) }
      else s.stopPolling party

/-- `subscribe` from the test for the first subscription to its end. -/
def register (s : EventLoop C W) (party : Party C) (feed : String) (websocket : W) : EventLoop C W :=
  { s with service := s.service.startPolling.addClient feed websocket }.release party .returned

def pend (s : EventLoop C W) (id : C) (pending : Pending W) : EventLoop C W :=
  { s with calls := Function.update s.calls id (some pending) }

def begin (s : EventLoop C W) (id : C) (pending : Pending W) : Option (EventLoop C W) :=
  match s.calls id with
  | none => some (s.pend id pending)
  | some _ => none

/-- `await self._pubsub_task` in `stop`, of a finished task: only a
`CancelledError` is caught. -/
def stopped (s : EventLoop C W) (id : C) (task : Nat) : EventLoop C W :=
  let s := { s with calls := Function.update s.calls id none }
  if s.service.tasks[task]? = some .cancelled then { s with service := { s.service with pubsubTask := none } }
  else s

def perform (s : EventLoop C W) : Move C W → Option (EventLoop C W)
  -- a PING
  | .start => some s
  | .subscribe id feed websocket => s.begin id (.subscribe feed websocket)
  | .unsubscribe id feed websocket => s.begin id (.unsubscribe [feed] websocket)
  | .disconnect id websocket => s.begin id (.disconnect websocket)
  | .stop id =>
      match s.calls id, s.service.pubsubTask with
      | some _, _ => none
      | none, none => some s
      | none, some task => if s.service.Running task then (s.cancel task).begin id (.stop task) else some (s.stopped id task)
  | .stopped id =>
      match s.calls id with
      | some (.stop task) => if s.service.Running task then none else some (s.stopped id task)
      | _ => none
  | .enter id =>
      match s.lock, s.calls id with
      | none, some (.subscribe feed websocket) =>
          if feed ∈ s.service.subscriptions then
            some (s.register (.call id) feed websocket)
          else some { s with service := s.service.halfOpen feed, lock := some (.call id, .opening feed websocket) }
      | none, some (.unsubscribe (feed :: _) websocket) => some (s.unsubscribe (.call id) feed websocket)
      | none, some (.disconnect websocket) =>
          some { s with calls := Function.update s.calls id (match s.service.subscriptions.keys with
            | [] => none
            | feeds => some (.unsubscribe feeds websocket)) }
      | _, _ => none
  | .proceed redis =>
      match s.lock, redis with
      | none, _ => none
      | some (party, .joining task), _ => if s.service.Running task then none else some (s.join party task)
      | some (party, _), .raised => some (s.release party .raised)
      | some (party, .opening feed websocket), .returned =>
          some ({ s with service := s.service.listening feed }.register party feed websocket)
      | some (party, .closing feed), .returned => some ({ s with service := s.service.silenced feed }.stopPolling party)
  | .message task message snapshot =>
      match s.loops task, message.type with
      | .polling, .message | .polling, .pmessage =>
          if message.channel ∈ s.service.subscriptions then
            if snapshot.Nodup ∧ snapshot.toFinset = s.service.clients message.channel then
              some (s.move task (.sending message.channel message.data snapshot []))
            else none
          else some s
      | .polling, _ => some s
      | _, _ => none
  | .send task raises =>
      match s.loops task with
      | .sending channel data (websocket :: rest) failed =>
          some (s.move task (.sending channel data rest (if raises then failed ++ [websocket] else failed)))
      | _ => none
  | .turn task =>
      match s.loops task with
      | .sending channel _ [] failed => some (s.move task (.cleaning channel failed))
      | .cleaning _ [] => some (s.move task .polling)
      | _ => none
  | .clean task =>
      match s.lock, s.loops task with
      | none, .cleaning channel (websocket :: _) => some (s.unsubscribe (.task task) channel websocket)
      | _, _ => none
  | .deliver task =>
      match s.awaited task with
      | none => some (s.endTask task .cancelled)
      | some awaited => if awaited = task ∨ ¬s.service.Running awaited then some (s.swallow task) else none
  | .crash task runtimeError =>
      match s.awaited task with
      | none => some (s.endTask task (.failed runtimeError))
      | some _ => none

/-- Only an unfinished task is resumed, and one that is being cancelled only
with `CancelledError`. -/
def Resumable (s : EventLoop C W) : Move C W → Prop
  | .deliver task => s.service.Running task ∧ s.cancelling task = true
  | .message task .. | .send task _ | .turn task | .clean task | .crash task _ =>
      s.service.Running task ∧ s.cancelling task = false
  | .proceed _ => ∀ task await, s.lock = some (.task task, await) → s.service.Running task ∧ s.cancelling task = false
  | _ => True

instance (s : EventLoop C W) (move : Move C W) : Decidable (s.Resumable move) :=
  match move with
  | .deliver _ | .message .. | .send .. | .turn _ | .clean _ | .crash .. => inferInstanceAs (Decidable (_ ∧ _))
  | .proceed _ =>
      match held : s.lock with
      | some (.task task, _) =>
          decidable_of_iff (s.service.Running task ∧ s.cancelling task = false) (by simp [Resumable, held])
      | none | some (.call _, _) => isTrue (by simp [Resumable, held])
  | .start | .subscribe .. | .unsubscribe .. | .disconnect .. | .stop _ | .enter _ | .stopped _ =>
      inferInstanceAs (Decidable True)

def step (s : EventLoop C W) (move : Move C W) : Option (EventLoop C W) :=
  if s.Resumable move then s.perform move else none

theorem step_eq_some {s next : EventLoop C W} {move : Move C W} :
    s.step move = some next ↔ s.Resumable move ∧ s.perform move = some next := by
  unfold step
  split <;> simp [*]

end EventLoop

section

omit [DecidableEq W]

namespace Service

theorem running_createTask {s : Service W} {task : Nat} :
    s.createTask.Running task ↔ s.Running task ∨ task = s.tasks.length := by
  simp only [Running, createTask, List.getElem?_append]
  rcases Nat.lt_trichotomy task s.tasks.length with before | rfl | after
  · simp [before, before.ne]
  · simp
  · have beyond : ¬task < s.tasks.length := by omega
    have late : task - s.tasks.length ≠ 0 := by omega
    simp [beyond, after.ne', late]

end Service

namespace EventLoop

/-! What the end of the block under the lock leaves alone. -/

variable (s : EventLoop C W) (party : Party C) (ending : Ending)

@[simp] theorem lock_release : (s.release party ending).lock = none := by
  cases party <;> cases ending <;> rfl

@[simp] theorem subscriptions_release : (s.release party ending).service.subscriptions = s.service.subscriptions := by
  cases party <;> cases ending <;> rfl

@[simp] theorem pubsubTask_release : (s.release party ending).service.pubsubTask = s.service.pubsubTask := by
  cases party <;> cases ending <;> rfl

@[simp] theorem cancelling_release : (s.release party ending).cancelling = s.cancelling := by
  cases party <;> cases ending <;> rfl

@[simp] theorem service_release_returned : (s.release party .returned).service = s.service := by
  cases party <;> rfl

variable {s party ending}

theorem running_of_release {task : Nat} (running : (s.release party ending).service.Running task) :
    s.service.Running task := by
  cases party with
  | call id => cases ending <;> exact running
  | task holder =>
      cases ending with
      | returned => exact running
      | raised => exact ((Service.running_set (by simp)).mp running).2

omit [DecidableEq C] in
theorem awaited_eq_some {task other : Nat} :
    s.awaited task = some other ↔ s.lock = some (.task task, .joining other) := by
  unfold awaited
  split
  case h_1 holder awaited held =>
    by_cases same : holder = task <;> simp [held, same]
  case h_2 apart =>
    exact ⟨fun none => (nomatch none), fun held => absurd held (apart task other)⟩

end EventLoop

end

/-- A move that starts a call, or that a polling task makes on its own. -/
def Move.Quiet : Move C W → Prop
  | .start | .subscribe .. | .unsubscribe .. | .disconnect .. | .message .. | .send .. | .turn _ => True
  | _ => False

namespace EventLoop

omit [DecidableEq W] in
theorem begin_eq_some {s next : EventLoop C W} {id : C} {pending : Pending W} (one : s.begin id pending = some next) :
    next = s.pend id pending := by
  unfold begin at one
  split at one
  · exact (Option.some.inj one).symm
  · cases one

theorem perform_message {s next : EventLoop C W} {task : Nat} {message : Message} {snapshot : List W}
    (one : s.perform (.message task message snapshot) = some next) : next = s ∨ ∃ loop, next = s.move task loop := by
  have taken {channel data : String} {member : Prop} [Decidable member] {listed : Prop} [Decidable listed]
      (one : (if member then if listed then some (s.move task (.sending channel data snapshot [])) else none
        else some s) = some next) : next = s ∨ ∃ loop, next = s.move task loop := by
    split at one
    · split at one
      · exact .inr ⟨_, (Option.some.inj one).symm⟩
      · cases one
    · exact .inl (Option.some.inj one).symm
  simp only [perform] at one
  split at one
  · exact taken one
  · exact taken one
  · exact .inl (Option.some.inj one).symm
  · cases one

theorem perform_quiet {s next : EventLoop C W} {move : Move C W} (one : s.perform move = some next)
    (quiet : move.Quiet) :
    next.service = s.service ∧ next.lock = s.lock ∧ next.cancelling = s.cancelling := by
  cases move with
  | start =>
      cases one
      exact ⟨rfl, rfl, rfl⟩
  | subscribe | unsubscribe | disconnect =>
      rw [begin_eq_some one]
      exact ⟨rfl, rfl, rfl⟩
  | message task message snapshot => rcases perform_message one with rfl | ⟨loop, rfl⟩ <;> exact ⟨rfl, rfl, rfl⟩
  | send task raises =>
      simp only [perform] at one
      split at one
      · cases one
        exact ⟨rfl, rfl, rfl⟩
      · cases one
  | turn task =>
      simp only [perform] at one
      split at one
      · cases one
        exact ⟨rfl, rfl, rfl⟩
      · cases one
        exact ⟨rfl, rfl, rfl⟩
      · cases one
  | _ => exact quiet.elim

/-! A call that nothing interrupts is the operation of the registry. -/

omit [DecidableEq W] in
theorem service_join {s : EventLoop C W} {task : Nat} (stored : s.service.pubsubTask = some task)
    (empty : s.service.subscriptions.keys = []) (ceased : ¬s.service.Running task) (id : C) :
    (s.join (.call id) task).service = (s.service.stopPolling .client).2 := by
  unfold join Service.stopPolling
  simp only [stored, empty, if_true]
  split
  case isTrue failed => rw [failed]; rfl
  case isFalse caught =>
    split
    case h_1 failed => exact absurd failed caught
    case h_2 running => exact absurd running ceased
    case h_3 => rfl

omit [DecidableEq W] in
theorem service_join_cancelled {s : EventLoop C W} {task : Nat} (cancelled : s.service.tasks[task]? = some .cancelled)
    (id : C) : (s.join (.call id) task).service = { s.service with pubsubTask := none } := by
  rw [join, if_neg (by simp [cancelled])]
  rfl

omit [DecidableEq W] in
theorem lock_join (s : EventLoop C W) (party : Party C) (task : Nat) : (s.join party task).lock = none := by
  unfold join
  split <;> exact lock_release ..

theorem exec_joining {s : EventLoop C W} {task : Nat} (running : s.service.Running task) (id : C) :
    exec step [.deliver task, .proceed .returned] { s.cancel task with lock := some (.call id, .joining task) } =
      some (({ s.cancel task with lock := some (.call id, .joining task) }.endTask task .cancelled).join
        (.call id) task) := by
  have ceased : ¬({ s.cancel task with lock := some (.call id, .joining task) }.endTask
      task .cancelled).service.Running task := fun still => ((Service.running_set (by simp)).mp still).1 rfl
  refine exec_cons.mpr ⟨_, step_eq_some.mpr ⟨⟨running, Function.update_self ..⟩, rfl⟩, ?_⟩
  refine exec_cons.mpr ⟨_, step_eq_some.mpr ⟨fun _ _ held => (nomatch held), ?_⟩, rfl⟩
  exact if_neg ceased

theorem exec_stopPolling (s : EventLoop C W) (id : C) : ∃ moves next,
    exec step moves (s.stopPolling (.call id)) = some next ∧ next.lock = none ∧
      next.service = (s.service.stopPolling .client).2 := by
  unfold stopPolling
  cases stored : s.service.pubsubTask with
  | none =>
      refine ⟨[], _, rfl, lock_release .., ?_⟩
      rw [service_release_returned, Service.stopPolling, stored]
  | some task =>
      by_cases empty : s.service.subscriptions.keys = []
      · by_cases running : s.service.Running task
        · have current : s.service.tasks[task]? = some .running := running
          have inside : task < s.service.tasks.length := (List.getElem?_eq_some_iff.mp current).1
          simp only [empty, running, if_true]
          refine ⟨_, _, exec_joining running id, lock_join .., ?_⟩
          rw [service_join_cancelled (List.getElem?_set_self inside)]
          simp only [Service.stopPolling, stored, empty, current, if_true]
          rfl
        · simp only [empty, running, if_true, if_false]
          exact ⟨[], _, rfl, lock_join .., service_join stored empty running id⟩
      · simp only [empty, if_false]
        refine ⟨[], _, rfl, lock_release .., ?_⟩
        simp only [service_release_returned, Service.stopPolling, stored, empty, if_false]

theorem exec_subscribe {s : EventLoop C W} {id : C} (free : s.lock = none) (idle : s.calls id = none) (feed : String)
    (websocket : W) (redis : Ending) : ∃ moves next, exec step moves s = some next ∧ next.lock = none ∧
      next.service = (s.service.subscribe feed websocket redis).2 := by
  have begun : s.step (.subscribe id feed websocket) = some (s.pend id (.subscribe feed websocket)) :=
    step_eq_some.mpr ⟨trivial, by simp only [perform, begin, idle]⟩
  generalize started : s.pend id (.subscribe feed websocket) = t at begun
  have pending : t.calls id = some (.subscribe feed websocket) := by rw [← started]; exact Function.update_self ..
  have unlocked : t.lock = none := by rw [← started]; exact free
  have same : t.service = s.service := by rw [← started]; rfl
  rw [← same]
  by_cases member : feed ∈ t.service.subscriptions
  · have entered : t.step (.enter id) = some (t.register (.call id) feed websocket) :=
      step_eq_some.mpr ⟨trivial, by simp only [perform, unlocked, pending, member, if_true]⟩
    refine ⟨_, _, exec_cons.mpr ⟨_, begun, exec_cons.mpr ⟨_, entered, exec_nil _⟩⟩, lock_release .., ?_⟩
    rw [register, service_release_returned, Service.subscribe_of_mem member]
  · let opening : EventLoop C W :=
      { t with service := t.service.halfOpen feed, lock := some (.call id, .opening feed websocket) }
    have entered : t.step (.enter id) = some opening :=
      step_eq_some.mpr ⟨trivial, by simp only [perform, unlocked, pending, member, if_false, opening]⟩
    have resumable : opening.Resumable (.proceed redis) := fun _ _ held => (nomatch held)
    cases redis with
    | raised =>
        have proceeded : opening.step (.proceed .raised) = some (opening.release (.call id) .raised) :=
          step_eq_some.mpr ⟨resumable, rfl⟩
        refine ⟨_, _, exec_cons.mpr ⟨_, begun, exec_cons.mpr ⟨_, entered,
          exec_cons.mpr ⟨_, proceeded, exec_nil _⟩⟩⟩, lock_release .., ?_⟩
        rw [Service.subscribe_raised member]
        rfl
    | returned =>
        have proceeded : opening.step (.proceed .returned) =
            some ({ opening with service := opening.service.listening feed }.register (.call id) feed websocket) :=
          step_eq_some.mpr ⟨resumable, rfl⟩
        refine ⟨_, _, exec_cons.mpr ⟨_, begun, exec_cons.mpr ⟨_, entered,
          exec_cons.mpr ⟨_, proceeded, exec_nil _⟩⟩⟩, lock_release .., ?_⟩
        rw [register, service_release_returned, Service.subscribe_returned member]
        rfl

theorem exec_unsubscribe {s : EventLoop C W} {id : C} (free : s.lock = none) (idle : s.calls id = none) (feed : String)
    (websocket : W) (redis : Ending) : ∃ moves next, exec step moves s = some next ∧ next.lock = none ∧
      next.service = (s.service.unsubscribe feed websocket redis .client).2 := by
  have begun : s.step (.unsubscribe id feed websocket) = some (s.pend id (.unsubscribe [feed] websocket)) :=
    step_eq_some.mpr ⟨trivial, by simp only [perform, begin, idle]⟩
  generalize started : s.pend id (.unsubscribe [feed] websocket) = t at begun
  have pending : t.calls id = some (.unsubscribe [feed] websocket) := by rw [← started]; exact Function.update_self ..
  have unlocked : t.lock = none := by rw [← started]; exact free
  have same : t.service = s.service := by rw [← started]; rfl
  have entered : t.step (.enter id) = some (t.unsubscribe (.call id) feed websocket) :=
    step_eq_some.mpr ⟨trivial, by simp only [perform, unlocked, pending]⟩
  -- the rest of the call, from the first await on
  suffices rest : ∃ moves next, exec step moves (t.unsubscribe (.call id) feed websocket) = some next ∧
      next.lock = none ∧ next.service = (t.service.unsubscribe feed websocket redis .client).2 by
    obtain ⟨moves, next, run, done⟩ := rest
    rw [← same]
    exact ⟨_, next, exec_cons.mpr ⟨_, begun, exec_cons.mpr ⟨_, entered, run⟩⟩, done⟩
  unfold unsubscribe Service.unsubscribe
  rcases t.service.leaveFeed_cases feed websocket redis with ⟨missing, left⟩ | ⟨member, others, left⟩ |
    ⟨member, last, left⟩
  · rw [left, Dict.get_eq_none_iff.mpr missing]
    exact exec_stopPolling t id
  · obtain ⟨clients, found⟩ := Dict.mem_iff_get.mp member
    rw [Service.clients_of_get found] at others
    rw [left, found]
    simp only [others, if_false]
    exact exec_stopPolling { t with service := t.service.discarded feed websocket } id
  · obtain ⟨clients, found⟩ := Dict.mem_iff_get.mp member
    rw [Service.clients_of_get found] at last
    rw [left, found]
    simp only [last, if_true]
    let closing : EventLoop C W :=
      { t with service := t.service.discarded feed websocket, lock := some (.call id, .closing feed) }
    have resumable : closing.Resumable (.proceed redis) := fun _ _ held => (nomatch held)
    cases redis with
    | raised =>
        have proceeded : closing.step (.proceed .raised) = some (closing.release (.call id) .raised) :=
          step_eq_some.mpr ⟨resumable, rfl⟩
        exact ⟨_, _, exec_cons.mpr ⟨_, proceeded, exec_nil _⟩, lock_release .., rfl⟩
    | returned =>
        have proceeded : closing.step (.proceed .returned) =
            some ({ closing with service := closing.service.silenced feed }.stopPolling (.call id)) :=
          step_eq_some.mpr ⟨resumable, rfl⟩
        obtain ⟨moves, next, run, done⟩ :=
          exec_stopPolling { closing with service := closing.service.silenced feed } id
        exact ⟨_, next, exec_cons.mpr ⟨_, proceeded, run⟩, done⟩

end EventLoop
end KuhlHausMdp.WidgetDataService
