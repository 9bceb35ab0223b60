import KuhlHausMdp.WidgetDataService.EventLoop

/-! How many tasks poll. `unsubscribe` cancels and awaits the task whose handle
is stored, which may be the task that runs it; `subscribe` starts one only for
the first feed and only without a handle. -/

set_option autoImplicit false

namespace KuhlHausMdp.WidgetDataService

open Transition

variable {C W : Type*} [DecidableEq C] [DecidableEq W]

namespace Service

def Handled (s : Service W) : Prop := ∀ task, s.Running task → s.pubsubTask = some task

omit [DecidableEq W] in
theorem running_startPolling {s : Service W} {task : Nat} : s.startPolling.Running task ↔
    s.Running task ∨ (s.subscriptions.keys.length = 1 ∧ s.pubsubTask = none) ∧ task = s.tasks.length := by
  unfold startPolling
  split
  case isTrue first => simp [running_createTask, first]
  case isFalse other => simp [other]

omit [DecidableEq W] in
theorem Handled.startPolling {s : Service W} (handled : s.Handled) : s.startPolling.Handled := by
  intro task running
  rcases running_startPolling.mp running with old | ⟨first, rfl⟩
  · have held := handled task old
    rw [Service.startPolling, if_neg (by simp [held])]
    exact held
  · rw [Service.startPolling, if_pos first]
    rfl

end Service

namespace EventLoop

def AwaitsItself (s : EventLoop C W) : Move C W → Prop
  | .deliver task => s.awaited task = some task
  | _ => False

/-- One task polls at most, and it ends when the last feed is removed: it is
being cancelled at once and gone when the lock is free. -/
structure Single (s : EventLoop C W) : Prop where
  unique : ∀ task other, s.service.Running task → s.service.Running other → task = other
  ceases : s.service.subscriptions.keys = [] → ∀ task, s.service.Running task → s.cancelling task = true
  ended : s.service.subscriptions.keys = [] → s.lock = none → ∀ task, ¬s.service.Running task

/-- The lock accounts for every task that is unfinished without a feed. -/
structure Sound (s : EventLoop C W) : Prop where
  handled : s.service.Handled
  idle : s.service.subscriptions.keys = [] → ∀ task, s.service.Running task →
    ∃ party, s.lock = some (party, .joining task)
  joining : ∀ party task, s.lock = some (party, .joining task) → s.service.subscriptions.keys = [] ∧
    s.service.pubsubTask = some task ∧ (s.service.Running task → s.cancelling task = true)
  holder : ∀ task await, s.lock = some (.task task, await) → s.service.Running task

/-- Nobody waits for a task under the lock. -/
def Unjoined (s : EventLoop C W) : Prop := ∀ party task, s.lock ≠ some (party, .joining task)

omit [DecidableEq C] [DecidableEq W] in
theorem unjoined_of_free {s : EventLoop C W} (free : s.lock = none) : s.Unjoined := fun _ _ held => by
  cases free.symm.trans held

omit [DecidableEq C] [DecidableEq W] in
theorem unjoined_of_held {s : EventLoop C W} {party : Party C} {await : Await W} (held : s.lock = some (party, await))
    (other : ∀ task, await ≠ .joining task) : s.Unjoined := fun _ task joins => by
  cases held.symm.trans joins
  exact other task rfl

end EventLoop

def Move.OfStop : Move C W → Prop
  | .stop _ | .stopped _ => True
  | _ => False

namespace EventLoop.Sound

variable {s next : EventLoop C W}

omit [DecidableEq C] [DecidableEq W] in
theorem fresh : Sound (.fresh : EventLoop C W) where
  handled := fun task running => by simp [EventLoop.fresh, Service.fresh, Service.Running] at running
  idle := fun _ task running => by simp [EventLoop.fresh, Service.fresh, Service.Running] at running
  joining := fun _ _ held => nomatch held
  holder := fun _ _ held => nomatch held

omit [DecidableEq C] [DecidableEq W] in
theorem single (sound : Sound s) : Single s where
  unique := fun task other running also =>
    Option.some.inj ((sound.handled task running).symm.trans (sound.handled other also))
  ceases := fun empty task running => by
    obtain ⟨party, held⟩ := sound.idle empty task running
    exact (sound.joining party task held).2.2 running
  ended := fun empty free task running => by
    obtain ⟨party, held⟩ := sound.idle empty task running
    rw [free] at held
    cases held

omit [DecidableEq C] [DecidableEq W] in
theorem of_same (sound : Sound s) (service : next.service = s.service) (lock : next.lock = s.lock)
    (cancelling : next.cancelling = s.cancelling) : Sound next where
  handled := service ▸ sound.handled
  idle := by rw [service, lock]; exact sound.idle
  joining := by rw [service, lock, cancelling]; exact sound.joining
  holder := by rw [service, lock]; exact sound.holder

omit [DecidableEq C] [DecidableEq W] in
theorem of_free (handled : s.service.Handled) (free : s.lock = none)
    (idle : s.service.subscriptions.keys = [] → ∀ task, ¬s.service.Running task) : Sound s where
  handled := handled
  idle := fun empty task running => absurd running (idle empty task)
  joining := fun party task held => by rw [free] at held; cases held
  holder := fun task await held => by rw [free] at held; cases held

omit [DecidableEq W] in
theorem release (handled : s.service.Handled)
    (idle : s.service.subscriptions.keys = [] → ∀ task, ¬s.service.Running task) (party : Party C) (ending : Ending) :
    Sound (s.release party ending) := by
  refine of_free (fun task running => ?_) (lock_release s party ending) fun empty task running => ?_
  · rw [pubsubTask_release]
    exact handled task (running_of_release running)
  · rw [subscriptions_release] at empty
    exact idle empty task (running_of_release running)

omit [DecidableEq W] in
theorem join (handled : s.service.Handled) {task : Nat} (stored : s.service.pubsubTask = some task)
    (ceased : ¬s.service.Running task) (party : Party C) : Sound (s.join party task) := by
  have none : ∀ other, ¬s.service.Running other := fun other running => by
    cases stored.symm.trans (handled other running)
    exact ceased running
  unfold EventLoop.join
  split
  · exact release handled (fun _ => none) party .raised
  · exact release (s := { s with service := { s.service with pubsubTask := Option.none } })
      (fun other running => absurd running (none other)) (fun _ => none) party .returned

omit [DecidableEq W] in
theorem stopPolling (handled : s.service.Handled) {party : Party C}
    (unfinished : ∀ task, party = .task task → s.service.Running task) : Sound (s.stopPolling party) := by
  unfold EventLoop.stopPolling
  split
  case h_1 noHandle =>
    refine release handled (fun _ task running => ?_) party .returned
    rw [handled task running] at noHandle
    cases noHandle
  case h_2 task stored =>
    split
    case isFalse occupied => exact release handled (fun empty => absurd empty occupied) party .returned
    case isTrue empty =>
      split
      case isFalse ceased => exact join handled stored ceased party
      case isTrue running =>
        exact {
          handled := handled
          idle := fun _ other also => by
            cases stored.symm.trans (handled other also)
            exact ⟨party, rfl⟩
          joining := fun _ _ held => by
            cases held
            exact ⟨empty, stored, fun _ => Function.update_self ..⟩
          holder := fun other _ held => by
            cases held
            exact unfinished other rfl }

theorem unsubscribe (sound : Sound s) {party : Party C}
    (unfinished : ∀ task, party = .task task → s.service.Running task) (feed : String) (websocket : W) :
    Sound (s.unsubscribe party feed websocket) := by
  unfold EventLoop.unsubscribe
  split
  case h_1 => exact stopPolling sound.handled unfinished
  case h_2 clients _ =>
    have handled : (s.service.discarded feed websocket).Handled := sound.handled
    dsimp only
    split
    case isFalse =>
      exact stopPolling (s := { s with service := s.service.discarded feed websocket }) handled unfinished
    case isTrue =>
      have member : feed ∈ (s.service.discarded feed websocket).subscriptions := by simp [Service.discarded]
      exact {
        handled := handled
        idle := fun empty => absurd member (Dict.keys_eq_nil_iff.mp empty feed)
        joining := fun _ _ held => by cases held
        holder := fun other _ held => by
          cases held
          exact unfinished other rfl }

omit [DecidableEq W] in
theorem endTask (sound : Sound s) {task : Nat} (apart : s.awaited task = none) {how : TaskState}
    (ceased : how ≠ .running) : Sound (s.endTask task how) where
  handled := fun other running => sound.handled other ((Service.running_set ceased).mp running).2
  idle := fun empty other running => by
    obtain ⟨party, held⟩ := sound.idle empty other ((Service.running_set ceased).mp running).2
    refine ⟨party, Option.filter_eq_some_iff.mpr ⟨held, ?_⟩⟩
    have other : party ≠ .task task := by
      rintro rfl
      rw [awaited_eq_some.mpr held] at apart
      cases apart
    simpa using other
  joining := fun party other held => by
    obtain ⟨empty, stored, cancelled⟩ := sound.joining party other (Option.filter_eq_some_iff.mp held).1
    exact ⟨empty, stored, fun running => cancelled ((Service.running_set ceased).mp running).2⟩
  holder := fun other await held => by
    obtain ⟨held, unlike⟩ := Option.filter_eq_some_iff.mp held
    have apart : other ≠ task := by simpa using unlike
    exact (Service.running_set ceased).mpr ⟨apart, sound.holder other await held⟩

theorem register (handled : s.service.Handled) (party : Party C) (feed : String) (websocket : W) :
    Sound (s.register party feed websocket) := by
  refine release (s := { s with service := s.service.startPolling.addClient feed websocket })
    handled.startPolling (fun empty => ?_) party .returned
  have member : feed ∈ (s.service.startPolling.addClient feed websocket).subscriptions := by simp [Service.addClient]
  exact absurd member (Dict.keys_eq_nil_iff.mp empty feed)

theorem enter {id : C} (sound : Sound s) (one : s.perform (.enter id) = some next) : Sound next := by
  simp only [perform] at one
  split at one
  case h_1 feed websocket _ _ =>
    split at one
    case isTrue member =>
      cases one
      exact register sound.handled (.call id) feed websocket
    case isFalse missing =>
      cases one
      have member : feed ∈ (s.service.halfOpen feed).subscriptions := by simp [Service.halfOpen]
      exact {
        handled := sound.handled
        idle := fun empty => absurd member (Dict.keys_eq_nil_iff.mp empty feed)
        joining := fun _ _ held => by cases held
        holder := fun _ _ held => by cases held }
  case h_2 feed rest websocket _ _ =>
    cases one
    exact sound.unsubscribe (fun _ same => by cases same) feed websocket
  case h_3 =>
    cases one
    exact sound.of_same rfl rfl rfl
  case h_4 => cases one

theorem proceed {redis : Ending} (sound : Sound s) (one : s.perform (.proceed redis) = some next) : Sound next := by
  -- at another await than that of a task, no task is left without a feed
  have idle (apart : s.Unjoined) (empty : s.service.subscriptions.keys = []) (task : Nat) :
      ¬s.service.Running task := by
    intro running
    obtain ⟨party, held⟩ := sound.idle empty task running
    exact apart party task held
  simp only [perform] at one
  split at one
  case h_1 => cases one
  case h_2 party task held =>
    split at one
    case isTrue => cases one
    case isFalse ceased =>
      cases one
      exact join sound.handled (sound.joining party task held).2.1 ceased party
  case h_3 party await other held =>
    cases one
    exact release sound.handled (idle (unjoined_of_held held other)) party .raised
  case h_4 party feed websocket held =>
    cases one
    exact register (s := { s with service := s.service.listening feed }) sound.handled party feed websocket
  case h_5 party feed held =>
    cases one
    refine stopPolling (s := { s with service := s.service.silenced feed }) sound.handled fun task same => ?_
    rw [same] at held
    exact sound.holder task _ held

theorem step {move : Move C W} (sound : Sound s) (client : ¬move.OfStop) (alone : ¬s.AwaitsItself move)
    (one : s.step move = some next) : Sound next := by
  obtain ⟨resumable, one⟩ := step_eq_some.mp one
  cases move with
  | start | subscribe | unsubscribe | disconnect | message | send | turn =>
      obtain ⟨service, lock, cancelling⟩ := perform_quiet one trivial
      exact sound.of_same service lock cancelling
  | stop | stopped => exact absurd trivial client
  | enter id => exact sound.enter one
  | proceed redis => exact sound.proceed one
  | clean task =>
      simp only [perform] at one
      split at one
      case h_1 channel websocket rest _ _ =>
        cases one
        refine sound.unsubscribe (fun other same => ?_) channel websocket
        cases same
        exact resumable.1
      case h_2 => cases one
  | deliver task =>
      simp only [perform] at one
      split at one
      case h_1 apart =>
        cases one
        exact sound.endTask apart (by simp)
      case h_2 other awaits =>
        -- the holder of the lock is unfinished, so it is the task whose handle is stored
        have held := awaited_eq_some.mp awaits
        have same := (sound.handled task resumable.1).symm.trans (sound.joining _ other held).2.1
        cases same
        exact absurd awaits alone
  | crash task runtimeError =>
      simp only [perform] at one
      split at one
      case h_1 apart =>
        cases one
        exact sound.endTask apart (by simp)
      case h_2 => cases one

end EventLoop.Sound

namespace EventLoop

/-- Resumed from waiting for itself, a task goes on polling with no feed left
and no handle to it. -/
theorem not_single_of_awaitsItself {s : EventLoop C W} {move : Move C W} (sound : Sound s)
    (awaits : s.AwaitsItself move) : ∃ next, s.step move = some next ∧ ¬Single next := by
  cases move with
  | deliver task =>
      have held := awaited_eq_some.mp awaits
      obtain ⟨empty, -, cancelled⟩ := sound.joining _ task held
      have running := sound.holder task _ held
      have found : s.awaited task = some task := awaits
      refine ⟨s.swallow task, step_eq_some.mpr ⟨⟨running, cancelled running⟩, by simp [perform, found]⟩, ?_⟩
      intro single
      have still := single.ceases empty task running
      simp [swallow] at still
  | _ => exact awaits.elim

theorem single_iff (moves : List (Move C W)) (clients : ∀ move ∈ moves, ¬move.OfStop) :
    Along step (fun s move => ∀ next, s.step move = some next → next.Single) moves .fresh ↔
      Along step (fun s move => ¬s.AwaitsItself move) moves .fresh := by
  refine along_congr_on Sound Sound.step (fun {s move} sound client => ⟨fun single awaits => ?_, fun alone next one => ?_⟩)
    Sound.fresh clients
  · obtain ⟨next, one, double⟩ := not_single_of_awaitsItself sound awaits
    exact double (single next one)
  · exact (sound.step client alone one).single

def firstClient (id : Nat) (feed : String) (websocket : Nat) : List (Move Nat Nat) :=
  [.subscribe id feed websocket, .enter id, .proceed .returned]

def lastClientLeaves : List (Move Nat Nat) :=
  firstClient 0 "scanners:top_gainers" 1 ++
    [.unsubscribe 0 "scanners:top_gainers" 1, .enter 0, .proceed .returned, .deliver 0, .proceed .returned]

/-- A send to the only client fails, and the polling task removes it. -/
def lastClientFails : List (Move Nat Nat) :=
  firstClient 0 "scanners:top_gainers" 1 ++
    [.message 0 ⟨.message, none, "scanners:top_gainers", "[]"⟩ [1], .send 0 true, .turn 0, .clean 0, .proceed .returned,
      .deliver 0]

theorem single_iff_lastClientLeaves :
    Along step (fun s move => ∀ next, s.step move = some next → next.Single) lastClientLeaves .fresh ↔
      Along step (fun s move => ¬s.AwaitsItself move) lastClientLeaves .fresh := by
  refine single_iff lastClientLeaves fun move member => ?_
  simp only [lastClientLeaves, firstClient, List.cons_append, List.nil_append, List.mem_cons, List.not_mem_nil,
    or_false] at member
  rcases member with rfl | rfl | rfl | rfl | rfl | rfl | rfl | rfl <;> exact id

/-- The task that removed its last client goes on, and the next client starts
a second one. -/
theorem two_tasks_poll :
    ¬Along step (fun s move => ∀ next, s.step move = some next → next.Single)
      (lastClientFails ++ firstClient 1 "leaderboard:top_volume" 2) .fresh := by
  intro along
  have allowed : Along step (fun s move => ∀ next, s.step move = some next → next.Single)
      ((lastClientFails ++ [.subscribe 1 "leaderboard:top_volume" 2, .enter 1]) ++ .proceed .returned :: []) .fresh :=
    along
  have single := allowed.at_step _ rfl _ rfl
  exact absurd (single.unique 0 1 rfl rfl) (by decide)

/-! Whether a client that has just subscribed is served. -/

def SubscribeReturns (s : EventLoop C W) : Move C W → Prop
  | .enter id => s.lock = none ∧
      ∃ feed websocket, s.calls id = some (.subscribe feed websocket) ∧ feed ∈ s.service.subscriptions
  | .proceed redis => redis = .returned ∧
      ∃ id feed websocket, s.lock = some (.call id, .opening feed websocket)
  | _ => False

/-- A task polls already, or no handle is stored and the feed is the only one. -/
def Startable (s : Service W) : Prop :=
  (∃ task, s.Running task) ∨ s.pubsubTask = none ∧ s.subscriptions.keys.length = 1

theorem running_register (s : EventLoop C W) (party : Party C) (feed : String) (websocket : W) :
    (∃ task, (s.register party feed websocket).service.Running task) ↔ Startable s.service := by
  have same (task : Nat) : (s.register party feed websocket).service.Running task ↔
      s.service.startPolling.Running task := by rw [register, service_release_returned]; rfl
  simp only [same, Service.running_startPolling, Startable, exists_or, exists_and_left, exists_eq, and_true]
  rw [and_comm]

theorem subscribeReturns_spec {s : EventLoop C W} {move : Move C W} (returns : s.SubscribeReturns move) :
    ∃ next, s.step move = some next ∧ ((∃ task, next.service.Running task) ↔ Startable s.service) := by
  cases move with
  | enter id =>
      obtain ⟨free, feed, websocket, pending, member⟩ := returns
      refine ⟨_, step_eq_some.mpr ⟨trivial, ?_⟩, running_register s (.call id) feed websocket⟩
      simp only [perform, free, pending, member, if_true]
  | proceed redis =>
      obtain ⟨rfl, id, feed, websocket, held⟩ := returns
      have resumable : s.Resumable (.proceed .returned) := fun task await other => by
        cases held.symm.trans other
      refine ⟨_, step_eq_some.mpr ⟨resumable, ?_⟩,
        running_register { s with service := s.service.listening feed } (.call id) feed websocket⟩
      simp only [perform, held]
  | _ => exact returns.elim

end EventLoop

/-- Nobody stops the service, no polling task fails and Redis answers. -/
def Move.Orderly : Move C W → Prop
  | .stop _ | .stopped _ | .crash .. => False
  | .proceed redis => redis = .returned
  | _ => True

namespace EventLoop

/-- The stored handle is that of an unfinished task whenever there is a feed,
except while the first `subscribe` is under way. -/
structure Attended (s : EventLoop C W) : Prop where
  handleless : s.service.pubsubTask = none → s.service.subscriptions.keys = [] ∨
    s.service.subscriptions.keys.length = 1 ∧ ∃ party feed websocket, s.lock = some (party, .opening feed websocket)
  handle : ∀ task, s.service.pubsubTask = some task →
    (∃ party, s.lock = some (party, .joining task)) ∨ s.service.Running task ∧ s.service.subscriptions.keys ≠ []
  joining : ∀ party task, s.lock = some (party, .joining task) → s.service.subscriptions.keys = []
  opening : ∀ party feed websocket, s.lock = some (party, .opening feed websocket) → s.service.subscriptions.keys ≠ []
  cancelling : ∀ task, s.cancelling task = true →
    task < s.service.tasks.length ∧ (s.service.Running task → ∃ party, s.lock = some (party, .joining task))
  unfailed : ∀ (task : Nat) (runtimeError : Bool), s.service.tasks[task]? ≠ some (.failed runtimeError)

namespace Attended

variable {s next : EventLoop C W}

omit [DecidableEq C] [DecidableEq W] in
theorem fresh : Attended (.fresh : EventLoop C W) where
  handleless := fun _ => .inl rfl
  handle := fun _ stored => nomatch stored
  joining := fun _ _ held => nomatch held
  opening := fun _ _ _ held => nomatch held
  cancelling := fun _ cancelled => nomatch cancelled
  unfailed := fun task _ failed => by simp [EventLoop.fresh, Service.fresh] at failed

omit [DecidableEq C] [DecidableEq W] in
theorem of_same (attended : Attended s) (service : next.service = s.service) (lock : next.lock = s.lock)
    (cancelling : next.cancelling = s.cancelling) : Attended next where
  handleless := by rw [service, lock]; exact attended.handleless
  handle := by rw [service, lock]; exact attended.handle
  joining := by rw [service, lock]; exact attended.joining
  opening := by rw [service, lock]; exact attended.opening
  cancelling := by rw [service, lock, cancelling]; exact attended.cancelling
  unfailed := by rw [service]; exact attended.unfailed

structure Calm (s : EventLoop C W) : Prop where
  cancelling : ∀ task, s.cancelling task = true → task < s.service.tasks.length ∧ ¬s.service.Running task
  unfailed : ∀ (task : Nat) (runtimeError : Bool), s.service.tasks[task]? ≠ some (.failed runtimeError)

omit [DecidableEq C] [DecidableEq W] in
theorem Calm.accounted (calm : Calm s) {waited : Nat → Prop} (task : Nat) (cancelled : s.cancelling task = true) :
    task < s.service.tasks.length ∧ (s.service.Running task → waited task) := by
  obtain ⟨born, ceased⟩ := calm.cancelling task cancelled
  exact ⟨born, fun running => absurd running ceased⟩

omit [DecidableEq C] [DecidableEq W] in
theorem calm (attended : Attended s) (apart : s.Unjoined) : Calm s where
  cancelling := fun task cancelled => by
    obtain ⟨born, joins⟩ := attended.cancelling task cancelled
    refine ⟨born, fun running => ?_⟩
    obtain ⟨party, held⟩ := joins running
    exact apart party task held
  unfailed := attended.unfailed

omit [DecidableEq C] [DecidableEq W] in
theorem polls (attended : Attended s) (apart : s.Unjoined) {task : Nat} (stored : s.service.pubsubTask = some task) :
    s.service.Running task ∧ s.service.subscriptions.keys ≠ [] := by
  rcases attended.handle task stored with ⟨party, held⟩ | polls
  · exact absurd held (apart party task)
  · exact polls

omit [DecidableEq C] [DecidableEq W] in
theorem empty (attended : Attended s) (free : s.lock = none) (none : s.service.pubsubTask = none) :
    s.service.subscriptions.keys = [] := by
  rcases attended.handleless none with empty | ⟨-, _, _, _, held⟩
  · exact empty
  · cases free.symm.trans held

omit [DecidableEq W] in
theorem release (calm : Calm s) (handleless : s.service.pubsubTask = none → s.service.subscriptions.keys = [])
    (handle : ∀ task, s.service.pubsubTask = some task → s.service.Running task ∧ s.service.subscriptions.keys ≠ [])
    (party : Party C) : Attended (s.release party .returned) := by
  have free : (s.release party .returned).lock = none := lock_release s party .returned
  have same : (s.release party .returned).service = s.service := service_release_returned s party
  constructor
  · rw [same]
    exact fun none => .inl (handleless none)
  · rw [same]
    exact fun task stored => .inr (handle task stored)
  · exact fun _ _ held => by rw [free] at held; cases held
  · exact fun _ _ _ held => by rw [free] at held; cases held
  · rw [same, cancelling_release]
    exact calm.accounted
  · rw [same]
    exact calm.unfailed

omit [DecidableEq W] in
theorem stopPolling (calm : Calm s) (handleless : s.service.pubsubTask = none → s.service.subscriptions.keys = [])
    (handle : ∀ task, s.service.pubsubTask = some task → s.service.Running task) (party : Party C) :
    Attended (s.stopPolling party) := by
  unfold EventLoop.stopPolling
  split
  case h_1 none => exact release calm handleless (fun task stored => by rw [none] at stored; cases stored) party
  case h_2 task stored =>
    have running := handle task stored
    split
    case isFalse occupied => exact release calm handleless (fun task stored => ⟨handle task stored, occupied⟩) party
    case isTrue empty =>
      exact {
        handleless := fun _ => .inl empty
        handle := fun other also => by
          cases stored.symm.trans also
          exact .inl ⟨party, rfl⟩
        joining := fun _ _ _ => empty
        opening := fun _ _ _ held => nomatch held
        cancelling := fun other cancelled => by
          by_cases same : other = task
          · subst same
            exact ⟨(List.getElem?_eq_some_iff.mp running).1, fun _ => ⟨party, rfl⟩⟩
          · have before : s.cancelling other = true := by simpa [EventLoop.cancel, same] using cancelled
            obtain ⟨born, ceased⟩ := calm.cancelling other before
            exact ⟨born, fun also => absurd also ceased⟩
        unfailed := calm.unfailed }

theorem unsubscribe (attended : Attended s) (free : s.lock = none) (party : Party C) (feed : String) (websocket : W) :
    Attended (s.unsubscribe party feed websocket) := by
  have apart := unjoined_of_free free
  have calm := attended.calm apart
  unfold EventLoop.unsubscribe
  split
  case h_1 => exact stopPolling calm (attended.empty free) (fun task stored => (attended.polls apart stored).1) party
  case h_2 clients found =>
    have member : feed ∈ s.service.subscriptions := Dict.mem_iff_get.mpr ⟨clients, found⟩
    -- so a handle is stored, and its task polls
    have stored : s.service.pubsubTask ≠ none := fun none =>
      Dict.keys_eq_nil_iff.mp (attended.empty free none) feed member
    have kept : (s.service.discarded feed websocket).subscriptions.keys ≠ [] := fun empty =>
      absurd (Dict.mem_set.mpr (.inl rfl)) (Dict.keys_eq_nil_iff.mp empty feed)
    have calm : Calm { s with service := s.service.discarded feed websocket } := ⟨calm.cancelling, calm.unfailed⟩
    dsimp only
    split
    case isFalse =>
      exact stopPolling calm (fun none => absurd none stored) (fun task stored => (attended.polls apart stored).1) party
    case isTrue =>
      exact {
        handleless := fun none => absurd none stored
        handle := fun task stored => .inr ⟨(attended.polls apart stored).1, kept⟩
        joining := fun _ _ held => nomatch held
        opening := fun _ _ _ held => nomatch held
        cancelling := calm.accounted
        unfailed := calm.unfailed }

omit [DecidableEq C] [DecidableEq W] in
theorem startable (attended : Attended s) {move : Move C W} (returns : s.SubscribeReturns move) :
    Startable s.service := by
  have occupied : s.service.subscriptions.keys ≠ [] ∧ s.Unjoined := by
    cases move with
    | enter id =>
        obtain ⟨free, feed, websocket, -, member⟩ := returns
        exact ⟨List.ne_nil_of_mem member, unjoined_of_free free⟩
    | proceed redis =>
        obtain ⟨-, id, feed, websocket, held⟩ := returns
        exact ⟨attended.opening _ _ _ held, unjoined_of_held held fun _ same => (nomatch same)⟩
    | _ => exact returns.elim
  cases stored : s.service.pubsubTask with
  | none =>
      rcases attended.handleless stored with empty | ⟨one, -⟩
      · exact absurd empty occupied.1
      · exact .inr ⟨stored, one⟩
  | some task => exact .inl ⟨task, (attended.polls occupied.2 stored).1⟩

omit [DecidableEq C] [DecidableEq W] in
theorem Calm.startPolling (calm : Calm s) : Calm { s with service := s.service.startPolling } where
  cancelling := fun task cancelled => by
    obtain ⟨born, ceased⟩ := calm.cancelling task cancelled
    refine ⟨?_, fun running => ?_⟩
    · unfold Service.startPolling
      split
      · exact Nat.lt_of_lt_of_le born (by simp [Service.createTask])
      · exact born
    · rcases Service.running_startPolling.mp running with old | ⟨-, rfl⟩
      · exact ceased old
      · exact absurd born (Nat.lt_irrefl _)
  unfailed := fun task runtimeError => by
    unfold Service.startPolling
    split
    · simp only [Service.createTask, List.getElem?_append, ne_eq]
      split
      · exact calm.unfailed task runtimeError
      · cases task - s.service.tasks.length <;> simp
    · exact calm.unfailed task runtimeError

theorem register (calm : Calm s) (handleless : s.service.pubsubTask = none → s.service.subscriptions.keys.length = 1)
    (handle : ∀ task, s.service.pubsubTask = some task → s.service.Running task)
    (party : Party C) (feed : String) (websocket : W) : Attended (s.register party feed websocket) := by
  have keys : (s.service.startPolling.addClient feed websocket).subscriptions.keys ≠ [] := fun empty =>
    absurd (Dict.mem_set.mpr (.inl rfl)) (Dict.keys_eq_nil_iff.mp empty feed)
  have polls : ∃ task, s.service.startPolling.pubsubTask = some task ∧ s.service.startPolling.Running task := by
    cases stored : s.service.pubsubTask with
    | some task =>
        rw [Service.startPolling, if_neg (by simp [stored])]
        exact ⟨task, stored, handle task stored⟩
    | none =>
        rw [Service.startPolling, if_pos ⟨handleless stored, stored⟩]
        exact ⟨s.service.tasks.length, rfl, Service.running_createTask.mpr (.inr rfl)⟩
  obtain ⟨task, stored, running⟩ := polls
  have calm := calm.startPolling
  refine release (s := { s with service := s.service.startPolling.addClient feed websocket })
    ⟨calm.cancelling, calm.unfailed⟩ (fun none => ?_) (fun other also => ?_) party
  · cases stored.symm.trans none
  · cases stored.symm.trans also
    exact ⟨running, keys⟩

theorem enter {id : C} (attended : Attended s) (one : s.perform (.enter id) = some next) : Attended next := by
  simp only [perform] at one
  split at one
  case h_1 feed websocket free _ =>
    have apart := unjoined_of_free free
    have handle (task : Nat) (stored : s.service.pubsubTask = some task) : s.service.Running task :=
      (attended.polls apart stored).1
    split at one
    case isTrue member =>
      cases one
      exact register (attended.calm apart)
        (fun none => absurd member (Dict.keys_eq_nil_iff.mp (attended.empty free none) feed)) handle (.call id) feed
        websocket
    case isFalse missing =>
      cases one
      have added : (s.service.halfOpen feed).subscriptions.keys = s.service.subscriptions.keys ++ [feed] :=
        Dict.keys_set_of_notMem missing ∅
      have kept : (s.service.halfOpen feed).subscriptions.keys ≠ [] := by simp [added]
      have calm := attended.calm apart
      exact {
        handleless := fun none => .inr ⟨by simp [added, attended.empty free none], .call id, feed, websocket, rfl⟩
        handle := fun task stored => .inr ⟨handle task stored, kept⟩
        joining := fun _ _ held => by cases held
        opening := fun _ _ _ _ => kept
        cancelling := calm.accounted
        unfailed := attended.unfailed }
  case h_2 feed rest websocket free _ =>
    cases one
    exact attended.unsubscribe free (.call id) feed websocket
  case h_3 =>
    cases one
    exact attended.of_same rfl rfl rfl
  case h_4 => cases one

theorem proceed {redis : Ending} (attended : Attended s) (answers : redis = .returned)
    (one : s.perform (.proceed redis) = some next) : Attended next := by
  simp only [perform] at one
  split at one
  case h_1 => cases one
  case h_2 party task held =>
    split at one
    case isTrue => cases one
    case isFalse ceased =>
      cases one
      have empty := attended.joining party task held
      unfold EventLoop.join
      rw [if_neg (attended.unfailed task false)]
      refine release (s := { s with service := { s.service with pubsubTask := none } }) ⟨fun other cancelled => ?_,
        attended.unfailed⟩ (fun _ => empty) (fun _ stored => by cases stored) party
      obtain ⟨born, joins⟩ := attended.cancelling other cancelled
      refine ⟨born, fun running => ?_⟩
      obtain ⟨_, joined⟩ := joins running
      cases held.symm.trans joined
      exact ceased running
  case h_3 => cases answers
  case h_4 party feed websocket held =>
    cases one
    have apart := unjoined_of_held held fun _ same => by cases same
    have calm := attended.calm apart
    refine register (s := { s with service := s.service.listening feed }) ⟨calm.cancelling, calm.unfailed⟩
      (fun none => ?_) (fun task stored => (attended.polls apart stored).1) party feed websocket
    rcases attended.handleless none with empty | ⟨first, -⟩
    · exact absurd empty (attended.opening party feed websocket held)
    · exact first
  case h_5 party feed held =>
    cases one
    have apart := unjoined_of_held held fun _ same => by cases same
    have calm := attended.calm apart
    refine stopPolling (s := { s with service := s.service.silenced feed }) ⟨calm.cancelling, calm.unfailed⟩
      (fun none => ?_) (fun task stored => (attended.polls apart stored).1) party
    rcases attended.handleless none with empty | ⟨-, _, _, _, opens⟩
    · exact Dict.keys_eq_nil_iff.mpr fun other member =>
        Dict.keys_eq_nil_iff.mp empty other (Dict.mem_erase.mp member).2
    · cases held.symm.trans opens

omit [DecidableEq W] in
theorem endTask (attended : Attended s) {task : Nat} (running : s.service.Running task)
    (cancelled : s.cancelling task = true) (apart : s.awaited task = none) :
    Attended (s.endTask task .cancelled) := by
  obtain ⟨party, held⟩ := (attended.cancelling task cancelled).2 running
  have other : party ≠ .task task := by
    rintro rfl
    rw [awaited_eq_some.mpr held] at apart
    cases apart
  have lock : (s.endTask task .cancelled).lock = some (party, .joining task) :=
    Option.filter_eq_some_iff.mpr ⟨held, by simpa using other⟩
  have empty := attended.joining party task held
  have stays {other : Nat}
      (also : s.service.pubsubTask = some other ∨ s.service.Running other ∧ s.cancelling other = true) :
      other = task := by
    rcases also with stored | ⟨running, cancelled⟩
    · rcases attended.handle other stored with ⟨_, joins⟩ | ⟨-, occupied⟩
      · cases held.symm.trans joins
        rfl
      · exact absurd empty occupied
    · obtain ⟨_, joins⟩ := (attended.cancelling other cancelled).2 running
      cases held.symm.trans joins
      rfl
  constructor
  · exact fun _ => .inl empty
  · exact fun other stored => .inl ⟨party, by rw [lock, stays (.inl stored)]⟩
  · exact fun _ _ _ => empty
  · exact fun _ _ _ opens => by rw [lock] at opens; cases opens
  · intro other cancelling
    refine ⟨by simpa [EventLoop.endTask] using (attended.cancelling other cancelling).1, fun unfinished => ?_⟩
    have before := (Service.running_set (by simp)).mp unfinished
    exact ⟨party, by rw [lock, stays (.inr ⟨before.2, cancelling⟩)]⟩
  · intro other runtimeError
    simp only [EventLoop.endTask, List.getElem?_set]
    split
    · split <;> simp
    · exact attended.unfailed other runtimeError

omit [DecidableEq W] in
theorem swallow (attended : Attended s) {task other : Nat} (running : s.service.Running task)
    (cancelled : s.cancelling task = true) (awaits : s.awaited task = some other) : Attended (s.swallow task) := by
  have held := awaited_eq_some.mp awaits
  have empty := attended.joining _ other held
  refine release (s := { s with
    cancelling := Function.update s.cancelling task false
    service := { s.service with pubsubTask := none } }) ⟨fun also cancelling => ?_, attended.unfailed⟩ (fun _ => empty)
    (fun _ stored => nomatch stored) (.task task)
  change Function.update s.cancelling task false also = true at cancelling
  by_cases same : also = task
  · simp [same] at cancelling
  · rw [Function.update_of_ne same] at cancelling
    obtain ⟨born, joins⟩ := attended.cancelling also cancelling
    refine ⟨born, fun unfinished => ?_⟩
    obtain ⟨_, joined⟩ := joins unfinished
    obtain ⟨_, joinedToo⟩ := (attended.cancelling task cancelled).2 running
    cases joined.symm.trans joinedToo
    exact same rfl

theorem step {move : Move C W} (attended : Attended s) (orderly : move.Orderly) (one : s.step move = some next) :
    Attended next := by
  obtain ⟨resumable, one⟩ := step_eq_some.mp one
  cases move with
  | start | subscribe | unsubscribe | disconnect | message | send | turn =>
      obtain ⟨service, lock, cancelling⟩ := perform_quiet one trivial
      exact attended.of_same service lock cancelling
  | stop | stopped | crash => exact orderly.elim
  | enter id => exact attended.enter one
  | proceed redis => exact attended.proceed orderly one
  | clean task =>
      simp only [perform] at one
      split at one
      case h_1 channel websocket rest free _ =>
        cases one
        exact attended.unsubscribe free (.task task) channel websocket
      case h_2 => cases one
  | deliver task =>
      simp only [perform] at one
      split at one
      case h_1 apart =>
        cases one
        exact attended.endTask resumable.1 resumable.2 apart
      case h_2 other awaits =>
        split at one
        · cases one
          exact attended.swallow resumable.1 resumable.2 awaits
        · cases one

end Attended

/-- Along any run, a `subscribe` that returns leaves a polling task exactly when
it finds one or can start one; and it always does as long as nobody stops the
service, no polling task fails and Redis answers. -/
theorem polled_iff (moves : List (Move C W)) :
    (Along step (fun s move => s.SubscribeReturns move → ∀ next, s.step move = some next →
        ∃ task, next.service.Running task) moves .fresh ↔
      Along step (fun s move => s.SubscribeReturns move → Startable s.service) moves .fresh) ∧
    ((∀ move ∈ moves, move.Orderly) →
      Along step (fun s move => s.SubscribeReturns move → Startable s.service) moves .fresh) := by
  constructor
  · have same {s : EventLoop C W} {move : Move C W} : (s.SubscribeReturns move → ∀ next, s.step move = some next →
        ∃ task, next.service.Running task) ↔ (s.SubscribeReturns move → Startable s.service) := by
      refine forall_congr' fun returns => ?_
      obtain ⟨next, one, served⟩ := subscribeReturns_spec returns
      rw [← served]
      exact ⟨fun all => all next one, fun running other also => by cases one.symm.trans also; exact running⟩
    exact along_congr (fun _ => True) (fun _ _ _ => trivial) (fun _ => same) trivial
  · intro orderly
    refine Along.mono Attended ?_ ?_ Attended.fresh (along_of_forall orderly _)
    · exact fun attended orderly one => attended.step orderly one
    · exact fun attended _ returns => attended.startable returns

/-- The polling task of the first client ends with an error of `get_message`;
the next client's `subscribe` returns, and nothing polls. -/
theorem subscribe_unserved :
    ¬Along step (fun s move => s.SubscribeReturns move → ∀ next, s.step move = some next →
        ∃ task, next.service.Running task)
      (firstClient 0 "scanners:top_gainers" 1 ++
        [.crash 0 false, .subscribe 1 "scanners:top_gainers" 2, .enter 1]) .fresh := by
  intro along
  have allowed : Along step (fun s move => s.SubscribeReturns move → ∀ next, s.step move = some next →
      ∃ task, next.service.Running task)
      ((firstClient 0 "scanners:top_gainers" 1 ++ [.crash 0 false, .subscribe 1 "scanners:top_gainers" 2]) ++
        .enter 1 :: []) .fresh := along
  obtain ⟨task, running⟩ := allowed.at_step _ rfl ⟨rfl, "scanners:top_gainers", 2, rfl, by decide⟩ _ rfl
  cases task with
  | zero => cases running
  | succ task => cases running

end EventLoop
end KuhlHausMdp.WidgetDataService
