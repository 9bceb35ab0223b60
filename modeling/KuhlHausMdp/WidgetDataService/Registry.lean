import Mathlib.Data.Finset.Basic
import KuhlHausMdp.Library.Dict

/-! The registry of `WidgetDataService`: WebSocket clients per feed, the Redis
pub/sub subscriptions behind them and the polling task. Each operation runs
under the pub/sub lock, so it is one function of the state; the way its Redis
call ends is an argument, and changes made before a raising call stay. -/

set_option autoImplicit false

namespace KuhlHausMdp.WidgetDataService

inductive Ending where
  | returned
  | raised
  deriving DecidableEq, Repr

/-- The test `"*" in feed`. -/
def Wildcard (feed : String) : Prop := '*' ∈ feed.toList

instance (feed : String) : Decidable (Wildcard feed) := inferInstanceAs (Decidable ('*' ∈ feed.toList))

structure PubSub where
  channels : Finset String
  patterns : Finset String
  deriving DecidableEq

namespace PubSub

def subscribe (p : PubSub) (feed : String) : PubSub := { p with channels := insert feed p.channels }

def psubscribe (p : PubSub) (feed : String) : PubSub := { p with patterns := insert feed p.patterns }

def unsubscribe (p : PubSub) (feed : String) : PubSub := { p with channels := p.channels.erase feed }

def punsubscribe (p : PubSub) (feed : String) : PubSub := { p with patterns := p.patterns.erase feed }

/-- The branch on `"*" in feed` of `WidgetDataService.subscribe`. -/
def listen (p : PubSub) (feed : String) : PubSub :=
  if Wildcard feed then p.psubscribe feed else p.subscribe feed

/-- The branch on `"*" in feed` of `WidgetDataService.unsubscribe`. -/
def silence (p : PubSub) (feed : String) : PubSub :=
  if Wildcard feed then p.punsubscribe feed else p.unsubscribe feed

def Listens (p : PubSub) (feed : String) : Prop :=
  if Wildcard feed then feed ∈ p.patterns else feed ∈ p.channels

instance (p : PubSub) (feed : String) : Decidable (p.Listens feed) :=
  inferInstanceAs (Decidable (if Wildcard feed then feed ∈ p.patterns else feed ∈ p.channels))

def side (p : PubSub) (wild : Bool) : Finset String := if wild then p.patterns else p.channels

theorem mem_side_listen {p : PubSub} {feed other : String} {wild : Bool} :
    other ∈ (p.listen feed).side wild ↔ (other = feed ∧ decide (Wildcard feed) = wild) ∨ other ∈ p.side wild := by
  unfold listen
  split <;> cases wild <;> simp [side, psubscribe, subscribe, *]

theorem mem_side_silence {p : PubSub} {feed other : String} {wild : Bool} :
    other ∈ (p.silence feed).side wild ↔ (other ≠ feed ∨ decide (Wildcard feed) ≠ wild) ∧ other ∈ p.side wild := by
  unfold silence
  split <;> cases wild <;> simp [side, punsubscribe, unsubscribe, *]

end PubSub

/-- A `_handle_pubsub` task. `failed` says whether it ended with a `RuntimeError`. -/
inductive TaskState where
  | running
  | cancelled
  | failed (runtimeError : Bool)
  deriving DecidableEq, Repr

/-- The coroutine that calls `unsubscribe`: a client's own, or a polling task
removing a client whose send failed. -/
inductive Caller where
  | client
  | polling (task : Nat)
  deriving DecidableEq, Repr

/-- `pubsubTask` is the handle `_pubsub_task`; `tasks` are all polling tasks
created so far, a task being its position. -/
structure Service (W : Type*) where
  subscriptions : Dict String (Finset W)
  subscriptionCounter : Int
  pubsubTask : Option Nat
  tasks : List TaskState
  pubsub : PubSub

namespace Service

variable {W : Type*}

def fresh : Service W := ⟨∅, 0, none, [], ⟨∅, ∅⟩⟩

def clients (s : Service W) (feed : String) : Finset W := (s.subscriptions.get feed).getD ∅

def createTask (s : Service W) : Service W :=
  { s with tasks := s.tasks ++ [.running], pubsubTask := some s.tasks.length }

/-- `if len(self.subscriptions.keys()) == 1 and self._pubsub_task is None`. -/
def startPolling (s : Service W) : Service W :=
  if s.subscriptions.keys.length = 1 ∧ s.pubsubTask = none then s.createTask else s

/-- `if not self.subscriptions and self._pubsub_task`: cancel the task and await it.
A polling task that gets here awaits itself; the `CancelledError` it is resumed
with is swallowed by the handler, so it goes on running without a handle. -/
def stopPolling (caller : Caller) (s : Service W) : Ending × Service W :=
  match s.pubsubTask with
  | none => (.returned, s)
  | some task =>
      if s.subscriptions.keys = [] then
        match s.tasks[task]? with
        -- the await raises, and the handle stays
        | some (.failed false) => (.raised, s)
        | some .running =>
            if caller = .polling task then (.returned, { s with pubsubTask := none })
            else (.returned, { s with tasks := s.tasks.set task .cancelled, pubsubTask := none })
        | _ => (.returned, { s with pubsubTask := none })
      else (.returned, s)

theorem clients_of_get {s : Service W} {feed : String} {clients : Finset W}
    (found : s.subscriptions.get feed = some clients) : s.clients feed = clients := by
  rw [Service.clients, found, Option.getD_some]

theorem clients_of_notMem {s : Service W} {feed : String} (missing : feed ∉ s.subscriptions) :
    s.clients feed = ∅ := by
  simp [clients, Dict.get_eq_none_iff.mpr missing]

theorem mem_of_mem_clients {s : Service W} {feed : String} {websocket : W} (member : websocket ∈ s.clients feed) :
    feed ∈ s.subscriptions := by
  by_contra missing
  rw [clients_of_notMem missing] at member
  exact absurd member (Finset.notMem_empty websocket)

/-- The state when Redis raised: the feed is a key without clients. -/
def halfOpen (feed : String) (s : Service W) : Service W :=
  { s with
    subscriptions := s.subscriptions.set feed ∅
    subscriptionCounter := s.subscriptionCounter + 1 }

def opened (feed : String) (s : Service W) : Service W :=
  { s with
    subscriptions := s.subscriptions.set feed ∅
    subscriptionCounter := s.subscriptionCounter + 1
    pubsub := s.pubsub.listen feed }

theorem clients_opened (s : Service W) (feed other : String) :
    (s.opened feed).clients other = if other = feed then ∅ else s.clients other := by
  by_cases same : other = feed <;> simp [clients, opened, Dict.get_set, same]

/-! What the two helpers for the polling task leave alone. -/

@[simp] theorem subscriptions_startPolling (s : Service W) : s.startPolling.subscriptions = s.subscriptions := by
  unfold startPolling; split <;> rfl

@[simp] theorem pubsub_startPolling (s : Service W) : s.startPolling.pubsub = s.pubsub := by
  unfold startPolling; split <;> rfl

@[simp] theorem clients_startPolling (s : Service W) (feed : String) :
    s.startPolling.clients feed = s.clients feed := by
  simp [clients]

theorem stopPolling_cases (caller : Caller) (s : Service W) :
    ∃ ending tasks handle, s.stopPolling caller = (ending, { s with tasks := tasks, pubsubTask := handle }) := by
  unfold stopPolling
  split
  · exact ⟨_, _, _, rfl⟩
  · split
    · split
      · exact ⟨_, _, _, rfl⟩
      · split <;> exact ⟨_, _, _, rfl⟩
      · exact ⟨_, _, _, rfl⟩
    · exact ⟨_, _, _, rfl⟩

@[simp] theorem subscriptions_stopPolling (caller : Caller) (s : Service W) :
    (s.stopPolling caller).2.subscriptions = s.subscriptions := by
  obtain ⟨_, _, _, same⟩ := s.stopPolling_cases caller
  rw [same]

@[simp] theorem pubsub_stopPolling (caller : Caller) (s : Service W) :
    (s.stopPolling caller).2.pubsub = s.pubsub := by
  obtain ⟨_, _, _, same⟩ := s.stopPolling_cases caller
  rw [same]

variable [DecidableEq W]

def addClient (feed : String) (websocket : W) (s : Service W) : Service W :=
  { s with subscriptions := s.subscriptions.set feed (insert websocket (s.clients feed)) }

/-- `if feed not in self.subscriptions`: the key is written before Redis is called. -/
def openFeed (feed : String) (redis : Ending) (s : Service W) : Ending × Service W :=
  if feed ∈ s.subscriptions then (.returned, s)
  else
    let s := { s with
      subscriptions := s.subscriptions.set feed ∅
      subscriptionCounter := s.subscriptionCounter + 1 }
    match redis with
    -- nothing takes the key out again
    | .raised => (.raised, s)
    | .returned => (.returned, { s with pubsub := s.pubsub.listen feed })

def subscribe (feed : String) (websocket : W) (redis : Ending) (s : Service W) : Ending × Service W :=
  match s.openFeed feed redis with
  | (.raised, s) => (.raised, s)
  | (.returned, s) => (.returned, s.startPolling.addClient feed websocket)

/-- `if feed in self.subscriptions`: the client is discarded before Redis is called. -/
def leaveFeed (feed : String) (websocket : W) (redis : Ending) (s : Service W) : Ending × Service W :=
  match s.subscriptions.get feed with
  | none => (.returned, s)
  | some clients =>
      let s := { s with
        subscriptions := s.subscriptions.set feed (clients.erase websocket)
        subscriptionCounter := s.subscriptionCounter - 1 }
      if clients.erase websocket = ∅ then
        -- the key is deleted only after Redis has answered
        match redis with
        | .raised => (.raised, s)
        | .returned => (.returned, { s with
            pubsub := s.pubsub.silence feed
            subscriptions := s.subscriptions.erase feed })
      else (.returned, s)

def unsubscribe (feed : String) (websocket : W) (redis : Ending) (caller : Caller) (s : Service W) :
    Ending × Service W :=
  match s.leaveFeed feed websocket redis with
  | (.raised, s) => (.raised, s)
  | (.returned, s) => s.stopPolling caller

@[simp] theorem clients_addClient (s : Service W) (feed other : String) (websocket : W) :
    (s.addClient feed websocket).clients other =
      if other = feed then insert websocket (s.clients feed) else s.clients other := by
  by_cases same : other = feed <;> simp [clients, addClient, Dict.get_set, same]

@[simp] theorem pubsub_addClient (s : Service W) (feed : String) (websocket : W) :
    (s.addClient feed websocket).pubsub = s.pubsub := rfl

/-! `subscribe` by its three ways through. -/

theorem subscribe_of_mem {s : Service W} {feed : String} (member : feed ∈ s.subscriptions) (websocket : W)
    (redis : Ending) :
    s.subscribe feed websocket redis = (.returned, s.startPolling.addClient feed websocket) := by
  simp [subscribe, openFeed, member]

theorem subscribe_raised {s : Service W} {feed : String} (missing : feed ∉ s.subscriptions) (websocket : W) :
    s.subscribe feed websocket .raised = (.raised, s.halfOpen feed) := by
  simp [subscribe, openFeed, missing, halfOpen]

theorem subscribe_returned {s : Service W} {feed : String} (missing : feed ∉ s.subscriptions) (websocket : W) :
    s.subscribe feed websocket .returned = (.returned, (s.opened feed).startPolling.addClient feed websocket) := by
  simp [subscribe, openFeed, missing, opened]

/-! `unsubscribe` by its ways through. -/

def discarded (feed : String) (websocket : W) (s : Service W) : Service W :=
  { s with
    subscriptions := s.subscriptions.set feed ((s.clients feed).erase websocket)
    subscriptionCounter := s.subscriptionCounter - 1 }

def closed (feed : String) (websocket : W) (s : Service W) : Service W :=
  { s.discarded feed websocket with
    pubsub := s.pubsub.silence feed
    subscriptions := (s.discarded feed websocket).subscriptions.erase feed }

theorem leaveFeed_cases (feed : String) (websocket : W) (redis : Ending) (s : Service W) :
    (feed ∉ s.subscriptions ∧ s.leaveFeed feed websocket redis = (.returned, s)) ∨
    (feed ∈ s.subscriptions ∧ (s.clients feed).erase websocket ≠ ∅ ∧
      s.leaveFeed feed websocket redis = (.returned, s.discarded feed websocket)) ∨
    (feed ∈ s.subscriptions ∧ (s.clients feed).erase websocket = ∅ ∧
      s.leaveFeed feed websocket redis = match redis with
        | .raised => (.raised, s.discarded feed websocket)
        | .returned => (.returned, s.closed feed websocket)) := by
  cases found : s.subscriptions.get feed with
  | none => exact .inl ⟨Dict.get_eq_none_iff.mp found, by rw [leaveFeed, found]⟩
  | some clients =>
      have member : feed ∈ s.subscriptions := Dict.mem_iff_get.mpr ⟨clients, found⟩
      have same : s.clients feed = clients := clients_of_get found
      simp only [leaveFeed, found, same, closed, discarded]
      split
      case isTrue last => exact .inr (.inr ⟨member, last, rfl⟩)
      case isFalse others => exact .inr (.inl ⟨member, others, rfl⟩)

end Service
end KuhlHausMdp.WidgetDataService
