import Mathlib.Data.List.Perm.Basic
import KuhlHausMdp.Library.Dict
import KuhlHausMdp.WebSocketMessageSerde

/-! `MassiveDataQueues.handle_messages`: a batch of SDK messages is serialized
and routed as a whole, then published concurrently, each publish guarded on
its own. -/

set_option autoImplicit false

namespace KuhlHausMdp

namespace MassiveDataQueue

def AGGREGATE : String := "aggregate"
def TRADES : String := "trades"
def QUOTES : String := "quotes"
def HALTS : String := "halts"
def UNKNOWN : String := "unknown"

end MassiveDataQueue

def queueNameForWebSocketMessage : WebSocketMessage → String
  | .equityTrade _ => MassiveDataQueue.TRADES
  | .equityAgg _ => MassiveDataQueue.AGGREGATE
  | .equityQuote _ => MassiveDataQueue.QUOTES
  | .limitUpLimitDown _ => MassiveDataQueue.HALTS
  | .unhandled _ _ => MassiveDataQueue.UNKNOWN
  | .plain _ => MassiveDataQueue.UNKNOWN

/-- What the broker has taken: the routing key is the queue. -/
structure Publication (Text : Type*) where
  body : Text
  routingKey : String
  deriving DecidableEq

/-- How an awaited publish ends. A confirmation can be lost, so that it raises though
the broker has taken the message; without publisher confirms it can return though
the broker takes nothing. -/
structure Delivery where
  taken : Bool
  returned : Bool
  deriving DecidableEq

namespace Delivery

def confirmed : Delivery := ⟨true, true⟩
def refused : Delivery := ⟨false, false⟩

end Delivery

/-- `channels` and `exchanges` are the keys of the two dictionaries;
`connectionStatus` counts what was published to each queue. -/
structure MassiveDataQueues (Text : Type*) where
  channels : List String
  connection : Bool
  exchanges : List String
  messagesReceived : Nat
  connectionStatus : Dict String Nat
  errorCounter : Nat
  published : List (Publication Text)

namespace MassiveDataQueues

open WebSocketMessageSerde

variable {Text : Type*}

def queues : List String := [
  MassiveDataQueue.TRADES,
  MassiveDataQueue.AGGREGATE,
  MassiveDataQueue.QUOTES,
  MassiveDataQueue.HALTS,
  MassiveDataQueue.UNKNOWN]

def fresh : MassiveDataQueues Text where
  channels := []
  connection := false
  exchanges := []
  messagesReceived := 0
  connectionStatus := Dict.update ∅ (queues.map fun q => (q, 0))
  errorCounter := 0
  published := []

def connect (self : MassiveDataQueues Text) : MassiveDataQueues Text :=
  { self with channels := queues, connection := true, exchanges := queues }

structure Offer where
  message : WebSocketMessage
  delivery : Delivery

/-- An entry of `publish_tasks`. -/
structure Task (Text : Type*) where
  body : Text
  queueName : String
  delivery : Delivery

/-- The loop before any publish, with no tasks when a message does not serialize. -/
def prebuild (json : Json Text) : List Offer → MassiveDataQueues Text → Option (List (Task Text)) × MassiveDataQueues Text
  | [], self => (some [], self)
  | offer :: rest, self =>
      let self := { self with messagesReceived := self.messagesReceived + 1 }
      match serialize json offer.message with
      | none => (none, self)
      | some body =>
          let (tasks, self) := prebuild json rest self
          (tasks.map (⟨body, queueNameForWebSocketMessage offer.message, offer.delivery⟩ :: ·), self)

/-- `_publish_message`: a missing exchange and a publish that raises are logged. -/
def publishMessage (self : MassiveDataQueues Text) (task : Task Text) : MassiveDataQueues Text :=
  if task.queueName ∈ self.exchanges then
    { self with
      published := if task.delivery.taken then self.published ++ [⟨task.body, task.queueName⟩] else self.published
      connectionStatus :=
        if task.delivery.returned then
          self.connectionStatus.set task.queueName ((self.connectionStatus.get task.queueName).getD 0 + 1)
        else self.connectionStatus }
  else self

def Initialized (self : MassiveDataQueues Text) : Prop := self.channels ≠ [] ∧ self.connection = true

inductive HandleError where
  | rabbitMQChannelsNotInitialized
  | rabbitMQConnectionNotInitialized
  | notJsonSerializable
  deriving DecidableEq, Repr

/-- The ways `handle_messages` can go; `order` is the order in which the
gathered publishes reach the broker. -/
inductive HandleMessages (json : Json Text) (self : MassiveDataQueues Text) (msgs : List Offer) :
    Except HandleError Unit → MassiveDataQueues Text → Prop where
  | noChannels : self.channels = [] →
      HandleMessages json self msgs (.error .rabbitMQChannelsNotInitialized) self
  | noConnection : self.channels ≠ [] → self.connection = false →
      HandleMessages json self msgs (.error .rabbitMQConnectionNotInitialized) self
  | unserializable (prepared : MassiveDataQueues Text) :
      self.Initialized → prebuild json msgs self = (none, prepared) →
      HandleMessages json self msgs (.error .notJsonSerializable)
        { prepared with errorCounter := prepared.errorCounter + 1 }
  | gathered (tasks order : List (Task Text)) (prepared : MassiveDataQueues Text) :
      self.Initialized → prebuild json msgs self = (some tasks, prepared) → order.Perm tasks →
      HandleMessages json self msgs (.ok ()) (order.foldl publishMessage prepared)

def Serializes (json : Json Text) (offer : Offer) : Prop := (serialize json offer.message).isSome

def Accepts (self : MassiveDataQueues Text) (offer : Offer) : Prop :=
  queueNameForWebSocketMessage offer.message ∈ self.exchanges ∧ offer.delivery.taken = true

instance (self : MassiveDataQueues Text) (offer : Offer) : Decidable (self.Accepts offer) :=
  inferInstanceAs (Decidable (_ ∧ _))

/-- The publications owed for a batch: one for each message that serializes
and which the broker takes, to the queue of its own type. -/
def due (json : Json Text) (self : MassiveDataQueues Text) (msgs : List Offer) : List (Publication Text) :=
  msgs.filterMap fun offer =>
    if self.Accepts offer then
      (serialize json offer.message).map (⟨·, queueNameForWebSocketMessage offer.message⟩)
    else none

/-- However the batch goes, what is owed is published once, and nothing else. -/
def Isolated (json : Json Text) (self : MassiveDataQueues Text) (msgs : List Offer) : Prop :=
  ∀ ending after, HandleMessages json self msgs ending after → after.published.Perm (self.published ++ due json self msgs)

variable {json : Json Text} {self : MassiveDataQueues Text}

theorem published_publishMessage (self : MassiveDataQueues Text) (task : Task Text) :
    (self.publishMessage task).published = self.published ++
      if task.queueName ∈ self.exchanges ∧ task.delivery.taken then [⟨task.body, task.queueName⟩] else [] := by
  unfold publishMessage
  by_cases known : task.queueName ∈ self.exchanges
  · by_cases taken : task.delivery.taken = true
    · simp [known, taken]
    · simp [known, taken]
  · simp [known]

theorem exchanges_publishMessage (self : MassiveDataQueues Text) (task : Task Text) :
    (self.publishMessage task).exchanges = self.exchanges := by
  unfold publishMessage
  split <;> rfl

theorem published_foldl (tasks : List (Task Text)) (self : MassiveDataQueues Text) :
    (tasks.foldl publishMessage self).published = self.published ++ tasks.flatMap fun task =>
      if task.queueName ∈ self.exchanges ∧ task.delivery.taken then [⟨task.body, task.queueName⟩] else [] := by
  induction tasks generalizing self with
  | nil => simp
  | cons task rest ih =>
      rw [List.foldl_cons, ih, published_publishMessage, exchanges_publishMessage, List.flatMap_cons,
        List.append_assoc]

theorem prebuild_snd (json : Json Text) (msgs : List Offer) (self : MassiveDataQueues Text) :
    (prebuild json msgs self).2.published = self.published ∧ (prebuild json msgs self).2.exchanges = self.exchanges := by
  induction msgs generalizing self with
  | nil => exact ⟨rfl, rfl⟩
  | cons offer rest ih =>
      unfold prebuild
      split
      · exact ⟨rfl, rfl⟩
      · exact ih _

/-- One message that does not serialize leaves the batch without tasks. -/
theorem prebuild_eq_none_iff {msgs : List Offer} :
    (prebuild json msgs self).1 = none ↔ ∃ offer ∈ msgs, ¬Serializes json offer := by
  induction msgs generalizing self with
  | nil => simp [prebuild]
  | cons offer rest ih =>
      unfold prebuild
      cases written : serialize json offer.message with
      | none => simp [Serializes, written]
      | some body => simp [ih, Serializes, written]

theorem flatMap_of_prebuild {msgs : List Offer} {tasks : List (Task Text)} (self counted : MassiveDataQueues Text)
    (built : (prebuild json msgs counted).1 = some tasks) :
    (tasks.flatMap fun task =>
      if task.queueName ∈ self.exchanges ∧ task.delivery.taken then [(⟨task.body, task.queueName⟩ : Publication Text)]
      else []) = due json self msgs := by
  induction msgs generalizing counted tasks with
  | nil => cases built; rfl
  | cons offer rest ih =>
      unfold prebuild at built
      cases written : serialize json offer.message with
      | none => simp [written] at built
      | some body =>
          simp only [written, Option.map_eq_some_iff] at built
          obtain ⟨later, rest, rfl⟩ := built
          rw [List.flatMap_cons, ih _ rest]
          by_cases accepts : self.Accepts offer
          · have taken : queueNameForWebSocketMessage offer.message ∈ self.exchanges ∧ offer.delivery.taken = true := accepts
            simp [due, accepts, written, taken]
          · have refused : ¬(queueNameForWebSocketMessage offer.message ∈ self.exchanges ∧ offer.delivery.taken = true) := accepts
            simp [due, accepts, refused]

theorem due_eq_nil_iff {msgs : List Offer} :
    due json self msgs = [] ↔ ∀ offer ∈ msgs, Serializes json offer → ¬self.Accepts offer := by
  rw [due, List.filterMap_eq_nil_iff]
  refine forall₂_congr fun offer _ => ?_
  by_cases accepts : self.Accepts offer <;> simp [accepts, Serializes]

theorem published_of_raised {msgs : List Offer} {ending : Except HandleError Unit}
    {after : MassiveDataQueues Text} (handled : HandleMessages json self msgs ending after)
    (raised : ¬(self.Initialized ∧ ∀ offer ∈ msgs, Serializes json offer)) : after.published = self.published := by
  cases handled with
  | noChannels => rfl
  | noConnection => rfl
  | unserializable prepared _ built =>
      change prepared.published = self.published
      rw [← (prebuild_snd json msgs self).1, built]
  | gathered tasks _ prepared ready built =>
      refine absurd ⟨ready, ?_⟩ raised
      by_contra lost
      push Not at lost
      cases (prebuild_eq_none_iff.mpr lost).symm.trans (Prod.ext_iff.mp built).1

theorem published_of_gathered {msgs : List Offer} {tasks order : List (Task Text)} {prepared : MassiveDataQueues Text}
    (built : prebuild json msgs self = (some tasks, prepared)) (shuffled : order.Perm tasks) :
    (order.foldl publishMessage prepared).published.Perm (self.published ++ due json self msgs) := by
  obtain ⟨published, exchanges⟩ := prebuild_snd json msgs self
  simp only [built] at published exchanges
  rw [published_foldl, published, exchanges, ← flatMap_of_prebuild self self (Prod.ext_iff.mp built).1]
  exact (shuffled.flatMap_right _).append_left _

theorem handleMessages_exists (json : Json Text) (self : MassiveDataQueues Text) (msgs : List Offer) :
    ∃ ending after, HandleMessages json self msgs ending after := by
  by_cases channels : self.channels = []
  · exact ⟨_, _, .noChannels channels⟩
  cases connection : self.connection with
  | false => exact ⟨_, _, .noConnection channels connection⟩
  | true =>
      have ready : self.Initialized := ⟨channels, connection⟩
      cases built : prebuild json msgs self with
      | mk tasks prepared =>
          cases tasks with
          | none => exact ⟨_, _, .unserializable prepared ready built⟩
          | some tasks => exact ⟨_, _, .gathered tasks tasks prepared ready built (List.Perm.refl tasks)⟩

/-- Messages are isolated from each other exactly when the whole batch
serializes, or when nothing of it could have been published anyway. -/
theorem isolated_iff (json : Json Text) (self : MassiveDataQueues Text) (msgs : List Offer) :
    Isolated json self msgs ↔
      (self.Initialized ∧ ∀ offer ∈ msgs, Serializes json offer) ∨
        ∀ offer ∈ msgs, Serializes json offer → ¬self.Accepts offer := by
  constructor
  · intro isolated
    by_contra neither
    rw [not_or] at neither
    obtain ⟨ending, after, handled⟩ := handleMessages_exists json self msgs
    have owed := isolated ending after handled
    rw [published_of_raised handled neither.1] at owed
    have none : due json self msgs = [] := by simpa using owed.length_eq
    exact neither.2 (due_eq_nil_iff.mp none)
  · intro condition ending after handled
    by_cases raised : self.Initialized ∧ ∀ offer ∈ msgs, Serializes json offer
    · cases handled with
      | noChannels missing => exact absurd missing raised.1.1
      | noConnection _ missing => cases missing.symm.trans raised.1.2
      | unserializable prepared _ built =>
          obtain ⟨offer, member, lost⟩ := prebuild_eq_none_iff.mp (Prod.ext_iff.mp built).1
          exact absurd (raised.2 offer member) lost
      | gathered tasks order prepared _ built shuffled => exact published_of_gathered built shuffled
    · rw [published_of_raised handled raised, due_eq_nil_iff.mpr (condition.resolve_left raised), List.append_nil]

/-- A trade before a message of a class that the serializer has no branch for. -/
def mixedBatch : List Offer := [
  ⟨.equityTrade (.ofKeywords (.dict [("event_type", .str EventType.EquityTrade), ("symbol", .str "AAPL"),
    ("price", .num 114), ("size", .num 100)])), .confirmed⟩,
  ⟨.unhandled "CurrencyAgg" (.dict [("event_type", .str "CA"), ("pair", .str "USD-EUR")]), .confirmed⟩]

/-- The trade serializes and the broker would take it, and it is not published. -/
theorem mixedBatch_lost :
    (∃ offer ∈ mixedBatch, Serializes Json.document offer ∧ (connect fresh : MassiveDataQueues Value).Accepts offer) ∧
    ¬Isolated Json.document (connect fresh) mixedBatch := by
  constructor
  · exact ⟨_, List.mem_cons_self, rfl, by decide⟩
  · intro isolated
    have owed := isolated _ _ (.unserializable _ ⟨by decide, rfl⟩ rfl)
    exact absurd owed.length_eq (by decide)

end MassiveDataQueues
end KuhlHausMdp
