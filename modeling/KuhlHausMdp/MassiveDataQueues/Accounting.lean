import Mathlib
import KuhlHausMdp.DataQueues

/-! What `MassiveDataQueues` counts over a run of `connect`, `setup_queues`,
`shutdown` and `handle_messages`, each of which may fail anywhere. -/

set_option autoImplicit false

namespace KuhlHausMdp.MassiveDataQueues

open WebSocketMessageSerde

variable {Text : Type*} {json : Json Text}

/-- The publisher as `handle_messages` finds it. A publish through a closed
channel fails as one without an exchange does. -/
def refreshed (rabbit : DataQueues) (self : MassiveDataQueues Text) : MassiveDataQueues Text := { self with
  channels := rabbit.channels.keys
  connection := rabbit.connection.isSome
  exchanges := (rabbit.exchanges.entries.filter fun entry => rabbit.Live entry.2).map Prod.fst }

/-- `handle_messages`, with the order in which the gathered publishes reach the broker. -/
def handleMessages (json : Json Text) (self : MassiveDataQueues Text) (msgs : List Offer) (order : List Nat) :
    Option (MassiveDataQueues Text) :=
  if self.channels = [] ∨ self.connection = false then some self
  else match prebuild json msgs self with
    | (none, prepared) => some { prepared with errorCounter := prepared.errorCounter + 1 }
    | (some tasks, prepared) =>
        if order.Perm (List.range tasks.length) then
          some ((order.filterMap (tasks[·]?)).foldl publishMessage prepared)
        else none

theorem filterMap_range {A : Type*} (items : List A) : (List.range items.length).filterMap (items[·]?) = items := by
  induction items using List.reverseRecOn with
  | nil => rfl
  | append_singleton items a ih =>
      have before : (List.range items.length).filterMap ((items ++ [a])[·]?) = items := by
        conv_rhs => rw [← ih]
        apply List.filterMap_congr
        intro i within
        exact List.getElem?_append_left (List.mem_range.mp within)
      rw [List.length_append, List.length_singleton, List.range_succ, List.filterMap_append, before]
      simp

theorem handleMessages_handled {self after : MassiveDataQueues Text} {msgs : List Offer} {order : List Nat}
    (one : handleMessages json self msgs order = some after) :
    ∃ ending, HandleMessages json self msgs ending after := by
  unfold handleMessages at one
  split at one
  · rename_i missing
    cases one
    by_cases none : self.channels = []
    · exact ⟨_, .noChannels none⟩
    · exact ⟨_, .noConnection none (missing.resolve_left none)⟩
  · rename_i ready
    have ready : self.Initialized := by
      rw [not_or, Bool.not_eq_false] at ready
      exact ready
    split at one
    · cases one
      exact ⟨_, .unserializable _ ready ‹_›⟩
    · rename_i tasks prepared built
      split at one
      · rename_i shuffled
        cases one
        refine ⟨_, .gathered tasks _ prepared ready built ?_⟩
        have all := shuffled.filterMap (tasks[·]?)
        rwa [filterMap_range] at all
      · cases one

theorem published_of_handled {self after : MassiveDataQueues Text} {msgs : List Offer}
    {ending : Except HandleError Unit} (handled : HandleMessages json self msgs ending after) :
    ∃ new, after.published = self.published ++ new ∧ ∀ publication ∈ new, ∃ offer ∈ msgs,
      serialize json offer.message = some publication.body ∧
        publication.routingKey = queueNameForWebSocketMessage offer.message := by
  obtain ⟨published, exchanges⟩ := prebuild_snd json msgs self
  cases handled with
  | noChannels => exact ⟨[], (List.append_nil _).symm, nofun⟩
  | noConnection => exact ⟨[], (List.append_nil _).symm, nofun⟩
  | unserializable prepared _ built =>
      rw [built] at published
      exact ⟨[], published.trans (List.append_nil _).symm, nofun⟩
  | gathered tasks order prepared _ built shuffled =>
      rw [built] at published exchanges
      refine ⟨_, (published_foldl order prepared).trans (by rw [published]), fun publication member => ?_⟩
      have owed := (shuffled.flatMap_right _).subset member
      rw [exchanges, flatMap_of_prebuild self self (Prod.ext_iff.mp built).1] at owed
      obtain ⟨offer, among, taken⟩ := List.mem_filterMap.mp owed
      split at taken
      · obtain ⟨body, written, rfl⟩ := Option.map_eq_some_iff.mp taken
        exact ⟨offer, among, written, rfl⟩
      · cases taken

instance (self : MassiveDataQueues Text) : Decidable self.Initialized := inferInstanceAs (Decidable (_ ∧ _))

/-- The publishes that a batch makes, by queue: none when it raises, and none
without an exchange. -/
def attempted (json : Json Text) (self : MassiveDataQueues Text) (msgs : List Offer) : List (String × Delivery) :=
  if self.Initialized ∧ ∀ offer ∈ msgs, (serialize json offer.message).isSome then
    (msgs.map fun offer => (queueNameForWebSocketMessage offer.message, offer.delivery)).filter
      fun attempt => attempt.1 ∈ self.exchanges
  else []

/-- The states of a publisher in use, with all the publishes it has made. -/
inductive Reachable (json : Json Text) : DataQueues → MassiveDataQueues Text → List (String × Delivery) → Prop where
  | fresh : Reachable json .fresh .fresh []
  | rabbit {rabbit next : DataQueues} {self : MassiveDataQueues Text} {attempts : List (String × Delivery)}
      {action : DataQueues.Action} (before : Reachable json rabbit self attempts)
      (one : DataQueues.step queues rabbit action = some next) : Reachable json next self attempts
  | handleMessages {rabbit : DataQueues} {self after : MassiveDataQueues Text} {attempts : List (String × Delivery)}
      {msgs : List Offer} {ending : Except HandleError Unit} (before : Reachable json rabbit self attempts)
      (handled : HandleMessages json (refreshed rabbit self) msgs ending after) :
      Reachable json rabbit after (attempts ++ attempted json (refreshed rabbit self) msgs)

def taken (self : MassiveDataQueues Text) (queue : String) : Nat :=
  self.published.countP fun publication => publication.routingKey = queue

/-- The publishes to a queue that returned, and those whose message was taken. -/
def returnedTo (queue : String) (attempts : List (String × Delivery)) : Nat :=
  attempts.countP fun attempt => attempt.1 = queue ∧ attempt.2.returned = true

def takenFor (queue : String) (attempts : List (String × Delivery)) : Nat :=
  attempts.countP fun attempt => attempt.1 = queue ∧ attempt.2.taken = true

/-- The counter of a queue is the number of publishes to it that returned, the
broker has what was taken of them and nothing for other queues, and no more
publishes were made than messages received. -/
structure Counted (publisher : MassiveDataQueues Text) (attempts : List (String × Delivery)) : Prop where
  status : ∀ queue ∈ queues, publisher.connectionStatus.get queue = some (returnedTo queue attempts)
  taken : ∀ queue, publisher.taken queue = takenFor queue attempts
  routed : ∀ publication ∈ publisher.published, publication.routingKey ∈ queues
  received : attempts.length ≤ publisher.messagesReceived

theorem nodup_queues : queues.Nodup := by decide

theorem counted_fresh : (fresh : MassiveDataQueues Text).Counted [] where
  status queue member := by
    apply Dict.get_update_of_mem
    · rw [List.map_map]
      exact nodup_queues
    · exact List.mem_map_of_mem member
  taken _ := rfl
  routed _ none := absurd none List.not_mem_nil
  received := Nat.le_refl 0

/-! One publish, then a batch. -/

/-- The same of the publishes alone, whatever was counted as received. -/
structure Routed (publisher : MassiveDataQueues Text) (attempts : List (String × Delivery)) : Prop where
  status : ∀ queue ∈ queues, publisher.connectionStatus.get queue = some (returnedTo queue attempts)
  taken : ∀ queue, publisher.taken queue = takenFor queue attempts
  routed : ∀ publication ∈ publisher.published, publication.routingKey ∈ queues
  exchanges : ∀ queue ∈ publisher.exchanges, queue ∈ queues

theorem Routed.publishMessage {self : MassiveDataQueues Text} {attempts : List (String × Delivery)}
    (counted : self.Routed attempts) (task : Task Text) :
    (self.publishMessage task).Routed
      (attempts ++ if task.queueName ∈ self.exchanges then [(task.queueName, task.delivery)] else []) := by
  by_cases exchange : task.queueName ∈ self.exchanges
  · have known := counted.exchanges _ exchange
    rw [MassiveDataQueues.publishMessage, if_pos exchange, if_pos exchange]
    refine ⟨fun queue member => ?_, fun queue => ?_, fun publication member => ?_, counted.exchanges⟩
    · have before := counted.status queue member
      rw [returnedTo, List.countP_append, ← returnedTo, List.countP_singleton]
      by_cases returned : task.delivery.returned = true
      · by_cases here : queue = task.queueName
        · subst here
          simp [returned, before]
        · simp [returned, Dict.get_set, here, Ne.symm here, before]
      · simp [returned, before]
    · have before := counted.taken queue
      rw [takenFor, List.countP_append, ← takenFor, List.countP_singleton, ← before]
      by_cases took : task.delivery.taken = true
      · simp [MassiveDataQueues.taken, took, List.countP_append, List.countP_singleton]
      · simp [MassiveDataQueues.taken, took]
    · change publication ∈ (if task.delivery.taken = true then _ else _) at member
      split at member
      · rcases List.mem_append.mp member with older | new
        · exact counted.routed publication older
        · rw [List.mem_singleton.mp new]
          exact known
      · exact counted.routed publication member
  · rw [MassiveDataQueues.publishMessage, if_neg exchange, if_neg exchange, List.append_nil]
    exact counted

theorem Routed.foldl {self : MassiveDataQueues Text} {attempts : List (String × Delivery)}
    (counted : self.Routed attempts) (tasks : List (Task Text)) :
    (tasks.foldl MassiveDataQueues.publishMessage self).Routed
      (attempts ++ (tasks.map fun task => (task.queueName, task.delivery)).filter
        fun attempt => attempt.1 ∈ self.exchanges) := by
  induction tasks generalizing self attempts with
  | nil => rwa [List.map_nil, List.filter_nil, List.append_nil]
  | cons task rest ih =>
      have later := ih (counted.publishMessage task)
      rw [exchanges_publishMessage, List.append_assoc] at later
      rw [List.foldl_cons, List.map_cons, List.filter_cons]
      by_cases known : task.queueName ∈ self.exchanges
      · rw [if_pos known] at later
        rw [if_pos (decide_eq_true known)]
        exact later
      · rw [if_neg known] at later
        rw [if_neg (by simpa using known)]
        exact later

theorem Routed.perm {self : MassiveDataQueues Text} {attempts other : List (String × Delivery)}
    (counted : self.Routed attempts) (shuffled : attempts.Perm other) : self.Routed other where
  status queue member := (counted.status queue member).trans (congrArg some (shuffled.countP_eq _))
  taken queue := (counted.taken queue).trans (shuffled.countP_eq _)
  routed := counted.routed
  exchanges := counted.exchanges

theorem messagesReceived_foldl (tasks : List (Task Text)) (self : MassiveDataQueues Text) :
    (tasks.foldl publishMessage self).messagesReceived = self.messagesReceived := by
  induction tasks generalizing self with
  | nil => rfl
  | cons task rest ih =>
      rw [List.foldl_cons, ih]
      unfold publishMessage
      split <;> rfl

theorem prebuild_received (json : Json Text) (msgs : List Offer) (self : MassiveDataQueues Text) :
    (prebuild json msgs self).2.connectionStatus = self.connectionStatus ∧
      self.messagesReceived ≤ (prebuild json msgs self).2.messagesReceived ∧
      ∀ tasks, (prebuild json msgs self).1 = some tasks →
        (prebuild json msgs self).2.messagesReceived = self.messagesReceived + tasks.length ∧
          (tasks.map fun task => (task.queueName, task.delivery)) =
            msgs.map fun offer => (queueNameForWebSocketMessage offer.message, offer.delivery) := by
  induction msgs generalizing self with
  | nil =>
      refine ⟨rfl, Nat.le_refl _, fun tasks built => ?_⟩
      cases built
      exact ⟨rfl, rfl⟩
  | cons offer rest ih =>
      unfold prebuild
      split
      · exact ⟨rfl, Nat.le_succ _, nofun⟩
      · obtain ⟨status, more, exact⟩ := ih { self with messagesReceived := self.messagesReceived + 1 }
        refine ⟨status, Nat.le_of_succ_le more, fun tasks built => ?_⟩
        obtain ⟨later, found, rfl⟩ := Option.map_eq_some_iff.mp built
        obtain ⟨received, same⟩ := exact later found
        rw [received, List.length_cons, List.map_cons, List.map_cons, same]
        exact ⟨Nat.succ_add_eq_add_succ _ _, rfl⟩

theorem attempted_of_raised {self : MassiveDataQueues Text} {msgs : List Offer}
    (raised : ¬(self.Initialized ∧ ∀ offer ∈ msgs, Serializes json offer)) : attempted json self msgs = [] :=
  if_neg raised

theorem Counted.handleMessages {self after : MassiveDataQueues Text} {attempts : List (String × Delivery)}
    {msgs : List Offer} {ending : Except HandleError Unit} (counted : self.Counted attempts)
    (exchanges : ∀ queue ∈ self.exchanges, queue ∈ queues) (handled : HandleMessages json self msgs ending after) :
    after.Counted (attempts ++ attempted json self msgs) := by
  have before := prebuild_snd json msgs self
  obtain ⟨status, more, exact⟩ := prebuild_received json msgs self
  have routed : (prebuild json msgs self).2.Routed attempts := by
    refine ⟨fun queue member => ?_, fun queue => ?_, ?_, ?_⟩
    · rw [status]
      exact counted.status queue member
    · rw [MassiveDataQueues.taken, before.1]
      exact counted.taken queue
    · rw [before.1]
      exact counted.routed
    · rw [before.2]
      exact exchanges
  cases handled with
  | noChannels none =>
      rw [attempted_of_raised fun ready => ready.1.1 none, List.append_nil]
      exact counted
  | noConnection _ none =>
      rw [attempted_of_raised fun ready => Bool.false_ne_true (none.symm.trans ready.1.2), List.append_nil]
      exact counted
  | unserializable prepared _ built =>
      obtain ⟨offer, member, lost⟩ := prebuild_eq_none_iff.mp (Prod.ext_iff.mp built).1
      rw [attempted_of_raised fun ready => lost (ready.2 offer member), List.append_nil]
      rw [built] at more routed
      exact ⟨routed.status, routed.taken, routed.routed, counted.received.trans more⟩
  | gathered tasks order prepared ready built shuffled =>
      have all : ∀ offer ∈ msgs, Serializes json offer := by
        by_contra lost
        push Not at lost
        cases (prebuild_eq_none_iff.mpr lost).symm.trans (Prod.ext_iff.mp built).1
      rw [built] at before routed exact
      obtain ⟨received, tasked⟩ := exact tasks rfl
      simp only at received
      have made : attempted json self msgs =
          (tasks.map fun task => (task.queueName, task.delivery)).filter fun attempt => attempt.1 ∈ self.exchanges := by
        rw [tasked]
        exact if_pos (And.intro ready all)
      have reordered := (shuffled.map fun task => (task.queueName, task.delivery)).filter
        fun attempt => attempt.1 ∈ self.exchanges
      have same : prepared.exchanges = self.exchanges := before.2
      rw [← same] at made reordered
      have published := (routed.foldl order).perm (reordered.append_left attempts)
      rw [made]
      refine ⟨published.status, published.taken, published.routed, ?_⟩
      have most := List.length_filter_le (fun attempt : String × Delivery => decide (attempt.1 ∈ prepared.exchanges))
        (tasks.map fun task => (task.queueName, task.delivery))
      have bound := counted.received
      rw [List.length_map] at most
      rw [messagesReceived_foldl, List.length_append]
      omega

/-- In every state that a publisher can reach, the counter of each queue is the
number of publishes to it that returned, and the broker has taken messages for the
five queues only. While a publish returns only if its message was taken, no counter
exceeds what was taken; while no confirmation is lost either, they are equal. -/
theorem counted_of_reachable {rabbit : DataQueues} {self : MassiveDataQueues Text} {attempts : List (String × Delivery)}
    (reachable : Reachable json rabbit self attempts) :
    self.Counted attempts ∧
      ((∀ attempt ∈ attempts, attempt.2.returned = true → attempt.2.taken = true) →
        ∀ queue ∈ queues, ∃ count ≤ self.taken queue, self.connectionStatus.get queue = some count) ∧
      ((∀ attempt ∈ attempts, attempt.2.returned = attempt.2.taken) →
        ∀ queue ∈ queues, self.connectionStatus.get queue = some (self.taken queue)) := by
  have both : DataQueues.Tables queues rabbit ∧ self.Counted attempts := by
    induction reachable with
    | fresh => exact ⟨DataQueues.tables_fresh queues, counted_fresh⟩
    | rabbit before one ih => exact ⟨ih.1.step one, ih.2⟩
    | @handleMessages rabbit self after attempts msgs ending before handled ih =>
        obtain ⟨tables, counted⟩ := ih
        have found : (refreshed rabbit self).Counted attempts :=
          ⟨counted.status, counted.taken, counted.routed, counted.received⟩
        refine ⟨tables, found.handleMessages (fun queue member => ?_) handled⟩
        obtain ⟨entry, kept, rfl⟩ := List.mem_map.mp member
        apply tables.known
        rw [← tables.same]
        exact List.mem_map_of_mem (List.mem_filter.mp kept).1
  obtain ⟨-, counted⟩ := both
  refine ⟨counted, fun confirmed queue member => ?_, fun exact queue member => ?_⟩
  · refine ⟨_, ?_, counted.status queue member⟩
    rw [counted.taken]
    refine List.countP_mono_left fun attempt inside => ?_
    simp only [decide_eq_true_eq]
    exact fun back => ⟨back.1, confirmed attempt inside back.2⟩
  · rw [counted.status queue member, counted.taken]
    refine congrArg some (List.countP_congr fun attempt inside => ?_)
    simp only [decide_eq_true_eq, exact attempt inside]

def connected : DataQueues := (DataQueues.connect queues ⟨true, fun _ => true, fun _ => true⟩ .fresh).2

theorem reachable_connected : Reachable json connected (fresh : MassiveDataQueues Text) [] := by
  have one : DataQueues.step queues .fresh (.connect ⟨true, fun _ => true, fun _ => true⟩) = some connected := rfl
  exact Reachable.fresh.rabbit one

/-- A trade, a quote whose confirmation is lost, and a message that is refused. -/
def lostConfirmation : List Offer :=
  [⟨.equityTrade (.ofKeywords .none), .confirmed⟩, ⟨.equityQuote (.ofKeywords .none), ⟨true, false⟩⟩,
    ⟨.plain .none, .refused⟩]

theorem counted_handled : ∃ self attempts, Reachable Json.document connected self attempts ∧
    (self.messagesReceived = 3 ∧ self.taken MassiveDataQueue.TRADES = 1 ∧ self.taken MassiveDataQueue.QUOTES = 1 ∧
      self.connectionStatus.get MassiveDataQueue.QUOTES = some 0) ∧
    self.Counted attempts ∧
      ((∀ attempt ∈ attempts, attempt.2.returned = true → attempt.2.taken = true) →
        ∀ queue ∈ queues, ∃ count ≤ self.taken queue, self.connectionStatus.get queue = some count) ∧
      ((∀ attempt ∈ attempts, attempt.2.returned = attempt.2.taken) →
        ∀ queue ∈ queues, self.connectionStatus.get queue = some (self.taken queue)) := by
  obtain ⟨self, handled, counts⟩ : ∃ self, handleMessages Json.document (refreshed connected .fresh)
      lostConfirmation [1, 0, 2] = some self ∧
      (self.messagesReceived = 3 ∧ self.taken MassiveDataQueue.TRADES = 1 ∧ self.taken MassiveDataQueue.QUOTES = 1 ∧
        self.connectionStatus.get MassiveDataQueue.QUOTES = some 0) := ⟨_, rfl, rfl, rfl, rfl, rfl⟩
  obtain ⟨ending, handled⟩ := handleMessages_handled handled
  have reachable := reachable_connected.handleMessages handled
  exact ⟨self, _, reachable, counts, counted_of_reachable reachable⟩

end KuhlHausMdp.MassiveDataQueues
