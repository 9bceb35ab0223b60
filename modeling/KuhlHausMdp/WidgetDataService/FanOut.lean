import Mathlib.Data.List.Permutation
import KuhlHausMdp.Library.Glob
import KuhlHausMdp.WidgetDataService.Membership

/-! `_handle_pubsub`: one message of Redis fanned out to the clients registered
under the channel it carries. A wildcard feed is registered under the pattern,
while its messages carry the concrete channel. -/

set_option autoImplicit false

namespace KuhlHausMdp.WidgetDataService

open Transition

inductive MessageType where
  | subscribe
  | psubscribe
  | unsubscribe
  | punsubscribe
  | message
  | pmessage
  deriving DecidableEq, Repr

structure Message where
  type : MessageType
  pattern : Option String
  channel : String
  data : String
  deriving DecidableEq, Repr

variable {W D : Type*} [DecidableEq W]

/-- What happens around the handling of one message: the iteration order of a
Python set, which sends raise, and how Redis calls of the cleanup end. -/
structure Network (W : Type*) where
  order : Finset W → List W
  order_nodup : ∀ clients, (order clients).Nodup
  mem_order : ∀ clients websocket, websocket ∈ order clients ↔ websocket ∈ clients
  fails : W → Bool
  redis : W → Ending

/-- The loop over `disconnected`, inside the polling task. -/
def cleanUp (task : Nat) (feed : String) (redis : W → Ending) : List W → Service W → Ending × Service W
  | [], s => (.returned, s)
  | websocket :: rest, s =>
      match s.unsubscribe feed websocket (redis websocket) (.polling task) with
      | (.raised, s) => (.raised, s)
      | (.returned, s) => cleanUp task feed redis rest s

/-- One turn of the loop with a message: the `send_text` calls made, how the
turn ends and the state it leaves. -/
def handleMessage (task : Nat) (network : Network W) (message : Message) (s : Service W) :
    List (W × String) × Ending × Service W :=
  match message.type with
  | .message | .pmessage =>
      match s.subscriptions.get message.channel with
      | none => ([], .returned, s)
      | some clients =>
          let sends := network.order clients
          let disconnected := sends.filter network.fails
          (sends.map fun websocket => (websocket, message.data),
            cleanUp task message.channel network.redis disconnected s)
  | _ => ([], .returned, s)

/-- The `send_text` calls of successive turns; an exception ends the task. -/
def handlePubsub (task : Nat) (network : Message → Network W) : List Message → Service W → List (W × String)
  | [], _ => []
  | message :: rest, s =>
      match handleMessage task (network message) message s with
      | (sends, .raised, _) => sends
      | (sends, .returned, s) => sends ++ handlePubsub task network rest s

/-- The messages Redis yields for one publication, in some order: a `message`
for a plain subscription to the channel, a `pmessage` for each subscribed
pattern that matches it. -/
def Yields (glob : String → String → Prop) (p : PubSub) (channel data : String) (messages : List Message) : Prop :=
  ∃ matching : List String, matching.Nodup ∧
    (∀ pattern, pattern ∈ matching ↔ pattern ∈ p.patterns ∧ glob pattern channel) ∧
    messages.Perm ((if channel ∈ p.channels then [⟨.message, none, channel, data⟩] else []) ++
      matching.map fun pattern => ⟨.pmessage, some pattern, channel, data⟩)

def Service.Running (s : Service W) (task : Nat) : Prop := s.tasks[task]? = some .running

/-- The `send_text` calls a publication may lead to. -/
inductive Published (glob : String → String → Prop) (s : Service W) (channel data : String) :
    List (W × String) → Prop where
  | unpolled : (∀ task, ¬s.Running task) → Published glob s channel data []
  | polled {task : Nat} (network : Message → Network W) {messages : List Message} : s.Running task →
      Yields glob s.pubsub channel data messages →
      Published glob s channel data (handlePubsub task network messages s)

def Selects (glob : String → String → Prop) (s : Service W) (websocket : W) (channel : String) : Prop :=
  ∃ feed, websocket ∈ s.clients feed ∧ (feed = channel ∨ Wildcard feed ∧ glob feed channel)

/-- Every client that selects the channel is passed the payload, however the
publication is handled. -/
def Served (glob : String → String → Prop) (s : Service W) (channel : String) : Prop :=
  ∀ data sends, Published glob s channel data sends →
    ∀ websocket, Selects glob s websocket channel → (websocket, data) ∈ sends

/-- Clients of matching patterns are also registered under the channel itself. -/
def Covered (glob : String → String → Prop) (s : Service W) (channel : String) : Prop :=
  ∀ feed, Wildcard feed → glob feed channel → s.clients feed ⊆ s.clients channel

/-- A message for the channel gets to a polling task. -/
def Reached (glob : String → String → Prop) (s : Service W) (channel : String) : Prop :=
  (∃ task, s.Running task) ∧
    (channel ∈ s.pubsub.channels ∨ ∃ pattern ∈ s.pubsub.patterns, glob pattern channel)

section Sends

variable {task : Nat} {network : Message → Network W}

theorem sends_of_handleMessage {message : Message} (s : Service W)
    (data : message.type = .message ∨ message.type = .pmessage) :
    (handleMessage task (network message) message s).1 =
      ((network message).order (s.clients message.channel)).map fun websocket => (websocket, message.data) := by
  have none : (network message).order ∅ = [] :=
    List.eq_nil_iff_forall_not_mem.mpr fun websocket member => by simp [(network message).mem_order] at member
  rcases data with kind | kind <;> simp only [handleMessage, kind] <;> split <;>
    rename_i found <;> simp [Service.clients, found, none]

theorem clients_cleanUp_subset (feed channel : String) (redis : W → Ending) (disconnected : List W)
    (s : Service W) : (cleanUp task feed redis disconnected s).2.clients channel ⊆ s.clients channel := by
  induction disconnected generalizing s with
  | nil => exact Finset.Subset.refl _
  | cons websocket rest ih =>
      have here : (s.unsubscribe feed websocket (redis websocket) (.polling task)).2.clients channel ⊆
          s.clients channel := s.clients_unsubscribe_subset feed channel websocket _ _
      simp only [cleanUp]
      split
      · rename_i next ended
        rw [ended] at here
        exact here
      · rename_i next ended
        rw [ended] at here
        exact (ih next).trans here

theorem clients_handleMessage_subset (message : Message) (channel : String) (s : Service W) :
    (handleMessage task (network message) message s).2.2.clients channel ⊆ s.clients channel := by
  unfold handleMessage
  split
  · split
    · exact Finset.Subset.refl _
    · exact clients_cleanUp_subset ..
  · split
    · exact Finset.Subset.refl _
    · exact clients_cleanUp_subset ..
  · exact Finset.Subset.refl _

theorem mem_sends_handleMessage {message : Message} {s : Service W} {websocket : W} {data : String}
    (member : (websocket, data) ∈ (handleMessage task (network message) message s).1) :
    websocket ∈ s.clients message.channel := by
  unfold handleMessage at member
  split at member
  all_goals first
    | cases member
    | split at member
      · cases member
      · rename_i clients found
        obtain ⟨client, inside, same⟩ := List.mem_map.mp member
        cases same
        simpa [Service.clients, found, (network message).mem_order] using inside

theorem mem_clients_of_send {channel : String} {messages : List Message} {s : Service W}
    (same : ∀ message ∈ messages, message.channel = channel) {websocket : W} {data : String}
    (member : (websocket, data) ∈ handlePubsub task network messages s) : websocket ∈ s.clients channel := by
  induction messages generalizing s with
  | nil => cases member
  | cons message rest ih =>
      have first : ∀ {client payload},
          (client, payload) ∈ (handleMessage task (network message) message s).1 → client ∈ s.clients channel :=
        fun inside => same message List.mem_cons_self ▸ mem_sends_handleMessage inside
      have shrinks : (handleMessage task (network message) message s).2.2.clients channel ⊆ s.clients channel :=
        clients_handleMessage_subset message channel s
      simp only [handlePubsub] at member
      split at member
      · rename_i ended
        rw [ended] at first
        exact first member
      · rename_i next ended
        rw [ended] at first shrinks
        rcases List.mem_append.mp member with inside | inside
        · exact first inside
        · exact shrinks (ih (fun later tail => same later (List.mem_cons_of_mem message tail)) inside)

theorem send_of_mem_clients {message : Message} {rest : List Message} {s : Service W} {websocket : W}
    (data : message.type = .message ∨ message.type = .pmessage) (member : websocket ∈ s.clients message.channel) :
    (websocket, message.data) ∈ handlePubsub task network (message :: rest) s := by
  have first : (websocket, message.data) ∈ (handleMessage task (network message) message s).1 := by
    rw [sends_of_handleMessage s data]
    exact List.mem_map.mpr ⟨websocket, ((network message).mem_order _ _).mpr member, rfl⟩
  simp only [handlePubsub]
  split
  · rename_i ended
    rw [ended] at first
    exact first
  · rename_i next ended
    rw [ended] at first
    exact List.mem_append_left _ first

end Sends

section

variable {glob : String → String → Prop} {p : PubSub} {channel data : String} {messages : List Message}

theorem Yields.mem (yields : Yields glob p channel data messages) {message : Message} (member : message ∈ messages) :
    (message.type = .message ∨ message.type = .pmessage) ∧ message.channel = channel ∧ message.data = data := by
  obtain ⟨matching, _, _, same⟩ := yields
  rcases List.mem_append.mp (same.mem_iff.mp member) with plain | pattern
  · split at plain
    · rw [List.mem_singleton.mp plain]
      exact ⟨.inl rfl, rfl, rfl⟩
    · cases plain
  · obtain ⟨_, _, rfl⟩ := List.mem_map.mp pattern
    exact ⟨.inr rfl, rfl, rfl⟩

theorem Yields.nil_iff (yields : Yields glob p channel data messages) :
    messages = [] ↔ ¬(channel ∈ p.channels ∨ ∃ pattern ∈ p.patterns, glob pattern channel) := by
  obtain ⟨matching, _, listed, same⟩ := yields
  constructor
  · rintro rfl
    obtain ⟨plain, patterns⟩ := List.append_eq_nil_iff.mp same.symm.eq_nil
    rintro (inside | ⟨pattern, inside, selected⟩)
    · simp [inside] at plain
    · have here := (listed pattern).mpr ⟨inside, selected⟩
      rw [List.map_eq_nil_iff.mp patterns] at here
      cases here
  · intro none
    have empty : matching = [] := List.eq_nil_iff_forall_not_mem.mpr fun pattern here =>
      none (.inr ⟨pattern, (listed pattern).mp here⟩)
    have plain : channel ∉ p.channels := fun inside => none (.inl inside)
    rw [empty, if_neg plain] at same
    exact same.eq_nil

open Classical in
theorem exists_yields (glob : String → String → Prop) (p : PubSub) (channel data : String) :
    ∃ messages, Yields glob p channel data messages := by
  refine ⟨_, (p.patterns.filter fun pattern => glob pattern channel).toList, Finset.nodup_toList _, ?_, .refl _⟩
  intro pattern
  rw [Finset.mem_toList, Finset.mem_filter]

open Classical in
noncomputable def Network.quiet : Network W where
  order := Finset.toList
  order_nodup := Finset.nodup_toList
  mem_order := fun _ _ => Finset.mem_toList
  fails := fun _ => false
  redis := fun _ => .returned

theorem exists_published (glob : String → String → Prop) (s : Service W) (channel data : String) :
    ∃ sends, Published glob s channel data sends := by
  by_cases polled : ∃ task, s.Running task
  · obtain ⟨task, running⟩ := polled
    obtain ⟨messages, yields⟩ := exists_yields glob s.pubsub channel data
    exact ⟨_, .polled (fun _ => .quiet) running yields⟩
  · exact ⟨[], .unpolled (not_exists.mp polled)⟩

end

/-- A publication reaches every client that selects the channel exactly when
clients of matching patterns are registered under the channel too and, unless
nobody is, a message for the channel gets to a polling task. -/
theorem served_iff (glob : String → String → Prop) (s : Service W) (channel : String) :
    Served glob s channel ↔ Covered glob s channel ∧ (s.clients channel = ∅ ∨ Reached glob s channel) := by
  constructor
  · intro served
    obtain ⟨sends, published⟩ := exists_published glob s channel ""
    have sent : ∀ websocket, Selects glob s websocket channel → websocket ∈ s.clients channel := by
      intro websocket selects
      have member := served "" sends published websocket selects
      cases published with
      | unpolled _ => cases member
      | polled _ _ yields => exact mem_clients_of_send (fun message inside => (yields.mem inside).2.1) member
    refine ⟨fun feed wild selected websocket member => sent websocket ⟨feed, member, .inr ⟨wild, selected⟩⟩, ?_⟩
    refine or_iff_not_imp_left.mpr fun occupied => ?_
    obtain ⟨websocket, member⟩ := Finset.nonempty_iff_ne_empty.mpr occupied
    have here := served "" sends published websocket ⟨channel, member, .inl rfl⟩
    cases published with
    | unpolled _ => cases here
    | @polled task network messages running yields =>
        refine ⟨⟨task, running⟩, by_contra fun unreached => ?_⟩
        rw [yields.nil_iff.mpr unreached] at here
        cases here
  -- the first message for the channel already serves everyone registered under it
  · rintro ⟨covered, reached⟩ data sends published websocket ⟨feed, member, selected⟩
    have inside : websocket ∈ s.clients channel := by
      rcases selected with rfl | ⟨wild, matched⟩
      · exact member
      · exact covered feed wild matched member
    have occupied : s.clients channel ≠ ∅ := Finset.ne_empty_of_mem inside
    obtain ⟨⟨task, running⟩, listening⟩ := reached.resolve_left occupied
    cases published with
    | unpolled idle => exact absurd running (idle task)
    | @polled _ network messages _ yields =>
        cases messages with
        | nil => exact absurd listening (yields.nil_iff.mp rfl)
        | cons message rest =>
            obtain ⟨kind, rfl, rfl⟩ := yields.mem List.mem_cons_self
            exact send_of_mem_clients kind inside

/-! With Redis answering every call, a polling task runs as long as there is a
feed, so for a channel without `'*'` only the wildcard clients are at stake. -/

structure Polled (s : Service W) : Prop where
  idle : s.subscriptions.keys = [] → s.pubsubTask = none
  polling : s.subscriptions.keys ≠ [] → ∃ task, s.pubsubTask = some task ∧ s.Running task

namespace Polled

variable {s : Service W}

omit [DecidableEq W] in
theorem fresh : Polled (.fresh : Service W) := ⟨fun _ => rfl, fun occupied => absurd rfl occupied⟩

omit [DecidableEq W] in
theorem running_createTask (s : Service W) : s.createTask.Running s.tasks.length := by
  simp [Service.Running, Service.createTask]

theorem addClient {t : Service W} (feed : String) (websocket : W)
    (polling : ∃ task, t.pubsubTask = some task ∧ t.Running task) : Polled (t.addClient feed websocket) := by
  refine ⟨fun none => ?_, fun _ => polling⟩
  have member : feed ∈ (t.addClient feed websocket).subscriptions := by simp [Service.addClient]
  exact absurd member (Dict.keys_eq_nil_iff.mp none feed)

theorem subscribe (polled : Polled s) (feed : String) (websocket : W) :
    Polled (s.subscribe feed websocket .returned).2 := by
  by_cases occupied : s.subscriptions.keys = []
  · have missing : feed ∉ s.subscriptions := Dict.keys_eq_nil_iff.mp occupied feed
    have one : (s.opened feed).subscriptions.keys.length = 1 := by
      simp [Service.opened, Dict.keys_set_of_notMem missing, occupied]
    rw [Service.subscribe_returned missing]
    refine addClient feed websocket ⟨s.tasks.length, ?_⟩
    rw [Service.startPolling, if_pos ⟨one, polled.idle occupied⟩]
    exact ⟨rfl, running_createTask _⟩
  · obtain ⟨task, handle, running⟩ := polled.polling occupied
    have kept : ∀ t : Service W, t.pubsubTask = some task → t.startPolling = t := fun t held => by
      simp [Service.startPolling, held]
    by_cases member : feed ∈ s.subscriptions
    · rw [Service.subscribe_of_mem member, kept s handle]
      exact addClient feed websocket ⟨task, handle, running⟩
    · rw [Service.subscribe_returned member, kept (s.opened feed) handle]
      exact addClient feed websocket ⟨task, handle, running⟩

theorem leaveFeed_task (s : Service W) (feed : String) (websocket : W) (redis : Ending) :
    (s.leaveFeed feed websocket redis).2.pubsubTask = s.pubsubTask ∧
      (s.leaveFeed feed websocket redis).2.tasks = s.tasks := by
  unfold Service.leaveFeed
  split
  · exact ⟨rfl, rfl⟩
  · cases redis <;> simp only <;> split <;> exact ⟨rfl, rfl⟩

theorem unsubscribe (polled : Polled s) (feed : String) (websocket : W) (caller : Caller) :
    Polled (s.unsubscribe feed websocket .returned caller).2 := by
  have subset : ∀ other, other ∈ (s.leaveFeed feed websocket .returned).2.subscriptions → other ∈ s.subscriptions := by
    intro other member
    rw [← Service.subscriptions_stopPolling caller, ← Service.unsubscribe_returned] at member
    exact (Service.mem_unsubscribe.mp member).1
  obtain ⟨handle, tasks⟩ := leaveFeed_task s feed websocket .returned
  rw [Service.unsubscribe_returned]
  -- only the keys, the handle and the tasks of what `leaveFeed` left matter
  generalize (s.leaveFeed feed websocket .returned).2 = t at subset handle tasks
  have carried : s.subscriptions.keys ≠ [] → ∃ task, t.pubsubTask = some task ∧ t.Running task := by
    intro occupied
    obtain ⟨task, held, running⟩ := polled.polling occupied
    exact ⟨task, handle.trans held, by rw [Service.Running, tasks]; exact running⟩
  by_cases gone : t.subscriptions.keys = []
  · refine ⟨fun _ => ?_, fun occupied => absurd gone (by simpa using occupied)⟩
    -- there was a task to stop unless there was no feed before
    by_cases before : s.subscriptions.keys = []
    · have none := handle.trans (polled.idle before)
      simp [Service.stopPolling, none]
    · obtain ⟨task, held, running⟩ := carried before
      have current : t.tasks[task]? = some .running := running
      simp only [Service.stopPolling, held, gone, if_true, current]
      split <;> rfl
  · have same : t.stopPolling caller = (.returned, t) := by
      unfold Service.stopPolling
      split
      · rfl
      · rw [if_neg gone]
    rw [same]
    refine ⟨fun none => absurd none gone, fun _ => carried fun before => gone ?_⟩
    exact Dict.keys_eq_nil_iff.mpr fun key member => Dict.keys_eq_nil_iff.mp before key (subset key member)

variable [DecidableEq D]

theorem step {c next : Calls D W} {action : Action D W} (polled : Polled c.service)
    (returns : action.RedisReturns) (one : c.step action = some next) : Polled next.service := by
  rcases Calls.step_cases returns one with ⟨feed, websocket, rfl, rfl⟩ |
    ⟨feed, websocket, caller, rfl, rfl⟩ | ⟨call, websocket, rfl, _, rfl⟩ |
    ⟨call, websocket, feed, rest, left, rfl, _, _, rfl⟩ | ⟨call, websocket, rfl, _, rfl⟩
  · exact polled.subscribe feed websocket
  · exact polled.unsubscribe feed websocket caller
  · exact polled
  · exact polled.unsubscribe feed websocket .client
  · exact polled

theorem run {actions : List (Action D W)} {c final : Calls D W} (polled : Polled c.service)
    (returns : ∀ action ∈ actions, action.RedisReturns) (run : exec Calls.step actions c = some final) :
    Polled final.service :=
  along_invariant (fun c => Polled c.service) step polled (along_of_forall returns _) run

end Polled

theorem reached_of_run [DecidableEq D] {actions : List (Action D W)} {c : Calls D W}
    {members : Finset (String × W)} (returns : ∀ action ∈ actions, action.RedisReturns)
    (run : exec recorded actions (.fresh, ∅) = some (c, members)) {glob : String → String → Prop}
    {channel : String} (plain : ¬Wildcard channel) (occupied : c.service.clients channel ≠ ∅) :
    Reached glob c.service channel := by
  obtain ⟨websocket, member⟩ := Finset.nonempty_iff_ne_empty.mpr occupied
  have key := Service.mem_of_mem_clients member
  have agrees : Agrees c.service members := recorded_run .fresh returns run
  have polled : Polled c.service := Polled.run .fresh returns (exec_of_recorded run)
  obtain ⟨task, _, running⟩ := polled.polling (List.ne_nil_of_mem key)
  exact ⟨⟨task, running⟩, .inl ((agrees.channels channel).mpr ⟨key, plain⟩)⟩

/-- A client of `leaderboard:*` is passed nothing that is published on
`leaderboard:top_volume`. -/
theorem wildcard_client_not_served :
    ¬Served Glob.Matches ((.fresh : Service Nat).subscribe "leaderboard:*" 1 .returned).2
      "leaderboard:top_volume" := by
  intro served
  have yields : Yields Glob.Matches ((.fresh : Service Nat).subscribe "leaderboard:*" 1 .returned).2.pubsub
      "leaderboard:top_volume" "[]" [⟨.pmessage, some "leaderboard:*", "leaderboard:top_volume", "[]"⟩] := by
    refine ⟨["leaderboard:*"], by decide, fun pattern => ?_, .refl _⟩
    have only : ((.fresh : Service Nat).subscribe "leaderboard:*" 1 .returned).2.pubsub.patterns =
        {"leaderboard:*"} := rfl
    rw [only, List.mem_singleton, Finset.mem_singleton]
    exact ⟨fun same => ⟨same, same ▸ by decide⟩, And.left⟩
  have running : ((.fresh : Service Nat).subscribe "leaderboard:*" 1 .returned).2.Running 0 := rfl
  have member := served "[]" _ (.polled (fun _ => .quiet) running yields) 1
    ⟨"leaderboard:*", by decide, .inr ⟨by decide, by decide⟩⟩
  cases member

end KuhlHausMdp.WidgetDataService
