import KuhlHausMdp.WidgetDataService.FanOut

/-! What one client is sent while others come and go. All clients share one
pub/sub connection, so a publication arrives once for each subscription that
selects its channel, and `_handle_pubsub` passes every arrival on. The fan-out
of a message is interleaved with the operations of other clients. -/

set_option autoImplicit false

namespace KuhlHausMdp.WidgetDataService

open Transition

variable {W D : Type*} [DecidableEq W] [DecidableEq D]

/-- Where a polling task stands: at `get_message`, at the `send_text` of the
first client of `rest`, or about to remove the first client that failed. -/
inductive Loop (W : Type*) where
  | polling
  | sending (channel data : String) (rest failed : List W)
  | cleaning (channel : String) (rest : List W)

/-- `queue` holds the messages that Redis has delivered and no task has taken,
`sent` the `send_text` calls made, in order. -/
structure Relay (D W : Type*) where
  calls : Calls D W
  queue : List Message
  loops : Nat → Loop W
  sent : List (W × String)

/-- `publish` carries the messages that the publication yields, `notice` a
message about the subscriptions themselves. -/
inductive RelayAction (D W : Type*) where
  | call (action : Action D W)
  | publish (channel data : String) (messages : List Message)
  | notice (message : Message)
  | take (task : Nat) (snapshot : List W)
  | send (task : Nat) (raises : Bool)
  | turn (task : Nat)
  | clean (task : Nat) (redis : Ending)
  | crash (task : Nat) (runtimeError : Bool)

def RelayAction.task : RelayAction D W → Option Nat
  | .call _ | .publish .. | .notice _ => none
  | .take task _ | .send task _ | .turn task | .clean task _ | .crash task _ => some task

instance (s : Service W) (task : Nat) : Decidable (s.Running task) := inferInstanceAs (Decidable (_ = _))

namespace Relay

def move (s : Relay D W) (task : Nat) (loop : Loop W) : Relay D W :=
  { s with loops := Function.update s.loops task loop }

def withService (s : Relay D W) (service : Service W) : Relay D W :=
  { s with calls := { s.calls with service := service } }

def perform (s : Relay D W) : RelayAction D W → Option (Relay D W)
  | .call action => (s.calls.step action).map fun calls => { s with calls := calls }
  | .publish _ _ messages => some { s with queue := s.queue ++ messages }
  | .notice message => some { s with queue := s.queue ++ [message] }
  | .take task snapshot =>
      match s.loops task, s.queue with
      | .polling, message :: rest =>
          let s := { s with queue := rest }
          match message.type with
          | .message | .pmessage =>
              if message.channel ∈ s.calls.service.subscriptions then
                some (s.move task (.sending message.channel message.data snapshot []))
              else some s
          | _ => some s
      | _, _ => none
  | .send task raises =>
      match s.loops task with
      | .sending channel data (websocket :: rest) failed =>
          some { s.move task (.sending channel data rest (if raises then failed ++ [websocket] else failed)) with
            sent := s.sent ++ [(websocket, data)] }
      | _ => none
  | .turn task =>
      match s.loops task with
      | .sending channel _ [] failed => some (s.move task (.cleaning channel failed))
      | .cleaning _ [] => some (s.move task .polling)
      | _ => none
  | .clean task redis =>
      match s.loops task with
      | .cleaning channel (websocket :: rest) =>
          match s.calls.service.unsubscribe channel websocket redis (.polling task) with
          | (.returned, service) => some ((s.withService service).move task (.cleaning channel rest))
          -- the exception ends the task
          | (.raised, service) => some ((s.withService
              { service with tasks := service.tasks.set task (.failed false) }).move task .polling)
      | _ => none
  | .crash task runtimeError =>
      match s.loops task with
      | .polling =>
          let service := s.calls.service
          some (s.withService { service with tasks := service.tasks.set task (.failed runtimeError) })
      | _ => none

def step (s : Relay D W) (action : RelayAction D W) : Option (Relay D W) :=
  match action.task with
  | none => s.perform action
  | some task => if s.calls.service.Running task then s.perform action else none

/-- What an action does, by where it finds the task and the connection. -/
inductive Performed (s : Relay D W) : RelayAction D W → Relay D W → Prop where
  | call {action : Action D W} {calls : Calls D W} (called : s.calls.step action = some calls) :
      Performed s (.call action) { s with calls := calls }
  | publish (channel data : String) (messages : List Message) :
      Performed s (.publish channel data messages) { s with queue := s.queue ++ messages }
  | notice (message : Message) : Performed s (.notice message) { s with queue := s.queue ++ [message] }
  | taken {task : Nat} {snapshot : List W} {message : Message} {rest : List Message}
      (polling : s.loops task = .polling) (waits : s.queue = message :: rest)
      (data : message.type = .message ∨ message.type = .pmessage)
      (known : message.channel ∈ s.calls.service.subscriptions) :
      Performed s (.take task snapshot)
        (({ s with queue := rest } : Relay D W).move task (.sending message.channel message.data snapshot []))
  | dropped {task : Nat} {snapshot : List W} {message : Message} {rest : List Message}
      (polling : s.loops task = .polling) (waits : s.queue = message :: rest)
      (ignored : message.type = .message ∨ message.type = .pmessage →
        message.channel ∉ s.calls.service.subscriptions) :
      Performed s (.take task snapshot) { s with queue := rest }
  | sent {task : Nat} {raises : Bool} {channel data : String} {websocket : W} {rest failed : List W}
      (sending : s.loops task = .sending channel data (websocket :: rest) failed) :
      Performed s (.send task raises)
        { s.move task (.sending channel data rest (if raises then failed ++ [websocket] else failed)) with
          sent := s.sent ++ [(websocket, data)] }
  | allSent {task : Nat} {channel data : String} {failed : List W}
      (sending : s.loops task = .sending channel data [] failed) :
      Performed s (.turn task) (s.move task (.cleaning channel failed))
  | allClean {task : Nat} {channel : String} (cleaning : s.loops task = .cleaning channel []) :
      Performed s (.turn task) (s.move task .polling)
  | cleaned {task : Nat} {redis : Ending} {channel : String} {websocket : W} {rest : List W} {service : Service W}
      (cleaning : s.loops task = .cleaning channel (websocket :: rest))
      (left : s.calls.service.unsubscribe channel websocket redis (.polling task) = (.returned, service)) :
      Performed s (.clean task redis) ((s.withService service).move task (.cleaning channel rest))
  | raised {task : Nat} {redis : Ending} {channel : String} {websocket : W} {rest : List W} {service : Service W}
      (cleaning : s.loops task = .cleaning channel (websocket :: rest))
      (left : s.calls.service.unsubscribe channel websocket redis (.polling task) = (.raised, service)) :
      Performed s (.clean task redis)
        ((s.withService { service with tasks := service.tasks.set task (.failed false) }).move task .polling)
  | crashed {task : Nat} {runtimeError : Bool} (polling : s.loops task = .polling) :
      Performed s (.crash task runtimeError)
        (s.withService { s.calls.service with tasks := s.calls.service.tasks.set task (.failed runtimeError) })

theorem performed_of_perform {s next : Relay D W} {action : RelayAction D W} (one : s.perform action = some next) :
    s.Performed action next := by
  cases action with
  | call action =>
      obtain ⟨calls, called, rfl⟩ := Option.map_eq_some_iff.mp one
      exact .call called
  | publish channel data messages => cases one; exact .publish channel data messages
  | notice message => cases one; exact .notice message
  | take task snapshot =>
      simp only [perform] at one
      split at one
      case h_2 => cases one
      case h_1 message rest polling waits =>
        -- a data message goes to the fan-out when its channel is a key
        have data (kind : message.type = .message ∨ message.type = .pmessage)
            (taken : (if message.channel ∈ s.calls.service.subscriptions then
              some (({ s with queue := rest } : Relay D W).move task (.sending message.channel message.data snapshot []))
              else some { s with queue := rest }) = some next) : s.Performed (.take task snapshot) next := by
          split at taken
          · rename_i known
            cases taken
            exact .taken polling waits kind known
          · rename_i unknown
            cases taken
            exact .dropped polling waits fun _ => unknown
        split at one
        · exact data (.inl ‹_›) one
        · exact data (.inr ‹_›) one
        · rename_i notMessage notPmessage
          cases one
          exact .dropped polling waits fun kind => (kind.elim notMessage notPmessage).elim
  | send task raises =>
      simp only [perform] at one
      split at one
      case h_1 sending => cases one; exact .sent sending
      case h_2 => cases one
  | turn task =>
      simp only [perform] at one
      split at one
      case h_1 sending => cases one; exact .allSent sending
      case h_2 cleaning => cases one; exact .allClean cleaning
      case h_3 => cases one
  | clean task redis =>
      simp only [perform] at one
      split at one
      case h_1 cleaning =>
        split at one
        case h_1 left => cases one; exact .cleaned cleaning left
        case h_2 left => cases one; exact .raised cleaning left
      case h_2 => cases one
  | crash task runtimeError =>
      simp only [perform] at one
      split at one
      case h_1 polling => cases one; exact .crashed polling
      case h_2 => cases one

theorem performed_of_step {s next : Relay D W} {action : RelayAction D W} (one : s.step action = some next) :
    s.Performed action next ∧ ∀ task, action.task = some task → s.calls.service.Running task := by
  unfold step at one
  split at one
  · rename_i none
    exact ⟨performed_of_perform one, fun task some => nomatch none.symm.trans some⟩
  · rename_i task acts
    split at one
    · rename_i running
      exact ⟨performed_of_perform one, fun other also => Option.some.inj (acts.symm.trans also) ▸ running⟩
    · cases one

end Relay

/-! One client's share of a relay. -/

def payloads (websocket : W) (sent : List (W × String)) : List String :=
  (sent.filter fun entry => entry.1 = websocket).map Prod.snd

def Loop.owed (websocket : W) : Loop W → List String
  | .sending _ data rest _ => if websocket ∈ rest then [data] else []
  | _ => []

/-- The payloads waiting on the connection for the clients of the channel. -/
def queued (channel : String) (queue : List Message) : List String :=
  (queue.filter fun message =>
    (message.type = .message ∨ message.type = .pmessage) ∧ message.channel = channel).map Message.data

namespace RelayAction

/-- The payload published on the channel, if the action is a publication on it. -/
def publication (channel : String) : RelayAction D W → List String
  | .publish target data _ => if target = channel then [data] else []
  | _ => []

/-- What the action adds to the connection for the clients of the channel. -/
def deliveries (channel : String) : RelayAction D W → List String
  | .publish _ _ messages => queued channel messages
  | .notice message => queued channel [message]
  | _ => []

/-- Redis yields what `Yields` says, and a snapshot is the set it is taken of. -/
def Permitted (glob : String → String → Prop) (s : Relay D W) : RelayAction D W → Prop
  | .publish channel data messages => Yields glob s.calls.service.pubsub channel data messages
  | .notice message => message.type ≠ .message ∧ message.type ≠ .pmessage
  | .take _ snapshot => ∀ message rest, s.queue = message :: rest →
      snapshot.Nodup ∧ ∀ websocket, websocket ∈ snapshot ↔ websocket ∈ s.calls.service.clients message.channel
  | _ => True

/-- No subscribed pattern selects the channel when something is published on it. -/
def Unmatched (glob : String → String → Prop) (channel : String) (s : Relay D W) : RelayAction D W → Prop
  | .publish target _ _ => target = channel → ∀ pattern ∈ s.calls.service.pubsub.patterns, ¬glob pattern channel
  | _ => True

end RelayAction

def Alone (websocket : W) (channel : String) (s : Service W) : Prop :=
  ∀ feed, websocket ∈ s.clients feed ↔ feed = channel

namespace Service

omit [DecidableEq D] in
theorem channels_subscribe (s : Service W) (feed channel : String) (websocket : W) (redis : Ending)
    (listening : channel ∈ s.pubsub.channels) : channel ∈ (s.subscribe feed websocket redis).2.pubsub.channels := by
  by_cases member : feed ∈ s.subscriptions
  · rwa [subscribe_of_mem member, pubsub_addClient, pubsub_startPolling]
  · cases redis with
    | raised => rwa [subscribe_raised member]
    | returned =>
        rw [subscribe_returned member, pubsub_addClient, pubsub_startPolling]
        have side : channel ∈ (s.pubsub.listen feed).side false := PubSub.mem_side_listen.mpr (.inr listening)
        exact side

omit [DecidableEq D] in
/-- A channel with a client stays subscribed: Redis is told to stop only after
the last client left. -/
theorem channels_unsubscribe (s : Service W) {feed channel : String} {websocket client : W} {redis : Ending}
    {caller : Caller} (listening : channel ∈ s.pubsub.channels)
    (stays : client ∈ (s.unsubscribe feed websocket redis caller).2.clients channel) :
    channel ∈ (s.unsubscribe feed websocket redis caller).2.pubsub.channels := by
  unfold unsubscribe at stays ⊢
  rcases s.leaveFeed_cases feed websocket redis with ⟨-, left⟩ | ⟨-, -, left⟩ | ⟨-, -, left⟩ <;> rw [left] at stays ⊢
  · simpa using listening
  · rw [pubsub_stopPolling]
    exact listening
  · cases redis with
    | raised => exact listening
    | returned =>
        simp only [clients, subscriptions_stopPolling] at stays
        rw [← clients, clients_closed] at stays
        have apart : channel ≠ feed := by
          rintro rfl
          simp at stays
        rw [pubsub_stopPolling]
        have side : channel ∈ (s.pubsub.silence feed).side false :=
          PubSub.mem_side_silence.mpr ⟨.inl apart, listening⟩
        exact side

omit [DecidableEq W] [DecidableEq D] in
theorem running_set {s : Service W} {task other : Nat} {how : TaskState} (ceased : how ≠ .running) :
    ({ s with tasks := s.tasks.set task how } : Service W).Running other ↔ other ≠ task ∧ s.Running other := by
  simp only [Running, List.getElem?_set]
  by_cases same : task = other
  · subst same
    by_cases inside : task < s.tasks.length <;> simp [inside, ceased]
  · simp [same, Ne.symm same]

omit [DecidableEq D] in
theorem tasks_unsubscribe (s : Service W) {feed channel : String} {websocket client : W} {redis : Ending}
    {caller : Caller} (stays : client ∈ (s.unsubscribe feed websocket redis caller).2.clients channel) :
    (s.unsubscribe feed websocket redis caller).2.tasks = s.tasks := by
  have same := (Polled.leaveFeed_task s feed websocket redis).2
  unfold unsubscribe at stays ⊢
  split at stays
  · rename_i left after
    rw [after] at same
    exact same
  · rename_i left after
    rw [after] at same
    have member : channel ∈ left.subscriptions := by
      have inside := mem_of_mem_clients stays
      rwa [subscriptions_stopPolling] at inside
    have occupied : left.subscriptions.keys ≠ [] := List.ne_nil_of_mem member
    simp only [stopPolling]
    split
    · exact same
    · rw [if_neg occupied]
      exact same

omit [DecidableEq D] in
theorem running_subscribe {s : Service W} {feed : String} {websocket : W} {redis : Ending} {task : Nat}
    (running : s.Running task) : (s.subscribe feed websocket redis).2.Running task := by
  have started {t : Service W} (same : t.tasks = s.tasks) : (t.startPolling.addClient feed websocket).Running task := by
    have before : t.Running task := by
      rw [Running, same]
      exact running
    unfold startPolling
    split
    · have inside : task < t.tasks.length := (List.getElem?_eq_some_iff.mp before).1
      simpa [Running, addClient, createTask, List.getElem?_append, inside] using before
    · exact before
  by_cases member : feed ∈ s.subscriptions
  · rw [subscribe_of_mem member]
    exact started rfl
  · cases redis with
    | raised => rwa [subscribe_raised member]
    | returned =>
        rw [subscribe_returned member]
        exact started rfl

end Service

namespace Relay

/-- What holds of the client's share at any time while the client stays. -/
structure Attached (websocket : W) (channel : String) (s : Relay D W) : Prop where
  alone : Alone websocket channel s.calls.service
  listening : channel ∈ s.calls.service.pubsub.channels
  distinct : ∀ task target data rest failed, s.loops task = .sending target data rest failed → rest.Nodup

/-- What a step moves along: from the connection to the fan-out of a task, from
there to the client. -/
structure Flow (websocket : W) (channel : String) (task : Nat) (s next : Relay D W) (deliveries : List String) :
    Prop where
  moved : ∃ now later taken waiting,
    payloads websocket next.sent = payloads websocket s.sent ++ now ∧
    (s.loops task).owed websocket = now ++ later ∧ (next.loops task).owed websocket = later ++ taken ∧
    queued channel s.queue = taken ++ waiting ∧ queued channel next.queue = waiting ++ deliveries
  others : ∀ other, other ≠ task → (next.loops other).owed websocket = (s.loops other).owed websocket

omit [DecidableEq D] in
theorem Flow.still {websocket : W} {channel : String} {s next : Relay D W} {deliveries : List String} (task : Nat)
    (sent : next.sent = s.sent) (loops : ∀ other, (next.loops other).owed websocket = (s.loops other).owed websocket)
    (queue : queued channel next.queue = queued channel s.queue ++ deliveries) :
    Flow websocket channel task s next deliveries where
  moved := ⟨[], (s.loops task).owed websocket, [], queued channel s.queue, by rw [sent, List.append_nil],
    (List.nil_append _).symm, by rw [loops, List.append_nil], (List.nil_append _).symm, queue⟩
  others := fun other _ => loops other

omit [DecidableEq D] in
theorem Flow.of_update {websocket : W} {channel : String} {s next : Relay D W} {task : Nat} {loop : Loop W}
    (loops : next.loops = Function.update s.loops task loop) (now later taken waiting : List String)
    (sent : payloads websocket next.sent = payloads websocket s.sent ++ now)
    (before : (s.loops task).owed websocket = now ++ later) (after : loop.owed websocket = later ++ taken)
    (head : queued channel s.queue = taken ++ waiting) (queue : queued channel next.queue = waiting) :
    Flow websocket channel task s next [] where
  moved := ⟨now, later, taken, waiting, sent, before, by rw [loops, Function.update_self, after], head,
    by rw [queue, List.append_nil]⟩
  others := fun other apart => by rw [loops, Function.update_of_ne apart]

omit [DecidableEq D] in
theorem Flow.idle {websocket : W} {channel : String} {s next : Relay D W} {task : Nat} {loop : Loop W}
    (sent : next.sent = s.sent) (loops : next.loops = Function.update s.loops task loop) (queue : next.queue = s.queue)
    (before : (s.loops task).owed websocket = []) (after : loop.owed websocket = []) :
    Flow websocket channel task s next [] :=
  .of_update loops [] [] [] (queued channel s.queue) (by rw [sent, List.append_nil]) before after rfl (by rw [queue])

theorem queued_append (channel : String) (first second : List Message) :
    queued channel (first ++ second) = queued channel first ++ queued channel second := by
  simp [queued]

theorem queued_cons (channel : String) (message : Message) (rest : List Message) :
    queued channel (message :: rest) =
      (if (message.type = .message ∨ message.type = .pmessage) ∧ message.channel = channel then [message.data] else []) ++
        queued channel rest := by
  by_cases here : (message.type = .message ∨ message.type = .pmessage) ∧ message.channel = channel <;>
    simp [queued, here]

omit [DecidableEq D] in
theorem flow_taken {websocket : W} {channel : String} {s : Relay D W} {task : Nat} {snapshot : List W}
    {message : Message} {rest : List Message} (attached : Attached websocket channel s)
    (members : ∀ client, client ∈ snapshot ↔ client ∈ s.calls.service.clients message.channel)
    (polling : s.loops task = .polling) (waits : s.queue = message :: rest)
    (data : message.type = .message ∨ message.type = .pmessage) :
    Flow websocket channel task s
      (({ s with queue := rest } : Relay D W).move task (.sending message.channel message.data snapshot [])) [] := by
  have own : websocket ∈ snapshot ↔ message.channel = channel := (members websocket).trans (attached.alone _)
  have head : queued channel s.queue =
      (if message.channel = channel then [message.data] else []) ++ queued channel rest := by
    rw [waits, queued_cons]
    simp only [data, true_and]
  refine .of_update rfl [] [] _ (queued channel rest) (List.append_nil _).symm (by rw [polling]; rfl) ?_ head rfl
  simp only [Loop.owed, own, List.nil_append]

omit [DecidableEq D] in
theorem flow_dropped {websocket : W} {channel : String} {s : Relay D W} {message : Message} {rest : List Message}
    (task : Nat) (attached : Attached websocket channel s) (waits : s.queue = message :: rest)
    (ignored : message.type = .message ∨ message.type = .pmessage →
      message.channel ∉ s.calls.service.subscriptions) :
    Flow websocket channel task s { s with queue := rest } [] := by
  refine .still task rfl (fun _ => rfl) ?_
  rw [waits, queued_cons, if_neg, List.nil_append, List.append_nil]
  rintro ⟨data, same⟩
  exact ignored data (Service.mem_of_mem_clients ((attached.alone _).mpr same))

omit [DecidableEq D] in
theorem flow_sent {websocket client : W} {channel target data : String} {s : Relay D W} {task : Nat} {raises : Bool}
    {rest failed : List W} (attached : Attached websocket channel s)
    (sending : s.loops task = .sending target data (client :: rest) failed) :
    Flow websocket channel task s
      { s.move task (.sending target data rest (if raises then failed ++ [client] else failed)) with
        sent := s.sent ++ [(client, data)] } [] := by
  have fresh : client ∉ rest := (List.nodup_cons.mp (attached.distinct _ _ _ _ _ sending)).1
  by_cases own : client = websocket
  · subst own
    refine .of_update rfl [data] [] [] (queued channel s.queue) (by simp [payloads]) ?_ ?_ rfl rfl
    · rw [sending, Loop.owed, if_pos List.mem_cons_self, List.append_nil]
    · rw [Loop.owed, if_neg fresh, List.append_nil]
  · refine .of_update rfl [] _ [] (queued channel s.queue) (by simp [payloads, own]) (List.nil_append _).symm ?_ rfl rfl
    simp only [sending, Loop.owed, List.mem_cons, Ne.symm own, false_or, List.append_nil]

theorem flow_step {glob : String → String → Prop} {websocket : W} {channel : String} {s next : Relay D W}
    {action : RelayAction D W} {task : Nat} (attached : Attached websocket channel s)
    (permitted : action.Permitted glob s) (performed : s.Performed action next)
    (acts : ∀ other, action.task = some other → task = other) :
    Flow websocket channel task s next (action.deliveries channel) := by
  cases performed with
  | call called => exact .still task rfl (fun _ => rfl) (List.append_nil _).symm
  | publish target data messages => exact .still task rfl (fun _ => rfl) (queued_append channel s.queue messages)
  | notice message => exact .still task rfl (fun _ => rfl) (queued_append channel s.queue [message])
  | taken polling waits data known =>
      cases acts _ rfl
      exact flow_taken attached (permitted _ _ waits).2 polling waits data
  | dropped polling waits ignored => exact flow_dropped task attached waits ignored
  | sent sending =>
      cases acts _ rfl
      exact flow_sent attached sending
  | allSent sending =>
      cases acts _ rfl
      exact .idle rfl rfl rfl (by rw [sending]; simp [Loop.owed]) rfl
  | allClean cleaning =>
      cases acts _ rfl
      exact .idle rfl rfl rfl (by rw [cleaning]; rfl) rfl
  | cleaned cleaning left =>
      cases acts _ rfl
      exact .idle rfl rfl rfl (by rw [cleaning]; rfl) rfl
  | raised cleaning left =>
      cases acts _ rfl
      exact .idle rfl rfl rfl (by rw [cleaning]; rfl) rfl
  | crashed polling => exact .still task rfl (fun _ => rfl) (List.append_nil _).symm

theorem listening_call {websocket : W} {channel : String} {c next : Calls D W} {action : Action D W}
    (listening : channel ∈ c.service.pubsub.channels) (one : c.step action = some next)
    (stays : websocket ∈ next.service.clients channel) : channel ∈ next.service.pubsub.channels := by
  cases action with
  | subscribe feed client redis => cases one; exact c.service.channels_subscribe feed channel client redis listening
  | unsubscribe feed client redis caller => cases one; exact c.service.channels_unsubscribe listening stays
  | disconnect call client =>
      simp only [Calls.step] at one
      split at one
      · cases one; exact listening
      · cases one
  | disconnectNext call redis =>
      simp only [Calls.step] at one
      split at one
      · cases one; exact c.service.channels_unsubscribe listening stays
      · cases one
  | disconnectReturn call =>
      simp only [Calls.step] at one
      split at one
      · cases one; exact listening
      · cases one

theorem Attached.step {glob : String → String → Prop} {websocket : W} {channel : String} {s next : Relay D W}
    {action : RelayAction D W} (attached : Attached websocket channel s) (permitted : action.Permitted glob s)
    (one : s.step action = some next) (alone : Alone websocket channel next.calls.service) :
    Attached websocket channel next := by
  have stays : websocket ∈ next.calls.service.clients channel := (alone channel).mpr rfl
  -- a step of one task
  have moved {task : Nat} {loop : Loop W} (loops : next.loops = Function.update s.loops task loop)
      (distinct : ∀ target data rest failed, loop = .sending target data rest failed → rest.Nodup)
      (other : Nat) (target data : String) (rest failed : List W)
      (sending : next.loops other = .sending target data rest failed) : rest.Nodup := by
    rw [loops] at sending
    by_cases same : other = task
    · rw [same, Function.update_self] at sending
      exact distinct _ _ _ _ sending
    · rw [Function.update_of_ne same] at sending
      exact attached.distinct _ _ _ _ _ sending
  cases (performed_of_step one).1 with
  | call called => exact ⟨alone, listening_call attached.listening called stays, attached.distinct⟩
  | publish | notice | dropped | crashed => exact ⟨alone, attached.listening, attached.distinct⟩
  | taken polling waits data known =>
      have distinct := (permitted _ _ waits).1
      exact ⟨alone, attached.listening, moved rfl (by rintro _ _ _ _ ⟨⟩; exact distinct)⟩
  | sent sending =>
      have distinct := (List.nodup_cons.mp (attached.distinct _ _ _ _ _ sending)).2
      exact ⟨alone, attached.listening, moved rfl (by rintro _ _ _ _ ⟨⟩; exact distinct)⟩
  | allSent | allClean => exact ⟨alone, attached.listening, moved rfl nofun⟩
  | cleaned cleaning left | raised cleaning left =>
      have still := s.calls.service.channels_unsubscribe attached.listening (by rw [left]; exact stays)
      exact ⟨alone, by rwa [left] at still, moved rfl nofun⟩

theorem running_call {websocket : W} {channel : String} {c next : Calls D W} {action : Action D W} {task : Nat}
    (running : c.service.Running task) (one : c.step action = some next)
    (stays : websocket ∈ next.service.clients channel) : next.service.Running task := by
  have left {feed : String} {client : W} {redis : Ending} {caller : Caller}
      (still : websocket ∈ (c.service.unsubscribe feed client redis caller).2.clients channel) :
      (c.service.unsubscribe feed client redis caller).2.Running task := by
    rw [Service.Running, c.service.tasks_unsubscribe still]
    exact running
  cases action with
  | subscribe feed client redis => cases one; exact Service.running_subscribe running
  | unsubscribe feed client redis caller => cases one; exact left stays
  | disconnect call client =>
      simp only [Calls.step] at one
      split at one
      · cases one; exact running
      · cases one
  | disconnectNext call redis =>
      simp only [Calls.step] at one
      split at one
      · cases one; exact left stays
      · cases one
  | disconnectReturn call =>
      simp only [Calls.step] at one
      split at one
      · cases one; exact running
      · cases one

/-- The action ends the polling task: an exception at `get_message`, or one of a cleanup. -/
def EndsTask (s : Relay D W) (task : Nat) : RelayAction D W → Prop
  | .crash other _ => other = task
  | .clean other redis => other = task ∧ ∃ channel websocket rest, s.loops task = .cleaning channel (websocket :: rest) ∧
      (s.calls.service.unsubscribe channel websocket redis (.polling task)).1 = .raised
  | _ => False

/-- A task runs on unless it is ended, and one that has ended has nothing in hand. -/
theorem running_step {websocket : W} {channel : String} {s next : Relay D W} {action : RelayAction D W} {task : Nat}
    (running : s.calls.service.Running task) (one : s.step action = some next)
    (stays : websocket ∈ next.calls.service.clients channel) :
    next.calls.service.Running task ∨ s.EndsTask task action ∧ next.loops task = .polling := by
  have left {feed : String} {client : W} {redis : Ending} {caller : Caller} {service : Service W} {ending : Ending}
      (ended : s.calls.service.unsubscribe feed client redis caller = (ending, service))
      (still : websocket ∈ service.clients channel) : service.tasks = s.calls.service.tasks := by
    have same : (s.calls.service.unsubscribe feed client redis caller).2.tasks = s.calls.service.tasks :=
      s.calls.service.tasks_unsubscribe (by rw [ended]; exact still)
    rwa [ended] at same
  cases (performed_of_step one).1 with
  | call called => exact .inl (running_call running called stays)
  | publish | notice | taken | dropped | sent | allSent | allClean => exact .inl running
  | cleaned cleaning ended =>
      refine .inl ?_
      have same := left ended stays
      change (_ : List TaskState)[task]? = _
      exact same ▸ running
  | @raised other redis feed client rest service cleaning ended =>
      by_cases same : task = other
      · subst same
        refine .inr ⟨⟨rfl, feed, client, rest, cleaning, by rw [ended]⟩, Function.update_self _ _ _⟩
      · refine .inl ((Service.running_set (by simp)).mpr ⟨same, ?_⟩)
        rw [Service.Running, left ended stays]
        exact running
  | @crashed other runtimeError polling =>
      by_cases same : task = other
      · subst same
        exact .inr ⟨rfl, polling⟩
      · exact .inl ((Service.running_set (by simp)).mpr ⟨same, running⟩)

def Idle (s : Relay D W) : Prop := ∀ task, ¬s.calls.service.Running task → s.loops task = .polling

theorem Idle.step {websocket : W} {channel : String} {s next : Relay D W} {action : RelayAction D W} (idle : s.Idle)
    (one : s.step action = some next) (stays : websocket ∈ next.calls.service.clients channel) : next.Idle := by
  intro task ended
  by_cases running : s.calls.service.Running task
  · rcases running_step running one stays with still | ⟨-, polling⟩
    · exact absurd still ended
    · exact polling
  · have polling := idle task running
    obtain ⟨performed, acts⟩ := performed_of_step one
    -- the task that acts is another one
    have apart {other : Nat} (its : action.task = some other) : task ≠ other := by
      rintro rfl
      exact running (acts task its)
    cases performed with
    | call | publish | notice | dropped | crashed => exact polling
    | taken | sent | allSent | allClean | cleaned | raised =>
        exact (Function.update_of_ne (apart rfl) _ _).trans polling

/-- What was delivered is sent, or owed by one of the tasks listed, or queued. -/
def Balanced (websocket : W) (channel : String) (s : Relay D W) (delivered : List String) : Prop :=
  ∃ tasks : List Nat, tasks.Nodup ∧ (∀ task, (s.loops task).owed websocket ≠ [] → task ∈ tasks) ∧
    (payloads websocket s.sent ++ (tasks.flatMap fun task => (s.loops task).owed websocket) ++
      queued channel s.queue).Perm delivered

omit [DecidableEq D] in
theorem Balanced.flow {websocket : W} {channel : String} {s next : Relay D W} {task : Nat}
    {deliveries delivered : List String} (balanced : Balanced websocket channel s delivered)
    (flow : Flow websocket channel task s next deliveries) :
    Balanced websocket channel next (delivered ++ deliveries) := by
  obtain ⟨tasks, distinct, listed, sum⟩ := balanced
  obtain ⟨⟨now, later, taken, waiting, sent, before, after, head, queue⟩, others⟩ := flow
  -- the other tasks owe what they owed
  have rest : ((tasks.erase task).flatMap fun other => (next.loops other).owed websocket) =
      (tasks.erase task).flatMap fun other => (s.loops other).owed websocket := by
    refine List.flatMap_congr fun other member => others other ?_
    rintro rfl
    exact (distinct.not_mem_erase) member
  have split : (tasks.flatMap fun other => (s.loops other).owed websocket).Perm
      ((now ++ later) ++ (tasks.erase task).flatMap fun other => (s.loops other).owed websocket) := by
    by_cases member : task ∈ tasks
    · have same := (List.perm_cons_erase member).flatMap_right fun other => (s.loops other).owed websocket
      rwa [List.flatMap_cons, before] at same
    · have none : (s.loops task).owed websocket = [] := by_contra fun owes => member (listed task owes)
      rw [List.erase_of_not_mem member, ← before, none, List.nil_append]
  refine ⟨task :: tasks.erase task, List.nodup_cons.mpr ⟨distinct.not_mem_erase, distinct.erase task⟩, ?_, ?_⟩
  · intro other owes
    by_cases same : other = task
    · rw [same]
      exact List.mem_cons_self
    · rw [others other same] at owes
      exact List.mem_cons_of_mem _ ((List.mem_erase_of_ne same).mpr (listed other owes))
  · rw [sent, List.flatMap_cons, after, rest, queue]
    rw [head] at sum
    refine List.perm_iff_count.mpr fun payload => ?_
    have counted := List.perm_iff_count.mp sum payload
    have parted := List.perm_iff_count.mp split payload
    simp only [List.count_append] at counted parted ⊢
    omega

theorem balanced_of_run {glob : String → String → Prop} {websocket : W} {channel : String}
    {actions : List (RelayAction D W)} {s final : Relay D W} {delivered : List String}
    (attached : Attached websocket channel s) (balanced : Balanced websocket channel s delivered)
    (permitted : Along step (fun s action => action.Permitted glob s) actions s)
    (stays : Along step (fun s action => ∀ next, s.step action = some next →
      Alone websocket channel next.calls.service) actions s)
    (run : exec step actions s = some final) :
    Balanced websocket channel final (delivered ++ actions.flatMap (RelayAction.deliveries channel)) := by
  induction actions generalizing s delivered with
  | nil => cases run; rwa [List.flatMap_nil, List.append_nil]
  | cons action rest ih =>
      obtain ⟨next, one, more⟩ := exec_cons.mp run
      have performed := (performed_of_step one).1
      have flow : Flow websocket channel (action.task.getD 0) s next (action.deliveries channel) :=
        flow_step attached permitted.1 performed fun other acts => by rw [acts, Option.getD_some]
      rw [List.flatMap_cons, ← List.append_assoc]
      exact ih (attached.step permitted.1 one (stays.1 next one)) (balanced.flow flow) (permitted.2 next one)
        (stays.2 next one) more

/-- With one task at work what was delivered is in line: sent, owed by the task, queued. -/
def InLine (websocket : W) (channel : String) (task : Nat) (s : Relay D W) (delivered : List String) : Prop :=
  payloads websocket s.sent ++ (s.loops task).owed websocket ++ queued channel s.queue = delivered

omit [DecidableEq D] in
theorem InLine.flow {websocket : W} {channel : String} {s next : Relay D W} {task : Nat}
    {deliveries delivered : List String} (inLine : InLine websocket channel task s delivered)
    (flow : Flow websocket channel task s next deliveries) :
    InLine websocket channel task next (delivered ++ deliveries) := by
  obtain ⟨⟨now, later, taken, waiting, sent, before, after, head, queue⟩, -⟩ := flow
  rw [InLine, before, head] at inLine
  rw [InLine, sent, after, queue, ← inLine]
  simp only [List.append_assoc]

theorem inLine_of_run {glob : String → String → Prop} {websocket : W} {channel : String} {task : Nat}
    {actions : List (RelayAction D W)} {s final : Relay D W} {delivered : List String}
    (attached : Attached websocket channel s) (inLine : InLine websocket channel task s delivered)
    (permitted : Along step (fun s action => action.Permitted glob s) actions s)
    (stays : Along step (fun s action => ∀ next, s.step action = some next →
      Alone websocket channel next.calls.service) actions s)
    (only : Along step (fun s _ => ∀ other, s.calls.service.Running other → other = task) actions s)
    (run : exec step actions s = some final) :
    InLine websocket channel task final (delivered ++ actions.flatMap (RelayAction.deliveries channel)) := by
  induction actions generalizing s delivered with
  | nil => cases run; rwa [List.flatMap_nil, List.append_nil]
  | cons action rest ih =>
      obtain ⟨next, one, more⟩ := exec_cons.mp run
      obtain ⟨performed, running⟩ := performed_of_step one
      have flow : Flow websocket channel task s next (action.deliveries channel) :=
        flow_step attached permitted.1 performed fun other acts => (only.1 other (running other acts)).symm
      rw [List.flatMap_cons, ← List.append_assoc]
      exact ih (attached.step permitted.1 one (stays.1 next one)) (inLine.flow flow) (permitted.2 next one)
        (stays.2 next one) (only.2 next one) more

/-! Publications against what Redis delivers of them. -/

theorem queued_of_yields {glob : String → String → Prop} {p : PubSub} {channel target data : String}
    {messages : List Message} (yields : Yields glob p target data messages) :
    queued channel messages = if target = channel then List.replicate messages.length data else [] := by
  split
  · rename_i same
    rw [queued, List.filter_eq_self.mpr, List.eq_replicate_iff, List.length_map]
    · refine ⟨rfl, fun payload member => ?_⟩
      obtain ⟨message, inside, rfl⟩ := List.mem_map.mp member
      exact (yields.mem inside).2.2
    · intro message member
      obtain ⟨kind, here, -⟩ := yields.mem member
      simp [kind, here, same]
  · rename_i apart
    rw [queued, List.filter_eq_nil_iff.mpr, List.map_nil]
    intro message member
    obtain ⟨-, here, -⟩ := yields.mem member
    simp [here, apart]

/-- On a channel that is subscribed itself a publication yields one message
exactly when no pattern selects the channel, and more otherwise. -/
theorem length_of_yields {glob : String → String → Prop} {p : PubSub} {channel data : String} {messages : List Message}
    (yields : Yields glob p channel data messages) (listening : channel ∈ p.channels) :
    1 ≤ messages.length ∧ (messages.length = 1 ↔ ∀ pattern ∈ p.patterns, ¬glob pattern channel) := by
  obtain ⟨matching, -, members, same⟩ := yields
  have length := same.length_eq
  rw [if_pos listening, List.length_append, List.length_map, List.length_singleton] at length
  refine ⟨by omega, fun one pattern member selects => ?_, fun unmatched => ?_⟩
  · have empty : matching = [] := List.length_eq_zero_iff.mp (by omega)
    have listed := (members pattern).mpr ⟨member, selects⟩
    rw [empty] at listed
    cases listed
  · have empty : matching = [] := List.eq_nil_iff_forall_not_mem.mpr fun pattern listed =>
      unmatched pattern ((members pattern).mp listed).1 ((members pattern).mp listed).2
    rw [length, empty, List.length_nil]

omit [DecidableEq W] [DecidableEq D] in
/-- One action: at least what is published is delivered, and just that exactly
when no pattern selects the channel. -/
theorem deliveries_spec {glob : String → String → Prop} {channel : String} {s : Relay D W} {action : RelayAction D W}
    (listening : channel ∈ s.calls.service.pubsub.channels) (permitted : action.Permitted glob s) :
    (action.publication channel).length ≤ (action.deliveries channel).length ∧
    (action.Unmatched glob channel s → action.deliveries channel = action.publication channel) ∧
    ((action.deliveries channel).length = (action.publication channel).length → action.Unmatched glob channel s) := by
  cases action with
  | publish target data messages =>
      simp only [RelayAction.publication, RelayAction.deliveries, RelayAction.Unmatched, queued_of_yields permitted]
      by_cases same : target = channel
      · subst same
        obtain ⟨some, one⟩ := length_of_yields permitted listening
        simp only [if_true, List.length_replicate, List.length_singleton, forall_const]
        refine ⟨some, fun unmatched => ?_, one.mp⟩
        rw [one.mpr unmatched]
        rfl
      · simp [same]
  | notice message =>
      have none : queued channel [message] = [] := by
        rw [queued, List.filter_eq_nil_iff.mpr, List.map_nil]
        simp only [List.mem_singleton, decide_eq_true_eq]
        rintro _ rfl ⟨kind, -⟩
        exact kind.elim permitted.1 permitted.2
      simp [RelayAction.publication, RelayAction.deliveries, RelayAction.Unmatched, none]
  | _ => simp [RelayAction.publication, RelayAction.deliveries, RelayAction.Unmatched]

theorem deliveries_of_run {glob : String → String → Prop} {websocket : W} {channel : String}
    {actions : List (RelayAction D W)} {s final : Relay D W} (attached : Attached websocket channel s)
    (permitted : Along step (fun s action => action.Permitted glob s) actions s)
    (stays : Along step (fun s action => ∀ next, s.step action = some next →
      Alone websocket channel next.calls.service) actions s)
    (run : exec step actions s = some final) :
    let published := actions.flatMap (RelayAction.publication channel)
    let delivered := actions.flatMap (RelayAction.deliveries channel)
    let unmatched := Along step (fun s action => action.Unmatched glob channel s) actions s
    published.length ≤ delivered.length ∧ (unmatched → delivered = published) ∧
      (delivered.length = published.length → unmatched) := by
  induction actions generalizing s with
  | nil => exact ⟨Nat.le_refl 0, fun _ => rfl, fun _ => trivial⟩
  | cons action rest ih =>
      obtain ⟨next, one, more⟩ := exec_cons.mp run
      obtain ⟨fewer, same, unmatched⟩ := deliveries_spec attached.listening permitted.1
      obtain ⟨fewerLater, sameLater, unmatchedLater⟩ := ih (attached.step permitted.1 one (stays.1 next one))
        (permitted.2 next one) (stays.2 next one) more
      simp only [List.flatMap_cons, List.length_append]
      refine ⟨by omega, fun along => ?_, fun equal => ?_⟩
      · rw [same along.1, sameLater (along.2 next one)]
      · exact .cons (unmatched (by omega)) one (unmatchedLater (by omega))

end Relay

/-- A stretch of service during which the client is subscribed to the channel
and to nothing else, from a state with nothing under way to one where no task
that still polls has anything to do. -/
structure Window (D : Type*) [DecidableEq D] (glob : String → String → Prop) (websocket : W) (channel : String) where
  start : Relay D W
  actions : List (RelayAction D W)
  final : Relay D W
  alone : Alone websocket channel start.calls.service
  listening : channel ∈ start.calls.service.pubsub.channels
  quiet : start.queue = [] ∧ (∀ task, start.loops task = .polling) ∧ start.sent = []
  permitted : Along Relay.step (fun s action => action.Permitted glob s) actions start
  stays : Along Relay.step (fun s action => ∀ next, s.step action = some next →
    Alone websocket channel next.calls.service) actions start
  run : exec Relay.step actions start = some final
  settled : ∀ task, final.calls.service.Running task → final.queue = [] ∧ final.loops task = .polling

namespace Window

variable {glob : String → String → Prop} {websocket : W} {channel : String}

def published (window : Window D glob websocket channel) : List String :=
  window.actions.flatMap (RelayAction.publication channel)

def received (window : Window D glob websocket channel) : List String := payloads websocket window.final.sent

/-- No pattern of any client selects the channel at any publication on it. -/
def Unmatched (window : Window D glob websocket channel) : Prop :=
  Along Relay.step (fun s action => action.Unmatched glob channel s) window.actions window.start

/-- The polling has not ended: some task is left at the end of the stretch. -/
def StillPolled (window : Window D glob websocket channel) : Prop :=
  ∃ task, window.final.calls.service.Running task

def PolledBy (task : Nat) (window : Window D glob websocket channel) : Prop :=
  Along Relay.step (fun s _ => ∀ other, s.calls.service.Running other → other = task) window.actions window.start

theorem attached (window : Window D glob websocket channel) : Relay.Attached websocket channel window.start where
  alone := window.alone
  listening := window.listening
  distinct := fun task _ _ _ _ sending => by rw [window.quiet.2.1 task] at sending; cases sending

theorem idle (window : Window D glob websocket channel) : window.final.Idle := by
  refine along_invariant Relay.Idle ?_ (fun task _ => window.quiet.2.1 task) window.stays window.run
  intro s action next idle stays one
  exact idle.step one ((stays next one channel).mpr rfl)

theorem handled (window : Window D glob websocket channel) (polled : window.StillPolled) :
    window.final.queue = [] ∧ ∀ task, window.final.loops task = .polling := by
  obtain ⟨task, running⟩ := polled
  refine ⟨(window.settled task running).1, fun other => ?_⟩
  by_cases runs : window.final.calls.service.Running other
  · exact (window.settled other runs).2
  · exact window.idle other runs

/-- A task that polls at the start and is never ended is left at the end. -/
theorem stillPolled_of_spared (window : Window D glob websocket channel) {task : Nat}
    (running : window.start.calls.service.Running task)
    (spared : Along Relay.step (fun s action => ¬s.EndsTask task action) window.actions window.start) :
    window.StillPolled := by
  refine ⟨task, along_invariant (fun s => s.calls.service.Running task) ?_ running (window.stays.and spared) window.run⟩
  rintro s action next running ⟨stays, spared⟩ one
  exact (Relay.running_step running one ((stays next one channel).mpr rfl)).resolve_right fun ended => spared ended.1

theorem received_perm (window : Window D glob websocket channel) (polled : window.StillPolled) :
    window.received.Perm (window.actions.flatMap (RelayAction.deliveries channel)) := by
  have balanced : Relay.Balanced websocket channel window.start [] := by
    refine ⟨[], List.nodup_nil, fun task owes => ?_, ?_⟩
    · rw [window.quiet.2.1 task] at owes
      exact absurd rfl owes
    · rw [window.quiet.1, window.quiet.2.2]
      exact List.Perm.refl []
  obtain ⟨tasks, -, -, sum⟩ :=
    Relay.balanced_of_run window.attached balanced window.permitted window.stays window.run
  have nothing : (tasks.flatMap fun task => (window.final.loops task).owed websocket) = [] :=
    List.flatMap_eq_nil_iff.mpr fun task _ => by rw [(window.handled polled).2 task]; rfl
  rw [nothing, (window.handled polled).1] at sum
  simpa [received, queued] using sum

theorem received_eq {task : Nat} (window : Window D glob websocket channel) (polled : window.StillPolled)
    (alone : window.PolledBy task) : window.received = window.actions.flatMap (RelayAction.deliveries channel) := by
  have inLine : Relay.InLine websocket channel task window.start [] := by
    rw [Relay.InLine, window.quiet.1, window.quiet.2.1 task, window.quiet.2.2]
    rfl
  have line := Relay.inLine_of_run window.attached inLine window.permitted window.stays alone window.run
  rw [Relay.InLine, (window.handled polled).1, (window.handled polled).2 task] at line
  simpa [received, queued, Loop.owed] using line

/-- Two stretches with the same publications on the client's channel, whatever
the other clients do in each, at the end of which a task is still polling: the
client gets every publication once in both exactly when no pattern of anybody
selects the channel at a publication; and where one task does the polling, it
then gets them in order. -/
theorem sent_once_iff (first second : Window D glob websocket channel) (same : first.published = second.published)
    (polled : first.StillPolled) (polledToo : second.StillPolled) :
    ((first.received.Perm first.published ∧ second.received.Perm first.published) ↔
      first.Unmatched ∧ second.Unmatched) ∧
    ∀ one other : Nat, first.PolledBy one → second.PolledBy other →
      ((first.received = first.published ∧ second.received = first.published) ↔
        first.Unmatched ∧ second.Unmatched) := by
  have each (window : Window D glob websocket channel) (polled : window.StillPolled) :
      (window.Unmatched → window.actions.flatMap (RelayAction.deliveries channel) = window.published) ∧
      (window.received.Perm window.published → window.Unmatched) := by
    obtain ⟨-, equal, unmatched⟩ :=
      Relay.deliveries_of_run window.attached window.permitted window.stays window.run
    exact ⟨equal, fun got => unmatched ((window.received_perm polled).length_eq.symm.trans got.length_eq)⟩
  have one := each first polled
  have other := each second polledToo
  constructor
  · rw [same]
    constructor
    · rintro ⟨got, also⟩
      exact ⟨one.2 (same ▸ got), other.2 also⟩
    · rintro ⟨unmatched, also⟩
      exact ⟨same ▸ one.1 unmatched ▸ first.received_perm polled, other.1 also ▸ second.received_perm polledToo⟩
  · intro task also byOne byOther
    constructor
    · rintro ⟨got, got'⟩
      exact ⟨one.2 (.of_eq got), other.2 (.of_eq (got'.trans same))⟩
    · rintro ⟨unmatched, unmatched'⟩
      exact ⟨(first.received_eq polled byOne).trans (one.1 unmatched),
        (second.received_eq polledToo byOther).trans ((other.1 unmatched').trans same.symm)⟩

/-! One client of a leaderboard, with and without another client on a pattern. -/

def topVolume : Service Nat := ((.fresh : Service Nat).subscribe "leaderboard:top_volume" 1 .returned).2

def topVolumeAndPattern : Service Nat := (topVolume.subscribe "leaderboard:*" 2 .returned).2

def before (service : Service Nat) : Relay Nat Nat := ⟨⟨service, fun _ => none⟩, [], fun _ => .polling, []⟩

def plainMessage : Message := ⟨.message, none, "leaderboard:top_volume", "[]"⟩

def patternMessage : Message := ⟨.pmessage, some "leaderboard:*", "leaderboard:top_volume", "[]"⟩

def turnFor : List (RelayAction Nat Nat) := [.take 0 [1], .send 0 false, .turn 0, .turn 0]

theorem alone_topVolume : Alone 1 "leaderboard:top_volume" topVolume := by
  intro feed
  rw [topVolume, Service.clients_subscribe]
  by_cases same : feed = "leaderboard:top_volume" <;> simp [same, Service.fresh, Service.clients]

theorem alone_topVolumeAndPattern : Alone 1 "leaderboard:top_volume" topVolumeAndPattern := by
  intro feed
  rw [topVolumeAndPattern, Service.clients_subscribe]
  by_cases same : feed = "leaderboard:*"
  · have apart : (1 : Nat) ∉ topVolume.clients "leaderboard:*" := fun member =>
      absurd ((alone_topVolume _).mp member) (by decide)
    simp [same, apart]
  · rw [if_neg same]
    exact alone_topVolume feed

/-- The position of task 0 after it handled one message for the client. -/
def afterTurn (loops : Nat → Loop Nat) : Nat → Loop Nat :=
  Function.update (Function.update (Function.update (Function.update loops
    0 (.sending "leaderboard:top_volume" "[]" [1] [])) 0 (.sending "leaderboard:top_volume" "[]" [] []))
    0 (.cleaning "leaderboard:top_volume" [])) 0 .polling

theorem afterTurn_polling {loops : Nat → Loop Nat} (polling : ∀ task, loops task = .polling) (task : Nat) :
    afterTurn loops task = .polling := by
  by_cases same : task = 0 <;> simp [afterTurn, same, polling]

theorem snapshot_one {service : Service Nat} (alone : service.clients "leaderboard:top_volume" = {1})
    {queue : List Message} (same : ∀ message ∈ queue, message.channel = "leaderboard:top_volume")
    (message : Message) (rest : List Message) (waits : queue = message :: rest) :
    [1].Nodup ∧ ∀ websocket, websocket ∈ [1] ↔ websocket ∈ service.clients message.channel := by
  refine ⟨List.nodup_singleton 1, fun websocket => ?_⟩
  rw [same message (waits ▸ List.mem_cons_self), alone, List.mem_singleton, Finset.mem_singleton]

def plainWindow : Window Nat Glob.Matches 1 "leaderboard:top_volume" where
  start := before topVolume
  actions := .publish "leaderboard:top_volume" "[]" [plainMessage] :: turnFor
  final := ⟨⟨topVolume, fun _ => none⟩, [], afterTurn fun _ => .polling, [(1, "[]")]⟩
  alone := alone_topVolume
  listening := by decide
  quiet := ⟨rfl, fun _ => rfl, rfl⟩
  permitted := by
    refine .cons ⟨[], List.nodup_nil, fun pattern => ?_, .refl _⟩ rfl <|
      .cons (snapshot_one rfl (by decide)) rfl <| .cons trivial rfl <| .cons trivial rfl <| .cons trivial rfl trivial
    have none : topVolume.pubsub.patterns = ∅ := rfl
    simp [before, none]
  stays := by
    refine .cons ?_ rfl <| .cons ?_ rfl <| .cons ?_ rfl <| .cons ?_ rfl <| .cons ?_ rfl trivial
    all_goals
      rintro next ⟨⟩
      exact alone_topVolume
  run := rfl
  settled := fun task _ => ⟨rfl, afterTurn_polling (fun _ => rfl) task⟩

/-- Beside a client on a pattern: the same publication, two messages. -/
def patternWindow : Window Nat Glob.Matches 1 "leaderboard:top_volume" where
  start := before topVolumeAndPattern
  actions := .publish "leaderboard:top_volume" "[]" [plainMessage, patternMessage] :: (turnFor ++ turnFor)
  final := ⟨⟨topVolumeAndPattern, fun _ => none⟩, [], afterTurn (afterTurn fun _ => .polling), [(1, "[]"), (1, "[]")]⟩
  alone := alone_topVolumeAndPattern
  listening := by decide
  quiet := ⟨rfl, fun _ => rfl, rfl⟩
  permitted := by
    refine .cons ⟨["leaderboard:*"], List.nodup_singleton _, fun pattern => ?_, .refl _⟩ rfl <|
      .cons (snapshot_one rfl (by decide)) rfl <| .cons trivial rfl <| .cons trivial rfl <| .cons trivial rfl <|
      .cons (snapshot_one rfl (by decide)) rfl <| .cons trivial rfl <| .cons trivial rfl <| .cons trivial rfl trivial
    have only : topVolumeAndPattern.pubsub.patterns = {"leaderboard:*"} := rfl
    simp only [before, only, List.mem_singleton, Finset.mem_singleton]
    exact ⟨fun same => ⟨same, same ▸ by decide⟩, And.left⟩
  stays := by
    refine .cons ?_ rfl <| .cons ?_ rfl <| .cons ?_ rfl <| .cons ?_ rfl <| .cons ?_ rfl <|
      .cons ?_ rfl <| .cons ?_ rfl <| .cons ?_ rfl <| .cons ?_ rfl trivial
    all_goals
      rintro next ⟨⟩
      exact alone_topVolumeAndPattern
  run := rfl
  settled := fun task _ => ⟨rfl, afterTurn_polling (afterTurn_polling fun _ => rfl) task⟩

theorem sent_once_iff_plain :
    ((plainWindow.received.Perm plainWindow.published ∧ plainWindow.received.Perm plainWindow.published) ↔
      plainWindow.Unmatched ∧ plainWindow.Unmatched) ∧
    ∀ one other : Nat, plainWindow.PolledBy one → plainWindow.PolledBy other →
      ((plainWindow.received = plainWindow.published ∧ plainWindow.received = plainWindow.published) ↔
        plainWindow.Unmatched ∧ plainWindow.Unmatched) :=
  sent_once_iff plainWindow plainWindow rfl ⟨0, rfl⟩ ⟨0, rfl⟩

/-- The two stretches differ in the other client's pattern and in nothing else:
the client gets the one publication once, and twice. -/
theorem pattern_doubles : plainWindow.published = ["[]"] ∧ patternWindow.published = ["[]"] ∧
    (patternWindow.start.calls.service = (plainWindow.start.calls.service.subscribe "leaderboard:*" 2 .returned).2) ∧
    plainWindow.received = ["[]"] ∧ patternWindow.received = ["[]", "[]"] :=
  ⟨rfl, rfl, rfl, by decide, by decide⟩

end Window
end KuhlHausMdp.WidgetDataService
