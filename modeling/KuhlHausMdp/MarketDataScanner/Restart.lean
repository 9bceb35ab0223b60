import Mathlib.Data.Finset.Basic
import KuhlHausMdp.Library.Transition

/-! Starting, stopping and restarting a `MarketDataScanner`. `_handle_pubsub`
answers a lost connection with `restart`, so `stop` cancels and awaits the very
task it runs in, and then uses the lost connection. -/

set_option autoImplicit false

namespace KuhlHausMdp.MarketDataScanner

namespace Restart

inductive Ending where
  | returned
  | raised
  deriving DecidableEq, Repr

inductive TaskState where
  | running
  | returned
  | cancelled
  | raised
  deriving DecidableEq, Repr

/-- The test `subscription.endswith("*")`. -/
def Wildcard (subscription : String) : Prop := subscription.toList.getLast? = some '*'

instance (subscription : String) : Decidable (Wildcard subscription) := inferInstanceAs (Decidable (_ = _))

structure PubSubClient where
  redisClient : Nat
  channels : Finset String
  patterns : Finset String
  deriving DecidableEq

namespace PubSubClient

def subscribe (client : PubSubClient) (subscription : String) : PubSubClient :=
  if Wildcard subscription then { client with patterns := insert subscription client.patterns }
  else { client with channels := insert subscription client.channels }

def unsubscribe (client : PubSubClient) (subscription : String) : PubSubClient :=
  if Wildcard subscription then { client with patterns := client.patterns.erase subscription }
  else { client with channels := client.channels.erase subscription }

def Subscribed (client : PubSubClient) (subscription : String) : Prop :=
  if Wildcard subscription then subscription ∈ client.patterns else subscription ∈ client.channels

instance (client : PubSubClient) (subscription : String) : Decidable (client.Subscribed subscription) :=
  inferInstanceAs (Decidable
    (if Wildcard subscription then subscription ∈ client.patterns else subscription ∈ client.channels))

/-- A loop over the subscriptions, left where a call raises; `calls` gives the
ending of each call by its position. -/
def forEach (call : PubSubClient → String → PubSubClient) (calls : Nat → Ending) :
    List String → PubSubClient → Ending × PubSubClient
  | [], client => (.returned, client)
  | subscription :: rest, client =>
      match calls 0 with
      | .raised => (.raised, client)
      | .returned => forEach call (fun i => calls (i + 1)) rest (call client subscription)

theorem subscribed_subscribe_self (client : PubSubClient) (subscription : String) :
    (client.subscribe subscription).Subscribed subscription := by
  by_cases wild : Wildcard subscription <;> simp [subscribe, Subscribed, wild]

theorem subscribed_subscribe {client : PubSubClient} {subscription other : String}
    (subscribed : client.Subscribed other) : (client.subscribe subscription).Subscribed other := by
  unfold Subscribed at subscribed ⊢
  by_cases wild : Wildcard other
  · rw [if_pos wild] at subscribed ⊢
    unfold subscribe
    split
    · exact Finset.mem_insert_of_mem subscribed
    · exact subscribed
  · rw [if_neg wild] at subscribed ⊢
    unfold subscribe
    split
    · exact subscribed
    · exact Finset.mem_insert_of_mem subscribed

theorem redisClient_subscribe (client : PubSubClient) (subscription : String) :
    (client.subscribe subscription).redisClient = client.redisClient := by
  unfold subscribe
  split <;> rfl

theorem forEach_returned_iff (call : PubSubClient → String → PubSubClient) (calls : Nat → Ending)
    (subscriptions : List String) (client : PubSubClient) :
    (client.forEach call calls subscriptions).1 = .returned ↔ ∀ i < subscriptions.length, calls i = .returned := by
  induction subscriptions generalizing calls client with
  | nil => simp [forEach]
  | cons subscription rest ih =>
      rw [List.length_cons, Nat.forall_lt_succ_left]
      unfold forEach
      cases first : calls 0 with
      | raised => simp
      | returned => simpa using ih (fun i => calls (i + 1)) (call client subscription)

theorem forEach_subscribe {calls : Nat → Ending} {subscriptions : List String} (client : PubSubClient)
    (returned : ∀ i < subscriptions.length, calls i = .returned) :
    (client.forEach subscribe calls subscriptions).2.redisClient = client.redisClient ∧
    (∀ other, client.Subscribed other → (client.forEach subscribe calls subscriptions).2.Subscribed other) ∧
    ∀ other ∈ subscriptions, (client.forEach subscribe calls subscriptions).2.Subscribed other := by
  induction subscriptions generalizing calls client with
  | nil => exact ⟨rfl, fun _ => id, nofun⟩
  | cons subscription rest ih =>
      rw [List.length_cons, Nat.forall_lt_succ_left] at returned
      obtain ⟨same, kept, made⟩ := ih (client.subscribe subscription) returned.2
      simp only [forEach, returned.1]
      refine ⟨same.trans (redisClient_subscribe client subscription),
        fun other before => kept other (subscribed_subscribe before), ?_⟩
      rintro other (_ | ⟨_, later⟩)
      · exact kept subscription (subscribed_subscribe_self client subscription)
      · exact made other later

end PubSubClient

/-- The Redis calls of one `stop`: one for each subscription, and two closes. -/
structure StopCalls where
  unsubscribe : Nat → Ending
  closePubsub : Ending
  closeRedis : Ending

/-- The awaited calls of one `start`. -/
structure StartCalls where
  ping : Ending
  rehydrate : Ending
  subscribe : Nat → Ending

/-- A task is known by its position in `tasks`, a Redis client by its number. -/
structure Scanner where
  subscriptions : List String
  redisClients : Nat
  redisClient : Option Nat
  pubsubClient : Option PubSubClient
  mdcConnected : Bool
  running : Bool
  pubsubTask : Option Nat
  tasks : List TaskState
  restarts : Nat

namespace Scanner

def fresh (subscriptions : List String) : Scanner := ⟨subscriptions, 0, none, none, false, false, none, [], 0⟩

def connect (calls : StartCalls) (self : Scanner) : Ending × Scanner :=
  if self.mdcConnected then (.returned, self)
  else
    let self := { self with redisClients := self.redisClients + 1, redisClient := some self.redisClients }
    match calls.ping with
    | .raised => (.raised, self)
    | .returned => (.returned, { self with mdcConnected := true })

def start (calls : StartCalls) (self : Scanner) : Ending × Scanner :=
  match self.connect calls with
  | (.raised, self) => (.raised, self)
  | (.returned, self) =>
      match self.redisClient with
      -- there is nothing to call `pubsub` on
      | none => (.raised, self)
      | some redisClient =>
          let self := { self with pubsubClient := some ⟨redisClient, ∅, ∅⟩ }
          match calls.rehydrate with
          | .raised => (.raised, self)
          | .returned =>
              match PubSubClient.forEach PubSubClient.subscribe calls.subscribe self.subscriptions ⟨redisClient, ∅, ∅⟩ with
              | (.raised, client) => (.raised, { self with pubsubClient := some client })
              | (.returned, client) => (.returned, { self with
                  pubsubClient := some client
                  pubsubTask := some self.tasks.length
                  tasks := self.tasks ++ [.running] })

/-- The first block of `stop`, run by a task or from outside: a task that is
its own caller is resumed with a `CancelledError`, which is swallowed, and runs
on; the await of one that has failed raises. -/
def cancelTask (caller : Option Nat) (self : Scanner) : Ending × Scanner :=
  match self.pubsubTask with
  | none => (.returned, self)
  | some task =>
      match self.tasks[task]? with
      | some .raised => (.raised, self)
      | some .running =>
          if caller = some task then (.returned, { self with pubsubTask := none })
          else (.returned, { self with
            pubsubTask := none
            tasks := self.tasks.set task .cancelled
            running := false
            mdcConnected := false })
      | _ => (.returned, { self with pubsubTask := none })

def closePubsub (calls : StopCalls) (self : Scanner) : Ending × Scanner :=
  match self.pubsubClient with
  | none => (.returned, self)
  | some client =>
      match client.forEach PubSubClient.unsubscribe calls.unsubscribe self.subscriptions with
      | (.raised, client) => (.raised, { self with pubsubClient := some client })
      | (.returned, client) =>
          match calls.closePubsub with
          | .raised => (.raised, { self with pubsubClient := some client })
          | .returned => (.returned, { self with pubsubClient := none })

def closeRedis (calls : StopCalls) (self : Scanner) : Ending × Scanner :=
  match self.redisClient with
  | none => (.returned, self)
  | some _ =>
      match calls.closeRedis with
      | .raised => (.raised, self)
      | .returned => (.returned, { self with redisClient := none, mdcConnected := false })

def stop (caller : Option Nat) (calls : StopCalls) (self : Scanner) : Ending × Scanner :=
  match self.cancelTask caller with
  | (.raised, self) => (.raised, self)
  | (.returned, self) =>
      match self.closePubsub calls with
      | (.raised, self) => (.raised, self)
      | (.returned, self) => self.closeRedis calls

/-- `restart` logs whatever `stop` or `start` raises. -/
def restart (caller : Option Nat) (stopCalls : StopCalls) (startCalls : StartCalls) (self : Scanner) : Scanner :=
  match self.stop caller stopCalls with
  | (.raised, self) => self
  | (.returned, self) =>
      match self.start startCalls with
      | (.raised, self) => self
      | (.returned, self) => { self with restarts := self.restarts + 1 }

/-- The handler of a `ConnectionError` in `_handle_pubsub`, and the return of the task. -/
def connectionError (task : Nat) (stopCalls : StopCalls) (startCalls : StartCalls) (self : Scanner) : Scanner :=
  let self := { self with running := false, mdcConnected := false }
  let self := self.restart (some task) stopCalls startCalls
  { self with tasks := self.tasks.set task .returned }

/-- The scanner polls: one unfinished task, which is the one the handle names,
a pub/sub client of the current Redis client with every subscription, and the
flag. -/
structure Running (self : Scanner) : Prop where
  only : ∃ task, self.pubsubTask = some task ∧ ∀ other, self.tasks[other]? = some .running ↔ other = task
  subscribed : ∃ client, self.pubsubClient = some client ∧ self.redisClient = some client.redisClient ∧
    ∀ subscription ∈ self.subscriptions, client.Subscribed subscription
  connected : self.mdcConnected = true

end Scanner

def StopCalls.Return (calls : StopCalls) (subscriptions : List String) : Prop :=
  (∀ i < subscriptions.length, calls.unsubscribe i = .returned) ∧ calls.closePubsub = .returned ∧
    calls.closeRedis = .returned

def StartCalls.Return (calls : StartCalls) (subscriptions : List String) : Prop :=
  calls.ping = .returned ∧ calls.rehydrate = .returned ∧
    ∀ i < subscriptions.length, calls.subscribe i = .returned

namespace Scanner

theorem start_returned {calls : StartCalls} {self : Scanner} (lost : self.mdcConnected = false)
    (returns : calls.Return self.subscriptions) : ∃ client : PubSubClient,
    client.redisClient = self.redisClients ∧ (∀ subscription ∈ self.subscriptions, client.Subscribed subscription) ∧
    self.start calls = (.returned, { self with
      redisClients := self.redisClients + 1
      redisClient := some self.redisClients
      pubsubClient := some client
      mdcConnected := true
      pubsubTask := some self.tasks.length
      tasks := self.tasks ++ [.running] }) := by
  obtain ⟨ping, rehydrate, subscribe⟩ := returns
  cases loop : PubSubClient.forEach PubSubClient.subscribe calls.subscribe self.subscriptions
      ⟨self.redisClients, ∅, ∅⟩ with
  | mk ending client =>
      have returned := (PubSubClient.forEach_returned_iff PubSubClient.subscribe calls.subscribe self.subscriptions
        ⟨self.redisClients, ∅, ∅⟩).mpr subscribe
      obtain ⟨same, -, made⟩ := PubSubClient.forEach_subscribe ⟨self.redisClients, ∅, ∅⟩ subscribe
      rw [loop] at returned same made
      cases returned
      exact ⟨client, same, made, by simp [start, connect, lost, ping, rehydrate, loop]⟩

/-- `stop` in the task it cancels: it forgets the task and, when a call raises,
goes no further. -/
theorem stop_own {calls : StopCalls} {self : Scanner} {task redisClient : Nat} {client : PubSubClient}
    (handle : self.pubsubTask = some task) (running : self.tasks[task]? = some .running)
    (pubsub : self.pubsubClient = some client) (redis : self.redisClient = some redisClient) :
    (calls.Return self.subscriptions ∧ self.stop (some task) calls = (.returned, { self with
      pubsubTask := none, pubsubClient := none, redisClient := none, mdcConnected := false })) ∨
    (¬calls.Return self.subscriptions ∧ ∃ pubsubClient, self.stop (some task) calls = (.raised, { self with
      pubsubTask := none, pubsubClient := pubsubClient })) := by
  have cancelled : self.cancelTask (some task) = (.returned, { self with pubsubTask := none }) := by
    simp [cancelTask, handle, running]
  cases loop : client.forEach PubSubClient.unsubscribe calls.unsubscribe self.subscriptions with
  | mk ending after =>
      have unsubscribed := client.forEach_returned_iff PubSubClient.unsubscribe calls.unsubscribe self.subscriptions
      rw [loop] at unsubscribed
      cases ending with
      | raised =>
          refine .inr ⟨fun returns => (nomatch unsubscribed.mpr returns.1), some after, ?_⟩
          simp [stop, cancelled, closePubsub, pubsub, loop]
      | returned =>
          cases pubsubEnds : calls.closePubsub with
          | raised =>
              refine .inr ⟨fun returns => (nomatch pubsubEnds.symm.trans returns.2.1), some after, ?_⟩
              simp [stop, cancelled, closePubsub, pubsub, loop, pubsubEnds]
          | returned =>
              cases redisEnds : calls.closeRedis with
              | raised =>
                  refine .inr ⟨fun returns => (nomatch redisEnds.symm.trans returns.2.2), none, ?_⟩
                  simp [stop, cancelled, closePubsub, pubsub, loop, pubsubEnds, closeRedis, redis, redisEnds]
              | returned =>
                  refine .inl ⟨⟨unsubscribed.mp rfl, pubsubEnds, redisEnds⟩, ?_⟩
                  simp [stop, cancelled, closePubsub, pubsub, loop, pubsubEnds, closeRedis, redis, redisEnds]

theorem running_start {calls : StartCalls} {subscriptions : List String} (returns : calls.Return subscriptions) :
    ((fresh subscriptions).start calls).1 = .returned ∧ ((fresh subscriptions).start calls).2.Running := by
  obtain ⟨client, number, subscribed, same⟩ := @start_returned calls (fresh subscriptions) rfl returns
  rw [same]
  refine ⟨rfl, ⟨0, rfl, fun other => ?_⟩, ⟨client, rfl, by rw [number], subscribed⟩, rfl⟩
  cases other <;> simp [fresh]

/-- With a new task at the end, and the old one returned, the new one is the only unfinished one. -/
theorem only_replaced {tasks : List TaskState} {task : Nat}
    (only : ∀ other, tasks[other]? = some .running ↔ other = task) (other : Nat) :
    ((tasks ++ [TaskState.running]).set task .returned)[other]? = some .running ↔ other = tasks.length := by
  have inside : task < tasks.length := (List.getElem?_eq_some_iff.mp ((only task).mpr rfl)).1
  rw [List.set_append_left _ _ inside]
  rcases Nat.lt_trichotomy other tasks.length with before | here | after
  · rw [List.getElem?_append_left (by rwa [List.length_set]), List.getElem?_set]
    split
    · rename_i same
      simp
      omega
    · rename_i apart
      rw [only other]
      omega
  · simp [here]
  · rw [List.getElem?_eq_none (by simp; omega)]
    refine iff_of_false (fun found => ?_) ?_
    · cases found
    · omega

section

variable {self : Scanner} {task : Nat} {stopCalls : StopCalls} {startCalls : StartCalls}

/-- `stop` in the task of a running scanner that has lost its connection. -/
theorem Running.stops (running : self.Running) (handle : self.pubsubTask = some task) :
    let lost : Scanner := { self with running := false, mdcConnected := false }
    (stopCalls.Return self.subscriptions ∧ lost.stop (some task) stopCalls = (.returned, { lost with
      pubsubTask := none, pubsubClient := none, redisClient := none })) ∨
    (¬stopCalls.Return self.subscriptions ∧ ∃ pubsubClient, lost.stop (some task) stopCalls = (.raised, { lost with
      pubsubTask := none, pubsubClient := pubsubClient })) := by
  obtain ⟨⟨own, named, only⟩, ⟨client, pubsub, redis, -⟩, -⟩ := running
  cases handle.symm.trans named
  exact @stop_own stopCalls { self with running := false, mdcConnected := false } task client.redisClient client
    handle ((only task).mpr rfl) pubsub redis

/-- When the calls of `stop` and `start` return, a new task has taken over. -/
theorem Running.connectionError (running : self.Running) (handle : self.pubsubTask = some task)
    (stopped : stopCalls.Return self.subscriptions) (started : startCalls.Return self.subscriptions) :
    (self.connectionError task stopCalls startCalls).Running ∧
      (self.connectionError task stopCalls startCalls).subscriptions = self.subscriptions := by
  obtain ⟨-, same⟩ := (running.stops handle).resolve_right fun raised => raised.1 stopped
  obtain ⟨⟨own, named, only⟩, -, -⟩ := running
  cases handle.symm.trans named
  obtain ⟨fresh, number, subscribed, starts⟩ := @start_returned startCalls { self with
    running := false, mdcConnected := false, pubsubTask := none, pubsubClient := none, redisClient := none }
    rfl started
  simp only [Scanner.connectionError, restart, same, starts]
  exact ⟨⟨⟨_, rfl, only_replaced only⟩, ⟨fresh, rfl, by rw [number], subscribed⟩, rfl⟩, trivial⟩

/-- When a call of `stop` raises, `start` is not reached and nothing polls any more. -/
theorem Running.abandoned (running : self.Running) (handle : self.pubsubTask = some task)
    (raised : ¬stopCalls.Return self.subscriptions) :
    (self.connectionError task stopCalls startCalls).pubsubTask = none ∧
      ∀ other : Nat, (self.connectionError task stopCalls startCalls).tasks[other]? ≠ some .running := by
  obtain ⟨-, pubsubClient, same⟩ := (running.stops handle).resolve_left fun returned => raised returned.1
  obtain ⟨⟨own, named, only⟩, -, -⟩ := running
  cases handle.symm.trans named
  simp only [Scanner.connectionError, restart, same]
  refine ⟨trivial, fun other => ?_⟩
  rw [List.getElem?_set]
  split
  · split <;> nofun
  · rename_i apart
    exact fun unfinished => apart ((only other).mp unfinished).symm

def step (self : Scanner) (calls : StopCalls × StartCalls) : Option Scanner :=
  match self.pubsubTask with
  | some task =>
      if self.tasks[task]? = some .running then some (self.connectionError task calls.1 calls.2) else none
  | none => none

/-- A scanner survives any number of lost connections whose calls all return. -/
theorem Running.run {lost : List (StopCalls × StartCalls)} (running : self.Running)
    (returns : ∀ calls ∈ lost, calls.1.Return self.subscriptions ∧ calls.2.Return self.subscriptions) :
    ∃ final, Transition.exec step lost self = some final ∧ final.Running := by
  induction lost generalizing self with
  | nil => exact ⟨self, rfl, running⟩
  | cons calls rest ih =>
      obtain ⟨⟨task, handle, only⟩, -, -⟩ := id running
      obtain ⟨here, later⟩ := List.forall_mem_cons.mp returns
      obtain ⟨again, same⟩ := running.connectionError handle here.1 here.2
      obtain ⟨final, more, still⟩ := ih again (by rwa [same])
      refine ⟨final, Transition.exec_cons.mpr ⟨_, ?_, more⟩, still⟩
      simp only [step, handle, (only task).mpr rfl, if_true]

/-- A lost connection ends with a running scanner exactly when every call that
`stop` makes on it returns. -/
theorem running_connectionError_iff (running : self.Running) (handle : self.pubsubTask = some task)
    (returns : startCalls.Return self.subscriptions) :
    (self.connectionError task stopCalls startCalls).Running ↔ stopCalls.Return self.subscriptions := by
  by_cases stopped : stopCalls.Return self.subscriptions
  · exact iff_of_true (running.connectionError handle stopped returns).1 stopped
  · refine iff_of_false ?_ stopped
    rintro ⟨⟨other, named, -⟩, -, -⟩
    cases (running.abandoned handle stopped).1.symm.trans named

end

def answering : StopCalls := ⟨fun _ => .returned, .returned, .returned⟩

def reachable : StartCalls := ⟨.returned, .returned, fun _ => .returned⟩

def broken : StopCalls := ⟨fun _ => .raised, .returned, .returned⟩

def scanner : Scanner := ((fresh ["leaderboard:*"]).start reachable).2

theorem scanner_running : scanner.Running :=
  (running_start (show reachable.Return ["leaderboard:*"] from ⟨rfl, rfl, fun _ _ => rfl⟩)).2

theorem running_connectionError_iff_answering : (scanner.connectionError 0 answering reachable).Running :=
  (running_connectionError_iff scanner_running rfl ⟨rfl, rfl, fun _ _ => rfl⟩).mpr ⟨fun _ _ => rfl, rfl, rfl⟩

/-- After an `unsubscribe` that raises no task is left, though every call of a
start would return. -/
theorem scanner_abandoned : scanner.Running ∧ scanner.pubsubTask = some 0 ∧
    reachable.Return scanner.subscriptions ∧ ¬(scanner.connectionError 0 broken reachable).Running ∧
    ∀ task : Nat, (scanner.connectionError 0 broken reachable).tasks[task]? ≠ some .running := by
  have raised : ¬broken.Return scanner.subscriptions := fun returns => nomatch returns.1 0 Nat.one_pos
  obtain ⟨handle, dead⟩ := @Running.abandoned scanner 0 broken reachable scanner_running rfl raised
  refine ⟨scanner_running, rfl, ⟨rfl, rfl, fun _ _ => rfl⟩, ?_, dead⟩
  rintro ⟨⟨task, named, -⟩, -, -⟩
  cases handle.symm.trans named

end Scanner
end Restart
end KuhlHausMdp.MarketDataScanner
