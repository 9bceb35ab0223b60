import Mathlib.Logic.Function.Basic
import KuhlHausMdp.Library.Transition
import KuhlHausMdp.WidgetDataService.Registry

/-! Calls of any number of clients, interleaved where the pub/sub lock is free.
`disconnect` gives the lock up between its snapshot and each `unsubscribe`, so
an unfinished `disconnect` is part of the state. -/

set_option autoImplicit false

namespace KuhlHausMdp.WidgetDataService

open Transition

variable {W D : Type*} [DecidableEq W] [DecidableEq D]

namespace Service

/-! What one operation does to the registry and to Redis, with Redis answering. -/

theorem clients_subscribe (s : Service W) (feed other : String) (websocket : W) :
    (s.subscribe feed websocket .returned).2.clients other =
      if other = feed then insert websocket (s.clients feed) else s.clients other := by
  by_cases member : feed ∈ s.subscriptions
  · rw [subscribe_of_mem member]
    simp
  · rw [subscribe_returned member]
    rw [clients_addClient, clients_startPolling, clients_startPolling, clients_opened, clients_opened, if_pos rfl,
      clients_of_notMem member]
    by_cases same : other = feed <;> simp [same]

theorem mem_subscribe {s : Service W} {feed other : String} {websocket : W} :
    other ∈ (s.subscribe feed websocket .returned).2.subscriptions ↔ other = feed ∨ other ∈ s.subscriptions := by
  by_cases member : feed ∈ s.subscriptions
  · simp [subscribe_of_mem member, addClient]
  · simp [subscribe_returned member, addClient, opened]

theorem pubsub_subscribe (s : Service W) (feed : String) (websocket : W) :
    (s.subscribe feed websocket .returned).2.pubsub =
      if feed ∈ s.subscriptions then s.pubsub else s.pubsub.listen feed := by
  by_cases member : feed ∈ s.subscriptions
  · simp [subscribe_of_mem member, member]
  · simp [subscribe_returned member, member, opened]

theorem unsubscribe_returned (s : Service W) (feed : String) (websocket : W) (caller : Caller) :
    s.unsubscribe feed websocket .returned caller =
      (s.leaveFeed feed websocket .returned).2.stopPolling caller := by
  unfold unsubscribe
  rcases s.leaveFeed_cases feed websocket .returned with ⟨-, left⟩ | ⟨-, -, left⟩ | ⟨-, -, left⟩ <;> rw [left]

theorem clients_discarded (s : Service W) (feed other : String) (websocket : W) :
    (s.discarded feed websocket).clients other =
      if other = feed then (s.clients feed).erase websocket else s.clients other := by
  simp only [clients, discarded, Dict.get_set]
  split <;> rfl

theorem clients_closed (s : Service W) (feed other : String) (websocket : W) :
    (s.closed feed websocket).clients other = if other = feed then ∅ else s.clients other := by
  rw [clients, closed, Dict.get_erase]
  split
  case isTrue => rfl
  case isFalse apart => exact (s.clients_discarded feed other websocket).trans (if_neg apart)

theorem clients_unsubscribe (s : Service W) (feed other : String) (websocket : W) (caller : Caller) :
    (s.unsubscribe feed websocket .returned caller).2.clients other =
      if other = feed then (s.clients feed).erase websocket else s.clients other := by
  rw [unsubscribe_returned, clients, subscriptions_stopPolling, ← clients]
  rcases s.leaveFeed_cases feed websocket .returned with
    ⟨missing, left⟩ | ⟨member, others, left⟩ | ⟨member, last, left⟩ <;> rw [left]
  · split
    case isTrue same => rw [same, clients_of_notMem missing, Finset.erase_empty]
    case isFalse => rfl
  · exact clients_discarded s feed other websocket
  · rw [last]
    exact clients_closed s feed other websocket

theorem mem_unsubscribe {s : Service W} {feed other : String} {websocket : W} {caller : Caller} :
    other ∈ (s.unsubscribe feed websocket .returned caller).2.subscriptions ↔
      other ∈ s.subscriptions ∧ (other = feed → (s.clients feed).erase websocket ≠ ∅) := by
  rw [unsubscribe_returned, subscriptions_stopPolling]
  rcases s.leaveFeed_cases feed websocket .returned with
    ⟨missing, left⟩ | ⟨member, others, left⟩ | ⟨member, last, left⟩ <;> rw [left]
  · have apart : other ∈ s.subscriptions → other ≠ feed := fun inside same => missing (same ▸ inside)
    tauto
  · rw [discarded, Dict.mem_set]
    constructor
    · exact fun inside => ⟨inside.elim (fun same => same ▸ member) id, fun _ => others⟩
    · exact fun inside => .inr inside.1
  · rw [closed, Dict.mem_erase, discarded, Dict.mem_set]
    tauto

theorem pubsub_unsubscribe (s : Service W) (feed : String) (websocket : W) (caller : Caller) :
    (s.unsubscribe feed websocket .returned caller).2.pubsub =
      if feed ∈ s.subscriptions ∧ (s.clients feed).erase websocket = ∅ then s.pubsub.silence feed
      else s.pubsub := by
  rw [unsubscribe_returned, pubsub_stopPolling]
  rcases s.leaveFeed_cases feed websocket .returned with
    ⟨missing, left⟩ | ⟨member, others, left⟩ | ⟨member, last, left⟩ <;> rw [left]
  · rw [if_neg fun both => missing both.1]
  · rw [if_neg fun both => others both.2]
    rfl
  · rw [if_pos ⟨member, last⟩]
    rfl

theorem clients_unsubscribe_subset (s : Service W) (feed other : String) (websocket : W) (redis : Ending)
    (caller : Caller) : (s.unsubscribe feed websocket redis caller).2.clients other ⊆ s.clients other := by
  have shrinks : (if other = feed then (s.clients feed).erase websocket else s.clients other) ⊆ s.clients other := by
    split
    case isTrue same => exact same ▸ Finset.erase_subset websocket (s.clients feed)
    case isFalse => exact Finset.Subset.refl _
  cases redis with
  | returned => rwa [clients_unsubscribe]
  | raised =>
      have discarded : (s.discarded feed websocket).clients other ⊆ s.clients other := by rwa [clients_discarded]
      unfold unsubscribe
      rcases s.leaveFeed_cases feed websocket .raised with ⟨-, left⟩ | ⟨-, -, left⟩ | ⟨-, -, left⟩ <;> rw [left]
      · simp only [clients, subscriptions_stopPolling, Finset.Subset.refl]
      · simpa only [clients, subscriptions_stopPolling] using discarded
      · exact discarded

/-- Redis answering, only the await on a failed polling task can raise, and
only when no feed is left. -/
theorem keys_of_unsubscribe_raised {s : Service W} {feed : String} {websocket : W} {caller : Caller}
    (raised : (s.unsubscribe feed websocket .returned caller).1 = .raised) :
    (s.unsubscribe feed websocket .returned caller).2.subscriptions.keys = [] := by
  rw [unsubscribe_returned] at raised ⊢
  rw [subscriptions_stopPolling]
  unfold stopPolling at raised
  split at raised
  · cases raised
  · split at raised
    · assumption
    · cases raised

end Service

/-- `disconnect` is its snapshot, one `disconnectNext` for each feed of the
snapshot and `disconnectReturn`; `call` tells concurrent ones apart. -/
inductive Action (D W : Type*) where
  | subscribe (feed : String) (websocket : W) (redis : Ending)
  | unsubscribe (feed : String) (websocket : W) (redis : Ending) (caller : Caller)
  | disconnect (call : D) (websocket : W)
  | disconnectNext (call : D) (redis : Ending)
  | disconnectReturn (call : D)
  deriving DecidableEq

structure Calls (D W : Type*) where
  service : Service W
  disconnecting : D → Option (W × List String)

namespace Calls

def fresh : Calls D W := ⟨.fresh, fun _ => none⟩

def step (c : Calls D W) : Action D W → Option (Calls D W)
  | .subscribe feed websocket redis => some { c with service := (c.service.subscribe feed websocket redis).2 }
  | .unsubscribe feed websocket redis caller =>
      some { c with service := (c.service.unsubscribe feed websocket redis caller).2 }
  | .disconnect call websocket =>
      match c.disconnecting call with
      | none => some { c with
          disconnecting := Function.update c.disconnecting call (some (websocket, c.service.subscriptions.keys)) }
      | some _ => none
  | .disconnectNext call redis =>
      match c.disconnecting call with
      | some (websocket, feed :: rest) =>
          let (ending, service) := c.service.unsubscribe feed websocket redis .client
          -- an exception leaves the loop over the snapshot
          let left := match ending with
            | .raised => none
            | .returned => some (websocket, rest)
          some ⟨service, Function.update c.disconnecting call left⟩
      | _ => none
  | .disconnectReturn call =>
      match c.disconnecting call with
      | some (_, []) => some { c with disconnecting := Function.update c.disconnecting call none }
      | _ => none

end Calls

namespace Action

def RedisReturns : Action D W → Prop
  | .subscribe _ _ redis => redis = .returned
  | .unsubscribe _ _ redis _ => redis = .returned
  | .disconnectNext _ redis => redis = .returned
  | .disconnect _ _ => True
  | .disconnectReturn _ => True

def SubscribedBy (websocket : W) : Action D W → Prop
  | .subscribe _ client _ => client = websocket
  | _ => False

end Action

namespace Calls

/-- Everything a step can do with Redis answering: one `subscribe`, one
`unsubscribe` by a client or on behalf of an unfinished `disconnect`, or
bookkeeping of a `disconnect`. -/
theorem step_cases {c next : Calls D W} {action : Action D W} (returns : action.RedisReturns)
    (one : c.step action = some next) :
    (∃ feed websocket, action = .subscribe feed websocket .returned ∧
      next = { c with service := (c.service.subscribe feed websocket .returned).2 }) ∨
    (∃ feed websocket caller, action = .unsubscribe feed websocket .returned caller ∧
      next = { c with service := (c.service.unsubscribe feed websocket .returned caller).2 }) ∨
    (∃ call websocket, action = .disconnect call websocket ∧ c.disconnecting call = none ∧
      next = { c with disconnecting :=
        Function.update c.disconnecting call (some (websocket, c.service.subscriptions.keys)) }) ∨
    (∃ call websocket feed rest left, action = .disconnectNext call .returned ∧
      c.disconnecting call = some (websocket, feed :: rest) ∧
      (left = some (websocket, rest) ∨
        (c.service.unsubscribe feed websocket .returned .client).2.subscriptions.keys = []) ∧
      next = ⟨(c.service.unsubscribe feed websocket .returned .client).2,
        Function.update c.disconnecting call left⟩) ∨
    (∃ call websocket, action = .disconnectReturn call ∧ c.disconnecting call = some (websocket, []) ∧
      next = { c with disconnecting := Function.update c.disconnecting call none }) := by
  cases action with
  | subscribe feed websocket redis =>
      cases returns; cases one
      exact .inl ⟨feed, websocket, rfl, rfl⟩
  | unsubscribe feed websocket redis caller =>
      cases returns; cases one
      exact .inr (.inl ⟨feed, websocket, caller, rfl, rfl⟩)
  | disconnect call websocket =>
      simp only [step] at one
      split at one
      · cases one
        exact .inr (.inr (.inl ⟨call, websocket, rfl, ‹_›, rfl⟩))
      · cases one
  | disconnectNext call redis =>
      cases returns
      simp only [step] at one
      split at one
      · rename_i websocket feed rest pending
        cases one
        refine .inr (.inr (.inr (.inl ⟨call, websocket, feed, rest, _, rfl, pending, ?_, rfl⟩)))
        split
        · exact .inr (Service.keys_of_unsubscribe_raised ‹_›)
        · exact .inl rfl
      · cases one
  | disconnectReturn call =>
      simp only [step] at one
      split at one
      · cases one
        exact .inr (.inr (.inr (.inr ⟨call, _, rfl, ‹_›, rfl⟩)))
      · cases one

end Calls
end KuhlHausMdp.WidgetDataService
