import KuhlHausMdp.WidgetDataService.Calls

/-! The up-down counter `wds.subscriptions`: `subscribe` adds one for a new
feed, `unsubscribe` takes one away for each call on a feed that is there. -/

set_option autoImplicit false

namespace KuhlHausMdp.WidgetDataService

open Transition

variable {W D : Type*} [DecidableEq W] [DecidableEq D]

namespace Service

omit [DecidableEq W] in
/-- How far the counter is above the number of feeds. -/
def excess (s : Service W) : Int := s.subscriptionCounter - s.subscriptions.keys.length

omit [DecidableEq W] in
theorem subscriptionCounter_startPolling (s : Service W) :
    s.startPolling.subscriptionCounter = s.subscriptionCounter := by
  unfold startPolling
  split <;> rfl

omit [DecidableEq W] in
theorem excess_startPolling (s : Service W) : s.startPolling.excess = s.excess := by
  rw [excess, subscriptionCounter_startPolling, subscriptions_startPolling]
  rfl

omit [DecidableEq W] in
theorem excess_stopPolling (caller : Caller) (s : Service W) : (s.stopPolling caller).2.excess = s.excess := by
  obtain ⟨_, _, _, same⟩ := s.stopPolling_cases caller
  rw [same]
  rfl

theorem excess_addClient {s : Service W} {feed : String} (member : feed ∈ s.subscriptions) (websocket : W) :
    (s.addClient feed websocket).excess = s.excess := by
  simp only [excess, addClient, Dict.keys_set_of_mem member]

omit [DecidableEq W] in
theorem excess_halfOpen {s : Service W} {feed : String} (missing : feed ∉ s.subscriptions) :
    (s.halfOpen feed).excess = s.excess := by
  simp only [excess, halfOpen, Dict.keys_set_of_notMem missing, List.length_append, List.length_singleton]
  omega

theorem excess_subscribe (s : Service W) (feed : String) (websocket : W) (redis : Ending) :
    (s.subscribe feed websocket redis).2.excess = s.excess := by
  by_cases member : feed ∈ s.subscriptions
  · rw [subscribe_of_mem member]
    have there : feed ∈ s.startPolling.subscriptions := by rwa [subscriptions_startPolling]
    exact (excess_addClient there websocket).trans s.excess_startPolling
  · cases redis with
    | raised =>
        rw [subscribe_raised member]
        exact excess_halfOpen member
    | returned =>
        rw [subscribe_returned member]
        have there : feed ∈ (s.opened feed).startPolling.subscriptions := by
          rw [subscriptions_startPolling]
          exact Dict.mem_set.mpr (.inl rfl)
        calc ((s.opened feed).startPolling.addClient feed websocket).excess
            = (s.opened feed).startPolling.excess := excess_addClient there websocket
          _ = (s.opened feed).excess := excess_startPolling _
          _ = s.excess := excess_halfOpen member

theorem excess_discarded {s : Service W} {feed : String} (member : feed ∈ s.subscriptions) (websocket : W) :
    (s.discarded feed websocket).excess = s.excess - 1 := by
  simp only [excess, discarded, Dict.keys_set_of_mem member]
  omega

theorem excess_closed {s : Service W} {feed : String} (member : feed ∈ s.subscriptions) (websocket : W) :
    (s.closed feed websocket).excess = s.excess := by
  have there : feed ∈ (s.discarded feed websocket).subscriptions := Dict.mem_set.mpr (.inl rfl)
  have shorter := Dict.length_keys_erase there
  have before := excess_discarded member websocket
  simp only [excess, closed] at before ⊢
  omega

/-- The feed goes away with the call, or there is nothing to leave. -/
def Releases (s : Service W) (feed : String) (websocket : W) (redis : Ending) : Prop :=
  feed ∈ s.subscriptions → (s.clients feed).erase websocket = ∅ ∧ redis = .returned

instance (s : Service W) (feed : String) (websocket : W) (redis : Ending) :
    Decidable (s.Releases feed websocket redis) :=
  inferInstanceAs (Decidable (_ → _))

theorem excess_leaveFeed (s : Service W) (feed : String) (websocket : W) (redis : Ending) :
    (s.leaveFeed feed websocket redis).2.excess =
      if s.Releases feed websocket redis then s.excess else s.excess - 1 := by
  rcases s.leaveFeed_cases feed websocket redis with
    ⟨missing, left⟩ | ⟨member, others, left⟩ | ⟨member, last, left⟩ <;> rw [left]
  · have released : s.Releases feed websocket redis := fun member => absurd member missing
    rw [if_pos released]
  · rw [if_neg fun released => others (released member).1]
    exact excess_discarded member websocket
  · cases redis with
    | raised =>
        rw [if_neg fun released => nomatch (released member).2]
        exact excess_discarded member websocket
    | returned =>
        have released : s.Releases feed websocket .returned := fun _ => ⟨last, rfl⟩
        rw [if_pos released]
        exact excess_closed member websocket

theorem excess_unsubscribe (s : Service W) (feed : String) (websocket : W) (redis : Ending) (caller : Caller) :
    (s.unsubscribe feed websocket redis caller).2.excess =
      if s.Releases feed websocket redis then s.excess else s.excess - 1 := by
  have left := s.excess_leaveFeed feed websocket redis
  unfold unsubscribe
  cases ended : s.leaveFeed feed websocket redis with
  | mk ending after =>
      rw [ended] at left
      cases ending with
      | raised => exact left
      | returned => exact (after.excess_stopPolling caller).trans left

end Service

namespace Calls

/-- The `unsubscribe` that a step makes, if any, releases its feed. -/
def Releases (c : Calls D W) : Action D W → Prop
  | .unsubscribe feed websocket redis _ => c.service.Releases feed websocket redis
  | .disconnectNext call redis => ∀ websocket feed rest, c.disconnecting call = some (websocket, feed :: rest) →
      c.service.Releases feed websocket redis
  | _ => True

def Balanced (c : Calls D W) : Prop := c.service.subscriptionCounter = c.service.subscriptions.keys.length

omit [DecidableEq W] [DecidableEq D] in
theorem balanced_iff_excess {c : Calls D W} : c.Balanced ↔ c.service.excess = 0 := by
  rw [Balanced, Service.excess]
  omega

/-- A step that does not release its feed takes one too many away. -/
theorem excess_step {c next : Calls D W} {action : Action D W} (one : c.step action = some next) :
    (c.Releases action ∧ next.service.excess = c.service.excess) ∨
      (¬c.Releases action ∧ next.service.excess = c.service.excess - 1) := by
  cases action with
  | subscribe feed websocket redis =>
      cases one
      exact .inl ⟨trivial, c.service.excess_subscribe feed websocket redis⟩
  | unsubscribe feed websocket redis caller =>
      cases one
      have after := c.service.excess_unsubscribe feed websocket redis caller
      by_cases released : c.service.Releases feed websocket redis
      · rw [if_pos released] at after
        exact .inl ⟨released, after⟩
      · rw [if_neg released] at after
        exact .inr ⟨released, after⟩
  | disconnect call websocket =>
      simp only [step] at one
      split at one
      · cases one
        exact .inl ⟨trivial, rfl⟩
      · cases one
  | disconnectNext call redis =>
      simp only [step] at one
      split at one
      · rename_i websocket feed rest pending
        cases one
        have after := c.service.excess_unsubscribe feed websocket redis .client
        have same : c.Releases (.disconnectNext call redis) ↔ c.service.Releases feed websocket redis := by
          simp [Releases, pending]
        by_cases released : c.service.Releases feed websocket redis
        · rw [if_pos released] at after
          exact .inl ⟨same.mpr released, after⟩
        · rw [if_neg released] at after
          exact .inr ⟨fun all => released (same.mp all), after⟩
      · cases one
  | disconnectReturn call =>
      simp only [step] at one
      split at one
      · cases one
        exact .inl ⟨trivial, rfl⟩
      · cases one

omit [DecidableEq W] [DecidableEq D] in
instance (c : Calls D W) : Decidable c.Balanced := inferInstanceAs (Decidable (_ = _))

theorem releases_of_disabled {c : Calls D W} {action : Action D W} (disabled : c.step action = none) :
    c.Releases action := by
  cases action with
  | unsubscribe => cases disabled
  | disconnectNext call redis =>
      intro websocket feed rest pending
      simp only [step, pending] at disabled
      cases disabled
  | _ => trivial

def StaysBalanced (c : Calls D W) (action : Action D W) : Prop :=
  ∀ next, c.step action = some next → next.Balanced

theorem Balanced.step {c next : Calls D W} {action : Action D W} (balanced : c.Balanced)
    (releases : c.Releases action) (one : c.step action = some next) : next.Balanced := by
  rw [balanced_iff_excess] at balanced ⊢
  rcases excess_step one with ⟨-, same⟩ | ⟨keeps, -⟩
  · exact same.trans balanced
  · exact absurd releases keeps

theorem Balanced.stays_iff {c : Calls D W} {action : Action D W} (balanced : c.Balanced) :
    c.StaysBalanced action ↔ c.Releases action := by
  constructor
  · intro stays
    cases one : c.step action with
    | none => exact releases_of_disabled one
    | some next =>
        have before := balanced_iff_excess.mp balanced
        have after := balanced_iff_excess.mp (stays next one)
        rcases excess_step one with ⟨releases, -⟩ | ⟨-, less⟩
        · exact releases
        · omega
  · intro releases next one
    exact balanced.step releases one

end Calls

/-- In every run the counter is the number of feeds whenever the lock is free
exactly when each `unsubscribe` of a registered feed, by a client or within a
`disconnect`, is of its last client and Redis answers. -/
theorem gauge_balanced_iff (actions : List (Action D W)) :
    Along Calls.step Calls.StaysBalanced actions .fresh ↔ Along Calls.step Calls.Releases actions .fresh :=
  along_congr Calls.Balanced (fun balanced releases one => balanced.step releases one)
    (fun balanced => balanced.stays_iff) rfl

def shared : List (Action Unit Bool) := [
  .subscribe "leaderboard:volume" false .returned, .subscribe "leaderboard:volume" true .returned,
  .unsubscribe "leaderboard:volume" false .returned .client,
  .unsubscribe "leaderboard:volume" true .returned .client]

/-- The counter is wrong when the first has left and negative in the end. -/
theorem gauge_negative : ¬ Along Calls.step Calls.StaysBalanced shared .fresh ∧
    ∃ c, exec Calls.step shared .fresh = some c ∧ c.service.subscriptionCounter = -1 := by
  constructor
  · intro balanced
    obtain ⟨c, reached⟩ : ∃ c, exec Calls.step (shared.take 2) .fresh = some c := ⟨_, rfl⟩
    have first := balanced.at_step (shared.take 2) reached
    cases reached
    exact absurd (first _ rfl) (by decide)
  · exact ⟨_, rfl, by decide⟩

end KuhlHausMdp.WidgetDataService
