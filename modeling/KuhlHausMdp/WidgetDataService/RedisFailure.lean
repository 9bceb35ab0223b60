import KuhlHausMdp.WidgetDataService.Calls

/-! Raising Redis calls. `subscribe` writes the key before it calls Redis, and
every later `subscribe` decides from the key alone whether to call Redis. -/

set_option autoImplicit false

namespace KuhlHausMdp.WidgetDataService

open Transition

variable {W D : Type*} [DecidableEq W]

/-- Redis holds no subscription without a key of its kind, however calls end. -/
structure Tracked (s : Service W) : Prop where
  channels : ∀ feed ∈ s.pubsub.channels, feed ∈ s.subscriptions ∧ ¬Wildcard feed
  patterns : ∀ feed ∈ s.pubsub.patterns, feed ∈ s.subscriptions ∧ Wildcard feed

namespace Tracked

variable {s : Service W}

omit [DecidableEq W] in
theorem fresh : Tracked (.fresh : Service W) := by
  constructor <;> simp [Service.fresh]

omit [DecidableEq W] in
theorem side (tracked : Tracked s) {wild : Bool} {feed : String} (member : feed ∈ s.pubsub.side wild) :
    feed ∈ s.subscriptions ∧ decide (Wildcard feed) = wild := by
  cases wild with
  | false => simpa using tracked.channels feed member
  | true => simpa using tracked.patterns feed member

omit [DecidableEq W] in
theorem of_sides (sides : ∀ wild, ∀ feed ∈ s.pubsub.side wild, feed ∈ s.subscriptions ∧ decide (Wildcard feed) = wild) :
    Tracked s where
  channels feed member := by simpa using sides false feed member
  patterns feed member := by simpa using sides true feed member

omit [DecidableEq W] in
theorem of_same {t : Service W} (tracked : Tracked s) (pubsub : t.pubsub = s.pubsub)
    (kept : ∀ feed ∈ s.subscriptions, feed ∈ t.subscriptions) : Tracked t := by
  apply of_sides
  intro wild feed member
  rw [pubsub] at member
  exact (tracked.side member).imp_left (kept feed)

omit [DecidableEq W] in
theorem listen {t : Service W} (tracked : Tracked s) {feed : String} (pubsub : t.pubsub = s.pubsub.listen feed)
    (kept : ∀ other, other = feed ∨ other ∈ s.subscriptions → other ∈ t.subscriptions) : Tracked t := by
  apply of_sides
  intro wild other member
  rw [pubsub, PubSub.mem_side_listen] at member
  rcases member with ⟨rfl, kind⟩ | old
  · exact ⟨kept other (.inl rfl), kind⟩
  · exact (tracked.side old).imp_left fun inside => kept other (.inr inside)

omit [DecidableEq W] in
theorem silence {t : Service W} (tracked : Tracked s) {feed : String} (pubsub : t.pubsub = s.pubsub.silence feed)
    (kept : ∀ other, other ≠ feed → other ∈ s.subscriptions → other ∈ t.subscriptions) : Tracked t := by
  apply of_sides
  intro wild other member
  rw [pubsub, PubSub.mem_side_silence] at member
  obtain ⟨inside, kind⟩ := tracked.side member.2
  refine ⟨kept other ?_ inside, kind⟩
  rcases member.1 with apart | unlike
  · exact apart
  · rintro rfl
    exact unlike kind

theorem subscribe (tracked : Tracked s) (feed : String) (websocket : W) (redis : Ending) :
    Tracked (s.subscribe feed websocket redis).2 := by
  cases redis with
  | returned =>
      have kept : ∀ other, other = feed ∨ other ∈ s.subscriptions →
          other ∈ (s.subscribe feed websocket .returned).2.subscriptions :=
        fun other => Service.mem_subscribe.mpr
      by_cases member : feed ∈ s.subscriptions
      · have pubsub := s.pubsub_subscribe feed websocket
        rw [if_pos member] at pubsub
        exact tracked.of_same pubsub fun other inside => kept other (.inr inside)
      · have pubsub := s.pubsub_subscribe feed websocket
        rw [if_neg member] at pubsub
        exact tracked.listen pubsub kept
  | raised =>
      by_cases member : feed ∈ s.subscriptions
      · rw [Service.subscribe_of_mem member]
        refine tracked.of_same (by simp) fun other inside => ?_
        simp [Service.addClient, inside]
      · rw [Service.subscribe_raised member]
        refine tracked.of_same rfl fun other inside => ?_
        simp [Service.halfOpen, inside]

theorem unsubscribe (tracked : Tracked s) (feed : String) (websocket : W) (redis : Ending) (caller : Caller) :
    Tracked (s.unsubscribe feed websocket redis caller).2 := by
  have discarded : Tracked (s.discarded feed websocket) :=
    tracked.of_same rfl fun other inside => by simp [Service.discarded, inside]
  have stopped : ∀ {t : Service W}, Tracked t → Tracked (t.stopPolling caller).2 := fun {t} here =>
    here.of_same (by simp) fun other inside => by simpa using inside
  unfold Service.unsubscribe
  rcases s.leaveFeed_cases feed websocket redis with ⟨-, left⟩ | ⟨-, -, left⟩ | ⟨-, -, left⟩ <;> rw [left]
  · exact stopped tracked
  · exact stopped discarded
  · cases redis with
    | raised => exact discarded
    | returned =>
        apply stopped (tracked.silence rfl _)
        intro other apart inside
        simp [Service.closed, Service.discarded, apart, inside]

variable [DecidableEq D]

theorem step {c next : Calls D W} {action : Action D W} (tracked : Tracked c.service)
    (one : c.step action = some next) : Tracked next.service := by
  cases action with
  | subscribe feed websocket redis =>
      cases one
      exact tracked.subscribe feed websocket redis
  | unsubscribe feed websocket redis caller =>
      cases one
      exact tracked.unsubscribe feed websocket redis caller
  | disconnect call websocket =>
      simp only [Calls.step] at one
      split at one
      · cases one; exact tracked
      · cases one
  | disconnectNext call redis =>
      simp only [Calls.step] at one
      split at one
      · cases one
        exact tracked.unsubscribe _ _ redis .client
      · cases one
  | disconnectReturn call =>
      simp only [Calls.step] at one
      split at one
      · cases one; exact tracked
      · cases one

theorem run {actions : List (Action D W)} {c : Calls D W} (run : exec Calls.step actions .fresh = some c) :
    Tracked c.service :=
  exec_invariant (fun c => Tracked c.service) step fresh run

end Tracked

theorem Service.subscribe_raises_iff {s : Service W} {feed : String} {websocket : W} {redis : Ending} :
    (s.subscribe feed websocket redis).1 = .raised ↔ feed ∉ s.subscriptions ∧ redis = .raised := by
  by_cases member : feed ∈ s.subscriptions
  · simp [subscribe_of_mem member, member]
  · cases redis with
    | raised => simp [subscribe_raised member, member]
    | returned => simp [subscribe_returned member]

/-- A `subscribe` whose Redis call raises leaves the registry as it was. -/
def RollsBack (s : Service W) (feed : String) (websocket : W) : Prop :=
  ∀ redis, (s.subscribe feed websocket redis).1 = .raised →
    (s.subscribe feed websocket redis).2.subscriptions = s.subscriptions

variable [DecidableEq D]

/-- After a `subscribe` whose Redis call raised, whatever happens next, each
`subscribe` to the feed that returns leaves Redis subscribed to it. -/
def Recovers (c : Calls D W) (feed : String) (websocket : W) : Prop :=
  ∀ redis, (c.service.subscribe feed websocket redis).1 = .raised →
    ∀ (actions : List (Action D W)) (later : Calls D W),
      exec Calls.step actions { c with service := (c.service.subscribe feed websocket redis).2 } = some later →
      ∀ client redis', (later.service.subscribe feed client redis').1 = .returned →
        (later.service.subscribe feed client redis').2.pubsub.Listens feed

omit [DecidableEq W] in
theorem not_listens_of_notMem {s : Service W} (tracked : Tracked s) {feed : String}
    (missing : feed ∉ s.subscriptions) : ¬s.pubsub.Listens feed := by
  unfold PubSub.Listens
  split
  · exact fun member => missing (tracked.patterns feed member).1
  · exact fun member => missing (tracked.channels feed member).1

/-- The call rolls back, and the feed recovers, only where no Redis call is
made because the feed is a key already. -/
theorem subscribe_rollback_iff {actions : List (Action D W)} {c : Calls D W}
    (run : exec Calls.step actions .fresh = some c) (feed : String) (websocket : W) :
    (RollsBack c.service feed websocket ↔ feed ∈ c.service.subscriptions) ∧
    (Recovers c feed websocket ↔ feed ∈ c.service.subscriptions) := by
  refine ⟨⟨fun rolls => ?_, fun member redis raised => ?_⟩, ⟨fun recovers => ?_, fun member redis raised => ?_⟩⟩
  · by_contra missing
    have same := rolls .raised (Service.subscribe_raises_iff.mpr ⟨missing, rfl⟩)
    rw [Service.subscribe_raised missing] at same
    refine missing (same ▸ ?_)
    simp [Service.halfOpen]
  · exact absurd member (Service.subscribe_raises_iff.mp raised).1
  -- the half-made key hides the feed from the very next `subscribe`
  · by_contra missing
    have half : feed ∈ (c.service.halfOpen feed).subscriptions := by simp [Service.halfOpen]
    have listens := recovers .raised (Service.subscribe_raises_iff.mpr ⟨missing, rfl⟩) [] _ rfl websocket .returned
    simp only [Service.subscribe_raised missing, Service.subscribe_of_mem half, Service.pubsub_addClient,
      Service.pubsub_startPolling, forall_const] at listens
    exact not_listens_of_notMem (Tracked.run run) missing listens
  · exact absurd member (Service.subscribe_raises_iff.mp raised).1

theorem subscribe_rollback_iff_fresh :
    ¬RollsBack (.fresh : Service Nat) "scanners:top_gainers" 1 ∧
    ¬Recovers (.fresh : Calls Nat Nat) "scanners:top_gainers" 1 := by
  have nothing : exec (A := Action Nat Nat) Calls.step [] .fresh = some (.fresh : Calls Nat Nat) := rfl
  have here := subscribe_rollback_iff nothing "scanners:top_gainers" 1
  exact ⟨fun rolls => Dict.notMem_empty _ (here.1.mp rolls), fun recovers => Dict.notMem_empty _ (here.2.mp recovers)⟩

/-- Redis raises for the first client of a feed; the next client's `subscribe`
finds the key, returns, and Redis is never told. -/
theorem subscribe_raised_leaves_key :
    ¬(RollsBack (.fresh : Service Nat) "scanners:top_gainers" 1 ∧
      Recovers (.fresh : Calls Nat Nat) "scanners:top_gainers" 1) := by
  rintro ⟨_, recovers⟩
  have listens := recovers .raised rfl [] _ rfl 2 .returned rfl
  exact absurd listens (by decide)

end KuhlHausMdp.WidgetDataService
