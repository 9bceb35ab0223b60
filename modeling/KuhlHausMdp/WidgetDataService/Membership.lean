import Mathlib.Data.Finset.Image
import KuhlHausMdp.WidgetDataService.Calls

/-! What the registry is for: a relation between feeds and live clients. The
relation is kept beside the service, and the registry and the Redis side are
read off it whenever the lock is free. -/

set_option autoImplicit false

namespace KuhlHausMdp.WidgetDataService

open Transition

variable {W D : Type*} [DecidableEq W] [DecidableEq D]

/-- A client is live on a feed from its `subscribe` to its `unsubscribe`, or
to the step of its `disconnect` that reaches the feed. -/
def live (c : Calls D W) (members : Finset (String × W)) : Action D W → Finset (String × W)
  | .subscribe feed websocket _ => insert (feed, websocket) members
  | .unsubscribe feed websocket _ _ => members.erase (feed, websocket)
  | .disconnectNext call _ =>
      match c.disconnecting call with
      | some (websocket, feed :: _) => members.erase (feed, websocket)
      | _ => members
  | .disconnect _ _ => members
  | .disconnectReturn _ => members

/-- A step of the service beside the step of the relation. -/
def recorded (state : Calls D W × Finset (String × W)) (action : Action D W) :
    Option (Calls D W × Finset (String × W)) :=
  (state.1.step action).map fun next => (next, live state.1 state.2 action)

def clientsOf (members : Finset (String × W)) (feed : String) : Finset W :=
  (members.filter fun member => member.1 = feed).image Prod.snd

theorem mem_clientsOf {members : Finset (String × W)} {feed : String} {websocket : W} :
    websocket ∈ clientsOf members feed ↔ (feed, websocket) ∈ members := by
  simp only [clientsOf, Finset.mem_image, Finset.mem_filter, Prod.exists]
  constructor
  · rintro ⟨_, _, ⟨member, rfl⟩, rfl⟩
    exact member
  · intro member
    exact ⟨feed, websocket, ⟨member, rfl⟩, rfl⟩

structure Agrees (s : Service W) (members : Finset (String × W)) : Prop where
  clients : ∀ feed websocket, websocket ∈ s.clients feed ↔ (feed, websocket) ∈ members
  occupied : ∀ feed ∈ s.subscriptions, s.clients feed ≠ ∅
  channels : ∀ feed, feed ∈ s.pubsub.channels ↔ feed ∈ s.subscriptions ∧ ¬Wildcard feed
  patterns : ∀ feed, feed ∈ s.pubsub.patterns ↔ feed ∈ s.subscriptions ∧ Wildcard feed

namespace Agrees

variable {s : Service W} {members : Finset (String × W)}

omit [DecidableEq W] in
theorem fresh : Agrees (.fresh : Service W) ∅ := by
  constructor <;> simp [Service.fresh, Service.clients]

omit [DecidableEq W] in
theorem side (agrees : Agrees s members) (wild : Bool) (feed : String) :
    feed ∈ s.pubsub.side wild ↔ feed ∈ s.subscriptions ∧ decide (Wildcard feed) = wild := by
  cases wild with
  | false => simpa [PubSub.side] using agrees.channels feed
  | true => simpa [PubSub.side] using agrees.patterns feed

theorem side_subscribe (agrees : Agrees s members) (feed other : String) (websocket : W) (wild : Bool) :
    other ∈ (s.subscribe feed websocket .returned).2.pubsub.side wild ↔
      other ∈ (s.subscribe feed websocket .returned).2.subscriptions ∧ decide (Wildcard other) = wild := by
  rw [Service.mem_subscribe, Service.pubsub_subscribe]
  split
  case isTrue member =>
    rw [agrees.side]
    rcases eq_or_ne other feed with rfl | apart
    · simp [member]
    · simp [apart]
  case isFalse =>
    rw [PubSub.mem_side_listen, agrees.side]
    rcases eq_or_ne other feed with rfl | apart
    · tauto
    · simp [apart]

theorem side_unsubscribe (agrees : Agrees s members) (feed other : String) (websocket : W) (caller : Caller)
    (wild : Bool) :
    other ∈ (s.unsubscribe feed websocket .returned caller).2.pubsub.side wild ↔
      other ∈ (s.unsubscribe feed websocket .returned caller).2.subscriptions ∧ decide (Wildcard other) = wild := by
  rw [Service.mem_unsubscribe, Service.pubsub_unsubscribe]
  split
  case isTrue last =>
    rw [PubSub.mem_side_silence, agrees.side]
    rcases eq_or_ne other feed with rfl | apart
    · have gone : ¬(s.clients other).erase websocket ≠ ∅ := not_not.mpr last.2
      tauto
    · simp [apart]
  case isFalse kept =>
    rw [agrees.side]
    rcases eq_or_ne other feed with rfl | apart
    · have others : other ∈ s.subscriptions → (s.clients other).erase websocket ≠ ∅ :=
        fun member empty => kept ⟨member, empty⟩
      tauto
    · simp [apart]

theorem subscribe (agrees : Agrees s members) (feed : String) (websocket : W) :
    Agrees (s.subscribe feed websocket .returned).2 (insert (feed, websocket) members) where
  clients other client := by
    rw [Service.clients_subscribe]
    rcases eq_or_ne other feed with rfl | apart
    · simp [agrees.clients]
    · simp [apart, agrees.clients]
  occupied other member := by
    rw [Service.clients_subscribe]
    split
    case isTrue => exact Finset.insert_ne_empty _ _
    case isFalse apart => exact agrees.occupied other ((Service.mem_subscribe.mp member).resolve_left apart)
  channels other := by simpa [PubSub.side] using agrees.side_subscribe feed other websocket false
  patterns other := by simpa [PubSub.side] using agrees.side_subscribe feed other websocket true

theorem unsubscribe (agrees : Agrees s members) (feed : String) (websocket : W) (caller : Caller) :
    Agrees (s.unsubscribe feed websocket .returned caller).2 (members.erase (feed, websocket)) where
  clients other client := by
    rw [Service.clients_unsubscribe]
    rcases eq_or_ne other feed with rfl | apart
    · simp [agrees.clients]
    · simp [apart, agrees.clients]
  occupied other member := by
    obtain ⟨old, kept⟩ := Service.mem_unsubscribe.mp member
    rw [Service.clients_unsubscribe]
    split
    case isTrue same => exact kept same
    case isFalse => exact agrees.occupied other old
  channels other := by simpa [PubSub.side] using agrees.side_unsubscribe feed other websocket caller false
  patterns other := by simpa [PubSub.side] using agrees.side_unsubscribe feed other websocket caller true

theorem get (agrees : Agrees s members) (feed : String) :
    s.subscriptions.get feed =
      if clientsOf members feed = ∅ then none else some (clientsOf members feed) := by
  have same : s.clients feed = clientsOf members feed := by
    ext websocket
    rw [agrees.clients, mem_clientsOf]
  rw [← same]
  by_cases member : feed ∈ s.subscriptions
  · obtain ⟨clients, found⟩ := Dict.mem_iff_get.mp member
    have occupied := agrees.occupied feed member
    simp only [Service.clients, found, Option.getD_some] at occupied ⊢
    rw [if_neg occupied]
  · rw [if_pos (Service.clients_of_notMem member), Dict.get_eq_none_iff.mpr member]

end Agrees

theorem recorded_step {state next : Calls D W × Finset (String × W)} {action : Action D W}
    (agrees : Agrees state.1.service state.2) (returns : action.RedisReturns)
    (one : recorded state action = some next) : Agrees next.1.service next.2 := by
  obtain ⟨after, moved, rfl⟩ := Option.map_eq_some_iff.mp one
  rcases Calls.step_cases returns moved with ⟨feed, websocket, rfl, rfl⟩ |
    ⟨feed, websocket, caller, rfl, rfl⟩ | ⟨call, websocket, rfl, idle, rfl⟩ |
    ⟨call, websocket, feed, rest, left, rfl, pending, _, rfl⟩ | ⟨call, websocket, rfl, pending, rfl⟩
  · exact agrees.subscribe feed websocket
  · exact agrees.unsubscribe feed websocket caller
  · exact agrees
  · simp only [live, pending]
    exact agrees.unsubscribe feed websocket .client
  · exact agrees

theorem recorded_run {actions : List (Action D W)} {state final : Calls D W × Finset (String × W)}
    (agrees : Agrees state.1.service state.2) (returns : ∀ action ∈ actions, action.RedisReturns)
    (run : exec recorded actions state = some final) : Agrees final.1.service final.2 :=
  along_invariant (fun state => Agrees state.1.service state.2) recorded_step agrees (along_of_forall returns _) run

/-! An unfinished `disconnect` still has ahead of it every feed its client is on. -/

def Leaving (call : D) (websocket : W) (c : Calls D W) : Prop :=
  ∀ feed, websocket ∈ c.service.clients feed →
    ∃ rest, c.disconnecting call = some (websocket, rest) ∧ feed ∈ rest

theorem leaving_snapshot {c next : Calls D W} {call : D} {websocket : W}
    (one : c.step (.disconnect call websocket) = some next) : Leaving call websocket next := by
  have idle : c.disconnecting call = none := by
    cases pending : c.disconnecting call with
    | none => rfl
    | some _ => simp [Calls.step, pending] at one
  simp only [Calls.step, idle, Option.some.injEq] at one
  subst one
  intro feed member
  exact ⟨_, Function.update_self .., Service.mem_of_mem_clients member⟩

omit [DecidableEq D] in
theorem leaving_unsubscribe {c : Calls D W} {call : D} {websocket : W} (leaving : Leaving call websocket c)
    (feed : String) (client : W) (caller : Caller) :
    Leaving call websocket { c with service := (c.service.unsubscribe feed client .returned caller).2 } := by
  intro other member
  rw [Service.clients_unsubscribe] at member
  by_cases same : other = feed
  · rw [if_pos same] at member
    exact leaving other (same ▸ Finset.mem_of_mem_erase member)
  · rw [if_neg same] at member
    exact leaving other member

theorem leaving_step {c next : Calls D W} {action : Action D W} {call : D} {websocket : W}
    (leaving : Leaving call websocket c) (returns : action.RedisReturns)
    (others : ¬action.SubscribedBy websocket) (one : c.step action = some next) :
    Leaving call websocket next := by
  rcases Calls.step_cases returns one with ⟨feed, client, rfl, rfl⟩ |
    ⟨feed, client, caller, rfl, rfl⟩ | ⟨other, client, rfl, idle, rfl⟩ |
    ⟨other, client, feed, rest, left, rfl, pending, ending, rfl⟩ | ⟨other, client, rfl, pending, rfl⟩
  · intro other member
    have apart : websocket ≠ client := fun same => others same.symm
    rw [Service.clients_subscribe] at member
    by_cases same : other = feed
    · simp only [same, if_true, Finset.mem_insert, apart, false_or] at member
      exact leaving other (same ▸ member)
    · rw [if_neg same] at member
      exact leaving other member
  · exact leaving_unsubscribe leaving feed client caller
  · intro feed member
    obtain ⟨rest, pending, ahead⟩ := leaving feed member
    have apart : call ≠ other := by
      rintro rfl
      rw [idle] at pending
      cases pending
    exact ⟨rest, (Function.update_of_ne apart ..).trans pending, ahead⟩
  · intro later member
    obtain ⟨remaining, held, ahead⟩ := leaving_unsubscribe leaving feed client .client later member
    by_cases same : call = other
    · subst same
      rw [pending] at held
      cases held
      rcases ending with rfl | gone
      · -- The head feed was just left, so the client is on one of the rest.
        refine ⟨rest, Function.update_self .., ?_⟩
        rcases List.mem_cons.mp ahead with rfl | ahead
        · simp [Service.clients_unsubscribe] at member
        · exact ahead
      -- the loop ended early, which leaves no feed at all
      · have stays := Service.mem_of_mem_clients member
        change later ∈ (c.service.unsubscribe feed websocket .returned .client).2.subscriptions.keys at stays
        rw [gone] at stays
        cases stays
    · exact ⟨remaining, (Function.update_of_ne same ..).trans held, ahead⟩
  · intro feed member
    obtain ⟨rest, held, ahead⟩ := leaving feed member
    have apart : call ≠ other := by
      rintro rfl
      rw [pending] at held
      cases held
      cases ahead
    exact ⟨rest, (Function.update_of_ne apart ..).trans held, ahead⟩

theorem leaving_run {actions : List (Action D W)} {c final : Calls D W} {call : D} {websocket : W}
    (leaving : Leaving call websocket c) (returns : ∀ action ∈ actions, action.RedisReturns)
    (others : ∀ action ∈ actions, ¬action.SubscribedBy websocket)
    (run : exec Calls.step actions c = some final) : Leaving call websocket final := by
  have allowed : ∀ action ∈ actions, action.RedisReturns ∧ ¬action.SubscribedBy websocket :=
    fun action member => ⟨returns action member, others action member⟩
  apply along_invariant (Leaving call websocket) _ leaving (along_of_forall allowed _) run
  exact fun leaving allowed one => leaving_step leaving allowed.1 allowed.2 one

theorem exec_of_recorded {actions : List (Action D W)} {state final : Calls D W × Finset (String × W)}
    (run : exec recorded actions state = some final) : exec Calls.step actions state.1 = some final.1 := by
  refine exec_image Prod.fst ?_ run
  intro _ _ _ one
  obtain ⟨after, moved, rfl⟩ := Option.map_eq_some_iff.mp one
  exact moved

/-- The client whose own call, or whose `disconnect`, the action belongs to. -/
def ActsFor (c : Calls D W) (client : W) : Action D W → Prop
  | .subscribe _ websocket _ => websocket = client
  | .unsubscribe _ websocket _ _ => websocket = client
  | .disconnectNext call _ => ∃ rest, c.disconnecting call = some (client, rest)
  | .disconnect _ _ => False
  | .disconnectReturn _ => False

theorem clients_of_other {c next : Calls D W} {action : Action D W} {client : W}
    (returns : action.RedisReturns) (other : ¬ActsFor c client action)
    (one : c.step action = some next) (feed : String) :
    client ∈ next.service.clients feed ↔ client ∈ c.service.clients feed := by
  rcases Calls.step_cases returns one with ⟨changed, websocket, rfl, rfl⟩ |
    ⟨changed, websocket, caller, rfl, rfl⟩ | ⟨call, websocket, rfl, _, rfl⟩ |
    ⟨call, websocket, changed, rest, left, rfl, pending, _, rfl⟩ | ⟨call, websocket, rfl, _, rfl⟩
  · have apart : client ≠ websocket := fun same => other same.symm
    rw [Service.clients_subscribe]
    by_cases same : feed = changed <;> simp [same, apart]
  · have apart : client ≠ websocket := fun same => other same.symm
    rw [Service.clients_unsubscribe]
    by_cases same : feed = changed <;> simp [same, apart]
  · rfl
  · have apart : client ≠ websocket := by
      rintro rfl
      exact other ⟨_, pending⟩
    rw [Service.clients_unsubscribe]
    by_cases same : feed = changed <;> simp [same, apart]
  · rfl

/-- Whenever the lock is free: the registry maps the feeds with a live client
to exactly those clients, a step moves no client but its own, Redis has exactly
the keys, split by `'*'`, and a finished `disconnect` left its client nowhere. -/
theorem registry_tracks_live_clients {actions : List (Action D W)} {c : Calls D W}
    {members : Finset (String × W)} (returns : ∀ action ∈ actions, action.RedisReturns)
    (run : exec recorded actions (.fresh, ∅) = some (c, members)) :
    (∀ feed, c.service.subscriptions.get feed =
      if clientsOf members feed = ∅ then none else some (clientsOf members feed)) ∧
    (∀ action next client, action.RedisReturns → ¬ActsFor c client action → c.step action = some next →
      ∀ feed, client ∈ next.service.clients feed ↔ client ∈ c.service.clients feed) ∧
    (∀ feed, feed ∈ c.service.pubsub.channels ↔ feed ∈ c.service.subscriptions ∧ ¬Wildcard feed) ∧
    (∀ feed, feed ∈ c.service.pubsub.patterns ↔ feed ∈ c.service.subscriptions ∧ Wildcard feed) ∧
    (∀ earlier call websocket later, actions = earlier ++ .disconnect call websocket :: later →
      (∀ action ∈ later, ¬action.SubscribedBy websocket) → c.disconnecting call = none →
      ∀ feed, websocket ∉ c.service.clients feed) := by
  have agrees : Agrees c.service members := recorded_run .fresh returns run
  refine ⟨agrees.get, fun action next client answered other one => clients_of_other answered other one,
    agrees.channels, agrees.patterns, ?_⟩
  intro earlier call websocket later split quiet finished feed member
  subst split
  obtain ⟨before, _, more⟩ := exec_append.mp (exec_of_recorded run)
  obtain ⟨snapshot, one, rest⟩ := exec_cons.mp more
  have answered : ∀ action ∈ later, action.RedisReturns := fun action inside =>
    returns action (List.mem_append_right _ (List.mem_cons_of_mem _ inside))
  have leaving := leaving_run (leaving_snapshot one) answered quiet rest
  obtain ⟨_, pending, _⟩ := leaving feed member
  rw [finished] at pending
  cases pending

theorem registry_tracks_live_clients_disconnected : ∃ (c : Calls Nat Nat) (members : Finset (String × Nat)),
    exec recorded [.subscribe "quote:*" 1 .returned, .subscribe "quote:*" 2 .returned, .disconnect 0 1,
      .disconnectNext 0 .returned, .disconnectReturn 0] (.fresh, ∅) = some (c, members) ∧
    c.service.clients "quote:*" = {2} ∧ ∀ feed, 1 ∉ c.service.clients feed := by
  refine ⟨_, _, rfl, by decide, ?_⟩
  exact (registry_tracks_live_clients (by simp [Action.RedisReturns]) rfl).2.2.2.2
    [.subscribe "quote:*" 1 .returned, .subscribe "quote:*" 2 .returned] 0 1
    [.disconnectNext 0 .returned, .disconnectReturn 0] rfl (by simp [Action.SubscribedBy]) rfl

end KuhlHausMdp.WidgetDataService
