import KuhlHausMdp.LeaderboardAnalyzer.Tasks

/-! `_check_market_open_reset` beside the calls of other instances. Its scan is
paged, and what the scan found is deleted by one pipeline after the last page. -/

set_option autoImplicit false

namespace KuhlHausMdp.LeaderboardAnalyzer

open Transition MarketDataCache

/-- Where a call of `analyze_data` stands. The winner of the SET NX collects the
pages of its scan. -/
inductive Call where
  | task (task : Task)
  | scanning (today : ℤ) (found : List String)
  | deleting (today : ℤ) (found : List String)

inductive Answer where
  | reply (reply : Reply)
  | page (symbols : List String) (more : Bool)

def Call.resume (zone : ZoneInfo) (now : ℤ) (store : Store) (event : Event) : Call → Answer → Option (Store × Call)
  | .task (.claiming today), .reply .redis =>
      if store.openReset today then some (store, .task .snapshot)
      else some ({ store with openReset := Function.update store.openReset today true }, .scanning today [])
  | .task stage, .reply reply =>
      (stage.resume zone now store event reply).map fun after => (after.1, .task after.2)
  | .scanning today found, .page symbols more =>
      some (store, if more then .scanning today (found ++ symbols) else .deleting today (found ++ symbols))
  | .deleting _ found, .reply .redis =>
      (Task.clearing.resume zone now store event (.keys found)).map fun after => (after.1, .task after.2)
  | .scanning _ _, .reply .raised | .deleting _ _, .reply .raised => some (store, .task .failed)
  | _, _ => none

/-- When a call took an open price from its event, and how many resets had
executed when it was stored. -/
structure Origin where
  captured : ℤ
  stored : Nat

/-- A score written to the gainers, the resets before it and its open price's origin. -/
structure Write where
  commit : Commit
  resets : Nat
  origin : Origin

/-- The calls of all instances, numbered as they start. `origin` is that of the
stored open prices, `held` that of the one a call works with. -/
structure Cluster where
  now : ℤ
  store : Store
  started : Nat
  call : Nat → Option (Event × Call)
  resets : Nat
  origin : String → Origin
  held : Nat → Origin
  written : List Write

/-- An open price expires after a day. -/
inductive ClusterStep where
  | advance (seconds : Nat)
  | expire (symbol : String)
  | start (event : Event)
  | resume (k : Nat) (answer : Answer)

namespace Cluster

def fresh (now : ℤ) : Cluster where
  now := now
  store := .fresh
  started := 0
  call _ := none
  resets := 0
  origin _ := ⟨now, 0⟩
  held _ := ⟨now, 0⟩
  written := []

def note (s : Cluster) (k : Nat) (event : Event) : Call → Answer → Cluster
  | .deleting _ _, .reply .redis => { s with resets := s.resets + 1 }
  | .task (.openPrice _ _ _), .reply .redis =>
      { s with
        held := Function.update s.held k
          (if (s.store.openPrice event.symbol).isSome then s.origin event.symbol else ⟨s.now, s.resets⟩) }
  | .task (.storingOpen _ _ _ _), .reply .redis =>
      { s with
        held := Function.update s.held k ⟨(s.held k).captured, s.resets⟩
        origin := Function.update s.origin event.symbol ⟨(s.held k).captured, s.resets⟩ }
  | .task (.committing commit), .reply .redis => { s with written := ⟨commit, s.resets, s.held k⟩ :: s.written }
  | _, _ => s

def step (zone : ZoneInfo) (s : Cluster) : ClusterStep → Option Cluster
  | .advance seconds => some { s with now := s.now + seconds }
  | .expire symbol =>
      some { s with store := { s.store with openPrice := Function.update s.store.openPrice symbol none } }
  | .start event =>
      some { s with
        started := s.started + 1
        call := Function.update s.call s.started (some (event, .task (.boundary (currentDayTs zone s.now)))) }
  | .resume k answer =>
      match s.call k with
      | none => none
      | some (event, call) =>
          (call.resume zone s.now s.store event answer).map fun after =>
            { s.note k event call answer with
              store := after.1
              call := Function.update s.call k (some (event, after.2)) }

end Cluster

/-! What an await can do. -/

def Call.holding : Call → Bool
  | .task (.storingOpen _ _ _ _) | .task (.committing _) => true
  | _ => false

def Call.day? : Call → Option ℤ
  | .task (.claiming today) | .scanning today _ | .deleting today _ => some today
  | _ => none

section
variable {zone : ZoneInfo} {now : ℤ} {store after : Store} {event : Event}

/-- What resuming a call changes of the open prices, and what is noted of it. -/
inductive Resumed (now : ℤ) (zone : ZoneInfo) (store : Store) (event : Event) : Call → Answer → Store → Call → Prop where
  | deleted (today : ℤ) (found : List String) (after : Store)
      (left : ∀ symbol, after.openPrice symbol = if symbol ∈ found then none else store.openPrice symbol) :
      Resumed now zone store event (.deleting today found) (.reply .redis) after (.task .snapshot)
  | missing (ticker : TickerSnapshot) (average float : Value) (none : store.openPrice event.symbol = none) :
      Resumed now zone store event (.task (.openPrice ticker average float)) (.reply .redis) store
        (.task (.storingOpen ticker average float (Task.fallbackOpen event)))
  | read (ticker : TickerSnapshot) (average float : Value) (price : ℚ)
      (stored : store.openPrice event.symbol = some (.num price)) :
      Resumed now zone store event (.task (.openPrice ticker average float)) (.reply .redis) store
        (.task (Task.compute event ticker average float (.num price)))
  | unusable (ticker : TickerSnapshot) (average float : Value) :
      Resumed now zone store event (.task (.openPrice ticker average float)) (.reply .redis) store (.task .failed)
  | stored (ticker : TickerSnapshot) (average float price : Value) :
      Resumed now zone store event (.task (.storingOpen ticker average float price)) (.reply .redis)
        { store with openPrice := Function.update store.openPrice event.symbol (some price) }
        (.task (Task.compute event ticker average float price))
  | committed (commit : Commit) :
      Resumed now zone store event (.task (.committing commit)) (.reply .redis) (store.commit commit)
        (.task (.done commit))
  | other (call : Call) (answer : Answer) (after : Store) (next : Call)
      (fewer : ∀ symbol price, after.openPrice symbol = some price → store.openPrice symbol = some price)
      (free : next.holding = false)
      (day : ∀ today, next.day? = some today → call.day? = some today ∨ Task.openWindow zone now = some today)
      (unnoted : ∀ s k, Cluster.note s k event call answer = s) :
      Resumed now zone store event call answer after next

variable {call next : Call} {answer : Answer}

/-- An await that leaves the open prices as they are, and the call without a price or a day. -/
theorem Resumed.idle (kept : after.openPrice = store.openPrice) (free : next.holding = false) (day : next.day? = none)
    (unnoted : ∀ s k, Cluster.note s k event call answer = s) : Resumed now zone store event call answer after next :=
  .other _ _ _ _ (fun _ _ same => kept ▸ same) free (fun _ same => nomatch day.symm.trans same) unnoted

theorem day?_compute (ticker : TickerSnapshot) (average float price : Value) :
    (Call.task (Task.compute event ticker average float price)).day? = none := by
  unfold Task.compute
  split <;> rfl

theorem Task.resumed {stage next : Task} {reply : Reply}
    (one : stage.resume zone now store event reply = some (after, next)) :
    Resumed now zone store event (.task stage) (.reply reply) after (.task next) := by
  unfold Task.resume at one
  split at one
  case h_1 => cases one; exact .idle rfl rfl rfl fun _ _ => rfl
  case h_2 =>
    split at one <;> cases one
    case h_1 today window =>
      refine .other _ _ _ _ (fun _ _ same => same) rfl (fun other same => .inr ?_) fun _ _ => rfl
      exact window.trans same
    case h_2 => exact .idle rfl rfl rfl fun _ _ => rfl
  case h_3 =>
    split at one <;> cases one <;> exact .idle rfl rfl rfl fun _ _ => rfl
  case h_4 symbols =>
    cases one
    refine .other _ _ _ _ (fun symbol price same => ?_) rfl (fun _ same => nomatch same) fun _ _ => rfl
    exact (Option.ite_none_left_eq_some.mp same).2
  case h_8 ticker average float =>
    split at one <;> cases one
    case h_1 none => exact .missing ticker average float none
    case h_2 price stored => exact .read ticker average float price stored
    case h_3 => exact .unusable ticker average float
  case h_9 ticker average float price => cases one; exact .stored ticker average float price
  case h_10 commit => cases one; exact .committed commit
  case h_11 =>
    split at one <;> cases one
    refine .idle rfl rfl rfl fun _ _ => ?_
    cases stage <;> rfl
  case h_12 => cases one
  -- the caches' answers
  all_goals cases one; exact .idle rfl rfl rfl fun _ _ => rfl

theorem Call.resumed
    (one : call.resume zone now store event answer = some (after, next)) :
    Resumed now zone store event call answer after next := by
  cases call with
  | scanning today found =>
      cases answer with
      | page symbols more =>
          cases one
          refine .other _ _ _ _ (fun _ _ same => same) ?_ ?_ fun _ _ => rfl
          · cases more <;> rfl
          · cases more <;> exact fun _ same => .inl same
      | reply reply =>
          cases reply <;> cases one
          exact .idle rfl rfl rfl fun _ _ => rfl
  | deleting today found =>
      cases answer with
      | page symbols more => cases one
      | reply reply =>
          cases reply <;> cases one
          · exact .deleted today found _ fun symbol => rfl
          · exact .idle rfl rfl rfl fun _ _ => rfl
  | task stage =>
      unfold Call.resume at one
      split at one
      case h_1 _ _ today claiming =>
        cases claiming
        split at one <;> cases one
        · exact .idle rfl rfl rfl fun _ _ => rfl
        · exact .other _ _ _ _ (fun _ _ same => same) rfl (fun _ same => .inl same) fun _ _ => rfl
      case h_2 _ _ other reply _ here =>
        cases here
        obtain ⟨moved, resumed, same⟩ := Option.map_eq_some_iff.mp one
        cases same
        exact Task.resumed resumed
      all_goals simp_all

end

end KuhlHausMdp.LeaderboardAnalyzer
