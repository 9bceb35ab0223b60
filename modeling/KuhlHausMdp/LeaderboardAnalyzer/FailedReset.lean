import KuhlHausMdp.Eastern
import KuhlHausMdp.LeaderboardAnalyzer.OpenReset

/-! `_check_market_open_reset` when Redis fails after the SET NX: the marker of
the day stays for its hour, and whoever finds it takes the reset for done. -/

set_option autoImplicit false

namespace KuhlHausMdp.LeaderboardAnalyzer

open Transition

structure Marker where
  winner : Nat
  since : ℤ

/-- What became of a call whose SET NX was answered. `old` are the open prices
that had been there since the SET NX when its pipeline executed. -/
inductive Attempt where
  | won (today : ℤ)
  | refused (today : ℤ) (winner : Nat)
  | failed (today : ℤ)
  | performed (today : ℤ) (old : String → Bool) (after : Store)

/-- `old k` are the open prices that have been there since the SET NX of the call. -/
structure Marked where
  cluster : Cluster
  marker : ℤ → Option Marker
  attempt : Nat → Option Attempt
  old : Nat → String → Bool

namespace Marked

def fresh (now : ℤ) : Marked := ⟨.fresh now, fun _ => none, fun _ => none, fun _ _ => false⟩

/-- The marker of a day lives for an hour. -/
def standing (s : Marked) (today : ℤ) : Option Marker :=
  (s.marker today).filter fun marker => decide (s.cluster.now < marker.since + 3600)

def current (s : Marked) : Cluster :=
  { s.cluster with store := { s.cluster.store with openReset := fun today => (s.standing today).isSome } }

def note (s : Marked) (k : Nat) (after : Store) : Call → Answer → Marked
  | .task (.claiming today), .reply .redis =>
      match s.standing today with
      | some marker => { s with attempt := Function.update s.attempt k (some (.refused today marker.winner)) }
      | none =>
          { s with
            marker := Function.update s.marker today (some ⟨k, s.cluster.now⟩)
            attempt := Function.update s.attempt k (some (.won today))
            old := Function.update s.old k fun _ => true }
  | .scanning today _, .reply .raised | .deleting today _, .reply .raised =>
      { s with attempt := Function.update s.attempt k (some (.failed today)) }
  | .deleting today _, .reply .redis =>
      { s with attempt := Function.update s.attempt k (some (.performed today (s.old k) after)) }
  | _, _ => s

def noted (s : Marked) (after : Store) : ClusterStep → Marked
  | .resume k answer =>
      match s.cluster.call k with
      | some (_, call) => s.note k after call answer
      | none => s
  | _ => s

def step (zone : ZoneInfo) (s : Marked) (action : ClusterStep) : Option Marked :=
  (s.current.step zone action).map fun next =>
    let noted := s.noted next.store action
    { noted with
      cluster := next
      old := fun k symbol => noted.old k symbol && (next.store.openPrice symbol).isSome }

end Marked

def Call.resets? : Call → Option ℤ
  | .scanning today _ | .deleting today _ => some today
  | .task _ => none

namespace Marked

/-- What Redis promises of a scan: a key that is there from its start to its end
is found. -/
def ScanComplete (s : Marked) : ClusterStep → Prop
  | .resume k (.page symbols false) => ∀ event today found, s.cluster.call k = some (event, .scanning today found) →
      ∀ symbol, s.old k symbol = true → symbol ∈ found ++ symbols
  | _ => True

/-- No call finds the marker of a reset that fails, neither after it has failed nor before. -/
def Unsuppressed (s : Marked) : ClusterStep → Prop
  | .resume k (.reply .redis) => ∀ event today marker, s.cluster.call k = some (event, .task (.claiming today)) →
      s.standing today = some marker → s.attempt marker.winner ≠ some (.failed today)
  | .resume k (.reply .raised) => ∀ event call today, s.cluster.call k = some (event, call) →
      call.resets? = some today → ∀ j, s.attempt j ≠ some (.refused today k)
  | _ => True

def Quiet (s : Marked) (today : ℤ) : Prop :=
  ∀ k event call, s.cluster.call k = some (event, call) → call.resets? ≠ some today

def Passed (s : Marked) (k : Nat) (today : ℤ) : Prop :=
  (∃ winner, s.attempt k = some (.refused today winner)) ∨ ∃ old after, s.attempt k = some (.performed today old after)

def Performed (s : Marked) (k : Nat) (today : ℤ) : Prop :=
  ∃ old after, s.attempt k = some (.performed today old after) ∧ after.board .topGainers = ∅ ∧
    ∀ symbol, old symbol = true → after.openPrice symbol = none

/-- The marker of a failed reset turns no attempt away, and after a window in
which some attempt passed the reset has been performed. -/
structure Survives (s : Marked) : Prop where
  unsuppressed : ∀ k today winner, s.attempt k = some (.refused today winner) → s.attempt winner ≠ some (.failed today)
  performed : ∀ today, s.Quiet today → (∃ k, s.Passed k today) → ∃ k, s.Performed k today

end Marked

/-! What an answered await does. -/

def Attempt.Ahead (today : ℤ) : Attempt → Prop
  | .won day | .performed day _ _ => day = today
  | _ => False

def Task.unclaimed : Task → Bool
  | boundary _ | marketOpen | claiming _ => true
  | _ => false

theorem unclaimed_of_resume {zone : ZoneInfo} {now : ℤ} {store after : Store} {event : Event} {stage next : Task}
    {reply : Reply} (one : stage.resume zone now store event reply = some (after, next))
    (unclaimed : next.unclaimed = true) : stage.unclaimed = true := by
  have computed : ∀ ticker average float price, (Task.compute event ticker average float price).unclaimed = false := by
    intro ticker average float price
    unfold Task.compute
    split <;> rfl
  unfold Task.resume at one
  split at one
  case h_1 | h_2 | h_3 => rfl
  case h_8 => split at one <;> cases one <;> simp_all [Task.unclaimed]
  case h_9 => cases one; simp_all
  case h_11 => split at one <;> cases one; cases unclaimed
  case h_12 => cases one
  all_goals cases one; cases unclaimed

namespace Marked

inductive Turn (s : Marked) (k : Nat) (after : Store) : Call → Answer → Call → Marked → Prop where
  | refused {today : ℤ} {marker : Marker} (standing : s.standing today = some marker) :
      Turn s k after (.task (.claiming today)) (.reply .redis) (.task .snapshot)
        { s with attempt := Function.update s.attempt k (some (.refused today marker.winner)) }
  | won {today : ℤ} (free : s.standing today = none) :
      Turn s k after (.task (.claiming today)) (.reply .redis) (.scanning today [])
        { s with
          marker := Function.update s.marker today (some ⟨k, s.cluster.now⟩)
          attempt := Function.update s.attempt k (some (.won today))
          old := Function.update s.old k fun _ => true }
  | page {today : ℤ} {found symbols : List String} :
      Turn s k after (.scanning today found) (.page symbols true) (.scanning today (found ++ symbols)) s
  | last {today : ℤ} {found symbols : List String} :
      Turn s k after (.scanning today found) (.page symbols false) (.deleting today (found ++ symbols)) s
  | failed {call : Call} {today : ℤ} (resets : call.resets? = some today) :
      Turn s k after call (.reply .raised) (.task .failed)
        { s with attempt := Function.update s.attempt k (some (.failed today)) }
  | performed {today : ℤ} {found : List String} (board : after.board .topGainers = ∅)
      (deleted : ∀ symbol ∈ found, after.openPrice symbol = none) :
      Turn s k after (.deleting today found) (.reply .redis) (.task .snapshot)
        { s with attempt := Function.update s.attempt k (some (.performed today (s.old k) after)) }
  | task {stage next : Task} {reply : Reply} (alive : stage ≠ .failed)
      (unclaimed : next.unclaimed = true → stage.unclaimed = true) :
      Turn s k after (.task stage) (.reply reply) (.task next) s

variable {zone : ZoneInfo} {s t : Marked} {k : Nat} {event : Event} {call next : Call} {answer : Answer}
  {after : Store} {action : ClusterStep}

theorem turn_of_resume {now : ℤ} (one : call.resume zone now s.current.store event answer = some (after, next)) :
    s.Turn k after call answer next (s.note k after call answer) := by
  cases call with
  | scanning today found =>
      cases answer with
      | page symbols more =>
          cases more <;> cases one
          · exact .last
          · exact .page
      | reply reply => cases reply <;> cases one; exact .failed rfl
  | deleting today found =>
      cases answer with
      | page symbols more => cases one
      | reply reply =>
          cases reply <;> cases one
          · refine .performed ?_ ?_
            · simp only [Function.update_self]
            · exact fun symbol member => if_pos member
          · exact .failed rfl
  | task stage =>
      cases answer with
      | page symbols more => cases stage <;> cases one
      | reply reply =>
          have alive : stage ≠ .failed := by
            rintro rfl
            cases reply <;> cases one
          cases stage with
          | claiming today =>
              cases reply with
              | redis =>
                  simp only [Call.resume, current] at one
                  simp only [note]
                  cases standing : s.standing today with
                  | none =>
                      simp only [standing, Option.isSome_none, Bool.false_eq_true, if_false] at one
                      cases one
                      exact .won standing
                  | some marker =>
                      simp only [standing, Option.isSome_some, if_true] at one
                      cases one
                      exact .refused standing
              | _ =>
                  simp only [Call.resume, Option.map_eq_some_iff] at one
                  obtain ⟨moved, resumed, same⟩ := one
                  cases same
                  exact .task alive (unclaimed_of_resume resumed)
          | _ =>
              obtain ⟨moved, resumed, same⟩ := Option.map_eq_some_iff.mp one
              cases same
              exact .task alive (unclaimed_of_resume resumed)

theorem step_cases (one : s.step zone action = some t) :
    (t.cluster.call = s.cluster.call ∧ t.cluster.started = s.cluster.started ∧ t.attempt = s.attempt ∧
        t.marker = s.marker ∧ ∀ k symbol, t.old k symbol = true → s.old k symbol = true) ∨
      (∃ event task, t.cluster.call = Function.update s.cluster.call s.cluster.started (some (event, .task task)) ∧
        t.cluster.started = s.cluster.started + 1 ∧ t.attempt = s.attempt ∧ t.marker = s.marker ∧
        ∀ k symbol, t.old k symbol = true → s.old k symbol = true) ∨
      ∃ k answer event call next after noted, action = .resume k answer ∧ s.cluster.call k = some (event, call) ∧
        s.Turn k after call answer next noted ∧
        t.cluster.call = Function.update s.cluster.call k (some (event, next)) ∧
        t.cluster.started = s.cluster.started ∧ t.attempt = noted.attempt ∧ t.marker = noted.marker ∧
        ∀ j symbol, t.old j symbol = true → noted.old j symbol = true := by
  obtain ⟨cluster, moved, rfl⟩ := Option.map_eq_some_iff.mp one
  have shrinks : ∀ (noted : Marked) (k : Nat) (symbol : String),
      (noted.old k symbol && (cluster.store.openPrice symbol).isSome) = true → noted.old k symbol = true :=
    fun noted k symbol both => (Bool.and_eq_true_iff.mp both).1
  cases action with
  | advance seconds => cases moved; exact .inl ⟨rfl, rfl, rfl, rfl, shrinks s⟩
  | expire symbol => cases moved; exact .inl ⟨rfl, rfl, rfl, rfl, shrinks s⟩
  | start event => cases moved; exact .inr (.inl ⟨event, _, rfl, rfl, rfl, rfl, shrinks s⟩)
  | resume k answer =>
      simp only [Cluster.step] at moved
      cases here : s.cluster.call k with
      | none =>
          have idle : s.current.call k = none := here
          rw [idle] at moved
          cases moved
      | some pair =>
          obtain ⟨event, call⟩ := pair
          have busy : s.current.call k = some (event, call) := here
          rw [busy] at moved
          obtain ⟨⟨after, next⟩, resumed, rfl⟩ := Option.map_eq_some_iff.mp moved
          have noted : s.noted after (.resume k answer) = s.note k after call answer := by simp only [Marked.noted, here]
          have kept : (s.current.note k event call answer).started = s.cluster.started := by
            unfold Cluster.note
            split <;> rfl
          refine .inr (.inr ⟨k, answer, event, call, next, after, s.noted after (.resume k answer), rfl, here, ?_, rfl, kept,
            rfl, rfl, shrinks _⟩)
          rw [noted]
          exact turn_of_resume resumed

def Idle (s : Marked) : Prop := ∀ k, s.cluster.started ≤ k → s.cluster.call k = none ∧ s.attempt k = none

theorem Idle.low (idle : s.Idle) (here : s.cluster.call k = some (event, call)) : k < s.cluster.started := by
  by_contra above
  exact nomatch here.symm.trans (idle k (not_lt.mp above)).1

theorem attempt_turn {noted : Marked} (turn : s.Turn k after call answer next noted) {j : Nat} (apart : j ≠ k) :
    noted.attempt j = s.attempt j := by
  cases turn with
  | refused | won | failed | performed => exact Function.update_of_ne apart ..
  | page | last | task => rfl

theorem Idle.step (idle : s.Idle) (one : s.step zone action = some t) : t.Idle := by
  intro j above
  rcases step_cases one with ⟨call, started, attempt, -⟩ | ⟨event, task, call, started, attempt, -⟩ |
    ⟨k, answer, event, call, next, after, noted, rfl, here, turn, calls, started, attempts, -⟩
  · rw [call, attempt]
    exact idle j (started ▸ above)
  · have apart : j ≠ s.cluster.started := by omega
    rw [call, attempt, Function.update_of_ne apart]
    exact idle j (by omega)
  · have low := idle.low here
    have apart : j ≠ k := by omega
    rw [calls, attempts, Function.update_of_ne apart, attempt_turn turn apart]
    exact idle j (started ▸ above)

theorem idle_fresh (now : ℤ) : (fresh now).Idle := fun _ _ => ⟨rfl, rfl⟩

/-- The attempts agree with the calls; a marker, and a refusal, name an attempt
that won, and the one that refused has not failed. -/
structure Inv (s : Marked) : Prop where
  idle : s.Idle
  unclaimed : ∀ k event stage, s.cluster.call k = some (event, .task stage) → stage.unclaimed = true →
    s.attempt k = none
  won : ∀ k today, s.attempt k = some (.won today) ↔
    ∃ event call, s.cluster.call k = some (event, call) ∧ call.resets? = some today
  failed : ∀ k today, s.attempt k = some (.failed today) → ∃ event, s.cluster.call k = some (event, .task .failed)
  refused : ∀ k today winner, s.attempt k = some (.refused today winner) →
    ∃ attempt, s.attempt winner = some attempt ∧ attempt.Ahead today
  marker : ∀ today marker, s.marker today = some marker →
    ∃ attempt, s.attempt marker.winner = some attempt ∧ (attempt.Ahead today ∨ attempt = .failed today)
  found : ∀ k event today found, s.cluster.call k = some (event, .deleting today found) →
    ∀ symbol, s.old k symbol = true → symbol ∈ found
  cleared : ∀ k today old after, s.attempt k = some (.performed today old after) →
    after.board .topGainers = ∅ ∧ ∀ symbol, old symbol = true → after.openPrice symbol = none

theorem inv_fresh (now : ℤ) : (fresh now).Inv where
  idle := idle_fresh now
  unclaimed := fun _ _ _ here => nomatch here
  won := fun _ _ => ⟨nofun, fun ⟨_, _, here, _⟩ => nomatch here⟩
  failed := fun _ _ => nofun
  refused := fun _ _ _ => nofun
  marker := fun _ _ => nofun
  found := fun _ _ _ _ => nofun
  cleared := fun _ _ _ _ => nofun

theorem Inv.congr (inv : s.Inv) (idle : t.Idle) (call : t.cluster.call = s.cluster.call) (attempt : t.attempt = s.attempt)
    (marker : t.marker = s.marker)
    (old : ∀ k symbol, t.old k symbol = true → s.old k symbol = true) : t.Inv where
  idle := idle
  unclaimed := by rw [call, attempt]; exact inv.unclaimed
  won := by rw [call, attempt]; exact inv.won
  failed := by rw [call, attempt]; exact inv.failed
  refused := by rw [attempt]; exact inv.refused
  marker := by rw [attempt, marker]; exact inv.marker
  found := by
    rw [call]
    exact fun k event today found here symbol member => inv.found k event today found here symbol (old k symbol member)
  cleared := by rw [attempt]; exact inv.cleared

theorem each_call {motive : Nat → Option (Event × Call) → Option Attempt → Prop} {attempt : Option Attempt}
    (calls : t.cluster.call = Function.update s.cluster.call k (some (event, next)))
    (attempts : t.attempt = Function.update s.attempt k attempt) (here : motive k (some (event, next)) attempt)
    (others : ∀ j, j ≠ k → motive j (s.cluster.call j) (s.attempt j)) (j : Nat) :
    motive j (t.cluster.call j) (t.attempt j) := by
  rw [calls, attempts]
  by_cases same : j = k
  · subst same
    rw [Function.update_self, Function.update_self]
    exact here
  · rw [Function.update_of_ne same, Function.update_of_ne same]
    exact others j same

theorem Inv.moved (inv : s.Inv) {attempt : Option Attempt} (idle : t.Idle)
    (calls : t.cluster.call = Function.update s.cluster.call k (some (event, next)))
    (attempts : t.attempt = Function.update s.attempt k attempt)
    (unclaimed : ∀ stage, next = .task stage → stage.unclaimed = true → attempt = none)
    (won : ∀ today, attempt = some (.won today) ↔ next.resets? = some today)
    (failed : ∀ today, attempt = some (.failed today) → next = .task .failed)
    (refused : ∀ today winner, attempt = some (.refused today winner) → winner ≠ k ∧
      ∃ other, s.attempt winner = some other ∧ other.Ahead today)
    (followed : ∀ j today, s.attempt j = some (.refused today k) → ∃ own, attempt = some own ∧ own.Ahead today)
    (marker : ∀ today marker, t.marker today = some marker →
      if marker.winner = k then ∃ own, attempt = some own ∧ (own.Ahead today ∨ own = .failed today)
      else s.marker today = some marker)
    (found : ∀ today found, next = .deleting today found → ∀ symbol, t.old k symbol = true → symbol ∈ found)
    (old : ∀ j, j ≠ k → ∀ symbol, t.old j symbol = true → s.old j symbol = true)
    (cleared : ∀ today old after, attempt = some (.performed today old after) →
      after.board .topGainers = ∅ ∧ ∀ symbol, old symbol = true → after.openPrice symbol = none) : t.Inv where
  idle := idle
  unclaimed := by
    intro j busy stage
    apply each_call (motive := fun _ call attempt => call = some (busy, .task stage) → stage.unclaimed = true →
      attempt = none) calls attempts
    · rintro ⟨⟩
      exact unclaimed stage rfl
    · exact fun j _ => inv.unclaimed j busy stage
  won := by
    intro j today
    apply each_call (motive := fun _ call attempt => attempt = some (.won today) ↔
      ∃ event busy, call = some (event, busy) ∧ busy.resets? = some today) calls attempts
    · rw [won]
      constructor
      · exact fun resets => ⟨event, next, rfl, resets⟩
      · rintro ⟨_, _, ⟨⟩, resets⟩
        exact resets
    · exact fun j _ => inv.won j today
  failed := by
    intro j today
    apply each_call (motive := fun _ call attempt => attempt = some (.failed today) →
      ∃ event, call = some (event, .task .failed)) calls attempts
    · exact fun here => ⟨event, by rw [failed today here]⟩
    · exact fun j _ => inv.failed j today
  refused := by
    intro j today winner
    -- the winner is the call itself, or one that has not moved
    have known : t.attempt j = some (.refused today winner) →
        (winner = k → ∃ own, attempt = some own ∧ own.Ahead today) ∧
          (winner ≠ k → ∃ other, s.attempt winner = some other ∧ other.Ahead today) := by
      refine each_call (motive := fun _ _ found => found = some (.refused today winner) → _) calls attempts ?_ ?_ j
      · exact fun here => ⟨fun self => absurd self (refused today winner here).1, fun _ => (refused today winner here).2⟩
      · intro j _ here
        constructor
        · rintro rfl
          exact followed j today here
        · exact fun _ => inv.refused j today winner here
    intro here
    apply each_call (motive := fun other _ found => winner = other → ∃ own, found = some own ∧ own.Ahead today) calls
      attempts _ _ winner rfl
    · exact (known here).1
    · rintro other apart rfl
      exact (known here).2 apart
  marker := by
    intro today mark set
    have known := marker today mark set
    rw [attempts]
    by_cases self : mark.winner = k
    · rw [if_pos self] at known
      rw [self, Function.update_self]
      exact known
    · rw [if_neg self] at known
      rw [Function.update_of_ne self]
      exact inv.marker today mark known
  found := by
    intro j busy today symbols
    apply each_call (motive := fun j call _ => call = some (busy, .deleting today symbols) →
      ∀ symbol, t.old j symbol = true → symbol ∈ symbols) calls attempts
    · rintro ⟨⟩
      exact found today symbols rfl
    · exact fun j apart here symbol member => inv.found j busy today symbols here symbol (old j apart symbol member)
  cleared := by
    intro j today before after
    refine each_call (motive := fun _ _ attempt => attempt = some (.performed today before after) → _) calls attempts ?_ ?_ j
    · exact cleared today before after
    · exact fun j _ => inv.cleared j today before after

theorem Inv.follows (inv : s.Inv) (none : s.attempt k = none) :
    (∀ j today, s.attempt j ≠ some (.refused today k)) ∧ ∀ today marker, s.marker today = some marker → marker.winner ≠ k := by
  constructor
  · intro j today here
    obtain ⟨attempt, own, -⟩ := inv.refused j today k here
    exact nomatch own.symm.trans none
  · rintro today marker set rfl
    obtain ⟨attempt, own, -⟩ := inv.marker today marker set
    exact nomatch own.symm.trans none

theorem Inv.start (inv : s.Inv) (idle : t.Idle) {task : Task}
    (calls : t.cluster.call = Function.update s.cluster.call s.cluster.started (some (event, .task task)))
    (attempts : t.attempt = s.attempt) (marker : t.marker = s.marker)
    (old : ∀ k symbol, t.old k symbol = true → s.old k symbol = true) : t.Inv := by
  have none := (inv.idle s.cluster.started le_rfl).2
  obtain ⟨unfollowed, unmarked⟩ := inv.follows none
  have same : t.attempt = Function.update s.attempt s.cluster.started (Option.none : Option Attempt) := by
    rw [attempts, ← none, Function.update_eq_self]
  apply inv.moved idle calls same
  · exact fun _ _ _ => rfl
  · exact fun _ => ⟨nofun, nofun⟩
  · exact fun _ => nofun
  · exact fun _ _ => nofun
  · exact fun j today here => absurd here (unfollowed j today)
  · intro today mark set
    rw [marker] at set
    rw [if_neg (unmarked today mark set)]
    exact set
  · exact fun _ _ => nofun
  · exact fun j _ => old j
  · exact fun _ _ _ => nofun

theorem Inv.apart (inv : s.Inv) {today : ℤ} {winner : Nat} (here : s.attempt k = some (.refused today winner)) :
    winner ≠ k := by
  rintro rfl
  obtain ⟨attempt, own, ahead⟩ := inv.refused winner today winner here
  cases own.symm.trans here
  exact ahead

theorem Inv.unnoted (inv : s.Inv) (idle : t.Idle) (here : s.cluster.call k = some (event, call))
    (calls : t.cluster.call = Function.update s.cluster.call k (some (event, next)))
    (attempts : t.attempt = s.attempt) (markers : t.marker = s.marker)
    (old : ∀ j symbol, t.old j symbol = true → s.old j symbol = true) (alive : call ≠ .task .failed)
    (resets : next.resets? = call.resets?)
    (unclaimed : ∀ stage, next = .task stage → stage.unclaimed = true → s.attempt k = none)
    (found : ∀ today found, next = .deleting today found → ∀ symbol, s.old k symbol = true → symbol ∈ found) : t.Inv := by
  have same : t.attempt = Function.update s.attempt k (s.attempt k) := by rw [attempts, Function.update_eq_self]
  apply inv.moved idle calls same unclaimed
  · intro today
    rw [inv.won, resets]
    constructor
    · rintro ⟨_, _, busy, day⟩
      cases here.symm.trans busy
      exact day
    · exact fun day => ⟨event, call, here, day⟩
  · intro today failed
    obtain ⟨_, dead⟩ := inv.failed k today failed
    cases here.symm.trans dead
    exact absurd rfl alive
  · exact fun today winner refused => ⟨inv.apart refused, inv.refused k today winner refused⟩
  · exact fun j today refused => inv.refused j today k refused
  · intro today mark set
    rw [markers] at set
    split
    case isTrue self => exact self ▸ inv.marker today mark set
    case isFalse => exact set
  · exact fun today symbols deleting symbol member => found today symbols deleting symbol (old k symbol member)
  · exact fun j _ => old j
  · exact inv.cleared k

theorem Inv.claimed (inv : s.Inv) (idle : t.Idle) {today : ℤ} {attempt : Attempt}
    (here : s.cluster.call k = some (event, .task (.claiming today)))
    (calls : t.cluster.call = Function.update s.cluster.call k (some (event, next)))
    (attempts : t.attempt = Function.update s.attempt k (some attempt))
    (won : ∀ day, some attempt = some (.won day) ↔ next.resets? = some day)
    (refused : attempt = .won today ∨ ∃ marker, s.standing today = some marker ∧
      s.attempt marker.winner ≠ some (.failed today) ∧ attempt = .refused today marker.winner)
    (marker : ∀ day marker, t.marker day = some marker →
      (marker.winner = k ∧ day = today ∧ attempt = .won today) ∨ s.marker day = some marker)
    (old : ∀ j, j ≠ k → ∀ symbol, t.old j symbol = true → s.old j symbol = true)
    (unclaimed : ∀ stage, next = .task stage → stage.unclaimed = false)
    (scanning : ∀ day found, next ≠ .deleting day found) : t.Inv := by
  have none := inv.unclaimed k event _ here rfl
  obtain ⟨unfollowed, unmarked⟩ := inv.follows none
  apply inv.moved idle calls attempts
  · exact fun stage same yes => nomatch yes.symm.trans (unclaimed stage same)
  · exact won
  · rintro day failed
    cases failed
    rcases refused with same | ⟨_, _, _, same⟩ <;> cases same
  · rintro day winner same
    cases same
    rcases refused with same | ⟨mark, standing, unfailed, same⟩
    · cases same
    · cases same
      -- whoever set the marker has not failed, so its reset is under way or performed
      have set := Option.filter_eq_some_iff.mp standing
      obtain ⟨other, own, ahead⟩ := inv.marker today mark set.1
      refine ⟨unmarked today mark set.1, other, own, ahead.resolve_right ?_⟩
      rintro rfl
      exact unfailed own
  · exact fun j day here => absurd here (unfollowed j day)
  · intro day mark set
    rcases marker day mark set with ⟨self, rfl, rfl⟩ | before
    · rw [if_pos self]
      exact ⟨_, rfl, .inl rfl⟩
    · rw [if_neg (unmarked day mark before)]
      exact before
  · exact fun day found same => absurd same (scanning day found)
  · exact old
  · rintro day before after same
    cases same
    rcases refused with same | ⟨_, _, _, same⟩ <;> cases same

theorem Inv.ended (inv : s.Inv) (idle : t.Idle) {today : ℤ} {attempt : Attempt} {stage : Task}
    (here : s.cluster.call k = some (event, call)) (resets : call.resets? = some today)
    (calls : t.cluster.call = Function.update s.cluster.call k (some (event, .task stage)))
    (attempts : t.attempt = Function.update s.attempt k (some attempt))
    (markers : t.marker = s.marker) (old : ∀ j symbol, t.old j symbol = true → s.old j symbol = true)
    (unclaimed : stage.unclaimed = false)
    (ends : (attempt = .failed today ∧ stage = .failed ∧ ∀ j, s.attempt j ≠ some (.refused today k)) ∨
      ∃ before after, attempt = .performed today before after ∧ after.board .topGainers = ∅ ∧
        ∀ symbol, before symbol = true → after.openPrice symbol = none) : t.Inv := by
  have won : s.attempt k = some (.won today) := (inv.won k today).mpr ⟨event, call, here, resets⟩
  apply inv.moved idle calls attempts
  · rintro _ ⟨⟩ yes
    exact nomatch yes.symm.trans unclaimed
  · intro day
    constructor
    · rintro same
      cases same
      rcases ends with ⟨same, -⟩ | ⟨_, _, same, -⟩ <;> cases same
    · exact nofun
  · rintro day same
    cases same
    rcases ends with ⟨-, same, -⟩ | ⟨_, _, same, -⟩
    · rw [same]
    · cases same
  · rintro day winner same
    cases same
    rcases ends with ⟨same, -⟩ | ⟨_, _, same, -⟩ <;> cases same
  · intro j day refused
    obtain ⟨own, found, ahead⟩ := inv.refused j day k refused
    -- a call that was refused found the marker of this reset, which then must not fail
    cases won.symm.trans found
    cases ahead
    rcases ends with ⟨-, -, unrefused⟩ | ⟨before, after, rfl, -⟩
    · exact absurd refused (unrefused j)
    · exact ⟨_, rfl, rfl⟩
  · intro day mark set
    rw [markers] at set
    split
    case isFalse => exact set
    case isTrue self =>
      obtain ⟨own, found, ahead⟩ := inv.marker day mark set
      rw [self] at found
      cases won.symm.trans found
      cases ahead.resolve_right nofun
      rcases ends with ⟨rfl, -⟩ | ⟨before, after, rfl, -⟩
      · exact ⟨_, rfl, .inr rfl⟩
      · exact ⟨_, rfl, .inl rfl⟩
  · exact fun _ _ => nofun
  · exact fun j _ => old j
  · rintro day before after same
    cases same
    rcases ends with ⟨same, -⟩ | ⟨_, _, same, cleared⟩
    · cases same
    · cases same
      exact cleared

theorem Inv.turn {noted : Marked} (inv : s.Inv) (idle : t.Idle) (here : s.cluster.call k = some (event, call))
    (turn : s.Turn k after call answer next noted) (complete : s.ScanComplete (.resume k answer))
    (unsuppressed : s.Unsuppressed (.resume k answer))
    (calls : t.cluster.call = Function.update s.cluster.call k (some (event, next)))
    (attempts : t.attempt = noted.attempt)
    (markers : t.marker = noted.marker) (old : ∀ j symbol, t.old j symbol = true → noted.old j symbol = true) : t.Inv := by
  cases turn with
  | @refused today marker standing =>
      apply inv.claimed idle here calls attempts
      · exact fun _ => ⟨nofun, nofun⟩
      · exact .inr ⟨marker, standing, unsuppressed event today marker here standing, rfl⟩
      · exact fun day mark set => .inr (markers ▸ set)
      · exact fun j _ => old j
      · rintro _ ⟨⟩
        rfl
      · exact fun _ _ => nofun
  | @won today free =>
      apply inv.claimed idle here calls attempts
      · intro day
        simp [Call.resets?]
      · exact .inl rfl
      · intro day mark set
        rw [markers] at set
        by_cases same : day = today
        · subst same
          simp only [Function.update_self, Option.some.injEq] at set
          subst set
          exact .inl ⟨rfl, rfl, rfl⟩
        · simp only [Function.update_of_ne same] at set
          exact .inr set
      · intro j apart symbol member
        have later := old j symbol member
        simp only [Function.update_of_ne apart] at later
        exact later
      · exact fun _ => nofun
      · exact fun _ _ => nofun
  | page =>
      exact inv.unnoted idle here calls attempts markers old nofun rfl (fun _ => nofun) fun _ _ => nofun
  | @last today found symbols =>
      apply inv.unnoted idle here calls attempts markers old nofun rfl (fun _ => nofun)
      rintro _ _ ⟨⟩
      exact complete event today found here
  | failed resets =>
      exact inv.ended idle here resets calls attempts markers old rfl
        (.inl ⟨rfl, rfl, unsuppressed event call _ here resets⟩)
  | @performed today found board deleted =>
      apply inv.ended idle here rfl calls attempts markers old rfl
      refine .inr ⟨_, _, rfl, board, fun symbol member => deleted symbol ?_⟩
      exact inv.found k event today found here symbol member
  | task alive unclaimed =>
      apply inv.unnoted idle here calls attempts markers old _ rfl _ fun _ _ => nofun
      · rintro ⟨⟩
        exact alive rfl
      · rintro _ ⟨⟩ yes
        exact inv.unclaimed k event _ here (unclaimed yes)

theorem Inv.step (inv : s.Inv) (complete : s.ScanComplete action) (unsuppressed : s.Unsuppressed action)
    (one : s.step zone action = some t) : t.Inv := by
  have idle := inv.idle.step one
  rcases step_cases one with ⟨call, -, attempt, marker, old⟩ | ⟨event, task, call, -, attempt, marker, old⟩ |
    ⟨k, answer, event, call, next, after, noted, rfl, here, turn, calls, -, attempts, markers, old⟩
  · exact inv.congr idle call attempt marker old
  · exact inv.start idle call attempt marker old
  · exact inv.turn idle here turn complete unsuppressed calls attempts markers old

theorem Inv.survives (inv : s.Inv) : s.Survives where
  unsuppressed := by
    intro k today winner refused failed
    obtain ⟨own, here, ahead⟩ := inv.refused k today winner refused
    cases failed.symm.trans here
    exact ahead
  performed := by
    rintro today quiet ⟨k, ⟨winner, refused⟩ | ⟨before, after, here⟩⟩
    · obtain ⟨own, here, ahead⟩ := inv.refused k today winner refused
      cases own with
      | won day =>
          cases ahead
          obtain ⟨event, call, busy, resets⟩ := (inv.won winner today).mp here
          exact absurd resets (quiet winner event call busy)
      | performed day before after =>
          cases ahead
          exact ⟨winner, before, after, here, inv.cleared winner today before after here⟩
      | refused | failed => exact ahead.elim
    · exact ⟨k, before, after, here, inv.cleared k today before after here⟩

theorem attempt_resume {moved : Store × Call} (here : s.cluster.call k = some (event, call))
    (resumed : call.resume zone s.cluster.now s.current.store event answer = some moved) :
    ∃ t, s.step zone (.resume k answer) = some t ∧ t.attempt = (s.note k moved.1 call answer).attempt := by
  have busy : s.current.call k = some (event, call) := here
  have one : s.current.step zone (.resume k answer) = some
      { s.current.note k event call answer with
        store := moved.1
        call := Function.update s.current.call k (some (event, moved.2)) } := by
    simp only [Cluster.step, busy]
    exact congrArg (Option.map _) resumed
  refine ⟨_, congrArg (Option.map _) one, ?_⟩
  simp only [noted, here]

/-- A reset that fails suppresses the attempts that find its marker. -/
theorem unsuppressed_of_survives (inv : s.Inv) (survives : ∀ t, s.step zone action = some t → t.Survives) :
    s.Unsuppressed action := by
  cases action with
  | resume k answer =>
      cases answer with
      | reply reply =>
          cases reply with
          | redis =>
              intro event today marker here standing failed
              have resumed : (Call.task (.claiming today)).resume zone s.cluster.now s.current.store event (.reply .redis) =
                  some (s.current.store, .task .snapshot) := by
                simp only [Call.resume, current, standing, Option.isSome_some, if_true]
              obtain ⟨t, one, attempt⟩ := attempt_resume here resumed
              simp only [note, standing] at attempt
              have apart : marker.winner ≠ k := by
                rintro rfl
                obtain ⟨_, dead⟩ := inv.failed _ today failed
                exact nomatch here.symm.trans dead
              apply (survives t one).unsuppressed k today marker.winner
              · rw [attempt, Function.update_self]
              · rw [attempt, Function.update_of_ne apart, failed]
          | raised =>
              intro event call today here resets j refused
              have resumed : call.resume zone s.cluster.now s.current.store event (.reply .raised) =
                  some (s.current.store, .task .failed) := by
                cases call with
                | task stage => cases resets
                | scanning | deleting => rfl
              obtain ⟨t, one, attempt⟩ := attempt_resume here resumed
              have noted : (s.note k s.current.store call (.reply .raised)).attempt =
                  Function.update s.attempt k (some (.failed today)) := by
                cases call with
                | task stage => cases resets
                | scanning | deleting => cases resets; rfl
              rw [noted] at attempt
              apply (survives t one).unsuppressed j today k
              · rw [attempt, Function.update_of_ne (inv.apart refused).symm, refused]
              · rw [attempt, Function.update_self]
          | _ => trivial
      | page symbols more => trivial
  | _ => trivial

/-- In every run, with complete scans, the marker of a failed reset turns no
attempt away, and after a window in which some attempt passed the reset has been
performed, just when no SET NX finds the marker of a reset that fails. -/
theorem survives_iff (zone : ZoneInfo) (now : ℤ) (actions : List ClusterStep)
    (complete : Along (step zone) ScanComplete actions (fresh now)) :
    Along (step zone) (fun s action => ∀ next, s.step zone action = some next → next.Survives) actions (fresh now) ↔
      Along (step zone) Unsuppressed actions (fresh now) := by
  have both : Along (step zone)
        (fun s action => s.ScanComplete action ∧ ∀ next, s.step zone action = some next → next.Survives) actions
        (fresh now) ↔
      Along (step zone) (fun s action => s.ScanComplete action ∧ s.Unsuppressed action) actions (fresh now) := by
    apply along_congr Inv (fun inv permitted one => inv.step permitted.1 permitted.2 one) _ (inv_fresh now)
    intro s action inv
    constructor
    · exact fun ⟨scans, survives⟩ => ⟨scans, unsuppressed_of_survives inv survives⟩
    · exact fun ⟨scans, unsuppressed⟩ => ⟨scans, fun next one => (inv.step scans unsuppressed one).survives⟩
  constructor
  · intro survives
    have permitted := both.mp (complete.and survives)
    exact permitted.mono (fun _ => True) (fun _ _ _ => trivial) (fun _ allowed => allowed.2) trivial
  · intro unsuppressed
    have permitted := both.mpr (complete.and unsuppressed)
    exact permitted.mono (fun _ => True) (fun _ _ _ => trivial) (fun _ allowed => allowed.2) trivial

def claimOf (k : Nat) : List ClusterStep :=
  [.start (Processor.aggregate 100 0), .resume k (.reply .redis), .resume k (.reply .redis), .resume k (.reply .redis)]

/-- The scan of the first call fails, and the SET NX of the second is executed an hour later. -/
def lateClaim : List ClusterStep :=
  claimOf 0 ++
    [.start (Processor.aggregate 100 0), .resume 1 (.reply .redis), .resume 1 (.reply .redis), .resume 0 (.reply .raised),
      .advance 3600, .resume 1 (.reply .redis), .resume 1 (.page [] false), .resume 1 (.reply .redis)]

theorem survives_iff_lateClaim :
    Along (step (eastern fun _ => false))
      (fun s action => ∀ next, s.step (eastern fun _ => false) action = some next → next.Survives) lateClaim
      (fresh 1700058600) := by
  apply (survives_iff _ _ _ ?_).mpr
  · refine .cons trivial rfl <| .cons ?_ rfl <| .cons ?_ rfl <| .cons ?_ rfl <| .cons trivial rfl <| .cons ?_ rfl <|
      .cons ?_ rfl <| .cons ?_ rfl <| .cons trivial rfl <| .cons ?_ rfl <| .cons trivial rfl <| .cons ?_ rfl trivial
    · rintro _ _ _ ⟨⟩
    · rintro _ _ _ ⟨⟩
    · rintro _ _ _ ⟨⟩ ⟨⟩
    · rintro _ _ _ ⟨⟩
    · rintro _ _ _ ⟨⟩
    · intro event call today here resets j refused
      by_cases first : j = 0
      · subst first
        cases refused
      · have none : (none : Option Attempt) = some (.refused today 0) := (Function.update_of_ne first ..).symm.trans refused
        cases none
    · rintro _ _ _ ⟨⟩ ⟨⟩
    · rintro _ _ _ ⟨⟩
  · refine .cons trivial rfl <| .cons trivial rfl <| .cons trivial rfl <| .cons trivial rfl <| .cons trivial rfl <|
      .cons trivial rfl <| .cons trivial rfl <| .cons trivial rfl <| .cons trivial rfl <| .cons trivial rfl <|
      .cons ?_ rfl <| .cons trivial rfl trivial
    rintro event today found ⟨⟩ symbol member
    cases member

/-- The scan of the first call fails; the second call comes ten seconds later. -/
def failedScan : List ClusterStep := claimOf 0 ++ .resume 0 (.reply .raised) :: .advance 10 :: claimOf 1

theorem suppressed_failedScan :
    ∃ s, exec (step (eastern fun _ => false)) failedScan (fresh 1700058600) = some s ∧
      (s.attempt 0 = some (.failed 19676)) ∧ s.Passed 1 19676 ∧ s.Quiet 19676 ∧ ¬∃ k, s.Performed k 19676 := by
  have ran : ∃ s, exec (step (eastern fun _ => false)) failedScan (fresh 1700058600) = some s ∧ s.cluster.started = 2 ∧
      s.attempt 0 = some (.failed 19676) ∧ s.attempt 1 = some (.refused 19676 0) ∧
      (∃ event, s.cluster.call 0 = some (event, .task .failed)) ∧
      ∃ event, s.cluster.call 1 = some (event, .task .snapshot) :=
    ⟨_, rfl, rfl, rfl, rfl, ⟨_, rfl⟩, ⟨_, rfl⟩⟩
  obtain ⟨s, ran, started, failed, refused, ⟨_, first⟩, ⟨_, second⟩⟩ := ran
  have idle : s.Idle := exec_invariant Idle (fun idle one => idle.step one) (idle_fresh _) ran
  refine ⟨s, ran, failed, .inl ⟨0, refused⟩, ?_, ?_⟩
  · intro k event call here
    match k with
    | 0 => cases first.symm.trans here; nofun
    | 1 => cases second.symm.trans here; nofun
    | k + 2 => exact nomatch here.symm.trans (idle (k + 2) (by omega)).1
  · rintro ⟨k, before, after, here, -⟩
    match k with
    | 0 => cases failed.symm.trans here
    | 1 => cases refused.symm.trans here
    | k + 2 => exact nomatch here.symm.trans (idle (k + 2) (by omega)).2

end Marked

end KuhlHausMdp.LeaderboardAnalyzer
