import KuhlHausMdp.Library.Transition
import KuhlHausMdp.MarketDay
import KuhlHausMdp.DailyRangeAnalyzer.Extremes

/-! Analyzers that share the stored market day and nothing else. The one whose
tick changes the day clears its own dictionaries; the others keep theirs. -/

set_option autoImplicit false

namespace KuhlHausMdp.DailyRangeAnalyzer

open Transition

/-- `handled` is the day key of an analyzer's last tick, `origin` that of the
tick an entry was taken from. -/
structure Cluster (I : Type*) where
  now : ℤ
  stored : Option ℤ
  analyzer : I → DailyRangeAnalyzer
  handled : I → Option ℤ
  origin : I → Session → Direction → String → ℤ

inductive Move (I : Type*) where
  | advance (seconds : Nat)
  | tick (i : I) (tick : Tick)

namespace Cluster

variable {I : Type*}

def fresh (now : ℤ) (stored : Option ℤ) (draCacheListMax : Nat) : Cluster I where
  now := now
  stored := stored
  analyzer _ := DailyRangeAnalyzer.fresh draCacheListMax
  handled _ := none
  origin _ _ _ _ := 0

variable [DecidableEq I]

def handle (zone : ZoneInfo) (s : Cluster I) (i : I) (tick : Tick) : Cluster I :=
  let day := currentDayTs zone s.now
  let compared := compareDay s.stored day
  let before := (s.analyzer i).checkDayBoundary compared.1
  let after := (analyzeData (s.analyzer i) { tick with reset := some compared.1 }).2
  { s with
    stored := compared.2
    analyzer := Function.update s.analyzer i after
    handled := Function.update s.handled i (some day)
    -- an entry the tick did not change keeps its origin
    origin := Function.update s.origin i fun session direction symbol =>
      if (after.extremes session direction).get symbol = (before.extremes session direction).get symbol then
        s.origin i session direction symbol
      else day }

/-- A tick without a symbol does not reach the boundary check. -/
def step (zone : ZoneInfo) (s : Cluster I) : Move I → Option (Cluster I)
  | .advance seconds => some { s with now := s.now + seconds }
  | .tick i tick => some (if tick.quote.symbol.isSome then s.handle zone i tick else s)

omit [DecidableEq I] in
/-- No dictionary of an analyzer holds a value from before the day it last handled. -/
def Current (s : Cluster I) : Prop :=
  ∀ i day, s.handled i = some day → ∀ session direction symbol price,
    ((s.analyzer i).extremes session direction).get symbol = some price →
      day ≤ s.origin i session direction symbol

/-- An analyzer that finds the day already stored has handled a tick under it,
or has no values yet. -/
def Joins (zone : ZoneInfo) (s : Cluster I) (move : Move I) : Prop :=
  ∀ i tick, move = .tick i tick → tick.quote.symbol.isSome → s.stored = some (currentDayTs zone s.now) →
    s.handled i = some (currentDayTs zone s.now) ∨
      ∀ session direction symbol, ((s.analyzer i).extremes session direction).get symbol = none

theorem Current.handle {zone : ZoneInfo} {s : Cluster I} {i : I} {tick : Tick} (current : s.Current)
    (joins : s.Joins zone (.tick i tick)) (named : tick.quote.symbol.isSome) :
    (s.handle zone i tick).Current := by
  intro j day handled session direction symbol price present
  by_cases same : j = i
  · subst same
    simp only [Cluster.handle, Function.update_self, Option.some.injEq] at handled present ⊢
    subst handled
    split
    case isFalse => exact le_refl _
    case isTrue kept =>
      -- the value was there before, so the day was not reset
      rw [kept] at present
      have unchanged : (compareDay s.stored (currentDayTs zone s.now)).1 = false := by
        by_contra reset
        rw [Bool.not_eq_false] at reset
        simp [checkDayBoundary, reset] at present
      have stored : s.stored = some (currentDayTs zone s.now) := by
        by_contra other
        simp [compareDay_resets.mpr other] at unchanged
      rw [unchanged] at present
      rcases joins j tick rfl named stored with handled | empty
      · exact current j _ handled session direction symbol price present
      · exact absurd (present.symm.trans (empty session direction symbol)) (by simp)
  · simp only [Cluster.handle, Function.update_of_ne same] at handled present ⊢
    exact current j day handled session direction symbol price present

theorem Current.step {zone : ZoneInfo} {s t : Cluster I} {move : Move I} (current : s.Current)
    (joins : s.Joins zone move) (one : s.step zone move = some t) : t.Current := by
  cases move with
  | advance seconds => cases one; exact current
  | tick i tick =>
      cases one
      split
      case isTrue named => exact current.handle joins named
      case isFalse => exact current

/-- Where every analyzer resets a day itself or begins it without values, no
value outlives its day. -/
theorem current_of_joins (zone : ZoneInfo) (now : ℤ) (stored : Option ℤ) (draCacheListMax : Nat)
    (moves : List (Move I)) {final : Cluster I}
    (joins : Along (step zone) (Joins zone) moves (fresh now stored draCacheListMax))
    (run : exec (step zone) moves (fresh now stored draCacheListMax) = some final) : final.Current := by
  apply along_invariant Current (fun current joins one => current.step joins one) _ joins run
  intro i day handled
  cases handled

end Cluster

def twoDays : List (Move Bool) :=
  [.tick true regularTick, .tick false regularTick, .advance 86400, .tick true regularTick]

theorem current_of_joins_two :
    ∃ final, exec (Cluster.step newYork) twoDays (Cluster.fresh 1700000000 none 1000) = some final ∧
      final.Current := by
  refine ⟨_, rfl, Cluster.current_of_joins newYork 1700000000 none 1000 twoDays ?_ rfl⟩
  refine .cons ?_ rfl (.cons ?_ rfl (.cons ?_ rfl (.cons ?_ rfl trivial)))
  · intro i tick same named stored
    cases stored
  · intro i tick same named stored
    cases same
    exact .inr fun _ _ _ => rfl
  · intro i tick same
    cases same
  · intro i tick same named stored
    exact absurd stored (by decide)

def quietTick : Tick :=
  { regularTick with
    quote :=
      { data := ⟨[("symbol", .str "AAPL"), ("high", .num 166), ("low", .num 164), ("t", .num 1700000000000)], by decide⟩
        symbolText := fun _ => ⟨"AAPL", rfl⟩
        priced := fun direction => match direction with
          | .high => .inr ⟨166, rfl⟩
          | .low => .inr ⟨164, rfl⟩ } }

/-- The second analyzer finds the new day stored and keeps yesterday's high. -/
theorem yesterday_kept :
    ∃ (moves : List (Move Bool)) (final : Cluster Bool),
      exec (Cluster.step newYork) moves (Cluster.fresh 1700000000 none 1000) = some final ∧ ¬ final.Current := by
  refine ⟨[.tick true regularTick, .tick false regularTick, .advance 86400, .tick true quietTick,
    .tick false quietTick], _, rfl, fun current => ?_⟩
  have late := current false _ rfl .regular .high "AAPL" 170 (by decide +kernel)
  revert late
  decide +kernel

end KuhlHausMdp.DailyRangeAnalyzer
