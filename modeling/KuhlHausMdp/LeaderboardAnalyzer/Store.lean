import Mathlib.Algebra.Order.Ring.Rat
import Mathlib.Data.String.Basic
import KuhlHausMdp.Library.Dict
import KuhlHausMdp.Library.SortedSet
import KuhlHausMdp.MarketDay
import KuhlHausMdp.MarketDataCache.Fetching

/-! What `LeaderboardAnalyzer` keeps in Redis, and what its transactions do to it. -/

set_option autoImplicit false

namespace KuhlHausMdp.LeaderboardAnalyzer

open MarketDataCache

inductive Board where
  | topVolume | topGappers | topGainers
  deriving DecidableEq

/-- `openPrice` and `data` hold the `symbol:…:open_price` and `symbol:…:data`
keys, `openReset` the days whose market open has been claimed. -/
structure Store where
  marketDay : Option ℤ
  board : Board → SortedSet ℚ String
  data : String → Dict String Value
  openPrice : String → Option Value
  openReset : ℤ → Bool

namespace Store

def fresh : Store where
  marketDay := none
  board _ := ∅
  data _ := ∅
  openPrice _ := none
  openReset _ := false

/-- The script of `_check_day_boundary`: the key is stored and the three boards
are deleted when another key was stored. -/
def checkDayBoundary (s : Store) (currentDay : ℤ) : Store :=
  let compared := compareDay s.marketDay currentDay
  { s with
    marketDay := compared.2
    board := if compared.1 then fun _ => ∅ else s.board }

end Store

/-! Arithmetic that raises on operands that are no numbers. -/

def sub (a b : Value) : Option Value := do
  let x ← a.number?
  let y ← b.number?
  return .num (x - y)

def div (a b : Value) : Option Value := do
  let x ← a.number?
  let y ← b.number?
  if y = 0 then none else return .num (x / y)

def percentage (part whole : Value) : Option Value := do
  let ratio ← div (← sub part whole) whole
  return .num ((← ratio.number?) * 100)

def orZero (condition : Value) (value : Option Value) : Option Value :=
  if condition.truthy then value else some (.num 0)

def relativeVolumeOf (accumulatedVolume avgVolume : Value) : Option Value := do
  let average ← avgVolume.number?
  if average > 0 then div accumulatedVolume avgVolume else some (.num 0)

/-- What the client can send: numbers and text. -/
def encodable : Value → Bool
  | .num _ | .str _ => true
  | _ => false

def scoreOf : Value → Option ℚ
  | .num q => some q
  | _ => none

/-- `event.get(key, default)`: a key that is there keeps its value, None included. -/
def readOr (event : Dict String Value) (key : String) (default : Value) : Value := (event.get key).getD default

/-- `event.get(key) or 0`. -/
def readOrZero (event : Dict String Value) (key : String) : Value := (readOr event key .none).orElse (.num 0)

structure Commit where
  symbol : String
  accumulatedVolume : ℚ
  pctChange : ℚ
  pctChangeSinceOpen : ℚ
  mapping : Dict String Value

def Commit.score (commit : Commit) : Board → ℚ
  | .topVolume => commit.accumulatedVolume
  | .topGappers => commit.pctChange
  | .topGainers => commit.pctChangeSinceOpen

def pipeline (symbol : String) (accumulatedVolume pctChange pctChangeSinceOpen : Value)
    (mapping : Dict String Value) : Option Commit :=
  if mapping.entries.all fun entry => encodable entry.2 then do
    let volume ← scoreOf accumulatedVolume
    let gap ← scoreOf pctChange
    let gain ← scoreOf pctChangeSinceOpen
    return ⟨symbol, volume, gap, gain, mapping⟩
  else none

theorem pipeline_eq_some {symbol : String} {accumulatedVolume pctChange pctChangeSinceOpen : Value}
    {mapping : Dict String Value} {commit : Commit}
    (sent : pipeline symbol accumulatedVolume pctChange pctChangeSinceOpen mapping = some commit) :
    (mapping.entries.all fun entry => encodable entry.2) = true ∧ ∃ volume gap gain,
      scoreOf accumulatedVolume = some volume ∧ scoreOf pctChange = some gap ∧ scoreOf pctChangeSinceOpen = some gain ∧
        commit = ⟨symbol, volume, gap, gain, mapping⟩ := by
  unfold pipeline at sent
  split at sent
  case isFalse => cases sent
  case isTrue encoded =>
    simp only [Option.bind_eq_bind, Option.bind_eq_some_iff] at sent
    obtain ⟨volume, isVolume, gap, isGap, gain, isGain, same⟩ := sent
    cases same
    exact ⟨encoded, volume, gap, gain, isVolume, isGap, isGain, rfl⟩

def mappingKeys : List String :=
  ["symbol", "volume", "free_float", "accumulated_volume", "relative_volume", "official_open_price", "vwap", "open",
   "close", "high", "low", "aggregate_vwap", "average_size", "avg_volume", "prev_day_close", "prev_day_open",
   "prev_day_high", "prev_day_low", "prev_day_volume", "prev_day_vwap", "change", "pct_change", "change_since_open",
   "pct_change_since_open", "start_timestamp", "end_timestamp"]

theorem nodup_mappingKeys : mappingKeys.Nodup := by decide

/-- The metrics of an event; `none` where the computation, or sending the
pipeline, raises. -/
def metrics (symbol : String) (event : Dict String Value) (snapshot : TickerSnapshot)
    (avgVolume freeFloat openPrice : Value) : Option Commit := do
  let accumulatedVolume := readOr event "accumulated_volume" (.num 0)
  let close := readOr event "close" (.num 0)
  let volume := readOr event "volume" (.num 0)
  let vwap := readOr event "vwap" (.num 0)
  let prevDay := fun (field : Bar → Value) (default : Value) => (snapshot.prevDay.map field).getD default
  let prevDayClose := prevDay Bar.close close
  let change ← orZero prevDayClose (sub close prevDayClose)
  let pctChange ← orZero prevDayClose (percentage close prevDayClose)
  let relativeVolume ← relativeVolumeOf accumulatedVolume avgVolume
  let changeSinceOpen ← orZero openPrice (sub close openPrice)
  let pctChangeSinceOpen ← orZero openPrice (percentage close openPrice)
  let mapping : Dict String Value :=
    { entries :=
        [("symbol", .str symbol), ("volume", volume), ("free_float", freeFloat.orElse (.num 0)),
         ("accumulated_volume", accumulatedVolume), ("relative_volume", relativeVolume),
         ("official_open_price", readOrZero event "official_open_price"), ("vwap", vwap), ("open", openPrice),
         ("close", close), ("high", readOrZero event "high"), ("low", readOrZero event "low"),
         ("aggregate_vwap", readOrZero event "aggregate_vwap"), ("average_size", readOrZero event "average_size"),
         ("avg_volume", avgVolume.orElse (.num 0)), ("prev_day_close", prevDayClose),
         ("prev_day_open", prevDay Bar.open (.num 0)), ("prev_day_high", prevDay Bar.high (.num 0)),
         ("prev_day_low", prevDay Bar.low (.num 0)), ("prev_day_volume", prevDay Bar.volume volume),
         ("prev_day_vwap", prevDay Bar.vwap vwap), ("change", change), ("pct_change", pctChange),
         ("change_since_open", changeSinceOpen), ("pct_change_since_open", pctChangeSinceOpen),
         ("start_timestamp", readOrZero event "start_timestamp"), ("end_timestamp", readOrZero event "end_timestamp")]
      unique := nodup_mappingKeys }
  pipeline symbol accumulatedVolume pctChange pctChangeSinceOpen mapping

theorem metrics_cases {symbol : String} {event : Dict String Value} {snapshot : TickerSnapshot}
    {avgVolume freeFloat openPrice : Value} {commit : Commit}
    (computed : metrics symbol event snapshot avgVolume freeFloat openPrice = some commit) :
    ∃ gap gain, commit.symbol = symbol ∧ encodable openPrice = true ∧
      orZero ((snapshot.prevDay.map Bar.close).getD (readOr event "close" (.num 0)))
        (percentage (readOr event "close" (.num 0))
          ((snapshot.prevDay.map Bar.close).getD (readOr event "close" (.num 0)))) = some gap ∧
      orZero openPrice (percentage (readOr event "close" (.num 0)) openPrice) = some gain ∧
      scoreOf (readOr event "accumulated_volume" (.num 0)) = some commit.accumulatedVolume ∧
      scoreOf gap = some commit.pctChange ∧ scoreOf gain = some commit.pctChangeSinceOpen := by
  simp only [metrics, Option.bind_eq_bind, Option.bind_eq_some_iff] at computed
  obtain ⟨change, -, gap, isGap, relativeVolume, -, sinceOpen, -, gain, isGain, sent⟩ := computed
  obtain ⟨encoded, _, _, _, volumeScore, gapScore, gainScore, rfl⟩ := pipeline_eq_some sent
  have openSent : encodable openPrice = true := List.all_eq_true.mp encoded ("open", openPrice) (by simp)
  exact ⟨gap, gain, rfl, openSent, isGap, isGain, volumeScore, gapScore, gainScore⟩

theorem metrics_eq_some {symbol : String} {event : Dict String Value} {snapshot : TickerSnapshot}
    {avgVolume freeFloat openPrice : Value} {commit : Commit}
    (computed : metrics symbol event snapshot avgVolume freeFloat openPrice = some commit) :
    commit.symbol = symbol ∧ scoreOf (readOr event "accumulated_volume" (.num 0)) = some commit.accumulatedVolume := by
  obtain ⟨_, _, named, -, -, -, volume, -⟩ := metrics_cases computed
  exact ⟨named, volume⟩

def Store.commit (s : Store) (commit : Commit) : Store :=
  { s with
    board := fun board =>
      ((s.board board).zadd commit.symbol (commit.score board)).zremrangebyrank 0 (-501)
    data := Function.update s.data commit.symbol ((s.data commit.symbol).update commit.mapping.entries) }

/-- A pipeline leaves on each board the 500 greatest entries. -/
theorem Store.board_commit (s : Store) (commit : Commit) (board : Board) :
    ((s.commit commit).board board).toFinset =
      (insert (toLex (commit.score board, commit.symbol))
        ((s.board board).toFinset.filter fun entry => (ofLex entry).2 ≠ commit.symbol)).top 500 := by
  rw [← SortedSet.toFinset_zadd, ← SortedSet.toFinset_trim]
  rfl

/-- After a pipeline a board has the new score of its symbol, and of the others
only what it had. -/
theorem Store.mem_commit {s : Store} {commit : Commit} {board : Board} {score : ℚ} {symbol : String}
    (member : toLex (score, symbol) ∈ ((s.commit commit).board board).toFinset) :
    score = commit.score board ∧ symbol = commit.symbol ∨
      symbol ≠ commit.symbol ∧ toLex (score, symbol) ∈ (s.board board).toFinset := by
  rw [Store.board_commit] at member
  rcases Finset.mem_insert.mp (Finset.top_subset 500 _ member) with same | other
  · exact .inl (Prod.mk.inj (toLex.injective same))
  · exact .inr (Finset.mem_filter.mp other).symm

/-- The hash of the symbol is the mapping, and its score on each board is the
commit's; only 500 greater entries keep it off a board. -/
def Store.Shows (s : Store) (commit : Commit) : Prop :=
  (∀ entry ∈ commit.mapping.entries, (s.data commit.symbol).get entry.1 = some entry.2) ∧
    ∀ board, (∀ score, toLex (score, commit.symbol) ∈ (s.board board).toFinset → score = commit.score board) ∧
      (toLex (commit.score board, commit.symbol) ∈ (s.board board).toFinset ∨
        500 ≤ ((s.board board).toFinset.above (toLex (commit.score board, commit.symbol))).card)

theorem Store.shows_commit (s : Store) (commit : Commit) : (s.commit commit).Shows commit := by
  constructor
  · intro entry member
    simp only [Store.commit, Function.update_self]
    exact Dict.get_update_of_mem _ commit.mapping.unique member
  · intro board
    constructor
    · intro score member
      rcases Store.mem_commit member with ⟨same, -⟩ | ⟨apart, -⟩
      · exact same
      · exact absurd rfl apart
    · rw [Store.board_commit]
      exact Finset.mem_top_or_outranked (Finset.mem_insert_self _ _)

end KuhlHausMdp.LeaderboardAnalyzer
