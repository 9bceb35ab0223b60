import Mathlib
import KuhlHausMdp.Library.Redis
import KuhlHausMdp.Library.Value

/-! `TopTradesAnalyzer`: the recent trades of a symbol in a Redis list, and the
statistics computed from it. The three commands of a store are one
transaction, so a run of any number of instances is a sequence of stores. -/

set_option autoImplicit false

namespace KuhlHausMdp.TopTradesAnalyzer

/-- `"tta:{symbol}:recent"`. -/
def tradesRecent (symbol : String) : String := "tta:" ++ symbol ++ ":recent"

def TRADE_TTL : Int := 300
def MAX_TRADES_PER_SYMBOL : Nat := 1000

theorem tradesRecent_inj {first second : String} : tradesRecent first = tradesRecent second ↔ first = second := by
  simp [tradesRecent]

/-- A trade event. A field that is `None` or missing has no number; where the
default of `trade.get` tells the two apart, a missing field has no value. -/
structure Trade where
  symbol : Option String
  eventType : Option Value
  exchange : Option Value
  id : Option Value
  tape : Option Value
  price : Value
  size : Option Int
  conditions : Option Value
  timestamp : Option Int
  sequenceNumber : Value
  trfId : Value
  trfTimestamp : Value

/-- The dictionary that `_store_trade` serializes. -/
def tradeData (trade : Trade) : Value := .dict [
  ("event_type", trade.eventType.getD (.str "")),
  ("symbol", (trade.symbol.map Value.str).getD (.str "")),
  ("exchange", trade.exchange.getD (.str "")),
  ("id", trade.id.getD (.str "")),
  ("tape", trade.tape.getD (.str "")),
  ("price", trade.price.orElse (.num 0)),
  ("size", .num (trade.size.getD 0)),
  ("conditions", trade.conditions.getD (.list [])),
  ("timestamp", .num (trade.timestamp.getD 0)),
  ("sequence_number", trade.sequenceNumber.orElse (.num 0)),
  ("trf_id", trade.trfId.orElse (.num 0)),
  ("trf_timestamp", trade.trfTimestamp.orElse (.num 0))]

structure SymbolStats where
  totalVolume : Int
  tradeCount : Nat
  avgSize : ℚ
  maxSize : Int
  timeSpanMs : Int
  latestPrice : Value
  latestTimestamp : Value
  latestExchange : Value

/-- `int(q)`. -/
def truncate (q : ℚ) : Int := q.num.tdiv q.den

theorem truncate_intCast (z : Int) : truncate z = z := by
  simp [truncate]

/-- `max(values, default=0)`. -/
def maxOr0 {α : Type*} [Max α] [Zero α] (values : List α) : α := values.max?.getD 0

/-- `max(values) - min(values)`, or 0 of nothing. -/
def spread {α : Type*} [Max α] [Min α] [Zero α] [Sub α] (values : List α) : α :=
  match values.max?, values.min? with
  | some most, some least => most - least
  | _, _ => 0

variable {Text : Type*} (json : Json Text)

def storeTrade (db : Redis.Database Text) (trade : Trade) : Redis.Database Text :=
  match trade.symbol with
  | none => db
  | some symbol =>
      if symbol = "" then db
      else
        let tradeKey := tradesRecent symbol
        ((db.run (.lpush tradeKey (json.dumps (tradeData trade)))).run
          (.ltrim tradeKey 0 (MAX_TRADES_PER_SYMBOL - 1))).run (.expire tradeKey TRADE_TTL)

/-- The term `t.get("size") or 0` as an operand. -/
def size? (trade : Value) : Option ℚ := ((trade.lookup "size").orElse (.num 0)).number?

/-- `_calculate_symbol_stats`, without an answer when an operand is no number;
the inner option is Python's `None`. `average` is the rounded quotient of a
volume and a count, computed in floating point. -/
def calculateSymbolStats (average : ℚ → Nat → ℚ) (db : Redis.Database Text) (symbol : String) :
    Option (Option SymbolStats) :=
  let tradeList := Redis.range 0 (-1) (db.listAt (tradesRecent symbol))
  match tradeList.filterMap json.loads with
  | [] => some none
  | latestTrade :: older => do
      let trades := latestTrade :: older
      let sizes ← trades.mapM size?
      let timestamps ← ((trades.map (·.lookup "timestamp")).filter (·.truthy)).mapM Value.number?
      return some {
        totalVolume := truncate sizes.sum
        tradeCount := trades.length
        avgSize := average sizes.sum trades.length
        maxSize := truncate (maxOr0 sizes)
        timeSpanMs := truncate (spread timestamps)
        latestPrice := latestTrade.lookup "price"
        latestTimestamp := latestTrade.lookup "timestamp"
        latestExchange := latestTrade.lookup "exchange" }

/-- What the statistics of a window of trades, newest first, are meant to be. -/
def aggregate (average : ℚ → Nat → ℚ) : List Trade → Option SymbolStats
  | [] => none
  | latest :: older =>
      let sizes := (latest :: older).map fun trade => trade.size.getD 0
      let timestamps := ((latest :: older).map fun trade => trade.timestamp.getD 0).filter (· ≠ 0)
      some {
        totalVolume := sizes.sum
        tradeCount := sizes.length
        avgSize := average sizes.sum sizes.length
        maxSize := maxOr0 sizes
        timeSpanMs := spread timestamps
        latestPrice := latest.price.orElse (.num 0)
        latestTimestamp := .num (latest.timestamp.getD 0)
        latestExchange := latest.exchange.getD (.str "") }

def Trade.Of (symbol : String) (trade : Trade) : Prop := symbol ≠ "" ∧ trade.symbol = some symbol

instance (symbol : String) (trade : Trade) : Decidable (trade.Of symbol) := inferInstanceAs (Decidable (_ ∧ _))

/-- The last trades of a symbol among those stored, newest first. -/
def window (symbol : String) (trades : List Trade) : List Trade :=
  (trades.filter (·.Of symbol)).reverse.take MAX_TRADES_PER_SYMBOL

/-! What a store does to the lists. -/

theorem window_append (symbol : String) (trades : List Trade) (trade : Trade) :
    window symbol (trades ++ [trade]) =
      if trade.Of symbol then (trade :: window symbol trades).take MAX_TRADES_PER_SYMBOL else window symbol trades := by
  unfold window
  by_cases own : trade.Of symbol
  · simp only [List.filter_append, List.filter_cons, own, decide_true, if_true, List.filter_nil, List.reverse_append,
      List.reverse_singleton, List.singleton_append, MAX_TRADES_PER_SYMBOL, List.take_succ_cons, List.take_take]
    rfl
  · simp [List.filter_append, own]

/-- The database after the stores: under each symbol the window of its trades. -/
def Stored (db : Redis.Database Text) (trades : List Trade) : Prop :=
  ∀ symbol, db.Lists (tradesRecent symbol) ∧
    db.listAt (tradesRecent symbol) = (window symbol trades).map fun trade => json.dumps (tradeData trade)

theorem stored_empty : Stored json Redis.Database.empty [] :=
  fun _ => ⟨fun _ => nofun, rfl⟩

theorem listAt_transaction {db : Redis.Database Text} {key : String} (lists : db.Lists key) (item : Text) :
    let after := ((db.run (.lpush key item)).run (.ltrim key 0 (MAX_TRADES_PER_SYMBOL - 1))).run (.expire key TRADE_TTL)
    after.Lists key ∧ after.listAt key = (item :: db.listAt key).take MAX_TRADES_PER_SYMBOL := by
  intro after
  have entries : after.entries = _ := Redis.Database.entries_expire _ key (by decide)
  have pushed : (db.run (.lpush key item)).Lists key ∧ (db.run (.lpush key item)).listAt key = item :: db.listAt key := by
    rw [Redis.Database.run_lpush lists]
    exact ⟨db.lists_setList key _, db.listAt_setList key _⟩
  constructor
  · intro value
    rw [entries]
    exact Redis.Database.lists_ltrim pushed.1 _ _ value
  · rw [Redis.Database.listAt_congr (congrFun entries key), Redis.Database.listAt_ltrim, pushed.2,
      Redis.range_zero (by decide)]
    rfl

theorem entries_storeTrade_of_not (db : Redis.Database Text) {trade : Trade} {symbol : String}
    (other : ¬trade.Of symbol) :
    (storeTrade json db trade).entries (tradesRecent symbol) = db.entries (tradesRecent symbol) := by
  unfold storeTrade
  split
  · rfl
  · rename_i own named
    split
    · rfl
    · rename_i proper
      have apart : some (tradesRecent own) ≠ some (tradesRecent symbol) := by
        intro same
        cases tradesRecent_inj.mp (Option.some.inj same)
        exact other ⟨proper, named⟩
      refine (Redis.Database.entries_run_of_ne _ ?_).trans
        ((Redis.Database.entries_run_of_ne _ ?_).trans (Redis.Database.entries_run_of_ne _ ?_))
      all_goals exact apart

theorem Stored.append {db : Redis.Database Text} {trades : List Trade} (stored : Stored json db trades)
    (trade : Trade) : Stored json (storeTrade json db trade) (trades ++ [trade]) := by
  intro symbol
  obtain ⟨lists, items⟩ := stored symbol
  rw [window_append]
  by_cases own : trade.Of symbol
  · have transaction := listAt_transaction lists (json.dumps (tradeData trade))
    rw [if_pos own, List.map_take, List.map_cons, ← items]
    simpa only [storeTrade, own.2, if_neg own.1] using transaction
  · have entries := entries_storeTrade_of_not json db own
    rw [if_neg own, Redis.Database.listAt_congr entries]
    exact ⟨fun value => entries ▸ lists value, items⟩

theorem stored_foldl {db : Redis.Database Text} {before : List Trade} (stored : Stored json db before)
    (trades : List Trade) : Stored json (trades.foldl (storeTrade json) db) (before ++ trades) := by
  induction trades generalizing db before with
  | nil => rwa [List.append_nil]
  | cons trade rest ih =>
      rw [List.foldl_cons, List.append_cons]
      exact ih (stored.append json trade)

/-! What the statistics read back from the serialized trades. -/

theorem filterMap_loads (trades : List Trade) :
    (trades.map fun trade => json.dumps (tradeData trade)).filterMap json.loads = trades.map tradeData := by
  induction trades with
  | nil => rfl
  | cons trade rest ih => rw [List.map_cons, List.filterMap_cons_some (json.loads_dumps _), ih, List.map_cons]

theorem size?_tradeData (trade : Trade) : size? (tradeData trade) = some ((trade.size.getD 0 : Int) : ℚ) := by
  by_cases zero : trade.size.getD 0 = 0
  · simp [size?, tradeData, Value.lookup, List.lookup, Value.orElse, Value.truthy, Value.number?, zero]
  · simp [size?, tradeData, Value.lookup, List.lookup, Value.orElse, Value.truthy, Value.number?, zero]

theorem mapM_size? (trades : List Trade) :
    (trades.map tradeData).mapM size? = some ((trades.map fun trade => trade.size.getD 0).map Int.cast) := by
  induction trades with
  | nil => rfl
  | cons trade rest ih => simp only [List.map_cons, List.mapM_cons, size?_tradeData, ih]; rfl

theorem mapM_timestamps (trades : List Trade) :
    (((trades.map tradeData).map (·.lookup "timestamp")).filter (·.truthy)).mapM Value.number? =
      some (((trades.map fun trade => trade.timestamp.getD 0).filter (· ≠ 0)).map Int.cast) := by
  induction trades with
  | nil => rfl
  | cons trade rest ih =>
      have read : (tradeData trade).lookup "timestamp" = .num (trade.timestamp.getD 0 : Int) := rfl
      by_cases zero : trade.timestamp.getD 0 = 0
      · simp only [List.map_cons, read, zero]
        exact ih
      · simp only [List.map_cons, read]
        rw [List.filter_cons_of_pos (by simp [Value.truthy, zero]), List.filter_cons_of_pos (by simp [zero]),
          List.mapM_cons, ih]
        rfl

/-! Extremes of integers read as numbers. -/

theorem max?_map_cast (values : List Int) : (values.map (Int.cast : Int → ℚ)).max? = values.max?.map Int.cast := by
  cases values with
  | nil => rfl
  | cons first rest =>
      rw [List.map_cons, List.max?_cons', List.max?_cons', Option.map_some,
        List.foldl_map_hom fun x y => Int.cast_max.symm]

theorem min?_map_cast (values : List Int) : (values.map (Int.cast : Int → ℚ)).min? = values.min?.map Int.cast := by
  cases values with
  | nil => rfl
  | cons first rest =>
      rw [List.map_cons, List.min?_cons', List.min?_cons', Option.map_some,
        List.foldl_map_hom fun x y => Int.cast_min.symm]

theorem maxOr0_map_cast (values : List Int) : maxOr0 (values.map (Int.cast : Int → ℚ)) = (maxOr0 values : Int) := by
  rw [maxOr0, max?_map_cast, maxOr0]
  cases values.max? <;> simp

theorem spread_map_cast (values : List Int) : spread (values.map (Int.cast : Int → ℚ)) = (spread values : Int) := by
  rw [spread, max?_map_cast, min?_map_cast, spread]
  cases values.max? <;> cases values.min? <;> simp

theorem sum_map_cast (values : List Int) : (values.map (Int.cast : Int → ℚ)).sum = (values.sum : Int) := by
  induction values with
  | nil => rfl
  | cons first rest ih => rw [List.map_cons, List.sum_cons, List.sum_cons, ih, Int.cast_add]

theorem calculateSymbolStats_of_listAt (average : ℚ → Nat → ℚ) {db : Redis.Database Text} {symbol : String}
    {trades : List Trade}
    (stored : db.listAt (tradesRecent symbol) = trades.map fun trade => json.dumps (tradeData trade)) :
    calculateSymbolStats json average db symbol = some (aggregate average trades) := by
  cases trades with
  | nil => simp [calculateSymbolStats, stored, Redis.range_all, aggregate]
  | cons latest older =>
      have texts : (Redis.range 0 (-1) (db.listAt (tradesRecent symbol))).filterMap json.loads =
          tradeData latest :: older.map tradeData := by
        rw [Redis.range_all, stored, filterMap_loads, List.map_cons]
      have sizes := mapM_size? (latest :: older)
      have timestamps := mapM_timestamps (latest :: older)
      rw [List.map_cons] at sizes timestamps
      have length : (tradeData latest :: older.map tradeData).length =
          ((latest :: older).map fun trade => trade.size.getD 0).length := by
        simp
      simp only [calculateSymbolStats, texts, sizes, timestamps, Option.bind_eq_bind, Option.bind_some]
      simp only [sum_map_cast, maxOr0_map_cast, spread_map_cast, truncate_intCast, length]
      rfl

/-- After any stores by any instances the statistics of a symbol are the
aggregate of the last trades of that symbol, at most a thousand of them; there
are none before its first trade. -/
theorem calculateSymbolStats_storeTrade (average : ℚ → Nat → ℚ) (trades : List Trade) (symbol : String) :
    calculateSymbolStats json average (trades.foldl (storeTrade json) .empty) symbol =
      some (aggregate average (window symbol trades)) :=
  calculateSymbolStats_of_listAt json average (stored_foldl json (stored_empty json) trades symbol).2

example : (aggregate (fun _ _ => 0) (window "AAPL" [
    ⟨some "AAPL", none, none, none, none, .num 10, some 5, none, some 1000, .none, .none, .none⟩,
    ⟨some "MSFT", none, none, none, none, .num 20, some 9, none, some 1001, .none, .none, .none⟩,
    ⟨some "AAPL", none, none, none, none, .none, none, none, some 1007, .none, .none, .none⟩])).map
      (fun stats => (stats.totalVolume, stats.tradeCount, stats.maxSize, stats.timeSpanMs)) = some (5, 2, 5, 7) := by
  decide

end KuhlHausMdp.TopTradesAnalyzer
