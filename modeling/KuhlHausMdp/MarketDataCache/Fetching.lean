import KuhlHausMdp.Library.Value
import KuhlHausMdp.Enum

/-! What each `MarketDataCache` fetch asks the REST client and what it writes.
A fetch is a script of calls, so that everything else can happen between them. -/

set_option autoImplicit false

namespace KuhlHausMdp.MarketDataCache

/-- Calls of the REST client. `listAggs` asks for daily bars, newest first, from
`days` days back until today. -/
inductive Request where
  | getSnapshotTicker (marketType ticker : String)
  | listFinancialsRatios (ticker : String)
  | listAggs (ticker : String) (multiplier : Nat) (timespan : String) (days : Nat) (adjusted : Bool) (sort : String)
  | listStocksFloats (ticker : String)

/-- `store` writes the data with its lifetime and returns the result; `error`
is an exception of the program itself. -/
inductive Fetch (R V : Type*) where
  | call (request : Request) (next : R → Fetch R V)
  | store (data : Value) (cacheTtl : Nat) (result : V)
  | error

/-! The REST client hands out records; of the records of a list the code reads
one attribute each, and the list of these is the response. -/

def totalVolume (volumes : List Value) : Option ℚ :=
  volumes.foldlM (fun total volume => volume.number?.map (total + ·)) 0

def maxPeriods : Nat := 30

/-- A falsy average is replaced by 0 and kept for the shorter time. -/
def storeAvgVolume (avgVolume : Value) (cacheTtl : Nat) : Fetch (List Value) Value :=
  if avgVolume.truthy then .store avgVolume cacheTtl avgVolume
  else .store (.num 0) MarketDataCacheTTL.NEGATIVE_CACHE_SESSION (.num 0)

def avgVolumeOfAggs (aggs : List Value) : Fetch (List Value) Value :=
  let periods := aggs.take maxPeriods
  match totalVolume periods with
  | none => .error
  | some total =>
      if periods.length = 0 then storeAvgVolume (.num 0) MarketDataCacheTTL.NEGATIVE_CACHE_SESSION
      else storeAvgVolume (.num (total / periods.length)) MarketDataCacheTTL.TICKER_AVG_VOLUME

def fetchAvgVolume (ticker : String) : Fetch (List Value) Value :=
  .call (.listFinancialsRatios ticker) fun
    -- a single ratio is taken, anything else falls back on the daily bars
    | [averageVolume] => storeAvgVolume averageVolume MarketDataCacheTTL.TICKER_AVG_VOLUME
    | _ => .call (.listAggs ticker 1 "day" 42 true "desc") avgVolumeOfAggs

/-- Unlike an average volume, the first float is stored as it comes. -/
def fetchFreeFloat (ticker : String) : Fetch (List Value) Value :=
  .call (.listStocksFloats ticker) fun
    | freeFloat :: _ => .store freeFloat MarketDataCacheTTL.TICKER_FREE_FLOAT freeFloat
    | [] => .store (.num 0) MarketDataCacheTTL.NEGATIVE_CACHE_SESSION (.num 0)

/-! Snapshots. -/

structure Bar where
  («open» high low close volume vwap timestamp transactions otc : Value)

structure MinuteBar extends Bar where
  accumulatedVolume : Value

structure LastQuote where
  (ticker trfTimestamp sequenceNumber sipTimestamp participantTimestamp : Value)
  (askPrice askSize askExchange conditions indicators bidPrice bidSize bidExchange tape : Value)

structure LastTrade where
  (ticker trfTimestamp sequenceNumber sipTimestamp participantTimestamp : Value)
  (conditions correction id price trfId size exchange tape : Value)

structure TickerSnapshot where
  (ticker todaysChange todaysChangePercent updated : Value)
  day : Option Bar
  lastQuote : Option LastQuote
  lastTrade : Option LastTrade
  min : Option MinuteBar
  prevDay : Option Bar
  fairMarketValue : Value

def Bar.toDict (bar : Bar) : Value := .dict
  [("o", bar.open), ("h", bar.high), ("l", bar.low), ("c", bar.close), ("v", bar.volume), ("vw", bar.vwap),
   ("t", bar.timestamp), ("n", bar.transactions), ("otc", bar.otc)]

def MinuteBar.toDict (bar : MinuteBar) : Value := .dict
  [("av", bar.accumulatedVolume), ("o", bar.open), ("h", bar.high), ("l", bar.low), ("c", bar.close),
   ("v", bar.volume), ("vw", bar.vwap), ("otc", bar.otc), ("t", bar.timestamp), ("n", bar.transactions)]

def LastQuote.toDict (quote : LastQuote) : Value := .dict
  [("T", quote.ticker), ("f", quote.trfTimestamp), ("q", quote.sequenceNumber), ("t", quote.sipTimestamp),
   ("y", quote.participantTimestamp), ("P", quote.askPrice), ("S", quote.askSize), ("X", quote.askExchange),
   ("c", quote.conditions), ("i", quote.indicators), ("p", quote.bidPrice), ("s", quote.bidSize),
   ("x", quote.bidExchange), ("z", quote.tape)]

def LastTrade.toDict (trade : LastTrade) : Value := .dict
  [("T", trade.ticker), ("f", trade.trfTimestamp), ("q", trade.sequenceNumber), ("t", trade.sipTimestamp),
   ("y", trade.participantTimestamp), ("c", trade.conditions), ("e", trade.correction), ("i", trade.id),
   ("p", trade.price), ("r", trade.trfId), ("s", trade.size), ("x", trade.exchange), ("z", trade.tape)]

/-- A part that is `None` gets no key. -/
def part {P : Type*} (key : String) (toDict : P → Value) : Option P → List (String × Value)
  | none => []
  | some p => [(key, toDict p)]

def fairMarketValuePart : Value → List (String × Value)
  | .none => []
  | value => [("fmv", value)]

def tickerSnapshotToDict (snapshot : TickerSnapshot) : Value := .dict
  (("ticker", snapshot.ticker) :: ("todaysChange", snapshot.todaysChange) ::
   ("todaysChangePerc", snapshot.todaysChangePercent) :: ("updated", snapshot.updated) ::
   (part "day" Bar.toDict snapshot.day ++ part "lastQuote" LastQuote.toDict snapshot.lastQuote ++
    part "lastTrade" LastTrade.toDict snapshot.lastTrade ++ part "min" MinuteBar.toDict snapshot.min ++
    part "prevDay" Bar.toDict snapshot.prevDay ++ fairMarketValuePart snapshot.fairMarketValue))

theorem truthy_tickerSnapshotToDict (snapshot : TickerSnapshot) :
    (tickerSnapshotToDict snapshot).truthy = true := rfl

def fetchSnapshot (ticker : String) : Fetch TickerSnapshot TickerSnapshot :=
  .call (.getSnapshotTicker "stocks" ticker) fun snapshot =>
    .store (tickerSnapshotToDict snapshot) MarketDataCacheTTL.TICKER_SNAPSHOTS snapshot

/-! One getter of the cache: its keys, its fetch, and what it makes of a cached value. -/

structure Metric (R V : Type*) where
  cachePrefix : String
  lockPrefix : String
  fetch : String → Fetch R V
  decode : Value → V

def avgVolume : Metric (List Value) Value where
  cachePrefix := MarketDataCacheKeys.TICKER_AVG_VOLUME
  lockPrefix := MarketDataCacheKeys.TICKER_AVG_VOLUME_LOCK
  fetch := fetchAvgVolume
  decode := id

def freeFloat : Metric (List Value) Value where
  cachePrefix := MarketDataCacheKeys.TICKER_FREE_FLOAT
  lockPrefix := MarketDataCacheKeys.TICKER_FREE_FLOAT_LOCK
  fetch := fetchFreeFloat
  decode := id

/-- `fromDict` is the REST library's constructor. -/
def tickerSnapshot (fromDict : Value → TickerSnapshot) : Metric TickerSnapshot TickerSnapshot where
  cachePrefix := MarketDataCacheKeys.TICKER_SNAPSHOTS
  lockPrefix := MarketDataCacheKeys.TICKER_SNAPSHOT_LOCK
  fetch := fetchSnapshot
  decode := fromDict

def redisKey (namePrefix ticker : String) : String := namePrefix ++ ":" ++ ticker

def redisPrefixes : List String :=
  [MarketDataCacheKeys.TICKER_SNAPSHOTS, MarketDataCacheKeys.TICKER_AVG_VOLUME,
   MarketDataCacheKeys.TICKER_FREE_FLOAT, MarketDataCacheKeys.TICKER_SNAPSHOT_LOCK,
   MarketDataCacheKeys.TICKER_AVG_VOLUME_LOCK, MarketDataCacheKeys.TICKER_FREE_FLOAT_LOCK]

theorem redisPrefixes_apart : ∀ first ∈ redisPrefixes, ∀ second ∈ redisPrefixes,
    first.toList.take 10 = second.toList.take 10 → first = second := by decide

theorem take_redisKey {name ticker : String} (known : name ∈ redisPrefixes) :
    (redisKey name ticker).toList.take 10 = name.toList.take 10 := by
  have long : ∀ name ∈ redisPrefixes, 10 ≤ name.toList.length := by decide
  simp only [redisKey, String.toList_append, List.append_assoc]
  exact List.take_append_of_le_length (long name known)

theorem redisKey_apart {first second ticker other : String} (known : first ∈ redisPrefixes)
    (also : second ∈ redisPrefixes) (same : redisKey first ticker = redisKey second other) :
    first = second ∧ ticker = other := by
  have heads : first = second := by
    apply redisPrefixes_apart first known second also
    rw [← take_redisKey known, ← take_redisKey also, same]
  subst heads
  have chars := congrArg String.toList same
  simp only [redisKey, String.toList_append, List.append_assoc] at chars
  exact ⟨rfl, String.toList_injective (List.append_cancel_left (List.append_cancel_left chars))⟩

end KuhlHausMdp.MarketDataCache
