import KuhlHausMdp.Enum
import KuhlHausMdp.FinlightDataAnalyzer.Analyzer
import KuhlHausMdp.Library.Glob
import KuhlHausMdp.RollingList
import KuhlHausMdp.WebSocketMessageSerde

/-! `MassiveDataAnalyzer`: raw messages of the provider are routed by their
`event_type` to cache keys of their symbols. A result of `none` is an exception. -/

set_option autoImplicit false

namespace KuhlHausMdp.MassiveDataAnalyzer

open RollingList (MarketDataAnalyzerResult)

/-- `key in value`; in a string it looks for a part. -/
def contains (value : Value) (key : String) : Option Bool :=
  match value with
  | .dict entries => some (entries.lookup key).isSome
  | .list items => some (items.any fun
      | .str item => item == key
      | _ => false)
  | .str text => some (decide (key.toList <:+: text.toList))
  | _ => none

section

variable (shown : Value → String)

def symbolResult (key : String) (ttl : Nat) (data symbol : Value) : List MarketDataAnalyzerResult := [{
  data := data
  cacheKey := some (key ++ ":" ++ FinlightDataAnalyzer.formatted shown symbol)
  cacheTtl := some ttl
  publishKey := some (key ++ ":" ++ FinlightDataAnalyzer.formatted shown symbol)
  cacheListMax := none }]

def handleLuldEvent : Value → Value → List MarketDataAnalyzerResult :=
  symbolResult shown MarketDataCacheKeys.HALTS MarketDataCacheTTL.HALTS

def handleEquityAggEvent : Value → Value → List MarketDataAnalyzerResult :=
  symbolResult shown MarketDataCacheKeys.AGGREGATE MarketDataCacheTTL.AGGREGATE

def handleEquityTradeEvent : Value → Value → List MarketDataAnalyzerResult :=
  symbolResult shown MarketDataCacheKeys.TRADES MarketDataCacheTTL.TRADES

def handleEquityQuoteEvent : Value → Value → List MarketDataAnalyzerResult :=
  symbolResult shown MarketDataCacheKeys.QUOTES MarketDataCacheTTL.QUOTES

def handleUnknownEvent (now : String) (data : Value) : List MarketDataAnalyzerResult := [{
  data := data
  cacheKey := some (MarketDataCacheKeys.UNKNOWN ++ ":" ++ String.ofList (now.toList.filter (· ≠ '.')))
  cacheTtl := some MarketDataCacheTTL.UNKNOWN
  publishKey := some MarketDataCacheKeys.UNKNOWN
  cacheListMax := none }]

def eventHandlers : List (String × (Value → Value → List MarketDataAnalyzerResult)) := [
  (EventType.LimitUpLimitDown, handleLuldEvent shown),
  (EventType.EquityAgg, handleEquityAggEvent shown),
  (EventType.EquityAggMin, handleEquityAggEvent shown),
  (EventType.EquityTrade, handleEquityTradeEvent shown),
  (EventType.EquityQuote, handleEquityQuoteEvent shown)]

def analyzeData (now : String) (data : Value) : Option (List MarketDataAnalyzerResult) :=
  match contains data "event_type" with
  | none => none
  | some false => some (handleUnknownEvent now data)
  | some true =>
      match data with
      | .dict entries =>
          if (entries.lookup "symbol").isSome then
            match data.lookup "event_type" with
            | .str eventType =>
                match (eventHandlers shown).lookup eventType with
                | some handler => some (handler data (data.lookup "symbol"))
                | none => some (handleUnknownEvent now data)
            -- the table of handlers hashes the event type
            | .list _ | .dict _ => none
            | _ => some (handleUnknownEvent now data)
          else some (handleUnknownEvent now data)
      -- only a dictionary has the method `get`
      | _ => none

end

/-! The feeds of raw market data, one for each kind of message. -/

inductive Feed where
  | luld
  | agg
  | trades
  | quotes
  deriving DecidableEq, Repr

namespace Feed

def key : Feed → String
  | luld => MarketDataCacheKeys.HALTS
  | agg => MarketDataCacheKeys.AGGREGATE
  | trades => MarketDataCacheKeys.TRADES
  | quotes => MarketDataCacheKeys.QUOTES

def ttl : Feed → Nat
  | luld => MarketDataCacheTTL.HALTS
  | agg => MarketDataCacheTTL.AGGREGATE
  | trades => MarketDataCacheTTL.TRADES
  | quotes => MarketDataCacheTTL.QUOTES

def channel (feed : Feed) (symbol : String) : String := feed.key ++ ":" ++ symbol

def eventTypes : Feed → List String
  | luld => [EventType.LimitUpLimitDown]
  | agg => [EventType.EquityAgg, EventType.EquityAggMin]
  | trades => [EventType.EquityTrade]
  | quotes => [EventType.EquityQuote]

def all : List Feed := [luld, agg, trades, quotes]

def ofEventType (eventType : String) : Option Feed := all.find? fun feed => eventType ∈ feed.eventTypes

theorem ofEventType_of_mem {feed : Feed} {eventType : String} (its : eventType ∈ feed.eventTypes) :
    ofEventType eventType = some feed := by
  cases feed with
  | agg =>
      rcases List.mem_pair.mp its with rfl | rfl
      · rfl
      · rfl
  | _ =>
      rw [List.mem_singleton.mp its]
      rfl

theorem ttl_pos (feed : Feed) : 0 < feed.ttl := by cases feed <;> decide

/-- The feeds can be told apart by one character of their keys. -/
def initial : Feed → Char
  | luld => 'l'
  | agg => 'a'
  | trades => 't'
  | quotes => 'q'

theorem initial_injective {feed other : Feed} (same : feed.initial = other.initial) : feed = other := by
  cases feed <;> cases other <;> first | rfl | exact absurd same (by decide)

theorem toList_channel (feed : Feed) (symbol : String) :
    (feed.channel symbol).toList = (feed.key ++ ":").toList ++ symbol.toList := String.toList_append

theorem getElem_channel (feed : Feed) (symbol : String) : (feed.channel symbol).toList[7]? = some feed.initial := by
  rw [toList_channel, List.getElem?_append_left (by cases feed <;> decide)]
  cases feed <;> rfl

theorem channel_injective {feed other : Feed} {symbol text : String}
    (same : feed.channel symbol = other.channel text) : feed = other ∧ symbol = text := by
  have letters := congrArg String.toList same
  obtain rfl : feed = other := by
    apply initial_injective
    have seventh := congrArg (·[7]?) letters
    simp only [getElem_channel] at seventh
    exact Option.some.inj seventh
  rw [toList_channel, toList_channel] at letters
  exact ⟨rfl, String.toList_injective (List.append_cancel_left letters)⟩

theorem matches_iff (feed : Feed) (text : String) :
    Glob.Matches (feed.key ++ ":*") text ↔ ∃ symbol, text = feed.channel symbol := by
  have tokens : Glob.tokens (feed.key ++ ":*").toList.length (feed.key ++ ":*").toList =
      (feed.key ++ ":").toList.map Glob.Token.char ++ [.star] := by
    cases feed <;> decide
  rw [Glob.Matches, tokens, Glob.accepts_prefix_star]
  constructor
  · rintro ⟨rest, same⟩
    refine ⟨String.ofList rest, String.toList_injective ?_⟩
    rw [toList_channel, String.toList_ofList, same]
  · rintro ⟨symbol, rfl⟩
    exact ⟨symbol.toList, feed.toList_channel symbol⟩

end Feed

def route (data : Value) : Option (Feed × Value) :=
  match data with
  | .dict entries =>
      match entries.lookup "event_type", entries.lookup "symbol" with
      | some (.str eventType), some symbol => (Feed.ofEventType eventType).map (·, symbol)
      | _, _ => none
  | _ => none

variable {shown : Value → String}

theorem lookup_eventHandlers (eventType : String) : (eventHandlers shown).lookup eventType =
    (Feed.ofEventType eventType).map fun feed => symbolResult shown feed.key feed.ttl := by
  unfold eventHandlers Feed.ofEventType Feed.all
  by_cases luld : eventType = EventType.LimitUpLimitDown
  · subst luld
    rfl
  by_cases agg : eventType = EventType.EquityAgg
  · subst agg
    rfl
  by_cases aggMin : eventType = EventType.EquityAggMin
  · subst aggMin
    rfl
  by_cases trade : eventType = EventType.EquityTrade
  · subst trade
    rfl
  by_cases quote : eventType = EventType.EquityQuote
  · subst quote
    rfl
  simp [List.lookup, Feed.eventTypes, beq_false_of_ne luld, beq_false_of_ne agg, beq_false_of_ne aggMin,
    beq_false_of_ne trade, beq_false_of_ne quote, luld, agg, aggMin, trade, quote]

theorem analyzeData_cases (now : String) (data : Value) :
    (∃ feed symbol, route data = some (feed, symbol) ∧
      analyzeData shown now data = some (symbolResult shown feed.key feed.ttl data symbol)) ∨
    (route data = none ∧
      (analyzeData shown now data = none ∨ analyzeData shown now data = some (handleUnknownEvent now data))) := by
  cases data with
  | dict entries =>
      cases typed : entries.lookup "event_type" with
      | none =>
          refine .inr ⟨by simp [route, typed], .inr ?_⟩
          simp [analyzeData, contains, typed]
      | some eventType =>
          cases named : entries.lookup "symbol" with
          | none =>
              refine .inr ⟨by simp [route, named], .inr ?_⟩
              simp [analyzeData, contains, typed, named]
          | some symbol =>
              cases eventType with
              | str code =>
                  simp only [analyzeData, contains, typed, named, Option.isSome_some, if_true, Value.lookup, route,
                    Option.getD_some, lookup_eventHandlers]
                  cases Feed.ofEventType code with
                  | none => exact .inr ⟨rfl, .inr rfl⟩
                  | some feed => exact .inl ⟨feed, symbol, rfl, rfl⟩
              | _ => simp [route, analyzeData, contains, typed, named, Value.lookup]
  | list items =>
      refine .inr ⟨rfl, ?_⟩
      unfold analyzeData
      split <;> simp
  | str text =>
      refine .inr ⟨rfl, ?_⟩
      unfold analyzeData
      split <;> simp
  | _ => exact .inr ⟨rfl, .inl rfl⟩

end KuhlHausMdp.MassiveDataAnalyzer
