import KuhlHausMdp.Library.Dict
import KuhlHausMdp.Library.Value
import KuhlHausMdp.Enum

/-! `DailyRangeAnalyzer`: the six dictionaries of session highs and lows, and
what one quote does to them. Prices are numbers; a `Quote` says so. -/

set_option autoImplicit false

namespace KuhlHausMdp.DailyRangeAnalyzer

def read (data : Dict String Value) (key : String) : Value := (data.get key).getD .none

def pick (data : Dict String Value) (first second : String) : Value :=
  (read data first).orElse (read data second)

inductive Session where
  | preMarket | regular | afterHours
  deriving DecidableEq

inductive Direction where
  | high | low
  deriving DecidableEq

def Session.name : Session → String
  | .preMarket => "pre_market"
  | .regular => "regular"
  | .afterHours => "after_hours"

def Direction.name : Direction → String
  | .high => "high"
  | .low => "low"

def Direction.shortName : Direction → String
  | .high => "h"
  | .low => "l"

/-- A quote event: its symbol is text if there is one, its high and low are
numbers if they are there. -/
structure Quote where
  data : Dict String Value
  symbolText : (pick data "sym" "symbol").truthy = true → ∃ s, pick data "sym" "symbol" = .str s
  priced : ∀ direction : Direction, pick data direction.name direction.shortName = .none ∨
    ∃ q, pick data direction.name direction.shortName = .num q

/-- The empty symbol is none. -/
def Quote.symbol (quote : Quote) : Option String :=
  match pick quote.data "sym" "symbol" with
  | .str s => if s = "" then none else some s
  | _ => none

def Quote.price (quote : Quote) (direction : Direction) : Option ℚ :=
  match pick quote.data direction.name direction.shortName with
  | .num q => some q
  | _ => none

structure MarketStatus where
  market : Value
  earlyHours : Value
  afterHours : Value

structure MarketDataAnalyzerResult where
  data : Dict String Value
  cacheKey : String
  cacheTtl : Nat
  publishKey : String
  cacheListMax : Option Nat

end DailyRangeAnalyzer

/-- `extremes` is the six dictionaries `_pre_market_high` to `_after_hours_low`. -/
structure DailyRangeAnalyzer where
  extremes : DailyRangeAnalyzer.Session → DailyRangeAnalyzer.Direction → Dict String ℚ
  marketStatus : Option DailyRangeAnalyzer.MarketStatus
  marketStatusFetchedAt : ℚ
  draCacheListMax : Nat

namespace DailyRangeAnalyzer

def fresh (draCacheListMax : Nat) : DailyRangeAnalyzer where
  extremes _ _ := ∅
  marketStatus := none
  marketStatusFetchedAt := 0
  draCacheListMax := draCacheListMax

/-- A quote and what the calls made while it is handled give: the Lua script's
answer, or none when it raises; the monotonic clock; the market status, or none
when the request raises; and the wall clock in seconds. -/
structure Tick where
  quote : Quote
  reset : Option Bool
  monotonic : ℚ
  status : Option MarketStatus
  time : ℚ

/-! Market status. -/

/-- A status is kept for a minute, and longer when it cannot be renewed. -/
def getMarketStatus (self : DailyRangeAnalyzer) (tick : Tick) : Option MarketStatus × DailyRangeAnalyzer :=
  if self.marketStatus.isSome ∧ tick.monotonic - self.marketStatusFetchedAt < 60 then (self.marketStatus, self)
  else match tick.status with
    | some status =>
        (some status, { self with marketStatus := some status, marketStatusFetchedAt := tick.monotonic })
    | none => (self.marketStatus, self)

def sessionOf (status : MarketStatus) : Option Session :=
  match status.market with
  | .str "open" => some .regular
  | _ =>
      if status.earlyHours.truthy then some .preMarket
      else if status.afterHours.truthy then some .afterHours
      else none

def getSession (self : DailyRangeAnalyzer) (tick : Tick) : Option Session × DailyRangeAnalyzer :=
  ((self.getMarketStatus tick).1.bind sessionOf, (self.getMarketStatus tick).2)

/-! Notes of alerts. -/

/-- The prior extremes an alert is compared with, the nearest first. -/
def noteChecks : Session → List Session
  | .preMarket => []
  | .regular => [.preMarket]
  | .afterHours => [.regular, .preMarket]

def noteTemplate : Session → Direction → String
  | .preMarket, .high => "Broke pre-market high of $"
  | .preMarket, .low => "Broke pre-market low of $"
  | _, .high => "Broke regular session high of $"
  | _, .low => "Broke regular session low of $"

/-- The format `.2f`: two decimals, ties to the even digit. -/
def twoDecimals (q : ℚ) : String :=
  let hundredths := (if q < 0 then -q else q) * 100
  let floor := hundredths.floor.toNat
  let rest := hundredths - floor
  let cents := if rest < 1 / 2 ∨ rest = 1 / 2 ∧ floor % 2 = 0 then floor else floor + 1
  (if q < 0 then "-" else "") ++ toString (cents / 100) ++ "." ++ (if cents % 100 < 10 then "0" else "") ++
    toString (cents % 100)

def beats (direction : Direction) (price previous : ℚ) : Bool :=
  match direction with
  | .high => decide (price > previous)
  | .low => decide (price < previous)

def computeNote (self : DailyRangeAnalyzer) (symbol : String) (session : Session) (direction : Direction)
    (price : ℚ) : String :=
  let breached := (noteChecks session).findSome? fun prior =>
    match (self.extremes prior direction).get symbol with
    | some value => if beats direction price value then some (noteTemplate prior direction ++ twoDecimals value) else none
    | none => none
  breached.getD ""

def alertKey : Direction → String
  | .high => WidgetDataCacheKeys.DAILY_RANGE_HOD_ALERT
  | .low => WidgetDataCacheKeys.DAILY_RANGE_LOD_ALERT

/-- The quote's fields win over the alert's own. -/
def makeAlert (self : DailyRangeAnalyzer) (symbol : String) (session : Session) (direction : Direction)
    (price previous timestamp : ℚ) (quote : Quote) : MarketDataAnalyzerResult where
  data := (Dict.empty.update
    [("session", .str session.name), ("direction", .str direction.name), ("price", .num price),
     ("previous", .num previous), ("timestamp", .num timestamp),
     ("note", .str (self.computeNote symbol session direction price))]).update quote.data.entries
  cacheKey := alertKey direction
  cacheTtl := WidgetDataCacheTTL.DAILY_RANGE_ALERT
  publishKey := alertKey direction
  cacheListMax := some self.draCacheListMax

/-! The extremes. -/

def assign (self : DailyRangeAnalyzer) (session : Session) (direction : Direction) (symbol : String) (price : ℚ) :
    DailyRangeAnalyzer :=
  { self with extremes := fun s d =>
      if s = session ∧ d = direction then (self.extremes s d).set symbol price else self.extremes s d }

/-- The first price of a symbol is recorded without an alert. -/
def track (self : DailyRangeAnalyzer) (symbol : String) (session : Session) (direction : Direction)
    (price timestamp : ℚ) (quote : Quote) : List MarketDataAnalyzerResult × DailyRangeAnalyzer :=
  match (self.extremes session direction).get symbol with
  | none => ([], self.assign session direction symbol price)
  | some previous =>
      if beats direction price previous then
        ([self.makeAlert symbol session direction price previous timestamp quote],
          self.assign session direction symbol price)
      else ([], self)

def timestampOf (tick : Tick) : Option ℚ :=
  (((read tick.quote.data "t").orElse ((read tick.quote.data "timestamp").orElse (.num (tick.time * 1000)))).number?).map
    (· / 1000)

/-- `none` where the source raises. -/
def updateSessionHodLod (self : DailyRangeAnalyzer) (symbol : String) (tick : Tick) :
    Option (List MarketDataAnalyzerResult) × DailyRangeAnalyzer :=
  let (session, self) := self.getSession tick
  match session, tick.quote.price .high, tick.quote.price .low with
  | some session, some high, some low =>
      match timestampOf tick with
      | none => (none, self)
      | some timestamp =>
          -- the low is tracked after the high
          let highs := self.track symbol session .high high timestamp tick.quote
          let lows := highs.2.track symbol session .low low timestamp tick.quote
          (some (highs.1 ++ lows.1), lows.2)
  | _, _, _ => (some [], self)

/-- All six dictionaries are cleared when the script reset the day. -/
def checkDayBoundary (self : DailyRangeAnalyzer) (reset : Bool) : DailyRangeAnalyzer :=
  if reset then { self with extremes := fun _ _ => ∅ } else self

def fieldName : Session → Direction → String
  | .preMarket, .high => "pre_market_high"
  | .preMarket, .low => "pre_market_low"
  | .regular, .high => "regular_session_high"
  | .regular, .low => "regular_session_low"
  | .afterHours, .high => "after_hours_high"
  | .afterHours, .low => "after_hours_low"

def priceValue : Option ℚ → Value
  | some q => .num q
  | none => .none

def sixFields (self : DailyRangeAnalyzer) (symbol : String) : List (String × Value) :=
  [Session.preMarket, .regular, .afterHours].flatMap fun session =>
    [Direction.high, .low].map fun direction =>
      (fieldName session direction, priceValue ((self.extremes session direction).get symbol))

def stateResult (self : DailyRangeAnalyzer) (symbol : String) (quote : Quote) : MarketDataAnalyzerResult where
  data := quote.data.update (self.sixFields symbol)
  cacheKey := WidgetDataCacheKeys.DAILY_RANGE ++ ":" ++ symbol
  cacheTtl := WidgetDataCacheTTL.DAILY_RANGE
  publishKey := WidgetDataCacheKeys.DAILY_RANGE ++ ":" ++ symbol
  cacheListMax := none

inductive Answer where
  | raised
  | returned (results : Option (List MarketDataAnalyzerResult))

def analyzeData (self : DailyRangeAnalyzer) (tick : Tick) : Answer × DailyRangeAnalyzer :=
  match tick.quote.symbol, tick.reset with
  | none, _ => (.returned none, self)
  | some _, none => (.raised, self)
  | some symbol, some reset =>
      match (self.checkDayBoundary reset).updateSessionHodLod symbol tick with
      | (none, self) => (.raised, self)
      | (some alerts, self) => (.returned (some (self.stateResult symbol tick.quote :: alerts)), self)

end KuhlHausMdp.DailyRangeAnalyzer
