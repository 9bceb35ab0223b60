import KuhlHausMdp.Library.Transition
import KuhlHausMdp.TopStocksAnalyzer.CacheItem
import KuhlHausMdp.WebSocketMessageSerde

/-! `TopStocksAnalyzer`: handlers of `EquityAgg` events that are suspended at
their look-ups while other events reset, replace and write the cache item. A
handler reads `self.cache_item` anew when it goes on, and writes the three
rankings and the record in one turn. -/

set_option autoImplicit false

namespace KuhlHausMdp.TopStocksAnalyzer

open LeaderboardAnalyzer (Board sub div percentage)
open Transition TopStocksCacheItem

structure PrevDay where
  close : Value
  volume : Value
  vwap : Value

structure LookUps where
  avgVolume : Value
  prevDay : PrevDay
  freeFloat : Value

inductive Stage where
  | snapshot (retryCount : Nat) (prevDay : PrevDay)
  | deleteSnapshot (retryCount : Nat) (prevDay : PrevDay)
  | avgVolume (retryCount : Nat) (prevDay : PrevDay)
  | freeFloat (retryCount : Nat) (prevDay : PrevDay) (avgVolume : Value)

/-- How an await ends. `snapshot` has what the attributes of the snapshot read
as, `none` where reading one raises. -/
inductive Answer where
  | raised
  | cancelled
  | snapshot (close volume vwap : Option Value)
  | value (value : Value)
  | done

inductive Turn where
  | awaits (stage : Stage)
  | found (lookUps : LookUps)
  | returned
  | raised

/-- The test `value == 0`. -/
def isZero (value : Value) : Bool := value.number? = some 0

def afterSnapshot (retryCount : Nat) (prevDay : PrevDay) : Turn :=
  if retryCount = 3 ∧ isZero prevDay.close then .returned else .awaits (.avgVolume 0 prevDay)

def resume : Stage → Answer → Option Turn
  -- `except Exception` lets a cancellation through
  | _, .cancelled => some .raised
  | .snapshot retryCount prevDay, .raised => some (.awaits (.deleteSnapshot (retryCount + 1) prevDay))
  -- the values read before the attribute that raises stay assigned
  | .snapshot retryCount prevDay, .snapshot close volume vwap =>
      match close, volume, vwap with
      | some close, some volume, some vwap => some (afterSnapshot retryCount ⟨close, volume, vwap⟩)
      | some close, some volume, none => some (.awaits (.deleteSnapshot (retryCount + 1) { prevDay with close, volume }))
      | some close, none, _ => some (.awaits (.deleteSnapshot (retryCount + 1) { prevDay with close }))
      | none, _, _ => some (.awaits (.deleteSnapshot (retryCount + 1) prevDay))
  | .deleteSnapshot retryCount prevDay, .done =>
      some (if retryCount < 3 then .awaits (.snapshot retryCount prevDay) else afterSnapshot retryCount prevDay)
  | .deleteSnapshot _ _, .raised => some .raised
  | .avgVolume _ prevDay, .value avgVolume => some (.awaits (.freeFloat 0 prevDay avgVolume))
  | .avgVolume retryCount prevDay, .raised =>
      some (if retryCount + 1 < 3 then .awaits (.avgVolume (retryCount + 1) prevDay) else .returned)
  | .freeFloat _ prevDay avgVolume, .value freeFloat => some (.found ⟨avgVolume, prevDay, freeFloat⟩)
  | .freeFloat retryCount prevDay avgVolume, .raised =>
      some (if retryCount + 1 < 2 then .awaits (.freeFloat (retryCount + 1) prevDay avgVolume)
        else .found ⟨avgVolume, prevDay, .num 0⟩)
  | _, _ => none

/-- What a record keeps of the look-ups; `none` where reading it raises. -/
def cached (record : Dict String Value) : Option LookUps := do
  let avgVolume ← record.get "avg_volume"
  let close ← record.get "prev_day_close"
  let volume ← record.get "prev_day_volume"
  let vwap ← record.get "prev_day_vwap"
  let freeFloat ← record.get "free_float"
  return ⟨avgVolume, ⟨close, volume, vwap⟩, freeFloat⟩

/-- `handle_equity_agg` up to its first await, or to its computation. -/
def handleEquityAgg (item : TopStocksCacheItem) (symbol : String) : Turn :=
  match item.symbolDataCache.get symbol with
  | none => .awaits (.snapshot 0 ⟨.num 0, .num 0, .num 0⟩)
  | some record =>
      match cached record with
      | none => .raised
      | some lookUps => .found lookUps

structure Metrics where
  relativeVolume : Value
  change : Value
  pctChange : Value
  changeSinceOpen : Value
  pctChangeSinceOpen : Value

def zeroIf (condition : Bool) (value : Option Value) : Option Value := if condition then some (.num 0) else value

/-- The metrics of an event; `none` where computing one raises. -/
def metrics (event : EquityAgg) (lookUps : LookUps) : Option Metrics := do
  let close := lookUps.prevDay.close
  let official := event.officialOpenPrice
  let relativeVolume ← zeroIf (isZero lookUps.avgVolume) (div event.accumulatedVolume lookUps.avgVolume)
  let change ← zeroIf (isZero close) (sub event.close close)
  let pctChange ← zeroIf (isZero close) (percentage event.close close)
  let changeSinceOpen ← zeroIf (!official.truthy) (sub event.close official)
  let pctChangeSinceOpen ← zeroIf (!official.truthy) (percentage event.close official)
  return ⟨relativeVolume, change, pctChange, changeSinceOpen, pctChangeSinceOpen⟩

def fields (symbol : String) (event : EquityAgg) (lookUps : LookUps) (metrics : Metrics) : List (String × Value) :=
  [("symbol", .str symbol), ("volume", event.volume), ("free_float", lookUps.freeFloat),
   ("accumulated_volume", event.accumulatedVolume), ("relative_volume", metrics.relativeVolume),
   ("official_open_price", event.officialOpenPrice), ("vwap", event.vwap), ("open", event.open'),
   ("close", event.close), ("high", event.high), ("low", event.low), ("aggregate_vwap", event.aggregateVwap),
   ("average_size", event.averageSize), ("avg_volume", lookUps.avgVolume), ("prev_day_close", lookUps.prevDay.close),
   ("prev_day_volume", lookUps.prevDay.volume), ("prev_day_vwap", lookUps.prevDay.vwap), ("change", metrics.change),
   ("pct_change", metrics.pctChange), ("change_since_open", metrics.changeSinceOpen),
   ("pct_change_since_open", metrics.pctChangeSinceOpen), ("start_timestamp", event.startTimestamp),
   ("end_timestamp", event.endTimestamp)]

def recordOf (symbol : String) (event : EquityAgg) (lookUps : LookUps) (metrics : Metrics) : Dict String Value :=
  (∅ : Dict String Value).update (fields symbol event lookUps metrics)

def write (item : TopStocksCacheItem) (symbol : String) (event : EquityAgg) (lookUps : LookUps) (metrics : Metrics) :
    TopStocksCacheItem :=
  { item with
    topVolumeMap := item.topVolumeMap.set symbol event.accumulatedVolume
    topGappersMap := item.topGappersMap.set symbol metrics.pctChange
    topGainersMap := item.topGainersMap.set symbol metrics.pctChangeSinceOpen
    symbolDataCache := item.symbolDataCache.set symbol (recordOf symbol event lookUps metrics) }

def update (item : TopStocksCacheItem) (symbol : String) (event : EquityAgg) (lookUps : LookUps) :
    Option TopStocksCacheItem :=
  (metrics event lookUps).map (write item symbol event lookUps)

def accepted (data : Value) : Option (String × EquityAgg) :=
  match data.lookup "event_type", data.lookup "symbol" with
  | .str eventType, .str symbol =>
      if symbol = "" then none
      else if eventType = EventType.EquityAgg ∨ eventType = EventType.EquityAggMin then some (symbol, .ofKeywords data)
      else none
  | _, _ => none

def resets (self : TopStocksAnalyzer) (zone : ZoneInfo) (now : ℤ) : Bool :=
  self.isNewDay zone now ||
    (34200 ≤ localSecond zone now && localSecond zone now < 34260 && self.preMarketReset = false)

/-- Monday to Friday, 04:00 to 19:59. -/
def tradingHours (zone : ZoneInfo) (now : ℤ) : Bool :=
  (localDay zone now + 3) % 7 < 5 && 14400 ≤ localSecond zone now && localSecond zone now < 72000

theorem isNum_percentage {part whole value : Value} (computed : percentage part whole = some value) :
    ∃ score, value = .num score := by
  simp only [percentage, Option.bind_eq_bind, Option.bind_eq_some_iff] at computed
  obtain ⟨_, _, _, _, score, _, same⟩ := computed
  exact ⟨score * 100, (Option.some.inj same).symm⟩

theorem isNum_zeroIf {condition : Bool} {part whole value : Value}
    (computed : zeroIf condition (percentage part whole) = some value) : ∃ score, value = .num score := by
  unfold zeroIf at computed
  split at computed
  · exact ⟨0, (Option.some.inj computed).symm⟩
  · exact isNum_percentage computed

theorem isNum_metrics {event : EquityAgg} {lookUps : LookUps} {metrics : Metrics}
    (computed : TopStocksAnalyzer.metrics event lookUps = some metrics) :
    (∃ score, metrics.pctChange = .num score) ∧ ∃ score, metrics.pctChangeSinceOpen = .num score := by
  simp only [TopStocksAnalyzer.metrics, Option.bind_eq_bind, Option.bind_eq_some_iff] at computed
  obtain ⟨_, _, _, _, pctChange, isPct, _, _, pctChangeSinceOpen, isOpen, same⟩ := computed
  cases same
  exact ⟨isNum_zeroIf isPct, isNum_zeroIf isOpen⟩

def Numeric (event : EquityAgg) : Prop :=
  ∀ value ∈ [event.volume, event.accumulatedVolume, event.officialOpenPrice, event.vwap, event.open', event.close,
    event.high, event.low, event.aggregateVwap, event.averageSize, event.startTimestamp, event.endTimestamp],
    ∃ q, value = .num q

section

variable (symbol : String) (event : EquityAgg) (lookUps : LookUps) (metrics : Metrics)

theorem keys_fields : (fields symbol event lookUps metrics).map Prod.fst = "symbol" :: rowKeys := rfl

theorem get_recordOf {key : String} {value : Value} (member : (key, value) ∈ fields symbol event lookUps metrics) :
    (recordOf symbol event lookUps metrics).get key = some value :=
  Dict.get_update_of_mem ∅ (by rw [keys_fields]; decide) member

theorem mem_recordOf {key : String} (member : key ∈ rowKeys) : key ∈ recordOf symbol event lookUps metrics := by
  have listed : key ∈ (fields symbol event lookUps metrics).map Prod.fst := List.mem_cons_of_mem _ member
  obtain ⟨⟨_, value⟩, field, rfl⟩ := List.mem_map.mp listed
  exact Dict.mem_iff_get.mpr ⟨value, get_recordOf symbol event lookUps metrics field⟩

def scoreOf : Board → Value
  | .topVolume => event.accumulatedVolume
  | .topGappers => metrics.pctChange
  | .topGainers => metrics.pctChangeSinceOpen

theorem get_recordOf_scoreKey (board : Board) :
    (recordOf symbol event lookUps metrics).get (scoreKey board) = some (scoreOf event metrics board) := by
  cases board <;> exact get_recordOf symbol event lookUps metrics (by simp [fields, scoreKey, scoreOf])

theorem ranking_write (item : TopStocksCacheItem) (board : Board) :
    (write item symbol event lookUps metrics).ranking board =
      (item.ranking board).set symbol (scoreOf event metrics board) := by
  cases board <;> rfl

variable {symbol event lookUps metrics}

theorem sound_write {item : TopStocksCacheItem} (sound : Sound item)
    (numeric : ∀ board, ∃ score, scoreOf event metrics board = .num score) :
    Sound (write item symbol event lookUps metrics) where
  keys := fun board other => by
    rw [ranking_write, Dict.mem_set, write, Dict.mem_set, sound.keys]
  scores := fun board other record found => by
    rw [write, Dict.get_set] at found
    rw [ranking_write, Dict.get_set]
    split at found
    case isTrue same => rw [if_pos same, ← Option.some.inj found, get_recordOf_scoreKey]
    case isFalse apart =>
      rw [if_neg apart]
      exact sound.scores board other record found
  complete := fun other record found key member => by
    rw [write, Dict.get_set] at found
    split at found
    · exact Option.some.inj found ▸ mem_recordOf symbol event lookUps metrics member
    · exact sound.complete other record found key member
  numeric := fun board other value found => by
    rw [ranking_write, Dict.get_set] at found
    split at found
    · cases found
      exact numeric board
    · exact sound.numeric board other value found

theorem sound_update {item next : TopStocksCacheItem} (sound : Sound item) (numeric : Numeric event)
    (updated : update item symbol event lookUps = some next) : Sound next := by
  obtain ⟨metrics, computed, rfl⟩ := Option.map_eq_some_iff.mp updated
  obtain ⟨gap, gain⟩ := isNum_metrics computed
  refine sound_write sound fun board => ?_
  cases board with
  | topVolume => exact numeric event.accumulatedVolume (by simp)
  | topGappers => exact gap
  | topGainers => exact gain

end

theorem sound_fresh (dayStartTime : Option ℚ) : Sound { TopStocksCacheItem.fresh with dayStartTime := dayStartTime } where
  keys := fun board symbol => by cases board <;> exact Iff.rfl
  scores := fun board symbol record found => by cases found
  complete := fun symbol record found => by cases found
  numeric := fun board symbol value found => by cases board <;> cases found

theorem sound_checkBoundaries {self : TopStocksAnalyzer} (sound : Sound self.cacheItem) (zone : ZoneInfo) (now : ℤ) :
    Sound (self.checkBoundaries zone now).cacheItem := by
  unfold checkBoundaries
  split
  · exact sound_fresh _
  · split
    · exact sound_fresh _
    · exact sound

end TopStocksAnalyzer

namespace TopStocks

open LeaderboardAnalyzer (Board)
open Transition TopStocksAnalyzer

variable {C Text : Type*} [DecidableEq C]

structure Call where
  symbol : String
  event : EquityAgg
  stage : Stage

/-- `factory` says that the records are still the `defaultdict` of a fresh item,
`copies` has the JSON texts made of `to_dict`. -/
structure Scanner (C Text : Type*) where
  analyzer : TopStocksAnalyzer
  factory : Bool
  lastUpdateTime : ℤ
  calls : C → Option Call
  copies : List Text

/-- `analyzeData` and `resume` carry the time at which a result is due. -/
inductive Action (C : Type*) where
  | analyzeData (id : C) (now : ℤ) (data : Value) (currentTime : ℤ)
  | resume (id : C) (answer : Answer) (currentTime : ℤ)
  | rehydrate (now : ℤ) (copy : Option Nat)
  | toDict
  | top (board : Board) (limit : ℤ)
  | restart

namespace Scanner

def fresh : Scanner C Text := ⟨⟨.fresh, false⟩, true, 0, fun _ => none, []⟩

def item (s : Scanner C Text) : TopStocksCacheItem := s.analyzer.cacheItem

def withItem (s : Scanner C Text) (item : TopStocksCacheItem) : Scanner C Text :=
  { s with analyzer := { s.analyzer with cacheItem := item } }

def enter (zone : ZoneInfo) (s : Scanner C Text) (now : ℤ) : Scanner C Text :=
  { s with
    analyzer := s.analyzer.checkBoundaries zone now
    factory := s.factory || s.analyzer.resets zone now }

def queried (factory : Bool) (item : TopStocksCacheItem) : TopStocksCacheItem :=
  match item.topVolume factory 500 with
  | (none, item) => item
  | (some _, item) =>
      match item.topGainers factory 500 with
      | (none, item) => item
      | (some _, item) => (item.topGappers factory 500).2

def publish (s : Scanner C Text) (currentTime : ℤ) : Scanner C Text :=
  if currentTime ≤ s.lastUpdateTime then s
  else { s.withItem (queried s.factory s.item) with lastUpdateTime := currentTime }

def settle (s : Scanner C Text) (id : C) (call : Option Call) : Scanner C Text :=
  { s with calls := Function.update s.calls id call }

def advance (s : Scanner C Text) (id : C) (symbol : String) (event : EquityAgg) (turn : Turn) (currentTime : ℤ) :
    Scanner C Text :=
  match turn with
  | .awaits stage => s.settle id (some ⟨symbol, event, stage⟩)
  | .raised => s.settle id none
  | .returned => (s.settle id none).publish currentTime
  | .found lookUps =>
      match update s.item symbol event lookUps with
      | none => s.settle id none
      | some item => ((s.settle id none).withItem item).publish currentTime

def rehydrate (zone : ZoneInfo) (json : Json Text) (s : Scanner C Text) (now : ℤ) (copy : Option Nat) :
    Option (Scanner C Text) :=
  let clear := { s.withItem .fresh with factory := true }
  if tradingHours zone now then
    match copy with
    | none => some clear
    | some copy =>
        (s.copies[copy]?).map fun text =>
          match (json.loads text).bind TopStocksCacheItem.ofKeywords with
          | some item => { s.withItem item with factory := false }
          | none => s
  else some clear

def step (zone : ZoneInfo) (json : Json Text) (s : Scanner C Text) : Action C → Option (Scanner C Text)
  | .analyzeData id now data currentTime =>
      match s.calls id with
      | some _ => none
      | none =>
          let s := s.enter zone now
          match accepted data with
          | none => some s
          | some (symbol, event) => some (s.advance id symbol event (handleEquityAgg s.item symbol) currentTime)
  | .resume id answer currentTime =>
      match s.calls id with
      | none => none
      | some call => (TopStocksAnalyzer.resume call.stage answer).map fun turn =>
          s.advance id call.symbol call.event turn currentTime
  | .rehydrate now copy => s.rehydrate zone json now copy
  | .toDict => some { s with copies := s.copies ++ [json.dumps s.item.toDict] }
  | .top board limit => some (s.withItem (s.item.top board s.factory limit).2)
  -- a new process, beside the same Redis
  | .restart => some { (fresh : Scanner C Text) with copies := s.copies }

def NumericData : Action C → Prop
  | .analyzeData _ _ data _ => ∀ symbol event, accepted data = some (symbol, event) → Numeric event
  | _ => True

/-- The item that a turn of `analyze_data` finds, after the resets. -/
def base (zone : ZoneInfo) (s : Scanner C Text) : Action C → TopStocksCacheItem
  | .analyzeData _ now _ _ => (s.enter zone now).item
  | _ => s.item

/-- A turn of `analyze_data` that does not get through the handling of its
event: it waits, raises, or returns early. -/
def Unhandled (zone : ZoneInfo) (s : Scanner C Text) : Action C → Prop
  | .analyzeData _ now data _ => ∀ symbol event lookUps item, accepted data = some (symbol, event) →
      handleEquityAgg (s.enter zone now).item symbol = .found lookUps →
      update (s.enter zone now).item symbol event lookUps ≠ some item
  | .resume id answer _ => ∀ call lookUps item, s.calls id = some call →
      TopStocksAnalyzer.resume call.stage answer = some (.found lookUps) →
      update s.item call.symbol call.event lookUps ≠ some item
  | _ => False

/-- The item in memory and every copy of it are sound, and so are the events
under way. -/
structure Kept (json : Json Text) (s : Scanner C Text) : Prop where
  sound : s.item.Sound
  events : ∀ id call, s.calls id = some call → Numeric call.event
  copies : ∀ text ∈ s.copies, ∃ item : TopStocksCacheItem, item.Sound ∧ text = json.dumps item.toDict

variable {zone : ZoneInfo} {json : Json Text} {s next : Scanner C Text}

theorem queried_eq {item : TopStocksCacheItem} (sound : item.Sound) (factory : Bool) : queried factory item = item := by
  obtain ⟨_, _, volume, -⟩ := sound.top_eq .topVolume factory 500
  obtain ⟨_, _, gainers, -⟩ := sound.top_eq .topGainers factory 500
  obtain ⟨_, _, gappers, -⟩ := sound.top_eq .topGappers factory 500
  simp only [queried, TopStocksCacheItem.topVolume, TopStocksCacheItem.topGainers, TopStocksCacheItem.topGappers,
    volume, gainers, gappers]

omit [DecidableEq C] in
theorem publish_spec (sound : s.item.Sound) (currentTime : ℤ) : (s.publish currentTime).item = s.item ∧
    (s.publish currentTime).calls = s.calls ∧ (s.publish currentTime).copies = s.copies := by
  unfold publish
  split
  · exact ⟨rfl, rfl, rfl⟩
  · rw [queried_eq sound]
    exact ⟨rfl, rfl, rfl⟩

theorem advance_spec (sound : s.item.Sound) (id : C) (symbol : String) {event : EquityAgg} (numeric : Numeric event)
    (turn : Turn) (currentTime : ℤ) :
    ((s.advance id symbol event turn currentTime).item = s.item ∨ ∃ lookUps item, turn = .found lookUps ∧
      update s.item symbol event lookUps = some item ∧
      (s.advance id symbol event turn currentTime).item = item) ∧
    (∃ call : Option Call, (s.advance id symbol event turn currentTime).calls = Function.update s.calls id call ∧
      ∀ under, call = some under → under.event = event) ∧
    (s.advance id symbol event turn currentTime).copies = s.copies := by
  cases turn with
  | awaits stage => exact ⟨.inl rfl, ⟨_, rfl, fun under same => by cases same; rfl⟩, rfl⟩
  | raised => exact ⟨.inl rfl, ⟨none, rfl, fun _ same => nomatch same⟩, rfl⟩
  | returned =>
      have settled : (s.settle id none).item.Sound := sound
      obtain ⟨item, calls, copies⟩ := publish_spec settled currentTime
      exact ⟨.inl item, ⟨none, calls, fun _ same => nomatch same⟩, copies⟩
  | found lookUps =>
      cases updated : update s.item symbol event lookUps with
      | none =>
          simp only [advance, updated]
          exact ⟨.inl rfl, ⟨none, rfl, fun _ same => nomatch same⟩, rfl⟩
      | some item =>
          have settled : ((s.settle id none).withItem item).item.Sound := sound_update sound numeric updated
          obtain ⟨same, calls, copies⟩ := publish_spec settled currentTime
          simp only [advance, updated]
          exact ⟨.inr ⟨lookUps, item, rfl, updated, same⟩, ⟨none, calls, fun _ same => nomatch same⟩, copies⟩

namespace Kept

theorem advance (kept : Kept json s) (id : C) (symbol : String) {event : EquityAgg} (numeric : Numeric event)
    (turn : Turn) (currentTime : ℤ) : Kept json (s.advance id symbol event turn currentTime) := by
  obtain ⟨item, ⟨call, calls, own⟩, copies⟩ := advance_spec kept.sound id symbol numeric turn currentTime
  refine ⟨?_, fun other under running => ?_, fun text member => kept.copies text (copies ▸ member)⟩
  · rcases item with same | ⟨lookUps, item, -, updated, same⟩
    · exact same ▸ kept.sound
    · exact same ▸ sound_update kept.sound numeric updated
  · rw [calls] at running
    by_cases here : other = id
    · subst here
      rw [Function.update_self] at running
      exact own under running ▸ numeric
    · rw [Function.update_of_ne here] at running
      exact kept.events other under running

omit [DecidableEq C] in
theorem enter (kept : Kept json s) (zone : ZoneInfo) (now : ℤ) : Kept json (s.enter zone now) :=
  ⟨sound_checkBoundaries kept.sound zone now, kept.events, kept.copies⟩

omit [DecidableEq C] in
theorem rehydrate (kept : Kept json s) {now : ℤ} {copy : Option Nat}
    (one : s.rehydrate zone json now copy = some next) : Kept json next := by
  have cleared : Kept json { s.withItem .fresh with factory := true } :=
    ⟨sound_fresh (some 0), kept.events, kept.copies⟩
  unfold Scanner.rehydrate at one
  split at one
  · split at one
    · cases one
      exact cleared
    · obtain ⟨text, stored, rfl⟩ := Option.map_eq_some_iff.mp one
      obtain ⟨item, sound, rfl⟩ := kept.copies text (List.mem_of_getElem? stored)
      -- a copy is read back as the item it was made of
      simp only [json.loads_dumps, Option.bind_some, TopStocksCacheItem.ofKeywords_toDict]
      exact ⟨sound, kept.events, kept.copies⟩
  · cases one
    exact cleared

theorem step {action : Action C} (kept : Kept json s) (numeric : NumericData action)
    (one : s.step zone json action = some next) : Kept json next := by
  cases action with
  | analyzeData id now data currentTime =>
      simp only [Scanner.step] at one
      split at one
      · cases one
      · split at one
        · cases one
          exact kept.enter zone now
        · cases one
          exact (kept.enter zone now).advance id _ (numeric _ _ ‹_›) _ currentTime
  | resume id answer currentTime =>
      simp only [Scanner.step] at one
      split at one
      · cases one
      · rename_i call under
        obtain ⟨turn, -, rfl⟩ := Option.map_eq_some_iff.mp one
        exact kept.advance id call.symbol (kept.events id call under) turn currentTime
  | rehydrate now copy => exact kept.rehydrate one
  | toDict =>
      cases one
      refine ⟨kept.sound, kept.events, fun text member => ?_⟩
      rcases List.mem_append.mp member with old | new
      · exact kept.copies text old
      · exact ⟨s.item, kept.sound, List.mem_singleton.mp new⟩
  | top board limit =>
      obtain ⟨returned, count, same, -⟩ := kept.sound.top_eq board s.factory limit
      simp only [Scanner.step, same] at one
      cases one
      exact ⟨kept.sound, kept.events, kept.copies⟩
  | restart =>
      cases one
      exact ⟨sound_fresh (some 0), fun _ _ none => (nomatch none), kept.copies⟩

omit [DecidableEq C] in
theorem fresh : Kept json (.fresh : Scanner C Text) :=
  ⟨sound_fresh (some 0), fun _ _ none => (nomatch none), fun _ none => (nomatch none)⟩

theorem run {actions : List (Action C)} (numeric : ∀ action ∈ actions, NumericData action)
    (run : exec (Scanner.step zone json) actions .fresh = some s) : Kept json s :=
  along_invariant (Kept json) step fresh (along_of_forall numeric _) run

end Kept

theorem item_advance (sound : s.item.Sound) (id : C) (symbol : String) (event : EquityAgg) {turn : Turn}
    (currentTime : ℤ)
    (unhandled : ∀ lookUps item, turn = .found lookUps → update s.item symbol event lookUps ≠ some item) :
    (s.advance id symbol event turn currentTime).item = s.item := by
  cases turn with
  | awaits stage => rfl
  | raised => rfl
  | returned =>
      have settled : (s.settle id none).item.Sound := sound
      exact (publish_spec settled currentTime).1
  | found lookUps =>
      cases updated : update s.item symbol event lookUps with
      | none => simp only [advance, updated]; rfl
      | some item => exact absurd updated (unhandled lookUps item rfl)

theorem item_of_unhandled {action : Action C} (sound : s.item.Sound) (one : s.step zone json action = some next)
    (unhandled : s.Unhandled zone action) : next.item = s.base zone action := by
  cases action with
  | analyzeData id now data currentTime =>
      simp only [step] at one
      split at one
      · cases one
      · split at one
        · cases one
          rfl
        · rename_i symbol event passed
          cases one
          have entered : (s.enter zone now).item.Sound := sound_checkBoundaries sound zone now
          exact item_advance entered id symbol event currentTime fun lookUps item =>
            unhandled symbol event lookUps item passed
  | resume id answer currentTime =>
      simp only [step] at one
      split at one
      · cases one
      · rename_i call under
        obtain ⟨turn, resumed, rfl⟩ := Option.map_eq_some_iff.mp one
        exact item_advance sound id call.symbol call.event currentTime fun lookUps item found =>
          unhandled call lookUps item under (found ▸ resumed)
  | _ => exact unhandled.elim

/-- In every state of every run the rankings hold what the records say, a turn
that does not get through the handling of its event leaves the item as it is,
and a query with a limit returns the first symbols that count and deletes
nothing. -/
theorem rankings_match_records {actions : List (Action C)} (numeric : ∀ action ∈ actions, NumericData action)
    (run : exec (step zone json) actions .fresh = some s) :
    s.item.Consistent ∧
    (∀ action next, s.step zone json action = some next → s.Unhandled zone action →
      next.item = s.base zone action) ∧
    ∀ board limit, 0 ≤ limit → ∃ returned, s.item.top board s.factory limit = (some returned, s.item) ∧
      s.item.Ranked board limit.toNat returned := by
  have kept := Kept.run numeric run
  refine ⟨kept.sound.toConsistent, fun action next one => item_of_unhandled kept.sound one, ?_⟩
  intro board limit nonneg
  obtain ⟨returned, count, same, ranked, isLimit⟩ := kept.sound.top_eq board s.factory limit
  rw [isLimit nonneg] at ranked
  exact ⟨returned, same, ranked⟩

def bar : Value := .dict [
  ("event_type", .str EventType.EquityAgg), ("symbol", .str "GTE"), ("volume", .num 4110),
  ("accumulated_volume", .num 9470157), ("official_open_price", .num 4), ("vwap", .num 4), ("open", .num 4),
  ("close", .num 5), ("high", .num 5), ("low", .num 4), ("aggregate_vwap", .num 4), ("average_size", .num 685),
  ("start_timestamp", .num 1610144640000), ("end_timestamp", .num 1610144700000)]

def barHandled : List (Action Nat) :=
  [.analyzeData 0 1700060400 bar 1700060400, .resume 0 (.snapshot (some (.num 4)) (some (.num 1)) (some (.num 4))) 1700060400,
   .resume 0 (.value (.num 100)) 1700060400, .resume 0 (.value (.num 1000)) 1700060400, .toDict,
   .rehydrate 1700060460 (some 0)]

theorem numeric_bar : Numeric (.ofKeywords bar) := by
  intro value member
  simp only [List.mem_cons, List.not_mem_nil, or_false] at member
  rcases member with rfl | rfl | rfl | rfl | rfl | rfl | rfl | rfl | rfl | rfl | rfl | rfl <;> exact ⟨_, rfl⟩

theorem numericData_barHandled : ∀ action ∈ barHandled, NumericData action := by
  intro action member
  simp only [barHandled, List.mem_cons, List.not_mem_nil, or_false] at member
  rcases member with rfl | rfl | rfl | rfl | rfl | rfl
  · rintro symbol event passed
    have same : accepted bar = some ("GTE", .ofKeywords bar) := rfl
    rw [same] at passed
    cases passed
    exact numeric_bar
  all_goals exact trivial

theorem rankings_match_records_bar : ∃ s : Scanner Nat Value,
    exec (step americaNewYork Json.document) barHandled .fresh = some s ∧
    s.item.Consistent ∧
    (∀ action next, s.step americaNewYork Json.document action = some next → s.Unhandled americaNewYork action →
      next.item = s.base americaNewYork action) ∧
    ∀ board limit, 0 ≤ limit → ∃ returned, s.item.top board s.factory limit = (some returned, s.item) ∧
      s.item.Ranked board limit.toNat returned := by
  have ends : (exec (step americaNewYork Json.document) barHandled (.fresh : Scanner Nat Value)).isSome = true := by
    decide +kernel
  obtain ⟨s, run⟩ := Option.isSome_iff_exists.mp ends
  exact ⟨s, run, rankings_match_records numericData_barHandled run⟩

end Scanner
end TopStocks
end KuhlHausMdp
