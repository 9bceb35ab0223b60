import KuhlHausMdp.LeaderboardAnalyzer.Sequential

/-! `_update_leaderboards` up to its pipeline: what raises before the open price
is read, what raises after it, and what is handed to the pipeline. -/

set_option autoImplicit false

namespace KuhlHausMdp.LeaderboardAnalyzer

open MarketDataCache

/-- `snapshot.prev_day` where there is one. -/
def prevDayOf (snapshot : Option TickerSnapshot) : Option Bar := snapshot.bind TickerSnapshot.prevDay

def prevDayField (prevDay : Option Bar) (field : Bar → Value) (default : Value) : Value := (prevDay.map field).getD default

structure Early where
  change : Value
  pctChange : Value
  relativeVolume : Value

def computeEarly (event : Dict String Value) (prevDay : Option Bar) (avgVolume : Value) : Option Early := do
  let close := readOr event "close" (.num 0)
  let prevDayClose := prevDayField prevDay Bar.close close
  let change ← orZero prevDayClose (sub close prevDayClose)
  let pctChange ← orZero prevDayClose (percentage close prevDayClose)
  let relativeVolume ← relativeVolumeOf (readOr event "accumulated_volume" (.num 0)) avgVolume
  return ⟨change, pctChange, relativeVolume⟩

structure Prepared where
  accumulatedVolume : Value
  pctChange : Value
  pctChangeSinceOpen : Value
  mapping : Dict String Value

def prepare (symbol : String) (event : Dict String Value) (prevDay : Option Bar) (avgVolume freeFloat openPrice : Value)
    (early : Early) : Option Prepared := do
  let accumulatedVolume := readOr event "accumulated_volume" (.num 0)
  let close := readOr event "close" (.num 0)
  let volume := readOr event "volume" (.num 0)
  let vwap := readOr event "vwap" (.num 0)
  let changeSinceOpen ← orZero openPrice (sub close openPrice)
  let pctChangeSinceOpen ← orZero openPrice (percentage close openPrice)
  let mapping : Dict String Value :=
    { entries :=
        [("symbol", .str symbol), ("volume", volume), ("free_float", freeFloat.orElse (.num 0)),
         ("accumulated_volume", accumulatedVolume), ("relative_volume", early.relativeVolume),
         ("official_open_price", readOrZero event "official_open_price"), ("vwap", vwap), ("open", openPrice),
         ("close", close), ("high", readOrZero event "high"), ("low", readOrZero event "low"),
         ("aggregate_vwap", readOrZero event "aggregate_vwap"), ("average_size", readOrZero event "average_size"),
         ("avg_volume", avgVolume.orElse (.num 0)), ("prev_day_close", prevDayField prevDay Bar.close close),
         ("prev_day_open", prevDayField prevDay Bar.open (.num 0)), ("prev_day_high", prevDayField prevDay Bar.high (.num 0)),
         ("prev_day_low", prevDayField prevDay Bar.low (.num 0)), ("prev_day_volume", prevDayField prevDay Bar.volume volume),
         ("prev_day_vwap", prevDayField prevDay Bar.vwap vwap), ("change", early.change), ("pct_change", early.pctChange),
         ("change_since_open", changeSinceOpen), ("pct_change_since_open", pctChangeSinceOpen),
         ("start_timestamp", readOrZero event "start_timestamp"), ("end_timestamp", readOrZero event "end_timestamp")]
      unique := nodup_mappingKeys }
  return ⟨accumulatedVolume, early.pctChange, pctChangeSinceOpen, mapping⟩

def Prepared.commit (prepared : Prepared) (symbol : String) : Option Commit :=
  pipeline symbol prepared.accumulatedVolume prepared.pctChange prepared.pctChangeSinceOpen prepared.mapping

theorem metrics_eq (symbol : String) (event : Dict String Value) (snapshot : TickerSnapshot)
    (avgVolume freeFloat openPrice : Value) :
    metrics symbol event snapshot avgVolume freeFloat openPrice =
      (computeEarly event snapshot.prevDay avgVolume).bind fun early =>
        (prepare symbol event snapshot.prevDay avgVolume freeFloat openPrice early).bind fun prepared =>
          prepared.commit symbol := by
  simp only [metrics, computeEarly, prepare, Prepared.commit, prevDayField, Option.bind_eq_bind, Option.bind_assoc,
    Option.pure_def, Option.bind_some]

/-- `_update_leaderboards` until it executes its pipeline; none where it raises. -/
def Store.updateLeaderboards (s : Store) (symbol : String) (event : Dict String Value) (snapshot : Option TickerSnapshot)
    (avgVolume freeFloat : Value) : Option Prepared := do
  let early ← computeEarly event (prevDayOf snapshot) avgVolume
  let (openPrice, _) ← s.getSymbolOpenPrice symbol event
  prepare symbol event (prevDayOf snapshot) avgVolume freeFloat openPrice early

/-! Numbers and None. -/

def Nullable (value : Value) : Prop := value = .none ∨ IsNum value

theorem nullable_readOr {data : Dict String Value} {key : String} {default : Value}
    (present : ∀ value, data.get key = some value → Nullable value) (missing : Nullable default) :
    Nullable (readOr data key default) := readOr_cases present missing

theorem isNum_readOrZero {data : Dict String Value} {key : String}
    (present : ∀ value, data.get key = some value → Nullable value) : IsNum (readOrZero data key) :=
  isNum_orElse (nullable_readOr present (.inl rfl)) 0

theorem isNum_readOr_of_given {data : Dict String Value} {key : String} {default : Value}
    (present : ∀ value, data.get key = some value → Nullable value) (given : data.get key ≠ some .none)
    (missing : IsNum default) : IsNum (readOr data key default) := by
  apply isNum_readOr _ missing
  intro value found
  exact (present value found).resolve_left fun same => given (same ▸ found)

def barFields (bar : Bar) : List Value := [bar.open, bar.high, bar.low, bar.close, bar.volume, bar.vwap]

/-- The fields of an event but its symbol, those of a bar, what the cache
answers and the stored open price are numbers or None. -/
structure NullableInputs (stored : Option Value) (event : Dict String Value) (prevDay : Option Bar)
    (avgVolume freeFloat : Value) : Prop where
  price : ∀ value, stored = some value → Nullable value
  fields : ∀ key value, key ≠ "symbol" → event.get key = some value → Nullable value
  bars : ∀ bar, prevDay = some bar → ∀ field ∈ barFields bar, Nullable field
  average : Nullable avgVolume
  float : Nullable freeFloat

/-- What must not be None: the fields read with a default, those of the bar, the
average volume, and the open price that is stored, or else the event's. -/
structure Given (stored : Option Value) (event : Dict String Value) (prevDay : Option Bar) (avgVolume : Value) :
    Prop where
  fields : ∀ key ∈ ["accumulated_volume", "close", "volume", "vwap"], event.get key ≠ some .none
  bars : ∀ bar, prevDay = some bar → ∀ field ∈ barFields bar, field ≠ .none
  average : avgVolume ≠ .none
  price : stored ≠ some .none
  opened : stored = none → event.get "open" ≠ some .none

def Store.NullSafe (s : Store) (symbol : String) (event : Dict String Value) (snapshot : Option TickerSnapshot)
    (avgVolume freeFloat : Value) : Prop :=
  ∃ prepared, s.updateLeaderboards symbol event snapshot avgVolume freeFloat = some prepared ∧
    ∀ entry ∈ prepared.mapping.entries, encodable entry.2 = true

section

variable {symbol : String} {event : Dict String Value} {prevDay : Option Bar} {avgVolume freeFloat openPrice : Value}

theorem computeEarly_of_isNum (close : IsNum (readOr event "close" (.num 0)))
    (volume : IsNum (readOr event "accumulated_volume" (.num 0))) (average : IsNum avgVolume)
    (previous : IsNum (prevDayField prevDay Bar.close (readOr event "close" (.num 0)))) :
    ∃ early, computeEarly event prevDay avgVolume = some early ∧
      IsNum early.change ∧ IsNum early.pctChange ∧ IsNum early.relativeVolume := by
  obtain ⟨change, isChange⟩ := isNum_orZero_sub close previous
  obtain ⟨gap, isGap⟩ := isNum_orZero_percentage close previous
  obtain ⟨relative, isRelative⟩ := isNum_relativeVolumeOf volume average
  refine ⟨⟨.num change, .num gap, .num relative⟩, ?_, ⟨_, rfl⟩, ⟨_, rfl⟩, ⟨_, rfl⟩⟩
  simp only [computeEarly, isChange, isGap, isRelative, Option.bind_eq_bind, Option.bind_some, Option.pure_def]

/-- The average is compared with 0 before anything is divided by it. -/
theorem average_of_computeEarly {early : Early} (computed : computeEarly event prevDay avgVolume = some early) :
    avgVolume ≠ .none := by
  rintro rfl
  simp [computeEarly, relativeVolumeOf, Value.number?] at computed

theorem mapping_of_prepare {early : Early} {prepared : Prepared}
    (ready : prepare symbol event prevDay avgVolume freeFloat openPrice early = some prepared) :
    (∀ key ∈ ["accumulated_volume", "close", "volume", "vwap"],
        (key, readOr event key (.num 0)) ∈ prepared.mapping.entries) ∧
      ("open", openPrice) ∈ prepared.mapping.entries ∧
      ∀ bar, prevDay = some bar → ∀ field ∈ barFields bar, ∃ key, (key, field) ∈ prepared.mapping.entries := by
  simp only [prepare, Option.bind_eq_bind, Option.bind_eq_some_iff] at ready
  obtain ⟨sinceOpen, -, gain, -, same⟩ := ready
  cases same
  refine ⟨by simp, by simp, ?_⟩
  rintro bar rfl field member
  simp only [barFields, List.mem_cons, List.not_mem_nil, or_false] at member
  rcases member with rfl | rfl | rfl | rfl | rfl | rfl
  · exact ⟨"prev_day_open", by simp [prevDayField]⟩
  · exact ⟨"prev_day_high", by simp [prevDayField]⟩
  · exact ⟨"prev_day_low", by simp [prevDayField]⟩
  · exact ⟨"prev_day_close", by simp [prevDayField]⟩
  · exact ⟨"prev_day_volume", by simp [prevDayField]⟩
  · exact ⟨"prev_day_vwap", by simp [prevDayField]⟩

theorem prepare_of_isNum {early : Early} (fields : ∀ key ∈ ["accumulated_volume", "close", "volume", "vwap"],
      IsNum (readOr event key (.num 0)))
    (optional : ∀ key ∈ ["official_open_price", "high", "low", "aggregate_vwap", "average_size", "start_timestamp",
      "end_timestamp"], IsNum (readOrZero event key))
    (bars : ∀ read ∈ [Bar.close, Bar.open, Bar.high, Bar.low, Bar.volume, Bar.vwap], ∀ default, IsNum default →
      IsNum (prevDayField prevDay read default))
    (average : IsNum (avgVolume.orElse (.num 0))) (float : IsNum (freeFloat.orElse (.num 0))) (price : IsNum openPrice)
    (change : IsNum early.change) (pctChange : IsNum early.pctChange) (relative : IsNum early.relativeVolume) :
    ∃ prepared, prepare symbol event prevDay avgVolume freeFloat openPrice early = some prepared ∧
      (∀ entry ∈ prepared.mapping.entries, encodable entry.2 = true) ∧ IsNum prepared.accumulatedVolume ∧
      IsNum prepared.pctChange ∧ IsNum prepared.pctChangeSinceOpen := by
  have zero : IsNum (.num 0) := ⟨0, rfl⟩
  have close := fields "close" (by simp)
  obtain ⟨sinceOpen, isSinceOpen⟩ := isNum_orZero_sub close price
  obtain ⟨gain, isGain⟩ := isNum_orZero_percentage close price
  simp only [prepare, isSinceOpen, isGain, Option.bind_eq_bind, Option.bind_some, Option.pure_def, Option.some.injEq,
    exists_eq_left']
  refine ⟨?_, fields "accumulated_volume" (by simp), pctChange, gain, rfl⟩
  have sent : ∀ value, IsNum value → encodable value = true := fun _ => encodable_of_isNum
  have sentBar : ∀ read ∈ [Bar.close, Bar.open, Bar.high, Bar.low, Bar.volume, Bar.vwap], ∀ default, IsNum default →
      encodable (prevDayField prevDay read default) = true :=
    fun read known default number => sent _ (bars read known default number)
  simp only [List.forall_mem_cons] at fields optional
  simp [fields, optional, sent, sentBar, average, float, price, change, pctChange, relative, zero]
  exact ⟨rfl, rfl, rfl⟩

/-- Given inputs are handled: all that is computed is a number. -/
theorem prepare_of_given {stored : Option Value} (inputs : NullableInputs stored event prevDay avgVolume freeFloat)
    (fields : ∀ key ∈ ["accumulated_volume", "close", "volume", "vwap"], event.get key ≠ some .none)
    (bars : ∀ bar, prevDay = some bar → ∀ field ∈ barFields bar, field ≠ .none) (average : avgVolume ≠ .none)
    (price : IsNum openPrice) :
    ∃ early prepared, computeEarly event prevDay avgVolume = some early ∧
      prepare symbol event prevDay avgVolume freeFloat openPrice early = some prepared ∧
      (∀ entry ∈ prepared.mapping.entries, encodable entry.2 = true) ∧ IsNum prepared.accumulatedVolume ∧
      IsNum prepared.pctChange ∧ IsNum prepared.pctChangeSinceOpen := by
  have zero : IsNum (.num 0) := ⟨0, rfl⟩
  have read : ∀ key ∈ ["accumulated_volume", "close", "volume", "vwap"], IsNum (readOr event key (.num 0)) := by
    intro key member
    have other : key ≠ "symbol" := by rintro rfl; simp at member
    exact isNum_readOr_of_given (fun value => inputs.fields key value other) (fields key member) zero
  have optional : ∀ key ∈ ["official_open_price", "high", "low", "aggregate_vwap", "average_size", "start_timestamp",
      "end_timestamp"], IsNum (readOrZero event key) := by
    intro key member
    have other : key ≠ "symbol" := by rintro rfl; simp at member
    exact isNum_readOrZero fun value => inputs.fields key value other
  have number : IsNum avgVolume := inputs.average.resolve_left average
  have bar : ∀ read ∈ [Bar.close, Bar.open, Bar.high, Bar.low, Bar.volume, Bar.vwap], ∀ default, IsNum default →
      IsNum (prevDayField prevDay read default) := by
    intro read known default isDefault
    cases present : prevDay with
    | none => exact isDefault
    | some bar =>
        have field : read bar ∈ barFields bar := by
          simp only [List.mem_cons, List.not_mem_nil, or_false] at known
          rcases known with rfl | rfl | rfl | rfl | rfl | rfl <;> simp [barFields]
        exact (inputs.bars bar present _ field).resolve_left (bars bar present _ field)
  obtain ⟨early, computed, change, pctChange, relative⟩ := computeEarly_of_isNum (read "close" (by simp))
    (read "accumulated_volume" (by simp)) number (bar Bar.close (by simp) _ (read "close" (by simp)))
  obtain ⟨prepared, ready, sent⟩ := prepare_of_isNum read optional bar (isNum_orElse inputs.average 0)
    (isNum_orElse inputs.float 0) price change pctChange relative
  exact ⟨early, prepared, computed, ready, sent⟩

theorem commit_of_isNum {prepared : Prepared} (sent : ∀ entry ∈ prepared.mapping.entries, encodable entry.2 = true)
    (volume : IsNum prepared.accumulatedVolume) (gap : IsNum prepared.pctChange)
    (gain : IsNum prepared.pctChangeSinceOpen) (symbol : String) : ∃ commit, prepared.commit symbol = some commit := by
  obtain ⟨x, isVolume⟩ := volume
  obtain ⟨y, isGap⟩ := gap
  obtain ⟨z, isGain⟩ := gain
  unfold Prepared.commit pipeline
  rw [if_pos (List.all_eq_true.mpr sent), isVolume, isGap, isGain]
  exact ⟨_, rfl⟩

/-- The update is safe exactly where None does not stand in one of the places
that keep it. -/
theorem nullSafe_iff {s : Store} {snapshot : Option TickerSnapshot}
    (inputs : NullableInputs (s.openPrice symbol) event (prevDayOf snapshot) avgVolume freeFloat) :
    s.NullSafe symbol event snapshot avgVolume freeFloat ↔
      Given (s.openPrice symbol) event (prevDayOf snapshot) avgVolume := by
  constructor
  · rintro ⟨prepared, updated, sent⟩
    simp only [Store.updateLeaderboards, Option.bind_eq_bind, Option.bind_eq_some_iff] at updated
    obtain ⟨early, computed, ⟨openPrice, after⟩, asked, ready⟩ := updated
    obtain ⟨read, priced, bars⟩ := mapping_of_prepare ready
    have openSent : encodable openPrice = true := sent _ priced
    refine ⟨fun key member missing => ?_, fun bar present field member missing => ?_,
      average_of_computeEarly computed, ?_, ?_⟩
    · have field := sent _ (read key member)
      simp [readOr, missing, encodable] at field
    · obtain ⟨key, entry⟩ := bars bar present field member
      have field := sent _ entry
      rw [missing] at field
      cases field
    · intro missing
      simp [Store.getSymbolOpenPrice, missing] at asked
    · intro absent missing
      simp only [Store.getSymbolOpenPrice, absent, Option.some.injEq, Prod.mk.injEq] at asked
      rw [← asked.1, openOf, readOr, missing] at openSent
      cases openSent
  · intro given
    have price : ∃ openPrice after, s.getSymbolOpenPrice symbol event = some (openPrice, after) ∧ IsNum openPrice := by
      cases stored : s.openPrice symbol with
      | none =>
          refine ⟨openOf event, _, by rw [Store.getSymbolOpenPrice, stored], ?_⟩
          apply isNum_readOr_of_given (fun value => inputs.fields "open" value (by decide)) (given.opened stored)
          exact isNum_readOr_of_given (fun value => inputs.fields "close" value (by decide))
            (given.fields "close" (by simp)) ⟨0, rfl⟩
      | some value =>
          obtain ⟨price, rfl⟩ := (inputs.price value stored).resolve_left fun missing => given.price (missing ▸ stored)
          exact ⟨.num price, s, by rw [Store.getSymbolOpenPrice, stored], price, rfl⟩
    obtain ⟨openPrice, after, asked, number⟩ := price
    obtain ⟨early, prepared, computed, ready, sent, -⟩ :=
      @prepare_of_given symbol _ _ _ _ _ _ inputs given.fields given.bars given.average number
    exact ⟨prepared, by simp [Store.updateLeaderboards, computed, asked, ready], sent⟩

end

/-- An event of one symbol with a close, all its other fields missing. -/
def closing (close : Value) : Dict String Value where
  entries := [("symbol", .str "AAPL"), ("close", close)]
  unique := show ["symbol", "close"].Nodup by decide

def yesterday : Bar where
  «open» := .num 9
  high := .num 11
  low := .num 8
  close := .num 10
  volume := .num 500
  vwap := .num 10
  timestamp := .none
  transactions := .none
  otc := .none

def barSnapshot (bar : Bar) : TickerSnapshot := { Processor.bareSnapshot with prevDay := some bar }

theorem nullableInputs_closing {close : Value} (nullable : Nullable close) :
    NullableInputs none (closing close) (some yesterday) (.num 0) .none := by
  refine ⟨nofun, ?_, ?_, .inr ⟨0, rfl⟩, .inl rfl⟩
  · intro key value other found
    rw [Dict.get_eq_some_iff] at found
    simp only [closing, List.mem_cons, Prod.mk.injEq, List.not_mem_nil, or_false] at found
    rcases found with ⟨rfl, -⟩ | ⟨-, rfl⟩
    · exact absurd rfl other
    · exact nullable
  · rintro _ ⟨⟩ field member
    simp only [barFields, yesterday, List.mem_cons, List.not_mem_nil, or_false] at member
    rcases member with rfl | rfl | rfl | rfl | rfl | rfl <;> exact .inr ⟨_, rfl⟩

/-- A close of None is subtracted from. -/
theorem nullSafe_none :
    NullableInputs (Store.fresh.openPrice "AAPL") (closing .none) (prevDayOf (some (barSnapshot yesterday)))
        (.num 0) .none ∧
      Store.fresh.updateLeaderboards "AAPL" (closing .none) (some (barSnapshot yesterday)) (.num 0)
        .none = none ∧
      ¬Store.fresh.NullSafe "AAPL" (closing .none) (some (barSnapshot yesterday)) (.num 0) .none := by
  have raises : Store.fresh.updateLeaderboards "AAPL" (closing .none) (some (barSnapshot yesterday))
      (.num 0) .none = none := rfl
  refine ⟨nullableInputs_closing (.inl rfl), raises, ?_⟩
  rintro ⟨prepared, updated, -⟩
  rw [raises] at updated
  cases updated

theorem nullSafe_ten :
    Store.fresh.NullSafe "AAPL" (closing (.num 10)) (some (barSnapshot yesterday)) (.num 0) .none := by
  refine (nullSafe_iff (nullableInputs_closing (.inr ⟨10, rfl⟩))).mpr ⟨?_, ?_, nofun, nofun, fun _ => nofun⟩
  · intro key member
    simp only [List.mem_cons, List.not_mem_nil, or_false] at member
    rcases member with rfl | rfl | rfl | rfl <;> exact nofun
  · rintro _ ⟨⟩ field member
    simp only [barFields, yesterday, List.mem_cons, List.not_mem_nil, or_false] at member
    rcases member with rfl | rfl | rfl | rfl | rfl | rfl <;> exact nofun

end KuhlHausMdp.LeaderboardAnalyzer
