import Mathlib.Algebra.Order.Ring.Rat
import Mathlib.Order.Lattice
import KuhlHausMdp.DailyRangeAnalyzer.Analyzer

/-! The six fields of a payload are the extremes over the ticks handled since
the last reset. -/

set_option autoImplicit false

namespace KuhlHausMdp.DailyRangeAnalyzer

def Answer.results : Answer → Option (List MarketDataAnalyzerResult)
  | .returned results => results
  | .raised => none

/-- What handling a tick contributes: whether it reset the day, and its session
with its high and low when it is counted. -/
structure Record where
  symbol : String
  reset : Bool
  counted : Option (Session × (Direction → ℚ))

/-- A tick is counted when the market is in a session, both prices are there
and its timestamp is a number; without one the source raises. -/
def counted (self : DailyRangeAnalyzer) (tick : Tick) : Option (Session × (Direction → ℚ)) :=
  match (self.getSession tick).1, tick.quote.price .high, tick.quote.price .low, timestampOf tick with
  | some session, some high, some low, some _ =>
      some (session, fun direction => match direction with | .high => high | .low => low)
  | _, _, _, _ => none

/-- A tick without a symbol, or on which the script raises, is not handled. -/
def recordOf (self : DailyRangeAnalyzer) (tick : Tick) : Option Record :=
  match tick.quote.symbol, tick.reset with
  | some symbol, some reset => some ⟨symbol, reset, counted self tick⟩
  | _, _ => none

def run (self : DailyRangeAnalyzer) : List Tick → DailyRangeAnalyzer
  | [] => self
  | tick :: rest => run (analyzeData self tick).2 rest

def history (self : DailyRangeAnalyzer) : List Tick → List Record
  | [] => []
  | tick :: rest => (recordOf self tick).toList ++ history (analyzeData self tick).2 rest

/-! The specification. -/

/-- The part of a history in which nothing after the first record resets. -/
def sinceReset : List Record → List Record
  | [] => []
  | record :: rest => if rest.any (·.reset) then sinceReset rest else record :: rest

def Record.price (symbol : String) (session : Session) (direction : Direction) (record : Record) : Option ℚ :=
  if record.symbol = symbol then
    record.counted.bind fun (s, price) => if s = session then some (price direction) else none
  else none

def extreme : Direction → List ℚ → Option ℚ
  | .high, prices => prices.max?
  | .low, prices => prices.min?

def extremeSinceReset (symbol : String) (session : Session) (direction : Direction) (records : List Record) :
    Option ℚ :=
  extreme direction ((sinceReset records).filterMap (Record.price symbol session direction))

theorem sinceReset_append (records : List Record) (last : Record) :
    sinceReset (records ++ [last]) = if last.reset then [last] else sinceReset records ++ [last] := by
  induction records with
  | nil => simp [sinceReset]
  | cons record rest ih =>
      simp only [List.cons_append, sinceReset, List.any_append, List.any_cons, List.any_nil, Bool.or_false,
        Bool.or_eq_true]
      cases resets : last.reset with
      | true => simpa [resets] using ih
      | false =>
          -- the last record resets nothing, so the suffix begins where it did
          by_cases later : rest.any (·.reset) = true
          · simpa [resets, later] using ih
          · simp [later]

def improved (direction : Direction) (price : ℚ) : Option ℚ → ℚ
  | none => price
  | some previous => if beats direction price previous then price else previous

theorem extreme_append (direction : Direction) (prices : List ℚ) (price : ℚ) :
    extreme direction (prices ++ [price]) = some (improved direction price (extreme direction prices)) := by
  cases prices with
  | nil => cases direction <;> rfl
  | cons first rest =>
      cases direction with
      | high =>
          simp only [extreme, List.cons_append, List.max?_cons', List.foldl_append, List.foldl_cons, List.foldl_nil,
            improved, beats, decide_eq_true_eq, Option.some.injEq]
          split
          case isTrue more => exact max_eq_right more.le
          case isFalse less => exact max_eq_left (not_lt.mp less)
      | low =>
          simp only [extreme, List.cons_append, List.min?_cons', List.foldl_append, List.foldl_cons, List.foldl_nil,
            improved, beats, decide_eq_true_eq, Option.some.injEq]
          split
          case isTrue less => exact min_eq_right less.le
          case isFalse more => exact min_eq_left (not_lt.mp more)

theorem extremeSinceReset_append (symbol : String) (session : Session) (direction : Direction)
    (records : List Record) (last : Record) :
    extremeSinceReset symbol session direction (records ++ [last]) =
      let before := if last.reset then none else extremeSinceReset symbol session direction records
      match last.price symbol session direction with
      | none => before
      | some price => some (improved direction price before) := by
  have nothing : extreme direction [] = none := by cases direction <;> rfl
  simp only [extremeSinceReset, sinceReset_append]
  cases resets : last.reset with
  | true =>
      cases counted : last.price symbol session direction with
      | none => simp [counted, nothing]
      | some price =>
          have single := extreme_append direction [] price
          rw [nothing] at single
          simpa [counted] using single
  | false =>
      cases counted : last.price symbol session direction with
      | none => simp [counted]
      | some price => simp [counted, extreme_append]

/-! What handling a tick does to the dictionaries. -/

theorem extremes_getSession (self : DailyRangeAnalyzer) (tick : Tick) :
    (self.getSession tick).2.extremes = self.extremes := by
  unfold getSession getMarketStatus
  split
  · rfl
  · split <;> rfl

theorem get_assign (self : DailyRangeAnalyzer) (symbol other : String) (session s : Session) (direction d : Direction)
    (price : ℚ) :
    ((self.assign session direction symbol price).extremes s d).get other =
      if s = session ∧ d = direction ∧ other = symbol then some price else (self.extremes s d).get other := by
  simp only [assign]
  by_cases here : s = session ∧ d = direction
  · simp [here, Dict.get_set]
  · have apart : ¬ (s = session ∧ d = direction ∧ other = symbol) := fun all => here ⟨all.1, all.2.1⟩
    simp [here, apart]

theorem get_track (self : DailyRangeAnalyzer) (symbol other : String) (session s : Session) (direction d : Direction)
    (price timestamp : ℚ) (quote : Quote) :
    ((self.track symbol session direction price timestamp quote).2.extremes s d).get other =
      if s = session ∧ d = direction ∧ other = symbol then
        some (improved direction price ((self.extremes session direction).get symbol))
      else (self.extremes s d).get other := by
  unfold track
  split
  case h_1 absent => simp [get_assign, improved, absent]
  case h_2 previous present =>
    split
    case isTrue more => simp [get_assign, improved, present, more]
    case isFalse less =>
      simp only [improved, present, less]
      split
      case isTrue here =>
        obtain ⟨rfl, rfl, rfl⟩ := here
        simpa using present
      case isFalse => rfl

/-- A tick that is not counted changes nothing, whether it raises or not; a
counted one tracks its high and then its low. -/
theorem updateSessionHodLod_cases (self : DailyRangeAnalyzer) (symbol : String) (tick : Tick) :
    (counted self tick = none ∧ (self.updateSessionHodLod symbol tick).2 = (self.getSession tick).2 ∧
        ∀ alerts, (self.updateSessionHodLod symbol tick).1 = some alerts → alerts = []) ∨
      ∃ session price timestamp, counted self tick = some (session, price) ∧
        let highs := (self.getSession tick).2.track symbol session .high (price .high) timestamp tick.quote
        let lows := highs.2.track symbol session .low (price .low) timestamp tick.quote
        self.updateSessionHodLod symbol tick = (some (highs.1 ++ lows.1), lows.2) := by
  unfold updateSessionHodLod counted
  cases session : (self.getSession tick).1 with
  | none => simp [session]
  | some now =>
      cases high : tick.quote.price .high with
      | none => simp [session]
      | some high =>
          cases low : tick.quote.price .low with
          | none => simp [session]
          | some low =>
              cases timestampOf tick with
              | none => simp [session]
              | some timestamp => exact .inr ⟨now, _, timestamp, rfl, by simp [session]⟩

/-- A counted tick improves its symbol's two extremes of its session; any other
tick changes nothing. -/
theorem get_updateSessionHodLod (self : DailyRangeAnalyzer) (symbol other : String) (tick : Tick) (s : Session)
    (d : Direction) :
    ((self.updateSessionHodLod symbol tick).2.extremes s d).get other =
      match counted self tick with
      | none => (self.extremes s d).get other
      | some (session, price) =>
          if s = session ∧ other = symbol then some (improved d (price d) ((self.extremes s d).get other))
          else (self.extremes s d).get other := by
  rcases updateSessionHodLod_cases self symbol tick with ⟨uncounted, kept, -⟩ | ⟨now, price, timestamp, isCounted, tracked⟩
  · rw [uncounted, kept, extremes_getSession]
  · simp only [tracked, isCounted, get_track, extremes_getSession]
    -- the other direction's dictionary is not touched
    by_cases here : s = now ∧ other = symbol
    · obtain ⟨rfl, rfl⟩ := here
      cases d <;> simp
    · cases d <;> simp [here]

theorem updateSessionHodLod_raised {self : DailyRangeAnalyzer} {symbol : String} {tick : Tick}
    (raised : (self.updateSessionHodLod symbol tick).1 = none) : counted self tick = none := by
  rcases updateSessionHodLod_cases self symbol tick with ⟨uncounted, -⟩ | ⟨_, _, _, -, tracked⟩
  · exact uncounted
  · rw [tracked] at raised
    cases raised

theorem getSession_checkDayBoundary (self : DailyRangeAnalyzer) (tick : Tick) (reset : Bool) :
    ((self.checkDayBoundary reset).getSession tick).1 = (self.getSession tick).1 := by
  cases reset with
  | false => rfl
  | true =>
      simp only [getSession, getMarketStatus, checkDayBoundary, if_true]
      split
      · rfl
      · split <;> rfl

theorem counted_checkDayBoundary (self : DailyRangeAnalyzer) (tick : Tick) (reset : Bool) :
    counted (self.checkDayBoundary reset) tick = counted self tick := by
  simp only [counted, getSession_checkDayBoundary]

theorem analyzeData_handled {self : DailyRangeAnalyzer} {tick : Tick} {symbol : String} {reset : Bool}
    (named : tick.quote.symbol = some symbol) (answered : tick.reset = some reset) :
    (analyzeData self tick).2 = ((self.checkDayBoundary reset).updateSessionHodLod symbol tick).2 := by
  simp only [analyzeData, named, answered]
  split
  case h_1 raised => rw [raised]
  case h_2 returned => rw [returned]

theorem analyzeData_eq_of_missing {self : DailyRangeAnalyzer} {tick : Tick} (missing : recordOf self tick = none) :
    analyzeData self tick = (.returned none, self) ∨ analyzeData self tick = (.raised, self) := by
  unfold recordOf at missing
  unfold analyzeData
  cases named : tick.quote.symbol with
  | none => exact .inl rfl
  | some symbol =>
      cases answered : tick.reset with
      | none => exact .inr rfl
      | some reset => simp [named, answered] at missing

theorem analyzeData_unhandled {self : DailyRangeAnalyzer} {tick : Tick} (missing : recordOf self tick = none) :
    (analyzeData self tick).2 = self := by
  rcases analyzeData_eq_of_missing missing with same | same <;> rw [same]

theorem get_analyzeData {self : DailyRangeAnalyzer} {tick : Tick} {record : Record}
    (handled : recordOf self tick = some record) (symbol : String) (session : Session) (direction : Direction) :
    ((analyzeData self tick).2.extremes session direction).get symbol =
      let before := if record.reset then none else (self.extremes session direction).get symbol
      match record.price symbol session direction with
      | none => before
      | some price => some (improved direction price before) := by
  unfold recordOf at handled
  split at handled
  case h_2 => cases handled
  case h_1 own reset named answered =>
    cases handled
    have cleared : ((self.checkDayBoundary reset).extremes session direction).get symbol =
        if reset then none else (self.extremes session direction).get symbol := by
      cases reset <;> rfl
    rw [analyzeData_handled named answered, get_updateSessionHodLod, counted_checkDayBoundary, cleared]
    simp only [Record.price]
    cases counted self tick with
    | none => simp
    | some entry =>
        by_cases same : own = symbol
        · by_cases here : entry.1 = session
          · simp [same, here]
          · simp [same, here, Ne.symm here]
        · simp [same, Ne.symm same]

def Tracks (self : DailyRangeAnalyzer) (records : List Record) : Prop :=
  ∀ symbol session direction,
    (self.extremes session direction).get symbol = extremeSinceReset symbol session direction records

theorem Tracks.step {self : DailyRangeAnalyzer} {records : List Record} (tracks : self.Tracks records) (tick : Tick) :
    (analyzeData self tick).2.Tracks (records ++ (recordOf self tick).toList) := by
  cases handled : recordOf self tick with
  | none =>
      rw [analyzeData_unhandled handled]
      simpa using tracks
  | some record =>
      intro symbol session direction
      rw [get_analyzeData handled, tracks, Option.toList_some, extremeSinceReset_append]

theorem Tracks.run {self : DailyRangeAnalyzer} {records : List Record} (tracks : self.Tracks records)
    (ticks : List Tick) : (run self ticks).Tracks (records ++ history self ticks) := by
  induction ticks generalizing self records with
  | nil => simpa only [history, List.append_nil, DailyRangeAnalyzer.run] using tracks
  | cons tick rest ih =>
      rw [history, ← List.append_assoc]
      exact ih (tracks.step tick)

theorem Tracks.fresh (draCacheListMax : Nat) : (fresh draCacheListMax).Tracks [] := by
  intro symbol session direction
  cases direction <;> rfl

/-! The payload. -/

theorem get_stateResult (self : DailyRangeAnalyzer) (quote : Quote) (symbol : String) (session : Session)
    (direction : Direction) :
    (self.stateResult symbol quote).data.get (fieldName session direction) =
      some (priceValue ((self.extremes session direction).get symbol)) := by
  cases session <;> cases direction <;> simp [stateResult, sixFields, Dict.update, fieldName, Dict.get_set]

theorem history_append (self : DailyRangeAnalyzer) (ticks : List Tick) (tick : Tick) :
    history self (ticks ++ [tick]) = history self ticks ++ (recordOf (run self ticks) tick).toList := by
  induction ticks generalizing self with
  | nil => simp [history, run]
  | cons first rest ih => simp only [List.cons_append, history, run, ih, List.append_assoc]

theorem results_of_returned {self : DailyRangeAnalyzer} {tick : Tick} {results : List MarketDataAnalyzerResult}
    (returned : (analyzeData self tick).1 = .returned (some results)) :
    ∃ symbol alerts, tick.quote.symbol = some symbol ∧
      results = (analyzeData self tick).2.stateResult symbol tick.quote :: alerts := by
  unfold analyzeData at returned ⊢
  split at returned
  · cases returned
  · cases returned
  case h_3 symbol reset named answered =>
    split at returned
    · cases returned
    case h_2 alerts after updated =>
      cases returned
      exact ⟨symbol, alerts, named, by simp⟩

/-- The six fields of every payload are the extremes of its symbol in the three
sessions since the last reset, whatever the quote says under these keys. -/
theorem payload_extremes (draCacheListMax : Nat) (ticks : List Tick) (tick : Tick)
    {results : List MarketDataAnalyzerResult}
    (returned : (analyzeData (run (fresh draCacheListMax) ticks) tick).1 = .returned (some results)) :
    ∃ symbol state alerts, tick.quote.symbol = some symbol ∧ results = state :: alerts ∧
      ∀ session direction, state.data.get (fieldName session direction) =
        some (priceValue (extremeSinceReset symbol session direction
          (history (fresh draCacheListMax) (ticks ++ [tick])))) := by
  obtain ⟨symbol, alerts, named, rfl⟩ := results_of_returned returned
  refine ⟨symbol, _, alerts, named, rfl, fun session direction => ?_⟩
  have tracks := (Tracks.fresh draCacheListMax).run ticks
  rw [List.nil_append] at tracks
  rw [history_append, ← tracks.step tick symbol session direction, get_stateResult]

def quoteOf (high low : ℚ) (priced : high ≠ 0 ∧ low ≠ 0) : Quote where
  data := ⟨[("symbol", .str "AAPL"), ("high", .num high), ("low", .num low), ("t", .num 1700000000000),
    ("after_hours_high", .num 999)], by simp⟩
  symbolText _ := ⟨"AAPL", rfl⟩
  priced direction := by
    cases direction with
    | high => exact .inr ⟨high, by simp [pick, read, Dict.get, Direction.name, Value.orElse, Value.truthy, priced.1]⟩
    | low => exact .inr ⟨low, by simp [pick, read, Dict.get, Direction.name, Value.orElse, Value.truthy, priced.2]⟩

def spoofingQuote : Quote := quoteOf 170 160 (by decide)

def regularTick : Tick where
  quote := spoofingQuote
  reset := some true
  monotonic := 0
  status := some ⟨.str "open", .bool false, .bool false⟩
  time := 1700000000

def risingTick : Tick := { regularTick with quote := quoteOf 175 165 (by decide), reset := some false }

def fallingTick : Tick := { regularTick with quote := quoteOf 168 150 (by decide), reset := some false }

/-- The second tick has the highest price so far, the third the lowest. -/
theorem payload_extremes_third_tick :
    ∃ state alerts, (analyzeData (run (fresh 1000) [regularTick, risingTick]) fallingTick).1 =
        .returned (some (state :: alerts)) ∧
      state.data.get "regular_session_high" = some (.num 175) ∧
      state.data.get "regular_session_low" = some (.num 150) ∧
      state.data.get "after_hours_high" = some .none := by
  obtain ⟨results, answered⟩ : ∃ results,
      (analyzeData (run (fresh 1000) [regularTick, risingTick]) fallingTick).1 = .returned (some results) := by
    have some : (analyzeData (run (fresh 1000) [regularTick, risingTick]) fallingTick).1.results.isSome = true := by
      decide +kernel
    cases answer : (analyzeData (run (fresh 1000) [regularTick, risingTick]) fallingTick).1 with
    | raised =>
        rw [answer] at some
        cases some
    | returned returned =>
        rw [answer] at some
        obtain ⟨results, same⟩ := Option.isSome_iff_exists.mp some
        exact ⟨results, congrArg _ same⟩
  obtain ⟨symbol, state, alerts, named, same, fields⟩ :=
    payload_extremes 1000 [regularTick, risingTick] fallingTick answered
  cases named
  subst same
  have highest : extremeSinceReset "AAPL" .regular .high
      (history (fresh 1000) ([regularTick, risingTick] ++ [fallingTick])) = some 175 := by decide +kernel
  have lowest : extremeSinceReset "AAPL" .regular .low
      (history (fresh 1000) ([regularTick, risingTick] ++ [fallingTick])) = some 150 := by decide +kernel
  have untouched : extremeSinceReset "AAPL" .afterHours .high
      (history (fresh 1000) ([regularTick, risingTick] ++ [fallingTick])) = none := by decide +kernel
  refine ⟨state, alerts, answered, ?_, ?_, ?_⟩
  · exact (fields .regular .high).trans (by rw [highest]; rfl)
  · exact (fields .regular .low).trans (by rw [lowest]; rfl)
  · exact (fields .afterHours .high).trans (by rw [untouched]; rfl)

end KuhlHausMdp.DailyRangeAnalyzer
