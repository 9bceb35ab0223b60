import KuhlHausMdp.DailyRangeAnalyzer.Rehydrate
import KuhlHausMdp.DailyRangeAnalyzer.Alerts

/-! A restart during the trading day: for the symbols already ticked, an
analyzer that rehydrates goes on as the one before it would have. -/

set_option autoImplicit false

namespace KuhlHausMdp.DailyRangeAnalyzer

def stateKey (symbol : String) : String := WidgetDataCacheKeys.DAILY_RANGE ++ ":" ++ symbol

def dayBoundaryKey : String := "daily_range:day_boundary"

def statePayload (self : DailyRangeAnalyzer) (symbol : String) (quote : Quote) : Payload where
  data := (self.stateResult symbol quote).data
  numeric session direction := by
    rw [read, get_stateResult]
    cases (self.extremes session direction).get symbol with
    | none => exact .inl rfl
    | some value => exact .inr ⟨value, rfl⟩

/-- A reset stores the day boundary. -/
def afterScript (redis : Redis) (tick : Tick) : Redis :=
  if tick.reset = some true then Function.update redis dayBoundaryKey (some .other) else redis

/-- What a tick leaves in Redis: the script runs, and the state that is
returned is written under its key. -/
def written (self : DailyRangeAnalyzer) (redis : Redis) (tick : Tick) : Redis :=
  match tick.quote.symbol with
  | none => redis
  | some symbol =>
      if (analyzeData self tick).1.results.isSome then
        Function.update (afterScript redis tick) (stateKey symbol)
          (some (.state ((analyzeData self tick).2.statePayload symbol tick.quote)))
      else afterScript redis tick

def redisAfter (self : DailyRangeAnalyzer) (redis : Redis) : List Tick → Redis
  | [] => redis
  | tick :: rest => redisAfter (analyzeData self tick).2 (written self redis tick) rest

def sessions (self : DailyRangeAnalyzer) : List Tick → List (Option Session)
  | [] => []
  | tick :: rest => (self.getSession tick).1 :: sessions (analyzeData self tick).2 rest

def Tick.Named (tick : Tick) : Prop :=
  ∀ symbol, tick.quote.symbol = some symbol → read tick.quote.data "symbol" = .str symbol

/-- A tick of the symbol was handled, so that its state was written. -/
def Ticked (self : DailyRangeAnalyzer) (symbol : String) (ticks : List Tick) : Prop :=
  ∃ early tick late, ticks = early ++ tick :: late ∧ tick.quote.symbol = some symbol ∧
    (analyzeData (run self early) tick).1.results.isSome

theorem stateKey_inj {first second : String} (same : stateKey first = stateKey second) : first = second :=
  (String.append_right_inj _).mp same

/-! What stays in Redis for a restart. -/

def Filed (redis : Redis) : Prop :=
  ∀ symbol payload, restorableAt redis (stateKey symbol) = some payload → payload.symbol = symbol

/-- The state stored for a symbol shows the extremes of the analyzer. -/
def Persisted (symbol : String) (self : DailyRangeAnalyzer) (redis : Redis) : Prop :=
  restorableAt redis (stateKey symbol) = some ⟨symbol, fun session direction => (self.extremes session direction).get symbol⟩

def Within (current : Session) (self : DailyRangeAnalyzer) : Prop :=
  ∀ session direction symbol, session ∉ elapsed current → (self.extremes session direction).get symbol = none

theorem symbol_ne_empty {quote : Quote} {symbol : String} (isSymbol : quote.symbol = some symbol) : symbol ≠ "" := by
  intro empty
  unfold Quote.symbol at isSymbol
  split at isSymbol
  case h_1 text _ =>
    by_cases none : text = ""
    · simp [none] at isSymbol
    · rw [if_neg none, Option.some.injEq] at isSymbol
      exact none (isSymbol.trans empty)
  case h_2 => cases isSymbol

theorem read_statePayload (self : DailyRangeAnalyzer) (symbol : String) (quote : Quote) :
    read (self.statePayload symbol quote).data "symbol" = read quote.data "symbol" := by
  have apart : "symbol" ∉ (self.sixFields symbol).map Prod.fst := by
    simp [sixFields, fieldName]
  simp only [read, statePayload, stateResult]
  rw [Dict.get_update_of_notMem _ _ _ apart]

theorem field_statePayload (self : DailyRangeAnalyzer) (symbol : String) (quote : Quote) (session : Session)
    (direction : Direction) :
    (self.statePayload symbol quote).field session direction = (self.extremes session direction).get symbol := by
  have stored : read (self.statePayload symbol quote).data (fieldName session direction) =
      priceValue ((self.extremes session direction).get symbol) := by
    simp only [read, statePayload]
    rw [get_stateResult, Option.getD_some]
  rw [Payload.field, stored]
  cases (self.extremes session direction).get symbol <;> rfl

def payloadName (quote : Quote) : Option String :=
  match read quote.data "symbol" with
  | .str symbol => if symbol = "" then none else some symbol
  | _ => none

theorem restorable_statePayload (self : DailyRangeAnalyzer) (symbol : String) (quote : Quote) :
    (self.statePayload symbol quote).restorable = (payloadName quote).map fun name =>
      ⟨name, fun session direction => (self.extremes session direction).get symbol⟩ := by
  have fields : (self.statePayload symbol quote).field = fun session direction =>
      (self.extremes session direction).get symbol :=
    funext fun session => funext (field_statePayload self symbol quote session)
  rw [Payload.restorable, read_statePayload, payloadName, fields]
  cases read quote.data "symbol" with
  | str text => by_cases empty : text = "" <;> simp [empty]
  | _ => rfl

theorem payloadName_eq_some_iff {quote : Quote} {symbol : String} (isSymbol : quote.symbol = some symbol) :
    payloadName quote = some symbol ↔ read quote.data "symbol" = .str symbol := by
  have nonempty := symbol_ne_empty isSymbol
  unfold payloadName
  constructor
  · intro named
    split at named
    case h_1 text found =>
      split at named
      · cases named
      · cases named
        exact found
    case h_2 => cases named
  · intro found
    rw [found]
    exact if_neg nonempty

theorem statePayload_restorable (self : DailyRangeAnalyzer) {tick : Tick} (named : tick.Named) {symbol : String}
    (isSymbol : tick.quote.symbol = some symbol) :
    (self.statePayload symbol tick.quote).restorable =
      some ⟨symbol, fun session direction => (self.extremes session direction).get symbol⟩ := by
  rw [restorable_statePayload, (payloadName_eq_some_iff isSymbol).mpr (named symbol isSymbol)]
  rfl

theorem recordOf_some {self : DailyRangeAnalyzer} {tick : Tick} {record : Record}
    (handled : recordOf self tick = some record) :
    tick.quote.symbol = some record.symbol ∧ tick.reset = some record.reset ∧ record.counted = counted self tick := by
  unfold recordOf at handled
  split at handled
  case h_1 symbol reset named answered =>
    cases handled
    exact ⟨named, answered, rfl⟩
  case h_2 => cases handled

theorem analyzeData_answer {self : DailyRangeAnalyzer} {tick : Tick} {symbol : String} {reset : Bool}
    (named : tick.quote.symbol = some symbol) (answered : tick.reset = some reset) :
    (analyzeData self tick).1 =
      match ((self.checkDayBoundary reset).updateSessionHodLod symbol tick).1 with
      | none => .raised
      | some alerts =>
          .returned (some (((self.checkDayBoundary reset).updateSessionHodLod symbol tick).2.stateResult symbol
            tick.quote :: alerts)) := by
  simp only [analyzeData, named, answered]
  split
  case h_1 raised => rw [raised]
  case h_2 returned => rw [returned]

theorem answer_of_handled {self : DailyRangeAnalyzer} {tick : Tick} {record : Record}
    (handled : recordOf self tick = some record) :
    (analyzeData self tick).1.results.isSome = true ∨
      (analyzeData self tick).1.results = none ∧ record.counted = none := by
  obtain ⟨named, answered, isCounted⟩ := recordOf_some handled
  rw [analyzeData_answer named answered]
  split
  case h_1 raised =>
    have uncounted := updateSessionHodLod_raised raised
    rw [counted_checkDayBoundary] at uncounted
    exact .inr ⟨rfl, isCounted.trans uncounted⟩
  case h_2 alerts updated => exact .inl rfl

theorem restorableAt_update (redis : Redis) (key other : String) (stored : Stored) :
    restorableAt (Function.update redis key (some stored)) other =
      if other = key then (match stored with | .state payload => payload.restorable | .other => none)
      else restorableAt redis other := by
  by_cases same : other = key
  · subst same
    cases stored <;> simp [restorableAt]
  · simp [restorableAt, same]

theorem restorableAt_written {self : DailyRangeAnalyzer} {redis : Redis} {tick : Tick} (named : tick.Named)
    (symbol : String) :
    restorableAt (written self redis tick) (stateKey symbol) =
      if tick.quote.symbol = some symbol ∧ (analyzeData self tick).1.results.isSome then
        some ⟨symbol, fun session direction => ((analyzeData self tick).2.extremes session direction).get symbol⟩
      else if tick.quote.symbol.isSome ∧ tick.reset = some true ∧ stateKey symbol = dayBoundaryKey then none
      else restorableAt redis (stateKey symbol) := by
  have script : restorableAt (afterScript redis tick) (stateKey symbol) =
      if tick.reset = some true ∧ stateKey symbol = dayBoundaryKey then none else restorableAt redis (stateKey symbol) := by
    unfold afterScript
    by_cases reset : tick.reset = some true
    · simp only [reset, if_true, restorableAt_update, true_and]
    · simp only [reset, if_false, false_and]
  unfold written
  cases isSymbol : tick.quote.symbol with
  | none => simp
  | some own =>
      cases answered : (analyzeData self tick).1.results.isSome with
      | false => simp [script]
      | true =>
          simp only [if_true, restorableAt_update, and_true, Option.isSome_some, true_and]
          by_cases same : own = symbol
          · subst same
            simp only [if_true]
            exact statePayload_restorable _ named isSymbol
          · have apart : stateKey symbol ≠ stateKey own := fun equal => same (stateKey_inj equal).symm
            simp only [Option.some.injEq, same, apart, if_false, script]

theorem Filed.step {self : DailyRangeAnalyzer} {redis : Redis} (filed : Filed redis) {tick : Tick} (named : tick.Named) :
    Filed (written self redis tick) := by
  intro symbol payload found
  rw [restorableAt_written named] at found
  split at found
  case isTrue => cases found; rfl
  case isFalse =>
    split at found
    case isTrue => cases found
    case isFalse => exact filed symbol payload found

theorem Persisted.of_answered {self : DailyRangeAnalyzer} {redis : Redis} {tick : Tick} (named : tick.Named)
    {symbol : String} (isSymbol : tick.quote.symbol = some symbol)
    (answered : (analyzeData self tick).1.results.isSome) :
    Persisted symbol (analyzeData self tick).2 (written self redis tick) := by
  rw [Persisted, restorableAt_written named, if_pos ⟨isSymbol, answered⟩]

/-- Without a reset, a tick changes what is persisted of a symbol only with the state itself. -/
theorem Persisted.step {symbol : String} {self : DailyRangeAnalyzer} {redis : Redis}
    (persisted : Persisted symbol self redis) {tick : Tick} (named : tick.Named) (kept : tick.reset ≠ some true) :
    Persisted symbol (analyzeData self tick).2 (written self redis tick) := by
  by_cases own : tick.quote.symbol = some symbol ∧ (analyzeData self tick).1.results.isSome
  · exact .of_answered named own.1 own.2
  · rw [Persisted, restorableAt_written named, if_neg own, if_neg fun reset => kept reset.2.1, persisted]
    -- the symbol's values are those of before the tick
    cases handled : recordOf self tick with
    | none => rw [analyzeData_unhandled handled]
    | some record =>
        obtain ⟨isSymbol, answered, isCounted⟩ := recordOf_some handled
        have noReset : record.reset = false := by
          cases reset : record.reset with
          | false => rfl
          | true => exact absurd (answered.trans (congrArg some reset)) kept
        congr 2
        funext session direction
        have uncounted : record.price symbol session direction = none := by
          by_cases same : record.symbol = symbol
          · rcases answer_of_handled handled with returned | ⟨_, nothing⟩
            · exact absurd ⟨same ▸ isSymbol, returned⟩ own
            · simp [Record.price, nothing]
          · simp [Record.price, same]
        rw [get_analyzeData handled, uncounted, noReset]
        rfl

theorem Persisted.run {symbol : String} {self : DailyRangeAnalyzer} {redis : Redis}
    (persisted : Persisted symbol self redis) {ticks : List Tick} (named : ∀ tick ∈ ticks, tick.Named)
    (kept : ∀ tick ∈ ticks, tick.reset ≠ some true) : Persisted symbol (run self ticks) (redisAfter self redis ticks) := by
  induction ticks generalizing self redis with
  | nil => exact persisted
  | cons tick rest ih =>
      rw [List.forall_mem_cons] at named kept
      exact ih (persisted.step named.1 kept.1) named.2 kept.2

theorem Filed.run {self : DailyRangeAnalyzer} {redis : Redis} (filed : Filed redis) {ticks : List Tick}
    (named : ∀ tick ∈ ticks, tick.Named) : Filed (redisAfter self redis ticks) := by
  induction ticks generalizing self redis with
  | nil => exact filed
  | cons tick rest ih =>
      rw [List.forall_mem_cons] at named
      exact ih (filed.step named.1) named.2

theorem run_append (self : DailyRangeAnalyzer) (early late : List Tick) :
    run self (early ++ late) = run (run self early) late := by
  induction early generalizing self with
  | nil => rfl
  | cons tick rest ih => exact ih (analyzeData self tick).2

theorem redisAfter_append (self : DailyRangeAnalyzer) (redis : Redis) (early late : List Tick) :
    redisAfter self redis (early ++ late) = redisAfter (run self early) (redisAfter self redis early) late := by
  induction early generalizing self redis with
  | nil => rfl
  | cons tick rest ih => exact ih (analyzeData self tick).2 (written self redis tick)

theorem Persisted.of_ticked {self : DailyRangeAnalyzer} (redis : Redis) {symbol : String} {ticks : List Tick}
    (ticked : Ticked self symbol ticks) (named : ∀ tick ∈ ticks, tick.Named)
    (oneDay : ∀ tick ∈ ticks.tail, tick.reset ≠ some true) :
    Persisted symbol (DailyRangeAnalyzer.run self ticks) (redisAfter self redis ticks) := by
  obtain ⟨early, tick, late, rfl, isSymbol, answered⟩ := ticked
  have after : ∀ other ∈ late, other ∈ (early ++ tick :: late).tail := by
    intro other member
    cases early with
    | nil => exact member
    | cons first rest => simp [member]
  rw [run_append, redisAfter_append]
  exact (Persisted.of_answered (named tick (by simp)) isSymbol answered).run
    (fun other member => named other (by simp [member])) fun other member => oneDay other (after other member)

theorem Within.step {current : Session} {self : DailyRangeAnalyzer} (within : self.Within current) {tick : Tick}
    (seen : ∀ session, (self.getSession tick).1 = some session → session ∈ elapsed current) :
    (analyzeData self tick).2.Within current := by
  intro session direction symbol later
  cases handled : recordOf self tick with
  | none =>
      rw [analyzeData_unhandled handled]
      exact within session direction symbol later
  | some record =>
      obtain ⟨_, _, isCounted⟩ := recordOf_some handled
      have uncounted : record.price symbol session direction = none := by
        simp only [Record.price, isCounted, counted]
        split
        · split
          case h_1 now high low time found _ _ _ =>
            have apart : now ≠ session := fun same => later (same ▸ seen now found)
            simp [apart]
          case h_2 => rfl
        · rfl
      rw [get_analyzeData handled, uncounted]
      cases record.reset with
      | true => rfl
      | false => exact within session direction symbol later

theorem Within.run {current : Session} {self : DailyRangeAnalyzer} (within : self.Within current) {ticks : List Tick}
    (seen : ∀ session, some session ∈ sessions self ticks → session ∈ elapsed current) :
    (run self ticks).Within current := by
  induction ticks generalizing self with
  | nil => exact within
  | cons tick rest ih =>
      refine ih (within.step fun session found => seen session ?_) fun session member => seen session ?_
      · exact List.mem_cons.mpr (.inl found.symm)
      · exact List.mem_cons_of_mem _ member

/-! Two analyzers that hold the same values of a symbol. -/

structure Agree (symbol : String) (first second : DailyRangeAnalyzer) : Prop where
  limit : first.draCacheListMax = second.draCacheListMax
  value : ∀ session direction,
    (first.extremes session direction).get symbol = (second.extremes session direction).get symbol

section
variable {symbol : String} {first second : DailyRangeAnalyzer}

theorem computeNote_congr (agree : Agree symbol first second) (session : Session) (direction : Direction) (price : ℚ) :
    first.computeNote symbol session direction price = second.computeNote symbol session direction price := by
  simp only [computeNote, agree.value]

theorem draCacheListMax_track (self : DailyRangeAnalyzer) (symbol : String) (session : Session) (direction : Direction)
    (price timestamp : ℚ) (quote : Quote) :
    (self.track symbol session direction price timestamp quote).2.draCacheListMax = self.draCacheListMax := by
  unfold track
  split
  · rfl
  · split <;> rfl

theorem Agree.track (agree : Agree symbol first second) (session : Session) (direction : Direction) (price timestamp : ℚ)
    (quote : Quote) :
    (first.track symbol session direction price timestamp quote).1 =
        (second.track symbol session direction price timestamp quote).1 ∧
      Agree symbol (first.track symbol session direction price timestamp quote).2
        (second.track symbol session direction price timestamp quote).2 := by
  constructor
  · simp only [DailyRangeAnalyzer.track, agree.value]
    split
    case h_1 => rfl
    case h_2 previous found =>
      split
      case isTrue => simp only [makeAlert, computeNote_congr agree, agree.limit]
      case isFalse => rfl
  · refine ⟨?_, fun s d => ?_⟩
    · rw [draCacheListMax_track, draCacheListMax_track, agree.limit]
    · rw [get_track, get_track, agree.value, agree.value]

theorem draCacheListMax_getSession (self : DailyRangeAnalyzer) (tick : Tick) :
    (self.getSession tick).2.draCacheListMax = self.draCacheListMax := by
  unfold getSession getMarketStatus
  split
  · rfl
  · split <;> rfl

theorem Agree.getSession (agree : Agree symbol first second) (tick : Tick) :
    Agree symbol (first.getSession tick).2 (second.getSession tick).2 where
  limit := by rw [draCacheListMax_getSession, draCacheListMax_getSession, agree.limit]
  value session direction := by rw [extremes_getSession, extremes_getSession, agree.value]

theorem Agree.updateSessionHodLod (agree : Agree symbol first second) {tick : Tick}
    (sameSession : (first.getSession tick).1 = (second.getSession tick).1) :
    (first.updateSessionHodLod symbol tick).1 = (second.updateSessionHodLod symbol tick).1 ∧
      Agree symbol (first.updateSessionHodLod symbol tick).2 (second.updateSessionHodLod symbol tick).2 := by
  have asked := agree.getSession tick
  simp only [DailyRangeAnalyzer.updateSessionHodLod, sameSession]
  split
  case h_1 session high low _ _ _ =>
    cases timestampOf tick with
    | none => exact ⟨rfl, asked⟩
    | some timestamp =>
        obtain ⟨highs, between⟩ := asked.track session .high high timestamp tick.quote
        obtain ⟨lows, after⟩ := between.track session .low low timestamp tick.quote
        exact ⟨congrArg some (congrArg₂ (· ++ ·) highs lows), after⟩
  case h_2 => exact ⟨rfl, asked⟩

theorem Agree.checkDayBoundary (agree : Agree symbol first second) (reset : Bool) :
    Agree symbol (first.checkDayBoundary reset) (second.checkDayBoundary reset) := by
  cases reset with
  | true => exact ⟨agree.limit, fun _ _ => rfl⟩
  | false => exact agree

theorem Agree.stateResult (agree : Agree symbol first second) (quote : Quote) :
    first.stateResult symbol quote = second.stateResult symbol quote := by
  simp only [DailyRangeAnalyzer.stateResult, sixFields, agree.value]

theorem draCacheListMax_updateSessionHodLod (self : DailyRangeAnalyzer) (symbol : String) (tick : Tick) :
    (self.updateSessionHodLod symbol tick).2.draCacheListMax = self.draCacheListMax := by
  rcases updateSessionHodLod_cases self symbol tick with ⟨-, kept, -⟩ | ⟨now, price, timestamp, -, tracked⟩
  · rw [kept, draCacheListMax_getSession]
  · rw [tracked, draCacheListMax_track, draCacheListMax_track, draCacheListMax_getSession]

theorem draCacheListMax_analyzeData (self : DailyRangeAnalyzer) (tick : Tick) :
    (analyzeData self tick).2.draCacheListMax = self.draCacheListMax := by
  cases handled : recordOf self tick with
  | none => rw [analyzeData_unhandled handled]
  | some record =>
      obtain ⟨named, answered, _⟩ := recordOf_some handled
      rw [analyzeData_handled named answered, draCacheListMax_updateSessionHodLod]
      cases record.reset <;> rfl

/-- Two analyzers that agree on a symbol answer its ticks alike and go on agreeing. -/
theorem Agree.analyzeData (agree : Agree symbol first second) {tick : Tick}
    (sameSession : (first.getSession tick).1 = (second.getSession tick).1) :
    (tick.quote.symbol = some symbol →
      (DailyRangeAnalyzer.analyzeData first tick).1 = (DailyRangeAnalyzer.analyzeData second tick).1) ∧
      Agree symbol (DailyRangeAnalyzer.analyzeData first tick).2 (DailyRangeAnalyzer.analyzeData second tick).2 := by
  constructor
  · intro isSymbol
    cases answered : tick.reset with
    | none => simp only [DailyRangeAnalyzer.analyzeData, isSymbol, answered]
    | some reset =>
        have sameNow : ((first.checkDayBoundary reset).getSession tick).1 =
            ((second.checkDayBoundary reset).getSession tick).1 := by
          rw [getSession_checkDayBoundary, getSession_checkDayBoundary, sameSession]
        obtain ⟨alerts, after⟩ := (agree.checkDayBoundary reset).updateSessionHodLod sameNow
        rw [analyzeData_answer isSymbol answered, analyzeData_answer isSymbol answered, alerts, after.stateResult]
  · have sameRecord : recordOf first tick = recordOf second tick := by
      simp only [recordOf, counted, sameSession]
    refine ⟨by rw [draCacheListMax_analyzeData, draCacheListMax_analyzeData, agree.limit], fun session direction => ?_⟩
    cases handled : recordOf first tick with
    | none => rw [analyzeData_unhandled handled, analyzeData_unhandled (sameRecord ▸ handled), agree.value]
    | some record => rw [get_analyzeData handled, get_analyzeData (sameRecord ▸ handled), agree.value]

theorem Agree.run (agree : Agree symbol first second) {ticks : List Tick}
    (sameSessions : sessions first ticks = sessions second ticks) :
    Agree symbol (run first ticks) (run second ticks) := by
  induction ticks generalizing first second with
  | nil => exact agree
  | cons tick rest ih =>
      obtain ⟨now, later⟩ := List.cons.inj sameSessions
      exact ih (agree.analyzeData now).2 later

end

theorem matches_stateKey {key : String} :
    Glob.Matches (WidgetDataCacheKeys.DAILY_RANGE ++ ":*") key ↔ ∃ symbol, key = stateKey symbol := by
  have tokens : Glob.tokens (WidgetDataCacheKeys.DAILY_RANGE ++ ":*").toList.length
      (WidgetDataCacheKeys.DAILY_RANGE ++ ":*").toList =
        (WidgetDataCacheKeys.DAILY_RANGE ++ ":").toList.map .char ++ [.star] := by decide
  rw [Glob.Matches, tokens, Glob.accepts_prefix_star]
  constructor
  · intro ⟨rest, same⟩
    exact ⟨String.ofList rest, by rw [stateKey, ← String.toList_inj, String.toList_append, String.toList_ofList, same]⟩
  · rintro ⟨symbol, rfl⟩
    exact ⟨symbol.toList, String.toList_append ..⟩

/-- A restarted analyzer holds what it would have held, for every symbol whose
state is up to date and whose sessions have begun. -/
theorem Agree.of_rehydrate {self : DailyRangeAnalyzer} {redis : Redis} (filed : Filed redis) {symbol : String}
    (persisted : Persisted symbol self redis) {current : Session} (within : self.Within current) {now : Tick}
    (known : ((fresh self.draCacheListMax).getSession now).1 = some current) {pages : List (List String)}
    (scanned : Scanned redis pages) : Agree symbol self (rehydrate (fresh self.draCacheListMax) now redis pages) := by
  rw [rehydrate_eq known]
  refine ⟨by rw [draCacheListMax_getSession]; rfl, fun session direction => ?_⟩
  rw [get_foldl_restore]
  by_cases begun : session ∈ elapsed current
  · have only : ∀ payload ∈ pages.flatten.filterMap (restorableAt redis), ∀ value,
        payload.provides symbol session direction = some value →
          (self.extremes session direction).get symbol = some value := by
      intro payload member value provided
      obtain ⟨key, scannedKey, found⟩ := List.mem_filterMap.mp member
      obtain ⟨other, rfl⟩ := matches_stateKey.mp (scanned.sound key scannedKey)
      have own := filed other payload found
      unfold Restorable.provides at provided
      split at provided
      case isTrue same =>
        rw [← own, same, persisted] at found
        cases found
        exact provided
      case isFalse => cases provided
    -- the scan meets the symbol's own key
    have met : ⟨symbol, fun s d => (self.extremes s d).get symbol⟩ ∈ pages.flatten.filterMap (restorableAt redis) := by
      have stored : (redis (stateKey symbol)).isSome := by
        cases found : redis (stateKey symbol) with
        | none => simp [Persisted, restorableAt, found] at persisted
        | some stored => rfl
      exact List.mem_filterMap.mpr ⟨_, scanned.complete _ (matches_stateKey.mpr ⟨symbol, rfl⟩) stored, persisted⟩
    rw [if_pos begun, show ((fresh self.draCacheListMax).extremes session direction).get symbol = none from rfl,
      Option.or_none, List.getLast?_filterMap_eq only]
    intro value held
    refine ⟨_, met, ?_⟩
    rw [Restorable.provides, if_pos rfl]
    exact held
  · rw [if_neg begun, within session direction symbol begun]
    cases direction <;> rfl

theorem analyzeData_checkDayBoundary (self : DailyRangeAnalyzer) {tick : Tick} (named : tick.quote.symbol.isSome)
    (resets : tick.reset = some true) : analyzeData (self.checkDayBoundary true) tick = analyzeData self tick := by
  obtain ⟨symbol, isSymbol⟩ := Option.isSome_iff_exists.mp named
  simp only [analyzeData, isSymbol, resets]
  rfl

/-- The day starts with empty dictionaries, or its first tick clears them. -/
def DayBegins (self : DailyRangeAnalyzer) (ticks : List Tick) : Prop :=
  (∀ session direction symbol, (self.extremes session direction).get symbol = none) ∨
    ∃ first ∈ ticks.head?, first.quote.symbol.isSome ∧ first.reset = some true

theorem within_of_dayBegins {self : DailyRangeAnalyzer} {ticks : List Tick} (begins : self.DayBegins ticks)
    (nonempty : ticks ≠ []) {current : Session}
    (seen : ∀ session, some session ∈ sessions self ticks → session ∈ elapsed current) :
    (run self ticks).Within current := by
  cases ticks with
  | nil => exact absurd rfl nonempty
  | cons first rest =>
      rcases begins with empty | ⟨_, isFirst, named, resets⟩
      · exact Within.run (fun session direction symbol _ => empty session direction symbol) seen
      · obtain rfl := Option.some.inj isFirst
        have cleared : (self.checkDayBoundary true).Within current := fun _ _ _ _ => rfl
        have sameRun : run (self.checkDayBoundary true) (first :: rest) = run self (first :: rest) := by
          rw [run, analyzeData_checkDayBoundary self named resets, run]
        have sameSessions : sessions (self.checkDayBoundary true) (first :: rest) = sessions self (first :: rest) := by
          rw [sessions, analyzeData_checkDayBoundary self named resets, getSession_checkDayBoundary, sessions]
        rw [← sameRun]
        exact cleared.run (sameSessions.symm ▸ seen)

theorem draCacheListMax_run (self : DailyRangeAnalyzer) (ticks : List Tick) :
    (run self ticks).draCacheListMax = self.draCacheListMax := by
  induction ticks generalizing self with
  | nil => rfl
  | cons tick rest ih => exact (ih _).trans (draCacheListMax_analyzeData self tick)

theorem sessions_append (self : DailyRangeAnalyzer) (early late : List Tick) :
    sessions self (early ++ late) = sessions self early ++ sessions (run self early) late := by
  induction early generalizing self with
  | nil => rfl
  | cons tick rest ih => rw [List.cons_append, sessions, ih, sessions, List.cons_append, run]

theorem length_sessions (self : DailyRangeAnalyzer) (ticks : List Tick) : (sessions self ticks).length = ticks.length := by
  induction ticks generalizing self with
  | nil => rfl
  | cons tick rest ih => rw [sessions, List.length_cons, ih, List.length_cons]

/-- After a restart at any point of the day, the ticks of every symbol ticked
before it are answered as they would have been without one. -/
theorem restart_equivalence {self : DailyRangeAnalyzer} {redis : Redis} (filed : Filed redis) {before after : List Tick}
    (begins : self.DayBegins before) (named : ∀ tick ∈ before, tick.Named)
    (oneDay : ∀ tick ∈ before.tail, tick.reset ≠ some true) {now : Tick} {current : Session}
    (known : ((fresh self.draCacheListMax).getSession now).1 = some current)
    (seen : ∀ session, some session ∈ sessions self before → session ∈ elapsed current)
    {pages : List (List String)} (scanned : Scanned (redisAfter self redis before) pages)
    (sameSessions : sessions (run self before) after =
      sessions (rehydrate (fresh self.draCacheListMax) now (redisAfter self redis before) pages) after)
    {symbol : String} (ticked : Ticked self symbol before) (early late : List Tick) (tick : Tick)
    (remaining : after = early ++ tick :: late) (isSymbol : tick.quote.symbol = some symbol) :
    (analyzeData (run (run self before) early) tick).1 =
      (analyzeData
        (run (rehydrate (fresh self.draCacheListMax) now (redisAfter self redis before) pages) early) tick).1 := by
  subst remaining
  have nonempty : before ≠ [] := by
    obtain ⟨_, _, _, split, _⟩ := ticked
    simp [split]
  have filedNow : Filed (redisAfter self redis before) := filed.run named
  have agree := Agree.of_rehydrate filedNow (.of_ticked redis ticked named oneDay)
    (within_of_dayBegins begins nonempty seen) (by rw [draCacheListMax_run]; exact known) scanned
  rw [draCacheListMax_run] at agree
  rw [sessions_append, sessions_append] at sameSessions
  obtain ⟨sameEarly, sameLate⟩ := List.append_inj sameSessions (by rw [length_sessions, length_sessions])
  exact ((agree.run sameEarly).analyzeData (List.cons.inj sameLate).1).1 isSymbol

def regularPages : List (List String) := [["daily_range:AAPL", "daily_range:day_boundary"], [], ["daily_range:AAPL"]]

theorem regularTick_scanned : Scanned (redisAfter (fresh 1000) (fun _ => none) [regularTick]) regularPages where
  complete key _ stored := by
    have answered : (analyzeData (fresh 1000) regularTick).1.results.isSome = true := by decide +kernel
    have named : regularTick.quote.symbol = some "AAPL" := rfl
    have reset : regularTick.reset = some true := rfl
    simp only [redisAfter, written, named, answered, if_true, afterScript, reset] at stored
    by_cases state : key = stateKey "AAPL"
    · subst state
      decide
    · by_cases boundary : key = dayBoundaryKey
      · subst boundary
        decide
      · simp [Function.update_of_ne state, Function.update_of_ne boundary] at stored
  sound := by decide

theorem restart_equivalence_second_tick :
    (analyzeData (run (run (fresh 1000) [regularTick]) []) risenTick).1 =
      (analyzeData (run (rehydrate (fresh 1000) regularTick
        (redisAfter (fresh 1000) (fun _ => none) [regularTick]) regularPages) []) risenTick).1 := by
  have named : regularTick.quote.symbol = some "AAPL" := rfl
  have regularSession : sessions (fresh 1000) [regularTick] = [some .regular] := by decide +kernel
  refine @restart_equivalence (fresh 1000) (fun _ => none) ?_ [regularTick] [risenTick] ?_ ?_ ?_ regularTick .regular ?_ ?_
    regularPages regularTick_scanned ?_ "AAPL" ?_ [] [] risenTick rfl rfl
  · intro symbol payload found
    cases found
  · exact .inl fun session direction symbol => rfl
  · intro tick member symbol isSymbol
    obtain rfl := List.mem_singleton.mp member
    obtain rfl := Option.some.inj (named.symm.trans isSymbol)
    rfl
  · simp
  · decide +kernel
  · intro session member
    rw [regularSession, List.mem_singleton, Option.some.injEq] at member
    subst member
    decide
  · decide +kernel
  · exact ⟨[], regularTick, [], rfl, named, by decide +kernel⟩

end KuhlHausMdp.DailyRangeAnalyzer
