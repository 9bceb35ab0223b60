import Mathlib.Data.List.Induction
import KuhlHausMdp.Library.Since
import KuhlHausMdp.DailyRangeAnalyzer.Extremes

/-! The alerts of a run. For each symbol, session and direction they form a
chain: each one breaks the extreme that the one before it set. -/

set_option autoImplicit false

namespace KuhlHausMdp.DailyRangeAnalyzer

def Plain (tick : Tick) : Prop := ∀ key ∈ ["session", "direction", "price", "previous"], key ∉ tick.quote.data

structure Alert where
  session : Value
  direction : Value
  price : Value
  previous : Value

/-- What a client of the high or low alert channel reads in the results. -/
def alertsOf (direction : Direction) : Answer → List Alert
  | .returned (some results) => (results.filter fun result => result.cacheKey = alertKey direction).map fun result =>
      ⟨read result.data "session", read result.data "direction", read result.data "price", read result.data "previous"⟩
  | _ => []

def Alert.inSession (session : Session) (alert : Alert) : Bool :=
  match alert.session with
  | .str name => name = session.name
  | _ => false

def log (self : DailyRangeAnalyzer) : List Tick → List (Record × Answer)
  | [] => []
  | tick :: rest =>
      ((recordOf self tick).map fun record => (record, (analyzeData self tick).1)).toList ++
        log (analyzeData self tick).2 rest

/-- The counted prices of a symbol in one session and direction since the last reset. -/
def prices (symbol : String) (session : Session) (direction : Direction) (entries : List (Record × Answer)) : List ℚ :=
  (entries.since fun entry => entry.1.reset).filterMap fun entry => entry.1.price symbol session direction

def alertsFor (symbol : String) (session : Session) (direction : Direction) (entry : Record × Answer) : List Alert :=
  if entry.1.symbol = symbol then (alertsOf direction entry.2).filter (Alert.inSession session) else []

/-- The alerts of a symbol in one session and direction since the last reset. -/
def chain (symbol : String) (session : Session) (direction : Direction) (entries : List (Record × Answer)) :
    List Alert :=
  (entries.since fun entry => entry.1.reset).flatMap (alertsFor symbol session direction)

theorem log_append (self : DailyRangeAnalyzer) (ticks : List Tick) (tick : Tick) :
    log self (ticks ++ [tick]) =
      log self ticks ++
        ((recordOf (run self ticks) tick).map fun record => (record, (analyzeData (run self ticks) tick).1)).toList := by
  induction ticks generalizing self with
  | nil => simp [log, run]
  | cons first rest ih => simp only [List.cons_append, log, run, ih, List.append_assoc]

theorem map_fst_log (self : DailyRangeAnalyzer) (ticks : List Tick) :
    (log self ticks).map Prod.fst = history self ticks := by
  induction ticks generalizing self with
  | nil => rfl
  | cons tick rest ih =>
      rw [log, history, List.map_append, ih]
      cases recordOf self tick <;> rfl

theorem sinceReset_eq (records : List Record) : sinceReset records = records.since fun record => record.reset := by
  induction records with
  | nil => rfl
  | cons record rest ih => rw [sinceReset, List.since, ih]

theorem extremeSinceReset_log (self : DailyRangeAnalyzer) (ticks : List Tick) (symbol : String) (session : Session)
    (direction : Direction) :
    extremeSinceReset symbol session direction (history self ticks) =
      extreme direction (prices symbol session direction (log self ticks)) := by
  rw [extremeSinceReset, sinceReset_eq, ← map_fst_log, List.since_map, List.filterMap_map]
  rfl

/-! What one tick returns. -/

theorem stateKey_ne_alertKey (symbol : String) (direction : Direction) :
    WidgetDataCacheKeys.DAILY_RANGE ++ ":" ++ symbol ≠ alertKey direction := by
  intro same
  have heads := congrArg (fun key => key.toList.take 12) same
  simp only [String.toList_append, List.append_assoc] at heads
  cases direction <;> revert heads <;> exact (nomatch ·)

theorem alertKey_inj {first second : Direction} (same : alertKey first = alertKey second) : first = second := by
  cases first <;> cases second <;> first | rfl | exact absurd same (by decide)

theorem read_makeAlert (self : DailyRangeAnalyzer) (symbol : String) (session : Session) (direction : Direction)
    (price previous timestamp : ℚ) {tick : Tick} (plain : Plain tick) :
    let data := (self.makeAlert symbol session direction price previous timestamp tick.quote).data
    read data "session" = .str session.name ∧ read data "direction" = .str direction.name ∧
      read data "price" = .num price ∧ read data "previous" = .num previous := by
  have kept : ∀ key ∈ ["session", "direction", "price", "previous"], ∀ own : Dict String Value,
      (own.update tick.quote.data.entries).get key = own.get key :=
    fun key own data => Dict.get_update_of_notMem data _ key (plain key own)
  simp only [read, makeAlert]
  refine ⟨?_, ?_, ?_, ?_⟩ <;> rw [kept _ (by simp)] <;> simp [Dict.update, Dict.get_set]

theorem alertsOf_track (self : DailyRangeAnalyzer) (symbol : String) (session : Session) (direction d : Direction)
    (price timestamp : ℚ) {tick : Tick} (plain : Plain tick) :
    alertsOf d (.returned (some (self.track symbol session direction price timestamp tick.quote).1)) =
      if direction = d then
        match (self.extremes session direction).get symbol with
        | none => []
        | some previous =>
            if beats direction price previous then
              [⟨.str session.name, .str direction.name, .num price, .num previous⟩]
            else []
      else [] := by
  unfold track
  cases stored : (self.extremes session direction).get symbol with
  | none => simp [alertsOf]
  | some previous =>
      by_cases more : beats direction price previous = true
      · obtain ⟨inSession, inDirection, now, before⟩ :=
          read_makeAlert self symbol session direction price previous timestamp plain
        by_cases here : direction = d
        · subst here
          have ownKey : (self.makeAlert symbol session direction price previous timestamp tick.quote).cacheKey =
              alertKey direction := rfl
          simp [alertsOf, more, ownKey, inSession, inDirection, now, before]
        · have apart : alertKey direction ≠ alertKey d := fun same => here (alertKey_inj same)
          simp [alertsOf, more, here, makeAlert, apart]
      · simp [alertsOf, more]

theorem alertsOf_append (direction : Direction) (first second : List MarketDataAnalyzerResult) :
    alertsOf direction (.returned (some (first ++ second))) =
      alertsOf direction (.returned (some first)) ++ alertsOf direction (.returned (some second)) := by
  simp [alertsOf]

theorem alertsOf_updateSessionHodLod (self : DailyRangeAnalyzer) (symbol : String) (d : Direction) {tick : Tick}
    (plain : Plain tick) {alerts : List MarketDataAnalyzerResult}
    (updated : (self.updateSessionHodLod symbol tick).1 = some alerts) :
    alertsOf d (.returned (some alerts)) =
      match counted self tick with
      | none => []
      | some (session, price) =>
          match (self.extremes session d).get symbol with
          | none => []
          | some previous =>
              if beats d (price d) previous then
                [⟨.str session.name, .str d.name, .num (price d), .num previous⟩]
              else [] := by
  rcases updateSessionHodLod_cases self symbol tick with ⟨uncounted, -, quiet⟩ | ⟨now, price, timestamp, isCounted, tracked⟩
  · rw [uncounted, quiet alerts updated]
    rfl
  · rw [tracked, Option.some.injEq] at updated
    subst updated
    rw [isCounted, alertsOf_append, alertsOf_track _ _ _ _ _ _ _ plain, alertsOf_track _ _ _ _ _ _ _ plain]
    -- tracking the high leaves the dictionary of lows alone
    cases d <;> simp [get_track, extremes_getSession]

theorem name_inj {first second : Session} (same : first.name = second.name) : first = second := by
  cases first <;> cases second <;> first | rfl | exact absurd same (by decide)

theorem alertsFor_handled (self : DailyRangeAnalyzer) {tick : Tick} (plain : Plain tick) {record : Record}
    (handled : recordOf self tick = some record) (symbol : String) (session : Session) (direction : Direction) :
    alertsFor symbol session direction (record, (analyzeData self tick).1) =
      match record.price symbol session direction with
      | none => []
      | some price =>
          match ((self.checkDayBoundary record.reset).extremes session direction).get symbol with
          | none => []
          | some previous =>
              if beats direction price previous then
                [⟨.str session.name, .str direction.name, .num price, .num previous⟩]
              else [] := by
  unfold recordOf at handled
  split at handled
  case h_2 => cases handled
  case h_1 named reset isNamed answered =>
    cases handled
    simp only [alertsFor, Record.price]
    by_cases same : named = symbol
    · subst same
      simp only [if_true, analyzeData, isNamed, answered]
      split
      case h_1 raised =>
        have uncounted := updateSessionHodLod_raised (congrArg Prod.fst raised)
        rw [counted_checkDayBoundary] at uncounted
        simp [uncounted, alertsOf]
      case h_2 alerts after updated =>
        have own := alertsOf_updateSessionHodLod _ named direction plain (congrArg Prod.fst updated)
        -- the state itself is published under another key
        have state : alertsOf direction (.returned (some (after.stateResult named tick.quote :: alerts))) =
            alertsOf direction (.returned (some alerts)) := by
          simp [alertsOf, stateResult, stateKey_ne_alertKey]
        rw [state, own, counted_checkDayBoundary]
        cases counted self tick with
        | none => rfl
        | some entry =>
            obtain ⟨now, price⟩ := entry
            by_cases here : now = session
            · subst here
              simp only [Option.bind_some, if_true]
              cases ((self.checkDayBoundary reset).extremes now direction).get named with
              | none => rfl
              | some previous =>
                  by_cases more : beats direction (price direction) previous <;> simp [more, Alert.inSession]
            · have apart : now.name ≠ session.name := fun same => here (name_inj same)
              simp only [Option.bind_some, here, if_false]
              cases ((self.checkDayBoundary reset).extremes now direction).get named with
              | none => rfl
              | some previous =>
                  by_cases more : beats direction (price direction) previous <;> simp [more, Alert.inSession, apart]
    · simp [same]

/-! The chain. -/

theorem beats_extreme {direction : Direction} {prices : List ℚ} {best : ℚ} (found : extreme direction prices = some best)
    (price : ℚ) : beats direction price best = true ↔ ∀ earlier ∈ prices, beats direction price earlier = true := by
  cases direction with
  | high =>
      obtain ⟨attained, bound⟩ := List.max?_eq_some_iff.mp found
      simp only [beats, decide_eq_true_eq]
      exact ⟨fun beyond earlier member => (bound earlier member).trans_lt beyond, fun all => all best attained⟩
  | low =>
      obtain ⟨attained, bound⟩ := List.min?_eq_some_iff.mp found
      simp only [beats, decide_eq_true_eq]
      exact ⟨fun beyond earlier member => beyond.trans_le (bound earlier member), fun all => all best attained⟩

theorem extreme_eq_none_iff {direction : Direction} {prices : List ℚ} : extreme direction prices = none ↔ prices = [] := by
  cases direction <;> simp [extreme]

def breach (session : Session) (direction : Direction) (step : ℚ × ℚ) : Alert :=
  ⟨.str session.name, .str direction.name, .num step.1, .num step.2⟩

/-- What the alerts of a chain say about the prices counted so far. -/
structure Chained (session : Session) (direction : Direction) (prices : List ℚ) (alerts : List Alert)
    (steps : List (ℚ × ℚ)) : Prop where
  shown : alerts = steps.map (breach session direction)
  monotone : steps.Pairwise fun earlier later => beats direction later.1 earlier.1 = true
  counted : ∀ step ∈ steps, step.1 ∈ prices
  first : steps = [] → extreme direction prices = prices.head?
  last : ∀ step, steps.getLast? = some step → extreme direction prices = some step.1

def breaches (session : Session) (direction : Direction) (price : ℚ) : Option ℚ → List Alert
  | none => []
  | some previous => if beats direction price previous then [breach session direction (price, previous)] else []

theorem Chained.nil (session : Session) (direction : Direction) : Chained session direction [] [] [] where
  shown := rfl
  monotone := .nil
  counted _ member := nomatch member
  first _ := by cases direction <;> rfl
  last _ found := nomatch found

theorem Chained.append {session : Session} {direction : Direction} {prices : List ℚ} {alerts : List Alert}
    {steps : List (ℚ × ℚ)} (chained : Chained session direction prices alerts steps) (price : ℚ) :
    ∃ later, Chained session direction (prices ++ [price])
      (alerts ++ breaches session direction price (extreme direction prices)) later := by
  have next := extreme_append direction prices price
  cases found : extreme direction prices with
  | none =>
      -- the first price is the extreme, and nothing is said
      obtain rfl := extreme_eq_none_iff.mp found
      have quiet : steps = [] := List.eq_nil_iff_forall_not_mem.mpr fun step member => nomatch chained.counted step member
      subst quiet
      refine ⟨[], ?_, .nil, fun _ member => (nomatch member), fun _ => ?_, fun _ last => (nomatch last)⟩
      · simpa [breaches] using chained.shown
      · rw [next, found]
        rfl
  | some previous =>
      have wasPrice : prices ≠ [] := fun empty => by rw [extreme_eq_none_iff.mpr empty] at found; cases found
      by_cases more : beats direction price previous = true
      · refine ⟨steps ++ [(price, previous)], ?_, ?_, ?_, fun empty => ?_, fun step last => ?_⟩
        · simp [breaches, more, chained.shown]
        · refine List.pairwise_append.mpr ⟨chained.monotone, List.pairwise_singleton _ _, ?_⟩
          intro earlier member later single
          obtain rfl := List.mem_singleton.mp single
          exact (beats_extreme found price).mp more earlier.1 (chained.counted earlier member)
        · intro step member
          rcases List.mem_append.mp member with old | new
          · exact List.mem_append_left _ (chained.counted step old)
          · obtain rfl := List.mem_singleton.mp new
            simp
        · simp at empty
        · rw [List.getLast?_append, List.getLast?_singleton, Option.some_or, Option.some.injEq] at last
          subst last
          rw [next, found]
          simp [improved, more]
      · have kept : extreme direction (prices ++ [price]) = some previous := by
          rw [next, found]
          simp [improved, more]
        refine ⟨steps, ?_, chained.monotone, fun step member => ?_, fun empty => ?_, fun step last => ?_⟩
        · simp [breaches, more, chained.shown]
        · exact List.mem_append_left _ (chained.counted step member)
        · rw [kept, List.head?_append_of_ne_nil _ wasPrice, ← found]
          exact chained.first empty
        · rw [kept, ← found]
          exact chained.last step last

theorem extremes_checkDayBoundary (self : DailyRangeAnalyzer) (reset : Bool) (symbol : String) (session : Session)
    (direction : Direction) :
    ((self.checkDayBoundary reset).extremes session direction).get symbol =
      if reset then none else (self.extremes session direction).get symbol := by
  cases reset <;> rfl

section
variable (symbol : String) (session : Session) (direction : Direction) (entries : List (Record × Answer))

/-- The prices and the alerts of the chain a tick is compared with: none when it resets the day itself. -/
def pricesBefore (reset : Bool) : List ℚ := if reset then [] else prices symbol session direction entries

def chainBefore (reset : Bool) : List Alert := if reset then [] else chain symbol session direction entries

theorem prices_append (entry : Record × Answer) :
    prices symbol session direction (entries ++ [entry]) =
      pricesBefore symbol session direction entries entry.1.reset ++ (entry.1.price symbol session direction).toList := by
  simp only [prices, pricesBefore, List.since_append]
  cases entry.1.reset <;> cases priced : entry.1.price symbol session direction <;> simp [priced]

theorem chain_append (entry : Record × Answer) :
    chain symbol session direction (entries ++ [entry]) =
      chainBefore symbol session direction entries entry.1.reset ++ alertsFor symbol session direction entry := by
  simp only [chain, chainBefore, List.since_append]
  cases entry.1.reset <;> simp

end

/-- A handled tick is compared with the chain's prices so far. -/
theorem alertsFor_eq_breaches {draCacheListMax : Nat} {ticks : List Tick} {tick : Tick} (plain : Plain tick)
    {record : Record} (handled : recordOf (run (fresh draCacheListMax) ticks) tick = some record) (symbol : String)
    (session : Session) (direction : Direction) :
    alertsFor symbol session direction (record, (analyzeData (run (fresh draCacheListMax) ticks) tick).1) =
      match record.price symbol session direction with
      | none => []
      | some price =>
          breaches session direction price
            (extreme direction (pricesBefore symbol session direction (log (fresh draCacheListMax) ticks) record.reset)) := by
  have tracks := (Tracks.fresh draCacheListMax).run ticks symbol session direction
  rw [List.nil_append, extremeSinceReset_log] at tracks
  have before :
      (((run (fresh draCacheListMax) ticks).checkDayBoundary record.reset).extremes session direction).get symbol =
      extreme direction (pricesBefore symbol session direction (log (fresh draCacheListMax) ticks) record.reset) := by
    rw [extremes_checkDayBoundary, tracks]
    cases record.reset with
    | true => exact (extreme_eq_none_iff.mpr rfl).symm
    | false => rfl
  rw [alertsFor_handled _ plain handled, before]
  rfl

theorem Chained.before {symbol : String} {session : Session} {direction : Direction} {entries : List (Record × Answer)}
    {steps : List (ℚ × ℚ)}
    (chained : Chained session direction (prices symbol session direction entries) (chain symbol session direction entries)
      steps) (reset : Bool) :
    ∃ steps, Chained session direction (pricesBefore symbol session direction entries reset)
      (chainBefore symbol session direction entries reset) steps := by
  cases reset with
  | true => exact ⟨[], .nil session direction⟩
  | false => exact ⟨steps, chained⟩

theorem chained_log (draCacheListMax : Nat) (ticks : List Tick) (plain : ∀ tick ∈ ticks, Plain tick) (symbol : String)
    (session : Session) (direction : Direction) :
    ∃ steps, Chained session direction (prices symbol session direction (log (fresh draCacheListMax) ticks))
      (chain symbol session direction (log (fresh draCacheListMax) ticks)) steps := by
  induction ticks using List.reverseRecOn with
  | nil => exact ⟨[], .nil session direction⟩
  | append_singleton ticks tick ih =>
      obtain ⟨steps, chained⟩ := ih fun earlier member => plain earlier (List.mem_append_left _ member)
      rw [log_append]
      cases handled : recordOf (run (fresh draCacheListMax) ticks) tick with
      | none => exact ⟨steps, by simpa using chained⟩
      | some record =>
          obtain ⟨steps, before⟩ := chained.before record.reset
          simp only [Option.map_some, Option.toList_some]
          rw [prices_append, chain_append, alertsFor_eq_breaches (plain tick (by simp)) handled]
          cases record.price symbol session direction with
          | none => exact ⟨steps, by simpa using before⟩
          | some price => exact before.append price

/-- What a tick may say about a symbol, session and direction, given the ticks handled before it. -/
structure AlertsExact (symbol : String) (session : Session) (direction : Direction) (entries : List (Record × Answer))
    (entry : Record × Answer) : Prop where
  uncounted : entry.1.price symbol session direction = none → alertsFor symbol session direction entry = []
  broken : ∀ price, entry.1.price symbol session direction = some price →
    (alertsFor symbol session direction entry ≠ [] ↔
      pricesBefore symbol session direction entries entry.1.reset ≠ [] ∧
        ∀ earlier ∈ pricesBefore symbol session direction entries entry.1.reset, beats direction price earlier = true)
  previous : ∀ price, entry.1.price symbol session direction = some price →
    alertsFor symbol session direction entry ≠ [] →
      ∃ previous, alertsFor symbol session direction entry = [breach session direction (price, previous)] ∧
        extreme direction (pricesBefore symbol session direction entries entry.1.reset) = some previous ∧
        (chainBefore symbol session direction entries entry.1.reset = [] →
          (pricesBefore symbol session direction entries entry.1.reset).head? = some previous) ∧
        ∀ alert, (chainBefore symbol session direction entries entry.1.reset).getLast? = some alert →
          alert.price = .num previous
  monotone : ∃ steps : List (ℚ × ℚ),
    chain symbol session direction (entries ++ [entry]) = steps.map (breach session direction) ∧
      steps.Pairwise fun earlier later => beats direction later.1 earlier.1 = true

theorem breaches_ne_nil_iff (session : Session) {direction : Direction} {prices : List ℚ} (price : ℚ) :
    breaches session direction price (extreme direction prices) ≠ [] ↔
      prices ≠ [] ∧ ∀ earlier ∈ prices, beats direction price earlier = true := by
  cases found : extreme direction prices with
  | none =>
      obtain rfl := extreme_eq_none_iff.mp found
      simp [breaches]
  | some best =>
      have some : prices ≠ [] := fun empty => by rw [extreme_eq_none_iff.mpr empty] at found; cases found
      rw [← beats_extreme found price]
      by_cases more : beats direction price best = true <;> simp [breaches, more, some]

theorem Chained.alertsExact {symbol : String} {session : Session} {direction : Direction}
    {entries : List (Record × Answer)} {entry : Record × Answer} {steps : List (ℚ × ℚ)}
    (chained : Chained session direction (pricesBefore symbol session direction entries entry.1.reset)
      (chainBefore symbol session direction entries entry.1.reset) steps)
    (compared : alertsFor symbol session direction entry =
      match entry.1.price symbol session direction with
      | none => []
      | some price =>
          breaches session direction price
            (extreme direction (pricesBefore symbol session direction entries entry.1.reset))) :
    AlertsExact symbol session direction entries entry where
  uncounted missing := by rw [compared, missing]
  broken price counted := by
    rw [compared, counted]
    exact breaches_ne_nil_iff session price
  previous price counted said := by
    simp only [compared, counted] at said ⊢
    cases found : extreme direction (pricesBefore symbol session direction entries entry.1.reset) with
    | none => simp [found, breaches] at said
    | some previous =>
        rw [found] at said
        have more : beats direction price previous = true := by
          by_contra less
          simp [breaches, less] at said
        refine ⟨previous, by simp [breaches, more], rfl, fun empty => ?_, fun alert last => ?_⟩
        · -- no alert yet, so the extreme is the first print
          rw [← found, chained.first]
          exact List.map_eq_nil_iff.mp (chained.shown.symm.trans empty)
        · rw [chained.shown, List.getLast?_map, Option.map_eq_some_iff] at last
          obtain ⟨step, isLast, rfl⟩ := last
          rw [chained.last step isLast, Option.some.injEq] at found
          exact congrArg Value.num found
  monotone := by
    rw [chain_append, compared]
    cases entry.1.price symbol session direction with
    | none => exact ⟨steps, by simpa using chained.shown, chained.monotone⟩
    | some price =>
        obtain ⟨later, next⟩ := chained.append price
        exact ⟨later, next.shown, next.monotone⟩

/-- Every alert of a run breaks the extreme of the earlier prices of its chain,
and every price that does is an alert. -/
theorem alerts_exact (draCacheListMax : Nat) (ticks : List Tick) (tick : Tick)
    (plain : ∀ quote ∈ tick :: ticks, Plain quote) :
    match recordOf (run (fresh draCacheListMax) ticks) tick with
    | none => ∀ direction, alertsOf direction (analyzeData (run (fresh draCacheListMax) ticks) tick).1 = []
    | some record => ∀ symbol session direction,
        AlertsExact symbol session direction (log (fresh draCacheListMax) ticks)
          (record, (analyzeData (run (fresh draCacheListMax) ticks) tick).1) := by
  have here := plain tick List.mem_cons_self
  have earlier : ∀ quote ∈ ticks, Plain quote := fun quote member => plain quote (List.mem_cons_of_mem _ member)
  split
  case h_1 missing =>
    intro direction
    rcases analyzeData_eq_of_missing missing with same | same <;> rw [same] <;> rfl
  case h_2 record handled =>
    intro symbol session direction
    have compared := alertsFor_eq_breaches here handled symbol session direction
    obtain ⟨steps, chained⟩ := chained_log draCacheListMax ticks earlier symbol session direction
    obtain ⟨steps, before⟩ := chained.before record.reset
    exact before.alertsExact compared

def risenQuote : Quote where
  data := ⟨[("symbol", .str "AAPL"), ("high", .num 171), ("low", .num 165), ("t", .num 1700000060000)], by decide⟩
  symbolText _ := ⟨"AAPL", rfl⟩
  priced direction := by
    cases direction with
    | high => exact .inr ⟨171, rfl⟩
    | low => exact .inr ⟨165, rfl⟩

def risenTick : Tick := { regularTick with quote := risenQuote, reset := some false }

def risenPrices : Direction → ℚ
  | .high => 171
  | .low => 165

theorem alerts_exact_second_tick :
    alertsFor "AAPL" .regular .high
        (⟨"AAPL", false, some (.regular, risenPrices)⟩, (analyzeData (run (fresh 1000) [regularTick]) risenTick).1) ≠ [] ∧
      alertsFor "AAPL" .regular .low
        (⟨"AAPL", false, some (.regular, risenPrices)⟩, (analyzeData (run (fresh 1000) [regularTick]) risenTick).1) = [] := by
  have exact := alerts_exact 1000 [regularTick] risenTick (by
    intro tick member
    rcases List.mem_pair.mp member with rfl | rfl <;> simp only [Plain] <;> decide)
  have handled : recordOf (run (fresh 1000) [regularTick]) risenTick =
      some ⟨"AAPL", false, some (.regular, risenPrices)⟩ := by
    have now : counted (run (fresh 1000) [regularTick]) risenTick = some (.regular, risenPrices) := by
      have inSession : ((run (fresh 1000) [regularTick]).getSession risenTick).1 = some .regular := by
        decide +kernel
      have high : risenTick.quote.price .high = some 171 := rfl
      have low : risenTick.quote.price .low = some 165 := rfl
      have time : timestampOf risenTick = some (1700000060000 / 1000) := by decide +kernel
      simp only [counted, inSession, high, low, time]
      congr 2
    rw [recordOf, now]
    rfl
  rw [handled] at exact
  refine ⟨((exact "AAPL" .regular .high).broken 171 rfl).mpr ⟨by decide, by decide +kernel⟩, ?_⟩
  by_contra said
  have beyond := (((exact "AAPL" .regular .low).broken 165 rfl).mp said).2
  exact absurd beyond (by decide +kernel)

end KuhlHausMdp.DailyRangeAnalyzer
