import KuhlHausMdp.Library.Transition
import KuhlHausMdp.DailyRangeAnalyzer.Restart

/-! Under which name a state comes back. `analyze_data` takes the symbol from
`sym` or `symbol` and stores the state under it; `rehydrate` reads `symbol` in
the payload. -/

set_option autoImplicit false

namespace KuhlHausMdp.DailyRangeAnalyzer

open Transition

/-- A running analyzer, what is stored of its states, and the symbols ticked. -/
structure Instance where
  analyzer : DailyRangeAnalyzer
  redis : Redis
  ticked : List String

namespace Instance

def start (draCacheListMax : Nat) : Instance := ⟨.fresh draCacheListMax, fun _ => none, []⟩

/-- A tick that `analyze_data` accepts, its state result persisted. -/
def step (i : Instance) (tick : Tick) : Option Instance :=
  match tick.quote.symbol with
  | none => none
  | some symbol =>
      if (analyzeData i.analyzer tick).1.results.isSome then
        some ⟨(analyzeData i.analyzer tick).2, written i.analyzer i.redis tick, symbol :: i.ticked⟩
      else none

/-- A fresh instance that rehydrates in the after-hours session holds the six
extremes of each symbol ticked, and nothing under any other name. -/
def Restores (i : Instance) : Prop :=
  ∀ limit now pages, ((fresh limit).getSession now).1 = some .afterHours → Scanned i.redis pages →
    ∀ session direction,
      (∀ symbol ∈ i.ticked, ((rehydrate (fresh limit) now i.redis pages).extremes session direction).get symbol =
        (i.analyzer.extremes session direction).get symbol) ∧
      ∀ name ∉ i.ticked, ((rehydrate (fresh limit) now i.redis pages).extremes session direction).get name = none

end Instance

/-- The name and the value that the state under a key gives for an entry. -/
def provided (redis : Redis) (name : String) (session : Session) (direction : Direction) (key : String) : Option ℚ :=
  (restorableAt redis key).bind (Restorable.provides name session direction)

theorem get_rehydrate {limit : Nat} {now : Tick} (known : ((fresh limit).getSession now).1 = some .afterHours)
    (redis : Redis) (pages : List (List String)) (session : Session) (direction : Direction) (name : String) :
    ((rehydrate (fresh limit) now redis pages).extremes session direction).get name =
      (pages.flatten.filterMap (provided redis name session direction)).getLast? := by
  have begun : session ∈ elapsed .afterHours := by cases session <;> decide
  rw [rehydrate_eq known, get_foldl_restore, if_pos begun, List.filterMap_filterMap]
  exact Option.or_none

theorem provided_update (redis : Redis) (key other : String) (stored : Stored) (name : String) (session : Session)
    (direction : Direction) : provided (Function.update redis key (some stored)) name session direction other =
      if other = key then
        (match stored with | .state payload => payload.restorable | .other => none).bind
          (Restorable.provides name session direction)
      else provided redis name session direction other := by
  unfold provided
  rw [restorableAt_update]
  split <;> rfl

theorem mem_pages_of_provided {redis : Redis} {pages : List (List String)} (scanned : Scanned redis pages)
    {symbol name : String} {session : Session} {direction : Direction} {value : ℚ}
    (found : provided redis name session direction (stateKey symbol) = some value) : stateKey symbol ∈ pages.flatten := by
  apply scanned.complete _ (matches_stateKey.mpr ⟨symbol, rfl⟩)
  cases stored : redis (stateKey symbol) with
  | none => simp [provided, restorableAt, stored] at found
  | some _ => rfl

/-! One accepted tick. -/

namespace Instance

theorem step_eq {i next : Instance} {tick : Tick} (one : i.step tick = some next) :
    ∃ symbol reset, tick.quote.symbol = some symbol ∧ tick.reset = some reset ∧
      next = ⟨(analyzeData i.analyzer tick).2, Function.update (afterScript i.redis tick) (stateKey symbol)
        (some (.state ((analyzeData i.analyzer tick).2.statePayload symbol tick.quote))), symbol :: i.ticked⟩ := by
  unfold step at one
  cases isSymbol : tick.quote.symbol with
  | none => simp [isSymbol] at one
  | some symbol =>
      simp only [isSymbol] at one
      split at one
      case isTrue answered =>
        cases one
        cases script : tick.reset with
        | none => simp [analyzeData, isSymbol, script, Answer.results] at answered
        | some reset =>
            refine ⟨symbol, reset, rfl, rfl, ?_⟩
            simp only [written, isSymbol, answered, if_true]
      case isFalse => cases one

theorem recordOf_eq (self : DailyRangeAnalyzer) {tick : Tick} {symbol : String} {reset : Bool}
    (isSymbol : tick.quote.symbol = some symbol) (script : tick.reset = some reset) :
    recordOf self tick = some ⟨symbol, reset, counted self tick⟩ := by
  rw [recordOf, isSymbol, script]

/-- A tick of one symbol touches another only by a reset. -/
theorem get_other {self : DailyRangeAnalyzer} {tick : Tick} {symbol name : String} {reset : Bool}
    (isSymbol : tick.quote.symbol = some symbol) (script : tick.reset = some reset) (apart : name ≠ symbol)
    (session : Session) (direction : Direction) : ((analyzeData self tick).2.extremes session direction).get name =
      if reset then none else (self.extremes session direction).get name := by
  rw [get_analyzeData (recordOf_eq self isSymbol script)]
  simp [Record.price, apart.symm]

theorem get_own_eq_none_iff {self : DailyRangeAnalyzer} {tick : Tick} {symbol : String} {reset : Bool}
    (isSymbol : tick.quote.symbol = some symbol) (script : tick.reset = some reset) :
    (∀ session direction, ((analyzeData self tick).2.extremes session direction).get symbol = none) ↔
      counted self tick = none ∧
        (tick.reset = some true ∨ ∀ session direction, (self.extremes session direction).get symbol = none) := by
  rw [script, Option.some.injEq]
  have after := fun session direction =>
    get_analyzeData (recordOf_eq self isSymbol script) symbol session direction
  constructor
  · intro nothing
    have uncounted : counted self tick = none := by
      cases found : counted self tick with
      | none => rfl
      | some entry =>
          have value := (after entry.1 .high).symm.trans (nothing entry.1 .high)
          simp [Record.price, found] at value
    refine ⟨uncounted, ?_⟩
    cases reset with
    | true => exact .inl rfl
    | false =>
        refine .inr fun session direction => ?_
        have value := (after session direction).symm.trans (nothing session direction)
        simpa [Record.price, uncounted] using value
  · intro empty session direction
    obtain ⟨uncounted, before⟩ := empty
    rw [after]
    rcases before with resets | held
    · simp [Record.price, uncounted, resets]
    · simp [Record.price, uncounted, held]

theorem provided_after (i : Instance) (tick : Tick) (symbol name : String) (session : Session)
    (direction : Direction) (key : String) :
    provided (Function.update (afterScript i.redis tick) (stateKey symbol)
        (some (.state ((analyzeData i.analyzer tick).2.statePayload symbol tick.quote)))) name session direction key =
      if key = stateKey symbol then
        if payloadName tick.quote = some name then
          ((analyzeData i.analyzer tick).2.extremes session direction).get symbol
        else none
      else if tick.reset = some true ∧ key = dayBoundaryKey then none
      else provided i.redis name session direction key := by
  rw [provided_update]
  by_cases own : key = stateKey symbol
  · simp only [if_pos own, restorable_statePayload]
    cases payloadName tick.quote with
    | none => rfl
    | some other => simp [Restorable.provides]
  · rw [if_neg own, if_neg own, afterScript]
    by_cases resets : tick.reset = some true
    · rw [if_pos resets, provided_update]
      simp [resets]
    · simp [resets]

def Accepts (i : Instance) (tick : Tick) (symbol : String) : Prop :=
  tick.quote.symbol = some symbol ∧ (analyzeData i.analyzer tick).1.results.isSome

theorem accepts_of_step {i next : Instance} {tick : Tick} (one : i.step tick = some next) {symbol : String}
    (isSymbol : tick.quote.symbol = some symbol) : i.Accepts tick symbol := by
  refine ⟨isSymbol, ?_⟩
  simp only [step, isSymbol] at one
  split at one
  · assumption
  · cases one

/-- The quote shows the symbol under `symbol`, or the tick leaves the symbol
without a value: it is not counted, and there was none or the day is reset. -/
def ShowsName (i : Instance) (tick : Tick) (symbol : String) : Prop :=
  read tick.quote.data "symbol" = .str symbol ∨
    counted i.analyzer tick = none ∧
      (tick.reset = some true ∨ ∀ session direction, (i.analyzer.extremes session direction).get symbol = none)

/-- A reset finds no value of another symbol, since its state stays in Redis. A
symbol called like the boundary key loses its state to it. -/
def LeavesNothing (i : Instance) (tick : Tick) (symbol : String) : Prop :=
  tick.reset = some true → ∀ name, name ≠ symbol → name ≠ "day_boundary" →
    ∀ session direction, (i.analyzer.extremes session direction).get name = none

def Keeps (i : Instance) (tick : Tick) : Prop :=
  ∀ symbol, i.Accepts tick symbol → i.ShowsName tick symbol ∧ i.LeavesNothing tick symbol

/-- Nothing is stored but the boundary and states of symbols ticked. -/
def KeysTicked (i : Instance) : Prop :=
  ∀ key, (i.redis key).isSome → key = dayBoundaryKey ∨ ∃ symbol ∈ i.ticked, key = stateKey symbol

/-- The stored states provide what the analyzer holds, each value under the key
of its symbol. -/
structure Mirrored (i : Instance) : Prop where
  provided_iff : ∀ key name session direction value, provided i.redis name session direction key = some value ↔
    key = stateKey name ∧ (i.analyzer.extremes session direction).get name = some value
  unticked : ∀ name ∉ i.ticked, ∀ session direction, (i.analyzer.extremes session direction).get name = none
  keys : i.KeysTicked

theorem mirrored_start (draCacheListMax : Nat) : (start draCacheListMax).Mirrored where
  provided_iff key name session direction value := by
    constructor
    · intro found
      cases found
    · intro held
      cases held.2
  unticked _ _ _ _ := rfl
  keys _ stored := nomatch stored

theorem dayBoundaryKey_eq : dayBoundaryKey = stateKey "day_boundary" := by decide

section
variable {i next : Instance} {tick : Tick}

theorem Mirrored.keys_step (mirrored : i.Mirrored) (one : i.step tick = some next) : next.KeysTicked := by
  obtain ⟨symbol, reset, isSymbol, script, rfl⟩ := step_eq one
  intro key stored
  by_cases own : key = stateKey symbol
  · exact .inr ⟨symbol, List.mem_cons_self, own⟩
  · simp only [Function.update_of_ne own] at stored
    by_cases boundary : key = dayBoundaryKey
    · exact .inl boundary
    · have before : (i.redis key).isSome := by
        unfold afterScript at stored
        split at stored
        · rwa [Function.update_of_ne boundary] at stored
        · exact stored
      obtain same | ⟨other, member, same⟩ := mirrored.keys key before
      · exact .inl same
      · exact .inr ⟨other, List.mem_cons_of_mem _ member, same⟩

theorem Mirrored.unticked_step (mirrored : i.Mirrored) (one : i.step tick = some next) :
    ∀ name ∉ next.ticked, ∀ session direction, (next.analyzer.extremes session direction).get name = none := by
  obtain ⟨symbol, reset, isSymbol, script, rfl⟩ := step_eq one
  intro name unticked session direction
  obtain ⟨apart, before⟩ := not_or.mp (fun either => unticked (List.mem_cons.mpr either))
  rw [get_other isSymbol script apart, mirrored.unticked name before, ite_self]

theorem ShowsName.provided_iff {symbol : String} {reset : Bool} (shows : i.ShowsName tick symbol)
    (isSymbol : tick.quote.symbol = some symbol) (script : tick.reset = some reset) (name : String) (session : Session)
    (direction : Direction) (value : ℚ) :
    (if payloadName tick.quote = some name then ((analyzeData i.analyzer tick).2.extremes session direction).get symbol
      else none) = some value ↔
      stateKey symbol = stateKey name ∧
        ((analyzeData i.analyzer tick).2.extremes session direction).get name = some value := by
  rcases shows with named | empty
  · rw [(payloadName_eq_some_iff isSymbol).mpr named]
    by_cases same : name = symbol
    · subst same
      simp
    · have apart : stateKey symbol ≠ stateKey name := fun equal => same (stateKey_inj equal).symm
      simp [apart, Ne.symm same]
  · have nothing := (get_own_eq_none_iff isSymbol script).mpr empty
    rw [nothing, ite_self]
    constructor
    · intro found
      cases found
    · intro held
      rw [← stateKey_inj held.1, nothing] at held
      cases held.2

theorem Mirrored.provided_older {symbol key : String} {reset : Bool} (mirrored : i.Mirrored)
    (leaves : i.LeavesNothing tick symbol) (isSymbol : tick.quote.symbol = some symbol)
    (script : tick.reset = some reset) (own : key ≠ stateKey symbol) (name : String) (session : Session)
    (direction : Direction) (value : ℚ) :
    (if tick.reset = some true ∧ key = dayBoundaryKey then none
      else provided i.redis name session direction key) = some value ↔
      key = stateKey name ∧ ((analyzeData i.analyzer tick).2.extremes session direction).get name = some value := by
  have apart : key = stateKey name → name ≠ symbol := fun same equal => own (equal ▸ same)
  cases reset with
  | false =>
      have kept : ¬(tick.reset = some true ∧ key = dayBoundaryKey) := by simp [script]
      rw [if_neg kept, mirrored.provided_iff]
      apply and_congr_right
      intro same
      rw [get_other isSymbol script (apart same)]
      rfl
  | true =>
      have gone (same : key = stateKey name) :
          ((analyzeData i.analyzer tick).2.extremes session direction).get name = none :=
        (get_other isSymbol script (apart same) session direction).trans rfl
      constructor
      · intro found
        split at found
        case isTrue => cases found
        case isFalse boundary =>
          obtain ⟨same, held⟩ := (mirrored.provided_iff ..).mp found
          have other : name ≠ "day_boundary" := by
            intro equal
            exact boundary ⟨script, by rw [same, equal, dayBoundaryKey_eq]⟩
          rw [leaves script name (apart same) other] at held
          cases held
      · intro held
        rw [gone held.1] at held
        cases held.2

theorem Mirrored.step (mirrored : i.Mirrored) (keeps : i.Keeps tick) (one : i.step tick = some next) :
    next.Mirrored where
  unticked := mirrored.unticked_step one
  keys := mirrored.keys_step one
  provided_iff key name session direction value := by
    obtain ⟨symbol, reset, isSymbol, script, after⟩ := step_eq one
    obtain ⟨shows, leaves⟩ := keeps symbol (accepts_of_step one isSymbol)
    subst after
    rw [provided_after]
    by_cases own : key = stateKey symbol
    · rw [if_pos own, own]
      exact shows.provided_iff isSymbol script name session direction value
    · rw [if_neg own]
      exact mirrored.provided_older leaves isSymbol script own name session direction value

theorem Mirrored.restores (mirrored : i.Mirrored) : i.Restores := by
  intro limit now pages known scanned session direction
  have same : ∀ name, ((rehydrate (fresh limit) now i.redis pages).extremes session direction).get name =
      (i.analyzer.extremes session direction).get name := by
    intro name
    rw [get_rehydrate known]
    apply List.getLast?_filterMap_eq
    · intro key _ value found
      exact ((mirrored.provided_iff ..).mp found).2
    · intro value held
      have own : provided i.redis name session direction (stateKey name) = some value :=
        (mirrored.provided_iff ..).mpr ⟨rfl, held⟩
      exact ⟨_, mem_pages_of_provided scanned own, own⟩
  exact ⟨fun symbol _ => same symbol, fun name unticked => (same name).trans (mirrored.unticked name unticked _ _)⟩

theorem scanned_ticked (keys : i.KeysTicked) : Scanned i.redis [dayBoundaryKey :: i.ticked.map stateKey] where
  complete key _ stored := by
    rcases keys key stored with boundary | ⟨symbol, member, same⟩
    · simp [boundary]
    · simp only [List.flatten_cons, List.flatten_nil, List.append_nil]
      exact List.mem_cons_of_mem _ (List.mem_map.mpr ⟨symbol, member, same.symm⟩)
  sound key member := by
    simp only [List.flatten_cons, List.flatten_nil, List.append_nil, List.mem_cons, List.mem_map] at member
    rw [matches_stateKey]
    rcases member with boundary | ⟨symbol, _, same⟩
    · exact ⟨"day_boundary", boundary.trans dayBoundaryKey_eq⟩
    · exact ⟨symbol, same.symm⟩

def afterHoursTick : Tick :=
  { regularTick with status := some ⟨.str "extended-hours", .bool false, .bool true⟩ }

theorem session_afterHoursTick (limit : Nat) : ((fresh limit).getSession afterHoursTick).1 = some .afterHours := by
  simp [getSession, getMarketStatus, fresh, afterHoursTick, sessionOf, Value.truthy]

theorem Mirrored.get_restored (mirrored : i.Mirrored) (one : i.step tick = some next) (restores : next.Restores)
    (name : String) (session : Session) (direction : Direction) :
    ((dayBoundaryKey :: next.ticked.map stateKey).filterMap (provided next.redis name session direction)).getLast? =
      (next.analyzer.extremes session direction).get name := by
  have known := session_afterHoursTick 1000
  have exactly := restores 1000 afterHoursTick _ known (scanned_ticked (mirrored.keys_step one)) session direction
  simp only [get_rehydrate known, List.flatten_cons, List.flatten_nil, List.append_nil] at exactly
  by_cases ticked : name ∈ next.ticked
  · exact exactly.1 name ticked
  · rw [exactly.2 name ticked, mirrored.unticked_step one name ticked]

theorem Mirrored.showsName (mirrored : i.Mirrored) (one : i.step tick = some next) (restores : next.Restores)
    {symbol : String} (isSymbol : tick.quote.symbol = some symbol) : i.ShowsName tick symbol := by
  have restored := mirrored.get_restored one restores symbol
  obtain ⟨own, reset, isOwn, script, rfl⟩ := step_eq one
  obtain rfl : own = symbol := Option.some.inj (isOwn.symm.trans isSymbol)
  by_cases empty : ∀ session direction, ((analyzeData i.analyzer tick).2.extremes session direction).get own = none
  · exact .inr ((get_own_eq_none_iff isSymbol script).mp empty)
  · obtain ⟨session, later⟩ := not_forall.mp empty
    obtain ⟨direction, present⟩ := not_forall.mp later
    obtain ⟨value, held⟩ := Option.ne_none_iff_exists'.mp present
    have last := (restored session direction).trans held
    obtain ⟨key, _, found⟩ := List.mem_filterMap.mp (List.mem_of_getLast? last)
    rw [provided_after] at found
    split at found
    case isTrue =>
      split at found
      case isTrue named => exact .inl ((payloadName_eq_some_iff isSymbol).mp named)
      case isFalse => cases found
    case isFalse other =>
      split at found
      case isTrue => cases found
      case isFalse => exact absurd ((mirrored.provided_iff ..).mp found).1 other

theorem Mirrored.leavesNothing (mirrored : i.Mirrored) (one : i.step tick = some next) (restores : next.Restores)
    {symbol : String} (isSymbol : tick.quote.symbol = some symbol) : i.LeavesNothing tick symbol := by
  intro resets name apart other session direction
  have restored := mirrored.get_restored one restores name session direction
  have scanned := scanned_ticked (mirrored.keys_step one)
  obtain ⟨own, reset, isOwn, script, rfl⟩ := step_eq one
  obtain rfl : own = symbol := Option.some.inj (isOwn.symm.trans isSymbol)
  by_contra present
  obtain ⟨value, held⟩ := Option.ne_none_iff_exists'.mp present
  have elsewhere : stateKey name ≠ stateKey own := fun equal => apart (stateKey_inj equal)
  have kept : ¬(tick.reset = some true ∧ stateKey name = dayBoundaryKey) := by
    rw [dayBoundaryKey_eq]
    exact fun both => other (stateKey_inj both.2)
  have found := provided_after i tick own name session direction (stateKey name)
  rw [if_neg elsewhere, if_neg kept, (mirrored.provided_iff ..).mpr ⟨rfl, held⟩] at found
  rw [get_other isSymbol script apart, if_pos (Option.some.inj (script.symm.trans resets)),
    List.getLast?_eq_none_iff, List.filterMap_eq_nil_iff] at restored
  have member := mem_pages_of_provided scanned found
  rw [List.flatten_cons, List.flatten_nil, List.append_nil] at member
  cases (restored _ member).symm.trans found

theorem Mirrored.keeps_of_restores (mirrored : i.Mirrored)
    (restores : ∀ next, i.step tick = some next → next.Restores) : i.Keeps tick := by
  intro symbol accepted
  obtain ⟨next, one⟩ : ∃ next, i.step tick = some next := by
    simp only [Instance.step, accepted.1, accepted.2, if_true]
    exact ⟨_, rfl⟩
  exact ⟨mirrored.showsName one (restores next one) accepted.1, mirrored.leavesNothing one (restores next one) accepted.1⟩

def StaysExact (i : Instance) (tick : Tick) : Prop := ∀ next, i.step tick = some next → next.Restores

theorem Mirrored.staysExact_iff (mirrored : i.Mirrored) : i.StaysExact tick ↔ i.Keeps tick := by
  constructor
  · exact mirrored.keeps_of_restores
  · intro keeps next one
    exact (mirrored.step keeps one).restores

end

end Instance

/-- In every run of accepted ticks, a fresh instance restores after each tick
exactly what the old one held, exactly when each tick shows its symbol under
`symbol` or leaves it without a value, and no reset strands another symbol. -/
theorem restores_symbols_iff (draCacheListMax : Nat) (ticks : List Tick) :
    Along Instance.step Instance.StaysExact ticks (.start draCacheListMax) ↔
      Along Instance.step Instance.Keeps ticks (.start draCacheListMax) :=
  along_congr Instance.Mirrored (fun mirrored keeps one => mirrored.step keeps one)
    (fun mirrored => mirrored.staysExact_iff) (Instance.mirrored_start draCacheListMax)

/-- A quote whose symbol stands under `sym` alone. -/
def symQuote : Quote where
  data := ⟨[("sym", .str "AAPL"), ("high", .num 170), ("low", .num 160), ("t", .num 1700000000000)], by decide⟩
  symbolText _ := ⟨"AAPL", rfl⟩
  priced direction := by
    cases direction with
    | high => exact .inr ⟨170, rfl⟩
    | low => exact .inr ⟨160, rfl⟩

def symTick : Tick := { regularTick with quote := symQuote, reset := some false }

/-- The old instance holds the day's high and low of the symbol; nothing of
them is restored. -/
theorem sym_is_not_restored : ¬ Along Instance.step Instance.StaysExact [symTick] (.start 1000) := by
  intro exactly
  obtain ⟨shows, -⟩ := (Instance.mirrored_start 1000).keeps_of_restores exactly.1 "AAPL" ⟨rfl, by decide +kernel⟩
  rcases shows with named | ⟨uncounted, -⟩
  · have missing : read symTick.quote.data "symbol" = .none := rfl
    cases missing.symm.trans named
  · have isCounted : (counted (Instance.start 1000).analyzer symTick).isSome = true := by decide +kernel
    rw [uncounted] at isCounted
    cases isCounted

end KuhlHausMdp.DailyRangeAnalyzer
