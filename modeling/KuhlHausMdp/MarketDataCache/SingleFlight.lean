import KuhlHausMdp.MarketDataCache.NegativeCaching

/-! One REST answer serves every caller of a getter that asks once and stores
what it gets, as long as the lock excludes and the entry stays. -/

set_option autoImplicit false

namespace KuhlHausMdp.MarketDataCache

open Transition

/-- A getter whose fetch is one call and whose entries can be read back. -/
structure OneCall {R : Type*} (metric : Metric R R) (encode : R → Value) : Prop where
  fetch : ∀ ticker, ∃ request cacheTtl,
    metric.fetch ticker = .call request fun answer => .store (encode answer) cacheTtl answer
  decode : ∀ answer, metric.decode (encode answer) = answer
  truthy : ∀ answer, (encode answer).truthy = true

namespace Slot

variable {P C R : Type*}

/-- The lock lasts while it is held, the entry stays, and the write of a result
does not raise. -/
def Undisturbed {V : Type*} (s : Slot P C R V) (action : Action C R) : Prop :=
  s.LockLasts action ∧ action ≠ .entryExpires ∧
    ∀ c data cacheTtl result, action = .interrupt c → s.phase c ≠ .fetching (.store data cacheTtl result)

def Gives (answers : List R) : Outcome R → Prop
  | .returned answer => answers = [answer]
  | .raised => True

def Fits (encode : R → Value) (answers : List R) (entry : Option Entry) : Phase C R R → Prop
  | .firstRead value | .secondRead value =>
      value.truthy = true → ∃ answer, answers = [answer] ∧ value = encode answer
  | .lockedRead value =>
      (value.truthy = true → ∃ answer, answers = [answer] ∧ value = encode answer) ∧
        (value.truthy = false → answers = [] ∧ entry = none)
  | .fetching (.call _ next) | .calling _ next =>
      answers = [] ∧ entry = none ∧ ∃ cacheTtl, next = fun answer => .store (encode answer) cacheTtl answer
  | .fetching (.store data _ result) => answers = [result] ∧ data = encode result
  | .stored result => answers = [result]
  | .closing _ outcome | .releasing _ outcome | .ending outcome | .finished outcome => Gives answers outcome
  | _ => True

def Storing (s : Slot P C R R) : Prop :=
  ∃ c data cacheTtl result, s.phase c = .fetching (.store data cacheTtl result)

structure Flight (encode : R → Value) (s : Slot P C R R) : Prop where
  locked : s.Locked
  fits : ∀ c, Fits encode s.answers s.entry (s.phase c)
  cached : ∀ entry, s.entry = some entry → ∃ answer, s.answers = [answer] ∧ entry.data = encode answer
  landed : s.entry = none → s.answers = [] ∨ s.Storing

variable {encode : R → Value} {metric : Metric R R} {ticker : String} {proc : C → P} {s t : Slot P C R R}
  {action : Action C R}

theorem Fits.keep {answers after : List R} {entry other : Option Entry} {phase : Phase C R R}
    (fits : Fits encode answers entry phase) (notMissed : ¬ phase.Missed)
    (same : answers = [] ∨ answers = after) : Fits encode after other phase := by
  rcases same with rfl | rfl
  · cases phase with
    | firstRead value | secondRead value =>
        intro hit
        obtain ⟨answer, none, -⟩ := fits hit
        cases none
    | lockedRead value =>
        refine ⟨fun hit => ?_, fun miss => absurd miss notMissed⟩
        obtain ⟨answer, none, -⟩ := fits.1 hit
        cases none
    | fetching rest =>
        cases rest with
        | call request next => exact absurd trivial notMissed
        | store data cacheTtl result => cases fits.1
        | error => trivial
    | calling request next => exact absurd trivial notMissed
    | stored result => cases fits
    | closing owned outcome | releasing owned outcome | ending outcome | finished outcome =>
        cases outcome with
        | returned answer => cases fits
        | raised => trivial
    | _ => trivial
  · cases phase with
    | lockedRead value => exact ⟨fits.1, fun miss => absurd miss notMissed⟩
    | fetching rest =>
        cases rest with
        | call request next => exact absurd trivial notMissed
        | _ => exact fits
    | calling request next => exact absurd trivial notMissed
    | _ => exact fits

theorem Flight.read (flight : s.Flight encode) (hit : s.read.truthy = true) :
    ∃ answer, s.answers = [answer] ∧ s.read = encode answer := by
  cases found : s.entry with
  | none => rw [Slot.read, found] at hit; cases hit
  | some entry =>
      obtain ⟨answer, only, data⟩ := flight.cached entry found
      exact ⟨answer, only, by rw [Slot.read, found]; exact data⟩

theorem Flight.miss (one : OneCall metric encode) (flight : s.Flight encode) (falsy : s.read.truthy = false)
    {c : C} (here : s.phase c = .acquired) : s.answers = [] ∧ s.entry = none := by
  have absent : s.entry = none := by
    apply entry_eq_none_of_read _ falsy
    intro entry found
    obtain ⟨answer, -, data⟩ := flight.cached entry found
    rw [data]
    exact one.truthy answer
  rcases flight.landed absent with none | ⟨d, data, cacheTtl, result, storing⟩
  · exact ⟨none, absent⟩
  · -- the lock holder is not the one that stores
    have same : d = c :=
      flight.locked.only (show (s.phase c).Holding by rw [here]; trivial) (by rw [storing]; trivial)
    rw [same, here] at storing
    cases storing

theorem Moves.fits (one : OneCall metric encode) (flight : s.Flight encode) {c : C} {before after : Phase C R R}
    (moves : Moves metric ticker s c action before after) (here : s.phase c = before) :
    Fits encode s.answers s.entry after := by
  have fits := flight.fits c
  rw [here] at fits
  cases moves with
  | firstRead | secondRead => exact flight.read
  | lockedRead => exact ⟨flight.read, fun falsy => flight.miss one falsy here⟩
  | firstHit hit | secondHit hit =>
      obtain ⟨answer, only, rfl⟩ := fits hit
      rw [one.decode]
      exact only
  | lockedHit hit =>
      obtain ⟨answer, only, rfl⟩ := fits.1 hit
      rw [one.decode]
      exact only
  | fetch miss =>
      obtain ⟨request, cacheTtl, script⟩ := one.fetch ticker
      obtain ⟨unanswered, absent⟩ := fits.2 miss
      rw [script]
      exact ⟨unanswered, absent, cacheTtl, rfl⟩
  | call | close | locked | unlocked | finish => exact fits
  | interrupt raised =>
      cases before with
      | fetching rest => cases rest <;> cases raised; trivial
      | _ => cases raised <;> trivial
  | _ => trivial

theorem Moves.not_storing {c : C} {before after : Phase C R R} (moves : Moves metric ticker s c action before after)
    (calm : s.Undisturbed action) (here : s.phase c = before) {data : Value} {cacheTtl : Nat} {result : R} :
    s.phase c ≠ .fetching (.store data cacheTtl result) := by
  intro storing
  cases here.symm.trans storing
  cases moves with
  | interrupt raised => exact calm.2.2 c data cacheTtl result rfl storing

theorem Flight.others (flight : s.Flight encode) {c d : C} (holds : (s.phase c).Holding) (apart : d ≠ c)
    {after : List R} {other : Option Entry} (same : s.answers = [] ∨ s.answers = after) :
    Fits encode after other (s.phase d) :=
  (flight.fits d).keep (fun missed => apart (flight.locked.only holds missed.holding)) same

variable [DecidableEq C]

theorem Flight.moved (flight : s.Flight encode) {c : C} {phase : Phase C R R} (locked : t.Locked)
    (phases : t.phase = Function.update s.phase c phase) (entry : t.entry = s.entry) (answers : t.answers = s.answers)
    (fits : Fits encode s.answers s.entry phase)
    (still : ∀ {data cacheTtl result}, s.phase c ≠ .fetching (.store data cacheTtl result)) : t.Flight encode := by
  refine ⟨locked, ?_, ?_, fun absent => ?_⟩
  · rw [phases, entry, answers]
    apply (Function.forall_update_iff s.phase fun _ => Fits encode s.answers s.entry).mpr
    exact ⟨fits, fun d _ => flight.fits d⟩
  · rw [entry, answers]
    exact flight.cached
  · rw [entry] at absent
    rw [answers]
    apply (flight.landed absent).imp_right
    rintro ⟨d, data, cacheTtl, result, storing⟩
    refine ⟨d, data, cacheTtl, result, ?_⟩
    rw [phases, Function.update_of_ne, storing]
    exact fun same => still (same ▸ storing)

variable [DecidableEq P]

theorem Flight.step (one : OneCall metric encode) (flight : s.Flight encode) (calm : s.Undisturbed action)
    (step : s.step metric ticker proc action = some t) : t.Flight encode := by
  -- the lock is an invariant of its own, and the others lean on it
  have locked := flight.locked.step calm.1 step
  cases step_cases step with
  | moved moves phases entry lock answers =>
      exact flight.moved locked phases entry answers (moves.fits one flight rfl) (moves.not_storing calm rfl)
  | acquired before free after =>
      subst after
      exact flight.moved locked rfl rfl rfl trivial fun storing => nomatch before.symm.trans storing
  | @answered c request next response before after =>
      subst after
      have fits := flight.fits c
      rw [before] at fits
      obtain ⟨unanswered, absent, cacheTtl, rfl⟩ := fits
      refine ⟨locked, ?_, fun entry found => ?_, fun _ => .inr ⟨c, _, _, _, Function.update_self ..⟩⟩
      · apply (Function.forall_update_iff s.phase fun _ => Fits encode (s.answers ++ [response]) s.entry).mpr
        constructor
        · exact ⟨by rw [unanswered]; rfl, rfl⟩
        · intro d apart
          exact flight.others (by rw [before]; trivial) apart (.inl unanswered)
      · exact nomatch absent.symm.trans found
  | @stored c data cacheTtl result before after =>
      subst after
      have fits := flight.fits c
      rw [before] at fits
      refine ⟨locked, ?_, fun entry found => ?_, fun absent => nomatch absent⟩
      · apply (Function.forall_update_iff s.phase fun _ => Fits encode s.answers (some ⟨data, cacheTtl⟩)).mpr
        constructor
        · exact fits.1
        · intro d apart
          exact flight.others (by rw [before]; trivial) apart (.inr rfl)
      · cases found
        exact ⟨result, fits⟩
  | @released c outcome before after =>
      subst after
      have fits := flight.fits c
      rw [before] at fits
      exact flight.moved locked rfl rfl rfl fits fun storing => nomatch before.symm.trans storing
  | lockExpired after =>
      subst after
      exact ⟨locked, flight.fits, flight.cached, flight.landed⟩
  | entryExpired after => exact absurd rfl calm.2.1

omit [DecidableEq P] [DecidableEq C] in
theorem Flight.fresh : (Slot.fresh : Slot P C R R).Flight encode :=
  ⟨fun _ holds => (nomatch holds), fun _ => trivial, fun _ found => (nomatch found), fun _ => .inl rfl⟩

omit [DecidableEq P] [DecidableEq C] in
theorem Flight.answers_length (flight : s.Flight encode) : s.answers.length ≤ 1 := by
  cases found : s.entry with
  | some entry =>
      obtain ⟨answer, only, -⟩ := flight.cached entry found
      simp [only]
  | none =>
      rcases flight.landed found with none | ⟨c, data, cacheTtl, result, storing⟩
      · simp [none]
      · have fits := flight.fits c
        rw [storing] at fits
        simp [fits.1]

omit [DecidableEq P] [DecidableEq C] in
theorem Flight.startsCall (flight : s.Flight encode) (starts : s.StartsCall action) :
    s.answers = [] ∧ s.entry = none := by
  obtain ⟨c, request, next, -, here⟩ := starts
  have fits := flight.fits c
  rw [here] at fits
  exact ⟨fits.1, fits.2.1⟩

omit [DecidableEq P] [DecidableEq C] in
theorem Flight.returned (flight : s.Flight encode) {c : C} {answer : R}
    (here : s.phase c = .finished (.returned answer)) : s.answers = [answer] := by
  have fits := flight.fits c
  rw [here] at fits
  exact fits

end Slot

theorem oneCall_tickerSnapshot {fromDict : Value → TickerSnapshot}
    (inverts : ∀ snapshot, fromDict (tickerSnapshotToDict snapshot) = snapshot) :
    OneCall (tickerSnapshot fromDict) tickerSnapshotToDict where
  fetch ticker := ⟨.getSnapshotTicker "stocks" ticker, MarketDataCacheTTL.TICKER_SNAPSHOTS, rfl⟩
  decode := inverts
  truthy := truthy_tickerSnapshotToDict

section

variable {P C : Type*} [DecidableEq P] [DecidableEq C]

/-- At most one REST call for a ticker succeeds, none starts once one has, and
whoever returns gets its snapshot. -/
theorem single_flight (fromDict : Value → TickerSnapshot)
    (inverts : ∀ snapshot, fromDict (tickerSnapshotToDict snapshot) = snapshot) (proc : C → P)
    (moves : List (String × Action C TickerSnapshot)) {slots : String → Slot P C TickerSnapshot TickerSnapshot}
    (calm : Along (system (tickerSnapshot fromDict) proc)
      (fun slots move => (slots move.1).Undisturbed move.2) moves fun _ => Slot.fresh)
    (run : exec (system (tickerSnapshot fromDict) proc) moves (fun _ => Slot.fresh) = some slots) :
    Along (system (tickerSnapshot fromDict) proc)
        (fun slots move => (slots move.1).StartsCall move.2 →
          (slots move.1).answers = [] ∧ (slots move.1).entry = none) moves (fun _ => Slot.fresh) ∧
      ∀ ticker, (slots ticker).answers.length ≤ 1 ∧
        ∀ c snapshot, (slots ticker).phase c = .finished (.returned snapshot) →
          (slots ticker).answers = [snapshot] := by
  have one := oneCall_tickerSnapshot inverts
  have start : ∀ _ : String, (Slot.fresh : Slot P C _ _).Flight tickerSnapshotToDict := fun _ => .fresh
  have kept : ∀ {slots : String → Slot P C TickerSnapshot TickerSnapshot} {move next},
      (∀ ticker, (slots ticker).Flight tickerSnapshotToDict) → (slots move.1).Undisturbed move.2 →
      system (tickerSnapshot fromDict) proc slots move = some next →
      ∀ ticker, (next ticker).Flight tickerSnapshotToDict := by
    intro slots move next flights allowed moved
    exact interleave_kept (fun _ s => s.Flight tickerSnapshotToDict) (fun _ s action => s.Undisturbed action)
      (fun flight calm step => flight.step one calm step) flights allowed moved
  have flights := along_invariant (fun slots => ∀ ticker, (slots ticker).Flight tickerSnapshotToDict)
    kept start calm run
  refine ⟨?_, fun ticker => ⟨(flights ticker).answers_length, fun c snapshot here => (flights ticker).returned here⟩⟩
  exact Along.mono (fun slots => ∀ ticker, (slots ticker).Flight tickerSnapshotToDict) kept
    (fun flights _ starts => (flights _).startsCall starts) start calm

end

/-! A constructor that reads the keys `ticker_snapshot_to_dict` writes. -/

def Bar.fromDict (value : Value) : Bar where
  «open» := value.lookup "o"
  high := value.lookup "h"
  low := value.lookup "l"
  close := value.lookup "c"
  volume := value.lookup "v"
  vwap := value.lookup "vw"
  timestamp := value.lookup "t"
  transactions := value.lookup "n"
  otc := value.lookup "otc"

def MinuteBar.fromDict (value : Value) : MinuteBar where
  toBar := Bar.fromDict value
  accumulatedVolume := value.lookup "av"

def LastQuote.fromDict (value : Value) : LastQuote where
  ticker := value.lookup "T"
  trfTimestamp := value.lookup "f"
  sequenceNumber := value.lookup "q"
  sipTimestamp := value.lookup "t"
  participantTimestamp := value.lookup "y"
  askPrice := value.lookup "P"
  askSize := value.lookup "S"
  askExchange := value.lookup "X"
  conditions := value.lookup "c"
  indicators := value.lookup "i"
  bidPrice := value.lookup "p"
  bidSize := value.lookup "s"
  bidExchange := value.lookup "x"
  tape := value.lookup "z"

def LastTrade.fromDict (value : Value) : LastTrade where
  ticker := value.lookup "T"
  trfTimestamp := value.lookup "f"
  sequenceNumber := value.lookup "q"
  sipTimestamp := value.lookup "t"
  participantTimestamp := value.lookup "y"
  conditions := value.lookup "c"
  correction := value.lookup "e"
  id := value.lookup "i"
  price := value.lookup "p"
  trfId := value.lookup "r"
  size := value.lookup "s"
  exchange := value.lookup "x"
  tape := value.lookup "z"

/-- A missing key or a null is an absent part. -/
def optional {Q : Type*} (fromDict : Value → Q) : Value → Option Q
  | .none => none
  | found => some (fromDict found)

def TickerSnapshot.fromDict (value : Value) : TickerSnapshot where
  ticker := value.lookup "ticker"
  todaysChange := value.lookup "todaysChange"
  todaysChangePercent := value.lookup "todaysChangePerc"
  updated := value.lookup "updated"
  day := optional Bar.fromDict (value.lookup "day")
  lastQuote := optional LastQuote.fromDict (value.lookup "lastQuote")
  lastTrade := optional LastTrade.fromDict (value.lookup "lastTrade")
  min := optional MinuteBar.fromDict (value.lookup "min")
  prevDay := optional Bar.fromDict (value.lookup "prevDay")
  fairMarketValue := value.lookup "fmv"

theorem lookup_singleton {W : Type*} (key other : String) (w : W) :
    [(key, w)].lookup other = if other = key then some w else none := by
  by_cases same : other = key
  · simp [same]
  · simp [List.lookup_cons, same, beq_false_of_ne same]

theorem lookup_part {Q : Type*} (key other : String) (toDict : Q → Value) (o : Option Q) :
    (part key toDict o).lookup other = if other = key then o.map toDict else none := by
  cases o with
  | none => simp [part]
  | some q => exact lookup_singleton key other (toDict q)

theorem lookup_fairMarketValuePart (other : String) (value : Value) :
    ((fairMarketValuePart value).lookup other).getD .none = if other = "fmv" then value else .none := by
  cases value with
  | none => simp [fairMarketValuePart]
  | _ => rw [fairMarketValuePart, lookup_singleton]; split <;> rfl; simp

theorem optional_map {Q : Type*} {fromDict : Value → Q} {toDict : Q → Value} {o : Option Q}
    (inverts : ∀ q, fromDict (toDict q) = q) (present : ∀ q, toDict q ≠ .none) :
    optional fromDict ((o.map toDict).getD .none) = o := by
  cases o with
  | none => rfl
  | some q =>
      have some : optional fromDict (toDict q) = some (fromDict (toDict q)) := by
        unfold optional
        split
        case h_1 same => exact absurd same (present q)
        case h_2 => rfl
      exact some.trans (congrArg Option.some (inverts q))

theorem fromDict_tickerSnapshotToDict (snapshot : TickerSnapshot) :
    TickerSnapshot.fromDict (tickerSnapshotToDict snapshot) = snapshot := by
  obtain ⟨ticker, change, percent, updated, day, lastQuote, lastTrade, min, prevDay, fmv⟩ := snapshot
  simp [TickerSnapshot.fromDict, tickerSnapshotToDict, Value.lookup, List.lookup_cons, List.lookup_append,
    lookup_part, lookup_fairMarketValuePart]
  exact ⟨optional_map (fun _ => rfl) fun _ same => (nomatch same), optional_map (fun _ => rfl) fun _ same => (nomatch same),
    optional_map (fun _ => rfl) fun _ same => (nomatch same), optional_map (fun _ => rfl) fun _ same => (nomatch same),
    optional_map (fun _ => rfl) fun _ same => (nomatch same)⟩

def quietSnapshot : TickerSnapshot where
  ticker := .str "AAPL"
  todaysChange := .num 0
  todaysChangePercent := .num 0
  updated := .num 1700000000
  day := none
  lastQuote := none
  lastTrade := none
  min := none
  prevDay := none
  fairMarketValue := .none

/-- The second caller is served from the cache with the first one's snapshot. -/
theorem single_flight_cached :
    ∃ slots : String → Slot Unit Bool TickerSnapshot TickerSnapshot,
      exec (system (tickerSnapshot TickerSnapshot.fromDict) fun _ => ())
          (callFor "AAPL" false [quietSnapshot] ++ List.replicate 2 ("AAPL", .proceed true)) (fun _ => Slot.fresh) =
        some slots ∧
      (slots "AAPL").phase true = .finished (.returned quietSnapshot) ∧ (slots "AAPL").answers = [quietSnapshot] := by
  refine ⟨_, rfl, rfl, ?_⟩
  have flight := single_flight TickerSnapshot.fromDict fromDict_tickerSnapshotToDict (fun _ => ())
    (callFor "AAPL" false [quietSnapshot] ++ List.replicate 2 ("AAPL", .proceed true)) ?_ rfl
  · exact (flight.2 "AAPL").2 true quietSnapshot rfl
  · simp only [callFor, List.reduceReplicate, List.flatMap_cons, List.flatMap_nil, List.cons_append, List.nil_append]
    -- nothing expires and nobody is interrupted
    repeat' refine Along.cons ⟨fun expires => (by cases expires), fun expires => (by cases expires),
      fun _ _ _ _ raises => (by cases raises)⟩ rfl ?_
    trivial

end KuhlHausMdp.MarketDataCache
