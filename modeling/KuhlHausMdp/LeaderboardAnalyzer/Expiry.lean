import KuhlHausMdp.Eastern
import KuhlHausMdp.LeaderboardAnalyzer.Update

/-! `analyze_data`, one event at a time, with keys that expire and calls that
raise. An open price lives for 24 hours and the marker of a market open for
one; what was stored before an exception stays. -/

set_option autoImplicit false

namespace KuhlHausMdp.LeaderboardAnalyzer

open Transition MarketDataCache

inductive Await where
  | boundary | claim | clear | read | store | execute | publish
  deriving DecidableEq

structure Lookups where
  snapshot : Option TickerSnapshot
  avgVolume : Value
  freeFloat : Value

/-- An event with the clock at its two checks, when its open price is read and
when it is stored; and what its calls give, `lookups` being none where one of
the cache's raises. -/
structure Arrival where
  event : Aggregate
  boundaryTime : ℤ
  openTime : ℤ
  readTime : ℤ
  storeTime : ℤ
  lookups : Option Lookups
  fails : Await → Bool

def Arrival.day (zone : ZoneInfo) (arrival : Arrival) : ℤ := currentDayTs zone arrival.boundaryTime

/-- `captor` is the event whose open price was stored last, `claimed` when a
day's marker was; neither key need be there any more. -/
structure Timed where
  keys : Store
  captor : String → Option Arrival
  claimed : ℤ → Option ℤ

/-- What `float` makes of the text that `str` wrote, `float` itself being given
for text that was stored as it was. -/
def floatOf (float : String → Option ℚ) : Value → Option ℚ
  | .num q => some q
  | .str text => float text
  | _ => none

def isEmptyText : Value → Bool
  | .str text => decide (text = "")
  | _ => false

/-- What becomes of an event: an exception; no symbol; an update that Redis did
not execute; or a quote. -/
inductive Outcome where
  | raised
  | ignored
  | dropped
  | quoted (mapping : Dict String Value)

/-- The state after an event, and the event whose open price it was scored with. -/
structure Handled where
  state : Timed
  outcome : Outcome
  priced : Option Arrival

namespace Timed

def fresh : Timed := ⟨.fresh, fun _ => none, fun _ => none⟩

def isClaimed (s : Timed) (now day : ℤ) : Bool := (s.claimed day).any fun since => decide (now < since + 3600)

def cachedOpen (s : Timed) (now : ℤ) (symbol : String) : Option Value :=
  (s.captor symbol).bind fun e =>
    if now < e.storeTime + 86400 ∧ isEmptyText (openOf e.event.data) = false then some (openOf e.event.data) else none

def checkMarketOpenReset (s : Timed) (zone : ZoneInfo) (a : Arrival) : Timed × Bool :=
  match Task.openWindow zone a.openTime with
  | none => (s, false)
  | some today =>
      if a.fails .claim then (s, true)
      else if s.isClaimed a.openTime today then (s, false)
      else
        let claimed := Function.update s.claimed today (some a.openTime)
        -- the marker stays where the deletion fails
        if a.fails .clear then ({ s with claimed := claimed }, true)
        else
          ({ keys := { s.keys with board := Function.update s.keys.board .topGainers ∅ }
             captor := fun _ => none
             claimed := claimed }, false)

def checks (s : Timed) (zone : ZoneInfo) (a : Arrival) : Timed × Bool :=
  if a.fails .boundary then (s, true)
  else { s with keys := s.keys.checkDayBoundary (a.day zone) }.checkMarketOpenReset zone a

section

variable (float : String → Option ℚ)

/-- `_get_symbol_open_price`; none where it raises. -/
def getSymbolOpenPrice (s : Timed) (symbol : String) (a : Arrival) : Option (Value × Timed) :=
  if a.fails .read then none
  else match s.cachedOpen a.readTime symbol with
    | none =>
        if a.fails .store then none
        else some (openOf a.event.data, { s with captor := Function.update s.captor symbol (some a) })
    | some cached => (floatOf float cached).map fun price => (.num price, s)

/-- The pipeline, which can fail, and what follows it, which can raise. -/
def execute (s : Timed) (symbol : String) (a : Arrival) (prepared : Prepared) : Timed × Outcome :=
  match if a.fails .execute then none else prepared.commit symbol with
  | none => (s, if a.fails .publish then .raised else .dropped)
  | some commit =>
      ({ s with keys := s.keys.commit commit }, if a.fails .publish then .raised else .quoted prepared.mapping)

def finish (s : Timed) (symbol : String) (a : Arrival) : Option Prepared → Handled
  | none => ⟨s, .raised, s.captor symbol⟩
  | some prepared => ⟨(s.execute symbol a prepared).1, (s.execute symbol a prepared).2, s.captor symbol⟩

def update (s : Timed) (symbol : String) (a : Arrival) : Handled :=
  match a.lookups with
  | none => ⟨s, .raised, none⟩
  | some lookups =>
      match computeEarly a.event.data (prevDayOf lookups.snapshot) lookups.avgVolume with
      | none => ⟨s, .raised, none⟩
      | some early =>
          match s.getSymbolOpenPrice float symbol a with
          | none => ⟨s, .raised, none⟩
          | some (openPrice, s) =>
              s.finish symbol a (prepare symbol a.event.data (prevDayOf lookups.snapshot) lookups.avgVolume
                lookups.freeFloat openPrice early)

def analyzeData (s : Timed) (zone : ZoneInfo) (a : Arrival) : Handled :=
  if (s.checks zone a).2 then ⟨(s.checks zone a).1, .raised, none⟩
  else match a.event.symbol with
    | none => ⟨(s.checks zone a).1, if a.fails .publish then .raised else .ignored, none⟩
    | some symbol => (s.checks zone a).1.update float symbol a

def step (zone : ZoneInfo) (s : Timed) (a : Arrival) : Option Timed := some (s.analyzeData float zone a).state

end

/-! What an event is priced with. -/

variable {float : String → Option ℚ} {s t : Timed} {zone : ZoneInfo} {a e : Arrival} {symbol : String}

@[simp] theorem priced_finish (prepared : Option Prepared) : (s.finish symbol a prepared).priced = s.captor symbol := by
  cases prepared <;> rfl

@[simp] theorem captor_execute (prepared : Prepared) : (s.execute symbol a prepared).1.captor = s.captor := by
  unfold execute
  split <;> rfl

@[simp] theorem claimed_execute (prepared : Prepared) : (s.execute symbol a prepared).1.claimed = s.claimed := by
  unfold execute
  split <;> rfl

@[simp] theorem captor_finish (prepared : Option Prepared) : (s.finish symbol a prepared).state.captor = s.captor := by
  cases prepared with
  | none => rfl
  | some prepared => exact captor_execute prepared

@[simp] theorem claimed_finish (prepared : Option Prepared) : (s.finish symbol a prepared).state.claimed = s.claimed := by
  cases prepared with
  | none => rfl
  | some prepared => exact claimed_execute prepared

def Resets (s : Timed) (zone : ZoneInfo) (a : Arrival) : Prop :=
  ∃ today, Task.openWindow zone a.openTime = some today ∧ s.isClaimed a.openTime today = false

/-- A check that does not raise makes the reset, or has none to make. -/
theorem checkMarketOpenReset_cases (passed : (s.checkMarketOpenReset zone a).2 = false) :
    (¬s.Resets zone a ∧ (s.checkMarketOpenReset zone a).1 = s) ∨
      ∃ today, Task.openWindow zone a.openTime = some today ∧ s.isClaimed a.openTime today = false ∧
        (s.checkMarketOpenReset zone a).1 =
          { keys := { s.keys with board := Function.update s.keys.board .topGainers ∅ }
            captor := fun _ => none
            claimed := Function.update s.claimed today (some a.openTime) } := by
  cases window : Task.openWindow zone a.openTime with
  | none =>
      refine .inl ⟨?_, by simp only [checkMarketOpenReset, window]⟩
      rintro ⟨today, inside, -⟩
      cases window.symm.trans inside
  | some today =>
      simp only [checkMarketOpenReset, window] at passed ⊢
      by_cases claim : a.fails .claim = true
      · simp [claim] at passed
      by_cases marked : s.isClaimed a.openTime today = true
      · refine .inl ⟨?_, by simp [claim, marked]⟩
        rintro ⟨day, inside, free⟩
        cases window.symm.trans inside
        cases marked.symm.trans free
      · by_cases clear : a.fails .clear = true
        · simp [claim, marked, clear] at passed
        · exact .inr ⟨today, rfl, Bool.eq_false_of_not_eq_true marked, by simp [claim, marked, clear]⟩

theorem captor_checkMarketOpenReset (passed : (s.checkMarketOpenReset zone a).2 = false) :
    (s.Resets zone a ∧ (s.checkMarketOpenReset zone a).1.captor = fun _ => none) ∨
      (¬s.Resets zone a ∧ (s.checkMarketOpenReset zone a).1.captor = s.captor) := by
  rcases checkMarketOpenReset_cases passed with ⟨none, same⟩ | ⟨today, window, free, same⟩
  · exact .inr ⟨none, by rw [same]⟩
  · exact .inl ⟨⟨today, window, free⟩, by rw [same]⟩

theorem captor_checks (passed : (s.checks zone a).2 = false) :
    (s.Resets zone a ∧ (s.checks zone a).1.captor = fun _ => none) ∨
      (¬s.Resets zone a ∧ (s.checks zone a).1.captor = s.captor) := by
  unfold checks at *
  split_ifs at passed ⊢
  exact captor_checkMarketOpenReset passed

structure Asks (s : Timed) (zone : ZoneInfo) (a : Arrival) (symbol : String) : Prop where
  passed : (s.checks zone a).2 = false
  named : a.event.symbol = some symbol
  early : ∃ lookups early, a.lookups = some lookups ∧
    computeEarly a.event.data (prevDayOf lookups.snapshot) lookups.avgVolume = some early

theorem update_asks : s.update float symbol a = ⟨s, .raised, none⟩ ∨
    ∃ lookups early openPrice after prepared, a.lookups = some lookups ∧
      computeEarly a.event.data (prevDayOf lookups.snapshot) lookups.avgVolume = some early ∧
      s.getSymbolOpenPrice float symbol a = some (openPrice, after) ∧
      s.update float symbol a = after.finish symbol a prepared := by
  unfold update
  cases a.lookups with
  | none => exact .inl rfl
  | some lookups =>
      cases computed : computeEarly a.event.data (prevDayOf lookups.snapshot) lookups.avgVolume with
      | none => exact .inl (by simp only [computed])
      | some early =>
          cases asked : s.getSymbolOpenPrice float symbol a with
          | none => exact .inl (by simp only [computed])
          | some answer =>
              obtain ⟨openPrice, after⟩ := answer
              exact .inr ⟨lookups, early, openPrice, after, _, rfl, computed, rfl, by simp only [computed]; rfl⟩

theorem priced_update : (s.update float symbol a).priced = some e ↔
    (∃ lookups early, a.lookups = some lookups ∧
      computeEarly a.event.data (prevDayOf lookups.snapshot) lookups.avgVolume = some early) ∧
      ∃ openPrice after, s.getSymbolOpenPrice float symbol a = some (openPrice, after) ∧ after.captor symbol = some e := by
  constructor
  · intro priced
    rcases update_asks with raised | ⟨lookups, early, openPrice, after, prepared, looked, computed, asked, same⟩
    · rw [raised] at priced
      cases priced
    · rw [same, priced_finish] at priced
      exact ⟨⟨lookups, early, looked, computed⟩, openPrice, after, asked, priced⟩
  · rintro ⟨⟨lookups, early, looked, computed⟩, openPrice, after, asked, captor⟩
    simp only [update, looked, computed, asked, priced_finish, captor]

theorem priced_eq_some :
    (s.analyzeData float zone a).priced = some e ↔ ∃ symbol openPrice after, s.Asks zone a symbol ∧
      (s.checks zone a).1.getSymbolOpenPrice float symbol a = some (openPrice, after) ∧ after.captor symbol = some e := by
  unfold analyzeData
  cases passed : (s.checks zone a).2 with
  | true => simp only [if_true]; exact ⟨nofun, fun ⟨_, _, _, asks, _⟩ => by rw [asks.passed] at passed; cases passed⟩
  | false =>
      simp only [Bool.false_eq_true, if_false]
      cases named : a.event.symbol with
      | none => exact ⟨nofun, fun ⟨_, _, _, asks, _⟩ => by rw [asks.named] at named; cases named⟩
      | some symbol =>
          simp only [priced_update]
          constructor
          · rintro ⟨early, openPrice, after, asked, captor⟩
            exact ⟨symbol, openPrice, after, ⟨passed, named, early⟩, asked, captor⟩
          · rintro ⟨other, openPrice, after, asks, asked, captor⟩
            cases named.symm.trans asks.named
            exact ⟨asks.early, openPrice, after, asked, captor⟩

theorem cachedOpen_eq_some {now : ℤ} {value : Value} : s.cachedOpen now symbol = some value ↔
    ∃ e, s.captor symbol = some e ∧ now < e.storeTime + 86400 ∧ isEmptyText (openOf e.event.data) = false ∧
      openOf e.event.data = value := by
  simp only [cachedOpen, Option.bind_eq_some_iff, Option.ite_none_right_eq_some, Option.some.injEq, and_assoc]

theorem read_of_getSymbolOpenPrice {answer : Value × Timed} (asked : s.getSymbolOpenPrice float symbol a = some answer) :
    a.fails .read = false := by
  by_contra fails
  simp [getSymbolOpenPrice, fails] at asked

theorem getSymbolOpenPrice_eq_some {openPrice : Value}
    (asked : s.getSymbolOpenPrice float symbol a = some (openPrice, t)) :
    (∃ e q, s.captor symbol = some e ∧ a.readTime < e.storeTime + 86400 ∧ isEmptyText (openOf e.event.data) = false ∧
        floatOf float (openOf e.event.data) = some q ∧ openPrice = .num q ∧ t = s) ∨
      (a.fails .store = false ∧ s.cachedOpen a.readTime symbol = none) ∧ openPrice = openOf a.event.data ∧
        t = { s with captor := Function.update s.captor symbol (some a) } := by
  unfold getSymbolOpenPrice at asked
  by_cases read : a.fails .read = true
  · rw [if_pos read] at asked
    cases asked
  rw [if_neg read] at asked
  cases found : s.cachedOpen a.readTime symbol with
  | none =>
      simp only [found] at asked
      split_ifs at asked with store
      cases asked
      exact .inr ⟨⟨Bool.eq_false_of_not_eq_true store, rfl⟩, rfl, rfl⟩
  | some cached =>
      simp only [found] at asked
      obtain ⟨q, readable, same⟩ := Option.map_eq_some_iff.mp asked
      cases same
      obtain ⟨e, captor, live, text, rfl⟩ := cachedOpen_eq_some.mp found
      exact .inl ⟨e, q, captor, live, text, readable, rfl, rfl⟩

theorem getSymbolOpenPrice_of_live {q : ℚ} (answered : a.fails .read = false) (captor : s.captor symbol = some e)
    (live : a.readTime < e.storeTime + 86400) (text : isEmptyText (openOf e.event.data) = false)
    (readable : floatOf float (openOf e.event.data) = some q) :
    s.getSymbolOpenPrice float symbol a = some (.num q, s) := by
  have found : s.cachedOpen a.readTime symbol = some (openOf e.event.data) :=
    cachedOpen_eq_some.mpr ⟨e, captor, live, text, rfl⟩
  simp [getSymbolOpenPrice, answered, found, readable]

theorem quoted_of_executes {lookups : Lookups} {early : Early} {openPrice : Value} {prepared : Prepared} {commit : Commit}
    (passed : (s.checks zone a).2 = false) (named : a.event.symbol = some symbol) (looked : a.lookups = some lookups)
    (computed : computeEarly a.event.data (prevDayOf lookups.snapshot) lookups.avgVolume = some early)
    (asked : (s.checks zone a).1.getSymbolOpenPrice float symbol a = some (openPrice, t))
    (ready : prepare symbol a.event.data (prevDayOf lookups.snapshot) lookups.avgVolume lookups.freeFloat openPrice early =
      some prepared)
    (executes : a.fails .execute = false) (committed : prepared.commit symbol = some commit)
    (publishes : a.fails .publish = false) : (s.analyzeData float zone a).outcome = .quoted prepared.mapping := by
  simp [analyzeData, passed, named, update, looked, computed, asked, ready, finish, execute, executes, committed, publishes]

theorem mapping_of_execute {prepared : Prepared} {mapping : Dict String Value}
    (quoted : (s.execute symbol a prepared).2 = .quoted mapping) : mapping = prepared.mapping := by
  unfold execute at quoted
  split at quoted
  · split_ifs at quoted
  · split_ifs at quoted
    cases quoted
    rfl

theorem open_of_update {mapping : Dict String Value} (quoted : (s.update float symbol a).outcome = .quoted mapping) :
    ∃ openPrice after, s.getSymbolOpenPrice float symbol a = some (openPrice, after) ∧
      (s.update float symbol a).priced = after.captor symbol ∧ ("open", openPrice) ∈ mapping.entries := by
  unfold update at *
  cases looked : a.lookups with
  | none => simp [looked] at quoted
  | some lookups =>
      cases computed : computeEarly a.event.data (prevDayOf lookups.snapshot) lookups.avgVolume with
      | none => simp [looked, computed] at quoted
      | some early =>
          cases asked : s.getSymbolOpenPrice float symbol a with
          | none => simp [looked, computed, asked] at quoted
          | some answer =>
              obtain ⟨openPrice, after⟩ := answer
              cases ready : prepare symbol a.event.data (prevDayOf lookups.snapshot) lookups.avgVolume lookups.freeFloat
                openPrice early with
              | none => simp [looked, computed, asked, ready, finish] at quoted
              | some prepared =>
                  simp only [looked, computed, asked, ready, finish] at quoted ⊢
                  rw [mapping_of_execute quoted]
                  exact ⟨openPrice, after, rfl, rfl, (mapping_of_prepare ready).2.1⟩

theorem open_of_quoted {mapping : Dict String Value} (quoted : (s.analyzeData float zone a).outcome = .quoted mapping) :
    ∃ e openPrice, (s.analyzeData float zone a).priced = some e ∧ ("open", openPrice) ∈ mapping.entries ∧
      (openPrice = openOf e.event.data ∨ ∃ q, floatOf float (openOf e.event.data) = some q ∧ openPrice = .num q) := by
  unfold analyzeData at *
  by_cases raised : (s.checks zone a).2 = true
  · simp [raised] at quoted
  rw [if_neg raised] at quoted ⊢
  cases named : a.event.symbol with
  | none =>
      simp only [named] at quoted
      split at quoted <;> cases quoted
  | some symbol =>
      simp only [named] at quoted ⊢
      obtain ⟨openPrice, after, asked, priced, entry⟩ := open_of_update quoted
      rw [priced]
      rcases getSymbolOpenPrice_eq_some asked with ⟨e, q, captor, -, -, readable, rfl, rfl⟩ | ⟨-, rfl, rfl⟩
      · exact ⟨e, _, captor, entry, .inr ⟨q, readable, rfl⟩⟩
      · exact ⟨a, _, Function.update_self .., entry, .inl rfl⟩

/-! Whose open price is used on which day. -/

variable (float zone)

def OfDay (s : Timed) (a : Arrival) : Prop :=
  ∀ e, (s.analyzeData float zone a).priced = some e → e.day zone = a.day zone

instance (s : Timed) (a : Arrival) : Decidable (OfDay float zone s a) :=
  match same : (s.analyzeData float zone a).priced with
  | none => isTrue fun e priced => by rw [same] at priced; cases priced
  | some e => decidable_of_iff (e.day zone = a.day zone) (by simp [OfDay, same])

/-- An open price that an event of another day stored is gone when it is asked
for: a day has passed, or this event makes the market open reset. -/
def Timely (s : Timed) (a : Arrival) : Prop :=
  ∀ symbol e q, s.Asks zone a symbol → a.fails .read = false → s.captor symbol = some e →
    isEmptyText (openOf e.event.data) = false → floatOf float (openOf e.event.data) = some q →
    e.day zone ≠ a.day zone → s.Resets zone a ∨ e.storeTime + 86400 ≤ a.readTime

variable {float zone}

theorem ofDay_iff_timely : OfDay float zone s a ↔ Timely float zone s a := by
  constructor
  · intro ofDay symbol e q asks answered captor text readable apart
    by_contra wrong
    obtain ⟨resets, live⟩ := not_or.mp wrong
    rcases captor_checks asks.passed with ⟨yes, -⟩ | ⟨-, kept⟩
    · exact resets yes
    · have captor : (s.checks zone a).1.captor symbol = some e := by rw [kept, captor]
      have asked := getSymbolOpenPrice_of_live answered captor (not_le.mp live) text readable
      exact apart (ofDay e (priced_eq_some.mpr ⟨symbol, _, _, asks, asked, captor⟩))
  · intro timely e priced
    obtain ⟨symbol, openPrice, after, asks, asked, captor⟩ := priced_eq_some.mp priced
    have answered := read_of_getSymbolOpenPrice asked
    rcases getSymbolOpenPrice_eq_some asked with ⟨other, q, stored, live, text, readable, -, rfl⟩ | ⟨-, -, rfl⟩
    · cases stored.symm.trans captor
      by_contra apart
      rcases captor_checks asks.passed with ⟨-, none⟩ | ⟨keeps, kept⟩
      · rw [none] at captor
        cases captor
      · rw [kept] at captor
        rcases timely symbol e q asks answered captor text readable apart with resets | gone
        · exact keeps resets
        · exact absurd gone (not_le.mpr live)
    · simp only [Function.update_self, Option.some.injEq] at captor
      rw [captor]

/-- Every event of a run is scored with an open price of its own day exactly
where none finds one of another day. -/
theorem ofDay_run_iff (float : String → Option ℚ) (zone : ZoneInfo) (arrivals : List Arrival) :
    Along (step float zone) (OfDay float zone) arrivals fresh ↔
      Along (step float zone) (Timely float zone) arrivals fresh :=
  along_congr (fun _ => True) (fun _ _ _ => trivial) (fun _ => ofDay_iff_timely) trivial

def InOrder (arrivals : List Arrival) : Prop :=
  (∀ a ∈ arrivals, a.boundaryTime ≤ a.openTime ∧ a.openTime ≤ a.readTime ∧ a.readTime ≤ a.storeTime) ∧
    arrivals.Pairwise fun a b => a.storeTime ≤ b.boundaryTime

def trade («open» close : Value) : Aggregate where
  data :=
    { entries := [("symbol", .str "AAPL"), ("open", «open»), ("close", close)]
      unique := show ["symbol", "open", "close"].Nodup by decide }
  symbolText := by
    intro value read _
    exact ⟨"AAPL", (Option.some.inj read).symm⟩

def arriveAt (time : ℤ) (event : Aggregate) : Arrival where
  event := event
  boundaryTime := time
  openTime := time
  readTime := time
  storeTime := time
  lookups := some ⟨none, .num 0, .num 0⟩
  fails _ := false

/-- Tuesday at 17:13 and Wednesday at 10:13, with nothing at 9:30. -/
def overnight : List Arrival :=
  [arriveAt 1700000000 (trade (.num 10) (.num 11)), arriveAt 1700061200 (trade (.num 12) (.num 13))]

theorem ofDay_overnight :
    InOrder overnight ∧
      ¬Along (step (fun _ => none) americaNewYork) (OfDay (fun _ => none) americaNewYork) overnight fresh := by
  constructor
  · simp only [InOrder, overnight, arriveAt]
    decide
  · decide +kernel

end Timed

end KuhlHausMdp.LeaderboardAnalyzer
