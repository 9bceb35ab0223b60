import Mathlib.Tactic.Ring
import KuhlHausMdp.Library.Since
import KuhlHausMdp.LeaderboardAnalyzer.Tasks

/-! Events handled one at a time. Every score on a board is then the one its
symbol's last event gives, over the open price of its first event since the
market opened. -/

set_option autoImplicit false

namespace KuhlHausMdp.LeaderboardAnalyzer

open MarketDataCache

structure Aggregate where
  data : Dict String Value
  symbolText : ∀ value, data.get "symbol" = some value → value.truthy = true → ∃ s, value = .str s

/-- The empty symbol is none. -/
def Aggregate.symbol (event : Aggregate) : Option String :=
  match event.data.get "symbol" with
  | some (.str s) => if s = "" then none else some s
  | _ => none

/-- An event with the clock at its two checks and the answers of the caches. -/
structure Handling where
  event : Aggregate
  boundaryTime : ℤ
  openTime : ℤ
  snapshot : TickerSnapshot
  avgVolume : Value
  freeFloat : Value

/-- `event.get("open", event.get("close", 0))`. -/
def openOf (data : Dict String Value) : Value := readOr data "open" (readOr data "close" (.num 0))

namespace Store

/-- `_check_market_open_reset`: the first call of the window deletes the gainers
and every open price its scan finds, which is all of them while nothing else runs. -/
def checkMarketOpenReset (s : Store) (zone : ZoneInfo) (now : ℤ) : Store :=
  match Task.openWindow zone now with
  | none => s
  | some today =>
      if s.openReset today then s
      else
        { s with
          openReset := Function.update s.openReset today true
          board := Function.update s.board .topGainers ∅
          openPrice := fun _ => none }

def opens (s : Store) (zone : ZoneInfo) (now : ℤ) : Bool :=
  match Task.openWindow zone now with
  | none => false
  | some today => !s.openReset today

/-- `_get_symbol_open_price`; what was cached must be a number. -/
def getSymbolOpenPrice (s : Store) (symbol : String) (data : Dict String Value) : Option (Value × Store) :=
  match s.openPrice symbol with
  | none => some (openOf data, { s with openPrice := Function.update s.openPrice symbol (some (openOf data)) })
  | some (.num price) => some (.num price, s)
  | some _ => none

def checked (s : Store) (zone : ZoneInfo) (handling : Handling) : Store :=
  (s.checkDayBoundary (currentDayTs zone handling.boundaryTime)).checkMarketOpenReset zone handling.openTime

/-- `analyze_data` up to its pipeline, run alone; none where it raises. -/
def analyzeData (s : Store) (zone : ZoneInfo) (handling : Handling) : Option Store :=
  match handling.event.symbol with
  | none => some (s.checked zone handling)
  | some symbol => do
      let (openPrice, s) ← (s.checked zone handling).getSymbolOpenPrice symbol handling.event.data
      let commit ← metrics symbol handling.event.data handling.snapshot handling.avgVolume handling.freeFloat openPrice
      return s.commit commit

def run (s : Store) (zone : ZoneInfo) : List Handling → Option Store
  | [] => some s
  | handling :: rest => (s.analyzeData zone handling).bind fun s => s.run zone rest

end Store

structure Entry where
  symbol : Option String
  data : Dict String Value
  snapshot : TickerSnapshot
  dayReset : Bool
  openReset : Bool

def entryOf (s : Store) (zone : ZoneInfo) (handling : Handling) : Entry where
  symbol := handling.event.symbol
  data := handling.event.data
  snapshot := handling.snapshot
  dayReset := (compareDay s.marketDay (currentDayTs zone handling.boundaryTime)).1
  openReset := (s.checkDayBoundary (currentDayTs zone handling.boundaryTime)).opens zone handling.openTime

def history (s : Store) (zone : ZoneInfo) : List Handling → List Entry
  | [] => []
  | handling :: rest =>
      entryOf s zone handling :: match s.analyzeData zone handling with
        | none => []
        | some s => history s zone rest

/-! The specification. -/

/-- `100 * (close - base) / base`, and 0 for a base of 0. -/
def percentOf (close base : Value) : ℚ :=
  match close.number?, base.number? with
  | some close, some base => if base = 0 then 0 else 100 * (close - base) / base
  | _, _ => 0

def Entry.close (entry : Entry) : Value := readOr entry.data "close" (.num 0)

/-- Without a previous day the close is compared with itself. -/
def Entry.previousClose (entry : Entry) : Value := (entry.snapshot.prevDay.map Bar.close).getD entry.close

def Entry.score (entry : Entry) (base : Value) : Board → Option ℚ
  | .topVolume => scoreOf (readOr entry.data "accumulated_volume" (.num 0))
  | .topGappers => some (percentOf entry.close entry.previousClose)
  | .topGainers => some (percentOf entry.close base)

def Entry.isOf (symbol : String) (entry : Entry) : Bool := entry.symbol = some symbol

def lastOf (symbol : String) (entries : List Entry) : Option Entry := (entries.filter (Entry.isOf symbol)).getLast?

/-- The events since the last day reset, and since the last market open. -/
def sinceDay (entries : List Entry) : List Entry := entries.since Entry.dayReset

def sinceOpen (entries : List Entry) : List Entry := entries.since Entry.openReset

/-- The open of the symbol's first event since the market opened. -/
def baseOf (symbol : String) (entries : List Entry) : Option Value :=
  ((sinceOpen entries).find? (Entry.isOf symbol)).map fun entry => openOf entry.data

structure Reflects (entries : List Entry) (s : Store) : Prop where
  openPrice : ∀ symbol, s.openPrice symbol = baseOf symbol entries
  score : ∀ board score symbol, toLex (score, symbol) ∈ (s.board board).toFinset →
    ∃ entry, lastOf symbol entries = some entry ∧
      entry.score ((baseOf symbol entries).getD (.num 0)) board = some score
  today : ∀ board score symbol, toLex (score, symbol) ∈ (s.board board).toFinset →
    (sinceDay entries).any (Entry.isOf symbol) = true
  opened : ∀ score symbol, toLex (score, symbol) ∈ (s.board .topGainers).toFinset →
    (sinceOpen entries).any (Entry.isOf symbol) = true

theorem sinceDay_append (entries : List Entry) (last : Entry) :
    sinceDay (entries ++ [last]) = if last.dayReset then [last] else sinceDay entries ++ [last] :=
  List.since_append ..

theorem sinceOpen_append (entries : List Entry) (last : Entry) :
    sinceOpen (entries ++ [last]) = if last.openReset then [last] else sinceOpen entries ++ [last] :=
  List.since_append ..

theorem lastOf_append (symbol : String) (entries : List Entry) (last : Entry) :
    lastOf symbol (entries ++ [last]) = if last.isOf symbol then some last else lastOf symbol entries := by
  rw [lastOf, List.filter_append, List.getLast?_append]
  cases own : last.isOf symbol with
  | true => simp [own]
  | false => simp [own, lastOf]

theorem baseOf_append (symbol : String) (entries : List Entry) (last : Entry) :
    baseOf symbol (entries ++ [last]) =
      (if last.openReset then none else baseOf symbol entries).or
        (if last.isOf symbol then some (openOf last.data) else none) := by
  rw [baseOf, sinceOpen_append]
  cases last.openReset with
  | true => cases own : last.isOf symbol <;> simp [own]
  | false =>
      simp only [Bool.false_eq_true, if_false, List.find?_append, baseOf]
      cases (sinceOpen entries).find? (Entry.isOf symbol) with
      | none => cases own : last.isOf symbol <;> simp [own]
      | some first => simp

/-! What the metrics score. -/

theorem percentOf_eq {close base value : Value} {score : ℚ} (computed : orZero base (percentage close base) = some value)
    (scored : scoreOf value = some score) : percentOf close base = score := by
  have number : ∀ q, (Value.num q).number? = some q := fun _ => rfl
  unfold orZero at computed
  by_cases condition : base.truthy = true
  · rw [if_pos condition] at computed
    unfold percentOf
    cases part : close.number? with
    | none => simp [percentage, sub, part] at computed
    | some x =>
        cases whole : base.number? with
        | none => simp [percentage, sub, part, whole] at computed
        | some y =>
            by_cases zero : y = 0
            · simp [percentage, sub, div, part, whole, zero] at computed
            · simp only [percentage, sub, div, part, whole, zero, number, Option.bind_eq_bind, Option.bind_some,
                Option.pure_def, if_false, Option.some.injEq] at computed
              subst computed
              rw [← Option.some.inj scored]
              simp only [zero, if_false]
              ring
  · rw [if_neg condition, Option.some.injEq] at computed
    subst computed
    rw [← Option.some.inj scored]
    -- a base that is not truthy is 0 or no number
    unfold percentOf
    cases close.number? with
    | none => rfl
    | some x =>
        cases whole : base.number? with
        | none => rfl
        | some y =>
            have zero : y = 0 := by
              cases base <;> simp_all [Value.number?, Value.truthy]
            simp [zero]

theorem metrics_score {symbol : String} {handling : Handling} {openPrice : Value} {commit : Commit}
    (computed : metrics symbol handling.event.data handling.snapshot handling.avgVolume handling.freeFloat openPrice =
      some commit) {entry : Entry} (data : entry.data = handling.event.data)
    (snapshot : entry.snapshot = handling.snapshot) (board : Board) :
    entry.score openPrice board = some (commit.score board) := by
  obtain ⟨gap, gain, -, -, isGap, isGain, volumeScore, gapScore, gainScore⟩ := metrics_cases computed
  cases board with
  | topVolume => rw [Entry.score, data]; exact volumeScore
  | topGappers =>
      rw [Entry.score, Entry.previousClose, Entry.close, data, snapshot]
      exact congrArg some (percentOf_eq isGap gapScore)
  | topGainers =>
      rw [Entry.score, Entry.close, data]
      exact congrArg some (percentOf_eq isGain gainScore)

/-! What the checks leave. -/

theorem mem_checkDayBoundary {s : Store} {day : ℤ} {board : Board} {entry : ℚ ×ₗ String}
    (member : entry ∈ ((s.checkDayBoundary day).board board).toFinset) :
    (compareDay s.marketDay day).1 = false ∧ entry ∈ (s.board board).toFinset := by
  simp only [Store.checkDayBoundary] at member
  cases reset : (compareDay s.marketDay day).1 with
  | true =>
      simp only [reset, if_true] at member
      exact absurd member (Finset.notMem_empty entry)
  | false => simpa [reset] using member

theorem checkMarketOpenReset_spec (s : Store) (zone : ZoneInfo) (now : ℤ) :
    (s.checkMarketOpenReset zone now).openPrice = (if s.opens zone now then fun _ => none else s.openPrice) ∧
      (s.checkMarketOpenReset zone now).board =
        if s.opens zone now then Function.update s.board .topGainers ∅ else s.board := by
  unfold Store.checkMarketOpenReset Store.opens
  cases Task.openWindow zone now with
  | none => exact ⟨rfl, rfl⟩
  | some today =>
      cases claimed : s.openReset today with
      | true => simp [claimed]
      | false => simp [claimed]

/-- A board after the checks has members only where nothing was deleted. -/
theorem mem_checked {s : Store} {zone : ZoneInfo} {handling : Handling} {board : Board} {entry : ℚ ×ₗ String}
    (member : entry ∈ ((s.checked zone handling).board board).toFinset) :
    (entryOf s zone handling).dayReset = false ∧ entry ∈ (s.board board).toFinset ∧
      (board = .topGainers → (entryOf s zone handling).openReset = false) := by
  rw [Store.checked, (checkMarketOpenReset_spec ..).2] at member
  cases opened : (s.checkDayBoundary (currentDayTs zone handling.boundaryTime)).opens zone handling.openTime with
  | true =>
      simp only [opened, if_true] at member
      by_cases gainers : board = .topGainers
      · rw [gainers, Function.update_self] at member
        exact absurd member (Finset.notMem_empty entry)
      · rw [Function.update_of_ne gainers] at member
        obtain ⟨kept, old⟩ := mem_checkDayBoundary member
        exact ⟨kept, old, fun same => absurd same gainers⟩
  | false =>
      simp only [opened, Bool.false_eq_true, if_false] at member
      obtain ⟨kept, old⟩ := mem_checkDayBoundary member
      exact ⟨kept, old, fun _ => opened⟩

theorem openPrice_checked (s : Store) (zone : ZoneInfo) (handling : Handling) (symbol : String) :
    (s.checked zone handling).openPrice symbol =
      if (entryOf s zone handling).openReset then none else s.openPrice symbol := by
  rw [Store.checked, (checkMarketOpenReset_spec ..).1, entryOf]
  split <;> rfl

/-! One more event. -/

variable {s after : Store} {zone : ZoneInfo} {handling : Handling} {entries : List Entry}

theorem Reflects.others (reflects : Reflects entries s) {symbol : String}
    (other : (entryOf s zone handling).isOf symbol = false) {board : Board} {score : ℚ}
    (member : toLex (score, symbol) ∈ ((s.checked zone handling).board board).toFinset) :
    (∃ entry, lastOf symbol (entries ++ [entryOf s zone handling]) = some entry ∧
        entry.score ((baseOf symbol (entries ++ [entryOf s zone handling])).getD (.num 0)) board = some score) ∧
      (sinceDay (entries ++ [entryOf s zone handling])).any (Entry.isOf symbol) = true ∧
      (board = .topGainers → (sinceOpen (entries ++ [entryOf s zone handling])).any (Entry.isOf symbol) = true) := by
  obtain ⟨sameDay, old, notOpened⟩ := mem_checked member
  rw [lastOf_append, baseOf_append, sinceDay_append, sinceOpen_append, other, sameDay]
  simp only [Bool.false_eq_true, if_false, Option.or_none, List.any_append, List.any_cons, other, List.any_nil,
    Bool.or_false]
  refine ⟨?_, reflects.today board score symbol old, fun gainers => ?_⟩
  · obtain ⟨entry, last, scored⟩ := reflects.score board score symbol old
    refine ⟨entry, last, ?_⟩
    -- only the gainers' score asks for the base, and they were not reset
    cases board with
    | topVolume => exact scored
    | topGappers => exact scored
    | topGainers => simpa only [notOpened rfl, Bool.false_eq_true, if_false] using scored
  · subst gainers
    simpa [notOpened rfl, other] using reflects.opened score symbol old

theorem Reflects.openPrice_others (reflects : Reflects entries s) {symbol : String}
    (other : (entryOf s zone handling).isOf symbol = false) :
    (s.checked zone handling).openPrice symbol = baseOf symbol (entries ++ [entryOf s zone handling]) := by
  rw [openPrice_checked, baseOf_append, other, reflects.openPrice]
  cases (entryOf s zone handling).openReset <;> simp

/-- An event without a symbol only runs the checks. -/
theorem Reflects.unnamed (reflects : Reflects entries s) (unnamed : handling.event.symbol = none) :
    Reflects (entries ++ [entryOf s zone handling]) (s.checked zone handling) := by
  have other : ∀ symbol, (entryOf s zone handling).isOf symbol = false := by
    intro symbol
    simp [Entry.isOf, entryOf, unnamed]
  exact
    { openPrice := fun symbol => reflects.openPrice_others (other symbol)
      score := fun board score symbol member => (reflects.others (other symbol) member).1
      today := fun board score symbol member => (reflects.others (other symbol) member).2.1
      opened := fun score symbol member => (reflects.others (other symbol) member).2.2 rfl }

theorem getSymbolOpenPrice_cases {symbol : String} {data : Dict String Value} {openPrice : Value}
    (priced : s.getSymbolOpenPrice symbol data = some (openPrice, after)) :
    after.board = s.board ∧ after.openPrice = Function.update s.openPrice symbol (some openPrice) ∧
      openPrice = (s.openPrice symbol).getD (openOf data) := by
  unfold Store.getSymbolOpenPrice at priced
  cases stored : s.openPrice symbol with
  | none =>
      simp only [stored] at priced
      cases priced
      exact ⟨rfl, rfl, rfl⟩
  | some value =>
      cases value with
      | num price =>
          simp only [stored] at priced
          cases priced
          exact ⟨rfl, by rw [← stored, Function.update_eq_self], rfl⟩
      | _ => simp [stored] at priced

theorem isOf_entryOf {symbol : String} (named : handling.event.symbol = some symbol) (other : String) :
    (entryOf s zone handling).isOf other = decide (symbol = other) := by
  simp [Entry.isOf, entryOf, named]

theorem Reflects.base (reflects : Reflects entries s) {symbol : String} (named : handling.event.symbol = some symbol)
    {openPrice : Value} {priced : Store}
    (asked : (s.checked zone handling).getSymbolOpenPrice symbol handling.event.data = some (openPrice, priced)) :
    baseOf symbol (entries ++ [entryOf s zone handling]) = some openPrice := by
  obtain ⟨-, -, isPrice⟩ := getSymbolOpenPrice_cases asked
  rw [isPrice, openPrice_checked, reflects.openPrice, baseOf_append, isOf_entryOf named]
  cases (if (entryOf s zone handling).openReset then none else baseOf symbol entries) <;> simp [entryOf]

/-- A pipeline over a store whose other symbols are as the entries say. -/
theorem Reflects.named (reflects : Reflects entries s) {symbol : String} (named : handling.event.symbol = some symbol)
    {openPrice : Value} {priced : Store} {commit : Commit}
    (asked : (s.checked zone handling).getSymbolOpenPrice symbol handling.event.data = some (openPrice, priced))
    (computed : metrics symbol handling.event.data handling.snapshot handling.avgVolume handling.freeFloat openPrice =
      some commit) :
    Reflects (entries ++ [entryOf s zone handling]) (priced.commit commit) := by
  obtain ⟨sameBoard, stored, -⟩ := getSymbolOpenPrice_cases asked
  have base := reflects.base named asked
  have own : (entryOf s zone handling).isOf symbol = true := by
    rw [isOf_entryOf named, decide_eq_true rfl]
  have apart_of : ∀ {other}, other ≠ symbol → (entryOf s zone handling).isOf other = false := by
    intro other apart
    rw [isOf_entryOf named]
    exact decide_eq_false apart.symm
  -- a member is the event's symbol with the new score, or was there before
  have member_cases : ∀ {board score other}, toLex (score, other) ∈ ((priced.commit commit).board board).toFinset →
      score = commit.score board ∧ other = symbol ∨
        (entryOf s zone handling).isOf other = false ∧
          toLex (score, other) ∈ ((s.checked zone handling).board board).toFinset := by
    intro board score other member
    rw [← (metrics_eq_some computed).1] at apart_of ⊢
    rcases Store.mem_commit member with new | ⟨apart, old⟩
    · exact .inl new
    · exact .inr ⟨apart_of apart, sameBoard ▸ old⟩
  constructor
  · intro other
    change priced.openPrice other = _
    rw [stored]
    by_cases same : other = symbol
    · rw [same, Function.update_self, base]
    · rw [Function.update_of_ne same]
      exact reflects.openPrice_others (apart_of same)
  · intro board score other member
    rcases member_cases member with ⟨rfl, rfl⟩ | ⟨apart, old⟩
    · refine ⟨entryOf s zone handling, ?_, ?_⟩
      · rw [lastOf_append, own, if_pos rfl]
      · rw [base, Option.getD_some]
        exact metrics_score computed rfl rfl board
    · exact (reflects.others apart old).1
  · intro board score other member
    rcases member_cases member with ⟨-, rfl⟩ | ⟨apart, old⟩
    · exact List.any_eq_true.mpr ⟨_, List.last_mem_since _ _ _, own⟩
    · exact (reflects.others apart old).2.1
  · intro score other member
    rcases member_cases member with ⟨-, rfl⟩ | ⟨apart, old⟩
    · exact List.any_eq_true.mpr ⟨_, List.last_mem_since _ _ _, own⟩
    · exact (reflects.others apart old).2.2 rfl

theorem Reflects.step (reflects : Reflects entries s) (handled : s.analyzeData zone handling = some after) :
    Reflects (entries ++ [entryOf s zone handling]) after := by
  unfold Store.analyzeData at handled
  cases named : handling.event.symbol with
  | none =>
      simp only [named] at handled
      cases handled
      exact reflects.unnamed named
  | some symbol =>
      simp only [named, Option.bind_eq_bind, Option.bind_eq_some_iff] at handled
      obtain ⟨⟨openPrice, priced⟩, asked, commit, computed, committed⟩ := handled
      cases committed
      exact reflects.named named asked computed

theorem Reflects.run (reflects : Reflects entries s) {handlings : List Handling}
    (ran : s.run zone handlings = some after) : Reflects (entries ++ history s zone handlings) after := by
  induction handlings generalizing s entries with
  | nil =>
      cases ran
      simpa only [history, List.append_nil] using reflects
  | cons handling rest ih =>
      obtain ⟨next, handled, later⟩ := Option.bind_eq_some_iff.mp ran
      have all := ih (reflects.step handled) later
      rwa [history, handled, List.append_cons]

theorem Reflects.fresh : Reflects [] Store.fresh where
  openPrice _ := rfl
  score _ _ _ member := absurd member (Finset.notMem_empty _)
  today _ _ _ member := absurd member (Finset.notMem_empty _)
  opened _ _ member := absurd member (Finset.notMem_empty _)

/-! Numbers are enough for every event to be handled. -/

def IsNum (value : Value) : Prop := ∃ q, value = .num q

/-- All fields of the event but its symbol, the average volume and the bars are
numbers; the free float may be missing. -/
structure Handling.Numeric (handling : Handling) : Prop where
  event : ∀ key value, key ≠ "symbol" → handling.event.data.get key = some value → IsNum value
  avgVolume : IsNum handling.avgVolume
  freeFloat : handling.freeFloat = .none ∨ IsNum handling.freeFloat
  prevDay : ∀ bar, handling.snapshot.prevDay = some bar →
    ∀ field ∈ [Bar.close, Bar.open, Bar.high, Bar.low, Bar.volume, Bar.vwap], IsNum (field bar)

theorem readOr_cases {motive : Value → Prop} {data : Dict String Value} {key : String} {default : Value}
    (present : ∀ value, data.get key = some value → motive value) (missing : motive default) :
    motive (readOr data key default) := by
  unfold readOr
  cases found : data.get key with
  | none => exact missing
  | some value => exact present value found

theorem isNum_readOr {data : Dict String Value} {key : String} {default : Value}
    (present : ∀ value, data.get key = some value → IsNum value) (missing : IsNum default) :
    IsNum (readOr data key default) := readOr_cases present missing

theorem isNum_orElse {first : Value} (number : first = .none ∨ IsNum first) (q : ℚ) : IsNum (first.orElse (.num q)) := by
  unfold Value.orElse
  split
  case isTrue truthy =>
    rcases number with rfl | number
    · cases truthy
    · exact number
  case isFalse => exact ⟨q, rfl⟩

theorem isNum_orZero_sub {a b : Value} (first : IsNum a) (second : IsNum b) :
    ∃ q, orZero b (sub a b) = some (.num q) := by
  obtain ⟨x, rfl⟩ := first
  obtain ⟨y, rfl⟩ := second
  unfold orZero
  split
  · exact ⟨x - y, rfl⟩
  · exact ⟨0, rfl⟩

theorem isNum_orZero_percentage {a b : Value} (first : IsNum a) (second : IsNum b) :
    ∃ q, orZero b (percentage a b) = some (.num q) := by
  obtain ⟨x, rfl⟩ := first
  obtain ⟨y, rfl⟩ := second
  unfold orZero
  split
  case isTrue truthy =>
    have nonzero : y ≠ 0 := by simpa [Value.truthy] using truthy
    exact ⟨(x - y) / y * 100, by simp [percentage, sub, div, Value.number?, nonzero]⟩
  case isFalse => exact ⟨0, rfl⟩

theorem isNum_relativeVolumeOf {a b : Value} (first : IsNum a) (second : IsNum b) :
    ∃ q, relativeVolumeOf a b = some (.num q) := by
  obtain ⟨x, rfl⟩ := first
  obtain ⟨y, rfl⟩ := second
  by_cases positive : y > 0
  · exact ⟨x / y, by simp [relativeVolumeOf, div, Value.number?, positive, positive.ne']⟩
  · exact ⟨0, by simp [relativeVolumeOf, Value.number?, positive]⟩

theorem encodable_of_isNum {value : Value} (number : IsNum value) : encodable value = true := by
  obtain ⟨q, rfl⟩ := number
  rfl

theorem metrics_isSome {handling : Handling} (numeric : handling.Numeric) (symbol : String) {openPrice : Value}
    (priced : IsNum openPrice) :
    (metrics symbol handling.event.data handling.snapshot handling.avgVolume handling.freeFloat openPrice).isSome := by
  have zero : IsNum (.num 0) := ⟨0, rfl⟩
  have field : ∀ key, key ≠ "symbol" → IsNum (readOr handling.event.data key (.num 0)) := fun key other =>
    isNum_readOr (fun value => numeric.event key value other) zero
  have optional : ∀ key, key ≠ "symbol" → IsNum (readOrZero handling.event.data key) := by
    intro key other
    unfold readOrZero readOr
    cases found : handling.event.data.get key with
    | none => exact zero
    | some value => exact isNum_orElse (.inr (numeric.event key value other found)) 0
  have bar : ∀ read ∈ [Bar.close, Bar.open, Bar.high, Bar.low, Bar.volume, Bar.vwap], ∀ default, IsNum default →
      IsNum ((handling.snapshot.prevDay.map read).getD default) := by
    intro read known default number
    cases present : handling.snapshot.prevDay with
    | none => exact number
    | some bar => exact numeric.prevDay bar present read known
  have close := field "close" (by decide)
  have previous := bar Bar.close (by simp) _ close
  obtain ⟨change, isChange⟩ := isNum_orZero_sub close previous
  obtain ⟨gap, isGap⟩ := isNum_orZero_percentage close previous
  obtain ⟨relative, isRelative⟩ := isNum_relativeVolumeOf (field "accumulated_volume" (by decide)) numeric.avgVolume
  obtain ⟨sinceOpen, isSinceOpen⟩ := isNum_orZero_sub close priced
  obtain ⟨gain, isGain⟩ := isNum_orZero_percentage close priced
  simp only [metrics, Option.bind_eq_bind, isChange, isGap, isRelative, isSinceOpen, isGain, Option.bind_some]
  obtain ⟨volume, isVolume⟩ := field "accumulated_volume" (by decide)
  unfold pipeline
  rw [if_pos, isVolume]
  · rfl
  · have sent : ∀ key, key ≠ "symbol" → encodable (readOr handling.event.data key (.num 0)) = true :=
      fun key other => encodable_of_isNum (field key other)
    have sentOptional : ∀ key, key ≠ "symbol" → encodable (readOrZero handling.event.data key) = true :=
      fun key other => encodable_of_isNum (optional key other)
    have sentBar : ∀ read ∈ [Bar.close, Bar.open, Bar.high, Bar.low, Bar.volume, Bar.vwap], ∀ default, IsNum default →
        encodable ((handling.snapshot.prevDay.map read).getD default) = true :=
      fun read known default number => encodable_of_isNum (bar read known default number)
    have average : encodable (handling.avgVolume.orElse (.num 0)) = true :=
      encodable_of_isNum (isNum_orElse (.inr numeric.avgVolume) 0)
    have float : encodable (handling.freeFloat.orElse (.num 0)) = true :=
      encodable_of_isNum (isNum_orElse numeric.freeFloat 0)
    have number : ∀ q, encodable (.num q) = true := fun _ => rfl
    have text : encodable (.str symbol) = true := rfl
    simp [sent, sentOptional, sentBar, average, float, number, text, encodable_of_isNum priced, close, field, zero]

def Priced (s : Store) : Prop := ∀ symbol value, s.openPrice symbol = some value → IsNum value

theorem Priced.checked (priced : Priced s) : Priced (s.checked zone handling) := by
  intro symbol value stored
  rw [openPrice_checked] at stored
  split at stored
  · cases stored
  · exact priced symbol value stored

theorem Priced.analyzeData (priced : Priced s) (numeric : handling.Numeric) :
    ∃ after, s.analyzeData zone handling = some after ∧ Priced after := by
  have checked : Priced (s.checked zone handling) := priced.checked
  unfold Store.analyzeData
  cases handling.event.symbol with
  | none => exact ⟨_, rfl, checked⟩
  | some symbol =>
      have field : ∀ key, key ≠ "symbol" → ∀ value, handling.event.data.get key = some value → IsNum value :=
        fun key other value => numeric.event key value other
      have fallback : IsNum (openOf handling.event.data) :=
        isNum_readOr (field "open" (by decide)) (isNum_readOr (field "close" (by decide)) ⟨0, rfl⟩)
      obtain ⟨openPrice, next, asked, number, kept⟩ : ∃ openPrice next,
          (s.checked zone handling).getSymbolOpenPrice symbol handling.event.data = some (openPrice, next) ∧
            IsNum openPrice ∧ Priced next := by
        unfold Store.getSymbolOpenPrice
        cases stored : (s.checked zone handling).openPrice symbol with
        | none =>
            refine ⟨_, _, rfl, fallback, ?_⟩
            apply (Function.forall_update_iff _ fun _ stored => ∀ value, stored = some value → IsNum value).mpr
            refine ⟨fun value same => ?_, fun other _ => checked other⟩
            exact Option.some.inj same ▸ fallback
        | some value =>
            obtain ⟨price, rfl⟩ := checked symbol value stored
            exact ⟨_, _, rfl, ⟨price, rfl⟩, checked⟩
      obtain ⟨commit, computed⟩ := Option.isSome_iff_exists.mp (metrics_isSome numeric symbol number)
      exact ⟨next.commit commit, by simp [asked, computed], kept⟩

/-- Events, averages and bars that are numbers are handled without an exception. -/
theorem run_isSome (priced : Priced s) {handlings : List Handling} (numeric : ∀ handling ∈ handlings, handling.Numeric) :
    ∃ final, s.run zone handlings = some final := by
  induction handlings generalizing s with
  | nil => exact ⟨s, rfl⟩
  | cons handling rest ih =>
      rw [List.forall_mem_cons] at numeric
      obtain ⟨next, handled, kept⟩ := priced.analyzeData numeric.1
      obtain ⟨final, ran⟩ := ih kept numeric.2
      exact ⟨final, by rw [Store.run, handled]; exact ran⟩

/-! The awaits of one task, with nothing between them, are `analyzeData`. -/

/-- One await of a task that runs alone, with the clock at its resumption. -/
def await (zone : ZoneInfo) (event : Event) (state : Store × Task) (reply : ℤ × Reply) : Option (Store × Task) :=
  state.2.resume zone reply.1 state.1 event reply.2

theorem await_checks (zone : ZoneInfo) (handling : Handling) (event : Event) {keys : List String}
    (complete : ∀ symbol, (s.openPrice symbol).isSome → symbol ∈ keys) :
    ∃ replies, Transition.exec (await zone event) replies
        (s, .boundary (currentDayTs zone handling.boundaryTime)) = some (s.checked zone handling, .snapshot) := by
  have none_left : ∀ symbol, (if symbol ∈ keys then none else s.openPrice symbol) = none := by
    intro symbol
    by_cases present : (s.openPrice symbol).isSome = true
    · exact if_pos (complete symbol present)
    · have missing : s.openPrice symbol = none := by simpa using present
      rw [missing, ite_self]
  cases window : Task.openWindow zone handling.openTime with
  | none =>
      refine ⟨[(0, .redis), (handling.openTime, .redis)], ?_⟩
      simp [Transition.exec, await, Task.resume, window, Store.checked, Store.checkMarketOpenReset]
  | some today =>
      cases claimed : (s.checkDayBoundary (currentDayTs zone handling.boundaryTime)).openReset today with
      | true =>
          refine ⟨[(0, .redis), (handling.openTime, .redis), (0, .redis)], ?_⟩
          simp [Transition.exec, await, Task.resume, window, Store.checked, Store.checkMarketOpenReset, claimed]
      | false =>
          refine ⟨[(0, .redis), (handling.openTime, .redis), (0, .redis), (0, .keys keys)], ?_⟩
          have all : (fun symbol => if symbol ∈ keys then none
              else (s.checkDayBoundary (currentDayTs zone handling.boundaryTime)).openPrice symbol) = fun _ => none :=
            funext none_left
          simp [Transition.exec, await, Task.resume, window, Store.checked, Store.checkMarketOpenReset, claimed, all]

theorem await_update (zone : ZoneInfo) {event : Event} {openPrice : Value} {priced : Store}
    {commit : Commit} (asked : s.getSymbolOpenPrice event.symbol event.data = some (openPrice, priced))
    (computed : metrics event.symbol event.data handling.snapshot handling.avgVolume handling.freeFloat openPrice =
      some commit) :
    ∃ replies, Transition.exec (await zone event) replies (s, .snapshot) = some (priced.commit commit, .done commit) := by
  unfold Store.getSymbolOpenPrice at asked
  cases stored : s.openPrice event.symbol with
  | none =>
      simp only [stored, Option.some.injEq, Prod.mk.injEq] at asked
      obtain ⟨rfl, rfl⟩ := asked
      refine ⟨[(0, .snapshot handling.snapshot), (0, .value handling.avgVolume), (0, .value handling.freeFloat),
        (0, .redis), (0, .redis), (0, .redis)], ?_⟩
      have fallback : Task.fallbackOpen event = openOf event.data := rfl
      simp [Transition.exec, await, Task.resume, Task.compute, stored, fallback, computed]
  | some value =>
      cases value with
      | num price =>
          simp only [stored, Option.some.injEq, Prod.mk.injEq] at asked
          obtain ⟨rfl, rfl⟩ := asked
          refine ⟨[(0, .snapshot handling.snapshot), (0, .value handling.avgVolume), (0, .value handling.freeFloat),
            (0, .redis), (0, .redis)], ?_⟩
          simp [Transition.exec, await, Task.resume, Task.compute, stored, computed]
      | _ => simp [stored] at asked

/-- A task of the processor whose awaits are all its own does what `analyzeData` does. -/
theorem await_analyzeData {event : Event} (same : handling.event.data = event.data) {keys : List String}
    (complete : ∀ symbol, (s.openPrice symbol).isSome → symbol ∈ keys)
    (handled : s.analyzeData zone handling = some after) :
    ∃ replies commit, Transition.exec (await zone event) replies
        (s, .boundary (currentDayTs zone handling.boundaryTime)) = some (after, .done commit) := by
  have named : handling.event.symbol = some event.symbol := by
    simp [Aggregate.symbol, same, event.named, event.nonempty]
  simp only [Store.analyzeData, named, same, Option.bind_eq_bind, Option.bind_eq_some_iff] at handled
  obtain ⟨⟨openPrice, priced⟩, asked, commit, computed, committed⟩ := handled
  cases committed
  obtain ⟨checks, checked⟩ := await_checks zone handling event complete
  obtain ⟨updates, updated⟩ := await_update zone asked computed
  exact ⟨checks ++ updates, commit, Transition.exec_append.mpr ⟨_, checked, updated⟩⟩

/-- After any events handled one at a time, every member of a board has the
score that its symbol's last event gives and has ticked since the last resets. -/
theorem sequential_boards (zone : ZoneInfo) (handlings : List Handling) {final : Store}
    (ran : Store.fresh.run zone handlings = some final) (board : Board) (score : ℚ) (symbol : String)
    (member : toLex (score, symbol) ∈ (final.board board).toFinset) :
    (∃ entry, lastOf symbol (history Store.fresh zone handlings) = some entry ∧
        entry.score ((baseOf symbol (history Store.fresh zone handlings)).getD (.num 0)) board = some score) ∧
      (sinceDay (history Store.fresh zone handlings)).any (Entry.isOf symbol) = true ∧
      (board = .topGainers →
        (sinceOpen (history Store.fresh zone handlings)).any (Entry.isOf symbol) = true ∧
          (baseOf symbol (history Store.fresh zone handlings)).isSome = true) := by
  have reflects : Reflects (history Store.fresh zone handlings) final := by
    simpa only [List.nil_append] using Reflects.fresh.run ran
  refine ⟨reflects.score board score symbol member, reflects.today board score symbol member, fun gainers => ?_⟩
  subst gainers
  have opened := reflects.opened score symbol member
  refine ⟨opened, ?_⟩
  rw [baseOf, Option.isSome_map, List.find?_isSome]
  simpa only [List.any_eq_true] using opened

def tick (accumulatedVolume : ℚ) (now : ℤ) : Handling where
  event :=
    { data := (Processor.aggregate accumulatedVolume now).data
      symbolText := fun _ named _ => ⟨"AAPL", (Option.some.inj named).symm⟩ }
  boundaryTime := now
  openTime := now
  snapshot := Processor.bareSnapshot
  avgVolume := .num 0
  freeFloat := .num 0

def twoTicks : List Handling := [tick 100 1700000000, tick 200 1700000010]

theorem sequential_boards_two_ticks :
    (∃ entry, lastOf "AAPL" (history Store.fresh newYork twoTicks) = some entry ∧
        entry.score ((baseOf "AAPL" (history Store.fresh newYork twoTicks)).getD (.num 0)) .topGainers = some 20) ∧
      (sinceDay (history Store.fresh newYork twoTicks)).any (Entry.isOf "AAPL") = true ∧
      (Board.topGainers = .topGainers →
        (sinceOpen (history Store.fresh newYork twoTicks)).any (Entry.isOf "AAPL") = true ∧
          (baseOf "AAPL" (history Store.fresh newYork twoTicks)).isSome = true) := by
  have ends : (Store.fresh.run newYork twoTicks).any (fun s =>
      decide ((s.board .topGainers).entries = [toLex (20, "AAPL")])) = true := by
    decide +kernel
  obtain ⟨final, ran, entries⟩ := (Option.any_eq_true _ _).mp ends
  apply sequential_boards newYork twoTicks ran
  rw [SortedSet.mem_toFinset, of_decide_eq_true entries]
  exact List.mem_singleton_self _

end KuhlHausMdp.LeaderboardAnalyzer
