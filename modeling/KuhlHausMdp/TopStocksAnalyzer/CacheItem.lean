import Mathlib
import KuhlHausMdp.LeaderboardAnalyzer.Store
import KuhlHausMdp.TopStocksAnalyzer.Analyzer

/-! `TopStocksCacheItem`: a record per symbol, three rankings beside the records,
and the queries that join them again. A query deletes the entries of a ranking
that have no record. -/

set_option autoImplicit false

namespace KuhlHausMdp.TopStocksCacheItem

open LeaderboardAnalyzer (Board)

def ranking (self : TopStocksCacheItem) : Board → Dict String Value
  | .topVolume => self.topVolumeMap
  | .topGappers => self.topGappersMap
  | .topGainers => self.topGainersMap

def withRanking (self : TopStocksCacheItem) (board : Board) (map : Dict String Value) : TopStocksCacheItem :=
  match board with
  | .topVolume => { self with topVolumeMap := map }
  | .topGappers => { self with topGappersMap := map }
  | .topGainers => { self with topGainersMap := map }

def scoreKey : Board → String
  | .topVolume => "accumulated_volume"
  | .topGappers => "pct_change"
  | .topGainers => "pct_change_since_open"

def rowKeys : List String :=
  ["volume", "free_float", "accumulated_volume", "relative_volume", "official_open_price", "vwap", "open", "close",
   "high", "low", "aggregate_vwap", "average_size", "avg_volume", "prev_day_close", "prev_day_volume", "prev_day_vwap",
   "change", "pct_change", "change_since_open", "pct_change_since_open", "start_timestamp", "end_timestamp"]

def fieldsOf (record : Dict String Value) : List String → Option (List (String × Value))
  | [] => some []
  | key :: rest => do
      let value ← record.get key
      return (key, value) :: (← fieldsOf record rest)

/-- One row of a query; `none` where reading the record raises `KeyError`. -/
def row (self : TopStocksCacheItem) (ticker : String) : Option Value := do
  let record ← self.symbolDataCache.get ticker
  return .dict (("symbol", .str ticker) :: (← fieldsOf record rowKeys))

/-- The `except KeyError` branch. `factory` says that the records are a
`defaultdict`, where the failed reading has left an empty record. -/
def heal (self : TopStocksCacheItem) (board : Board) (factory : Bool) (ticker : String) : TopStocksCacheItem :=
  let self := self.withRanking board ((self.ranking board).erase ticker)
  if factory = true ∧ ticker ∉ self.symbolDataCache then
    { self with symbolDataCache := self.symbolDataCache.set ticker ∅ }
  else self

/-- The loop over the sorted items; only the percentage boards stop at a score
that is not positive. -/
def rows (board : Board) (factory : Bool) : List (String × ℚ) → TopStocksCacheItem → List Value × TopStocksCacheItem
  | [], self => ([], self)
  | (ticker, score) :: rest, self =>
      if board ≠ .topVolume ∧ score ≤ 0 then ([], self)
      else
        match self.row ticker with
        | some row =>
            let (later, self) := rows board factory rest self
            (row :: later, self)
        | none => rows board factory rest (self.heal board factory ticker)

def numbers : List (String × Value) → Option (List (String × ℚ))
  | [] => some []
  | (ticker, value) :: rest => do
      let score ← value.number?
      return (ticker, score) :: (← numbers rest)

/-- `sorted(..., key=lambda x: x[1], reverse=True)`: equal scores stay in order,
and comparing anything but numbers raises. -/
def sortedItems (map : Dict String Value) : Option (List (String × ℚ)) :=
  (numbers map.entries).map fun items => items.mergeSort fun first second => second.2 ≤ first.2

def slice {α : Type*} (limit : ℤ) (items : List α) : List α :=
  if 0 ≤ limit then items.take limit.toNat else items.take (items.length - (-limit).toNat)

/-- A query: its rows, none when the sorting raises, and the item it leaves. -/
def top (self : TopStocksCacheItem) (board : Board) (factory : Bool) (limit : ℤ) :
    Option (List Value) × TopStocksCacheItem :=
  match sortedItems (self.ranking board) with
  | none => (none, self)
  | some items =>
      let (rows, self) := rows board factory (slice limit items) self
      (some rows, self)

def topVolume (self : TopStocksCacheItem) := self.top .topVolume

def topGappers (self : TopStocksCacheItem) := self.top .topGappers

def topGainers (self : TopStocksCacheItem) := self.top .topGainers

/-! The copy in Redis. -/

def toDict (self : TopStocksCacheItem) : Value := .dict [
  ("day_start_time", self.dayStartTime.elim .none .num),
  ("symbol_data_cache", .dict (self.symbolDataCache.entries.map fun entry => (entry.1, .dict entry.2.entries))),
  ("top_volume_map", .dict self.topVolumeMap.entries),
  ("top_gappers_map", .dict self.topGappersMap.entries),
  ("top_gainers_map", .dict self.topGainersMap.entries)]

def readTime : Value → Option (Option ℚ)
  | .none => some none
  | .num time => some (some time)
  | _ => none

def readMap : Value → Option (Dict String Value)
  | .dict entries => some ((∅ : Dict String Value).update entries)
  | _ => none

def readRecords : List (String × Value) → Option (List (String × Dict String Value))
  | [] => some []
  | (symbol, value) :: rest => do
      let record ← readMap value
      return (symbol, record) :: (← readRecords rest)

def readCache : Value → Option (Dict String (Dict String Value))
  | .dict entries => (readRecords entries).map (∅ : Dict String (Dict String Value)).update
  | _ => none

def keyword {α : Type} (entries : List (String × Value)) (name : String) (default : α) (read : Value → Option α) :
    Option α :=
  match entries.lookup name with
  | none => some default
  | some value => read value

def keywords : List String :=
  ["day_start_time", "symbol_data_cache", "top_volume_map", "top_gappers_map", "top_gainers_map"]

/-- `TopStocksCacheItem(**data)`, for fields of the declared types. -/
def ofKeywords (data : Value) : Option TopStocksCacheItem :=
  match data with
  | .dict entries => do
      if entries.all fun entry => entry.1 ∈ keywords then
        return {
          dayStartTime := ← keyword entries "day_start_time" (some 0) readTime
          symbolDataCache := ← keyword entries "symbol_data_cache" ∅ readCache
          topVolumeMap := ← keyword entries "top_volume_map" ∅ readMap
          topGappersMap := ← keyword entries "top_gappers_map" ∅ readMap
          topGainersMap := ← keyword entries "top_gainers_map" ∅ readMap }
      else none
  | _ => none

theorem readRecords_entries (entries : List (String × Dict String Value)) :
    readRecords (entries.map fun entry => (entry.1, .dict entry.2.entries)) = some entries := by
  induction entries with
  | nil => rfl
  | cons entry rest ih =>
      simp only [List.map_cons, readRecords, readMap, ih, Dict.update_entries]
      rfl

theorem ofKeywords_toDict (item : TopStocksCacheItem) : ofKeywords item.toDict = some item := by
  have cache : readCache (.dict (item.symbolDataCache.entries.map fun entry => (entry.1, .dict entry.2.entries))) =
      some item.symbolDataCache := by
    simp only [readCache, readRecords_entries, Option.map_some, Dict.update_entries]
  have time : readTime (item.dayStartTime.elim .none .num) = some item.dayStartTime := by
    cases item.dayStartTime <;> rfl
  simp [ofKeywords, toDict, keywords, keyword, List.lookup, cache, time, readMap, Dict.update_entries]

/-! What keeps the records and the rankings together. -/

structure Consistent (item : TopStocksCacheItem) : Prop where
  keys : ∀ board symbol, symbol ∈ item.ranking board ↔ symbol ∈ item.symbolDataCache
  scores : ∀ board symbol record, item.symbolDataCache.get symbol = some record →
    (item.ranking board).get symbol = record.get (scoreKey board)

/-- Every record has the fields of a row, and every score is a number. -/
structure Sound (item : TopStocksCacheItem) : Prop extends Consistent item where
  complete : ∀ symbol record, item.symbolDataCache.get symbol = some record → ∀ key ∈ rowKeys, key ∈ record
  numeric : ∀ board symbol value, (item.ranking board).get symbol = some value → ∃ score, value = .num score

def scores (item : TopStocksCacheItem) (board : Board) : List (String × ℚ) :=
  (item.ranking board).entries.filterMap fun entry => entry.2.number?.map (Prod.mk entry.1)

def Counts (board : Board) (entry : String × ℚ) : Bool := board = .topVolume || 0 < entry.2

/-- The symbols that a query may return: all by volume, the rising ones otherwise. -/
def eligible (item : TopStocksCacheItem) (board : Board) : List (String × ℚ) := (item.scores board).filter (Counts board)

def falls (first second : String × ℚ) : Bool := second.2 ≤ first.2

def ranked (self : TopStocksCacheItem) (board : Board) : List (String × ℚ) := (self.scores board).mergeSort falls

/-- The rows are those of the first `limit` symbols that count, in falling order
of their scores. -/
def Ranked (item : TopStocksCacheItem) (board : Board) (limit : ℕ) (returned : List Value) : Prop :=
  ∃ order : List (String × ℚ), order.Perm (item.eligible board) ∧
    (order.Pairwise fun first second => second.2 ≤ first.2) ∧
    returned.map some = (order.take limit).map fun entry => item.row entry.1

theorem numbers_eq {entries : List (String × Value)} (numeric : ∀ entry ∈ entries, ∃ score, entry.2 = .num score) :
    numbers entries = some (entries.filterMap fun entry => entry.2.number?.map (Prod.mk entry.1)) := by
  induction entries with
  | nil => rfl
  | cons entry rest ih =>
      obtain ⟨⟨score, isScore⟩, later⟩ := List.forall_mem_cons.mp numeric
      simp [numbers, isScore, Value.number?, ih later]

theorem fieldsOf_isSome {record : Dict String Value} {keys : List String} (complete : ∀ key ∈ keys, key ∈ record) :
    ∃ fields, fieldsOf record keys = some fields := by
  induction keys with
  | nil => exact ⟨[], rfl⟩
  | cons key rest ih =>
      obtain ⟨here, later⟩ := List.forall_mem_cons.mp complete
      obtain ⟨value, found⟩ := Dict.mem_iff_get.mp here
      obtain ⟨fields, read⟩ := ih later
      exact ⟨(key, value) :: fields, by simp [fieldsOf, found, read]⟩

theorem Sound.row_isSome {item : TopStocksCacheItem} (sound : Sound item) {symbol : String}
    (member : symbol ∈ item.symbolDataCache) : ∃ row, item.row symbol = some row := by
  obtain ⟨record, found⟩ := Dict.mem_iff_get.mp member
  obtain ⟨fields, read⟩ := fieldsOf_isSome (sound.complete symbol record found)
  exact ⟨.dict (("symbol", .str symbol) :: fields), by simp [row, found, read]⟩

theorem Sound.mem_of_mem_scores {item : TopStocksCacheItem} (sound : Sound item) {board : Board}
    {entry : String × ℚ} (member : entry ∈ item.scores board) : entry.1 ∈ item.symbolDataCache := by
  obtain ⟨⟨symbol, value⟩, stored, read⟩ := List.mem_filterMap.mp member
  obtain ⟨score, _, rfl⟩ := Option.map_eq_some_iff.mp read
  exact (sound.keys board symbol).mp (Dict.mem_iff.mpr ⟨value, stored⟩)

/-! The loop of a query. -/

theorem not_counts_iff {board : Board} {entry : String × ℚ} :
    Counts board entry = false ↔ board ≠ .topVolume ∧ entry.2 ≤ 0 := by
  simp [Counts]

section Rows

variable {board : Board} {factory : Bool} {entry : String × ℚ} {rest : List (String × ℚ)} {self : TopStocksCacheItem}

theorem rows_break (stops : Counts board entry = false) : rows board factory (entry :: rest) self = ([], self) := by
  rw [rows, if_pos (not_counts_iff.mp stops)]

theorem rows_append {row : Value} (counts : Counts board entry = true) (here : self.row entry.1 = some row) :
    rows board factory (entry :: rest) self =
      (row :: (rows board factory rest self).1, (rows board factory rest self).2) := by
  have goes : ¬(board ≠ .topVolume ∧ entry.2 ≤ 0) := by simp [← not_counts_iff, counts]
  rw [rows, if_neg goes, here]

theorem rows_delete (counts : Counts board entry = true) (missing : self.row entry.1 = none) :
    rows board factory (entry :: rest) self = rows board factory rest (self.heal board factory entry.1) := by
  have goes : ¬(board ≠ .topVolume ∧ entry.2 ≤ 0) := by simp [← not_counts_iff, counts]
  rw [rows, if_neg goes, missing]

end Rows

theorem falls_trans (a b c : String × ℚ) (first : falls a b = true) (second : falls b c = true) : falls a c = true :=
  decide_eq_true (le_trans (of_decide_eq_true second) (of_decide_eq_true first))

theorem falls_total (a b : String × ℚ) : (falls a b || falls b a) = true := by
  rcases le_total b.2 a.2 with below | above
  · simp [falls, below]
  · simp [falls, above]

theorem pairwise_ranked (self : TopStocksCacheItem) (board : Board) :
    (self.ranked board).Pairwise fun first second => second.2 ≤ first.2 :=
  (List.pairwise_mergeSort falls_trans falls_total (self.scores board)).imp of_decide_eq_true

/-- Nothing below a score that does not count counts. -/
theorem takeWhile_counts {board : Board} {items : List (String × ℚ)}
    (falling : items.Pairwise fun first second => second.2 ≤ first.2) :
    items.takeWhile (Counts board) = items.filter (Counts board) := by
  induction items with
  | nil => rfl
  | cons entry rest ih =>
      obtain ⟨below, falling⟩ := List.pairwise_cons.mp falling
      by_cases counts : Counts board entry = true
      · rw [List.takeWhile_cons_of_pos counts, List.filter_cons_of_pos counts, ih falling]
      · obtain ⟨percent, small⟩ := not_counts_iff.mp (Bool.eq_false_iff.mpr counts)
        have lower : ∀ other ∈ rest, ¬Counts board other = true := by
          intro other member
          exact Bool.eq_false_iff.mp (not_counts_iff.mpr ⟨percent, (below other member).trans small⟩)
        rw [List.takeWhile_cons_of_neg counts, List.filter_cons_of_neg counts, List.filter_eq_nil_iff.mpr lower]

theorem sortedItems_eq {self : TopStocksCacheItem} {board : Board}
    (numeric : ∀ entry ∈ (self.ranking board).entries, ∃ score, entry.2 = .num score) :
    sortedItems (self.ranking board) = some (self.ranked board) := by
  rw [sortedItems, numbers_eq numeric]
  rfl

theorem rows_take {item : TopStocksCacheItem} (board : Board) (factory : Bool) (limit : ℕ)
    {items : List (String × ℚ)} (found : ∀ entry ∈ items, ∃ row, item.row entry.1 = some row) :
    ∃ returned, rows board factory (items.take limit) item = (returned, item) ∧
      returned.map some = ((items.takeWhile (Counts board)).take limit).map fun entry => item.row entry.1 := by
  induction items generalizing limit with
  | nil => exact ⟨[], by simp [rows]⟩
  | cons entry rest ih =>
      obtain ⟨⟨row, here⟩, later⟩ := List.forall_mem_cons.mp found
      cases limit with
      | zero => exact ⟨[], by simp [rows]⟩
      | succ limit =>
          rw [List.take_succ_cons]
          by_cases counts : Counts board entry = true
          · obtain ⟨returned, run, same⟩ := ih limit later
            refine ⟨row :: returned, ?_, ?_⟩
            · rw [rows_append counts here, run]
            · rw [List.takeWhile_cons_of_pos counts, List.take_succ_cons, List.map_cons, List.map_cons, same, here]
          · rw [List.takeWhile_cons_of_neg counts, rows_break (Bool.eq_false_iff.mpr counts)]
            exact ⟨[], rfl, rfl⟩

theorem slice_eq_take {α : Type*} (limit : ℤ) (items : List α) :
    ∃ count, slice limit items = items.take count ∧ (0 ≤ limit → count = limit.toNat) := by
  unfold slice
  split
  case isTrue => exact ⟨_, rfl, fun _ => rfl⟩
  case isFalse negative => exact ⟨_, rfl, fun nonneg => absurd nonneg negative⟩

theorem Sound.top_eq {item : TopStocksCacheItem} (sound : Sound item) (board : Board) (factory : Bool) (limit : ℤ) :
    ∃ returned count, item.top board factory limit = (some returned, item) ∧ item.Ranked board count returned ∧
      (0 ≤ limit → count = limit.toNat) := by
  have numeric : ∀ entry ∈ (item.ranking board).entries, ∃ score, entry.2 = .num score := fun entry member =>
    sound.numeric board entry.1 entry.2 (Dict.get_eq_some_iff.mpr member)
  have falling := item.pairwise_ranked board
  have found : ∀ entry ∈ item.ranked board, ∃ row, item.row entry.1 = some row := fun entry member =>
    sound.row_isSome (sound.mem_of_mem_scores (List.mem_mergeSort.mp member))
  obtain ⟨count, cut, isLimit⟩ := slice_eq_take limit (item.ranked board)
  obtain ⟨returned, run, same⟩ := rows_take board factory count found
  rw [takeWhile_counts falling] at same
  refine ⟨returned, count, ?_, ⟨_, (List.mergeSort_perm _ falls).filter _, falling.filter _, same⟩, isLimit⟩
  rw [top, sortedItems_eq numeric]
  simp only [cut, run]

end KuhlHausMdp.TopStocksCacheItem
