import Mathlib.Data.Finset.Image
import Mathlib.Data.List.TakeWhile
import KuhlHausMdp.Library.Glob
import KuhlHausMdp.RollingList
import KuhlHausMdp.TopTradesAnalyzer.Statistics

/-! The symbols that `TopTradesAnalyzer` finds again in the keys of Redis, and the
results it builds for them. The order of a Python set is a parameter. -/

set_option autoImplicit false

namespace KuhlHausMdp.TopTradesAnalyzer

open RollingList (MarketDataAnalyzerResult)

def TOP_TRADES_RECENT_SCAN : String := "tta:*:recent"
def TOP_TRADES_ALL_SYMBOLS_CACHE_KEY : String := "tta:all_symbols:widget"
def TOP_TRADES_ALL_SYMBOLS_CACHE_TTL : Int := 60
def TOP_TRADES_WIDGET_CACHE_KEY (symbol : String) : String := "tta:" ++ symbol ++ ":widget"
def TOP_TRADES_WIDGET_CACHE_TTL : Int := 60

inductive Cursor where
  | int (value : Nat)
  | str (text : String)
  deriving DecidableEq

/-- `cursor == 0 or cursor == "0"`. -/
def Cursor.isEnd : Cursor → Bool
  | .int value => value = 0
  | .str text => text = "0"

/-- A key of a reply; it is bytes for a client that does not decode. -/
inductive Key where
  | str (key : String)
  | bytes (key : List UInt8)
  deriving DecidableEq

structure Reply where
  cursor : Cursor
  keys : List Key

/-- `key.split(":")[1]`, which raises for a key without a colon. -/
def symbolOf (key : String) : Option String := (key.toList.splitOn ':')[1]?.map String.ofList

def addSymbols : Finset String → List Key → Option (Finset String)
  | symbols, [] => some symbols
  | symbols, .str key :: rest => (symbolOf key).bind fun symbol => addSymbols (insert symbol symbols) rest
  | symbols, .bytes _ :: rest => addSymbols symbols rest

/-- `_get_active_symbols` over the replies as they come in; `none` where it
raises or the last of them is still to come. -/
def scanLoop : Finset String → List Reply → Option (Finset String)
  | _, [] => none
  | symbols, reply :: rest =>
      (addSymbols symbols reply.keys).bind fun symbols =>
        if reply.cursor.isEnd then some symbols else scanLoop symbols rest

def getActiveSymbols (replies : List Reply) : Option (Finset String) := scanLoop ∅ replies

variable {Text : Type*} (json : Json Text)

/-- `symbol_stats`: the symbols with statistics, in the order of the set. -/
def symbolStats (average : ℚ → Nat → ℚ) (db : Redis.Database Text) : List String → Option (List (String × SymbolStats))
  | [] => some []
  | symbol :: rest => do
      let stats ← calculateSymbolStats json average db symbol
      let later ← symbolStats average db rest
      return (stats.map (Prod.mk symbol)).toList ++ later

def SymbolStats.toDict (stats : SymbolStats) : List (String × Value) := [
  ("total_volume", .num stats.totalVolume),
  ("trade_count", .num stats.tradeCount),
  ("avg_size", .num stats.avgSize),
  ("max_size", .num stats.maxSize),
  ("time_span_ms", .num stats.timeSpanMs),
  ("latest_price", stats.latestPrice),
  ("latest_timestamp", stats.latestTimestamp),
  ("latest_exchange", stats.latestExchange)]

/-- The results of `_build_trade_results`: one of all symbols, and one of each of
the hundred with the most volume. -/
def tradeResults (timestamp : String) (stats : List (String × SymbolStats)) : List MarketDataAnalyzerResult :=
  if stats = [] then []
  else
    let all : MarketDataAnalyzerResult := {
      data := .dict [
        ("timestamp", .str timestamp),
        ("symbols", .dict (stats.map fun entry => (entry.1, .dict entry.2.toDict))),
        ("symbol_count", .num stats.length)]
      cacheKey := some TOP_TRADES_ALL_SYMBOLS_CACHE_KEY
      cacheTtl := some TOP_TRADES_ALL_SYMBOLS_CACHE_TTL
      publishKey := none
      cacheListMax := none }
    let sorted := stats.mergeSort fun first second => second.2.totalVolume ≤ first.2.totalVolume
    all :: (sorted.take 100).map fun entry => {
      data := .dict (("timestamp", .str timestamp) :: ("symbol", .str entry.1) :: entry.2.toDict)
      cacheKey := some (TOP_TRADES_WIDGET_CACHE_KEY entry.1)
      cacheTtl := some TOP_TRADES_WIDGET_CACHE_TTL
      publishKey := none
      cacheListMax := none }

/-- `_build_trade_results` for a set that lists its symbols in this order. -/
def buildTradeResults (average : ℚ → Nat → ℚ) (timestamp : String) (db : Redis.Database Text) (symbols : List String) :
    Option (List MarketDataAnalyzerResult) :=
  (symbolStats json average db symbols).map (tradeResults timestamp)

/-- What SCAN guarantees of its replies while no key comes or goes: every key
that matches is in one of them at least, nothing else is, and only the last has
the cursor zero. -/
structure Scan (db : Redis.Database Text) where
  replies : List Reply
  last : Reply
  continues : ∀ reply ∈ replies, reply.cursor.isEnd = false
  ends : last.cursor.isEnd = true
  matching : ∀ reply ∈ replies ++ [last], ∀ key ∈ reply.keys,
    ∃ name, key = .str name ∧ Glob.Matches TOP_TRADES_RECENT_SCAN name ∧ db.entries name ≠ none
  complete : ∀ name, Glob.Matches TOP_TRADES_RECENT_SCAN name → db.entries name ≠ none →
    ∃ reply ∈ replies ++ [last], .str name ∈ reply.keys

def storedSymbols (trades : List Trade) : Finset String := ((trades.filterMap (·.symbol)).filter (· ≠ "")).toFinset

def statistics (result : MarketDataAnalyzerResult) : List (String × Value) :=
  match result.data.lookup "symbols" with
  | .dict entries => entries
  | _ => []

/-- The symbols are found, and the results have the statistics of every one of them. -/
def Reports (average : ℚ → Nat → ℚ) (db : Redis.Database Text) (replies : List Reply) (symbols : Finset String) : Prop :=
  getActiveSymbols replies = some symbols ∧
    ∀ (timestamp : String) (listed : List String), (∀ symbol, symbol ∈ listed ↔ symbol ∈ symbols) →
      ∃ results, buildTradeResults json average timestamp db listed = some results ∧
        ∀ symbol ∈ symbols, ∃ result ∈ results, ∃ stats,
          calculateSymbolStats json average db symbol = some (some stats) ∧
            (symbol, .dict stats.toDict) ∈ statistics result

/-! Keys and symbols. -/

theorem matches_iff {key : String} : Glob.Matches TOP_TRADES_RECENT_SCAN key ↔ ∃ symbol, key = tradesRecent symbol := by
  have tokens : Glob.tokens TOP_TRADES_RECENT_SCAN.toList.length TOP_TRADES_RECENT_SCAN.toList =
      "tta:".toList.map .char ++ .star :: ":recent".toList.map .char := by decide
  unfold Glob.Matches
  rw [tokens, Glob.accepts_infix_star]
  constructor
  · rintro ⟨middle, same⟩
    refine ⟨String.ofList middle, ?_⟩
    apply String.toList_inj.mp
    simp [tradesRecent, same]
  · rintro ⟨symbol, rfl⟩
    exact ⟨symbol.toList, by simp [tradesRecent]⟩

theorem head_splitOn (separator : Char) (text : List Char) :
    (text.splitOn separator)[0]? = some (text.takeWhile (· ≠ separator)) := by
  induction text with
  | nil => rfl
  | cons c text ih =>
      rw [List.splitOn_cons_eq_if_modifyHead]
      by_cases cut : c = separator
      · simp [cut]
      · simp only [beq_iff_eq, cut, if_false, List.getElem?_modifyHead_zero, ih, Option.map_some]
        rw [List.takeWhile_cons_of_pos (by simpa using cut)]

/-- What the decoding makes of a symbol: the text before its first colon. -/
def beforeColon (symbol : String) : String := String.ofList (symbol.toList.takeWhile (· ≠ ':'))

theorem symbolOf_tradesRecent (symbol : String) : symbolOf (tradesRecent symbol) = some (beforeColon symbol) := by
  have key : (tradesRecent symbol).toList = "tta".toList ++ ':' :: (symbol.toList ++ ':' :: "recent".toList) := by
    simp [tradesRecent]
  have noColon : ':' ∉ "tta".toList := by decide
  have some : 0 < (symbol.toList.splitOn ':').length := List.length_pos_iff.mpr (List.splitOn_ne_nil _ _)
  rw [symbolOf, key, List.splitOn_append_cons_self_of_not_mem noColon, List.getElem?_cons_succ,
    List.splitOn_append_cons_self, List.getElem?_append_left some, head_splitOn]
  rfl

theorem colon_notMem_beforeColon (symbol : String) : ':' ∉ (beforeColon symbol).toList := by
  intro member
  rw [beforeColon, String.toList_ofList] at member
  simpa using List.mem_takeWhile_imp member

theorem beforeColon_eq_self_iff {symbol : String} : beforeColon symbol = symbol ↔ ':' ∉ symbol.toList := by
  constructor
  · intro same
    rw [← same]
    exact colon_notMem_beforeColon symbol
  · intro none
    have whole : symbol.toList.takeWhile (· ≠ ':') = symbol.toList := by
      apply List.takeWhile_eq_self_iff.mpr
      intro c member
      exact decide_eq_true fun same => none (same ▸ member)
    rw [beforeColon, whole, String.ofList_toList]

/-! The loop over the replies. -/

def Recent (keys : List Key) : Prop := ∀ key ∈ keys, ∃ symbol, key = .str (tradesRecent symbol)

theorem exists_key_cons {symbol name : String} {keys : List Key} :
    (∃ other, .str (tradesRecent other) ∈ Key.str (tradesRecent symbol) :: keys ∧ beforeColon other = name) ↔
      name = beforeColon symbol ∨ ∃ other, .str (tradesRecent other) ∈ keys ∧ beforeColon other = name := by
  simp only [List.mem_cons, Key.str.injEq, tradesRecent_inj, or_and_right, exists_or, exists_eq_left]
  rw [eq_comm]

theorem addSymbols_spec {keys : List Key} (recent : Recent keys) (symbols : Finset String) :
    ∃ found, addSymbols symbols keys = some found ∧ ∀ name, name ∈ found ↔
      name ∈ symbols ∨ ∃ symbol, .str (tradesRecent symbol) ∈ keys ∧ beforeColon symbol = name := by
  induction keys generalizing symbols with
  | nil => exact ⟨symbols, rfl, by simp⟩
  | cons key rest ih =>
      obtain ⟨⟨symbol, rfl⟩, later⟩ := List.forall_mem_cons.mp recent
      obtain ⟨found, read, members⟩ := ih later (insert (beforeColon symbol) symbols)
      refine ⟨found, ?_, fun name => ?_⟩
      · rw [addSymbols, symbolOf_tradesRecent]
        exact read
      · rw [members, Finset.mem_insert, exists_key_cons, or_left_comm, ← or_assoc]

theorem scanLoop_spec {replies : List Reply} {last : Reply} (continues : ∀ reply ∈ replies, reply.cursor.isEnd = false)
    (ends : last.cursor.isEnd = true) (recent : ∀ reply ∈ replies ++ [last], Recent reply.keys)
    (symbols : Finset String) :
    ∃ found, scanLoop symbols (replies ++ [last]) = some found ∧ ∀ name, name ∈ found ↔
      name ∈ symbols ∨ ∃ symbol, (∃ reply ∈ replies ++ [last], .str (tradesRecent symbol) ∈ reply.keys) ∧
        beforeColon symbol = name := by
  induction replies generalizing symbols with
  | nil =>
      obtain ⟨found, read, members⟩ := addSymbols_spec (recent last (by simp)) symbols
      exact ⟨found, by simp [scanLoop, read, ends], by simpa using members⟩
  | cons reply rest ih =>
      obtain ⟨here, others⟩ := List.forall_mem_cons.mp continues
      obtain ⟨own, later⟩ := List.forall_mem_cons.mp recent
      obtain ⟨some, read, members⟩ := addSymbols_spec own symbols
      obtain ⟨found, rest, whole⟩ := ih others later some
      refine ⟨found, by simp [scanLoop, read, here, rest], fun name => ?_⟩
      rw [whole, members, or_assoc, ← exists_or]
      simp only [List.cons_append, List.exists_mem_cons_iff, or_and_right]

/-! The keys after stores. -/

theorem mem_storedSymbols {trades : List Trade} {symbol : String} :
    symbol ∈ storedSymbols trades ↔ ∃ trade ∈ trades, trade.Of symbol := by
  simp only [storedSymbols, List.mem_toFinset, List.mem_filter, List.mem_filterMap, decide_eq_true_eq, Trade.Of]
  constructor
  · rintro ⟨⟨trade, member, named⟩, proper⟩
    exact ⟨trade, member, proper, named⟩
  · rintro ⟨trade, member, proper, named⟩
    exact ⟨⟨trade, member, named⟩, proper⟩

theorem window_ne_nil_iff {symbol : String} {trades : List Trade} :
    window symbol trades ≠ [] ↔ symbol ∈ storedSymbols trades := by
  have some : MAX_TRADES_PER_SYMBOL ≠ 0 := by decide
  rw [mem_storedSymbols, window, ne_eq, List.take_eq_nil_iff, List.reverse_eq_nil_iff, List.filter_eq_nil_iff]
  simp [some]

theorem noneEmpty_storeTrade {db : Redis.Database Text} (kept : db.NoneEmpty) (trade : Trade) :
    (storeTrade json db trade).NoneEmpty := by
  unfold storeTrade
  split
  · exact kept
  · split
    · exact kept
    · exact ((kept.run _).run _).run _

theorem noneEmpty_foldl {db : Redis.Database Text} (kept : db.NoneEmpty) (trades : List Trade) :
    (trades.foldl (storeTrade json) db).NoneEmpty := by
  induction trades generalizing db with
  | nil => exact kept
  | cons trade rest ih => exact ih (noneEmpty_storeTrade json kept trade)

theorem entries_ne_none_iff (trades : List Trade) (symbol : String) :
    (trades.foldl (storeTrade json) .empty).entries (tradesRecent symbol) ≠ none ↔ symbol ∈ storedSymbols trades := by
  obtain ⟨lists, items⟩ := stored_foldl json (stored_empty json) trades symbol
  have kept := noneEmpty_foldl json Redis.Database.noneEmpty_empty trades
  rw [Redis.Database.entries_ne_none_iff kept lists, items, ← window_ne_nil_iff, ne_eq, List.map_eq_nil_iff]
  rfl

theorem Scan.recent {db : Redis.Database Text} (scan : Scan db) :
    ∀ reply ∈ scan.replies ++ [scan.last], Recent reply.keys := by
  intro reply inside key member
  obtain ⟨name, rfl, matched, -⟩ := scan.matching reply inside key member
  obtain ⟨symbol, rfl⟩ := matches_iff.mp matched
  exact ⟨symbol, rfl⟩

theorem getActiveSymbols_eq (trades : List Trade) (scan : Scan (trades.foldl (storeTrade json) .empty)) :
    getActiveSymbols (scan.replies ++ [scan.last]) = some ((storedSymbols trades).image beforeColon) := by
  obtain ⟨found, read, members⟩ := scanLoop_spec scan.continues scan.ends scan.recent ∅
  rw [getActiveSymbols, read, Option.some.injEq]
  ext name
  rw [members, Finset.mem_image]
  constructor
  · rintro (none | ⟨symbol, ⟨reply, inside, member⟩, same⟩)
    · cases none
    -- a key that is returned is there, so trades of its symbol are stored
    · obtain ⟨key, isKey, -, present⟩ := scan.matching reply inside _ member
      cases isKey
      exact ⟨symbol, (entries_ne_none_iff json trades symbol).mp present, same⟩
  · rintro ⟨symbol, stored, same⟩
    have present := (entries_ne_none_iff json trades symbol).mpr stored
    exact .inr ⟨symbol, scan.complete _ (matches_iff.mpr ⟨symbol, rfl⟩) present, same⟩

theorem symbolStats_spec (average : ℚ → Nat → ℚ) (trades : List Trade) (listed : List String) :
    ∃ stats, symbolStats json average (trades.foldl (storeTrade json) .empty) listed = some stats ∧
      ∀ symbol ∈ listed, symbol ∈ storedSymbols trades → ∃ own,
        calculateSymbolStats json average (trades.foldl (storeTrade json) .empty) symbol = some (some own) ∧
          (symbol, own) ∈ stats := by
  induction listed with
  | nil => exact ⟨[], rfl, fun _ none => nomatch none⟩
  | cons symbol rest ih =>
      obtain ⟨later, read, members⟩ := ih
      have own : calculateSymbolStats json average (trades.foldl (storeTrade json) .empty) symbol =
          some (aggregate average (window symbol trades)) :=
        calculateSymbolStats_of_listAt json average (stored_foldl json (stored_empty json) trades symbol).2
      refine ⟨((aggregate average (window symbol trades)).map (Prod.mk symbol)).toList ++ later, ?_, ?_⟩
      · simp only [symbolStats, own, read, Option.bind_eq_bind, Option.bind_some]
        rfl
      · intro other member stored
        rcases List.mem_cons.mp member with rfl | inside
        · have some := window_ne_nil_iff.mpr stored
          cases trades' : window other trades with
          | nil => exact absurd trades' some
          | cons latest older =>
              rw [trades'] at own
              exact ⟨_, own, List.mem_append_left _ (by simp [aggregate])⟩
        · obtain ⟨stats, computed, reported⟩ := members other inside stored
          exact ⟨stats, computed, List.mem_append_right _ reported⟩

theorem mem_statistics (timestamp : String) {stats : List (String × SymbolStats)} {symbol : String} {own : SymbolStats}
    (member : (symbol, own) ∈ stats) :
    ∃ result ∈ tradeResults timestamp stats, (symbol, .dict own.toDict) ∈ statistics result := by
  have some : stats ≠ [] := List.ne_nil_of_mem member
  rw [tradeResults, if_neg some]
  exact ⟨_, List.mem_cons_self, List.mem_map_of_mem member⟩

/-- The symbols with stored trades are found, and reported, just when none of
them has a colon. -/
theorem reports_iff (average : ℚ → Nat → ℚ) (trades : List Trade)
    (scan : Scan (trades.foldl (storeTrade json) .empty)) :
    Reports json average (trades.foldl (storeTrade json) .empty) (scan.replies ++ [scan.last]) (storedSymbols trades) ↔
      ∀ symbol ∈ storedSymbols trades, ':' ∉ symbol.toList := by
  rw [Reports, getActiveSymbols_eq, Option.some.injEq]
  constructor
  · rintro ⟨same, -⟩ symbol stored
    rw [← same] at stored
    obtain ⟨other, -, rfl⟩ := Finset.mem_image.mp stored
    -- what the decoding returns has no colon, so no symbol with one can be among it
    exact colon_notMem_beforeColon other
  · intro plain
    constructor
    · calc (storedSymbols trades).image beforeColon = (storedSymbols trades).image id :=
            Finset.image_congr fun symbol stored => beforeColon_eq_self_iff.mpr (plain symbol stored)
        _ = storedSymbols trades := Finset.image_id
    · intro timestamp listed members
      obtain ⟨stats, computed, reported⟩ := symbolStats_spec json average trades listed
      refine ⟨tradeResults timestamp stats, by rw [buildTradeResults, computed]; rfl, fun symbol stored => ?_⟩
      obtain ⟨own, calculated, member⟩ := reported symbol ((members symbol).mpr stored) stored
      obtain ⟨result, inside, shown⟩ := mem_statistics timestamp member
      exact ⟨result, inside, own, calculated, shown⟩

def optionTrade : Trade :=
  ⟨some "O:SPY251219C00650000", none, none, none, none, .num 10, some 5, none, some 1000, .none, .none, .none⟩

def optionScan : Scan ([optionTrade].foldl (storeTrade Json.document) .empty) where
  replies := []
  last := ⟨.str "0", [.str (tradesRecent "O:SPY251219C00650000")]⟩
  continues := fun _ none => nomatch none
  ends := rfl
  matching := by
    intro reply inside key member
    cases List.mem_singleton.mp inside
    cases List.mem_singleton.mp member
    have stored := (entries_ne_none_iff Json.document [optionTrade] "O:SPY251219C00650000").mpr (by decide)
    exact ⟨_, rfl, matches_iff.mpr ⟨_, rfl⟩, stored⟩
  complete := by
    intro name matched present
    obtain ⟨symbol, rfl⟩ := matches_iff.mp matched
    have stored := (entries_ne_none_iff Json.document [optionTrade] symbol).mp present
    have only : storedSymbols [optionTrade] = {"O:SPY251219C00650000"} := by decide
    rw [only, Finset.mem_singleton] at stored
    exact ⟨_, List.mem_singleton_self _, by rw [stored]; exact List.mem_singleton_self _⟩

/-- The symbol of its key is taken to be `O`, of which nothing is stored. -/
theorem not_reports_optionTrade :
    getActiveSymbols (optionScan.replies ++ [optionScan.last]) = some {"O"} ∧
      ¬Reports Json.document (fun _ _ => 0) ([optionTrade].foldl (storeTrade Json.document) .empty)
        (optionScan.replies ++ [optionScan.last]) (storedSymbols [optionTrade]) := by
  have found : getActiveSymbols (optionScan.replies ++ [optionScan.last]) = some {"O"} := by decide
  refine ⟨found, fun reports => ?_⟩
  have other : ({"O"} : Finset String) ≠ storedSymbols [optionTrade] := by decide
  exact other (Option.some.inj (found.symm.trans reports.1))

end KuhlHausMdp.TopTradesAnalyzer
