import Mathlib.Algebra.BigOperators.Group.List.Basic
import Mathlib.Data.List.MinMax
import Mathlib.Data.List.Nodup
import KuhlHausMdp.TopTradesAnalyzer.Statistics

/-! The same trades of one symbol, stored in two orders: all statistics but those
of the latest trade are the same. -/

set_option autoImplicit false

namespace KuhlHausMdp.TopTradesAnalyzer

/-- `trade.get("timestamp") or 0`. -/
def stamp (trade : Trade) : Int := trade.timestamp.getD 0

/-- Two orders of the same trades of one symbol, no more than its list keeps. -/
structure Orders where
  symbol : String
  first : List Trade
  second : List Trade
  same : first.Perm second
  own : ∀ trade ∈ first, trade.Of symbol
  few : first.length ≤ MAX_TRADES_PER_SYMBOL
  stamped : ∀ trade ∈ first, stamp trade ≠ 0
  distinct : (first.map stamp).Nodup

/-- The latest trade of the statistics is the one with the greatest timestamp. -/
def ShowsGreatest (trades : List Trade) (stats : Option SymbolStats) : Prop :=
  ∀ greatest ∈ trades, (∀ trade ∈ trades, stamp trade ≤ stamp greatest) → ∃ shown, stats = some shown ∧
    shown.latestPrice = greatest.price.orElse (.num 0) ∧ shown.latestTimestamp = .num (stamp greatest) ∧
    shown.latestExchange = greatest.exchange.getD (.str "")

/-- The trade that is stored last has the greatest timestamp. -/
def EndsWithGreatest (trades : List Trade) : Prop :=
  ∀ last, trades.getLast? = some last → ∀ trade ∈ trades, stamp trade ≤ stamp last

variable {Text : Type*} (json : Json Text)

/-- The statistics do not depend on the order, and show the greatest timestamp. -/
def Orders.Independent (average : ℚ → Nat → ℚ) (orders : Orders) : Prop :=
  let statsOf (trades : List Trade) :=
    calculateSymbolStats json average (trades.foldl (storeTrade json) .empty) orders.symbol
  statsOf orders.first = statsOf orders.second ∧
    ∀ trades ∈ [orders.first, orders.second], ∃ stats, statsOf trades = some stats ∧ ShowsGreatest trades stats

/-! Statistics that forget the order. -/

theorem max?_perm {values other : List Int} (same : values.Perm other) : values.max? = other.max? := by
  ext most
  rw [List.max?_eq_some_iff, List.max?_eq_some_iff, same.mem_iff]
  exact and_congr_right' ⟨fun above value member => above value (same.mem_iff.mpr member),
    fun above value member => above value (same.mem_iff.mp member)⟩

theorem min?_perm {values other : List Int} (same : values.Perm other) : values.min? = other.min? := by
  ext least
  rw [List.min?_eq_some_iff, List.min?_eq_some_iff, same.mem_iff]
  exact and_congr_right' ⟨fun below value member => below value (same.mem_iff.mpr member),
    fun below value member => below value (same.mem_iff.mp member)⟩

theorem spread_perm {values other : List Int} (same : values.Perm other) : spread values = spread other := by
  rw [spread, max?_perm same, min?_perm same, spread]

theorem aggregate_perm (average : ℚ → Nat → ℚ) (latest : Trade) {older other : List Trade} (same : older.Perm other) :
    aggregate average (latest :: older) = aggregate average (latest :: other) := by
  have whole := same.cons latest
  have sizes := whole.map fun trade => trade.size.getD 0
  have timestamps := (whole.map fun trade => trade.timestamp.getD 0).filter (· ≠ 0)
  simp only [aggregate, sizes.sum_eq, sizes.length_eq, maxOr0, max?_perm sizes, spread_perm timestamps]

/-! One order. -/

theorem window_eq_reverse {symbol : String} {trades : List Trade} (own : ∀ trade ∈ trades, trade.Of symbol)
    (few : trades.length ≤ MAX_TRADES_PER_SYMBOL) : window symbol trades = trades.reverse := by
  have all : trades.filter (·.Of symbol) = trades := List.filter_eq_self.mpr fun trade member => decide_eq_true (own trade member)
  rw [window, all, List.take_of_length_le]
  rwa [List.length_reverse]

theorem eq_of_stamp {trades : List Trade} (distinct : (trades.map stamp).Nodup) {first second : Trade}
    (member : first ∈ trades) (member' : second ∈ trades) (same : stamp first = stamp second) : first = second :=
  List.inj_on_of_nodup_map distinct member member' same

theorem exists_greatest {trades : List Trade} (some : trades ≠ []) :
    ∃ greatest ∈ trades, ∀ trade ∈ trades, stamp trade ≤ stamp greatest := by
  cases found : trades.argmax stamp with
  | none => exact absurd (List.argmax_eq_none.mp found) some
  | some greatest =>
      exact ⟨greatest, List.argmax_mem found, fun trade member => List.le_of_mem_argmax member found⟩

theorem showsGreatest_iff (average : ℚ → Nat → ℚ) {trades : List Trade} (distinct : (trades.map stamp).Nodup) :
    ShowsGreatest trades (aggregate average trades.reverse) ↔ EndsWithGreatest trades := by
  rcases List.eq_nil_or_concat' trades with rfl | ⟨earlier, last, rfl⟩
  · exact iff_of_true (fun _ none => nomatch none) fun _ none => nomatch none
  · have isLast : (earlier ++ [last]).getLast? = some last := List.getLast?_concat
    have stored : last ∈ earlier ++ [last] := List.mem_concat_self
    rw [List.reverse_concat]
    constructor
    · intro shows other isOther trade member
      cases isLast.symm.trans isOther
      obtain ⟨greatest, inside, above⟩ := exists_greatest (List.ne_nil_of_mem stored)
      obtain ⟨shown, same, -, timestamp, -⟩ := shows greatest inside above
      cases same
      -- the trade shown is the last one, so it is the last one that is the greatest
      have sameStamp : stamp last = stamp greatest := Rat.intCast_inj.mp (Value.num.inj timestamp)
      rw [sameStamp]
      exact above trade member
    · intro ends greatest inside above
      have sameStamp := le_antisymm (ends last isLast greatest inside) (above last stored)
      rw [eq_of_stamp distinct inside stored sameStamp]
      exact ⟨_, rfl, rfl, rfl, rfl⟩

namespace Orders

variable (orders : Orders)

def swap : Orders where
  symbol := orders.symbol
  first := orders.second
  second := orders.first
  same := orders.same.symm
  own := fun trade member => orders.own trade (orders.same.mem_iff.mpr member)
  few := orders.same.length_eq ▸ orders.few
  stamped := fun trade member => orders.stamped trade (orders.same.mem_iff.mpr member)
  distinct := (orders.same.map stamp).nodup_iff.mp orders.distinct

theorem stats_first (average : ℚ → Nat → ℚ) :
    calculateSymbolStats json average (orders.first.foldl (storeTrade json) .empty) orders.symbol =
      some (aggregate average orders.first.reverse) := by
  rw [calculateSymbolStats_of_listAt json average (stored_foldl json (stored_empty json) orders.first orders.symbol).2]
  exact congrArg (fun trades => some (aggregate average trades)) (window_eq_reverse orders.own orders.few)

theorem aggregate_eq (average : ℚ → Nat → ℚ) (first : EndsWithGreatest orders.first)
    (second : EndsWithGreatest orders.second) :
    aggregate average orders.first.reverse = aggregate average orders.second.reverse := by
  rcases List.eq_nil_or_concat' orders.first with none | ⟨earlier, last, isFirst⟩
  · have none' : orders.second = [] := List.nil_perm.mp (none ▸ orders.same)
    rw [none, none']
  · rcases List.eq_nil_or_concat' orders.second with none | ⟨earlier', last', isSecond⟩
    · have none' : orders.first = [] := List.perm_nil.mp (none ▸ orders.same)
      rw [none, none']
    · have stored : last ∈ orders.first := isFirst ▸ List.mem_concat_self
      have stored' : last' ∈ orders.second := isSecond ▸ List.mem_concat_self
      have inside := orders.same.mem_iff.mpr stored'
      have below := first last (isFirst ▸ List.getLast?_concat) last' inside
      have above := second last' (isSecond ▸ List.getLast?_concat) last (orders.same.mem_iff.mp stored)
      -- both end with the same trade, and before it stands a permutation
      cases eq_of_stamp orders.distinct stored inside (le_antisymm above below)
      have rest : earlier.Perm earlier' := by
        have same := orders.same
        rw [isFirst, isSecond] at same
        exact (List.perm_append_right_iff [last]).mp same
      rw [isFirst, isSecond, List.reverse_concat, List.reverse_concat]
      apply aggregate_perm
      exact (List.reverse_perm _).trans (rest.trans (List.reverse_perm _).symm)

/-- Two orders give the same statistics, with the greatest timestamp, just when
both end with the trade that has it. -/
theorem independent_iff (average : ℚ → Nat → ℚ) :
    orders.Independent json average ↔ EndsWithGreatest orders.first ∧ EndsWithGreatest orders.second := by
  have stats := orders.stats_first json average
  have stats' : calculateSymbolStats json average (orders.second.foldl (storeTrade json) .empty) orders.symbol =
      some (aggregate average orders.second.reverse) := orders.swap.stats_first json average
  have shows := showsGreatest_iff average orders.distinct
  have shows' : ShowsGreatest orders.second (aggregate average orders.second.reverse) ↔
      EndsWithGreatest orders.second := showsGreatest_iff average orders.swap.distinct
  unfold Independent
  simp only [List.forall_mem_cons, List.not_mem_nil, false_imp_iff, implies_true, and_true, stats, stats',
    Option.some.injEq, exists_eq_left', shows, shows']
  constructor
  · exact And.right
  · rintro ⟨first, second⟩
    exact ⟨orders.aggregate_eq average first second, first, second⟩

/-- Two trades, stored in the order of their timestamps and the other way round. -/
def late : Orders where
  symbol := "AAPL"
  first := [
    ⟨some "AAPL", none, none, none, none, .num 10, some 5, none, some 1000, .none, .none, .none⟩,
    ⟨some "AAPL", none, none, none, none, .num 11, some 5, none, some 1001, .none, .none, .none⟩]
  second := [
    ⟨some "AAPL", none, none, none, none, .num 11, some 5, none, some 1001, .none, .none, .none⟩,
    ⟨some "AAPL", none, none, none, none, .num 10, some 5, none, some 1000, .none, .none, .none⟩]
  same := .swap _ _ _
  own := by decide
  few := by decide
  stamped := by decide
  distinct := by decide

/-- The older trade is shown as the latest. -/
theorem not_independent_late : ¬late.Independent Json.document fun _ _ => 0 := by
  rintro ⟨same, -⟩
  have forth := late.stats_first Json.document fun _ _ => 0
  have back := late.swap.stats_first Json.document fun _ _ => 0
  have shown := Option.some.inj (forth.symm.trans (same.trans back))
  have prices : some (Value.num 11) = some (Value.num 10) := congrArg (Option.map SymbolStats.latestPrice) shown
  simp at prices

end Orders

end KuhlHausMdp.TopTradesAnalyzer
