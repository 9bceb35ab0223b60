import KuhlHausMdp.Library.StableSort
import KuhlHausMdp.TopStocksAnalyzer.Representation

/-! The rankings of a `TopStocksCacheItem` with entries that have no record: what
a query returns beside them, and what its deletions leave. -/

set_option autoImplicit false

namespace KuhlHausMdp

open LeaderboardAnalyzer (Board)

namespace TopStocksCacheItem

def Full (self : TopStocksCacheItem) (symbol : String) : Prop :=
  ∃ record, self.symbolDataCache.get symbol = some record ∧ ∀ key ∈ rowKeys, key ∈ record

def withoutOrphans (self : TopStocksCacheItem) : TopStocksCacheItem :=
  { self with
    topVolumeMap := self.topVolumeMap.restrict fun symbol => symbol ∈ self.symbolDataCache
    topGappersMap := self.topGappersMap.restrict fun symbol => symbol ∈ self.symbolDataCache
    topGainersMap := self.topGainersMap.restrict fun symbol => symbol ∈ self.symbolDataCache }

/-- Every symbol that would be returned without the orphans is among the first
`limit` with them. -/
def NoneDisplaced (self : TopStocksCacheItem) (board : Board) (limit : ℕ) : Prop :=
  ∀ entry ∈ (self.withoutOrphans.ranked board).take limit, Counts board entry = true → self.Full entry.1 →
    entry ∈ (self.ranked board).take limit

theorem fieldsOf_isSome_iff {record : Dict String Value} {keys : List String} :
    (fieldsOf record keys).isSome = true ↔ ∀ key ∈ keys, key ∈ record := by
  constructor
  · intro read
    induction keys with
    | nil => exact List.forall_mem_nil _
    | cons key rest ih =>
        obtain ⟨fields, same⟩ := Option.isSome_iff_exists.mp read
        simp only [fieldsOf, Option.bind_eq_bind, Option.bind_eq_some_iff] at same
        obtain ⟨value, found, later, readLater, -⟩ := same
        have here : key ∈ record := Dict.mem_iff_get.mpr ⟨value, found⟩
        exact List.forall_mem_cons.mpr ⟨here, ih (Option.isSome_iff_exists.mpr ⟨later, readLater⟩)⟩
  · intro complete
    exact Option.isSome_iff_exists.mpr (fieldsOf_isSome complete)

theorem row_isSome_iff {self : TopStocksCacheItem} {symbol : String} :
    (self.row symbol).isSome = true ↔ self.Full symbol := by
  unfold row Full
  cases self.symbolDataCache.get symbol with
  | none => simp
  | some record =>
      have read : (fieldsOf record rowKeys).isSome = true ↔ ∀ key ∈ rowKeys, key ∈ record := fieldsOf_isSome_iff
      simp only [Option.some.injEq, exists_eq_left', ← read]
      cases fields : fieldsOf record rowKeys <;> simp [fields]

/-! The loop of a query. -/

theorem symbolDataCache_withRanking (self : TopStocksCacheItem) (board : Board) (map : Dict String Value) :
    (self.withRanking board map).symbolDataCache = self.symbolDataCache := by
  cases board <;> rfl

theorem heal_eq (self : TopStocksCacheItem) (board : Board) (factory : Bool) (ticker : String) :
    self.heal board factory ticker =
      { self.withRanking board ((self.ranking board).erase ticker) with
        symbolDataCache :=
          if factory = true ∧ ticker ∉ self.symbolDataCache then self.symbolDataCache.set ticker ∅
          else self.symbolDataCache } := by
  unfold heal
  simp only [symbolDataCache_withRanking]
  split
  · rfl
  · rw [← symbolDataCache_withRanking self board ((self.ranking board).erase ticker)]

theorem row_heal {self : TopStocksCacheItem} {board : Board} {factory : Bool} {ticker : String}
    (missing : self.row ticker = none) : (self.heal board factory ticker).row = self.row := by
  funext other
  rw [heal_eq]
  unfold row
  simp only
  split
  case isTrue =>
    by_cases same : other = ticker
    · rw [same, Dict.get_set_self]
      exact missing.symm
    · rw [Dict.get_set_of_ne _ same]
  case isFalse => rfl

theorem rows_eq (board : Board) (factory : Bool) (items : List (String × ℚ)) (self : TopStocksCacheItem) :
    (rows board factory items self).1 = (items.takeWhile (Counts board)).filterMap fun entry => self.row entry.1 := by
  induction items generalizing self with
  | nil => rfl
  | cons entry rest ih =>
      by_cases counts : Counts board entry = true
      · rw [List.takeWhile_cons_of_pos counts, List.filterMap_cons]
        cases here : self.row entry.1 with
        | some row => rw [rows_append counts here, ih]
        | none => rw [rows_delete counts here, ih, row_heal here]
      · rw [List.takeWhile_cons_of_neg counts, rows_break (Bool.eq_false_iff.mpr counts)]
        rfl

/-! The first query against the same query without the orphans. -/

theorem ranking_withoutOrphans (self : TopStocksCacheItem) (board : Board) :
    self.withoutOrphans.ranking board = (self.ranking board).restrict fun symbol => symbol ∈ self.symbolDataCache := by
  cases board <;> rfl

theorem scores_withoutOrphans (self : TopStocksCacheItem) (board : Board) :
    self.withoutOrphans.scores board = (self.scores board).filter fun entry => entry.1 ∈ self.symbolDataCache := by
  rw [scores, ranking_withoutOrphans, Dict.restrict, List.filterMap_filter, scores, List.filter_filterMap]
  apply List.filterMap_congr
  rintro ⟨symbol, value⟩ -
  cases value.number? with
  | none => simp
  | some score =>
      simp only [Option.map_some]
      split <;> rename_i recorded <;> simp [Option.filter, recorded]

theorem ranked_withoutOrphans (self : TopStocksCacheItem) (board : Board) :
    self.withoutOrphans.ranked board = (self.ranked board).filter fun entry => entry.1 ∈ self.symbolDataCache := by
  rw [ranked, scores_withoutOrphans, ranked, List.filter_mergeSort falls_trans falls_total]

theorem nodup_ranked (self : TopStocksCacheItem) (board : Board) : (self.ranked board).Nodup := by
  apply (List.mergeSort_perm _ falls).nodup_iff.mpr
  have distinct := List.pairwise_map.mp (self.ranking board).unique
  apply distinct.filterMap
  rintro ⟨symbol, value⟩ ⟨other, value'⟩ apart entry isEntry entry' isEntry' same
  obtain ⟨score, -, rfl⟩ := Option.map_eq_some_iff.mp isEntry
  obtain ⟨score', -, rfl⟩ := Option.map_eq_some_iff.mp isEntry'
  exact apart (Prod.mk.inj same).1

def rowOf (self : TopStocksCacheItem) (board : Board) (entry : String × ℚ) : Option Value :=
  if Counts board entry then self.row entry.1 else none

theorem rowOf_isSome_iff {self : TopStocksCacheItem} {board : Board} {entry : String × ℚ} :
    (self.rowOf board entry).isSome = true ↔ Counts board entry = true ∧ self.Full entry.1 := by
  unfold rowOf
  split
  case isTrue counts => rw [row_isSome_iff, and_iff_right counts]
  case isFalse counts => exact iff_of_false nofun fun both => counts both.1

theorem top_eq_filterMap {self : TopStocksCacheItem} {board : Board}
    (numeric : ∀ entry ∈ (self.ranking board).entries, ∃ score, entry.2 = .num score) (factory : Bool) (limit : ℕ) :
    (self.top board factory limit).1 = some (((self.ranked board).take limit).filterMap (self.rowOf board)) := by
  have cut : slice (limit : ℤ) (self.ranked board) = (self.ranked board).take limit := by
    rw [slice, if_pos (Int.natCast_nonneg limit), Int.toNat_natCast]
  have falling := (self.pairwise_ranked board).sublist (List.take_sublist limit _)
  simp only [top, sortedItems_eq numeric, cut, rows_eq, takeWhile_counts falling, List.filterMap_filter]
  rfl

/-- The declared types of the fields: the scores of the three rankings are numbers. -/
structure Typed extends TopStocksCacheItem where
  numeric : ∀ board, ∀ entry ∈ (toTopStocksCacheItem.ranking board).entries, ∃ score, entry.2 = .num score

theorem Full.mem {self : TopStocksCacheItem} {symbol : String} (full : self.Full symbol) :
    symbol ∈ self.symbolDataCache := by
  obtain ⟨record, found, -⟩ := full
  exact Dict.mem_iff_get.mpr ⟨record, found⟩

theorem filterMap_recorded (self : TopStocksCacheItem) (board : Board) (items : List (String × ℚ)) :
    items.filterMap (self.rowOf board) =
      (items.filter fun entry => entry.1 ∈ self.symbolDataCache).filterMap (self.rowOf board) := by
  rw [List.filterMap_filter]
  apply List.filterMap_congr
  intro entry _
  by_cases recorded : entry.1 ∈ self.symbolDataCache
  · simp [recorded]
  · have none : self.rowOf board entry = none := by
      by_contra some
      exact recorded (rowOf_isSome_iff.mp (Option.isSome_iff_ne_none.mpr some)).2.mem
    simp [recorded, none]

theorem filterMap_withoutOrphans_iff (self : TopStocksCacheItem) (board : Board) (limit : ℕ) :
    ((self.ranked board).take limit).filterMap (self.rowOf board) =
        ((self.withoutOrphans.ranked board).take limit).filterMap (self.rowOf board) ↔
      self.NoneDisplaced board limit := by
  let recorded : String × ℚ → Bool := fun entry => entry.1 ∈ self.symbolDataCache
  have front := List.filter_take_isPrefix recorded limit (self.ranked board)
  have distinct : (((self.ranked board).filter recorded).take limit).Nodup :=
    ((nodup_ranked self board).filter _).sublist (List.take_sublist _ _)
  unfold NoneDisplaced
  rw [filterMap_recorded, ranked_withoutOrphans, List.filterMap_eq_of_prefix front distinct]
  apply forall₂_congr
  intro entry _
  rw [rowOf_isSome_iff, and_imp]
  apply forall₂_congr
  intro _ full
  rw [List.mem_filter]
  exact and_iff_left (decide_eq_true full.mem)

theorem Typed.numeric_withoutOrphans (item : Typed) (board : Board) :
    ∀ entry ∈ (item.withoutOrphans.ranking board).entries, ∃ score, entry.2 = .num score := by
  intro entry member
  rw [ranking_withoutOrphans] at member
  exact item.numeric board entry (List.mem_of_mem_filter member)

/-- A query returns what it would return without the orphans just when none of
them takes the place of a symbol with a row. -/
theorem top_withoutOrphans_iff (item : Typed) (board : Board) (factory : Bool) (limit : ℕ) :
    (item.top board factory limit).1 = (item.withoutOrphans.top board factory limit).1 ↔
      item.NoneDisplaced board limit := by
  rw [top_eq_filterMap (item.numeric board), top_eq_filterMap (item.numeric_withoutOrphans board), Option.some.injEq]
  exact filterMap_withoutOrphans_iff item.toTopStocksCacheItem board limit

def unitRecord : Dict String Value := (∅ : Dict String Value).update (rowKeys.map fun key => (key, .num 1))

def orphaned : Typed where
  dayStartTime := some 0
  symbolDataCache := (∅ : Dict String (Dict String Value)).set "GTE" unitRecord
  topVolumeMap := (∅ : Dict String Value).update [("GONE", .num 2), ("GTE", .num 1)]
  topGappersMap := ∅
  topGainersMap := ∅
  numeric := by
    intro board entry member
    cases board with
    | topVolume =>
        rcases List.mem_cons.mp member with rfl | rest
        · exact ⟨2, rfl⟩
        · cases List.mem_singleton.mp rest
          exact ⟨1, rfl⟩
    | topGappers => cases member
    | topGainers => cases member

theorem top_withoutOrphans_orphaned :
    (orphaned.top .topVolume true 1).1 ≠ (orphaned.withoutOrphans.top .topVolume true 1).1 := by
  have ranked : orphaned.ranked .topVolume = [("GONE", 2), ("GTE", 1)] := List.mergeSort_of_pairwise (by decide +kernel)
  have nothing : ((orphaned.ranked .topVolume).take 1).filterMap (orphaned.rowOf .topVolume) = [] := by
    rw [ranked]
    rfl
  have one : (((orphaned.withoutOrphans.ranked .topVolume).take 1).filterMap (orphaned.rowOf .topVolume)).length = 1 := by
    rw [ranked_withoutOrphans, ranked]
    decide +kernel
  intro same
  have query := top_eq_filterMap (orphaned.numeric .topVolume) true 1
  have query' := top_eq_filterMap (orphaned.numeric_withoutOrphans .topVolume) true 1
  rw [Nat.cast_one] at query query'
  rw [query, query', nothing, Option.some.injEq] at same
  cases (congrArg List.length same).trans one

/-! What the deletions leave of the item. -/

/-- Every entry that the loop comes to has a full record or, where a reading
adds nothing to the records, none at all. -/
def Undisturbed (self : TopStocksCacheItem) (board : Board) (factory : Bool) (limit : ℤ) : Prop :=
  ∀ items, sortedItems (self.ranking board) = some items → ∀ entry ∈ (slice limit items).takeWhile (Counts board),
    self.Full entry.1 ∨ (factory = false ∧ entry.1 ∉ self.symbolDataCache)

def queries (factory : Bool) : List (Board × ℤ) → TopStocksCacheItem → TopStocksCacheItem
  | [], self => self
  | (board, limit) :: rest, self => queries factory rest (self.top board factory limit).2

def AllUndisturbed (factory : Bool) : List (Board × ℤ) → TopStocksCacheItem → Prop
  | [], _ => True
  | (board, limit) :: rest, self =>
      self.Undisturbed board factory limit ∧ AllUndisturbed factory rest (self.top board factory limit).2

/-- Nothing is changed but the rankings, and they have lost nothing but orphans. -/
structure Healed (before after : TopStocksCacheItem) : Prop where
  day : after.dayStartTime = before.dayStartTime
  records : after.symbolDataCache = before.symbolDataCache
  fewer : ∀ board, (after.ranking board).entries.Sublist (before.ranking board).entries
  kept : ∀ board, ∀ entry ∈ (before.ranking board).entries, entry.1 ∈ before.symbolDataCache →
    entry ∈ (after.ranking board).entries

/-- What holds of every query: records are only added, and entries of rankings only deleted. -/
structure Worn (before after : TopStocksCacheItem) : Prop where
  day : after.dayStartTime = before.dayStartTime
  records : ∀ symbol ∈ before.symbolDataCache, symbol ∈ after.symbolDataCache
  fewer : ∀ board, (after.ranking board).entries.Sublist (before.ranking board).entries

variable {item middle last : TopStocksCacheItem}

theorem Worn.refl (item : TopStocksCacheItem) : item.Worn item := ⟨rfl, fun _ member => member, fun _ => .refl _⟩

theorem Worn.trans (first : item.Worn middle) (second : middle.Worn last) : item.Worn last where
  day := second.day.trans first.day
  records := fun symbol member => second.records symbol (first.records symbol member)
  fewer := fun board => (second.fewer board).trans (first.fewer board)

theorem Healed.refl (item : TopStocksCacheItem) : item.Healed item :=
  ⟨rfl, rfl, fun _ => .refl _, fun _ _ member _ => member⟩

theorem Healed.trans (first : item.Healed middle) (second : middle.Healed last) : item.Healed last where
  day := second.day.trans first.day
  records := second.records.trans first.records
  fewer := fun board => (second.fewer board).trans (first.fewer board)
  kept := by
    intro board entry member recorded
    have inside := first.kept board entry member recorded
    rw [← first.records] at recorded
    exact second.kept board entry inside recorded

theorem Healed.later (whole : item.Healed last) (first : item.Healed middle) (worn : middle.Worn last) :
    middle.Healed last where
  day := worn.day
  records := whole.records.trans first.records.symm
  fewer := worn.fewer
  kept := by
    intro board entry member recorded
    rw [first.records] at recorded
    exact whole.kept board entry ((first.fewer board).mem member) recorded

/-! One deletion. -/

section Heal

variable (self : TopStocksCacheItem) (board : Board) (factory : Bool) (ticker : String)

theorem ranking_heal (other : Board) : (self.heal board factory ticker).ranking other =
    if other = board then (self.ranking board).erase ticker else self.ranking other := by
  rw [heal_eq]
  cases board <;> cases other <;> rfl

theorem symbolDataCache_heal : (self.heal board factory ticker).symbolDataCache =
    if factory = true ∧ ticker ∉ self.symbolDataCache then self.symbolDataCache.set ticker ∅
    else self.symbolDataCache := by
  rw [heal_eq]

theorem worn_heal : self.Worn (self.heal board factory ticker) where
  day := by
    rw [heal_eq]
    cases board <;> rfl
  records := by
    intro symbol member
    rw [symbolDataCache_heal]
    split
    · exact Dict.mem_set.mpr (.inr member)
    · exact member
  fewer := by
    intro other
    rw [ranking_heal]
    split
    case isTrue same =>
      rw [same]
      exact List.filter_sublist
    case isFalse => exact .refl _

variable {self ticker}

theorem healed_heal (orphan : ticker ∉ self.symbolDataCache) : self.Healed (self.heal board false ticker) where
  day := (worn_heal self board false ticker).day
  records := by simp [symbolDataCache_heal]
  fewer := (worn_heal self board false ticker).fewer
  kept := by
    intro other entry member recorded
    rw [ranking_heal]
    split
    case isTrue same =>
      subst same
      have apart : entry.1 ≠ ticker := fun same => orphan (same ▸ recorded)
      exact List.mem_filter.mpr ⟨member, decide_eq_true apart⟩
    case isFalse => exact member

end Heal

/-! The loop and the queries. -/

theorem worn_rows (board : Board) (factory : Bool) (items : List (String × ℚ)) (self : TopStocksCacheItem) :
    self.Worn (rows board factory items self).2 := by
  induction items generalizing self with
  | nil => exact .refl self
  | cons entry rest ih =>
      by_cases counts : Counts board entry = true
      · cases here : self.row entry.1 with
        | some row =>
            rw [rows_append counts here]
            exact ih self
        | none =>
            rw [rows_delete counts here]
            exact (worn_heal self board factory entry.1).trans (ih _)
      · rw [rows_break (Bool.eq_false_iff.mpr counts)]
        exact .refl self

theorem healed_rows {board : Board} {factory : Bool} {items : List (String × ℚ)} {self : TopStocksCacheItem}
    (undisturbed : ∀ entry ∈ items.takeWhile (Counts board),
      self.Full entry.1 ∨ (factory = false ∧ entry.1 ∉ self.symbolDataCache)) :
    self.Healed (rows board factory items self).2 := by
  induction items generalizing self with
  | nil => exact .refl self
  | cons entry rest ih =>
      by_cases counts : Counts board entry = true
      · rw [List.takeWhile_cons_of_pos counts] at undisturbed
        obtain ⟨this, others⟩ := List.forall_mem_cons.mp undisturbed
        cases here : self.row entry.1 with
        | some row =>
            rw [rows_append counts here]
            exact ih others
        | none =>
            rw [rows_delete counts here]
            have incomplete : ¬self.Full entry.1 := by simp [← row_isSome_iff, here]
            -- the records are a plain dict here, so the failed read has left nothing
            obtain ⟨rfl, orphan⟩ := this.resolve_left incomplete
            have healed := healed_heal board orphan
            refine healed.trans (ih fun other member => ?_)
            unfold Full
            rw [healed.records]
            exact others other member
      · rw [rows_break (Bool.eq_false_iff.mpr counts)]
        exact .refl self

/-- An entry without a full record is deleted, and its reading may have left a record. -/
theorem rows_disturbed {board : Board} {factory : Bool} {items : List (String × ℚ)} {self : TopStocksCacheItem}
    {entry : String × ℚ} (member : entry ∈ items.takeWhile (Counts board)) (missing : self.row entry.1 = none) :
    entry.1 ∉ (rows board factory items self).2.ranking board ∧
      (factory = true → entry.1 ∈ (rows board factory items self).2.symbolDataCache) := by
  induction items generalizing self with
  | nil => cases member
  | cons head rest ih =>
      by_cases counts : Counts board head = true
      · rw [List.takeWhile_cons_of_pos counts] at member
        cases here : self.row head.1 with
        | some row =>
            rw [rows_append counts here]
            rcases List.mem_cons.mp member with rfl | later
            · cases here.symm.trans missing
            · exact ih later missing
        | none =>
            rw [rows_delete counts here]
            rcases List.mem_cons.mp member with rfl | later
            -- the rest of the loop neither brings the entry back nor takes the record away
            · have worn := worn_rows board factory rest (self.heal board factory entry.1)
              constructor
              · intro inside
                have before := ((worn.fewer board).map Prod.fst).mem inside
                rw [ranking_heal, if_pos rfl] at before
                exact (Dict.mem_erase.mp before).1 rfl
              · rintro rfl
                apply worn.records
                rw [symbolDataCache_heal]
                split
                case isTrue => exact Dict.mem_set.mpr (.inl rfl)
                case isFalse recorded => simpa using recorded
            · exact ih later (by rw [row_heal here, missing])
      · rw [List.takeWhile_cons_of_neg counts] at member
        cases member

theorem worn_top (self : TopStocksCacheItem) (board : Board) (factory : Bool) (limit : ℤ) :
    self.Worn (self.top board factory limit).2 := by
  unfold top
  split
  · exact .refl self
  · exact worn_rows board factory _ self

theorem worn_queries (factory : Bool) (calls : List (Board × ℤ)) (self : TopStocksCacheItem) :
    self.Worn (queries factory calls self) := by
  induction calls generalizing self with
  | nil => exact .refl self
  | cons call rest ih => exact (worn_top self call.1 factory call.2).trans (ih _)

theorem Undisturbed.healed_top {self : TopStocksCacheItem} {board : Board} {factory : Bool} {limit : ℤ}
    (undisturbed : self.Undisturbed board factory limit) : self.Healed (self.top board factory limit).2 := by
  unfold top
  split
  · exact .refl self
  · rename_i items sorted
    exact healed_rows (undisturbed items sorted)

theorem mem_of_mem_numbers {entries : List (String × Value)} {items : List (String × ℚ)}
    (read : numbers entries = some items) {entry : String × ℚ} (member : entry ∈ items) :
    ∃ value, (entry.1, value) ∈ entries := by
  induction entries generalizing items with
  | nil =>
      cases read
      cases member
  | cons head rest ih =>
      simp only [numbers, Option.bind_eq_bind, Option.bind_eq_some_iff] at read
      obtain ⟨score, -, later, readLater, same⟩ := read
      cases same
      rcases List.mem_cons.mp member with rfl | inside
      · exact ⟨head.2, List.mem_cons_self⟩
      · obtain ⟨value, stored⟩ := ih readLater inside
        exact ⟨value, List.mem_cons_of_mem _ stored⟩

theorem mem_of_mem_sortedItems {map : Dict String Value} {items : List (String × ℚ)}
    (sorted : sortedItems map = some items) {entry : String × ℚ} (member : entry ∈ items) :
    ∃ value, (entry.1, value) ∈ map.entries := by
  obtain ⟨read, isRead, rfl⟩ := Option.map_eq_some_iff.mp sorted
  exact mem_of_mem_numbers isRead (List.mem_mergeSort.mp member)

theorem slice_subset {limit : ℤ} {items : List (String × ℚ)} : slice limit items ⊆ items := by
  obtain ⟨count, same, -⟩ := slice_eq_take limit items
  rw [same]
  exact List.take_subset count items

/-- A query that is disturbed leaves its trace in all that come after it. -/
theorem undisturbed_of_healed {self : TopStocksCacheItem} {board : Board} {factory : Bool} {limit : ℤ}
    (healed : self.Healed last) (worn : (self.top board factory limit).2.Worn last) :
    self.Undisturbed board factory limit := by
  intro items sorted entry member
  by_contra disturbed
  obtain ⟨incomplete, notOrphan⟩ := not_or.mp disturbed
  have missing : self.row entry.1 = none := by
    by_contra some
    exact incomplete (row_isSome_iff.mp (Option.isSome_iff_ne_none.mpr some))
  have left : (self.top board factory limit).2 = (rows board factory (slice limit items) self).2 := by
    simp only [top, sorted]
  obtain ⟨deleted, added⟩ := left ▸ rows_disturbed member missing
  -- a recorded symbol misses its entry at the end, any other has got a record
  by_cases recorded : entry.1 ∈ self.symbolDataCache
  · obtain ⟨value, stored⟩ := mem_of_mem_sortedItems sorted (slice_subset (List.takeWhile_subset _ member))
    have still := healed.kept board _ stored recorded
    exact deleted (Dict.mem_iff.mpr ⟨value, (worn.fewer board).mem still⟩)
  · have isFactory : factory = true := by
      by_contra plain
      exact notOrphan ⟨Bool.eq_false_iff.mpr plain, recorded⟩
    have still := worn.records _ (added isFactory)
    rw [healed.records] at still
    exact recorded still

theorem healed_queries_iff (factory : Bool) (calls : List (Board × ℤ)) (self : TopStocksCacheItem) :
    self.Healed (queries factory calls self) ↔ AllUndisturbed factory calls self := by
  induction calls generalizing self with
  | nil => exact iff_of_true (.refl self) trivial
  | cons call rest ih =>
      obtain ⟨board, limit⟩ := call
      rw [AllUndisturbed, ← ih]
      have worn := worn_queries factory rest (self.top board factory limit).2
      constructor
      · intro whole
        have first := undisturbed_of_healed whole worn
        exact ⟨first, whole.later first.healed_top worn⟩
      · rintro ⟨first, later⟩
        exact first.healed_top.trans later

end TopStocksCacheItem

namespace TopStocksAnalyzer

open LeaderboardAnalyzer (sub div percentage)
open TopStocksCacheItem

def answered : Turn → List Answer → Option Turn
  | turn, [] => some turn
  | .awaits stage, answer :: rest => (resume stage answer).bind fun turn => answered turn rest
  | _, _ :: _ => none

/-- The handler looks everything up, and succeeds when it has looked it up. -/
structure FirstEncounter (item : TopStocksCacheItem) (symbol : String) : Prop where
  looksUp : handleEquityAgg item symbol = .awaits (.snapshot 0 ⟨.num 0, .num 0, .num 0⟩)
  succeeds : ∀ event answers lookUps, Numeric event →
    answered (handleEquityAgg item symbol) answers = some (.found lookUps) →
    (∃ q, lookUps.avgVolume = .num q) → (∃ q, lookUps.prevDay.close = .num q) →
    ∃ next, update item symbol event lookUps = some next

/-- The healing changes nothing but orphans, and their symbols are encountered anew. -/
structure Framed (before after : TopStocksCacheItem) : Prop where
  healed : before.Healed after
  encountered : ∀ board, ∀ symbol ∈ before.ranking board, symbol ∉ after.ranking board → FirstEncounter after symbol

theorem isZero_num (q : ℚ) : isZero (.num q) = decide (q = 0) := by
  simp [isZero, Value.number?]

theorem not_truthy_num (q : ℚ) : (!(Value.num q).truthy) = decide (q = 0) := by
  simp [Value.truthy]

theorem zeroIf_sub (condition : Bool) (x y : ℚ) : ∃ value, zeroIf condition (sub (.num x) (.num y)) = some value := by
  cases condition <;> exact ⟨_, rfl⟩

theorem zeroIf_div (x y : ℚ) : ∃ value, zeroIf (decide (y = 0)) (div (.num x) (.num y)) = some value := by
  by_cases zero : y = 0
  · exact ⟨.num 0, by simp [zeroIf, zero]⟩
  · exact ⟨.num (x / y), by simp [zeroIf, zero, div, Value.number?]⟩

theorem zeroIf_percentage (x y : ℚ) : ∃ value, zeroIf (decide (y = 0)) (percentage (.num x) (.num y)) = some value := by
  by_cases zero : y = 0
  · exact ⟨.num 0, by simp [zeroIf, zero]⟩
  · exact ⟨.num ((x - y) / y * 100), by simp [zeroIf, zero, percentage, sub, div, Value.number?]⟩

/-- Nothing in the computation raises when it is given numbers. -/
theorem metrics_isSome {event : EquityAgg} {lookUps : LookUps} (numeric : Numeric event)
    (isVolume : ∃ q, lookUps.avgVolume = .num q) (isClose : ∃ q, lookUps.prevDay.close = .num q) :
    ∃ metrics, TopStocksAnalyzer.metrics event lookUps = some metrics := by
  obtain ⟨avgVolume, isVolume⟩ := isVolume
  obtain ⟨prevClose, isClose⟩ := isClose
  obtain ⟨accumulated, isAccumulated⟩ := numeric event.accumulatedVolume (by simp)
  obtain ⟨official, isOfficial⟩ := numeric event.officialOpenPrice (by simp)
  obtain ⟨close, isEventClose⟩ := numeric event.close (by simp)
  obtain ⟨_, relativeVolume⟩ := zeroIf_div accumulated avgVolume
  obtain ⟨_, change⟩ := zeroIf_sub (decide (prevClose = 0)) close prevClose
  obtain ⟨_, pctChange⟩ := zeroIf_percentage close prevClose
  obtain ⟨_, changeSinceOpen⟩ := zeroIf_sub (decide (official = 0)) close official
  obtain ⟨_, pctChangeSinceOpen⟩ := zeroIf_percentage close official
  simp only [metrics, isVolume, isClose, isAccumulated, isOfficial, isEventClose, isZero_num, not_truthy_num,
    relativeVolume, change, pctChange, changeSinceOpen, pctChangeSinceOpen]
  exact ⟨_, rfl⟩

theorem firstEncounter {item : TopStocksCacheItem} {symbol : String} (absent : symbol ∉ item.symbolDataCache) :
    FirstEncounter item symbol where
  looksUp := by rw [handleEquityAgg, Dict.get_eq_none_iff.mpr absent]
  succeeds := by
    intro event answers lookUps numeric _ isVolume isClose
    obtain ⟨metrics, computed⟩ := metrics_isSome numeric isVolume isClose
    exact ⟨_, by rw [update, computed]; rfl⟩

/-- Any sequence of queries heals the rankings and nothing else just when it
meets no incomplete record, and no orphan while the records are a `defaultdict`. -/
theorem framed_queries_iff (item : TopStocksCacheItem) (factory : Bool) (calls : List (Board × ℤ)) :
    Framed item (queries factory calls item) ↔ AllUndisturbed factory calls item := by
  rw [← healed_queries_iff]
  constructor
  · exact Framed.healed
  · intro healed
    refine ⟨healed, fun board symbol member deleted => firstEncounter fun recorded => ?_⟩
    rw [healed.records] at recorded
    obtain ⟨value, stored⟩ := Dict.mem_iff.mp member
    exact deleted (Dict.mem_iff.mpr ⟨value, healed.kept board _ stored recorded⟩)

def orphan : TopStocksCacheItem :=
  { TopStocksCacheItem.fresh with topVolumeMap := (∅ : Dict String Value).set "GONE" (.num 2) }

/-- One query leaves an empty record, on which the next bar of the symbol fails. -/
theorem not_framed_orphan :
    ¬Framed orphan (queries true [(.topVolume, 500)] orphan) ∧
      handleEquityAgg (queries true [(.topVolume, 500)] orphan) "GONE" = .raised := by
  have sorted : sortedItems (orphan.ranking .topVolume) = some [("GONE", 2)] :=
    congrArg some (List.mergeSort_singleton ("GONE", (2 : ℚ)))
  have left : queries true [(.topVolume, 500)] orphan = orphan.heal .topVolume true "GONE" := by
    simp only [queries, top, sorted]
    rfl
  have raises : handleEquityAgg (orphan.heal .topVolume true "GONE") "GONE" = .raised := rfl
  rw [left]
  refine ⟨fun framed => ?_, raises⟩
  have encountered := framed.encountered .topVolume "GONE" (by decide) (by decide)
  cases raises.symm.trans encountered.looksUp

end TopStocksAnalyzer

end KuhlHausMdp
