import KuhlHausMdp.Enum
import KuhlHausMdp.LeaderboardAnalyzer.Store

/-! `_build_leaderboard_results`: the boards are read in one pipeline, the hashes
of each board in one of its own, and other instances commit in between. Here the
fields of a hash are the texts that Redis holds. -/

set_option autoImplicit false

namespace KuhlHausMdp.LeaderboardAnalyzer

structure MarketDataAnalyzerResult where
  data : List (Dict String Value)
  cacheKey : String
  cacheTtl : Nat
  publishKey : String

namespace Board

def scoreField : Board → String
  | topVolume => "accumulated_volume"
  | topGappers => "pct_change"
  | topGainers => "pct_change_since_open"

def cacheKey : Board → String
  | topVolume => WidgetDataCacheKeys.TOP_VOLUME_SCANNER
  | topGappers => WidgetDataCacheKeys.TOP_GAPPERS_SCANNER
  | topGainers => WidgetDataCacheKeys.TOP_GAINERS_SCANNER

def cacheTtl : Board → Nat
  | topVolume => WidgetDataCacheTTL.TOP_VOLUME_SCANNER
  | topGappers => WidgetDataCacheTTL.TOP_GAPPERS_SCANNER
  | topGainers => WidgetDataCacheTTL.TOP_GAINERS_SCANNER

theorem cacheKey_injective : Function.Injective cacheKey := by
  intro first second same
  revert same
  cases first <;> cases second <;> decide

def result (board : Board) (data : List (Dict String Value)) : MarketDataAnalyzerResult where
  data := data
  cacheKey := board.cacheKey
  cacheTtl := board.cacheTtl
  publishKey := board.cacheKey

end Board

structure Update where
  symbol : String
  score : Board → ℚ
  mapping : Dict String String
  complete : mapping.keys = mappingKeys

/-- The boards and the hashes; a hash has no fields but those of a mapping. -/
structure Boards where
  board : Board → SortedSet ℚ String
  data : String → Dict String String
  known : ∀ symbol key, key ∈ data symbol → key ∈ mappingKeys

namespace Boards

def fresh : Boards := ⟨fun _ => ∅, fun _ => ∅, fun _ _ member => absurd member (Dict.notMem_empty _)⟩

def commit (s : Boards) (update : Update) : Boards where
  board := fun board => ((s.board board).zadd update.symbol (update.score board)).zremrangebyrank 0 (-501)
  data := Function.update s.data update.symbol ((s.data update.symbol).update update.mapping.entries)
  known := by
    intro symbol key member
    by_cases same : symbol = update.symbol
    · subst same
      rw [Function.update_self] at member
      rcases Dict.mem_update member with old | new
      · exact s.known _ key old
      · exact update.complete ▸ new
    · rw [Function.update_of_ne same] at member
      exact s.known symbol key member

def commits (s : Boards) (updates : List Update) : Boards := updates.foldl commit s

end Boards

/-! The analyzer's store, written out as texts. -/

section

variable (text : Value → String)

def Commit.update (commit : Commit) (complete : commit.mapping.keys = mappingKeys) : Update where
  symbol := commit.symbol
  score := commit.score
  mapping := commit.mapping.mapValues text
  complete := by rwa [Dict.keys_mapValues]

theorem keys_of_metrics {symbol : String} {event : Dict String Value} {snapshot : MarketDataCache.TickerSnapshot}
    {avgVolume freeFloat openPrice : Value} {commit : Commit}
    (computed : metrics symbol event snapshot avgVolume freeFloat openPrice = some commit) :
    commit.mapping.keys = mappingKeys := by
  simp only [metrics, Option.bind_eq_bind, Option.bind_eq_some_iff] at computed
  obtain ⟨change, -, gap, -, relativeVolume, -, sinceOpen, -, gain, -, sent⟩ := computed
  obtain ⟨-, _, _, _, -, -, -, rfl⟩ := pipeline_eq_some sent
  rfl

structure Store.Holds (s : Store) (boards : Boards) : Prop where
  board : boards.board = s.board
  data : ∀ symbol, boards.data symbol = (s.data symbol).mapValues text

theorem Store.Holds.commit {s : Store} {boards : Boards} (holds : s.Holds text boards) (commit : Commit)
    (complete : commit.mapping.keys = mappingKeys) :
    (s.commit commit).Holds text (boards.commit (commit.update text complete)) where
  board := by simp only [Boards.commit, Store.commit, holds.board, Commit.update]
  data := by
    intro symbol
    by_cases same : symbol = commit.symbol
    · subst same
      simp only [Boards.commit, Store.commit, Commit.update, Function.update_self, holds.data, Dict.mapValues_update]
      rfl
    · simp only [Boards.commit, Store.commit, Commit.update, Function.update_of_ne same, holds.data]

end

section

variable (float int : String → Option ℚ)

/-- `float` and `int` of a text, without a number where Python raises ValueError. -/
def convertValue (value : String) : Value :=
  match if '.' ∈ value.toList then float value else int value with
  | some number => .num number
  | none => .str value

/-- The fields of the hash come last, and replace those of the same name. -/
def entry (rank : Nat) (symbol : String) (score : ℚ) (scoreField : String) (symbolData : Dict String String) :
    Dict String Value :=
  (((∅ : Dict String Value).set "rank" (.num rank)).set "symbol" (.str symbol)).set scoreField (.num score)
    |>.update (symbolData.mapValues (convertValue float int)).entries

def rankedFrom (data : String → Dict String String) (scoreField : String) (i : Nat) :
    List (ℚ ×ₗ String) → List (Dict String Value)
  | [] => []
  | symbolScore :: rest =>
      let symbol := (ofLex symbolScore).2
      if (data symbol).keys = [] then rankedFrom data scoreField (i + 1) rest
      else entry float int (i + 1) symbol (ofLex symbolScore).1 scoreField (data symbol) ::
        rankedFrom data scoreField (i + 1) rest

def hydrateLeaderboard (s : Boards) (symbolScores : List (ℚ ×ₗ String)) (scoreField : String) :
    List (Dict String Value) := rankedFrom float int s.data scoreField 0 symbolScores

/-- What other instances commit before each of the three pipelines of `hgetall`. -/
structure Between where
  beforeVolume : List Update
  beforeGappers : List Update
  beforeGainers : List Update

def Between.since (between : Between) : Board → List Update
  | .topVolume => between.beforeVolume
  | .topGappers => between.beforeVolume ++ between.beforeGappers
  | .topGainers => between.beforeVolume ++ between.beforeGappers ++ between.beforeGainers

namespace Boards

def top (s : Boards) (limit : ℤ) (board : Board) : List (ℚ ×ₗ String) := (s.board board).zrevrange 0 (limit - 1)

def fetchLeaderboards (s : Boards) (between : Between) (limit : ℤ) : Board → List (Dict String Value) :=
  let lists := s.top limit
  let atVolume := s.commits between.beforeVolume
  let topVolume := hydrateLeaderboard float int atVolume (lists .topVolume) "accumulated_volume"
  let atGappers := atVolume.commits between.beforeGappers
  let topGappers := hydrateLeaderboard float int atGappers (lists .topGappers) "pct_change"
  let atGainers := atGappers.commits between.beforeGainers
  let topGainers := hydrateLeaderboard float int atGainers (lists .topGainers) "pct_change_since_open"
  fun
    | .topVolume => topVolume
    | .topGappers => topGappers
    | .topGainers => topGainers

def buildLeaderboardResults (s : Boards) (between : Between) (limit : ℤ) : List MarketDataAnalyzerResult :=
  let leaderboards := s.fetchLeaderboards float int between limit
  [.topVolume, .topGappers, .topGainers].filterMap fun board : Board =>
    if leaderboards board = [] then none else some (board.result (leaderboards board))

end Boards

/-- Two entries in order: the score of the first is not less, and its rank is smaller. -/
def Above (scoreField : String) (first second : Dict String Value) : Prop :=
  ∃ x y m n : ℚ, first.get scoreField = some (.num x) ∧ second.get scoreField = some (.num y) ∧ y ≤ x ∧
    first.get "rank" = some (.num m) ∧ second.get "rank" = some (.num n) ∧ m < n

/-- Each leaderboard that is published lists its entries by the score they show. -/
def Boards.PublishedInOrder (s : Boards) (between : Between) (limit : ℤ) : Prop :=
  ∀ board : Board, ∀ result ∈ s.buildLeaderboardResults float int between limit, result.cacheKey = board.cacheKey →
    result.data.Pairwise (Above board.scoreField)

def lastUpdate : List Update → String → Option Update
  | [], _ => none
  | update :: rest, symbol => (lastUpdate rest symbol).or (if update.symbol = symbol then some update else none)

def shown (symbolData : Dict String String) (scoreField : String) (score : ℚ) : Value :=
  ((symbolData.get scoreField).map (convertValue float int)).getD (.num score)

/-- The score of the last update of a listed symbol, or else of its hash when
the boards were read; none without either. -/
def Boards.latest (s : Boards) (updates : List Update) (board : Board) (symbolScore : ℚ ×ₗ String) : Option Value :=
  let symbol := (ofLex symbolScore).2
  match lastUpdate updates symbol with
  | some update => some (shown float int update.mapping board.scoreField (ofLex symbolScore).1)
  | none =>
      if (s.data symbol).keys = [] then none
      else some (shown float int (s.data symbol) board.scoreField (ofLex symbolScore).1)

def NotBelow (first second : Value) : Prop := ∃ x y : ℚ, first = .num x ∧ second = .num y ∧ y ≤ x

def Boards.Settled (s : Boards) (between : Between) (limit : ℤ) : Prop :=
  ∀ board, ((s.top limit board).filterMap (s.latest float int (between.since board) board)).Pairwise NotBelow

/-! What an entry shows. -/

variable {float int}

theorem scoreField_known (board : Board) : board.scoreField ∈ mappingKeys ∧ "rank" ≠ board.scoreField := by
  cases board <;> decide

theorem get_rank_entry {symbolData : Dict String String} (known : ∀ key ∈ symbolData, key ∈ mappingKeys) (board : Board)
    (rank : Nat) (symbol : String) (score : ℚ) :
    (entry float int rank symbol score board.scoreField symbolData).get "rank" = some (.num rank) := by
  have absent : "rank" ∉ (symbolData.mapValues (convertValue float int)).keys := by
    rw [Dict.keys_mapValues]
    exact fun member => absurd (known "rank" member) (by decide)
  rw [entry, Dict.get_update_of_notMem _ _ _ absent, Dict.get_set_of_ne _ (scoreField_known board).2,
    Dict.get_set_of_ne _ (by decide), Dict.get_set_self]

theorem get_entry_of_get {symbolData : Dict String String} {key text : String} (found : symbolData.get key = some text)
    {rank : Nat} {symbol scoreField : String} {score : ℚ} :
    (entry float int rank symbol score scoreField symbolData).get key = some (convertValue float int text) := by
  apply Dict.get_update_of_mem _ (Dict.unique _)
  rw [← Dict.get_eq_some_iff, Dict.get_mapValues, found]
  rfl

theorem get_score_entry (symbolData : Dict String String) (scoreField : String) (rank : Nat) (symbol : String)
    (score : ℚ) :
    (entry float int rank symbol score scoreField symbolData).get scoreField =
      some (shown float int symbolData scoreField score) := by
  unfold shown
  cases found : symbolData.get scoreField with
  | none =>
      have absent : scoreField ∉ (symbolData.mapValues (convertValue float int)).keys := by
        rw [Dict.keys_mapValues]
        exact Dict.get_eq_none_iff.mp found
      rw [entry, Dict.get_update_of_notMem _ _ _ absent, Dict.get_set_self]
      rfl
  | some text => exact get_entry_of_get found

theorem above_entry_iff {data : String → Dict String String} (known : ∀ symbol, ∀ key ∈ data symbol, key ∈ mappingKeys)
    (board : Board) {i j : Nat} (earlier : i < j) (first second : String) (x y : ℚ) :
    Above board.scoreField (entry float int i first x board.scoreField (data first))
        (entry float int j second y board.scoreField (data second)) ↔
      NotBelow (shown float int (data first) board.scoreField x) (shown float int (data second) board.scoreField y) := by
  simp only [Above, NotBelow, get_score_entry, get_rank_entry (known _), Option.some.injEq, Value.num.injEq]
  constructor
  · rintro ⟨x, y, -, -, isX, isY, le, -⟩
    exact ⟨x, y, isX, isY, le⟩
  · rintro ⟨x, y, isX, isY, le⟩
    exact ⟨x, y, i, j, isX, isY, le, rfl, rfl, by exact_mod_cast earlier⟩

def entryScore (float int : String → Option ℚ) (data : String → Dict String String) (board : Board)
    (symbolScore : ℚ ×ₗ String) : Option Value :=
  let symbol := (ofLex symbolScore).2
  if (data symbol).keys = [] then none
  else some (shown float int (data symbol) board.scoreField (ofLex symbolScore).1)

section

variable {data : String → Dict String String} (known : ∀ symbol, ∀ key ∈ data symbol, key ∈ mappingKeys) (board : Board)

include known in
theorem above_rankedFrom_iff {i j : Nat} (earlier : i ≤ j) (symbol : String) (score : ℚ) (rest : List (ℚ ×ₗ String)) :
    (∀ other ∈ rankedFrom float int data board.scoreField j rest,
        Above board.scoreField (entry float int i symbol score board.scoreField (data symbol)) other) ↔
      ∀ value ∈ rest.filterMap (entryScore float int data board),
        NotBelow (shown float int (data symbol) board.scoreField score) value := by
  induction rest generalizing j with
  | nil => simp [rankedFrom]
  | cons symbolScore rest ih =>
      have later := ih (j := j + 1) (by omega)
      by_cases empty : (data (ofLex symbolScore).2).keys = []
      · rw [rankedFrom, if_pos empty, List.filterMap_cons_none (by rw [entryScore, if_pos empty])]
        exact later
      · rw [rankedFrom, if_neg empty, List.filterMap_cons_some (by rw [entryScore, if_neg empty]),
          List.forall_mem_cons, List.forall_mem_cons, above_entry_iff known board (by omega : i < j + 1), later]

include known in
theorem pairwise_rankedFrom_iff (i : Nat) (list : List (ℚ ×ₗ String)) :
    (rankedFrom float int data board.scoreField i list).Pairwise (Above board.scoreField) ↔
      (list.filterMap (entryScore float int data board)).Pairwise NotBelow := by
  induction list generalizing i with
  | nil => simp [rankedFrom]
  | cons symbolScore rest ih =>
      by_cases empty : (data (ofLex symbolScore).2).keys = []
      · rw [rankedFrom, if_pos empty, List.filterMap_cons_none (by rw [entryScore, if_pos empty])]
        exact ih (i + 1)
      · rw [rankedFrom, if_neg empty, List.filterMap_cons_some (by rw [entryScore, if_neg empty]),
          List.pairwise_cons, List.pairwise_cons, above_rankedFrom_iff known board (Nat.le_refl _), ih (i + 1)]

end

namespace Boards

theorem shown_update (update : Update) (symbolData : Dict String String) (board : Board) (score : ℚ) :
    shown float int (symbolData.update update.mapping.entries) board.scoreField score =
      shown float int update.mapping board.scoreField score := by
  have member : board.scoreField ∈ update.mapping.keys := update.complete ▸ (scoreField_known board).1
  obtain ⟨text, found⟩ := Dict.mem_iff_get.mp member
  have entry := Dict.get_eq_some_iff.mp found
  rw [shown, shown, found, Dict.get_update_of_mem _ update.mapping.unique entry]

theorem keys_update_ne_nil (update : Update) (symbolData : Dict String String) :
    (symbolData.update update.mapping.entries).keys ≠ [] := by
  intro empty
  have member : "symbol" ∈ update.mapping.keys := by rw [update.complete]; decide
  obtain ⟨text, found⟩ := Dict.mem_iff_get.mp member
  have stored := Dict.get_update_of_mem symbolData update.mapping.unique (Dict.get_eq_some_iff.mp found)
  exact Dict.keys_eq_nil_iff.mp empty "symbol" (Dict.mem_iff_get.mpr ⟨text, stored⟩)

theorem entryScore_commits (s : Boards) (updates : List Update) (board : Board) (symbolScore : ℚ ×ₗ String) :
    entryScore float int (s.commits updates).data board symbolScore = s.latest float int updates board symbolScore := by
  induction updates generalizing s with
  | nil => rfl
  | cons update rest ih =>
      have step : s.commits (update :: rest) = (s.commit update).commits rest := rfl
      rw [step, ih (s.commit update)]
      simp only [latest, lastUpdate]
      cases later : lastUpdate rest (ofLex symbolScore).2 with
      | some last => rfl
      | none =>
          by_cases same : update.symbol = (ofLex symbolScore).2
          · simp only [commit, ← same, Function.update_self, if_true, Option.none_or, if_neg (keys_update_ne_nil update _),
              shown_update]
          · simp only [commit, Function.update_of_ne (Ne.symm same), if_neg same, Option.none_or]

theorem commits_append (s : Boards) (first second : List Update) :
    s.commits (first ++ second) = (s.commits first).commits second := List.foldl_append ..

theorem fetchLeaderboards_eq (s : Boards) (between : Between) (limit : ℤ) (board : Board) :
    s.fetchLeaderboards float int between limit board =
      rankedFrom float int (s.commits (between.since board)).data board.scoreField 0 (s.top limit board) := by
  cases board with
  | topVolume => rfl
  | topGappers => rw [Between.since, commits_append]; rfl
  | topGainers => rw [Between.since, commits_append, commits_append]; rfl

theorem publishedInOrder_iff_fetched (s : Boards) (between : Between) (limit : ℤ) :
    s.PublishedInOrder float int between limit ↔
      ∀ board, (s.fetchLeaderboards float int between limit board).Pairwise (Above board.scoreField) := by
  constructor
  · intro published board
    by_cases empty : s.fetchLeaderboards float int between limit board = []
    · rw [empty]
      exact .nil
    · refine published board (board.result (s.fetchLeaderboards float int between limit board)) ?_ rfl
      refine List.mem_filterMap.mpr ⟨board, ?_, if_neg empty⟩
      cases board <;> simp
  · intro fetched board result member same
    obtain ⟨other, -, given⟩ := List.mem_filterMap.mp member
    split at given
    · cases given
    · cases given
      rw [← Board.cacheKey_injective same]
      exact fetched other

theorem publishedInOrder_iff_settled (float int : String → Option ℚ) (s : Boards) (between : Between) (limit : ℤ) :
    s.PublishedInOrder float int between limit ↔ s.Settled float int between limit := by
  rw [publishedInOrder_iff_fetched]
  unfold Settled
  refine forall_congr' fun board => ?_
  rw [fetchLeaderboards_eq, pairwise_rankedFrom_iff (s.commits (between.since board)).known board]
  have same : entryScore float int (s.commits (between.since board)).data board =
      s.latest float int (between.since board) board := by
    funext symbolScore
    exact entryScore_commits s (between.since board) board symbolScore
  rw [same]

/-! Boards that the code has written: what commits in between do to the order. -/

variable (float int)

def ReadsBack (update : Update) : Prop :=
  ∀ board score, shown float int update.mapping board.scoreField score = .num (update.score board)

/-- The hash of a listed symbol shows the score the symbol is listed with. -/
def Consistent (s : Boards) : Prop :=
  ∀ board, ∀ symbolScore ∈ (s.board board).entries, ∀ value, entryScore float int s.data board symbolScore = some value →
    value = .num (ofLex symbolScore).1

variable {float int}

theorem Consistent.commit {s : Boards} (consistent : s.Consistent float int) {update : Update}
    (readsBack : ReadsBack float int update) : (s.commit update).Consistent float int := by
  intro board symbolScore member value given
  have kept : symbolScore ∈ ((s.board board).zadd update.symbol (update.score board)).entries := by
    have top : symbolScore ∈ ((s.commit update).board board).toFinset := SortedSet.mem_toFinset.mpr member
    rw [Boards.commit, show (-501 : ℤ) = -((500 : Nat) + 1) from rfl, SortedSet.toFinset_trim] at top
    exact SortedSet.mem_toFinset.mp (Finset.top_subset 500 _ top)
  rcases SortedSet.mem_zadd.mp kept with rfl | ⟨old, other⟩
  · simp only [entryScore, Boards.commit, ofLex_toLex, Function.update_self, if_neg (keys_update_ne_nil update _),
      shown_update, readsBack board, Option.some.injEq] at given
    exact given.symm
  · simp only [entryScore, Boards.commit, Function.update_of_ne other] at given
    exact consistent board symbolScore old value given

theorem Consistent.commits {s : Boards} (consistent : s.Consistent float int) {updates : List Update}
    (readBack : ∀ update ∈ updates, ReadsBack float int update) : (s.commits updates).Consistent float int := by
  induction updates generalizing s with
  | nil => exact consistent
  | cons update rest ih =>
      obtain ⟨here, later⟩ := List.forall_mem_cons.mp readBack
      exact ih (consistent.commit here) later

theorem consistent_fresh : fresh.Consistent float int := fun _ _ member => nomatch member

theorem mem_of_lastUpdate {updates : List Update} {symbol : String} {update : Update}
    (last : lastUpdate updates symbol = some update) : update ∈ updates ∧ update.symbol = symbol := by
  induction updates with
  | nil => cases last
  | cons first rest ih =>
      rw [lastUpdate, Option.or_eq_some_iff] at last
      rcases last with later | ⟨-, here⟩
      · exact ⟨List.mem_cons_of_mem _ (ih later).1, (ih later).2⟩
      · split at here
        case isTrue same => cases here; exact ⟨List.mem_cons_self, same⟩
        case isFalse => cases here

theorem top_sublist (s : Boards) (limit : ℤ) (board : Board) :
    (s.top limit board).Sublist (s.board board).entries.reverse :=
  (List.take_sublist _ _).trans (List.drop_sublist _ _)

theorem sorted_top (s : Boards) (limit : ℤ) (board : Board) :
    (s.top limit board).Pairwise fun first second => second < first := by
  have sorted : (s.board board).entries.reverse.Pairwise fun first second => second < first :=
    List.pairwise_reverse.mpr (s.board board).sorted
  exact sorted.sublist (s.top_sublist limit board)

/-- The score last committed for a listed symbol, or else the one it is listed with. -/
def newScore (updates : List Update) (board : Board) (symbolScore : ℚ ×ₗ String) : ℚ :=
  match lastUpdate updates (ofLex symbolScore).2 with
  | some update => update.score board
  | none => (ofLex symbolScore).1

/-- Symbols without a hash get no entry. -/
def HasEntry (s : Boards) (updates : List Update) (symbolScore : ℚ ×ₗ String) : Prop :=
  (lastUpdate updates (ofLex symbolScore).2).isSome ∨ (s.data (ofLex symbolScore).2).keys ≠ []

instance (s : Boards) (updates : List Update) (symbolScore : ℚ ×ₗ String) : Decidable (s.HasEntry updates symbolScore) :=
  inferInstanceAs (Decidable (_ ∨ _))

/-- A listed symbol that is updated in between rises above one that is listed
above it, or falls below one that is listed below it. -/
def Overtaken (s : Boards) (limit : ℤ) (board : Board) (updates : List Update) : Prop :=
  ∃ moved ∈ s.top limit board, (lastUpdate updates (ofLex moved).2).isSome ∧
    ∃ other ∈ s.top limit board, s.HasEntry updates other ∧
      (moved < other ∧ newScore updates board other < newScore updates board moved ∨
        other < moved ∧ newScore updates board moved < newScore updates board other)

instance (s : Boards) (limit : ℤ) (board : Board) (updates : List Update) :
    Decidable (s.Overtaken limit board updates) := inferInstanceAs (Decidable (∃ moved ∈ _, _))

theorem newScore_of_unmoved {updates : List Update} {board : Board} {symbolScore : ℚ ×ₗ String}
    (unmoved : ¬(lastUpdate updates (ofLex symbolScore).2).isSome) :
    newScore updates board symbolScore = (ofLex symbolScore).1 := by
  rw [Option.not_isSome_iff_eq_none] at unmoved
  rw [newScore, unmoved]

/-- The boards are sorted, so two symbols can only change places when one is updated. -/
theorem not_overtaken_iff (s : Boards) (limit : ℤ) (board : Board) (updates : List Update) :
    ¬s.Overtaken limit board updates ↔
      (s.top limit board).Pairwise fun first second => s.HasEntry updates first → s.HasEntry updates second →
        newScore updates board second ≤ newScore updates board first := by
  constructor
  · intro kept
    refine (s.sorted_top limit board).imp_of_mem fun {first second} inFirst inSecond below hasFirst hasSecond => ?_
    by_contra more
    rw [not_le] at more
    by_cases moved : (lastUpdate updates (ofLex second).2).isSome
    · exact kept ⟨second, inSecond, moved, first, inFirst, hasFirst, .inl ⟨below, more⟩⟩
    by_cases fallen : (lastUpdate updates (ofLex first).2).isSome
    · exact kept ⟨first, inFirst, fallen, second, inSecond, hasSecond, .inr ⟨below, more⟩⟩
    -- neither was updated, and both have the scores they are listed with
    rw [newScore_of_unmoved moved, newScore_of_unmoved fallen] at more
    exact absurd (Prod.Lex.monotone_fst _ _ below.le) (not_le.mpr more)
  · rintro ordered ⟨moved, inMoved, updated, other, inOther, hasOther, swapped⟩
    -- of two listed symbols the greater one comes first
    have listed : ∀ ⦃first⦄, first ∈ s.top limit board → ∀ ⦃second⦄, second ∈ s.top limit board → second < first →
        s.HasEntry updates first → s.HasEntry updates second →
          newScore updates board second ≤ newScore updates board first :=
      List.Pairwise.forall_of_forall_of_flip (fun _ _ less => absurd less (lt_irrefl _))
        (ordered.imp fun {first second} le (_ : second < first) => le) ((s.sorted_top limit board).imp fun below above => absurd above (lt_asymm below))
    rcases swapped with ⟨below, more⟩ | ⟨below, more⟩
    · exact absurd (listed inOther inMoved below hasOther (.inl updated)) (not_le.mpr more)
    · exact absurd (listed inMoved inOther below (.inl updated) hasOther) (not_le.mpr more)

theorem Consistent.latest_eq {s : Boards} (consistent : s.Consistent float int) {limit : ℤ} {board : Board}
    {updates : List Update} (readBack : ∀ update ∈ updates, ReadsBack float int update) {symbolScore : ℚ ×ₗ String}
    (member : symbolScore ∈ s.top limit board) :
    s.latest float int updates board symbolScore =
      if s.HasEntry updates symbolScore then some (.num (newScore updates board symbolScore)) else none := by
  cases last : lastUpdate updates (ofLex symbolScore).2 with
  | some update =>
      have has : s.HasEntry updates symbolScore := .inl (by rw [last]; rfl)
      simp only [latest, last, if_pos has, newScore, readBack update (mem_of_lastUpdate last).1 board]
  | none =>
      have listed : symbolScore ∈ (s.board board).entries :=
        List.mem_reverse.mp ((s.top_sublist limit board).subset member)
      by_cases empty : (s.data (ofLex symbolScore).2).keys = []
      · have none : ¬s.HasEntry updates symbolScore := by simp [HasEntry, last, empty]
        simp only [latest, last, if_pos empty, if_neg none]
      · have has : s.HasEntry updates symbolScore := .inr empty
        have shows := consistent board symbolScore listed _ (by rw [entryScore, if_neg empty])
        simp only [latest, last, if_neg empty, if_pos has, newScore, shows]

/-- On boards that the code has written, what is published is in order just when
nothing committed since they were read lets one listed symbol overtake another. -/
theorem inOrder_iff_not_overtaken {float int : String → Option ℚ} {s : Boards} (consistent : s.Consistent float int)
    {between : Between} (readBack : ∀ board, ∀ update ∈ between.since board, ReadsBack float int update) (limit : ℤ) :
    s.PublishedInOrder float int between limit ↔ ∀ board, ¬s.Overtaken limit board (between.since board) := by
  rw [publishedInOrder_iff_settled]
  unfold Settled
  refine forall_congr' fun board => ?_
  rw [not_overtaken_iff, List.pairwise_filterMap]
  have shows {symbolScore : ℚ ×ₗ String} (member : symbolScore ∈ s.top limit board) :=
    consistent.latest_eq (readBack board) member
  constructor
  · refine fun ordered => ordered.imp_of_mem fun {first second} inFirst inSecond notBelow hasFirst hasSecond => ?_
    obtain ⟨x, y, isX, isY, le⟩ := notBelow _ ((shows inFirst).trans (if_pos hasFirst)) _
      ((shows inSecond).trans (if_pos hasSecond))
    cases isX
    cases isY
    exact le
  · refine fun ordered => ordered.imp_of_mem fun {first second} inFirst inSecond le => ?_
    intro value isFirst other isSecond
    rw [shows inFirst, Option.ite_none_right_eq_some] at isFirst
    rw [shows inSecond, Option.ite_none_right_eq_some] at isSecond
    obtain ⟨hasFirst, same⟩ := isFirst
    obtain ⟨hasSecond, also⟩ := isSecond
    cases same
    cases also
    exact ⟨_, _, rfl, rfl, le hasFirst hasSecond⟩

end Boards

end

/-! Two symbols, and the second overtakes the first after the boards are read. -/

def volumeUpdate (symbol : String) (volume : Nat) : Update where
  symbol := symbol
  score := fun
    | .topVolume => volume
    | _ => 0
  mapping :=
    { entries := mappingKeys.map fun key =>
        (key, if key = "symbol" then symbol else if key = "accumulated_volume" then toString volume else "0")
      unique := by simpa [Function.comp_def] using nodup_mappingKeys }
  complete := by simp [Dict.keys, Function.comp_def]

def smallInt (value : String) : Option ℚ :=
  (["0", "100", "200", "300"].zip [(0 : ℚ), 100, 200, 300]).lookup value

def listed : Boards := Boards.fresh.commits [volumeUpdate "AAPL" 200, volumeUpdate "MSFT" 100]

def overtaken : Between := ⟨[volumeUpdate "MSFT" 300], [], []⟩

def kept : Between := ⟨[volumeUpdate "AAPL" 300], [], [volumeUpdate "MSFT" 200]⟩

theorem convertValue_of_smallInt {value : String} {number : ℚ} (whole : '.' ∉ value.toList)
    (reads : smallInt value = some number) : convertValue (fun _ => none) smallInt value = .num number := by
  rw [convertValue, if_neg whole, reads]

theorem readsBack_volumeUpdate (symbol : String) {volume : Nat} (whole : '.' ∉ (toString volume).toList)
    (reads : smallInt (toString volume) = some volume) :
    Boards.ReadsBack (fun _ => none) smallInt (volumeUpdate symbol volume) := by
  have zero : convertValue (fun _ => none) smallInt "0" = .num 0 :=
    convertValue_of_smallInt (by decide) (by decide +kernel)
  intro board score
  cases board with
  | topVolume => exact convertValue_of_smallInt whole reads
  | topGappers =>
      have text : (volumeUpdate symbol volume).mapping.get Board.topGappers.scoreField = some "0" := rfl
      rw [shown, text]
      exact zero
  | topGainers =>
      have text : (volumeUpdate symbol volume).mapping.get Board.topGainers.scoreField = some "0" := rfl
      rw [shown, text]
      exact zero

/-- AAPL rises from the first place and MSFT up to it. -/
theorem inOrder_kept : listed.PublishedInOrder (fun _ => none) smallInt kept 500 := by
  have update (symbol : String) : ∀ volume ∈ [100, 200, 300],
      Boards.ReadsBack (fun _ => none) smallInt (volumeUpdate symbol volume) := by
    simp only [List.mem_cons, List.not_mem_nil, or_false]
    rintro volume (rfl | rfl | rfl) <;> exact readsBack_volumeUpdate symbol (by decide) (by decide +kernel)
  have consistent : listed.Consistent (fun _ => none) smallInt := by
    refine Boards.consistent_fresh.commits ?_
    exact List.forall_mem_cons.mpr ⟨update "AAPL" 200 (by decide),
      List.forall_mem_singleton.mpr (update "MSFT" 100 (by decide))⟩
  have all : ∀ written ∈ kept.since .topGainers, Boards.ReadsBack (fun _ => none) smallInt written :=
    List.forall_mem_cons.mpr ⟨update "AAPL" 300 (by decide),
      List.forall_mem_singleton.mpr (update "MSFT" 200 (by decide))⟩
  have readBack : ∀ board, ∀ written ∈ kept.since board, Boards.ReadsBack (fun _ => none) smallInt written := by
    intro board written member
    refine all written ?_
    cases board <;> first | exact member | exact List.mem_append_left _ member
  refine (Boards.inOrder_iff_not_overtaken consistent readBack 500).mpr fun board => ?_
  cases board <;> decide +kernel

theorem shown_overtaken :
    (listed.fetchLeaderboards (fun _ => none) smallInt overtaken 500 .topVolume).map
      (fun entry => (entry.get "accumulated_volume").bind Value.number?) = [some 200, some 300] := by
  decide +kernel

theorem publishedInOrder_overtaken : ¬listed.PublishedInOrder (fun _ => none) smallInt overtaken 500 := by
  intro published
  have ordered := (Boards.publishedInOrder_iff_fetched listed overtaken 500).mp published .topVolume
  have numbers : ((listed.fetchLeaderboards (fun _ => none) smallInt overtaken 500 .topVolume).map
      fun entry => (entry.get "accumulated_volume").bind Value.number?).Pairwise
        fun first second => ∃ x y, first = some x ∧ second = some y ∧ y ≤ x := by
    refine List.pairwise_map.mpr (ordered.imp fun above => ?_)
    obtain ⟨x, y, -, -, isX, isY, le, -⟩ := above
    have first := congrArg (Option.bind · Value.number?) isX
    have second := congrArg (Option.bind · Value.number?) isY
    exact ⟨x, y, first, second, le⟩
  rw [shown_overtaken] at numbers
  have wrong : (300 : ℚ) ≤ 200 := by simpa using numbers
  exact absurd wrong (by decide)

end KuhlHausMdp.LeaderboardAnalyzer
