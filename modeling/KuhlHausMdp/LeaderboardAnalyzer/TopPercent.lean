import KuhlHausMdp.LeaderboardAnalyzer.Latest

/-! The percentage boards. Their scores fall as well as rise, so the trimmed
board is exact only while nothing that was trimmed away should come back. -/

set_option autoImplicit false

namespace KuhlHausMdp.LeaderboardAnalyzer

/-- On both percentage boards: the 500 highest latest scores after every pipeline
exactly when no pipeline lowers one of them below an entry outside. -/
theorem percent_boards_exact_iff (store : Store) (gappers : store.board .topGappers = ∅)
    (gainers : store.board .topGainers = ∅) (commits : List Commit) :
    ((∀ done, done <+: commits → Exact .topGappers store done) ↔
      ∀ done last, done ++ [last] <+: commits → Retains .topGappers done last) ∧
    ((∀ done, done <+: commits → Exact .topGainers store done) ↔
      ∀ done last, done ++ [last] <+: commits → Retains .topGainers done last) :=
  ⟨board_exact_iff .topGappers store gappers commits, board_exact_iff .topGainers store gainers commits⟩

def percentCommit (symbol : String) (percent : ℚ) : Commit where
  symbol := symbol
  accumulatedVolume := 0
  pctChange := percent
  pctChangeSinceOpen := percent
  mapping := ∅

/-- A symbol that falls on a board with room for all stays on it. -/
theorem percent_boards_exact_iff_room :
    Exact .topGappers Store.fresh [percentCommit "AAPL" 2, percentCommit "TSLA" 1, percentCommit "AAPL" 0] := by
  apply (percent_boards_exact_iff Store.fresh rfl rfl
    [percentCommit "AAPL" 2, percentCommit "TSLA" 1, percentCommit "AAPL" 0]).1.mpr _ _ (List.prefix_refl _)
  intro done last inside old _ _ entry member outside
  have few : (latestScores .topGappers done).card ≤ done.length :=
    (List.toFinset_card_le _).trans (List.length_filterMap_le _ _)
  have short := inside.length_le
  rw [List.length_append, List.length_singleton, List.length_cons, List.length_cons, List.length_singleton] at short
  rw [Finset.top_eq_self (by omega)] at outside
  exact absurd member outside

/-! 501 symbols, each above the one before, and then a fall of the last. -/

variable {board : Board}

def ticker (n : Nat) : String := String.ofList (List.replicate (n + 1) 'A')

def climbing (count : Nat) : List Commit := (List.range count).map fun n => percentCommit (ticker n) n

theorem ticker_injective : Function.Injective ticker := by
  intro first second same
  have lists := String.ofList_injective same
  simpa using congrArg List.length lists

theorem climbing_succ (count : Nat) :
    climbing (count + 1) = climbing count ++ [percentCommit (ticker count) count] := by
  rw [climbing, List.range_succ, List.map_append]
  rfl

theorem latestScore_climbing (percent : board ≠ .topVolume) {count n : Nat} (small : n < count) :
    latestScore board (climbing count) (ticker n) = some (n : ℚ) := by
  induction count with
  | zero => omega
  | succ count ih =>
      rw [climbing_succ, latestScore_append]
      split
      case isTrue same =>
        rw [ticker_injective same]
        cases board <;> first | rfl | exact absurd rfl percent
      case isFalse other => exact ih (lt_of_le_of_ne (Nat.le_of_lt_succ small) fun equal => other (equal ▸ rfl))

theorem mem_climbing (percent : board ≠ .topVolume) {count : Nat} {entry : ℚ ×ₗ String}
    (member : entry ∈ latestScores board (climbing count)) : ∃ n < count, entry = toLex ((n : ℚ), ticker n) := by
  obtain ⟨⟨score, symbol⟩, rfl⟩ := toLex.surjective entry
  have latest := mem_latestScores.mp member
  obtain ⟨commit, committed, rfl, -⟩ := exists_commit_of_latestScore latest
  obtain ⟨n, inside, rfl⟩ := List.mem_map.mp committed
  rw [percentCommit, latestScore_climbing percent (List.mem_range.mp inside)] at latest
  cases latest
  exact ⟨n, List.mem_range.mp inside, rfl⟩

theorem not_retains_climbing (percent : board ≠ .topVolume) :
    ¬Retains board (climbing 501) (percentCommit (ticker 500) (-1)) := by
  intro retains
  have leader : toLex ((500 : ℚ), ticker 500) ∈ (latestScores board (climbing 501)).top 500 := by
    apply Finset.mem_top.mpr
    refine ⟨mem_latestScores.mpr (latestScore_climbing percent (by omega)), ?_⟩
    rw [Finset.card_eq_zero.mpr]
    · omega
    · apply Finset.eq_empty_of_forall_notMem
      intro entry high
      obtain ⟨member, above⟩ := Finset.mem_above.mp high
      obtain ⟨n, small, rfl⟩ := mem_climbing percent member
      rcases Prod.Lex.toLex_lt_toLex.mp above with more | ⟨same, more⟩
      · change (500 : ℚ) < n at more
        have greater : 500 < n := by exact_mod_cast more
        omega
      · change (500 : ℚ) = n at same
        have equal : n = 500 := by exact_mod_cast same.symm
        exact lt_irrefl _ (equal ▸ more)
  have evicted : toLex ((0 : ℚ), ticker 0) ∉ (latestScores board (climbing 501)).top 500 := by
    intro top
    have few := (Finset.mem_top.mp top).2
    have many : ((Finset.range 500).image fun n => toLex (((n + 1 : Nat) : ℚ), ticker (n + 1))) ⊆
        (latestScores board (climbing 501)).above (toLex (0, ticker 0)) := by
      intro entry member
      obtain ⟨n, small, rfl⟩ := Finset.mem_image.mp member
      have below : n + 1 < 501 := by
        have := Finset.mem_range.mp small
        omega
      apply Finset.mem_above.mpr
      refine ⟨mem_latestScores.mpr (latestScore_climbing percent below), ?_⟩
      have positive : (0 : ℚ) < (n + 1 : Nat) := by exact_mod_cast Nat.succ_pos n
      exact Prod.Lex.toLex_lt_toLex.mpr (.inl positive)
    have enough := Finset.card_le_card many
    rw [Finset.card_image_of_injective, Finset.card_range] at enough
    · omega
    · intro first second same
      have scores : ((first + 1 : Nat) : ℚ) = (second + 1 : Nat) := congrArg (fun entry => (ofLex entry).1) same
      exact Nat.succ.inj (Nat.cast_injective scores)
  have zero : toLex ((0 : ℚ), ticker 0) ∈ latestScores board (climbing 501) :=
    mem_latestScores.mpr (latestScore_climbing percent (by omega))
  have below := retains 500 (latestScore_climbing percent (by omega)) leader _ zero evicted
  have fallen : (percentCommit (ticker 500) (-1)).score board = -1 := by
    cases board <;> first | rfl | exact absurd rfl percent
  rw [fallen] at below
  rcases Prod.Lex.toLex_lt_toLex.mp below with more | ⟨same, -⟩
  · exact absurd (more : (0 : ℚ) < -1) (by decide)
  · exact absurd (same : (0 : ℚ) = -1) (by decide)

/-- The leader falls below everything, and the symbol that was trimmed stays away. -/
theorem trimmed_symbol_stays_away :
    (¬∀ done, done <+: climbing 501 ++ [percentCommit (ticker 500) (-1)] → Exact .topGappers Store.fresh done) ∧
      ¬∀ done, done <+: climbing 501 ++ [percentCommit (ticker 500) (-1)] → Exact .topGainers Store.fresh done := by
  constructor
  · intro exact
    apply not_retains_climbing (show Board.topGappers ≠ .topVolume by decide)
    exact (board_exact_iff .topGappers Store.fresh rfl _).mp exact _ _ (List.prefix_refl _)
  · intro exact
    apply not_retains_climbing (show Board.topGainers ≠ .topVolume by decide)
    exact (board_exact_iff .topGainers Store.fresh rfl _).mp exact _ _ (List.prefix_refl _)

end KuhlHausMdp.LeaderboardAnalyzer
