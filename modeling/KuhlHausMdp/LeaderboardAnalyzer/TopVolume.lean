import KuhlHausMdp.LeaderboardAnalyzer.Latest

/-! While volumes do not fall, the trimmed board is the exact top 500. -/

set_option autoImplicit false

namespace KuhlHausMdp.LeaderboardAnalyzer

def latestVolume : List Commit → String → Option ℚ
  | [], _ => none
  | commit :: rest, symbol =>
      (latestVolume rest symbol).or (if commit.symbol = symbol then some commit.accumulatedVolume else none)

def latestEntries (commits : List Commit) : Finset (ℚ ×ₗ String) :=
  (commits.filterMap fun commit =>
    (latestVolume commits commit.symbol).map fun volume => toLex (volume, commit.symbol)).toFinset

theorem latestVolume_eq (commits : List Commit) : latestVolume commits = latestScore .topVolume commits := by
  induction commits with
  | nil => rfl
  | cons commit rest ih =>
      funext symbol
      rw [latestVolume, latestScore, ih]
      rfl

theorem latestEntries_eq (commits : List Commit) : latestEntries commits = latestScores .topVolume commits := by
  rw [latestEntries, latestVolume_eq, latestScores]

/-- Each symbol's volumes never fall from one commit to a later one. -/
def VolumesGrow (commits : List Commit) : Prop :=
  commits.Pairwise fun earlier later =>
    earlier.symbol = later.symbol → earlier.accumulatedVolume ≤ later.accumulatedVolume

/-- A volume that does not fall stays above whatever ranked below it. -/
theorem retains_of_grows {commits : List Commit} {last : Commit} (grow : VolumesGrow (commits ++ [last])) :
    Retains .topVolume commits last := by
  intro old latest inside entry member outside
  obtain ⟨commit, committed, same, volume⟩ := exists_commit_of_latestScore latest
  have grows : old ≤ last.accumulatedVolume := by
    obtain ⟨-, -, later⟩ := List.pairwise_append.mp grow
    exact volume ▸ later commit committed last (List.mem_singleton_self last) same
  apply (Finset.lt_of_notMem_top member outside inside).trans_le
  exact Prod.Lex.toLex_le_toLex.mpr (grows.lt_or_eq.imp_right fun equal => ⟨equal, le_refl _⟩)

theorem board_foldl_commit (store : Store) (empty : store.board .topVolume = ∅) (commits : List Commit)
    (grow : VolumesGrow commits) :
    ((commits.foldl Store.commit store).board .topVolume).toFinset = (latestEntries commits).top 500 := by
  rw [latestEntries_eq]
  apply (board_exact_iff .topVolume store empty commits).mpr _ commits (List.prefix_refl _)
  intro done last inside
  exact retains_of_grows (List.Pairwise.sublist inside.sublist grow)

/-- After any sequence of pipelines in which no symbol's volume falls, the
volume board is the exact top 500 of the latest volumes, and all of them when
there are no more. -/
theorem top_volume_exact (store : Store) (empty : store.board .topVolume = ∅) (commits : List Commit)
    (grow : VolumesGrow commits) :
    ((commits.foldl Store.commit store).board .topVolume).toFinset = (latestEntries commits).top 500 ∧
      ((latestEntries commits).card ≤ 500 →
        ((commits.foldl Store.commit store).board .topVolume).toFinset = latestEntries commits) := by
  have exact := board_foldl_commit store empty commits grow
  exact ⟨exact, fun few => exact.trans (Finset.top_eq_self few)⟩

def volumeCommit (symbol : String) (volume : ℚ) : Commit where
  symbol := symbol
  accumulatedVolume := volume
  pctChange := 0
  pctChangeSinceOpen := 0
  mapping := ∅

theorem top_volume_exact_two_symbols :
    toLex (150, "AAPL") ∈
      ((([volumeCommit "AAPL" 100, volumeCommit "TSLA" 70, volumeCommit "AAPL" 150].foldl Store.commit
        Store.fresh).board .topVolume).toFinset) := by
  have growing : VolumesGrow [volumeCommit "AAPL" 100, volumeCommit "TSLA" 70, volumeCommit "AAPL" 150] := by
    simp only [VolumesGrow, volumeCommit]
    decide
  have board := top_volume_exact Store.fresh rfl
    [volumeCommit "AAPL" 100, volumeCommit "TSLA" 70, volumeCommit "AAPL" 150] growing
  have few : (latestEntries [volumeCommit "AAPL" 100, volumeCommit "TSLA" 70, volumeCommit "AAPL" 150]).card ≤ 3 :=
    (List.toFinset_card_le _).trans (List.length_filterMap_le _ _)
  rw [board.2 (by omega), latestEntries_eq]
  exact mem_latestScores.mpr rfl

end KuhlHausMdp.LeaderboardAnalyzer
