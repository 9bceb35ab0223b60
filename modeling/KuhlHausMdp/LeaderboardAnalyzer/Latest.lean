import KuhlHausMdp.LeaderboardAnalyzer.Store

/-! A trimmed board against the latest scores of all symbols. A pipeline that
lowers a kept symbol can uncover one that was trimmed away. -/

set_option autoImplicit false

namespace KuhlHausMdp.LeaderboardAnalyzer

def latestScore (board : Board) : List Commit → String → Option ℚ
  | [], _ => none
  | commit :: rest, symbol =>
      (latestScore board rest symbol).or (if commit.symbol = symbol then some (commit.score board) else none)

/-- Every symbol that was committed, with its latest score. -/
def latestScores (board : Board) (commits : List Commit) : Finset (ℚ ×ₗ String) :=
  (commits.filterMap fun commit =>
    (latestScore board commits commit.symbol).map fun score => toLex (score, commit.symbol)).toFinset

variable {board : Board}

theorem latestScore_append (commits : List Commit) (last : Commit) (symbol : String) :
    latestScore board (commits ++ [last]) symbol =
      if last.symbol = symbol then some (last.score board) else latestScore board commits symbol := by
  induction commits with
  | nil => simp [latestScore]
  | cons commit rest ih =>
      rw [List.cons_append, latestScore, ih, latestScore]
      split <;> simp

theorem exists_commit_of_latestScore {commits : List Commit} {symbol : String} {score : ℚ}
    (latest : latestScore board commits symbol = some score) :
    ∃ commit ∈ commits, commit.symbol = symbol ∧ commit.score board = score := by
  induction commits with
  | nil => cases latest
  | cons commit rest ih =>
      rw [latestScore, Option.or_eq_some_iff] at latest
      rcases latest with later | ⟨-, first⟩
      · obtain ⟨found, member, facts⟩ := ih later
        exact ⟨found, List.mem_cons_of_mem _ member, facts⟩
      · split at first
        case isTrue same => exact ⟨commit, List.mem_cons_self, same, Option.some.inj first⟩
        case isFalse => cases first

theorem mem_latestScores {commits : List Commit} {score : ℚ} {symbol : String} :
    toLex (score, symbol) ∈ latestScores board commits ↔ latestScore board commits symbol = some score := by
  simp only [latestScores, List.mem_toFinset, List.mem_filterMap, Option.map_eq_some_iff]
  constructor
  · rintro ⟨commit, -, found, latest, same⟩
    cases same
    exact latest
  · intro latest
    obtain ⟨commit, member, same, -⟩ := exists_commit_of_latestScore latest
    subst same
    exact ⟨commit, member, score, latest, rfl⟩

theorem latestScores_append (commits : List Commit) (last : Commit) :
    latestScores board (commits ++ [last]) =
      insert (toLex (last.score board, last.symbol))
        ((latestScores board commits).filter fun entry => (ofLex entry).2 ≠ last.symbol) := by
  ext entry
  obtain ⟨⟨score, symbol⟩, rfl⟩ := toLex.surjective entry
  simp only [mem_latestScores, latestScore_append, Finset.mem_insert, Finset.mem_filter, ofLex_toLex]
  by_cases same : last.symbol = symbol
  · subst same
    simp [eq_comm]
  · have apart : toLex (score, symbol) ≠ toLex (last.score board, last.symbol) := by
      intro equal
      exact same (congrArg (fun entry => (ofLex entry).2) equal).symm
    simp [same, apart, Ne.symm same]

theorem filter_symbol_eq_erase {commits : List Commit} {S : Finset (ℚ ×ₗ String)}
    (inside : S ⊆ latestScores board commits) {symbol : String} {old : ℚ}
    (latest : latestScore board commits symbol = some old) :
    (S.filter fun entry => (ofLex entry).2 ≠ symbol) = S.erase (toLex (old, symbol)) := by
  ext entry
  obtain ⟨⟨score, other⟩, rfl⟩ := toLex.surjective entry
  simp only [Finset.mem_filter, Finset.mem_erase, ofLex_toLex]
  constructor
  · rintro ⟨member, apart⟩
    exact ⟨fun equal => apart (congrArg (fun entry => (ofLex entry).2) equal), member⟩
  · rintro ⟨apart, member⟩
    refine ⟨member, ?_⟩
    rintro rfl
    have same := mem_latestScores.mp (inside member)
    rw [latest] at same
    cases same
    exact apart rfl

theorem filter_symbol_eq_self {commits : List Commit} {S : Finset (ℚ ×ₗ String)}
    (inside : S ⊆ latestScores board commits) {symbol : String} (missing : latestScore board commits symbol = none) :
    (S.filter fun entry => (ofLex entry).2 ≠ symbol) = S := by
  apply Finset.filter_true_of_mem
  intro entry member same
  obtain ⟨⟨score, other⟩, rfl⟩ := toLex.surjective entry
  have latest := mem_latestScores.mp (inside member)
  cases same
  cases missing.symm.trans latest

/-- A pipeline that moves one of the 500 highest entries leaves it above every
entry that ranks outside them. -/
def Retains (board : Board) (commits : List Commit) (last : Commit) : Prop :=
  ∀ old, latestScore board commits last.symbol = some old →
    toLex (old, last.symbol) ∈ (latestScores board commits).top 500 →
      ∀ entry ∈ latestScores board commits, entry ∉ (latestScores board commits).top 500 →
        entry < toLex (last.score board, last.symbol)

/-- One more pipeline, on the board trimmed before instead of on everything. -/
theorem top_commit_iff (commits : List Commit) (last : Commit) :
    (insert (toLex (last.score board, last.symbol))
        (((latestScores board commits).top 500).filter fun entry => (ofLex entry).2 ≠ last.symbol)).top 500 =
      (latestScores board (commits ++ [last])).top 500 ↔ Retains board commits last := by
  have inside := Finset.top_subset 500 (latestScores board commits)
  rw [latestScores_append]
  cases latest : latestScore board commits last.symbol with
  | none =>
      rw [filter_symbol_eq_self inside latest, filter_symbol_eq_self (Finset.Subset.refl _) latest]
      exact iff_of_true (Finset.top_insert 500 _ _) fun old some => nomatch latest.symm.trans some
  | some old =>
      have fresh : toLex (last.score board, last.symbol) ∉
          (latestScores board commits).erase (toLex (old, last.symbol)) := by
        rw [← filter_symbol_eq_erase (Finset.Subset.refl _) latest]
        simp
      rw [filter_symbol_eq_erase inside latest, filter_symbol_eq_erase (Finset.Subset.refl _) latest]
      by_cases top : toLex (old, last.symbol) ∈ (latestScores board commits).top 500
      · rw [Finset.top_replace_iff top fresh]
        constructor
        · intro lower other same _
          exact lower
        · intro retains
          exact retains old latest top
      · apply iff_of_true (Finset.top_replace_of_notMem top _)
        intro other same also
        cases latest.symm.trans same
        exact absurd also top

def Exact (board : Board) (store : Store) (commits : List Commit) : Prop :=
  ((commits.foldl Store.commit store).board board).toFinset = (latestScores board commits).top 500

theorem exact_append_iff {store : Store} {commits : List Commit} (exact : Exact board store commits) (last : Commit) :
    Exact board store (commits ++ [last]) ↔ Retains board commits last := by
  rw [← top_commit_iff, Exact, List.foldl_append, List.foldl_cons, List.foldl_nil, Store.board_commit, exact]

/-- From an empty board, the board is exact after every pipeline exactly when
no pipeline lowers one of the 500 highest entries below one outside them. -/
theorem board_exact_iff (board : Board) (store : Store) (empty : store.board board = ∅) (commits : List Commit) :
    (∀ done, done <+: commits → Exact board store done) ↔
      ∀ done last, done ++ [last] <+: commits → Retains board done last := by
  constructor
  · intro exact done last inside
    have before := exact done ((List.prefix_append done [last]).trans inside)
    exact (exact_append_iff before last).mp (exact (done ++ [last]) inside)
  · intro retains done inside
    induction done using List.reverseRecOn with
    | nil => rw [Exact, List.foldl_nil, empty]; rfl
    | append_singleton done last ih =>
        have before := ih ((List.prefix_append done [last]).trans inside)
        exact (exact_append_iff before last).mpr (retains done last inside)

end KuhlHausMdp.LeaderboardAnalyzer
