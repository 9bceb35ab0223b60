import KuhlHausMdp.LeaderboardAnalyzer.Expiry
import KuhlHausMdp.LeaderboardAnalyzer.Publish

/-! The hash of a symbol expires an hour after the symbol's last pipeline, its
members of the boards do not. `_hydrate_leaderboard` leaves out a member without
a hash, and keeps the ranks of the others. -/

set_option autoImplicit false

namespace KuhlHausMdp.LeaderboardAnalyzer

open Transition

namespace Timed

def commitOf (float : String → Option ℚ) (s : Timed) (zone : ZoneInfo) (a : Arrival) : Option Commit :=
  if (s.checks zone a).2 then none
  else do
    let symbol ← a.event.symbol
    let lookups ← a.lookups
    let early ← computeEarly a.event.data (prevDayOf lookups.snapshot) lookups.avgVolume
    let (openPrice, _) ← (s.checks zone a).1.getSymbolOpenPrice float symbol a
    let prepared ←
      prepare symbol a.event.data (prevDayOf lookups.snapshot) lookups.avgVolume lookups.freeFloat openPrice early
    if a.fails .execute then none else prepared.commit symbol

def setHash (s : Timed) (symbol : String) (data : Dict String Value) : Timed :=
  { s with keys := { s.keys with data := Function.update s.keys.data symbol data } }

end Timed

/-- `executeTime` is when the pipeline of the event is executed. -/
structure Visit where
  arrival : Arrival
  executeTime : ℤ

structure Dated where
  timed : Timed
  written : String → Option ℤ

namespace Dated

def fresh : Dated := ⟨.fresh, fun _ => none⟩

def isLive (s : Dated) (now : ℤ) (symbol : String) : Bool :=
  (s.written symbol).any fun since => decide (now < since + MarketDataCacheTTL.LEADERBOARD_ANALYZER)

def hgetall (s : Dated) (now : ℤ) (symbol : String) : Dict String Value :=
  if s.isLive now symbol then s.timed.keys.data symbol else ∅

def step (float : String → Option ℚ) (zone : ZoneInfo) (s : Dated) (visit : Visit) : Option Dated :=
  match s.timed.commitOf float zone visit.arrival with
  | none => some { s with timed := (s.timed.analyzeData float zone visit.arrival).state }
  | some commit =>
      -- `hset` begins a new hash where the old one has expired
      let hash := (s.hgetall visit.executeTime commit.symbol).update commit.mapping.entries
      some
        { timed := (s.timed.analyzeData float zone visit.arrival).state.setHash commit.symbol hash
          written := Function.update s.written commit.symbol (some visit.executeTime) }

section

variable (text : Value → String) (float int : String → Option ℚ)

/-- The hashes of a board are read at an instant of the board's own. -/
def fetchLeaderboards (s : Dated) (now : Board → ℤ) (limit : ℤ) (board : Board) : List (Dict String Value) :=
  rankedFrom float int (fun symbol => (s.hgetall (now board) symbol).mapValues text) board.scoreField 0
    ((s.timed.keys.board board).zrevrange 0 (limit - 1))

def buildLeaderboardResults (s : Dated) (now : Board → ℤ) (limit : ℤ) : List MarketDataAnalyzerResult :=
  let leaderboards := s.fetchLeaderboards text float int now limit
  [.topVolume, .topGappers, .topGainers].filterMap fun board : Board =>
    if leaderboards board = [] then none else some (board.result (leaderboards board))

/-- The entry of a member: its position on the board as its rank, and its symbol
as the hash gives it. -/
def IsEntryOf (member : (ℚ ×ₗ String) × Nat) (entry : Dict String Value) : Prop :=
  entry.get "rank" = some (.num (member.2 + 1)) ∧
    entry.get "symbol" = some (convertValue float int (text (.str (ofLex member.1).2)))

def Complete (top : List (ℚ ×ₗ String)) (data : List (Dict String Value)) : Prop :=
  List.Forall₂ (IsEntryOf text float int) top.zipIdx data

end

def topMembers (s : Dated) (board : Board) : List (ℚ ×ₗ String) := (s.timed.keys.board board).entries.reverse.take 500

end Dated

/-! What an event does to the boards and the hashes. -/

namespace Timed

variable {float : String → Option ℚ} {s : Timed} {zone : ZoneInfo} {a : Arrival}

theorem keys_checkMarketOpenReset (s : Timed) (zone : ZoneInfo) (a : Arrival) :
    (s.checkMarketOpenReset zone a).1.keys.data = s.keys.data ∧
      ∀ board, (s.checkMarketOpenReset zone a).1.keys.board board = s.keys.board board ∨
        (s.checkMarketOpenReset zone a).1.keys.board board = ∅ := by
  unfold checkMarketOpenReset
  split
  · exact ⟨rfl, fun _ => .inl rfl⟩
  · split_ifs
    · exact ⟨rfl, fun _ => .inl rfl⟩
    · exact ⟨rfl, fun _ => .inl rfl⟩
    · exact ⟨rfl, fun _ => .inl rfl⟩
    · refine ⟨rfl, fun board => ?_⟩
      by_cases gainers : board = .topGainers
      · subst gainers
        exact .inr (by simp only [Function.update_self])
      · exact .inl (Function.update_of_ne gainers ..)

theorem keys_checks (s : Timed) (zone : ZoneInfo) (a : Arrival) : (s.checks zone a).1.keys.data = s.keys.data ∧
    ∀ board, (s.checks zone a).1.keys.board board = s.keys.board board ∨ (s.checks zone a).1.keys.board board = ∅ := by
  unfold checks
  split
  case isTrue => exact ⟨rfl, fun _ => .inl rfl⟩
  case isFalse =>
    obtain ⟨data, boards⟩ := keys_checkMarketOpenReset { s with keys := s.keys.checkDayBoundary (a.day zone) } zone a
    refine ⟨data, fun board => ?_⟩
    rcases boards board with same | none
    · rw [same]
      simp only [Store.checkDayBoundary]
      split
      · exact .inr rfl
      · exact .inl rfl
    · exact .inr none

theorem keys_getSymbolOpenPrice {t : Timed} {symbol : String} {openPrice : Value}
    (asked : s.getSymbolOpenPrice float symbol a = some (openPrice, t)) : t.keys = s.keys := by
  rcases getSymbolOpenPrice_eq_some asked with ⟨_, _, _, _, _, _, _, rfl⟩ | ⟨_, _, rfl⟩ <;> rfl

theorem keys_execute {symbol : String} (prepared : Prepared) :
    (s.execute symbol a prepared).1.keys =
      match if a.fails .execute then none else prepared.commit symbol with
      | none => s.keys
      | some commit => s.keys.commit commit := by
  unfold execute
  cases if a.fails .execute then none else prepared.commit symbol <;> rfl

theorem commitOf_eq_some {commit : Commit} (sent : s.commitOf float zone a = some commit) :
    commit.mapping.keys = mappingKeys ∧ ("symbol", .str commit.symbol) ∈ commit.mapping.entries := by
  unfold commitOf at sent
  split at sent
  case isTrue => cases sent
  case isFalse =>
    simp only [Option.bind_eq_bind, Option.bind_eq_some_iff] at sent
    obtain ⟨symbol, -, lookups, -, early, -, ⟨openPrice, after⟩, -, prepared, ready, executed⟩ := sent
    split at executed
    case isTrue => cases executed
    case isFalse =>
      simp only [prepare, Option.bind_eq_bind, Option.bind_eq_some_iff] at ready
      obtain ⟨sinceOpen, -, gain, -, same⟩ := ready
      cases same
      obtain ⟨-, _, _, _, -, -, -, rfl⟩ := pipeline_eq_some executed
      exact ⟨rfl, List.mem_cons_self⟩

theorem keys_analyzeData (float : String → Option ℚ) (s : Timed) (zone : ZoneInfo) (a : Arrival) :
    (s.analyzeData float zone a).state.keys = match s.commitOf float zone a with
    | none => (s.checks zone a).1.keys
    | some commit => (s.checks zone a).1.keys.commit commit := by
  unfold analyzeData commitOf
  split
  case isTrue => rfl
  case isFalse =>
    cases a.event.symbol with
    | none => rfl
    | some symbol =>
        simp only [Option.bind_eq_bind, Option.bind_some, update]
        cases a.lookups with
        | none => rfl
        | some lookups =>
            simp only [Option.bind_some]
            cases computeEarly a.event.data (prevDayOf lookups.snapshot) lookups.avgVolume with
            | none => rfl
            | some early =>
                simp only [Option.bind_some]
                cases asked : (s.checks zone a).1.getSymbolOpenPrice float symbol a with
                | none => rfl
                | some answer =>
                    obtain ⟨openPrice, after⟩ := answer
                    have same := keys_getSymbolOpenPrice asked
                    simp only [Option.bind_some]
                    cases prepare symbol a.event.data (prevDayOf lookups.snapshot) lookups.avgVolume lookups.freeFloat
                        openPrice early with
                    | none => exact same
                    | some prepared =>
                        simp only [Option.bind_some, finish, keys_execute, same]

end Timed

namespace Dated

variable {float : String → Option ℚ} {s t : Dated} {zone : ZoneInfo} {visit : Visit}

/-- Every member of a board has had a pipeline, and every pipeline has left a
hash that names its symbol and has no fields but those of a mapping. -/
structure Inv (s : Dated) : Prop where
  listed : ∀ board, ∀ member ∈ (s.timed.keys.board board).entries, (s.written (ofLex member).2).isSome = true
  hashed : ∀ symbol, (s.written symbol).isSome = true → (s.timed.keys.data symbol).get "symbol" = some (.str symbol)
  known : ∀ symbol, ∀ key ∈ s.timed.keys.data symbol, key ∈ mappingKeys

theorem Inv.fresh : fresh.Inv where
  listed := fun _ _ member => nomatch member
  hashed := fun _ written => nomatch written
  known := fun _ _ member => absurd member (Dict.notMem_empty _)

theorem known_hgetall (inv : s.Inv) (now : ℤ) (symbol : String) : ∀ key ∈ s.hgetall now symbol, key ∈ mappingKeys := by
  unfold hgetall
  split
  · exact inv.known symbol
  · exact fun key member => absurd member (Dict.notMem_empty key)

theorem Inv.checks (inv : s.Inv) (zone : ZoneInfo) (a : Arrival) : Inv { s with timed := (s.timed.checks zone a).1 } := by
  obtain ⟨data, boards⟩ := s.timed.keys_checks zone a
  constructor
  · intro board member listed
    rcases boards board with same | none
    · exact inv.listed board member (same ▸ listed)
    · rw [none] at listed
      cases listed
  · intro symbol written
    simp only [data]
    exact inv.hashed symbol written
  · intro symbol
    simp only [data]
    exact inv.known symbol

theorem Inv.congr (inv : s.Inv) (written : t.written = s.written) (keys : t.timed.keys = s.timed.keys) : t.Inv where
  listed := by rw [written, keys]; exact inv.listed
  hashed := by rw [written, keys]; exact inv.hashed
  known := by rw [keys]; exact inv.known

theorem Inv.commit (inv : s.Inv) {commit : Commit} {left : Dict String Value} (time : ℤ)
    (board : t.timed.keys.board = (s.timed.keys.commit commit).board)
    (data : t.timed.keys.data = Function.update s.timed.keys.data commit.symbol (left.update commit.mapping.entries))
    (written : t.written = Function.update s.written commit.symbol (some time))
    (complete : commit.mapping.keys = mappingKeys) (named : ("symbol", .str commit.symbol) ∈ commit.mapping.entries)
    (known : ∀ key ∈ left, key ∈ mappingKeys) : t.Inv where
  listed := by
    intro other member listed
    rw [board] at listed
    rw [written]
    by_cases same : (ofLex member).2 = commit.symbol
    · rw [same, Function.update_self]
      rfl
    · rw [Function.update_of_ne same]
      -- a member that is not the pipeline's own was there before, in spite of the trim
      rcases Store.mem_commit (SortedSet.mem_toFinset.mpr listed) with ⟨-, equal⟩ | ⟨-, before⟩
      · exact absurd equal same
      · exact inv.listed other member (SortedSet.mem_toFinset.mp before)
  hashed := by
    intro symbol since
    rw [data]
    by_cases same : symbol = commit.symbol
    · subst same
      rw [Function.update_self]
      exact Dict.get_update_of_mem _ commit.mapping.unique named
    · rw [written, Function.update_of_ne same] at since
      rw [Function.update_of_ne same]
      exact inv.hashed symbol since
  known := by
    intro symbol key member
    rw [data] at member
    by_cases same : symbol = commit.symbol
    · subst same
      rw [Function.update_self] at member
      rcases Dict.mem_update member with old | new
      · exact known key old
      · exact complete ▸ new
    · rw [Function.update_of_ne same] at member
      exact inv.known symbol key member

theorem Inv.step (inv : s.Inv) (one : s.step float zone visit = some t) : t.Inv := by
  have checked := inv.checks zone visit.arrival
  have keys := s.timed.keys_analyzeData float zone visit.arrival
  unfold Dated.step at one
  cases sent : s.timed.commitOf float zone visit.arrival with
  | none =>
      simp only [sent, Option.some.injEq] at one keys
      subst one
      exact checked.congr rfl keys
  | some commit =>
      simp only [sent, Option.some.injEq] at one keys
      subst one
      obtain ⟨complete, named⟩ := Timed.commitOf_eq_some sent
      refine checked.commit visit.executeTime ?_ ?_ rfl complete named (known_hgetall inv visit.executeTime commit.symbol)
      · simp only [Timed.setHash, keys]
      · simp only [Timed.setHash, keys, Store.commit, Function.update_idem]

theorem inv_of_run {visits : List Visit} (ran : exec (step float zone) visits fresh = some s) : s.Inv :=
  exec_invariant Inv (fun inv one => inv.step one) Inv.fresh ran

/-! What is published. -/

variable {text : Value → String} {int : String → Option ℚ}

theorem isEntryOf_entry {symbolData : Dict String String} (known : ∀ key ∈ symbolData, key ∈ mappingKeys) (board : Board)
    (rank : Nat) {symbol : String} (named : symbolData.get "symbol" = some (text (.str symbol))) (score : ℚ) :
    IsEntryOf text float int (toLex (score, symbol), rank)
      (entry float int (rank + 1) symbol score board.scoreField symbolData) := by
  constructor
  · rw [get_rank_entry known]
    simp
  · exact get_entry_of_get named

theorem fetchLeaderboards_eq {boards : Boards} {now limit : ℤ} (board : boards.board = s.timed.keys.board)
    (data : boards.data = fun symbol => (s.hgetall now symbol).mapValues text) :
    s.fetchLeaderboards text float int (fun _ => now) limit = boards.fetchLeaderboards float int ⟨[], [], []⟩ limit := by
  funext other
  cases other <;>
    simp only [fetchLeaderboards, Boards.fetchLeaderboards, hydrateLeaderboard, Boards.commits, List.foldl_nil, Boards.top,
      board, data] <;> rfl

theorem forall₂_rankedFrom {data : String → Dict String String} {live : String → Bool}
    (known : ∀ symbol, ∀ key ∈ data symbol, key ∈ mappingKeys)
    (named : ∀ symbol, live symbol = true → (data symbol).get "symbol" = some (text (.str symbol)))
    (gone : ∀ symbol, live symbol = false → data symbol = ∅) (board : Board) (i : Nat) (list : List (ℚ ×ₗ String)) :
    List.Forall₂ (IsEntryOf text float int) ((list.zipIdx i).filter fun member => live (ofLex member.1).2)
      (rankedFrom float int data board.scoreField i list) := by
  induction list generalizing i with
  | nil => exact .nil
  | cons member rest ih =>
      rw [List.zipIdx_cons, rankedFrom]
      cases here : live (ofLex member).2 with
      | false =>
          rw [List.filter_cons_of_neg (by simp [here]), gone _ here, if_pos (by rfl)]
          exact ih (i + 1)
      | true =>
          have found := named _ here
          have nonempty : (data (ofLex member).2).keys ≠ [] := by
            intro empty
            have present := Dict.mem_iff_get.mpr ⟨_, found⟩
            exact Dict.keys_eq_nil_iff.mp empty _ present
          rw [List.filter_cons_of_pos (by simpa using here), if_neg nonempty]
          exact .cons (isEntryOf_entry (known _) board i found _) (ih (i + 1))

theorem texts_hgetall (inv : s.Inv) (text : Value → String) (now : ℤ) (symbol : String) :
    (∀ key ∈ (s.hgetall now symbol).mapValues text, key ∈ mappingKeys) ∧
      (s.isLive now symbol = true → ((s.hgetall now symbol).mapValues text).get "symbol" = some (text (.str symbol))) ∧
      (s.isLive now symbol = false → (s.hgetall now symbol).mapValues text = ∅) := by
  refine ⟨?_, ?_, ?_⟩
  · intro key member
    have present : key ∈ s.hgetall now symbol := by
      change key ∈ ((s.hgetall now symbol).mapValues text).keys at member
      rwa [Dict.keys_mapValues] at member
    exact known_hgetall inv now symbol key present
  · intro live
    have written : (s.written symbol).isSome = true := by
      obtain ⟨since, found, -⟩ := (Option.any_eq_true _ _).mp live
      rw [found]
      rfl
    rw [hgetall, if_pos live, Dict.get_mapValues, inv.hashed symbol written]
    rfl
  · intro expired
    rw [hgetall, if_neg (by rw [expired]; exact Bool.false_ne_true)]
    rfl

theorem forall₂_fetchLeaderboards (inv : s.Inv) (now : Board → ℤ) (board : Board) :
    List.Forall₂ (IsEntryOf text float int)
      ((s.topMembers board).zipIdx.filter fun member => s.isLive (now board) (ofLex member.1).2)
      (s.fetchLeaderboards text float int now 500 board) := by
  have top : (s.timed.keys.board board).zrevrange 0 (500 - 1) = s.topMembers board :=
    Redis.range_zero (by decide) _
  rw [fetchLeaderboards, top]
  apply forall₂_rankedFrom
  · exact fun symbol => (texts_hgetall inv text (now board) symbol).1
  · exact fun symbol => (texts_hgetall inv text (now board) symbol).2.1
  · exact fun symbol => (texts_hgetall inv text (now board) symbol).2.2

theorem complete_iff_live {top : List (ℚ ×ₗ String)} {live : String → Bool} {data : List (Dict String Value)}
    (entries : List.Forall₂ (IsEntryOf text float int) (top.zipIdx.filter fun member => live (ofLex member.1).2) data) :
    Complete text float int top data ↔ ∀ member ∈ top, live (ofLex member).2 = true := by
  constructor
  · intro complete member listed
    -- a filter that keeps the length keeps everything
    have count : (top.zipIdx.filter fun member => live (ofLex member.1).2).length = top.zipIdx.length :=
      entries.length_eq.trans complete.length_eq.symm
    rw [List.length_filter_eq_length_iff] at count
    obtain ⟨i, here⟩ := List.mem_iff_getElem?.mp listed
    exact count (member, i) (List.mem_zipIdx_iff_getElem?.mpr here)
  · intro all
    have kept : (top.zipIdx.filter fun member => live (ofLex member.1).2) = top.zipIdx := by
      apply List.filter_eq_self.mpr
      rintro ⟨member, i⟩ here
      exact all member (List.fst_mem_of_mem_zipIdx here)
    rw [kept] at entries
    exact entries

/-- Every leaderboard that is published lists, of the top 500 members of its
board, those whose last pipeline was executed less than an hour ago, in order
and with their positions on the board as ranks. It is complete just when there
is no other member. -/
theorem published_live (zone : ZoneInfo) (text : Value → String) (float int : String → Option ℚ) (visits : List Visit)
    {s : Dated} (ran : exec (step float zone) visits fresh = some s) (now : Board → ℤ) (board : Board)
    {result : MarketDataAnalyzerResult} (published : result ∈ s.buildLeaderboardResults text float int now 500)
    (own : result.cacheKey = board.cacheKey) :
    (∀ member ∈ s.topMembers board, ∃ since, s.written (ofLex member).2 = some since) ∧
      List.Forall₂ (IsEntryOf text float int)
        ((s.topMembers board).zipIdx.filter fun member => s.isLive (now board) (ofLex member.1).2) result.data ∧
      (Complete text float int (s.topMembers board) result.data ↔
        ∀ member ∈ s.topMembers board, s.isLive (now board) (ofLex member).2 = true) := by
  have inv := inv_of_run ran
  obtain ⟨other, -, made⟩ := List.mem_filterMap.mp published
  split at made
  case isTrue => cases made
  case isFalse =>
    cases made
    cases Board.cacheKey_injective own
    have entries : List.Forall₂ (IsEntryOf text float int)
        ((s.topMembers board).zipIdx.filter fun member => s.isLive (now board) (ofLex member.1).2)
        (s.fetchLeaderboards text float int now 500 board) := forall₂_fetchLeaderboards inv now board
    refine ⟨?_, entries, complete_iff_live entries⟩
    intro member listed
    exact Option.isSome_iff_exists.mp
      (inv.listed board member (List.mem_reverse.mp (List.mem_of_mem_take listed)))

/-! Two symbols an hour apart, on one morning. -/

def visitAt (time : ℤ) (symbol : String) (volume : ℚ) : Visit where
  arrival := Timed.arriveAt time
    { data :=
        { entries := [("symbol", .str symbol), ("accumulated_volume", .num volume)]
          unique := show ["symbol", "accumulated_volume"].Nodup by decide }
      symbolText := fun value read _ => ⟨symbol, (Option.some.inj read).symm⟩ }
  executeTime := time

def hourApart : List Visit := [visitAt 1700061200 "SPY" 200, visitAt 1700064800 "AAPL" 100]

def textOf : Value → String
  | .str text => text
  | _ => "0"

theorem ranks_hourApart : ∃ s result,
    exec (step (fun _ => none) americaNewYork) hourApart fresh = some s ∧ (s.topMembers .topVolume).length = 2 ∧
      result ∈ s.buildLeaderboardResults textOf (fun _ => none) (fun _ => none) (fun _ => 1700064800) 500 ∧
      result.cacheKey = Board.topVolume.cacheKey ∧
      result.data.map (fun entry => (entry.get "rank").bind Value.number?) = [some 2] := by
  have runs : (exec (step (fun _ => none) americaNewYork) hourApart fresh).any (fun s =>
      decide ((s.topMembers .topVolume).length = 2) &&
        (s.buildLeaderboardResults textOf (fun _ => none) (fun _ => none) (fun _ => 1700064800) 500).any fun result =>
          decide (result.cacheKey = Board.topVolume.cacheKey) &&
            decide (result.data.map (fun entry => (entry.get "rank").bind Value.number?) = [some 2])) = true := by
    decide +kernel
  obtain ⟨s, ran, holds⟩ := (Option.any_eq_true _ _).mp runs
  simp only [Bool.and_eq_true, decide_eq_true_eq, List.any_eq_true] at holds
  obtain ⟨two, result, published, own, ranks⟩ := holds
  exact ⟨s, result, ran, two, published, own, ranks⟩

theorem published_live_hourApart : ∃ s result,
    exec (step (fun _ => none) americaNewYork) hourApart fresh = some s ∧
      result ∈ s.buildLeaderboardResults textOf (fun _ => none) (fun _ => none) (fun _ => 1700064800) 500 ∧
      (Complete textOf (fun _ => none) (fun _ => none) (s.topMembers .topVolume) result.data ↔
        ∀ member ∈ s.topMembers .topVolume, s.isLive 1700064800 (ofLex member).2 = true) := by
  obtain ⟨s, result, ran, -, published, own, -⟩ := ranks_hourApart
  exact ⟨s, result, ran, published, (published_live _ _ _ _ _ ran _ _ published own).2.2⟩

theorem not_complete_hourApart :
    (∀ visit ∈ hourApart, visit.arrival.day americaNewYork = 1700038800) ∧ ∃ s result,
      exec (step (fun _ => none) americaNewYork) hourApart fresh = some s ∧
        result ∈ s.buildLeaderboardResults textOf (fun _ => none) (fun _ => none) (fun _ => 1700064800) 500 ∧
        result.cacheKey = Board.topVolume.cacheKey ∧
        ¬Complete textOf (fun _ => none) (fun _ => none) (s.topMembers .topVolume) result.data := by
  refine ⟨by decide +kernel, ?_⟩
  obtain ⟨s, result, ran, two, published, own, ranks⟩ := ranks_hourApart
  refine ⟨s, result, ran, published, own, fun complete => ?_⟩
  have one : result.data.length = 1 := by simpa using congrArg List.length ranks
  have same := complete.length_eq
  rw [List.length_zipIdx, two, one] at same
  exact absurd same (by decide)

end Dated

end KuhlHausMdp.LeaderboardAnalyzer
