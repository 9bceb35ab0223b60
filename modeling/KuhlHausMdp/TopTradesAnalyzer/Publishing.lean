import Mathlib
import KuhlHausMdp.Library.Expiry
import KuhlHausMdp.Library.Lease
import KuhlHausMdp.Library.StableSort
import KuhlHausMdp.Library.Transition
import KuhlHausMdp.TopTradesAnalyzer.ActiveSymbols

/-! `TopTradesAnalyzer.analyze_data` in any number of instances, one stretch
between two awaits at a time: the store of the trade, the throttle, and the
lists read one after the other while other trades come in. -/

set_option autoImplicit false

namespace KuhlHausMdp.TopTradesAnalyzer

open Transition

namespace Publishing

def PUBLISH_INTERVAL : Nat := 5

/-- The lifetime of the throttle key, in milliseconds. -/
def period : Nat := PUBLISH_INTERVAL * 1000

/-- When a call was elected to publish, and how many trades had been stored. -/
structure Election where
  instant : Nat
  since : Nat
  deriving DecidableEq

/-- Where a call of `analyze_data` is suspended, or what it has returned; `done`
when that is None. `till` is how many trades had been stored by then. -/
inductive Stage where
  | storing (trade : Trade)
  | checking
  | scanning (election : Election)
  | fetching (election : Election) (past todo : List String) (stats : List (String × SymbolStats))
  | returned (election : Election) (symbols : List String) (stats : List (String × SymbolStats)) (till ended : Nat)
      (results : List RollingList.MarketDataAnalyzerResult)
  | done

def Stage.election : Stage → Option Election
  | .scanning election => some election
  | .fetching election _ _ _ => some election
  | .returned election _ _ _ _ _ => some election
  | _ => none

/-- `trades` are those stored so far and when, in the order of their transactions,
`throttle` is when its key expires. -/
structure Cluster where
  trades : List (Int × Trade)
  now : Nat
  throttle : Option Nat
  calls : List Stage
  checks : List Nat
  grants : List Nat

inductive Action where
  | pass (milliseconds : Nat)
  | analyze (trade : Trade)
  | store (call : Nat)
  | check (call : Nat)
  | scan (call : Nat) (symbols : List String)
  | fetch (call : Nat)
  | finish (call : Nat) (timestamp : String)
  /-- An exception, which `analyze_data` catches, or the end of its process. -/
  | fail (call : Nat)

variable {Text : Type*} (json : Json Text) (average : ℚ → Nat → ℚ)

def storeCommands (trade : Trade) : List (Redis.Command Text) :=
  match trade.symbol with
  | none => []
  | some symbol =>
      if symbol = "" then []
      else [.lpush (tradesRecent symbol) (json.dumps (tradeData trade)),
        .ltrim (tradesRecent symbol) 0 (MAX_TRADES_PER_SYMBOL - 1), .expire (tradesRecent symbol) TRADE_TTL]

def aged (trades : List (Int × Trade)) : Redis.Aging Text :=
  trades.foldl (fun aging stored => aging.exec stored.1 (storeCommands json stored.2)) .empty

namespace Cluster

def fresh : Cluster := ⟨[], 0, none, [], [], []⟩

def db (s : Cluster) : Redis.Database Text := (aged json s.trades).left s.now

def setCall (s : Cluster) (call : Nat) (stage : Stage) : Cluster := { s with calls := s.calls.set call stage }

def checkPublishThrottle (s : Cluster) (call : Nat) : Cluster :=
  let lease := Lease.acquire period s.throttle s.now
  { s with
    throttle := lease.2
    checks := s.now :: s.checks
    grants := if lease.1 then s.now :: s.grants else s.grants
    calls := s.calls.set call (if lease.1 then .scanning ⟨s.now, s.trades.length⟩ else .done) }

def step (s : Cluster) : Action → Option Cluster
  | .pass milliseconds => some { s with now := s.now + milliseconds }
  | .analyze trade => some { s with calls := s.calls ++ [.storing trade] }
  | .store i =>
      match s.calls[i]? with
      | some (.storing trade) => some ({ s with trades := s.trades ++ [((s.now : Int), trade)] }.setCall i .checking)
      | _ => none
  | .check i =>
      match s.calls[i]? with
      | some .checking => some (s.checkPublishThrottle i)
      | _ => none
  | .scan i symbols =>
      match s.calls[i]? with
      | some (.scanning election) => some (s.setCall i (.fetching election [] symbols []))
      | _ => none
  | .fetch i =>
      match s.calls[i]? with
      | some (.fetching election past (symbol :: todo) stats) =>
          match calculateSymbolStats json average (s.db json) symbol with
          | some own => some (s.setCall i (.fetching election (past ++ [symbol]) todo
              (stats ++ (own.map (Prod.mk symbol)).toList)))
          | none => some (s.setCall i .done)
      | _ => none
  | .finish i timestamp =>
      match s.calls[i]? with
      | some (.fetching election past [] stats) =>
          some (s.setCall i (.returned election past stats s.trades.length s.now (tradeResults timestamp stats)))
      | _ => none
  | .fail i => if i < s.calls.length then some (s.setCall i .done) else none

end Cluster

/-- How long the list of a symbol outlives its last trade, in milliseconds. -/
def lifetime : Int := 1000 * TRADE_TTL

/-- The last trades of a symbol that have not run out at an instant, newest first. -/
def liveWindow (symbol : String) (trades : List (Int × Trade)) (now : Int) : List Trade :=
  (Redis.unbroken lifetime now (trades.filter (·.2.Of symbol)).reverse).take MAX_TRADES_PER_SYMBOL

variable {trades : List (Int × Trade)} {now : Int} {symbol : String}

theorem liveWindow_of_not {trade : Trade} (other : ¬trade.Of symbol) (instant now : Int) :
    liveWindow symbol (trades ++ [(instant, trade)]) now = liveWindow symbol trades now := by
  simp [liveWindow, List.filter_append, other]

theorem liveWindow_of {trade : Trade} (own : trade.Of symbol) (instant now : Int) :
    liveWindow symbol (trades ++ [(instant, trade)]) now =
      if now ≤ instant + lifetime then (trade :: liveWindow symbol trades instant).take MAX_TRADES_PER_SYMBOL
      else [] := by
  have newest : ((trades ++ [(instant, trade)]).filter (·.2.Of symbol)).reverse =
      (instant, trade) :: (trades.filter (·.2.Of symbol)).reverse := by
    simp [List.filter_append, own]
  rw [liveWindow, newest, Redis.unbroken]
  split
  · simp only [liveWindow, MAX_TRADES_PER_SYMBOL, List.take_succ_cons, List.take_take]
    rfl
  · rfl

theorem liveWindow_ne_nil (ordered : trades.Pairwise fun first second => first.1 ≤ second.1) {stored : Int × Trade}
    (member : stored ∈ trades) (own : stored.2.Of symbol) (lives : now ≤ stored.1 + lifetime) :
    liveWindow symbol trades now ≠ [] := by
  have among : stored ∈ (trades.filter (·.2.Of symbol)).reverse := by simpa using ⟨member, own⟩
  have falling : ((trades.filter (·.2.Of symbol)).reverse).Pairwise fun later earlier => earlier.1 ≤ later.1 :=
    List.pairwise_reverse.mpr (ordered.sublist List.filter_sublist)
  cases list : (trades.filter (·.2.Of symbol)).reverse with
  | nil => rw [list] at among; cases among
  | cons newest older =>
      rw [list] at among falling
      have latest : stored.1 ≤ newest.1 := by
        rcases List.mem_cons.mp among with rfl | old
        · exact Int.le_refl _
        · exact (List.pairwise_cons.mp falling).1 stored old
      have alive : now ≤ newest.1 + lifetime := lives.trans (Int.add_le_add_right latest lifetime)
      rw [liveWindow, list, Redis.unbroken, if_pos alive, MAX_TRADES_PER_SYMBOL, List.take_succ_cons]
      exact List.cons_ne_nil _ _

/-! What Redis holds of the trades. -/

variable {json}

/-- At any instant after the stores there is the live window under each symbol. -/
def Holding (json : Json Text) (aging : Redis.Aging Text) (trades : List (Int × Trade)) : Prop :=
  ∀ (symbol : String) (now : Int), (∀ stored ∈ trades, stored.1 ≤ now) →
    (aging.left now).Lists (tradesRecent symbol) ∧
      (aging.left now).listAt (tradesRecent symbol) =
        (liveWindow symbol trades now).map fun trade => json.dumps (tradeData trade)

theorem apart_storeCommands {trade : Trade} (other : ¬trade.Of symbol) :
    ∀ command ∈ storeCommands json trade, command.key ≠ some (tradesRecent symbol) := by
  unfold storeCommands
  split
  · exact nofun
  · rename_i own named
    split
    · exact nofun
    · rename_i proper
      have apart : some (tradesRecent own) ≠ some (tradesRecent symbol) := by
        intro same
        cases tradesRecent_inj.mp (Option.some.inj same)
        exact other ⟨proper, named⟩
      intro command member
      simp only [List.mem_cons, List.not_mem_nil, or_false] at member
      rcases member with rfl | rfl | rfl <;> exact apart

theorem ttl_transaction {db : Redis.Database Text} {key : String} (lists : db.Lists key) (item : Text) :
    (((db.run (.lpush key item)).run (.ltrim key 0 (MAX_TRADES_PER_SYMBOL - 1))).run (.expire key TRADE_TTL)).ttl key =
      some TRADE_TTL := by
  have items := (listAt_transaction lists item).2
  generalize (db.run (.lpush key item)).run (.ltrim key 0 (MAX_TRADES_PER_SYMBOL - 1)) = before at items ⊢
  have stored : before.entries key ≠ none := by
    intro absent
    have same := congrFun (before.entries_expire key (show 0 < TRADE_TTL by decide)) key
    rw [Redis.Database.listAt_congr same, Redis.Database.listAt, absent] at items
    cases items
  obtain ⟨entry, found⟩ := Option.ne_none_iff_exists'.mp stored
  have positive : 0 < TRADE_TTL := by decide
  simp [Redis.Database.run, found, positive]

theorem Holding.append {aging : Redis.Aging Text} (holding : Holding json aging trades) {instant : Int}
    (past : ∀ stored ∈ trades, stored.1 ≤ instant) (trade : Trade) :
    Holding json (aging.exec instant (storeCommands json trade)) (trades ++ [(instant, trade)]) := by
  intro symbol now later
  have after : instant ≤ now := later (instant, trade) (by simp)
  by_cases own : trade.Of symbol
  · obtain ⟨lists, items⟩ := holding symbol instant past
    have sent : storeCommands json trade = [.lpush (tradesRecent symbol) (json.dumps (tradeData trade)),
        .ltrim (tradesRecent symbol) 0 (MAX_TRADES_PER_SYMBOL - 1), .expire (tradesRecent symbol) TRADE_TTL] := by
      simp [storeCommands, own.2, own.1]
    obtain ⟨kept, newest⟩ := listAt_transaction lists (json.dumps (tradeData trade))
    have ttl : (aging.exec instant (storeCommands json trade)).db.ttl (tradesRecent symbol) = some TRADE_TTL := by
      rw [sent]
      exact ttl_transaction lists _
    have since : (aging.exec instant (storeCommands json trade)).since (tradesRecent symbol) = instant := by
      simp [Redis.Aging.exec, sent, Redis.Command.renews]
    have ends : (aging.exec instant (storeCommands json trade)).Over now (tradesRecent symbol) ↔
        ¬now ≤ instant + lifetime := by
      simp [Redis.Aging.Over, ttl, since, lifetime]
    rw [liveWindow_of own]
    by_cases lives : now ≤ instant + lifetime
    · have same := (Redis.Aging.left_of_not_over fun passed => ends.mp passed lives).1
      rw [if_pos lives, List.map_take, List.map_cons, ← items, Redis.Database.listAt_congr same]
      refine ⟨fun value => ?_, ?_⟩
      · rw [same, Redis.Aging.exec, sent]
        exact kept value
      · rw [Redis.Aging.exec, sent]
        exact newest
    · have gone := (Redis.Aging.left_of_over (ends.mpr lives)).1
      rw [if_neg lives]
      refine ⟨fun value stored => ?_, by simp [Redis.Database.listAt, gone]⟩
      rw [gone] at stored
      cases stored
  · obtain ⟨lists, items⟩ := holding symbol now fun stored member => later stored (List.mem_append_left _ member)
    have same : ((aging.exec instant (storeCommands json trade)).left now).entries (tradesRecent symbol) =
        (aging.left now).entries (tradesRecent symbol) := Redis.Aging.left_exec_of_ne (apart_storeCommands own) after
    rw [liveWindow_of_not own, Redis.Database.listAt_congr same]
    exact ⟨fun value => same ▸ lists value, items⟩

theorem holding_aged (json : Json Text) (ordered : trades.Pairwise fun first second => first.1 ≤ second.1) :
    Holding json (aged json trades) trades := by
  induction trades using List.reverseRecOn with
  | nil => exact fun symbol now _ => ⟨fun _ => nofun, rfl⟩
  | append_singleton trades stored ih =>
      obtain ⟨before, -, all⟩ := List.pairwise_append.mp ordered
      have step : aged json (trades ++ [stored]) = (aged json trades).exec stored.1 (storeCommands json stored.2) := by
        simp [aged]
      rw [step]
      exact (ih before).append (fun old member => all old member stored (by simp)) stored.2

/-! What a call returns. -/

/-- The statistics of a symbol at an instant between the election and another, when
`k` of the trades had been stored. -/
structure Exact (average : ℚ → Nat → ℚ) (trades : List (Int × Trade)) (election : Election) (till : Nat) (ended : Int)
    (entry : String × SymbolStats) (k : Nat) (instant : Int) : Prop where
  count : election.since ≤ k ∧ k ≤ till
  between : election.instant ≤ instant ∧ instant ≤ ended
  before : ∀ stored ∈ trades.take k, stored.1 ≤ instant
  after : ∀ stored ∈ trades.drop k, instant ≤ stored.1
  same : aggregate average (liveWindow entry.1 (trades.take k) instant) = some entry.2

structure Collected (average : ℚ → Nat → ℚ) (trades : List (Int × Trade)) (election : Election) (till : Nat)
    (ended : Int) (symbols : List String) (stats : List (String × SymbolStats)) : Prop where
  since : election.since ≤ till
  instant : election.instant ≤ ended
  exact : ∀ entry ∈ stats, entry.1 ∈ symbols ∧
    ∃ k instant, Exact average trades election till ended entry k instant
  complete : ∀ symbol ∈ symbols, ∀ stored ∈ trades.take election.since, stored.2.Of symbol →
    ended ≤ stored.1 + lifetime → ∃ own, (symbol, own) ∈ stats

variable {average} {election : Election} {till : Nat} {ended : Int} {symbols : List String}
  {stats : List (String × SymbolStats)}

theorem Collected.later {count : Nat} {instant : Int} {more : List (Int × Trade)}
    (collected : Collected average trades election till ended symbols stats) (within : till ≤ trades.length)
    (le : till ≤ count) (passed : ended ≤ instant) (new : ∀ stored ∈ more, ended ≤ stored.1) :
    Collected average (trades ++ more) election count instant symbols stats where
  since := collected.since.trans le
  instant := collected.instant.trans passed
  exact entry member := by
    obtain ⟨inside, k, moment, exact⟩ := collected.exact entry member
    have few : k ≤ trades.length := exact.count.2.trans within
    have taken : (trades ++ more).take k = trades.take k := List.take_append_of_le_length few
    refine ⟨inside, k, moment, ⟨exact.count.1, exact.count.2.trans le⟩,
      ⟨exact.between.1, exact.between.2.trans passed⟩, ?_, fun stored member => ?_, ?_⟩
    · rw [taken]
      exact exact.before
    · rw [List.drop_append_of_le_length few] at member
      rcases List.mem_append.mp member with old | late
      · exact exact.after stored old
      · exact exact.between.2.trans (new stored late)
    · rw [taken]
      exact exact.same
  complete symbol member stored first own lives := by
    rw [List.take_append_of_le_length (collected.since.trans within)] at first
    exact collected.complete symbol member stored first own (passed.trans lives)

theorem Collected.fetch {symbol : String}
    (collected : Collected average trades election trades.length now symbols stats)
    (ordered : trades.Pairwise fun first second => first.1 ≤ second.1) (past : ∀ stored ∈ trades, stored.1 ≤ now) :
    Collected average trades election trades.length now (symbols ++ [symbol])
      (stats ++ ((aggregate average (liveWindow symbol trades now)).map (Prod.mk symbol)).toList) where
  since := collected.since
  instant := collected.instant
  exact entry member := by
    rcases List.mem_append.mp member with old | new
    · obtain ⟨inside, exact⟩ := collected.exact entry old
      exact ⟨List.mem_append_left _ inside, exact⟩
    · obtain ⟨own, same, rfl⟩ := Option.map_eq_some_iff.mp (Option.mem_toList.mp new)
      refine ⟨by simp, trades.length, now, ⟨collected.since, Nat.le_refl _⟩, ⟨collected.instant, Int.le_refl _⟩, ?_,
        ?_, ?_⟩
      · rwa [List.take_length]
      · rw [List.drop_length]
        exact nofun
      · rw [List.take_length]
        exact same
  complete other member stored first its lives := by
    rcases List.mem_append.mp member with old | new
    · obtain ⟨own, found⟩ := collected.complete other old stored first its lives
      exact ⟨own, List.mem_append_left _ found⟩
    · obtain rfl := List.mem_singleton.mp new
      have filled := liveWindow_ne_nil ordered (List.mem_of_mem_take first) its lives
      obtain ⟨latest, older, same⟩ := List.exists_cons_of_ne_nil filled
      obtain ⟨own, found⟩ : ∃ own, aggregate average (liveWindow other trades now) = some own := ⟨_, by rw [same]; rfl⟩
      exact ⟨own, List.mem_append_right _ (by rw [found]; exact List.mem_singleton.mpr rfl)⟩

/-! What holds in every state. -/

def Stage.Good (average : ℚ → Nat → ℚ) (trades : List (Int × Trade)) (now : Nat) : Stage → Prop
  | .scanning election => election.since ≤ trades.length ∧ election.instant ≤ now
  | .fetching election past _ stats => Collected average trades election trades.length now past stats
  | .returned election symbols stats till ended results => till ≤ trades.length ∧ ended ≤ now ∧
      Collected average trades election till ended symbols stats ∧ ∃ timestamp, results = tradeResults timestamp stats
  | _ => True

theorem Stage.Good.later {stage : Stage} {now later : Nat} {more : List (Int × Trade)}
    (good : stage.Good average trades now) (passed : now ≤ later) (new : ∀ stored ∈ more, (now : Int) ≤ stored.1) :
    stage.Good average (trades ++ more) later := by
  have longer : trades.length ≤ (trades ++ more).length := by simp
  cases stage with
  | scanning election => exact ⟨good.1.trans longer, good.2.trans passed⟩
  | fetching election past todo stats => exact Collected.later good (Nat.le_refl _) longer (Int.ofNat_le.mpr passed) new
  | returned election symbols stats till ended results =>
      obtain ⟨within, before, collected, same⟩ := good
      refine ⟨within.trans longer, before.trans passed, collected.later within (Nat.le_refl _) (Int.le_refl _) ?_, same⟩
      exact fun stored member => (Int.ofNat_le.mpr before).trans (new stored member)
  | storing | checking | done => trivial

namespace Cluster

/-- Every call is good for what it shows, the calls elected were granted it, and no
two at one instant. -/
structure Sound (average : ℚ → Nat → ℚ) (s : Cluster) : Prop where
  history : Lease.History period s.throttle s.now s.checks s.grants
  past : ∀ stored ∈ s.trades, stored.1 ≤ s.now
  ordered : s.trades.Pairwise fun first second => first.1 ≤ second.1
  good : ∀ stage ∈ s.calls, stage.Good average s.trades s.now
  granted : ∀ (i : Nat) (stage : Stage), s.calls[i]? = some stage → ∀ e ∈ stage.election, e.instant ∈ s.grants
  single : ∀ (i j : Nat) (first second : Stage), i ≠ j → s.calls[i]? = some first → s.calls[j]? = some second →
    ∀ a ∈ first.election, ∀ b ∈ second.election, a.instant ≠ b.instant

variable {s : Cluster}

theorem sound_fresh : Sound average fresh where
  history := Lease.history_nil period 0
  past := nofun
  ordered := .nil
  good := nofun
  granted i stage at_ := by cases List.getElem?_nil.symm.trans at_
  single i j first second _ at_ := by cases List.getElem?_nil.symm.trans at_

theorem Sound.setCall {i : Nat} {before after : Stage} (sound : s.Sound average) (at_ : s.calls[i]? = some before)
    (good : after.Good average s.trades s.now) (same : ∀ e ∈ after.election, e ∈ before.election) :
    (s.setCall i after).Sound average := by
  have elected (j : Nat) (stage : Stage) (found : (s.calls.set i after)[j]? = some stage) :
      ∃ old, s.calls[j]? = some old ∧ ∀ e ∈ stage.election, e ∈ old.election := by
    by_cases here : i = j
    · subst here
      rw [List.getElem?_set_self (List.getElem?_eq_some_iff.mp at_).1] at found
      cases found
      exact ⟨before, at_, same⟩
    · rw [List.getElem?_set_ne here] at found
      exact ⟨stage, found, fun _ => id⟩
  refine ⟨sound.history, sound.past, sound.ordered, fun stage member => ?_, fun j stage found e given => ?_, ?_⟩
  · rcases List.mem_or_eq_of_mem_set member with old | rfl
    · exact sound.good stage old
    · exact good
  · obtain ⟨old, found, same⟩ := elected j stage found
    exact sound.granted j old found e (same e given)
  · intro j k first second apart found other a first_elected b second_elected
    obtain ⟨_, found, one⟩ := elected j first found
    obtain ⟨_, other, two⟩ := elected k second other
    exact sound.single j k _ _ apart found other a (one a first_elected) b (two b second_elected)

theorem Sound.refused {i : Nat} (sound : s.Sound average) (at_ : s.calls[i]? = some .checking)
    (held : ¬Lease.Free s.throttle s.now) : (s.checkPublishThrottle i).Sound average := by
  have after : (s.setCall i .done).Sound average := sound.setCall at_ trivial fun _ given => by cases given
  have same : s.checkPublishThrottle i = { s.setCall i .done with checks := s.now :: s.checks } := by
    simp [checkPublishThrottle, Lease.acquire, held, Cluster.setCall]
  rw [same]
  exact ⟨sound.history.refused held, after.past, after.ordered, after.good, after.granted, after.single⟩

theorem Sound.elected {i : Nat} (sound : s.Sound average) (at_ : s.calls[i]? = some .checking)
    (free : Lease.Free s.throttle s.now) : (s.checkPublishThrottle i).Sound average := by
  have history := sound.history.granted (Nat.le_add_right s.now period) free
  have same : s.checkPublishThrottle i = { s.setCall i (.scanning ⟨s.now, s.trades.length⟩) with
      throttle := some (s.now + period), checks := s.now :: s.checks, grants := s.now :: s.grants } := by
    simp [checkPublishThrottle, Lease.acquire, free, Cluster.setCall]
  have fresh : s.now ∉ s.grants := by
    intro member
    have apart := (List.pairwise_cons.mp history.apart).1 s.now member
    omega
  have within := (List.getElem?_eq_some_iff.mp at_).1
  -- the call itself, or another that was elected before
  have cases_ {j : Nat} {stage : Stage} {e : Election}
      (found : (s.calls.set i (.scanning ⟨s.now, s.trades.length⟩))[j]? = some stage) (given : e ∈ stage.election) :
      i = j ∧ e.instant = s.now ∨ i ≠ j ∧ s.calls[j]? = some stage ∧ e.instant ∈ s.grants := by
    by_cases here : i = j
    · subst here
      rw [List.getElem?_set_self within] at found
      cases found
      cases given
      exact .inl ⟨rfl, rfl⟩
    · rw [List.getElem?_set_ne here] at found
      exact .inr ⟨here, found, sound.granted j stage found e given⟩
  rw [same]
  refine ⟨history, sound.past, sound.ordered, fun stage member => ?_, fun j stage found e given => ?_, ?_⟩
  · rcases List.mem_or_eq_of_mem_set member with old | rfl
    · exact sound.good stage old
    · exact ⟨Nat.le_refl _, Nat.le_refl _⟩
  · rcases cases_ found given with ⟨-, now⟩ | ⟨-, -, old⟩
    · rw [now]
      exact List.mem_cons_self
    · exact List.mem_cons_of_mem _ old
  · intro j k first second apart found other a one b two equal
    rcases cases_ found one with ⟨here, now⟩ | ⟨_, before, old⟩
    · rcases cases_ other two with ⟨there, _⟩ | ⟨_, _, old⟩
      · exact apart (here.symm.trans there)
      · exact fresh (now ▸ equal ▸ old)
    · rcases cases_ other two with ⟨_, now⟩ | ⟨_, after, _⟩
      · exact fresh (now ▸ equal ▸ old)
      · exact sound.single j k first second apart before after a one b two equal

theorem Sound.step {action : Action} {next : Cluster} (sound : s.Sound average)
    (one : s.step json average action = some next) : next.Sound average := by
  cases action with
  | pass milliseconds =>
      cases one
      have on : s.now ≤ s.now + milliseconds := Nat.le_add_right _ _
      refine ⟨sound.history.later on, fun stored member => ?_, sound.ordered, fun stage member => ?_, sound.granted,
        sound.single⟩
      · exact (sound.past stored member).trans (Int.ofNat_le.mpr on)
      · have good : stage.Good average (s.trades ++ []) (s.now + milliseconds) :=
          (sound.good stage member).later on nofun
        rwa [List.append_nil] at good
  | analyze trade =>
      cases one
      have old {j : Nat} {stage : Stage} {e : Election} (found : (s.calls ++ [.storing trade])[j]? = some stage)
          (given : e ∈ stage.election) : s.calls[j]? = some stage := by
        rw [List.getElem?_append] at found
        split_ifs at found
        · exact found
        · rw [List.getElem?_singleton] at found
          split_ifs at found
          cases found
          cases given
      refine ⟨sound.history, sound.past, sound.ordered, fun stage member => ?_, fun j stage found e given => ?_, ?_⟩
      · rcases List.mem_append.mp member with before | new
        · exact sound.good stage before
        · rw [List.mem_singleton.mp new]
          trivial
      · exact sound.granted j stage (old found given) e given
      · intro j k first second apart found other a one b two
        exact sound.single j k first second apart (old found one) (old other two) a one b two
  | store i =>
      simp only [Cluster.step] at one
      split at one
      · rename_i trade at_
        cases one
        have newest : ∀ stored ∈ [((s.now : Int), trade)], stored.1 = s.now := by simp
        have longer : Sound average { s with trades := s.trades ++ [((s.now : Int), trade)] } := by
          refine ⟨sound.history, fun stored member => ?_, ?_, fun stage member => ?_, sound.granted, sound.single⟩
          · rcases List.mem_append.mp member with old | new
            · exact sound.past stored old
            · exact (newest stored new).le
          · refine List.pairwise_append.mpr ⟨sound.ordered, List.pairwise_singleton _ _, fun old member new last => ?_⟩
            exact (sound.past old member).trans (newest new last).ge
          · exact (sound.good stage member).later (Nat.le_refl _) fun stored new => (newest stored new).ge
        exact longer.setCall at_ trivial (fun _ given => by cases given)
      · cases one
  | check i =>
      simp only [Cluster.step] at one
      split at one
      · rename_i at_
        cases one
        by_cases free : Lease.Free s.throttle s.now
        · exact sound.elected at_ free
        · exact sound.refused at_ free
      · cases one
  | scan i symbols =>
      simp only [Cluster.step] at one
      split at one
      · rename_i election at_
        cases one
        refine sound.setCall at_ ?_ fun _ => id
        have good := sound.good _ (List.mem_of_getElem? at_)
        exact ⟨good.1, Int.ofNat_le.mpr good.2, nofun, nofun⟩
      · cases one
  | fetch i =>
      simp only [Cluster.step] at one
      split at one
      · rename_i election past symbol todo stats at_
        have own : calculateSymbolStats json average (s.db json) symbol =
            some (aggregate average (liveWindow symbol s.trades s.now)) :=
          calculateSymbolStats_of_listAt json average (holding_aged json sound.ordered symbol s.now sound.past).2
        rw [own] at one
        cases one
        refine sound.setCall at_ ?_ fun _ => id
        exact Collected.fetch (sound.good _ (List.mem_of_getElem? at_)) sound.ordered sound.past
      · cases one
  | finish i timestamp =>
      simp only [Cluster.step] at one
      split at one
      · rename_i election past stats at_
        cases one
        refine sound.setCall at_ ?_ fun _ => id
        exact ⟨Nat.le_refl _, Nat.le_refl _, sound.good _ (List.mem_of_getElem? at_), timestamp, rfl⟩
      · cases one
  | fail i =>
      simp only [Cluster.step] at one
      split_ifs at one with within
      cases one
      exact sound.setCall (List.getElem?_eq_getElem within) trivial (fun _ given => by cases given)

/-- Of any number of instances, whose calls may fail anywhere, no two publish on
elections within five seconds of each other, every check of the throttle falls
into the five seconds of a grant, and no schedule of checks that keeps the
interval has more of them than are granted. What a call returns has symbols of
its scan, each with the statistics of its last trades that had not run out at
some instant between the election and the return; none is left out that had a
trade at the election whose five minutes were not over at the return. -/
theorem published_of_run {actions : List Action} (run : exec (step json average) actions fresh = some s) :
    (∀ (i j : Nat) (first second : Stage), i ≠ j → s.calls[i]? = some first → s.calls[j]? = some second →
      ∀ a ∈ first.election, ∀ b ∈ second.election, a.instant + period < b.instant ∨ b.instant + period < a.instant) ∧
    (∀ check ∈ s.checks, ∃ grant ∈ s.grants, grant ≤ check ∧ check ≤ grant + period) ∧
    (∀ schedule, schedule.Sublist s.checks → Lease.Apart period schedule → schedule.length ≤ s.grants.length) ∧
    ∀ (i : Nat) (election : Election) (symbols : List String) (stats : List (String × SymbolStats)) (till ended : Nat)
      (results : List RollingList.MarketDataAnalyzerResult),
      s.calls[i]? = some (.returned election symbols stats till ended results) →
      (∃ timestamp, results = tradeResults timestamp stats) ∧ till ≤ s.trades.length ∧ ended ≤ s.now ∧
        (∀ entry ∈ stats, entry.1 ∈ symbols ∧
          ∃ k instant, Exact average s.trades election till ended entry k instant) ∧
        ∀ symbol ∈ symbols, ∀ stored ∈ s.trades.take election.since, stored.2.Of symbol →
          ended ≤ stored.1 + lifetime → ∃ own, (symbol, own) ∈ stats := by
  have sound : s.Sound average := exec_invariant (Sound average) (fun sound one => sound.step one) sound_fresh run
  refine ⟨fun i j first second apart found other a one b two => ?_, sound.history.covered,
    fun schedule within apart => ?_, fun i election symbols stats till ended results found => ?_⟩
  · have ordered : s.grants.Pairwise fun later earlier => later + period < earlier ∨ earlier + period < later :=
      sound.history.apart.imp .inr
    have : Std.Symm fun later earlier : Nat => later + period < earlier ∨ earlier + period < later :=
      ⟨fun _ _ => Or.symm⟩
    exact ordered.forall (sound.granted i first found a one) (sound.granted j second other b two)
      (sound.single i j first second apart found other a one b two)
  · exact (sound.history.most schedule within apart).1
  · obtain ⟨within, before, collected, same⟩ := sound.good _ (List.mem_of_getElem? found)
    exact ⟨same, within, before, collected.exact, collected.complete⟩

def trade : Trade :=
  ⟨some "AAPL", none, none, none, none, .num 200, some 100, none, some 1, .none, .none, .none⟩

/-- Two instances within five seconds; another trade comes in before the list is read. -/
def elections : List Action := [
  .analyze trade, .store 0, .check 0, .analyze trade, .store 1, .pass 10, .check 1, .scan 0 ["AAPL"], .fetch 0,
  .finish 0 "now"]

theorem published_elections : ∃ s, exec (step Json.document fun _ _ => 0) elections fresh = some s ∧
    s.grants = [0] ∧ s.checks = [10, 0] ∧
      (∀ check ∈ s.checks, ∃ grant ∈ s.grants, grant ≤ check ∧ check ≤ grant + period) ∧
      ∀ schedule, schedule.Sublist s.checks → Lease.Apart period schedule → schedule.length ≤ s.grants.length := by
  obtain ⟨s, run, grants, checks⟩ : ∃ s, exec (step Json.document fun _ _ => 0) elections fresh = some s ∧
      s.grants = [0] ∧ s.checks = [10, 0] := ⟨_, rfl, rfl, rfl⟩
  obtain ⟨-, covered, most, -⟩ := published_of_run run
  exact ⟨s, run, grants, checks, covered, most⟩

end Cluster

/-! The order of the results. -/

def symbolResult (timestamp : String) (entry : String × SymbolStats) : RollingList.MarketDataAnalyzerResult where
  data := .dict (("timestamp", .str timestamp) :: ("symbol", .str entry.1) :: entry.2.toDict)
  cacheKey := some (TOP_TRADES_WIDGET_CACHE_KEY entry.1)
  cacheTtl := some TOP_TRADES_WIDGET_CACHE_TTL
  publishKey := none
  cacheListMax := none

def allSymbolsResult (timestamp : String) (stats : List (String × SymbolStats)) :
    RollingList.MarketDataAnalyzerResult where
  data := .dict [
    ("timestamp", .str timestamp),
    ("symbols", .dict (stats.map fun entry => (entry.1, .dict entry.2.toDict))),
    ("symbol_count", .num stats.length)]
  cacheKey := some TOP_TRADES_ALL_SYMBOLS_CACHE_KEY
  cacheTtl := some TOP_TRADES_ALL_SYMBOLS_CACHE_TTL
  publishKey := none
  cacheListMax := none

def ranking (stats : List (String × SymbolStats)) : List (String × SymbolStats) :=
  stats.mergeSort fun first second => second.2.totalVolume ≤ first.2.totalVolume

def top (stats : List (String × SymbolStats)) : List (String × SymbolStats) := (ranking stats).take 100

theorem tradeResults_eq (timestamp : String) (filled : stats ≠ []) :
    tradeResults timestamp stats = allSymbolsResult timestamp stats :: (top stats).map (symbolResult timestamp) := by
  rw [tradeResults, if_neg filled]
  rfl

theorem cacheKey_all_symbols : TOP_TRADES_ALL_SYMBOLS_CACHE_KEY = TOP_TRADES_WIDGET_CACHE_KEY "all_symbols" := by decide

theorem cacheKey_inj {first second : String} :
    TOP_TRADES_WIDGET_CACHE_KEY first = TOP_TRADES_WIDGET_CACHE_KEY second ↔ first = second := by
  simp [TOP_TRADES_WIDGET_CACHE_KEY]

theorem falling_trans (a b c : String × SymbolStats) :
    decide (b.2.totalVolume ≤ a.2.totalVolume) → decide (c.2.totalVolume ≤ b.2.totalVolume) →
      decide (c.2.totalVolume ≤ a.2.totalVolume) := by
  simp only [decide_eq_true_eq]
  exact fun first second => second.trans first

theorem falling_total (a b : String × SymbolStats) :
    (decide (b.2.totalVolume ≤ a.2.totalVolume) || decide (a.2.totalVolume ≤ b.2.totalVolume)) = true := by
  simp only [Bool.or_eq_true, decide_eq_true_eq]
  exact le_total _ _

theorem falling_ranking (stats : List (String × SymbolStats)) :
    (ranking stats).Pairwise fun a b => b.2.totalVolume ≤ a.2.totalVolume :=
  (List.pairwise_mergeSort falling_trans falling_total stats).imp of_decide_eq_true

theorem ranking_perm (stats : List (String × SymbolStats)) : (ranking stats).Perm stats := List.mergeSort_perm stats _

/-- Among symbols of one volume the ranking keeps the order of the scan. -/
theorem sublist_of_ranking {a b : String × SymbolStats} (pair : [a, b].Sublist (ranking stats))
    (equal : b.2.totalVolume = a.2.totalVolume) : [a, b].Sublist stats := by
  have kept := pair.filter fun entry => decide (entry.2.totalVolume = a.2.totalVolume)
  have still : (stats.filter fun entry => decide (entry.2.totalVolume = a.2.totalVolume)).Pairwise fun first second =>
      decide (second.2.totalVolume ≤ first.2.totalVolume) = true := by
    apply List.pairwise_of_forall_mem_list
    intro first one second other
    have same := (List.mem_filter.mp one).2
    have also := (List.mem_filter.mp other).2
    simp only [decide_eq_true_eq] at same also ⊢
    omega
  rw [ranking, List.filter_mergeSort falling_trans falling_total, List.mergeSort_of_pairwise still] at kept
  simp only [List.filter_cons, equal, decide_true, if_true, List.filter_nil] at kept
  exact kept.trans List.filter_sublist

/-- After the result of all symbols come those of the hundred with the most volume,
most first: who is left out has no more than any of them, and came later in
the scan if he has as much. The keys are distinct unless one of these symbols is
called all_symbols. -/
theorem tradeResults_ranked (timestamp : String) (filled : stats ≠ []) (distinct : (stats.map Prod.fst).Nodup) :
    tradeResults timestamp stats = allSymbolsResult timestamp stats :: (top stats).map (symbolResult timestamp) ∧
      (top stats).length = min 100 stats.length ∧ (top stats).Subperm stats ∧
      (top stats).Pairwise (fun a b => b.2.totalVolume ≤ a.2.totalVolume) ∧
      (∀ a ∈ top stats, ∀ b ∈ stats, b ∉ top stats →
        b.2.totalVolume ≤ a.2.totalVolume ∧ (b.2.totalVolume = a.2.totalVolume → [a, b].Sublist stats)) ∧
      (((tradeResults timestamp stats).map (·.cacheKey)).Nodup ↔ "all_symbols" ∉ (top stats).map Prod.fst) := by
  have same := tradeResults_eq timestamp filled
  have split : top stats ++ (ranking stats).drop 100 = ranking stats := List.take_append_drop 100 _
  have part : (top stats).Subperm stats := (List.take_sublist _ _).subperm.trans (ranking_perm stats).subperm
  refine ⟨same, ?_, part, ?_, fun a listed b member left => ?_, ?_⟩
  · rw [top, List.length_take, (ranking_perm stats).length_eq]
  · exact (falling_ranking stats).sublist (List.take_sublist _ _)
  · have ranked : b ∈ ranking stats := (ranking_perm stats).symm.subset member
    rw [← split] at ranked
    have later := (List.mem_append.mp ranked).resolve_left left
    have pair : [a, b].Sublist (ranking stats) := by
      rw [← split]
      exact (List.singleton_sublist.mpr listed).append (List.singleton_sublist.mpr later)
    have ordered := (falling_ranking stats).sublist pair
    exact ⟨(List.pairwise_cons.mp ordered).1 b List.mem_cons_self, sublist_of_ranking pair⟩
  · have once : ((top stats).map Prod.fst).Nodup := by
      obtain ⟨front, shuffled, sublist⟩ := part
      exact (shuffled.map Prod.fst).nodup_iff.mp (distinct.sublist (sublist.map Prod.fst))
    have keys : (tradeResults timestamp stats).map (·.cacheKey) =
        (("all_symbols" :: (top stats).map Prod.fst).map TOP_TRADES_WIDGET_CACHE_KEY).map some := by
      rw [same, List.map_cons, allSymbolsResult, cacheKey_all_symbols]
      simp [symbolResult]
    have injective : Function.Injective TOP_TRADES_WIDGET_CACHE_KEY := fun _ _ => cacheKey_inj.mp
    rw [keys, List.nodup_map_iff (Option.some_injective _), List.nodup_map_iff injective, List.nodup_cons]
    exact and_iff_left once

def ofVolume (volume : Int) : SymbolStats := ⟨volume, 1, 0, volume, 0, .num 1, .num 1, .str "XNAS"⟩

/-- The result of the symbol overwrites that of all symbols. -/
theorem tradeResults_ranked_all_symbols :
    ¬((tradeResults "now" [("AAPL", ofVolume 5), ("all_symbols", ofVolume 7)]).map (·.cacheKey)).Nodup := by
  have distinct : ([("AAPL", ofVolume 5), ("all_symbols", ofVolume 7)].map Prod.fst).Nodup := by decide
  obtain ⟨-, long, part, -, -, keys⟩ := tradeResults_ranked "now" (by simp) distinct
  have whole := part.perm_of_length_le (by rw [long]; decide)
  rw [keys, not_not, (whole.map Prod.fst).mem_iff]
  decide

end Publishing

end KuhlHausMdp.TopTradesAnalyzer
