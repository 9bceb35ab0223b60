import Mathlib
import KuhlHausMdp.Library.CutShort
import KuhlHausMdp.Library.Expiry
import KuhlHausMdp.LeaderboardAnalyzer.Publish
import KuhlHausMdp.MarketDataScanner.Pubsub
import KuhlHausMdp.RollingList
import KuhlHausMdp.TopStocksAnalyzer.Representation

/-! A `MarketDataScanner` that runs a `TopStocksAnalyzer`, and the Redis that its
results go to and from which a restarted one reads its state. The scanner handles
one message at a time; it can be stopped, or fail, at any await. -/

set_option autoImplicit false

namespace KuhlHausMdp

open LeaderboardAnalyzer (Board)
open Redis Transition TopStocksAnalyzer

/-- The results of `analyze_data`: the dictionaries of the item itself, and the
three boards. The first is written after the queries. -/
def TopStocksCacheItem.results (self : TopStocksCacheItem) (factory : Bool) :
    Option (List RollingList.MarketDataAnalyzerResult) × TopStocksCacheItem :=
  let board (board : Board) (rows : List Value) : RollingList.MarketDataAnalyzerResult :=
    ⟨.list rows, some board.cacheKey, some (board.cacheTtl : Int), some board.cacheKey, none⟩
  match self.topVolume factory 500 with
  | (none, self) => (none, self)
  | (some volume, self) =>
      match self.topGainers factory 500 with
      | (none, self) => (none, self)
      | (some gainers, self) =>
          match self.topGappers factory 500 with
          | (none, self) => (none, self)
          | (some gappers, self) => (some [
              ⟨self.toDict, some WidgetDataCacheKeys.TOP_STOCKS_SCANNER, some WidgetDataCacheTTL.TOP_STOCKS_SCANNER,
                none, none⟩,
              board .topVolume volume, board .topGainers gainers, board .topGappers gappers], self)

namespace TopStocksFeed

inductive Stage (Text : Type*) where
  | down
  | fetching
  | analyzing (call : TopStocks.Call)
  | caching (sending : List (Command Text)) (later : List RollingList.MarketDataAnalyzerResult)

/-- Redis has a clock of its own: `instant`, in milliseconds. -/
inductive Action where
  | start (now : ℤ) (instant : Int)
  | message (now : ℤ) (data : Value) (currentTime : ℤ)
  | resume (answer : Answer) (currentTime : ℤ)
  -- Redis executes a command of the pipeline, and answers when it has executed them all
  | execute (instant : Int)
  | executed
  -- the pipeline raises, or the task ends; Redis may still execute some of the commands
  | refused (instant : Int) (more : Nat)
  | stop (instant : Int) (more : Nat)

/-- The zone and the JSON library; no JSON text counts as false. -/
structure Setting (Text : Type*) where
  zone : ZoneInfo
  json : Json Text
  falsy : Text → Bool
  truthy : ∀ value, falsy (json.dumps value) = false

end TopStocksFeed

structure TopStocksFeed (Text : Type*) where
  scanner : MarketDataScanner
  analyzer : TopStocksAnalyzer
  factory : Bool
  lastUpdateTime : ℤ
  stage : TopStocksFeed.Stage Text
  log : List (Int × Command Text)

namespace TopStocksFeed

variable {Text : Type*}

def fresh : TopStocksFeed Text where
  scanner := MarketDataScanner.started.stopped
  analyzer := ⟨.fresh, false⟩
  factory := true
  lastUpdateTime := 0
  stage := .down
  log := []

def item (s : TopStocksFeed Text) : TopStocksCacheItem := s.analyzer.cacheItem

def executed (s : TopStocksFeed Text) : List (Command Text) := s.log.map Prod.snd

def withItem (s : TopStocksFeed Text) (item : TopStocksCacheItem) : TopStocksFeed Text :=
  { s with analyzer := { s.analyzer with cacheItem := item } }

/-- `_process_message` catches and counts what `analyze_data` and `cache_result` raise. -/
def failed (s : TopStocksFeed Text) : TopStocksFeed Text :=
  { s with scanner := { s.scanner with errors := s.scanner.errors + 1 }, stage := .fetching }

variable (setting : Setting Text)

def cacheNext (s : TopStocksFeed Text) : List RollingList.MarketDataAnalyzerResult → TopStocksFeed Text
  | [] => { s with stage := .fetching }
  | result :: later =>
      match RollingList.cacheResult setting.json .marketDataScanner result with
      | some commands => { s with stage := .caching commands later }
      | none => s.failed

/-- `_process_message` from the return of `analyze_data` on. -/
def analyzed (s : TopStocksFeed Text) (results : Option (List RollingList.MarketDataAnalyzerResult)) :
    TopStocksFeed Text :=
  let scanner := { s.scanner with processed := s.scanner.processed + 1 }
  match results with
  | some (first :: rest) => { s with scanner := scanner }.cacheNext setting (first :: rest)
  | _ => { s with scanner := { scanner with emptyResults := scanner.emptyResults + 1 }, stage := .fetching }

def publish (s : TopStocksFeed Text) (currentTime : ℤ) : TopStocksFeed Text :=
  if currentTime ≤ s.lastUpdateTime then s.analyzed setting none
  else
    let s := { s with lastUpdateTime := currentTime }
    match s.item.results s.factory with
    | (none, item) => (s.withItem item).failed
    | (some results, item) => (s.withItem item).analyzed setting (some results)

def advance (s : TopStocksFeed Text) (symbol : String) (event : EquityAgg) (turn : Turn) (currentTime : ℤ) :
    TopStocksFeed Text :=
  match turn with
  | .awaits stage => { s with stage := .analyzing ⟨symbol, event, stage⟩ }
  | .raised => s.failed
  | .returned => s.publish setting currentTime
  | .found lookUps =>
      match update s.item symbol event lookUps with
      | none => s.failed
      | some item => (s.withItem item).publish setting currentTime

def enter (s : TopStocksFeed Text) (now : ℤ) : TopStocksFeed Text :=
  { s with
    analyzer := s.analyzer.checkBoundaries setting.zone now
    factory := s.factory || s.analyzer.resets setting.zone now }

def analyzeData (s : TopStocksFeed Text) (now : ℤ) (data : Value) (currentTime : ℤ) : TopStocksFeed Text :=
  let s := s.enter setting now
  match data with
  | .dict _ =>
      match accepted data with
      | none => s.analyzed setting none
      | some (symbol, event) => s.advance setting symbol event (handleEquityAgg s.item symbol) currentTime
  -- there is no `get`
  | _ => s.failed

/-- `rehydrate` of a new analyzer; none when it raises. -/
def rehydrate (s : TopStocksFeed Text) (now : ℤ) (instant : Int) : Option (TopStocksFeed Text) :=
  let clear := { s with analyzer := ⟨.fresh, false⟩, factory := true, lastUpdateTime := 0 }
  if tradingHours setting.zone now then
    match (Database.at s.log instant).entries WidgetDataCacheKeys.TOP_STOCKS_SCANNER with
    | none => some clear
    | some (.list _) => none
    | some (.string text) =>
        if setting.falsy text then some clear
        else
          match setting.json.loads text with
          | none => none
          | some data =>
              if data.truthy then
                (TopStocksCacheItem.ofKeywords data).map fun item => { clear.withItem item with factory := false }
              else some clear
  else some clear

def start (s : TopStocksFeed Text) (now : ℤ) (instant : Int) : Option (TopStocksFeed Text) :=
  (s.rehydrate setting now instant).map fun s =>
    { s with scanner := { s.scanner with running := true, mdcConnected := true }, stage := .fetching }

def step (s : TopStocksFeed Text) : Action → Option (TopStocksFeed Text)
  | .start now instant =>
      match s.stage with
      | .down => s.start setting now instant
      | _ => none
  | .message now data currentTime =>
      match s.stage with
      -- the length is asked for first
      | .fetching =>
          some (if MarketDataScanner.sized data then s.analyzeData setting now data currentTime else s.failed)
      | _ => none
  | .resume answer currentTime =>
      match s.stage, answer with
      | .analyzing _, .cancelled => none
      | .analyzing call, answer => (TopStocksAnalyzer.resume call.stage answer).map fun turn =>
          s.advance setting call.symbol call.event turn currentTime
      | _, _ => none
  | .execute instant =>
      match s.stage with
      | .caching (command :: sending) later =>
          some { s with log := s.log ++ [(instant, command)], stage := .caching sending later }
      | _ => none
  | .executed =>
      match s.stage with
      | .caching [] later =>
          some ({ s with
            scanner := { s.scanner with publishedResults := s.scanner.publishedResults + 1 } }.cacheNext setting later)
      | _ => none
  | .refused instant more =>
      match s.stage with
      | .caching sending _ => some { s with log := s.log ++ (sending.take more).map (Prod.mk instant) }.failed
      | _ => none
  | .stop instant more =>
      match s.stage with
      | .down => none
      | .caching sending _ => some { s with
          log := s.log ++ (sending.take more).map (Prod.mk instant), scanner := s.scanner.stopped, stage := .down }
      | _ => some { s with scanner := s.scanner.stopped, stage := .down }

def Action.Numeric : Action → Prop
  | .message _ data _ => ∀ symbol event, accepted data = some (symbol, event) → TopStocksAnalyzer.Numeric event
  | _ => True

/-- What is still to be sent to Redis, and how many results are still to be counted. -/
def Stage.rest (json : Json Text) : Stage Text → List (Command Text)
  | .caching sending later =>
      sending ++ later.flatMap fun result => (RollingList.cacheResult json .marketDataScanner result).getD []
  | _ => []

def Stage.pending : Stage Text → Nat
  | .caching _ later => later.length + 1
  | _ => 0

def Uncut (s : TopStocksFeed Text) : Action → Prop
  | .refused _ _ | .stop _ _ => s.stage.pending = 0
  | _ => True

instance (s : TopStocksFeed Text) : ∀ action : Action, Decidable (s.Uncut action)
  | .refused _ _ | .stop _ _ => inferInstanceAs (Decidable (s.stage.pending = 0))
  | .start _ _ | .message _ _ _ | .resume _ _ | .execute _ | .executed => isTrue trivial

structure Snapshot where
  item : TopStocksCacheItem
  rows : Board → List Value
  sound : item.Sound
  ranked : ∀ board, item.Ranked board 500 (rows board)

namespace Snapshot

variable (json : Json Text) (snapshot : Snapshot)

def copy : Text := json.dumps snapshot.item.toDict

def shown (board : Board) : Text := json.dumps (.list (snapshot.rows board))

def results : List RollingList.MarketDataAnalyzerResult :=
  ⟨snapshot.item.toDict, some WidgetDataCacheKeys.TOP_STOCKS_SCANNER, some WidgetDataCacheTTL.TOP_STOCKS_SCANNER,
    none, none⟩ :: [Board.topVolume, .topGainers, .topGappers].map fun board =>
      ⟨.list (snapshot.rows board), some board.cacheKey, some (board.cacheTtl : Int), some board.cacheKey, none⟩

def commands : List (Command Text) :=
  snapshot.results.flatMap fun result => (RollingList.cacheResult json .marketDataScanner result).getD []

theorem commands_eq : snapshot.commands json =
    .setex WidgetDataCacheKeys.TOP_STOCKS_SCANNER WidgetDataCacheTTL.TOP_STOCKS_SCANNER (snapshot.copy json) ::
      [Board.topVolume, .topGainers, .topGappers].flatMap fun board =>
        [.setex board.cacheKey board.cacheTtl (snapshot.shown json board),
          .publish board.cacheKey (snapshot.shown json board)] := rfl

theorem stored_copy :
    (snapshot.commands json).filterMap (Command.storedTo WidgetDataCacheKeys.TOP_STOCKS_SCANNER) =
      [snapshot.copy json] := by
  rw [commands_eq]
  rfl

theorem stored_shown (board : Board) :
    (snapshot.commands json).filterMap (Command.storedTo board.cacheKey) = [snapshot.shown json board] := by
  rw [commands_eq]
  cases board <;> rfl

theorem published_shown (board : Board) :
    (snapshot.commands json).filterMap (Command.publishedOn board.cacheKey) = [snapshot.shown json board] := by
  rw [commands_eq]
  cases board <;> rfl

theorem holds (key : String) :
    ∀ command ∈ snapshot.commands json, command.Holds key WidgetDataCacheTTL.TOP_STOCKS_SCANNER := by
  intro command member
  rw [commands_eq] at member
  simp only [List.flatMap_cons, List.flatMap_nil, List.cons_append, List.nil_append, List.mem_cons, List.not_mem_nil,
    or_false] at member
  rcases member with rfl | rfl | rfl | rfl | rfl | rfl | rfl <;> first | exact fun _ => rfl | trivial

end Snapshot

variable {setting : Setting Text} {s next : TopStocksFeed Text}

theorem results_of_sound {item : TopStocksCacheItem} (sound : item.Sound) (factory : Bool) :
    ∃ snapshot : Snapshot, snapshot.item = item ∧ item.results factory = (some snapshot.results, item) := by
  have query (board : Board) : ∃ rows, item.top board factory 500 = (some rows, item) ∧ item.Ranked board 500 rows := by
    obtain ⟨rows, count, same, ranked, limit⟩ := sound.top_eq board factory 500
    cases limit (by decide)
    exact ⟨rows, same, ranked⟩
  choose rows same ranked using query
  refine ⟨⟨item, rows, sound, ranked⟩, rfl, ?_⟩
  simp only [TopStocksCacheItem.results, TopStocksCacheItem.topVolume, TopStocksCacheItem.topGainers,
    TopStocksCacheItem.topGappers, same]
  rfl

/-! One step. -/

/-- The event under way has numeric fields, the results under way can be sent. -/
def Stage.Sound (json : Json Text) : Stage Text → Prop
  | .analyzing call => TopStocksAnalyzer.Numeric call.event
  | .caching _ later => ∀ result ∈ later, (RollingList.cacheResult json .marketDataScanner result).isSome
  | _ => True

/-- What becomes of a message: nothing to cache yet or at all, or a snapshot. -/
inductive Turned (setting : Setting Text) (s next : TopStocksFeed Text) : Prop where
  | quiet (log : next.log = s.log) (pending : next.stage.pending = 0) (rest : next.stage.rest setting.json = [])
      (counts : next.scanner.processed + s.scanner.emptyResults = s.scanner.processed + next.scanner.emptyResults)
      (published : next.scanner.publishedResults = s.scanner.publishedResults)
  | publishes (snapshot : Snapshot) (item : next.item = snapshot.item) (log : next.log = s.log)
      (pending : next.stage.pending = 4) (rest : next.stage.rest setting.json = snapshot.commands setting.json)
      (counts : next.scanner.processed + s.scanner.emptyResults = s.scanner.processed + next.scanner.emptyResults + 1)
      (published : next.scanner.publishedResults = s.scanner.publishedResults)

structure Kept (setting : Setting Text) (s : TopStocksFeed Text) : Prop where
  item : s.item.Sound
  stage : s.stage.Sound setting.json

theorem Turned.same {t : TopStocksFeed Text} (turned : Turned setting t next) (log : t.log = s.log)
    (scanner : t.scanner = s.scanner) : Turned setting s next := by
  cases turned with
  | quiet logs pending rest counts published =>
      rw [scanner] at counts published
      exact .quiet (logs.trans log) pending rest counts published
  | publishes snapshot item logs pending rest counts published =>
      rw [scanner] at counts published
      exact .publishes snapshot item (logs.trans log) pending rest counts published

theorem turned_failed (s : TopStocksFeed Text) : Turned setting s s.failed := .quiet rfl rfl rfl rfl rfl

theorem turned_analyzed (s : TopStocksFeed Text) : Turned setting s (s.analyzed setting none) := by
  refine .quiet rfl rfl rfl ?_ rfl
  change s.scanner.processed + 1 + s.scanner.emptyResults = s.scanner.processed + (s.scanner.emptyResults + 1)
  omega

theorem turned_publish (setting : Setting Text) (sound : s.item.Sound) (currentTime : ℤ) :
    Turned setting s (s.publish setting currentTime) ∧ Kept setting (s.publish setting currentTime) := by
  unfold publish
  split
  · exact ⟨turned_analyzed s, sound, trivial⟩
  · obtain ⟨snapshot, own, same⟩ := results_of_sound sound s.factory
    have unchanged : ({ s with lastUpdateTime := currentTime } : TopStocksFeed Text).item = s.item := rfl
    simp only [unchanged, same]
    refine ⟨.publishes snapshot own.symm rfl rfl rfl ?_ rfl, sound, fun result member => ?_⟩
    · change s.scanner.processed + 1 + s.scanner.emptyResults = s.scanner.processed + s.scanner.emptyResults + 1
      omega
    · obtain ⟨board, -, rfl⟩ := List.mem_map.mp member
      cases board <;> rfl

theorem turned_advance (setting : Setting Text) (sound : s.item.Sound) (symbol : String) {event : EquityAgg}
    (numeric : TopStocksAnalyzer.Numeric event) (turn : Turn) (currentTime : ℤ) :
    Turned setting s (s.advance setting symbol event turn currentTime) ∧
      Kept setting (s.advance setting symbol event turn currentTime) := by
  cases turn with
  | awaits stage => exact ⟨.quiet rfl rfl rfl rfl rfl, sound, numeric⟩
  | raised => exact ⟨turned_failed s, sound, trivial⟩
  | returned => exact turned_publish setting sound currentTime
  | found lookUps =>
      cases updated : update s.item symbol event lookUps with
      | none =>
          simp only [advance, updated]
          exact ⟨turned_failed s, sound, trivial⟩
      | some item =>
          simp only [advance, updated]
          have written : (s.withItem item).item.Sound := sound_update sound numeric updated
          obtain ⟨turned, kept⟩ := turned_publish setting written currentTime
          exact ⟨turned.same rfl rfl, kept⟩

theorem turned_analyzeData (setting : Setting Text) (sound : s.item.Sound) (now : ℤ) {data : Value} (currentTime : ℤ)
    (numeric : ∀ symbol event, accepted data = some (symbol, event) → TopStocksAnalyzer.Numeric event) :
    Turned setting s (s.analyzeData setting now data currentTime) ∧
      Kept setting (s.analyzeData setting now data currentTime) := by
  have entered : (s.enter setting now).item.Sound := sound_checkBoundaries sound setting.zone now
  unfold analyzeData
  simp only
  split
  · split
    · exact ⟨(turned_analyzed (s.enter setting now)).same rfl rfl, entered, trivial⟩
    · rename_i symbol event passed
      obtain ⟨turned, kept⟩ := turned_advance setting entered symbol (numeric symbol event passed) _ currentTime
      exact ⟨turned.same rfl rfl, kept⟩
  · exact ⟨(turned_failed (s.enter setting now)).same rfl rfl, entered, trivial⟩

/-- What a step may do: send a part of what is still to be sent, or take a snapshot. -/
inductive Stepped (setting : Setting Text) (s : TopStocksFeed Text) (action : Action) (next : TopStocksFeed Text) :
    Prop where
  | goes (done : List (Command Text)) (log : next.executed = s.executed ++ done) (within : done <+: s.stage.rest setting.json)
      (left : next.stage.rest setting.json = [] ∨
        s.stage.rest setting.json = done ++ next.stage.rest setting.json)
      (uncut : s.Uncut action → s.stage.rest setting.json = done ++ next.stage.rest setting.json ∧
        next.scanner.publishedResults + next.stage.pending = s.scanner.publishedResults + s.stage.pending)
      (counts : next.scanner.processed + s.scanner.emptyResults = s.scanner.processed + next.scanner.emptyResults)
  | publishes (snapshot : Snapshot) (item : next.item = snapshot.item) (log : next.log = s.log)
      (before : s.stage.rest setting.json = [] ∧ s.stage.pending = 0) (pending : next.stage.pending = 4)
      (rest : next.stage.rest setting.json = snapshot.commands setting.json)
      (counts : next.scanner.processed + s.scanner.emptyResults = s.scanner.processed + next.scanner.emptyResults + 1)
      (published : next.scanner.publishedResults = s.scanner.publishedResults)

theorem rest_of_idle (idle : s.stage.pending = 0) : s.stage.rest setting.json = [] := by
  cases at_ : s.stage with
  | down | fetching | analyzing => rfl
  | caching sending later =>
      rw [at_] at idle
      exact absurd idle (Nat.succ_ne_zero _)

theorem Turned.stepped {action : Action} (turned : Turned setting s next) (pending : s.stage.pending = 0) :
    Stepped setting s action next := by
  have rest : s.stage.rest setting.json = [] := rest_of_idle pending
  cases turned with
  | quiet log idle none counts published =>
      refine .goes [] (by rw [executed, log, executed, List.append_nil]) (List.nil_prefix) (.inl none) (fun _ => ⟨?_, ?_⟩) counts
      · rw [rest, none, List.append_nil]
      · rw [published, idle, pending]
  | publishes snapshot item log later commands counts published =>
      exact .publishes snapshot item log ⟨rest, pending⟩ later commands counts published

theorem executed_cut (s : TopStocksFeed Text) (instant : Int) (done : List (Command Text)) :
    (s.log ++ done.map (Prod.mk instant)).map Prod.snd = s.executed ++ done := by
  rw [List.map_append, List.map_map, executed]
  exact congrArg _ (List.map_id done)

theorem stepped_cut {action : Action} {sending done : List (Command Text)}
    {later : List RollingList.MarketDataAnalyzerResult} (at_ : s.stage = .caching sending later)
    (part : done <+: sending) (log : next.executed = s.executed ++ done) (rest : next.stage.rest setting.json = [])
    (cuts : ¬s.Uncut action)
    (counts : next.scanner.processed + s.scanner.emptyResults = s.scanner.processed + next.scanner.emptyResults) :
    Stepped setting s action next := by
  refine .goes done log ?_ (.inl rest) (fun uncut => absurd uncut cuts) counts
  rw [at_]
  exact part.trans (List.prefix_append _ _)

theorem stepped_of_step {action : Action} (kept : Kept setting s) (numeric : action.Numeric)
    (running : ∀ now instant, action ≠ .start now instant) (one : s.step setting action = some next) :
    Stepped setting s action next ∧ Kept setting next := by
  obtain ⟨item, stage⟩ := kept
  cases action with
  | start now instant => exact absurd rfl (running now instant)
  | message now data currentTime =>
      simp only [step] at one
      split at one
      · rename_i at_
        have before : s.stage.pending = 0 := by rw [at_]; rfl
        cases one
        split
        · obtain ⟨turned, later⟩ := turned_analyzeData setting item now currentTime numeric
          exact ⟨turned.stepped before, later⟩
        · exact ⟨(turned_failed s).stepped before, item, trivial⟩
      · cases one
  | resume answer currentTime =>
      simp only [step] at one
      split at one
      · cases one
      · rename_i call at_ _
        rw [at_] at stage
        have before : s.stage.pending = 0 := by rw [at_]; rfl
        obtain ⟨turn, -, rfl⟩ := Option.map_eq_some_iff.mp one
        obtain ⟨turned, later⟩ := turned_advance setting item call.symbol stage turn currentTime
        exact ⟨turned.stepped before, later⟩
      · cases one
  | execute instant =>
      simp only [step] at one
      split at one
      · rename_i command sending later at_
        cases one
        rw [at_] at stage
        refine ⟨.goes [command] List.map_append ?_ (.inr ?_) (fun _ => ⟨?_, ?_⟩) rfl, item, stage⟩
        · rw [at_]
          exact ⟨_, rfl⟩
        · rw [at_]
          rfl
        · rw [at_]
          rfl
        · rw [at_]
          rfl
      · cases one
  | executed =>
      simp only [step] at one
      split at one
      · rename_i later at_
        cases one
        rw [at_] at stage
        cases later with
        | nil =>
            refine ⟨.goes [] (List.append_nil _).symm List.nil_prefix (.inl rfl) (fun _ => ⟨?_, ?_⟩) rfl, item, trivial⟩
            · rw [at_]
              rfl
            · rw [at_]
              rfl
        | cons result later =>
            obtain ⟨here, others⟩ := List.forall_mem_cons.mp stage
            obtain ⟨commands, sends⟩ := Option.isSome_iff_exists.mp here
            have more : s.stage.rest setting.json =
                commands ++ later.flatMap fun result =>
                  (RollingList.cacheResult setting.json .marketDataScanner result).getD [] := by
              rw [at_, Stage.rest, List.flatMap_cons, sends]
              rfl
            simp only [cacheNext, sends]
            refine ⟨.goes [] (List.append_nil _).symm List.nil_prefix (.inr more) (fun _ => ⟨more, ?_⟩) rfl, item,
              others⟩
            rw [at_]
            change s.scanner.publishedResults + 1 + (later.length + 1) = _
            simp only [Stage.pending, List.length_cons]
            omega
      · cases one
  | refused instant more =>
      simp only [step] at one
      split at one
      · rename_i sending later at_
        cases one
        refine ⟨stepped_cut at_ (List.take_prefix more sending) (executed_cut s instant _) rfl ?_ rfl, item, trivial⟩
        change s.stage.pending ≠ 0
        rw [at_]
        exact Nat.succ_ne_zero _
      · cases one
  | stop instant more =>
      simp only [step] at one
      split at one
      · cases one
      · rename_i sending later at_
        cases one
        refine ⟨stepped_cut at_ (List.take_prefix more sending) (executed_cut s instant _) rfl ?_ rfl, item, trivial⟩
        change s.stage.pending ≠ 0
        rw [at_]
        exact Nat.succ_ne_zero _
      · rename_i up idle
        cases one
        have before : s.stage.pending = 0 := by
          cases at_ : s.stage with
          | down | fetching | analyzing => rfl
          | caching sending later => exact absurd at_ (idle sending later)
        have turned : Turned setting s { s with scanner := s.scanner.stopped, stage := .down } :=
          .quiet rfl rfl rfl rfl rfl
        exact ⟨turned.stepped before, item, trivial⟩

/-! All the snapshots of a run, and what became of them. -/

structure Taken extends Snapshot where
  moment : ℕ

namespace Taken

def commands (json : Json Text) (taken : Taken) : List (Command Text) := taken.toSnapshot.commands json

def Held (setting : Setting Text) (actions : List Action) (taken : Taken) : Prop :=
  taken.moment ≤ actions.length ∧
    ∃ t, exec (step setting) (actions.take taken.moment) fresh = some t ∧ t.item = taken.item

theorem Held.append {actions : List Action} {taken : Taken} (held : taken.Held setting actions) (action : Action) :
    taken.Held setting (actions ++ [action]) := by
  obtain ⟨before, t, run, same⟩ := held
  refine ⟨before.trans (by simp), t, ?_, same⟩
  rwa [List.take_append_of_le_length before]

end Taken

/-- The snapshots with the parts of their pipelines that Redis has executed. -/
structure Journal (setting : Setting Text) (past : List Action) (s : TopStocksFeed Text)
    (parts : List (Taken × List (Command Text))) : Prop where
  log : s.executed = CutShort.log parts
  within : CutShort.Within (Taken.commands setting.json) parts
  held : ∀ part ∈ parts, part.1.Held setting past
  ordered : (parts.map Prod.fst).Pairwise fun first second => first.moment < second.moment
  unsent : s.stage.rest setting.json ≠ [] → ∃ before taken part, parts = before ++ [(taken, part)] ∧
    part ++ s.stage.rest setting.json = taken.commands setting.json
  counts : s.scanner.processed = s.scanner.emptyResults + parts.length
  uncut : Along (step setting) Uncut past fresh →
    s.executed ++ s.stage.rest setting.json = (parts.map Prod.fst).flatMap (Taken.commands setting.json) ∧
      s.scanner.publishedResults + s.stage.pending = 4 * parts.length

structure Recorded (setting : Setting Text) (past : List Action) (s : TopStocksFeed Text) : Prop where
  run : exec (step setting) past fresh = some s
  kept : Kept setting s
  journal : ∃ parts, Journal setting past s parts

variable {past : List Action} {parts : List (Taken × List (Command Text))} {action : Action}

theorem uncut_before (run : exec (step setting) past fresh = some s)
    (uncut : Along (step setting) Uncut (past ++ [action]) fresh) :
    Along (step setting) Uncut past fresh ∧ s.Uncut action := by
  obtain ⟨before, here⟩ := along_append.mp uncut
  exact ⟨before, (here s run).1⟩

theorem Journal.goes (journal : Journal setting past s parts) (run : exec (step setting) past fresh = some s)
    {done : List (Command Text)} (log : next.executed = s.executed ++ done) (within : done <+: s.stage.rest setting.json)
    (left : next.stage.rest setting.json = [] ∨ s.stage.rest setting.json = done ++ next.stage.rest setting.json)
    (uncut : s.Uncut action → s.stage.rest setting.json = done ++ next.stage.rest setting.json ∧
      next.scanner.publishedResults + next.stage.pending = s.scanner.publishedResults + s.stage.pending)
    (counts : next.scanner.processed + s.scanner.emptyResults = s.scanner.processed + next.scanner.emptyResults) :
    ∃ parts, Journal setting (past ++ [action]) next parts := by
  have before := journal.counts
  have smooth (permitted : Along (step setting) Uncut (past ++ [action]) fresh) :
      next.executed ++ next.stage.rest setting.json = (parts.map Prod.fst).flatMap (Taken.commands setting.json) ∧
        next.scanner.publishedResults + next.stage.pending = 4 * parts.length := by
    obtain ⟨earlier, here⟩ := uncut_before run permitted
    obtain ⟨all, results⟩ := journal.uncut earlier
    obtain ⟨rest, same⟩ := uncut here
    refine ⟨?_, same.trans results⟩
    rw [log, List.append_assoc, ← rest, all]
  by_cases idle : s.stage.rest setting.json = []
  -- the parts stay as they are
  · have nothing : done = [] := List.prefix_nil.mp (idle ▸ within)
    have still : next.stage.rest setting.json = [] := by
      rcases left with none | whole
      · exact none
      · rw [idle] at whole
        exact (List.append_eq_nil_iff.mp whole.symm).2
    refine ⟨parts, ⟨?_, journal.within, fun part member => (journal.held part member).append action, journal.ordered,
      fun more => absurd still more, ?_, smooth⟩⟩
    · rw [log, nothing, List.append_nil, journal.log]
    · omega
  -- the last part grows by what was executed
  · obtain ⟨earlier, taken, part, rfl, whole⟩ := journal.unsent idle
    have same : (earlier ++ [(taken, part ++ done)]).map Prod.fst = (earlier ++ [(taken, part)]).map Prod.fst := by
      simp only [List.map_append, List.map_cons, List.map_nil]
    have size : (earlier ++ [(taken, part ++ done)]).length = (earlier ++ [(taken, part)]).length := by
      simp only [List.length_append, List.length_cons, List.length_nil]
    refine ⟨earlier ++ [(taken, part ++ done)], ⟨?_, ?_, ?_, ?_, ?_, ?_, ?_⟩⟩
    · rw [log, journal.log]
      simp only [CutShort.log, List.flatMap_append, List.flatMap_cons, List.flatMap_nil, List.append_nil,
        List.append_assoc]
    · intro other member
      rcases List.mem_append.mp member with old | new
      · exact journal.within other (List.mem_append_left _ old)
      · rw [List.mem_singleton.mp new, ← whole]
        exact (List.prefix_append_right_inj part).mpr within
    · intro other member
      rcases List.mem_append.mp member with old | new
      · exact (journal.held other (List.mem_append_left _ old)).append action
      · rw [List.mem_singleton.mp new]
        exact (journal.held (taken, part) (by simp)).append action
    · rw [same]
      exact journal.ordered
    · intro more
      refine ⟨earlier, taken, part ++ done, rfl, ?_⟩
      rw [← whole, List.append_assoc, left.resolve_left more]
    · rw [size]
      omega
    · intro permitted
      rw [same, size]
      exact smooth permitted

theorem Journal.publishes (journal : Journal setting past s parts) (run : exec (step setting) past fresh = some s)
    (one : s.step setting action = some next) (snapshot : Snapshot) (item : next.item = snapshot.item)
    (log : next.log = s.log) (before : s.stage.rest setting.json = [] ∧ s.stage.pending = 0)
    (pending : next.stage.pending = 4) (rest : next.stage.rest setting.json = snapshot.commands setting.json)
    (counts : next.scanner.processed + s.scanner.emptyResults = s.scanner.processed + next.scanner.emptyResults + 1)
    (published : next.scanner.publishedResults = s.scanner.publishedResults) :
    ∃ parts, Journal setting (past ++ [action]) next parts := by
  let taken : Taken := { snapshot with moment := past.length + 1 }
  have counted := journal.counts
  have now : taken.Held setting (past ++ [action]) := by
    refine ⟨by simp [taken], next, ?_, item⟩
    have whole : (past ++ [action]).take taken.moment = past ++ [action] := List.take_of_length_le (by simp [taken])
    rw [whole]
    exact exec_append.mpr ⟨s, run, exec_cons.mpr ⟨next, one, rfl⟩⟩
  have size : (parts ++ [(taken, ([] : List (Command Text)))]).length = parts.length + 1 := List.length_append
  have log : next.executed = s.executed := congrArg (List.map Prod.snd) log
  refine ⟨parts ++ [(taken, [])], ⟨?_, ?_, ?_, ?_, ?_, ?_, ?_⟩⟩
  · rw [log, journal.log]
    simp only [CutShort.log, List.flatMap_append, List.flatMap_cons, List.flatMap_nil, List.append_nil]
  · intro other member
    rcases List.mem_append.mp member with old | new
    · exact journal.within other old
    · rw [List.mem_singleton.mp new]
      exact List.nil_prefix
  · intro other member
    rcases List.mem_append.mp member with old | new
    · exact (journal.held other old).append action
    · rw [List.mem_singleton.mp new]
      exact now
  · rw [List.map_append, List.pairwise_append]
    refine ⟨journal.ordered, List.pairwise_singleton _ _, fun old member new last => ?_⟩
    obtain ⟨part, there, rfl⟩ := List.mem_map.mp member
    rw [List.mem_singleton.mp last]
    exact Nat.lt_succ_of_le (journal.held part there).1
  · exact fun _ => ⟨parts, taken, [], rfl, rest⟩
  · rw [size]
    omega
  · intro permitted
    obtain ⟨all, results⟩ := journal.uncut (uncut_before run permitted).1
    rw [before.1, List.append_nil] at all
    rw [before.2] at results
    rw [size]
    refine ⟨?_, by omega⟩
    rw [log, all, rest, List.map_append, List.flatMap_append]
    simp only [List.map_cons, List.map_nil, List.flatMap_cons, List.flatMap_nil, List.append_nil]
    rfl

/-- The snapshots that were saved before anything of them was shown. -/
def saved (parts : List (Taken × List (Command Text))) : List Taken :=
  CutShort.reached (Command.storedTo WidgetDataCacheKeys.TOP_STOCKS_SCANNER) parts

def lifetime : Int := WidgetDataCacheTTL.TOP_STOCKS_SCANNER

theorem Journal.holds (journal : Journal setting past s parts) (key : String) :
    ∀ timed ∈ s.log, timed.2.Holds key lifetime := by
  intro timed member
  have executed : timed.2 ∈ s.executed := List.mem_map_of_mem member
  rw [journal.log] at executed
  obtain ⟨part, there, sent⟩ := List.mem_flatMap.mp executed
  exact part.1.holds setting.json key timed.2 ((journal.within part there).subset sent)

/-- What is stored under a key is of these snapshots, each with the instant of its
storing; the key holds the last of them while that lives. -/
structure StoredAs (s : TopStocksFeed Text) (key : String) (value : Taken → Text) (stores : List (Int × Taken)) :
    Prop where
  stored : storedAt key s.log = stores.reverse.map (Prod.map id value)
  read : ∀ instant, (∀ timed ∈ s.log, timed.1 ≤ instant) → (Database.at s.log instant).entries key =
    (living lifetime instant stores.reverse).map fun store => .string (value store.2)

theorem Journal.storedAs (journal : Journal setting past s parts) {key : String} {value : Taken → Text}
    {snapshots : List Taken} (all : s.executed.filterMap (Command.storedTo key) = snapshots.map value) :
    ∃ stores : List (Int × Taken), stores.map Prod.snd = snapshots ∧ s.StoredAs key value stores := by
  have texts : (storedAt key s.log).map Prod.snd = snapshots.reverse.map value := by
    rw [map_snd_storedAt, ← executed, stored, all, List.map_reverse]
  obtain ⟨stores, own, same⟩ := exists_map_of_snd texts
  have stored : storedAt key s.log = stores.reverse.reverse.map (Prod.map id value) := by
    rw [same, List.reverse_reverse]
  refine ⟨stores.reverse, ?_, stored, fun instant later => ?_⟩
  · rw [List.map_reverse, own, List.reverse_reverse]
  · rw [(newest_at (by decide) (journal.holds key) later).1, stored, living_map, Option.map_map]
    rfl

/-- They are the snapshots that got so far. -/
theorem Journal.reached (journal : Journal setting past s parts) {key : String} {value : Taken → Text}
    (once : ∀ taken : Taken, (taken.commands setting.json).filterMap (Command.storedTo key) = [value taken]) :
    ∃ stores : List (Int × Taken), stores.map Prod.snd = CutShort.reached (Command.storedTo key) parts ∧
      s.StoredAs key value stores := by
  apply journal.storedAs
  rw [journal.log, CutShort.filterMap_log once journal.within]

theorem Journal.saved_entries (journal : Journal setting past s parts) (instant : Int) :
    ∃ last : Option Taken, (Database.at s.log instant).entries WidgetDataCacheKeys.TOP_STOCKS_SCANNER =
      last.map fun taken => .string (taken.copy setting.json) := by
  rcases entries_at_eq_or (by decide) (journal.holds WidgetDataCacheKeys.TOP_STOCKS_SCANNER) instant with
    gone | ⟨value, first, held⟩
  · exact ⟨none, gone⟩
  · obtain ⟨stores, -, kept⟩ := journal.reached fun taken => taken.stored_copy setting.json
    have member := List.mem_of_mem_head? first
    rw [kept.stored] at member
    obtain ⟨store, -, rfl⟩ := List.mem_map.mp member
    exact ⟨some store.2, held⟩

theorem start_spec {last : Option Taken} {instant : Int} (entries :
      (Database.at s.log instant).entries WidgetDataCacheKeys.TOP_STOCKS_SCANNER =
        last.map fun taken => .string (taken.copy setting.json)) (now : ℤ) :
    ∃ next, s.start setting now instant = some next ∧ next.log = s.log ∧ next.stage = .fetching ∧
      next.scanner = { s.scanner with running := true, mdcConnected := true } ∧
      next.item = if tradingHours setting.zone now then (last.map fun taken => taken.item).getD .fresh else .fresh := by
  unfold start rehydrate
  split
  · cases last with
    | none =>
        rw [entries]
        exact ⟨_, rfl, rfl, rfl, rfl, rfl⟩
    | some taken =>
        rw [entries]
        have full : taken.item.toDict.truthy = true := rfl
        simp only [Option.map_some, Snapshot.copy, setting.truthy, setting.json.loads_dumps, full,
          TopStocksCacheItem.ofKeywords_toDict, Bool.false_eq_true, if_false, if_true]
        exact ⟨_, rfl, rfl, rfl, rfl, rfl⟩
  · exact ⟨_, rfl, rfl, rfl, rfl, rfl⟩

theorem stepped_of_start (journal : Journal setting past s parts) {now : ℤ} {instant : Int}
    (one : s.step setting (.start now instant) = some next) :
    Stepped setting s (.start now instant) next ∧ Kept setting next := by
  simp only [step] at one
  split at one
  · rename_i down
    have before : s.stage.pending = 0 := by rw [down]; rfl
    obtain ⟨last, entries⟩ := journal.saved_entries instant
    obtain ⟨again, same, log, stage, scanner, item⟩ := start_spec entries now
    cases same.symm.trans one
    have quiet : Turned setting s next := by
      refine .quiet log ?_ ?_ ?_ ?_
      · rw [stage]; rfl
      · rw [stage]; rfl
      · rw [scanner]
      · rw [scanner]
    refine ⟨quiet.stepped before, ?_, by rw [stage]; trivial⟩
    rw [item]
    split
    · cases last with
      | none => exact sound_fresh (some 0)
      | some taken => exact taken.sound
    · exact sound_fresh (some 0)
  · cases one

theorem Journal.stepped (journal : Journal setting past s parts) (run : exec (step setting) past fresh = some s)
    (one : s.step setting action = some next) (stepped : Stepped setting s action next) :
    ∃ parts, Journal setting (past ++ [action]) next parts := by
  cases stepped with
  | goes done log within left uncut counts => exact journal.goes run log within left uncut counts
  | publishes snapshot item log before pending rest counts published =>
      exact journal.publishes run one snapshot item log before pending rest counts published

theorem Recorded.step (recorded : Recorded setting past s) (numeric : action.Numeric)
    (one : s.step setting action = some next) : Recorded setting (past ++ [action]) next := by
  obtain ⟨run, kept, parts, journal⟩ := recorded
  have reached : exec (TopStocksFeed.step setting) (past ++ [action]) fresh = some next :=
    exec_append.mpr ⟨s, run, exec_cons.mpr ⟨next, one, rfl⟩⟩
  have moved : Stepped setting s action next ∧ Kept setting next := by
    by_cases starts : ∃ now instant, action = .start now instant
    · obtain ⟨now, instant, rfl⟩ := starts
      exact stepped_of_start journal one
    · exact stepped_of_step kept numeric (fun now instant same => starts ⟨now, instant, same⟩) one
  exact ⟨reached, moved.2, journal.stepped run one moved.1⟩

theorem recorded_fresh : Recorded setting [] (fresh : TopStocksFeed Text) where
  run := rfl
  kept := ⟨sound_fresh (some 0), trivial⟩
  journal := ⟨[], rfl, fun _ member => (by cases member), fun _ member => (by cases member), .nil,
    fun more => absurd rfl more, rfl, fun _ => ⟨rfl, rfl⟩⟩

theorem recorded_of_run {actions : List Action} (numeric : ∀ action ∈ actions, action.Numeric)
    (run : exec (step setting) actions fresh = some s) : Recorded setting actions s :=
  along_record (Recorded setting) (fun recorded fine one => recorded.step fine one) recorded_fresh
    (along_of_forall numeric fresh) run

/-! What is shown, and what a restart restores. -/

theorem copy_first (json : Json Text) (board : Board) (taken : Taken) :
    CutShort.Precedes (Command.storedTo WidgetDataCacheKeys.TOP_STOCKS_SCANNER) (Command.storedTo board.cacheKey)
      (taken.commands json) := by
  rw [Taken.commands, Snapshot.commands_eq]
  exact CutShort.precedes_of_head (by simp [Command.storedTo])

theorem stored_first (json : Json Text) (board : Board) (taken : Taken) :
    CutShort.Precedes (Command.storedTo board.cacheKey) (Command.publishedOn board.cacheKey)
      (taken.commands json) := by
  rw [Taken.commands, Snapshot.commands_eq]
  cases board with
  | topVolume =>
      show CutShort.Precedes _ _ ([_] ++ (_ :: _))
      exact CutShort.precedes_of_quiet rfl (CutShort.precedes_of_head (by simp [Command.storedTo]))
  | topGainers =>
      show CutShort.Precedes _ _ ([_, _, _] ++ (_ :: _))
      exact CutShort.precedes_of_quiet rfl (CutShort.precedes_of_head (by simp [Command.storedTo]))
  | topGappers =>
      show CutShort.Precedes _ _ ([_, _, _, _, _] ++ (_ :: _))
      exact CutShort.precedes_of_quiet rfl (CutShort.precedes_of_head (by simp [Command.storedTo]))

theorem filterMap_commands {json : Json Text} {seen : Command Text → Option Text} {value : Taken → Text}
    (once : ∀ taken : Taken, (taken.commands json).filterMap seen = [value taken]) (snapshots : List Taken) :
    (snapshots.flatMap (Taken.commands json)).filterMap seen = snapshots.map value := by
  simp only [List.filterMap_flatMap, once, List.map_eq_flatMap]

/-- At every moment, whatever was refused or cut short and however often the scanner
was stopped: what a board shows or has announced is of snapshots that were saved
before, in the order in which they were taken, each of them what the analyzer held
at some moment; and a start never fails for what it finds, and restores the newest
while it lives. -/
theorem restored_of_run {actions : List Action} (numeric : ∀ action ∈ actions, action.Numeric)
    (run : exec (step setting) actions fresh = some s) :
    ∃ saves : List (Int × Taken),
      ((saves.map Prod.snd).Pairwise fun first second => first.moment < second.moment) ∧
      (∀ save ∈ saves, save.2.Held setting actions) ∧
      s.StoredAs WidgetDataCacheKeys.TOP_STOCKS_SCANNER (fun taken => taken.copy setting.json) saves ∧
      (∀ board : Board, ∃ stores : List (Int × Taken), (stores.map Prod.snd).Sublist (saves.map Prod.snd) ∧
        s.StoredAs board.cacheKey (fun taken => taken.shown setting.json board) stores ∧
        (published board.cacheKey s.executed).Sublist (stores.map fun store => store.2.shown setting.json board)) ∧
      (s.stage = .down → ∀ (now : ℤ) (instant : Int), (∀ timed ∈ s.log, timed.1 ≤ instant) →
        ∃ next, s.step setting (.start now instant) = some next ∧ next.item =
          if tradingHours setting.zone now then
            ((living lifetime instant saves.reverse).map fun save => save.2.item).getD .fresh
          else .fresh) := by
  obtain ⟨-, -, parts, journal⟩ := recorded_of_run numeric run
  have among : (saved parts).Sublist (parts.map Prod.fst) := CutShort.reached_sublist _ parts
  obtain ⟨saves, own, kept⟩ := journal.reached fun taken => taken.stored_copy setting.json
  refine ⟨saves, ?_, fun save member => ?_, kept, fun board => ?_, fun down now instant later => ?_⟩
  · rw [own]
    exact journal.ordered.sublist among
  · have taken : save.2 ∈ saved parts := by
      rw [saved, ← own]
      exact List.mem_map_of_mem member
    obtain ⟨part, there, same⟩ := List.mem_map.mp (among.subset taken)
    exact same ▸ journal.held part there
  · obtain ⟨stores, reached, shown⟩ := journal.reached fun taken => taken.stored_shown setting.json board
    refine ⟨stores, ?_, shown, ?_⟩
    · rw [reached, own]
      exact CutShort.reached_of_precedes (copy_first setting.json board) journal.within
    · have announced := CutShort.filterMap_log (fun taken : Taken => taken.published_shown setting.json board)
        journal.within
      have values : (stores.map fun store => store.2.shown setting.json board) =
          (stores.map Prod.snd).map fun taken => taken.shown setting.json board := by rw [List.map_map]; rfl
      rw [published, journal.log, announced, values, reached]
      exact (CutShort.reached_of_precedes (stored_first setting.json board) journal.within).map _
  · have entries : (Database.at s.log instant).entries WidgetDataCacheKeys.TOP_STOCKS_SCANNER =
        ((living lifetime instant saves.reverse).map Prod.snd).map fun taken => .string (taken.copy setting.json) := by
      rw [kept.read instant later, Option.map_map]
      rfl
    obtain ⟨next, same, -, -, -, item⟩ := start_spec entries now
    refine ⟨next, ?_, ?_⟩
    · simp only [step, down]
      exact same
    · rw [item, Option.map_map]
      rfl

def demo : Setting Value where
  zone := americaNewYork
  json := Json.document
  falsy := fun _ => false
  truthy := fun _ => rfl

def barAnalyzed : List Action :=
  [.start 1700060400 0, .message 1700060400 TopStocks.Scanner.bar 1700060400,
    .resume (.snapshot (some (.num 4)) (some (.num 1)) (some (.num 4))) 1700060400,
    .resume (.value (.num 100)) 1700060400, .resume (.value (.num 1000)) 1700060400]

theorem numeric_message : (Action.message 1700060400 TopStocks.Scanner.bar 1700060400).Numeric := by
  rintro symbol event passed
  have same : accepted TopStocks.Scanner.bar = some ("GTE", .ofKeywords TopStocks.Scanner.bar) := rfl
  rw [same] at passed
  cases passed
  exact TopStocks.Scanner.numeric_bar

theorem numeric_barAnalyzed {rest : List Action} (later : ∀ action ∈ rest, action.Numeric) :
    ∀ action ∈ barAnalyzed ++ rest, action.Numeric := by
  refine List.forall_mem_append.mpr ⟨fun action member => ?_, later⟩
  simp only [barAnalyzed, List.mem_cons, List.not_mem_nil, or_false] at member
  rcases member with rfl | rfl | rfl | rfl | rfl
  · trivial
  · exact numeric_message
  all_goals trivial

/-- The second pipeline fails after its first command, and the scanner is restarted. -/
def cutOff : List Action := [.execute 1000, .executed, .execute 2000, .refused 3000 0, .stop 4000 0]

theorem numeric_cutOff : ∀ action ∈ barAnalyzed ++ cutOff, action.Numeric := by
  refine numeric_barAnalyzed fun action member => ?_
  simp only [cutOff, List.mem_cons, List.not_mem_nil, or_false] at member
  rcases member with rfl | rfl | rfl | rfl | rfl <;> trivial

theorem restored_cutOff : ∃ s, exec (step demo) (barAnalyzed ++ cutOff) fresh = some s ∧
    ∃ saves : List (Int × Taken), saves.map Prod.fst = [1000] ∧
      ∀ (now : ℤ) (instant : Int), 4000 ≤ instant → ∃ next, s.step demo (.start now instant) = some next ∧
        next.item = if tradingHours demo.zone now then
            ((living lifetime instant saves.reverse).map fun save => save.2.item).getD .fresh
          else .fresh := by
  obtain ⟨s, run, down, instants, log⟩ : ∃ s, exec (step demo) (barAnalyzed ++ cutOff) fresh = some s ∧
      s.stage = .down ∧
      (storedAt WidgetDataCacheKeys.TOP_STOCKS_SCANNER s.log).map Prod.fst = [1000] ∧
      ∀ timed ∈ s.log, timed.1 ≤ 4000 := by
    have ends : (exec (step demo) (barAnalyzed ++ cutOff) fresh).map (fun s =>
        ((match s.stage with | .down => true | _ => false),
          (storedAt WidgetDataCacheKeys.TOP_STOCKS_SCANNER s.log).map Prod.fst, s.log.map Prod.fst)) =
        some (true, [1000], [1000, 2000]) := by decide +kernel
    obtain ⟨s, run, seen⟩ := Option.map_eq_some_iff.mp ends
    refine ⟨s, run, ?_, congrArg (fun seen => seen.2.1) seen, fun timed member => ?_⟩
    · have down := congrArg Prod.fst seen
      split at down
      · assumption
      · cases down
    · have among : timed.1 ∈ s.log.map Prod.fst := List.mem_map_of_mem member
      rw [show s.log.map Prod.fst = [1000, 2000] from congrArg (fun seen => seen.2.2) seen] at among
      simp only [List.mem_cons, List.not_mem_nil, or_false] at among
      omega
  obtain ⟨saves, -, -, kept, -, restores⟩ := restored_of_run numeric_cutOff run
  refine ⟨s, run, saves, ?_, fun now instant later => ?_⟩
  · rw [kept.stored, List.map_map] at instants
    have same : saves.reverse.map Prod.fst = [1000] := instants
    rwa [List.map_reverse, List.reverse_eq_iff] at same
  · exact restores down now instant fun timed member => (log timed member).trans later

/-- As long as the caching of results is never interrupted, whenever none is under
way the boards are those of the snapshot that a restart would restore, every one
was announced in order, and the counters say how many there were. -/
theorem boards_agree_of_run {actions : List Action} (numeric : ∀ action ∈ actions, action.Numeric)
    (run : exec (step setting) actions fresh = some s) (uncut : Along (step setting) Uncut actions fresh)
    (idle : s.stage.pending = 0) :
    ∃ saves : List (Int × Taken),
      ((saves.map Prod.snd).Pairwise fun first second => first.moment < second.moment) ∧
      (∀ save ∈ saves, save.2.Held setting actions) ∧
      s.StoredAs WidgetDataCacheKeys.TOP_STOCKS_SCANNER (fun taken => taken.copy setting.json) saves ∧
      (∀ board : Board, ∃ stores : List (Int × Taken), stores.map Prod.snd = saves.map Prod.snd ∧
        s.StoredAs board.cacheKey (fun taken => taken.shown setting.json board) stores ∧
        published board.cacheKey s.executed = stores.map fun store => store.2.shown setting.json board) ∧
      s.scanner.processed = s.scanner.emptyResults + saves.length ∧
      s.scanner.publishedResults = 4 * saves.length := by
  obtain ⟨-, -, parts, journal⟩ := recorded_of_run numeric run
  obtain ⟨all, results⟩ := journal.uncut uncut
  have whole : s.executed = (parts.map Prod.fst).flatMap (Taken.commands setting.json) := by
    rw [← all, rest_of_idle idle, List.append_nil]
  have stores {key : String} {value : Taken → Text}
      (once : ∀ taken : Taken, (taken.commands setting.json).filterMap (Command.storedTo key) = [value taken]) :
      ∃ stores : List (Int × Taken), stores.map Prod.snd = parts.map Prod.fst ∧ s.StoredAs key value stores := by
    apply journal.storedAs
    rw [whole, filterMap_commands once]
  obtain ⟨saves, own, kept⟩ := stores fun taken => taken.stored_copy setting.json
  have size : saves.length = parts.length := by
    rw [← List.length_map Prod.snd, own, List.length_map]
  refine ⟨saves, ?_, fun save member => ?_, kept, fun board => ?_, ?_, ?_⟩
  · rw [own]
    exact journal.ordered
  · have taken : save.2 ∈ parts.map Prod.fst := own ▸ List.mem_map_of_mem member
    obtain ⟨part, there, same⟩ := List.mem_map.mp taken
    exact same ▸ journal.held part there
  · obtain ⟨shown, same, stored⟩ := stores fun taken => taken.stored_shown setting.json board
    refine ⟨shown, same.trans own.symm, stored, ?_⟩
    have values : (shown.map fun store => store.2.shown setting.json board) =
        (shown.map Prod.snd).map fun taken => taken.shown setting.json board := by rw [List.map_map]; rfl
    rw [published, whole, values, same]
    exact filterMap_commands (fun taken => taken.published_shown setting.json board) _
  · rw [size]
    exact journal.counts
  · rw [size]
    omega

def cached : List Action :=
  [.execute 0, .executed, .execute 0, .execute 1, .executed, .execute 2, .execute 3, .executed, .execute 4, .execute 5,
    .executed]

theorem boards_agree_cached : ∃ s, exec (step demo) (barAnalyzed ++ cached) fresh = some s ∧
    s.scanner.publishedResults = 4 ∧
    ∃ saves : List (Int × Taken),
      ((saves.map Prod.snd).Pairwise fun first second => first.moment < second.moment) ∧
      (∀ save ∈ saves, save.2.Held demo (barAnalyzed ++ cached)) ∧
      s.StoredAs WidgetDataCacheKeys.TOP_STOCKS_SCANNER (fun taken => taken.copy demo.json) saves ∧
      (∀ board : Board, ∃ stores : List (Int × Taken), stores.map Prod.snd = saves.map Prod.snd ∧
        s.StoredAs board.cacheKey (fun taken => taken.shown demo.json board) stores ∧
        published board.cacheKey s.executed = stores.map fun store => store.2.shown demo.json board) ∧
      s.scanner.processed = s.scanner.emptyResults + saves.length ∧
      s.scanner.publishedResults = 4 * saves.length := by
  have ends : (exec (step demo) (barAnalyzed ++ cached) fresh).map
      (fun s => (s.stage.pending, s.scanner.publishedResults)) = some (0, 4) := by decide +kernel
  obtain ⟨s, run, counters⟩ := Option.map_eq_some_iff.mp ends
  have uncut : Along (step demo) Uncut (barAnalyzed ++ cached) fresh := by decide +kernel
  refine ⟨s, run, congrArg Prod.snd counters,
    boards_agree_of_run (numeric_barAnalyzed fun action member => ?_) run uncut (congrArg Prod.fst counters)⟩
  simp only [cached, List.mem_cons, List.not_mem_nil, or_false] at member
  rcases member with rfl | rfl | rfl | rfl | rfl | rfl | rfl | rfl | rfl | rfl | rfl <;> trivial

end TopStocksFeed
end KuhlHausMdp
