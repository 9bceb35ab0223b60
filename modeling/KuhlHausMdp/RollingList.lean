import KuhlHausMdp.Library.CommandLog
import KuhlHausMdp.Library.Transition
import KuhlHausMdp.Library.Value

/-! Results cached as rolling lists: `MarketDataScanner.cache_result`,
`MassiveDataProcessor._cache_result` and `FinlightDataProcessor._cache_result`
write, `WidgetDataService.get_cache` reads. A pipeline is not a transaction, so
the commands of different writers interleave. -/

set_option autoImplicit false

namespace KuhlHausMdp.RollingList

open Transition

structure MarketDataAnalyzerResult where
  data : Value
  cacheKey : Option String
  cacheTtl : Option Int
  publishKey : Option String
  cacheListMax : Option Int

variable {Text P : Type*} (json : Json Text)

/-- `if key`: an empty string counts as no key. -/
def given (key : Option String) : Option String := key.filter (· ≠ "")

/-- The commands that a writer puts in its pipeline. `positive` is the writer's
test of `cache_ttl`, which has no answer when the comparison raises; then
nothing of the pipeline is sent. -/
def pipeline (positive : Option Int → Option Bool) (result : MarketDataAnalyzerResult) :
    Option (List (Redis.Command Text)) :=
  let resultJson := json.dumps result.data
  let published : List (Redis.Command Text) := match given result.publishKey with
    | some channel => [.publish channel resultJson]
    | none => []
  match given result.cacheKey with
  | none => some published
  | some key => (positive result.cacheTtl).map fun expires =>
      match result.cacheListMax with
      | some most =>
          [.lpush key resultJson, .ltrim key 0 (most - 1)] ++
            (if expires then [.expire key (result.cacheTtl.getD 0)] else []) ++ published
      | none =>
          (if expires then [.setex key (result.cacheTtl.getD 0) resultJson] else [.set key resultJson]) ++ published

inductive Writer where
  | marketDataScanner
  | massiveDataProcessor
  | finlightDataProcessor
  deriving DecidableEq, Repr

/-- `cache_ttl > 0`, and `cache_ttl and cache_ttl > 0` in the news processor. -/
def Writer.positive : Writer → Option Int → Option Bool
  | .marketDataScanner, ttl => ttl.map fun seconds => decide (0 < seconds)
  | .massiveDataProcessor, ttl => ttl.map fun seconds => decide (0 < seconds)
  | .finlightDataProcessor, ttl => some (decide (0 < ttl.getD 0))

def cacheResult (writer : Writer) (result : MarketDataAnalyzerResult) : Option (List (Redis.Command Text)) :=
  pipeline json writer.positive result

theorem Writer.positive_eq_none {writer : Writer} {ttl : Option Int} :
    writer.positive ttl = none ↔ ttl = none ∧ writer ≠ .finlightDataProcessor := by
  cases writer <;> cases ttl <;> simp [Writer.positive]

theorem Writer.positive_some (writer : Writer) (seconds : Int) :
    writer.positive (some seconds) = some (decide (0 < seconds)) := by
  cases writer <;> rfl

/-- A writer's commands depend on it through its test alone, and on the test
only when there is a key to store under. -/
theorem pipeline_congr {first second : Option Int → Option Bool} {result : MarketDataAnalyzerResult}
    (same : given result.cacheKey = none ∨ first result.cacheTtl = second result.cacheTtl) :
    pipeline json first result = pipeline json second result := by
  unfold pipeline
  cases key : given result.cacheKey with
  | none => rfl
  | some key =>
      rw [key] at same
      rw [same.resolve_left nofun]

theorem pipeline_eq_none {positive : Option Int → Option Bool} {result : MarketDataAnalyzerResult} :
    pipeline json positive result = none ↔ given result.cacheKey ≠ none ∧ positive result.cacheTtl = none := by
  unfold pipeline
  cases key : given result.cacheKey with
  | none => simp
  | some key => simp

/-- The three writers send the same commands, and none of them raises before
it sends any, exactly for the results without a key to store under and for
those whose lifetime is a number. -/
theorem writers_agree_iff (result : MarketDataAnalyzerResult) :
    (∃ commands, ∀ writer, cacheResult json writer result = some commands) ↔
      given result.cacheKey = none ∨ result.cacheTtl ≠ none := by
  constructor
  · intro agree
    obtain ⟨commands, same⟩ := agree
    by_contra missing
    obtain ⟨keyed, unlimited⟩ := not_or.mp missing
    have raises : cacheResult json .marketDataScanner result = none :=
      (pipeline_eq_none json).mpr ⟨keyed, Writer.positive_eq_none.mpr ⟨not_not.mp unlimited, nofun⟩⟩
    exact Option.some_ne_none commands ((same .marketDataScanner).symm.trans raises)
  · intro fine
    have test : ∀ writer : Writer,
        given result.cacheKey = none ∨
          writer.positive result.cacheTtl = Writer.finlightDataProcessor.positive result.cacheTtl := by
      intro writer
      apply fine.imp_right
      intro limited
      obtain ⟨seconds, lifetime⟩ := Option.ne_none_iff_exists'.mp limited
      rw [lifetime, Writer.positive_some, Writer.positive_some]
    have sends : cacheResult json .finlightDataProcessor result ≠ none := by
      intro raises
      exact (Writer.positive_eq_none.mp ((pipeline_eq_none json).mp raises).2).2 rfl
    obtain ⟨commands, sent⟩ := Option.ne_none_iff_exists'.mp sends
    refine ⟨commands, fun writer => ?_⟩
    rw [← sent]
    exact pipeline_congr json (test writer)

/-- A snapshot to store without a lifetime: the news processor sends `SET`,
the other two raise at `None > 0`. -/
theorem writers_disagree :
    ¬ ∀ result : MarketDataAnalyzerResult,
      ∃ commands, ∀ writer, cacheResult Json.document writer result = some commands := by
  intro agree
  obtain ⟨commands, same⟩ := agree ⟨.str "snapshot", some "news:latest", none, none, none⟩
  exact Option.some_ne_none commands ((same .massiveDataProcessor).symm.trans rfl)

/-- `get_cache`, without an answer when `json.loads` raises; the inner option
is Python's `None`. An empty string counts as no value. -/
def getCache (db : Redis.Database Text) (falsy : Text → Bool) (cacheKey : String) (limit : Int) :
    Option (Option Value) :=
  match db.entries cacheKey with
  | some (.list _) =>
      let values := Redis.range 0 (if 0 < limit then limit - 1 else -1) (db.listAt cacheKey)
      (values.mapM json.loads).map fun items => some (.list items)
  | some (.string value) => if falsy value then some none else (json.loads value).map some
  | none => some none

/-- `pending` holds what Redis has not yet executed of each pipeline, `pushed`
everything ever pushed to a key, newest first. -/
structure Writers (Text P : Type*) where
  db : Redis.Database Text
  pending : P → List (Redis.Command Text)
  pushed : String → List Text

inductive Action (P : Type*) where
  | cacheResult (pipeline : P) (writer : Writer) (result : MarketDataAnalyzerResult)
  | command (pipeline : P)

def recordPush (pushed : String → List Text) : Redis.Command Text → String → List Text
  | .lpush key item => Function.update pushed key (item :: pushed key)
  | _ => pushed

namespace Writers

def fresh : Writers Text P := ⟨.empty, fun _ => [], fun _ => []⟩

variable [DecidableEq P]

def step (w : Writers Text P) : Action P → Option (Writers Text P)
  | .cacheResult p writer result =>
      match w.pending p with
      | [] => some { w with
          pending := Function.update w.pending p ((RollingList.cacheResult json writer result).getD []) }
      | _ => none
  | .command p =>
      match w.pending p with
      | command :: rest => some {
          db := w.db.run command
          pending := Function.update w.pending p rest
          pushed := recordPush w.pushed command }
      | [] => none

end Writers

namespace Action

/-- Results for the key `k` carry the cap `n`. -/
def Caps (k : String) (n : Nat) : Action P → Prop
  | .cacheResult _ _ result => result.cacheKey = some k → result.cacheListMax = some n
  | .command _ => True

end Action

section

variable (k : String) (n : Nat)

/-- What a pipeline may still do to the key: push a text and trim afterwards,
trim to the cap, or set the lifetime. -/
def Suits (command : Redis.Command Text) (rest : List (Redis.Command Text)) : Prop :=
  match command with
  | .lpush key item => key = k → (∃ data, item = json.dumps data) ∧ .ltrim k 0 (n - 1) ∈ rest
  | .ltrim key start stop => key = k → start = 0 ∧ stop = n - 1
  | .expire key seconds => key = k → 0 < seconds
  | .setex key _ _ => key ≠ k
  | .set key _ => key ≠ k
  | .publish _ _ => True

def Proper : List (Redis.Command Text) → Prop
  | [] => True
  | command :: rest => Suits json k n command rest ∧ Proper rest

variable {k n}

theorem proper_cacheResult {writer : Writer} {result : MarketDataAnalyzerResult}
    (caps : result.cacheKey = some k → result.cacheListMax = some n) :
    Proper json k n ((cacheResult json writer result).getD []) := by
  have published : Proper json k n (match given result.publishKey with
      | some channel => [Redis.Command.publish channel (json.dumps result.data)]
      | none => []) := by
    split <;> simp [Proper, Suits]
  unfold cacheResult pipeline
  cases key : given result.cacheKey with
  | none => exact published
  | some key' =>
      have stored : result.cacheKey = some key' := (Option.filter_eq_some_iff.mp key).1
      cases expires : writer.positive result.cacheTtl with
      | none => trivial
      | some expires' =>
          have lasting : expires' = true → 0 < result.cacheTtl.getD 0 := by
            intro positive
            subst positive
            cases writer <;> cases ttl : result.cacheTtl <;> simp_all [Writer.positive]
          simp only [Option.map_some, Option.getD_some]
          split
          case h_1 most capped =>
            have same : key' = k → most = n := by
              rintro rfl
              exact Option.some.inj (capped.symm.trans (caps stored))
            refine ⟨fun here => ⟨⟨_, rfl⟩, ?_⟩, fun here => ⟨rfl, by rw [same here]⟩, ?_⟩
            · rw [here, same here]
              exact List.mem_cons_self
            · cases expires' with
              | false => exact published
              | true => exact ⟨fun _ => lasting rfl, published⟩
          case h_2 uncapped =>
            have apart : key' ≠ k := by
              rintro rfl
              cases uncapped.symm.trans (caps stored)
            cases expires' with
            | false => exact ⟨apart, published⟩
            | true => exact ⟨apart, published⟩

variable (k n)

/-- What holds of the key between any two commands: the list is a prefix of
what was pushed that lacks nothing recent, and while it is over the cap some
pipeline has its trim to come. -/
structure Rolling (w : Writers Text P) : Prop where
  lists : w.db.Lists k
  recent : ∃ m, min n (w.pushed k).length ≤ m ∧ w.db.listAt k = (w.pushed k).take m
  trimmed : (w.db.listAt k).length ≤ n ∨ ∃ p, .ltrim k 0 (n - 1) ∈ w.pending p
  proper : ∀ p, Proper json k n (w.pending p)
  payloads : ∃ data : List Value, w.pushed k = data.map json.dumps

variable {k n}

theorem recordPush_of_ne {pushed : String → List Text} {command : Redis.Command Text} (apart : command.key ≠ some k) :
    recordPush pushed command k = pushed k := by
  cases command with
  | lpush key item => exact Function.update_of_ne (fun same => apart (congrArg some same.symm)) _ _
  | _ => rfl

theorem Rolling.fresh : Rolling json k n (Writers.fresh : Writers Text P) where
  lists := fun _ => nofun
  recent := ⟨0, by simp [Writers.fresh], rfl⟩
  trimmed := .inl (Nat.zero_le n)
  proper := fun _ => trivial
  payloads := ⟨[], rfl⟩

theorem Rolling.listAt_of_done {w : Writers Text P} (rolling : Rolling json k n w) (done : ∀ p, w.pending p = []) :
    w.db.listAt k = (w.pushed k).take n := by
  have short : (w.db.listAt k).length ≤ n := by
    rcases rolling.trimmed with short | ⟨p, member⟩
    · exact short
    · exact absurd (done p ▸ member) List.not_mem_nil
  obtain ⟨m, enough, list⟩ := rolling.recent
  rw [list, List.length_take] at short
  rw [list, List.take_eq_take_iff]
  omega

theorem mapM_loads (data : List Value) : (data.map json.dumps).mapM json.loads = some data := by
  induction data with
  | nil => rfl
  | cons first rest ih => simp [json.loads_dumps, ih]

/-- `limit` cuts a list when it is positive. -/
def cut (limit : Int) (items : List Value) : List Value := if 0 < limit then items.take limit.toNat else items

theorem getCache_of_list {db : Redis.Database Text} {data : List Value} (lists : db.Lists k)
    (stored : db.listAt k = data.map json.dumps) (filled : data ≠ []) (falsy : Text → Bool) (limit : Int) :
    getCache json db falsy k limit = some (some (.list (cut limit data))) := by
  have entry : db.entries k = some (.list (db.listAt k)) := by
    refine (Redis.Database.entries_of_lists lists).resolve_left fun absent => filled ?_
    exact List.map_eq_nil_iff.mp (stored.symm.trans absent.2)
  have texts : Redis.range 0 (if 0 < limit then limit - 1 else -1) (db.listAt k) =
      (cut limit data).map json.dumps := by
    rw [stored, cut]
    split
    case isTrue cutting =>
      rw [Redis.range_zero (by omega), List.map_take, show limit - 1 + 1 = limit by omega]
    case isFalse => exact Redis.range_all _
  simp only [getCache, entry, texts, mapM_loads, Option.map_some]

/-! What is pushed: the payload of each result for the key, once. -/

def Action.pushes (k : String) : Action P → List Text
  | .cacheResult _ _ result =>
      if given result.cacheKey = some k ∧ result.cacheListMax ≠ none then [json.dumps result.data] else []
  | .command _ => []

def Action.Sends : Action P → Prop
  | .cacheResult _ writer result => RollingList.cacheResult json writer result ≠ none
  | .command _ => True

def Action.pipeline : Action P → P
  | .cacheResult p _ _ => p
  | .command p => p

def owed (k : String) (pipelines : List P) (w : Writers Text P) : List Text :=
  pipelines.flatMap fun p => (w.pending p).filterMap (Redis.Command.pushedTo k)

theorem pushes_cacheResult {writer : Writer} {result : MarketDataAnalyzerResult} {commands : List (Redis.Command Text)}
    (sent : cacheResult json writer result = some commands) (k : String) (p : P) :
    commands.filterMap (Redis.Command.pushedTo k) = (Action.cacheResult p writer result).pushes json k := by
  have silent (channel : Option String) :
      (match channel with
        | some channel => [Redis.Command.publish channel (json.dumps result.data)]
        | none => []).filterMap (Redis.Command.pushedTo k) = [] := by
    cases channel <;> rfl
  unfold cacheResult pipeline at sent
  cases key : given result.cacheKey with
  | none =>
      simp only [key, Option.some.injEq] at sent
      rw [← sent, silent, Action.pushes, if_neg (by simp [key])]
  | some own =>
      simp only [key] at sent
      obtain ⟨expires, -, rfl⟩ := Option.map_eq_some_iff.mp sent
      cases capped : result.cacheListMax with
      | none => cases expires <;> simp [Action.pushes, capped, silent, Redis.Command.pushedTo, List.filterMap_cons]
      | some most =>
          by_cases here : own = k
          · cases expires <;> simp [Action.pushes, key, capped, here, silent, Redis.Command.pushedTo, List.filterMap_cons]
          · cases expires <;> simp [Action.pushes, key, capped, here, silent, Redis.Command.pushedTo, List.filterMap_cons]

theorem recordPush_eq (pushed : String → List Text) (command : Redis.Command Text) (k : String) :
    recordPush pushed command k = (command.pushedTo k).toList ++ pushed k := by
  cases command with
  | lpush key item =>
      by_cases here : k = key
      · simp [recordPush, Redis.Command.pushedTo, here]
      · simp [recordPush, Redis.Command.pushedTo, here, Ne.symm here]
  | _ => rfl

variable [DecidableEq P]

theorem trim_update {pending : P → List (Redis.Command Text)} {p : P} {command trim : Redis.Command Text}
    {rest : List (Redis.Command Text)} (head : pending p = command :: rest) (apart : trim ≠ command)
    (later : ∃ q, trim ∈ pending q) : ∃ q, trim ∈ Function.update pending p rest q := by
  obtain ⟨q, member⟩ := later
  by_cases same : q = p
  · subst same
    rw [head] at member
    exact ⟨q, by rw [Function.update_self]; exact (List.mem_cons.mp member).resolve_left apart⟩
  · exact ⟨q, by rw [Function.update_of_ne same]; exact member⟩

theorem Rolling.sent {w : Writers Text P} {p : P} {commands : List (Redis.Command Text)} (rolling : Rolling json k n w)
    (idle : w.pending p = []) (proper : Proper json k n commands) :
    Rolling json k n { w with pending := Function.update w.pending p commands } where
  lists := rolling.lists
  recent := rolling.recent
  trimmed := rolling.trimmed.imp_right fun later => by
    obtain ⟨q, member⟩ := later
    have apart : q ≠ p := by
      rintro rfl
      exact absurd (idle ▸ member) List.not_mem_nil
    refine ⟨q, ?_⟩
    change _ ∈ Function.update w.pending p commands q
    rwa [Function.update_of_ne apart]
  proper := (Function.forall_update_iff w.pending fun _ => Proper json k n).mpr ⟨proper, fun q _ => rolling.proper q⟩
  payloads := rolling.payloads

theorem Rolling.executed {w : Writers Text P} {p : P} {command : Redis.Command Text}
    {rest : List (Redis.Command Text)} (positive : 1 ≤ n) (rolling : Rolling json k n w)
    (head : w.pending p = command :: rest) :
    Rolling json k n ⟨w.db.run command, Function.update w.pending p rest, recordPush w.pushed command⟩ := by
  have whole := rolling.proper p
  rw [head] at whole
  obtain ⟨suits, remaining⟩ := whole
  have proper : ∀ q, Proper json k n (Function.update w.pending p rest q) :=
    (Function.forall_update_iff w.pending fun _ => Proper json k n).mpr ⟨remaining, fun q _ => rolling.proper q⟩
  -- a command that leaves the list under the key as it was
  have unchanged : (w.db.run command).entries k = w.db.entries k → recordPush w.pushed command k = w.pushed k →
      command ≠ .ltrim k 0 (n - 1) →
      Rolling json k n ⟨w.db.run command, Function.update w.pending p rest, recordPush w.pushed command⟩ := by
    intro entries pushed noTrim
    have list := Redis.Database.listAt_congr entries
    refine ⟨fun value => entries ▸ rolling.lists value, ?_, ?_, proper, ?_⟩
    · simp only [pushed, list]
      exact rolling.recent
    · simp only [list]
      exact rolling.trimmed.imp_right (trim_update head noTrim.symm)
    · simp only [pushed]
      exact rolling.payloads
  by_cases here : command.key = some k
  · obtain ⟨m, enough, list⟩ := rolling.recent
    cases command with
    | lpush key item =>
        cases here
        obtain ⟨⟨data, rfl⟩, trim⟩ := suits rfl
        have pushed : recordPush w.pushed (.lpush k (json.dumps data)) k = json.dumps data :: w.pushed k :=
          Function.update_self _ _ _
        rw [Redis.Database.run_lpush rolling.lists]
        refine ⟨?_, ⟨m + 1, ?_, ?_⟩, .inr ⟨p, ?_⟩, proper, ?_⟩
        · exact w.db.lists_setList k (json.dumps data :: w.db.listAt k)
        · simp only [pushed, List.length_cons]
          omega
        · simp only [pushed, Redis.Database.listAt_setList, list, List.take_succ_cons]
        · simpa only [Function.update_self] using trim
        · obtain ⟨older, texts⟩ := rolling.payloads
          exact ⟨data :: older, by simp only [pushed, texts, List.map_cons]⟩
    | ltrim key start stop =>
        cases here
        obtain ⟨rfl, rfl⟩ := suits rfl
        have kept : (w.db.run (.ltrim k 0 (n - 1))).listAt k = (w.pushed k).take (min n m) := by
          rw [Redis.Database.listAt_ltrim, Redis.range_zero (by omega), list, List.take_take]
          congr 2
          omega
        refine ⟨Redis.Database.lists_ltrim rolling.lists _ _, ⟨min n m, ?_, kept⟩, .inl ?_, proper, rolling.payloads⟩
        · change min n (w.pushed k).length ≤ min n m
          omega
        · rw [kept, List.length_take]
          omega
    | expire key seconds =>
        cases here
        exact unchanged (congrFun (w.db.entries_expire k (suits rfl)) k) rfl nofun
    | setex key seconds value => cases here; exact absurd rfl suits
    | set key value => cases here; exact absurd rfl suits
    | publish => cases here
  · refine unchanged (w.db.entries_run_of_ne here) (recordPush_of_ne here) ?_
    rintro rfl
    exact here rfl

theorem rolling_of_run (positive : 1 ≤ n) {actions : List (Action P)} {w : Writers Text P}
    (caps : ∀ action ∈ actions, action.Caps k n) (run : exec (Writers.step json) actions Writers.fresh = some w) :
    Rolling json k n w := by
  refine along_invariant (Rolling json k n) ?_ (Rolling.fresh json) (along_of_forall caps _) run
  intro before action after rolling capped one
  cases action with
  | cacheResult p writer result =>
      simp only [Writers.step] at one
      split at one
      · cases one
        exact rolling.sent json ‹_› (proper_cacheResult json capped)
      · cases one
  | command p =>
      simp only [Writers.step] at one
      split at one
      · cases one
        exact rolling.executed json positive ‹_›
      · cases one

theorem flatMap_update_perm {pipelines : List P} (distinct : pipelines.Nodup) {p : P} (among : p ∈ pipelines)
    (pending : P → List (Redis.Command Text)) (commands : List (Redis.Command Text)) (k : String) :
    (pipelines.flatMap fun q => (Function.update pending p commands q).filterMap (Redis.Command.pushedTo k)).Perm
      (commands.filterMap (Redis.Command.pushedTo k) ++
        (pipelines.erase p).flatMap fun q => (pending q).filterMap (Redis.Command.pushedTo k)) := by
  refine ((List.perm_cons_erase among).flatMap_right _).trans ?_
  rw [List.flatMap_cons, Function.update_self]
  refine List.Perm.append_left _ (List.Perm.of_eq (List.flatMap_congr fun q member => ?_))
  have apart : q ≠ p := by
    rintro rfl
    exact (distinct.not_mem_erase) member
  rw [Function.update_of_ne apart]

/-- However the pipelines interleave, what was pushed to the key and what is still
to be pushed are the payloads of the results for it, one for each call. -/
theorem pushed_owed_perm {pipelines : List P} (distinct : pipelines.Nodup) (k : String) {actions : List (Action P)}
    {w : Writers Text P} (among : ∀ action ∈ actions, action.pipeline ∈ pipelines)
    (sends : ∀ action ∈ actions, action.Sends json) (run : exec (Writers.step json) actions Writers.fresh = some w) :
    (w.pushed k ++ owed k pipelines w).Perm (actions.flatMap (Action.pushes json k)) := by
  refine exec_record (fun past w => (∀ action ∈ past, action.pipeline ∈ pipelines) →
    (∀ action ∈ past, action.Sends json) →
      (w.pushed k ++ owed k pipelines w).Perm (past.flatMap (Action.pushes json k))) ?_ ?_ run among sends
  · intro past w action next before one among sends
    obtain ⟨earlier, here⟩ := List.forall_mem_append.mp among
    obtain ⟨sent, now⟩ := List.forall_mem_append.mp sends
    have own : action.pipeline ∈ pipelines := here action (List.mem_singleton.mpr rfl)
    have rest := before earlier sent
    have still := flatMap_update_perm distinct own w.pending (w.pending action.pipeline) k
    rw [Function.update_eq_self] at still
    rw [List.flatMap_append, List.flatMap_singleton]
    cases action with
    | cacheResult p writer result =>
        simp only [Writers.step] at one
        split at one
        · rename_i idle
          cases one
          obtain ⟨commands, goes⟩ := Option.ne_none_iff_exists'.mp (now _ (List.mem_singleton.mpr rfl))
          have more := flatMap_update_perm distinct own w.pending commands k
          rw [pushes_cacheResult json goes k p] at more
          have empty : w.pending (Action.cacheResult p writer result).pipeline = [] := idle
          rw [empty, List.filterMap_nil, List.nil_append] at still
          rw [goes, Option.getD_some]
          have added := (more.trans (still.symm.append_left _)).trans List.perm_append_comm
          exact ((added.append_left (w.pushed k)).trans (List.Perm.of_eq (List.append_assoc _ _ _).symm)).trans
            (rest.append_right _)
        · cases one
    | command p =>
        simp only [Writers.step] at one
        split at one
        · rename_i command later at_
          cases one
          have fewer := flatMap_update_perm distinct own w.pending later k
          have head : w.pending (Action.command p).pipeline = command :: later := at_
          have first : (command :: later).filterMap (Redis.Command.pushedTo k) =
              (command.pushedTo k).toList ++ later.filterMap (Redis.Command.pushedTo k) := by
            cases item : command.pushedTo k <;> simp [item]
          rw [head, first, List.append_assoc] at still
          have moved := still.trans (fewer.symm.append_left _)
          change (recordPush w.pushed command k ++ owed k pipelines _).Perm _
          rw [Action.pushes, List.append_nil, recordPush_eq]
          refine List.Perm.trans ?_ ((moved.symm.append_left (w.pushed k)).trans rest)
          rw [← List.append_assoc]
          exact List.perm_append_comm.append_right _
        · cases one
  · intro _ _
    simp [owed, Writers.fresh]

/-- However the pipelines of any writers interleave, the list is a prefix of
what was pushed with at least its newest `min n pushes` entries, and once they
are done `get_cache` gives the newest `min n pushes` payloads, cut to `limit`. -/
theorem rolling_list {k : String} {n : Nat} (positive : 1 ≤ n) {actions : List (Action P)} {w : Writers Text P}
    (caps : ∀ action ∈ actions, action.Caps k n) (run : exec (Writers.step json) actions Writers.fresh = some w) :
    ∃ payloads : List Value, w.pushed k = payloads.map json.dumps ∧
      (∃ m, min n payloads.length ≤ m ∧ w.db.listAt k = (payloads.take m).map json.dumps) ∧
      ((∀ p, w.pending p = []) → payloads ≠ [] → ∀ falsy limit,
        getCache json w.db falsy k limit = some (some (.list (cut limit (payloads.take n))))) := by
  have rolling := rolling_of_run json positive caps run
  obtain ⟨payloads, texts⟩ := rolling.payloads
  refine ⟨payloads, texts, ?_, fun done pushed falsy limit => ?_⟩
  · obtain ⟨m, enough, list⟩ := rolling.recent
    rw [texts, List.length_map] at enough
    exact ⟨m, enough, by rw [list, texts, List.map_take]⟩
  · have stored : w.db.listAt k = (payloads.take n).map json.dumps := by
      rw [rolling.listAt_of_done json done, texts, List.map_take]
    have filled : payloads.take n ≠ [] := by
      rw [Ne, List.take_eq_nil_iff]
      rintro (zero | empty)
      · omega
      · exact pushed empty
    exact getCache_of_list json rolling.lists stored filled falsy limit

def overtaken : List (Action Bool) := [
  .cacheResult true .marketDataScanner ⟨.str "first", some "alerts", some 0, none, some 1⟩,
  .cacheResult false .finlightDataProcessor ⟨.str "second", some "alerts", some 0, none, some 1⟩,
  .command true, .command false, .command true, .command false]

theorem rolling_list_overtaken : ∃ w, exec (Writers.step Json.document) overtaken Writers.fresh = some w ∧
    ∃ payloads : List Value, w.pushed "alerts" = payloads.map Json.document.dumps ∧
      (∃ m, min 1 payloads.length ≤ m ∧ w.db.listAt "alerts" = (payloads.take m).map Json.document.dumps) ∧
      ((∀ p, w.pending p = []) → payloads ≠ [] → ∀ falsy limit,
        getCache Json.document w.db falsy "alerts" limit = some (some (.list (cut limit (payloads.take 1))))) := by
  obtain ⟨w, run⟩ : ∃ w, exec (Writers.step Json.document) overtaken Writers.fresh = some w := ⟨_, rfl⟩
  refine ⟨w, run, rolling_list Json.document (Nat.le_refl 1) ?_ run⟩
  simp [overtaken, Action.Caps]

end

end KuhlHausMdp.RollingList
