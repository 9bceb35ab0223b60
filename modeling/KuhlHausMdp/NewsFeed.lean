import Mathlib
import KuhlHausMdp.FinlightDataAnalyzer.Analyzer
import KuhlHausMdp.FinlightDataQueues
import KuhlHausMdp.Library.Expiry
import KuhlHausMdp.Library.Produced
import KuhlHausMdp.RollingList

/-! The way of the news: `FinlightDataQueues` publishes articles to a queue of
RabbitMQ, any number of `FinlightDataProcessor`s take them from it, and Redis
executes their pipelines one command at a time. -/

set_option autoImplicit false

namespace KuhlHausMdp

namespace FinlightDataAnalyzer

def MarketDataAnalyzerResult.toCache (result : MarketDataAnalyzerResult) : RollingList.MarketDataAnalyzerResult where
  data := result.data
  cacheKey := some result.cacheKey
  cacheTtl := some result.cacheTtl
  publishKey := some result.publishKey
  cacheListMax := some result.cacheListMax

end FinlightDataAnalyzer

/-- The news publisher, and the queue in RabbitMQ with the tasks of the processors and
what Redis has executed of their pipelines. -/
abbrev NewsFeed (Text : Type*) := Produced (FinlightDataQueues Text) Text (Redis.Command Text)

namespace NewsFeed

open Redis Transition

/-- The JSON library, what the analyzer leaves to the interpreter, and its options. -/
structure Setting (Text : Type*) where
  json : Json Text
  uppercase : Char → List Char
  shown : Value → String
  analyzer : FinlightDataAnalyzer

variable {Text : Type*}

namespace Setting

variable (setting : Setting Text)

/-- What the processor caches for an article; nothing when the analysis raises. -/
def results (data : Value) : List FinlightDataAnalyzer.MarketDataAnalyzerResult :=
  ((setting.analyzer.analyzeData setting.uppercase setting.shown data).getD none).getD []

def pipeline (result : FinlightDataAnalyzer.MarketDataAnalyzerResult) : List (Command Text) :=
  (RollingList.cacheResult setting.json .finlightDataProcessor result.toCache).getD []

def pipelines (data : Value) : List (Command Text) :=
  (setting.results data).flatMap setting.pipeline

def commands (body : Text) : List (Command Text) :=
  match setting.json.loads body with
  | some data => setting.pipelines data
  | none => []

def mentions (key : String) (data : Value) : Nat :=
  (FinlightDataAnalyzer.publishKeys (setting.results data)).count key

def listMax (key : String) : Nat :=
  if key = WidgetDataCacheKeys.NEWS_FEED_LATEST then setting.analyzer.newsFeedListMax
  else setting.analyzer.newsTickerListMax

end Setting

abbrev Action (Text : Type*) := Produced.Action FinlightDataQueues.Action Text Unit Unit

def fresh : NewsFeed Text := Produced.fresh FinlightDataQueues.fresh

variable (setting : Setting Text)

def bodiesOf (publisher : FinlightDataQueues Text) : List Text := publisher.published.map Publication.body

/-- There is one queue, and an analysis reads nothing from outside. -/
def step : NewsFeed Text → Action Text → Option (NewsFeed Text) :=
  Produced.step (FinlightDataQueues.step setting.json) bodiesOf (fun _ => ()) fun _ body => setting.commands body

/-- The articles that the broker has taken for the queue, oldest first. -/
def bodies (s : NewsFeed Text) : List Text := bodiesOf s.producer

/-! The pipelines for one article. -/

variable {setting}

theorem results_spec {data : Value} {result : FinlightDataAnalyzer.MarketDataAnalyzerResult}
    (member : result ∈ setting.results data) :
    result.data = data ∧ result.publishKey = result.cacheKey ∧ result.cacheKey ≠ "" ∧
      result.cacheListMax = setting.listMax result.cacheKey := by
  unfold Setting.results FinlightDataAnalyzer.analyzeData at member
  split at member
  · split at member
    · rename_i entries _
      cases found : FinlightDataAnalyzer.tickersOf setting.uppercase setting.shown (.dict entries) with
      | none => simp [found] at member
      | some tickers =>
          simp only [found, Option.map_some, Option.getD_some, List.mem_cons, List.mem_map] at member
          rcases member with rfl | ⟨ticker, -, rfl⟩
          · have feed : WidgetDataCacheKeys.NEWS_FEED_LATEST ≠ "" := by decide
            exact ⟨rfl, rfl, feed, (if_pos rfl).symm⟩
          · refine ⟨rfl, rfl, ?_, (if_neg (FinlightDataAnalyzer.NEWS_TICKER_ne_feed ticker)).symm⟩
            intro empty
            have letters := congrArg (fun s => s.toList.take 1) empty
            rw [FinlightDataAnalyzer.tickerResult, WidgetDataCacheKeys.NEWS_TICKER, String.toList_append,
              List.take_append_of_le_length (by decide)] at letters
            exact absurd letters (by decide)
    · simp at member
  · simp at member

theorem pipeline_eq {data : Value} {result : FinlightDataAnalyzer.MarketDataAnalyzerResult}
    (member : result ∈ setting.results data) :
    setting.pipeline result =
      [.lpush result.cacheKey (setting.json.dumps data),
        .ltrim result.cacheKey 0 (setting.listMax result.cacheKey - 1)] ++
        (if 0 < result.cacheTtl then [.expire result.cacheKey result.cacheTtl] else []) ++
          [.publish result.cacheKey (setting.json.dumps data)] := by
  obtain ⟨rfl, published, given, most⟩ := results_spec member
  simp only [Setting.pipeline, RollingList.cacheResult, RollingList.pipeline, RollingList.given,
    RollingList.Writer.positive, FinlightDataAnalyzer.MarketDataAnalyzerResult.toCache, published, most,
    Option.filter_some, given, ne_eq, not_false_eq_true, decide_true, if_true, Option.map_some, Option.getD_some,
    Int.natCast_pos, decide_eq_true_eq]

theorem rolls_pipeline {data : Value} {result : FinlightDataAnalyzer.MarketDataAnalyzerResult}
    (member : result ∈ setting.results data) (key : String) :
    ∀ command ∈ setting.pipeline result, command.Rolls key (setting.listMax key) := by
  intro command sent
  rw [pipeline_eq member] at sent
  simp only [List.cons_append, List.nil_append, List.mem_cons, List.mem_append, List.not_mem_nil, or_false] at sent
  rcases sent with rfl | rfl | sent | rfl
  · trivial
  · intro here
    exact ⟨rfl, by rw [here]⟩
  · split at sent
    · rename_i lasting
      rw [List.mem_singleton.mp sent]
      intro
      exact Int.natCast_pos.mpr lasting
    · exact absurd sent List.not_mem_nil
  · trivial

theorem pushed_pipeline {data : Value} {result : FinlightDataAnalyzer.MarketDataAnalyzerResult}
    (member : result ∈ setting.results data) (key : String) :
    pushed key (setting.pipeline result) = if result.cacheKey = key then [setting.json.dumps data] else [] := by
  rw [pipeline_eq member]
  by_cases here : result.cacheKey = key <;> split <;> simp [pushed, Command.pushedTo, here]

theorem published_pipeline {data : Value} {result : FinlightDataAnalyzer.MarketDataAnalyzerResult}
    (member : result ∈ setting.results data) (key : String) :
    published key (setting.pipeline result) = pushed key (setting.pipeline result) := by
  rw [pushed_pipeline member, pipeline_eq member]
  by_cases here : result.cacheKey = key <;> split <;> simp [published, Command.publishedOn, here]

theorem announced_pipeline {data : Value} {result : FinlightDataAnalyzer.MarketDataAnalyzerResult}
    (member : result ∈ setting.results data) (key : String) : Announced key (setting.pipeline result) := by
  intro part starts
  have whole := pipeline_eq member
  rw [whole] at starts
  rcases List.prefix_concat_iff.mp starts with all | before
  · rw [all, ← whole, published_pipeline member]
  · have silent : published key part = [] := by
      apply List.eq_nil_of_sublist_nil
      have some := before.sublist.filterMap (Command.publishedOn key)
      refine some.trans (List.sublist_nil.mpr ?_)
      split <;> rfl
    rw [silent]
    exact List.nil_subperm

theorem flatMap_keys (key : String) (text : Text) {results : List FinlightDataAnalyzer.MarketDataAnalyzerResult}
    (same : ∀ result ∈ results, result.publishKey = result.cacheKey) :
    (results.flatMap fun result => if result.cacheKey = key then [text] else []) =
      List.replicate ((FinlightDataAnalyzer.publishKeys results).count key) text := by
  induction results with
  | nil => rfl
  | cons result rest ih =>
      obtain ⟨here, later⟩ := List.forall_mem_cons.mp same
      rw [List.flatMap_cons, ih later]
      simp only [FinlightDataAnalyzer.publishKeys, List.map_cons, List.count_cons, here]
      by_cases hit : result.cacheKey = key <;> simp [hit, List.replicate_succ]

theorem published_pipelines (setting : Setting Text) (key : String) (data : Value) :
    published key (setting.pipelines data) = List.replicate (setting.mentions key data) (setting.json.dumps data) := by
  rw [Setting.pipelines, published_flatMap, Setting.mentions,
    ← flatMap_keys key _ fun result member => (results_spec member).2.1]
  apply List.flatMap_congr
  intro result member
  rw [published_pipeline member, pushed_pipeline member]

theorem pushed_pipelines (setting : Setting Text) (key : String) (data : Value) :
    pushed key (setting.pipelines data) = List.replicate (setting.mentions key data) (setting.json.dumps data) := by
  rw [← List.perm_replicate, ← published_pipelines, Setting.pipelines, published_flatMap]
  refine (pushed_flatMap_perm key _ _).trans (List.Perm.of_eq ?_)
  apply List.flatMap_congr
  intro result member
  rw [published_pipeline member]

theorem announced_pipelines (setting : Setting Text) (key : String) (data : Value) :
    Announced key (setting.pipelines data) :=
  announced_flatMap fun _ member => announced_pipeline member key

theorem rolls_pipelines (setting : Setting Text) (key : String) (data : Value) :
    ∀ command ∈ setting.pipelines data, command.Rolls key (setting.listMax key) := by
  intro command sent
  obtain ⟨result, member, sent⟩ := List.mem_flatMap.mp sent
  exact rolls_pipeline member key command sent

theorem mentions_feed (setting : Setting Text) (data : Value) :
    setting.mentions WidgetDataCacheKeys.NEWS_FEED_LATEST data = if setting.results data = [] then 0 else 1 := by
  unfold Setting.mentions Setting.results
  cases returned : setting.analyzer.analyzeData setting.uppercase setting.shown data with
  | none => rfl
  | some answer =>
      cases answer with
      | none => rfl
      | some results =>
          obtain ⟨tickers, -, keys⟩ := FinlightDataAnalyzer.analyzeData_eq_some _ _ _ returned
          have filled : results ≠ [] := by
            rintro rfl
            cases keys
          have others : WidgetDataCacheKeys.NEWS_FEED_LATEST ∉ tickers.map WidgetDataCacheKeys.NEWS_TICKER := by
            intro member
            obtain ⟨ticker, -, same⟩ := List.mem_map.mp member
            exact FinlightDataAnalyzer.NEWS_TICKER_ne_feed ticker same
          rw [Option.getD_some, Option.getD_some, if_neg filled, keys, List.count_cons_self,
            List.count_eq_zero_of_not_mem others]

/-! What is in the queue. -/

/-- A queue in which every message is an article, as far as its processors have got. -/
structure Articles (setting : Setting Text) (work : WorkQueue Text (Command Text)) : Prop where
  consistent : WorkQueue.Consistent (fun (_ : Unit) body => setting.commands body) work
  written : ∀ body ∈ work.sent, ∃ data, body = setting.json.dumps data

variable {s : NewsFeed Text}

theorem grows {self next : FinlightDataQueues Text} {action : FinlightDataQueues.Action}
    (one : FinlightDataQueues.step setting.json self action = some next) : bodiesOf self <+: bodiesOf next := by
  obtain ⟨values, grown, -⟩ := FinlightDataQueues.step_offered one
  rw [bodiesOf, bodiesOf, grown, List.map_append]
  exact List.prefix_append _ _

theorem sent_of_run {actions : List (Action Text)} (run : exec (step setting) actions fresh = some s) :
    s.work.sent = bodies s :=
  Produced.sent_of_run grows rfl run

theorem articlesOnly_of_run {actions : List (Action Text)} (run : exec (step setting) actions fresh = some s) :
    Articles setting s.work := by
  refine ⟨Produced.consistent_of_run run, fun body member => ?_⟩
  obtain ⟨values, published, -⟩ := FinlightDataQueues.offered_of_run (Produced.producer_of_run run)
  rw [sent_of_run run, bodies, bodiesOf, published, List.map_map] at member
  obtain ⟨value, -, rfl⟩ := List.mem_map.mp member
  exact ⟨value, rfl⟩

/-! What Redis holds. -/

variable {work : WorkQueue Text (Command Text)}

theorem commands_dumps (setting : Setting Text) (data : Value) :
    setting.commands (setting.json.dumps data) = setting.pipelines data := by
  simp only [Setting.commands, setting.json.loads_dumps]

theorem Articles.origin (articles : Articles setting work) {command : Command Text} (member : command ∈ work.executed) :
    ∃ data, setting.json.dumps data ∈ work.sent ∧ command ∈ setting.pipelines data := by
  obtain ⟨body, sent, -, planned⟩ := articles.consistent.origin member
  obtain ⟨data, rfl⟩ := articles.written body sent
  exact ⟨data, sent, commands_dumps setting data ▸ planned⟩

theorem Articles.pushed (articles : Articles setting work) (key : String) {text : Text}
    (member : text ∈ pushed key work.executed) :
    ∃ data, text = setting.json.dumps data ∧ setting.json.dumps data ∈ work.sent ∧ 0 < setting.mentions key data := by
  obtain ⟨command, executed, pushes⟩ := List.mem_filterMap.mp (List.mem_reverse.mp member)
  obtain ⟨data, sent, planned⟩ := articles.origin executed
  have among : text ∈ Redis.pushed key (setting.pipelines data) :=
    List.mem_reverse.mpr (List.mem_filterMap.mpr ⟨command, planned, pushes⟩)
  rw [pushed_pipelines, List.mem_replicate] at among
  exact ⟨data, among.2, sent, Nat.pos_of_ne_zero among.1⟩

/-- What `get_cache` makes of a list that keeps its newest items. -/
theorem getCache_of_keeps {db : Database Text} {key : String} {least : Nat} {newest : List Value} (json : Json Text)
    (filled : db.NoneEmpty) (keeps : db.Keeps key least (newest.map json.dumps)) :
    ∃ kept, min least newest.length ≤ kept ∧ ∀ (falsy : Text → Bool) (limit : Int), 0 < limit →
      RollingList.getCache json db falsy key limit =
        if newest.take kept = [] then some none else some (some (.list ((newest.take kept).take limit.toNat))) := by
  obtain ⟨lists, m, enough, list⟩ := keeps
  rw [List.length_map] at enough
  rw [← List.map_take] at list
  refine ⟨m, enough, fun falsy limit cutting => ?_⟩
  by_cases none : newest.take m = []
  · rw [if_pos none]
    have absent : db.entries key = .none := by
      have stored := Database.entries_ne_none_iff filled lists
      exact not_not.mp fun found => stored.mp found (by rw [list, none]; rfl)
    simp only [RollingList.getCache, absent]
  · rw [if_neg none, RollingList.getCache_of_list json lists list none, RollingList.cut, if_pos cutting]

theorem Articles.getCache (articles : Articles setting work) {key : String} (positive : 1 ≤ setting.listMax key)
    {log : List (Int × Command Text)} {now : Int} (timed : Timed log work.executed now) :
    ∃ newest : List Value, Redis.pushed key work.executed = newest.map setting.json.dumps ∧
      (∀ data ∈ newest, setting.json.dumps data ∈ work.sent ∧ 0 < setting.mentions key data) ∧
      (∃ kept, ∀ (falsy : Text → Bool) (limit : Int), 0 < limit →
        RollingList.getCache setting.json (Database.at log now) falsy key limit =
          if newest.take kept = [] then some none else some (some (.list ((newest.take kept).take limit.toNat)))) ∧
      (Aging.empty.Lasts key now log → ∀ (falsy : Text → Bool) (limit : Int), 0 < limit →
        limit ≤ setting.listMax key → RollingList.getCache setting.json (Database.at log now) falsy key limit =
          if newest = [] then some none else some (some (.list (newest.take limit.toNat)))) := by
  obtain ⟨newest, texts, each⟩ := exists_map_eq fun text member => articles.pushed key member
  have rolls {command : Command Text} (member : command ∈ work.executed) :
      command.Rolls key (setting.listMax key) := by
    obtain ⟨data, -, sent⟩ := articles.origin member
    exact rolls_pipelines setting key data command sent
  have filled : (Database.at log now).NoneEmpty := Aging.noneEmpty_left (Aging.noneEmpty_after log) now
  refine ⟨newest, texts, each, ?_, fun lasts falsy limit cutting within => ?_⟩
  · have keeps := Aging.keeps_after positive fun one member => rolls (timed.mem member)
    rw [timed.commands, texts] at keeps
    obtain ⟨kept, -, read⟩ := getCache_of_keeps setting.json filled (Aging.keeps_left keeps now)
    exact ⟨kept, read⟩
  · have keeps : (Database.at log now).Keeps key (setting.listMax key) (newest.map setting.json.dumps) := by
      have same := entries_at_of_lasts lasts
      rw [timed.commands] at same
      obtain ⟨lists, m, enough, list⟩ := keeps_after positive fun command => rolls
      exact ⟨fun value => same ▸ lists value, m, texts ▸ enough, texts ▸ (Database.listAt_congr same).trans list⟩
    obtain ⟨kept, enough, read⟩ := getCache_of_keeps setting.json filled keeps
    rw [read falsy limit cutting, List.take_take]
    have nothing : newest.take kept = [] ↔ newest = [] := by
      rw [List.take_eq_nil_iff, ← List.length_eq_zero_iff]
      omega
    have same : newest.take (min limit.toNat kept) = newest.take limit.toNat := by
      rw [List.take_eq_take_iff]
      omega
    simp only [nothing, same]

def demo : Setting Value := ⟨Json.document, fun c => [c], fun _ => "", {}⟩

def oneArticle : List (Action Value) := [
  .producer (.rabbit (.connect ⟨true, fun _ => true, fun _ => true⟩)),
  .producer (.handleMessage (.dict (some FinlightDataAnalyzer.onceListed)) .confirmed)]

def handled : List (Action Value) := oneArticle ++ .work (.deliver ()) :: List.replicate 10 (.work (.resume 0 ()))

def cutShort : List (Action Value) :=
  oneArticle ++ [.work (.deliver ()), .work (.resume 0 ()), .work (.resume 0 ()), .work (.fail 0)]

/-- At every moment, whatever was redelivered, lost or cut short, `get_cache` with
a limit gives for any key the newest of the articles pushed to it, all of which
were published by the news publisher and go to the key; and, unless the lifetime
of the key has run out on the way, as many of them as a limit within the cap asks for. -/
theorem getCache_of_run {actions : List (Action Text)} (run : exec (step setting) actions fresh = some s) {key : String}
    (positive : 1 ≤ setting.listMax key) {log : List (Int × Command Text)} {now : Int}
    (timed : Timed log s.work.executed now) :
    ∃ articles : List Value, pushed key s.work.executed = articles.map setting.json.dumps ∧
      (∀ data ∈ articles, setting.json.dumps data ∈ bodies s ∧ 0 < setting.mentions key data) ∧
      (∃ kept, ∀ (falsy : Text → Bool) (limit : Int), 0 < limit →
        RollingList.getCache setting.json (Database.at log now) falsy key limit =
          if articles.take kept = [] then some none
          else some (some (.list ((articles.take kept).take limit.toNat)))) ∧
      (Aging.empty.Lasts key now log → ∀ (falsy : Text → Bool) (limit : Int), 0 < limit →
        limit ≤ setting.listMax key → RollingList.getCache setting.json (Database.at log now) falsy key limit =
          if articles = [] then some none else some (some (.list (articles.take limit.toNat)))) := by
  have articles := (articlesOnly_of_run run).getCache positive timed
  rwa [sent_of_run run] at articles

/-- A week later the list is gone. -/
theorem getCache_handled : ∃ s, exec (step demo) handled fresh = some s ∧ ∀ falsy,
    RollingList.getCache demo.json (Database.at (s.work.executed.map (Prod.mk 0)) 60000) falsy
        WidgetDataCacheKeys.NEWS_FEED_LATEST 1 = some (some (.list [FinlightDataAnalyzer.onceListed])) ∧
      RollingList.getCache demo.json (Database.at (s.work.executed.map (Prod.mk 0)) 700000000) falsy
        WidgetDataCacheKeys.NEWS_FEED_LATEST 1 = some none := by
  obtain ⟨s, run, history, commands, past, lasts, passed⟩ : ∃ s, exec (step demo) handled fresh = some s ∧
      pushed WidgetDataCacheKeys.NEWS_FEED_LATEST s.work.executed = [FinlightDataAnalyzer.onceListed] ∧
      (s.work.executed.map (Prod.mk (0 : Int))).map Prod.snd = s.work.executed ∧
      (∀ one ∈ s.work.executed.map (Prod.mk (0 : Int)), one.1 ≤ 60000) ∧
      Aging.empty.Lasts WidgetDataCacheKeys.NEWS_FEED_LATEST 60000 (s.work.executed.map (Prod.mk 0)) ∧
      ∀ falsy, RollingList.getCache demo.json (Database.at (s.work.executed.map (Prod.mk 0)) 700000000) falsy
        WidgetDataCacheKeys.NEWS_FEED_LATEST 1 = some none :=
    ⟨_, rfl, rfl, rfl, by decide, by decide, fun _ => rfl⟩
  have kept : 1 ≤ demo.listMax WidgetDataCacheKeys.NEWS_FEED_LATEST := by decide
  obtain ⟨articles, texts, -, -, read⟩ := getCache_of_run run kept ⟨commands, past⟩
  have one : articles = [FinlightDataAnalyzer.onceListed] :=
    (List.map_id articles).symm.trans (texts.symm.trans history)
  refine ⟨s, run, fun falsy => ⟨?_, passed falsy⟩⟩
  rw [read lasts falsy 1 (by decide) (by decide), one]
  rfl

theorem Articles.announced (articles : Articles setting work) (key : String) :
    (published key work.executed).Subperm (Redis.pushed key work.executed) := by
  have consistent := articles.consistent
  refine subperm_of_announced consistent.executed fun task member part starts => ?_
  have known := consistent.known task.message (List.mem_append_left _ (List.mem_map_of_mem member))
  obtain ⟨data, body⟩ := articles.written task.message known
  rcases (consistent.follows task member).starts with none | ⟨-, whole⟩
  · rw [none] at starts
    rw [List.prefix_nil.mp starts]
    exact List.nil_subperm
  · rw [body, commands_dumps] at whole
    exact announced_pipelines setting key data part (starts.trans whole)

/-- At every moment, what was published on a channel is in the history of the list
of the same name: a client that first subscribes and then reads the list misses
nothing. -/
theorem announced_of_run {actions : List (Action Text)} (run : exec (step setting) actions fresh = some s)
    (key : String) : (published key s.work.executed).Subperm (pushed key s.work.executed) :=
  (articlesOnly_of_run run).announced key

theorem announced_cutShort : ∃ s, exec (step demo) cutShort fresh = some s ∧ s.work.executed.length = 1 ∧
    (published WidgetDataCacheKeys.NEWS_FEED_LATEST s.work.executed).Subperm
      (pushed WidgetDataCacheKeys.NEWS_FEED_LATEST s.work.executed) := by
  obtain ⟨s, run, one⟩ : ∃ s, exec (step demo) cutShort fresh = some s ∧ s.work.executed.length = 1 := ⟨_, rfl, rfl⟩
  exact ⟨s, run, one, announced_of_run run _⟩

/-! How often an article is pushed. -/

def Setting.due (setting : Setting Text) (key : String) (bodies : List Text) : List Text :=
  bodies.flatMap fun body =>
    match setting.json.loads body with
    | some data => List.replicate (setting.mentions key data) body
    | none => []

theorem due_commands (key : String) {bodies : List Text}
    (written : ∀ body ∈ bodies, ∃ data, body = setting.json.dumps data) :
    ∀ body ∈ bodies, ∀ _ : Unit,
      (setting.commands body).filterMap (Command.pushedTo key) = setting.due key [body] ∧
        (setting.commands body).filterMap (Command.publishedOn key) = setting.due key [body] := by
  intro body member _
  obtain ⟨data, rfl⟩ := written body member
  have one : setting.due key [setting.json.dumps data] =
      List.replicate (setting.mentions key data) (setting.json.dumps data) := by
    simp only [Setting.due, List.flatMap_singleton, setting.json.loads_dumps]
  rw [commands_dumps, one]
  refine ⟨?_, published_pipelines setting key data⟩
  have newest := pushed_pipelines setting key data
  rwa [pushed, List.reverse_eq_iff, List.reverse_replicate] at newest

theorem flatMap_due (key : String) (bodies : List Text) :
    (bodies.flatMap fun body => setting.due key [body]) = setting.due key bodies := by
  simp only [Setting.due, List.flatMap_singleton]

theorem Articles.pushed_subperm (articles : Articles setting work)
    (inOrder : ∀ l : Unit, (work.inLane (fun _ => ()) l).Sublist (work.sent.filter fun _ => () = l)) (key : String) :
    (Redis.pushed key work.executed).Subperm (setting.due key work.sent) := by
  have each := due_commands key articles.written
  have within := articles.consistent.seen_subperm inOrder fun body member input => (each body member input).1
  rw [flatMap_due] at within
  exact (List.reverse_perm _).subperm.trans within

theorem Articles.pushed_perm (articles : Articles setting work) (whole : work.Whole fun _ => ()) (idle : work.Idle)
    (key : String) :
    (Redis.pushed key work.executed).Perm (setting.due key work.sent) ∧
      (published key work.executed).Perm (setting.due key work.sent) := by
  have each := due_commands key articles.written
  have pushes := whole.seen_perm articles.consistent idle fun body member input => (each body member input).1
  have messages := whole.seen_perm articles.consistent idle fun body member input => (each body member input).2
  rw [flatMap_due] at pushes messages
  exact ⟨(List.reverse_perm _).trans pushes, messages⟩

/-- Unless the broker redelivers, no article is ever pushed to a key more often
than it mentions it, however many processors there are. -/
theorem pushed_subperm_due {actions : List (Action Text)} (run : exec (step setting) actions fresh = some s)
    (once : ∀ action ∈ actions, action.redelivers = false) (key : String) :
    (pushed key s.work.executed).Subperm (setting.due key (bodies s)) := by
  obtain ⟨moves, along, works⟩ := Produced.work_of_undisturbed (fun redelivers _ => redelivers = false) rfl run once
  rw [← sent_of_run run]
  exact (articlesOnly_of_run run).pushed_subperm (WorkQueue.inLane_sublist works along) key

theorem pushed_cutShort : ∃ s, exec (step demo) cutShort fresh = some s ∧ s.work.executed.length = 1 ∧
    (pushed (WidgetDataCacheKeys.NEWS_TICKER "GOOG") s.work.executed).Subperm
      (demo.due (WidgetDataCacheKeys.NEWS_TICKER "GOOG") (bodies s)) := by
  obtain ⟨s, run, one⟩ : ∃ s, exec (step demo) cutShort fresh = some s ∧ s.work.executed.length = 1 := ⟨_, rfl, rfl⟩
  exact ⟨s, run, one, pushed_subperm_due run (by decide) _⟩

/-- With nothing redelivered or lost, once every message is handled each article
has been pushed to each key exactly as often as it mentions it, which is once for
the feed of all news (`mentions_feed`), and as often announced. -/
theorem pushed_perm_due {actions : List (Action Text)} (run : exec (step setting) actions fresh = some s)
    (undisturbed : ∀ action ∈ actions, action.redelivers = false ∧ action.loses = false) (idle : s.work.Idle)
    (key : String) :
    (pushed key s.work.executed).Perm (setting.due key (bodies s)) ∧
      (published key s.work.executed).Perm (setting.due key (bodies s)) := by
  obtain ⟨moves, along, works⟩ :=
    Produced.work_of_undisturbed (fun redelivers loses => redelivers = false ∧ loses = false) ⟨rfl, rfl⟩ run
      undisturbed
  rw [← sent_of_run run]
  exact (articlesOnly_of_run run).pushed_perm (WorkQueue.whole_of_run works along) idle key

theorem pushed_handled : ∃ s, exec (step demo) handled fresh = some s ∧ bodies s = [FinlightDataAnalyzer.onceListed] ∧
    (pushed (WidgetDataCacheKeys.NEWS_TICKER "GOOG") s.work.executed).Perm
        (demo.due (WidgetDataCacheKeys.NEWS_TICKER "GOOG") (bodies s)) ∧
      (published (WidgetDataCacheKeys.NEWS_TICKER "GOOG") s.work.executed).Perm
        (demo.due (WidgetDataCacheKeys.NEWS_TICKER "GOOG") (bodies s)) := by
  obtain ⟨s, run, idle, taken⟩ : ∃ s, exec (step demo) handled fresh = some s ∧ s.work.Idle ∧
      bodies s = [FinlightDataAnalyzer.onceListed] :=
    ⟨_, rfl, by decide, rfl⟩
  exact ⟨s, run, taken, pushed_perm_due run (by decide) idle _⟩

end NewsFeed
end KuhlHausMdp
