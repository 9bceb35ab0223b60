import Mathlib
import KuhlHausMdp.FinlightSimpleListener.Accounting
import KuhlHausMdp.NewsFeed

/-! The news from end to end: from the articles that `FinlightSimpleListener`
receives, through its publisher, the queue and any number of processors, to the
lists that `get_cache` reads. -/

set_option autoImplicit false

namespace KuhlHausMdp

abbrev NewsIngestion (F Text : Type*) := Produced (FinlightSimpleListener F Text) Text (Redis.Command Text)

namespace NewsIngestion

open Redis Transition

variable {F Text : Type*}

abbrev Action (F Text : Type*) := Produced.Action (FinlightSimpleListener.Action F) Text Unit Unit

def fresh : NewsIngestion F Text := Produced.fresh FinlightSimpleListener.fresh

def bodiesOf (listener : FinlightSimpleListener F Text) : List Text := NewsFeed.bodiesOf listener.queues

variable (number : F → ℚ) (setting : NewsFeed.Setting Text)

def step : NewsIngestion F Text → Action F Text → Option (NewsIngestion F Text) :=
  Produced.step (FinlightSimpleListener.step number setting.json) bodiesOf (fun _ => ())
    fun _ body => setting.commands body

def arrived (actions : List (Action F Text)) : List (Serde.Obj F) :=
  (actions.filterMap Produced.Action.ofProducer).filterMap FinlightSimpleListener.Action.arrived

def owed (actions : List (Action F Text)) (key : String) : List Text :=
  setting.due key ((arrived actions).filterMap (FinlightSimpleListener.written number setting.json))

/-- The listener's publisher is connected, and the broker takes and confirms what it publishes. -/
def Delivering (s : NewsIngestion F Text) : Action F Text → Prop
  | .producer action => s.producer.Delivering action
  | .work _ => True

instance (s : NewsIngestion F Text) : ∀ action : Action F Text, Decidable (Delivering s action)
  | .producer action => inferInstanceAs (Decidable (s.producer.Delivering action))
  | .work _ => isTrue trivial

variable {number setting} {s : NewsIngestion F Text}

theorem grows {listener next : FinlightSimpleListener F Text} {action : FinlightSimpleListener.Action F}
    (one : listener.step number setting.json action = some next) : bodiesOf listener <+: bodiesOf next := by
  obtain ⟨more, grown⟩ := FinlightSimpleListener.published_of_step one
  rw [bodiesOf, bodiesOf, NewsFeed.bodiesOf, NewsFeed.bodiesOf, grown, List.map_append]
  exact List.prefix_append _ _

theorem sent_of_run {actions : List (Action F Text)} (run : exec (step number setting) actions fresh = some s) :
    s.work.sent = bodiesOf s.producer :=
  Produced.sent_of_run grows rfl run

theorem permits {s : NewsIngestion F Text} {action : Action F Text} (_ : True) (delivering : Delivering s action) :
    ∀ move, action.ofProducer = some move → s.producer.Delivering move := by
  intro move same
  cases action with
  | producer => cases same; exact delivering
  | work => cases same

theorem bodies_toNews (bodies : List Text) :
    (bodies.map FinlightSimpleListener.toNews).map Publication.body = bodies := by
  rw [List.map_map]
  exact List.map_id bodies

theorem sent_subperm {actions : List (Action F Text)} (run : exec (step number setting) actions fresh = some s) :
    s.work.sent.Subperm ((arrived actions).filterMap (FinlightSimpleListener.written number setting.json)) := by
  obtain ⟨taken, shuffled, part⟩ := (FinlightSimpleListener.record_of_run (Produced.producer_of_run run)).subperm
  rw [sent_of_run run, ← bodies_toNews ((arrived actions).filterMap _)]
  exact ⟨taken.map Publication.body, shuffled.map _, part.map _⟩

theorem sent_perm {actions : List (Action F Text)} (run : exec (step number setting) actions fresh = some s)
    (genuine : ∀ article ∈ arrived actions, FinlightSimpleListener.Genuine article)
    (delivering : Along (step number setting) Delivering actions fresh)
    (done : ∀ handler ∈ s.producer.handlers, handler.ended = true) :
    s.work.sent.Perm ((arrived actions).filterMap (FinlightSimpleListener.written number setting.json)) := by
  have listened := Produced.producer_of_run run
  have along : Along (FinlightSimpleListener.step number setting.json) FinlightSimpleListener.Delivering
      (actions.filterMap Produced.Action.ofProducer) FinlightSimpleListener.fresh :=
    Produced.along_producer (Along.mono (fun _ => True) (fun _ _ _ => trivial) permits trivial delivering) run
  have taken := FinlightSimpleListener.taken_of_run genuine along listened done
  have all := ((FinlightSimpleListener.record_of_run listened).perm fun handler member =>
    (taken handler member).1).map Publication.body
  rw [sent_of_run run]
  rwa [bodies_toNews] at all

theorem articlesOnly_of_run {actions : List (Action F Text)} (run : exec (step number setting) actions fresh = some s) :
    NewsFeed.Articles setting s.work := by
  refine ⟨Produced.consistent_of_run run, fun body member => ?_⟩
  obtain ⟨article, -, written⟩ := List.mem_filterMap.mp ((sent_subperm run).subset member)
  exact FinlightSimpleListener.dumps_of_written written

def listed : Serde.Obj ℚ :=
  .object [("companies", .list [
    .object [("primaryListing", .object [("exchangeCode", .str "XNAS"), ("ticker", .str "GOOG")])]])]

theorem keyed_listed : listed.Keyed := by
  have primary : (Serde.Obj.object (F := ℚ) [("exchangeCode", .str "XNAS"), ("ticker", .str "GOOG")]).Keyed :=
    .object (by decide) (by simp [Serde.Obj.Keyed.str])
  have company : (Serde.Obj.object (F := ℚ) [("primaryListing", _)]).Keyed := .object (by simp) (by simpa using primary)
  refine .object (by decide) fun entry member => ?_
  cases List.mem_singleton.mp member
  exact .list (by simpa using company)

def oneArticle : List (Action ℚ Value) := [
  .producer (.rabbit FinlightSimpleListener.connecting), .producer .start, .producer (.begin 0),
  .producer (.article 0 listed), .producer (.handle 0), .producer (.confirm 0 .confirmed)]

/-- Two articles arrive; the connection to Redis is lost after the first command
for the one, and the other is still with the listener. -/
def underWay : List (Action ℚ Value) :=
  oneArticle ++ [.work (.deliver ()), .work (.resume 0 ()), .work (.resume 0 ()), .producer (.article 0 listed),
    .work (.fail 0)]

def handled : List (Action ℚ Value) := oneArticle ++ .work (.deliver ()) :: List.replicate 10 (.work (.resume 0 ()))

/-- Unless the broker redelivers, no article is in a list more often than it arrived
and mentions it, and none that did not arrive. -/
theorem pushed_subperm_owed {actions : List (Action F Text)} (run : exec (step number setting) actions fresh = some s)
    (once : ∀ action ∈ actions, action.redelivers = false) (key : String) :
    (pushed key s.work.executed).Subperm (owed number setting actions key) := by
  obtain ⟨moves, along, works⟩ :=
    Produced.work_of_undisturbed (fun redelivers _ => redelivers = false) rfl run once
  have within := (articlesOnly_of_run run).pushed_subperm (WorkQueue.inLane_sublist works along) key
  obtain ⟨some, shuffled, part⟩ := sent_subperm run
  have monotone : (setting.due key s.work.sent).Subperm (owed number setting actions key) :=
    ⟨setting.due key some, shuffled.flatMap_right _, part.flatMap _⟩
  exact within.trans monotone

theorem pushed_underWay : ∃ s, exec (step id NewsFeed.demo) underWay fresh = some s ∧ s.work.executed.length = 1 ∧
    (pushed WidgetDataCacheKeys.NEWS_FEED_LATEST s.work.executed).Subperm
      (owed id NewsFeed.demo underWay WidgetDataCacheKeys.NEWS_FEED_LATEST) := by
  obtain ⟨s, run, one⟩ : ∃ s, exec (step id NewsFeed.demo) underWay fresh = some s ∧ s.work.executed.length = 1 :=
    ⟨_, rfl, rfl⟩
  exact ⟨s, run, one, pushed_subperm_owed run (by decide) _⟩

/-- While the listener's publisher is connected and nothing is refused, redelivered
or lost: once every article is handled, each has been pushed to each key just as
often as it mentions it, and as often announced, and until the lifetime of the
key runs out `get_cache` gives the newest. -/
theorem getCache_arrived {actions : List (Action F Text)} (run : exec (step number setting) actions fresh = some s)
    (genuine : ∀ article ∈ arrived actions, FinlightSimpleListener.Genuine article)
    (delivering : Along (step number setting) Delivering actions fresh)
    (undisturbed : ∀ action ∈ actions, action.redelivers = false ∧ action.loses = false)
    (done : ∀ handler ∈ s.producer.handlers, handler.ended = true) (idle : s.work.Idle) {key : String}
    (positive : 1 ≤ setting.listMax key) {log : List (Int × Command Text)} {now : Int}
    (timed : Timed log s.work.executed now) (lasts : Aging.empty.Lasts key now log) :
    (published key s.work.executed).Perm (owed number setting actions key) ∧
      ∃ articles : List Value, (articles.map setting.json.dumps).Perm (owed number setting actions key) ∧
        ∀ (falsy : Text → Bool) (limit : Int), 0 < limit → limit ≤ setting.listMax key →
          RollingList.getCache setting.json (Database.at log now) falsy key limit =
            if articles = [] then some none else some (some (.list (articles.take limit.toNat))) := by
  obtain ⟨moves, along, works⟩ :=
    Produced.work_of_undisturbed (fun redelivers loses => redelivers = false ∧ loses = false) ⟨rfl, rfl⟩ run
      undisturbed
  have articles := articlesOnly_of_run run
  have all : (setting.due key s.work.sent).Perm (owed number setting actions key) :=
    (sent_perm run genuine delivering done).flatMap_right _
  obtain ⟨pushes, messages⟩ := articles.pushed_perm (WorkQueue.whole_of_run works along) idle key
  obtain ⟨newest, texts, -, -, read⟩ := articles.getCache positive timed
  rw [texts] at pushes
  exact ⟨messages.trans all, newest, pushes.trans all, read lasts⟩

theorem getCache_arrived_handled : ∃ s, exec (step id NewsFeed.demo) handled fresh = some s ∧
    s.work.executed.length = 8 ∧
    (published (WidgetDataCacheKeys.NEWS_TICKER "GOOG") s.work.executed).Perm
      (owed id NewsFeed.demo handled (WidgetDataCacheKeys.NEWS_TICKER "GOOG")) ∧
    ∃ articles : List Value,
      (articles.map NewsFeed.demo.json.dumps).Perm
        (owed id NewsFeed.demo handled (WidgetDataCacheKeys.NEWS_TICKER "GOOG")) ∧
      ∀ (falsy : Value → Bool) (limit : Int), 0 < limit →
        limit ≤ NewsFeed.demo.listMax (WidgetDataCacheKeys.NEWS_TICKER "GOOG") →
        RollingList.getCache NewsFeed.demo.json (Database.at (s.work.executed.map (Prod.mk 0)) 60000) falsy
            (WidgetDataCacheKeys.NEWS_TICKER "GOOG") limit =
          if articles = [] then some none else some (some (.list (articles.take limit.toNat))) := by
  have genuine : ∀ article ∈ arrived handled, FinlightSimpleListener.Genuine article := by
    intro article member
    cases List.mem_singleton.mp member
    exact ⟨_, rfl, keyed_listed⟩
  obtain ⟨s, run, done, idle, eight, commands, past, lasts⟩ :
      ∃ s, exec (step id NewsFeed.demo) handled fresh = some s ∧
      (∀ handler ∈ s.producer.handlers, handler.ended = true) ∧ s.work.Idle ∧ s.work.executed.length = 8 ∧
      (s.work.executed.map (Prod.mk (0 : Int))).map Prod.snd = s.work.executed ∧
      (∀ one ∈ s.work.executed.map (Prod.mk (0 : Int)), one.1 ≤ 60000) ∧
      Aging.empty.Lasts (WidgetDataCacheKeys.NEWS_TICKER "GOOG") 60000 (s.work.executed.map (Prod.mk 0)) :=
    ⟨_, rfl, by decide, by decide, rfl, rfl, by decide, by decide⟩
  exact ⟨s, run, eight,
    getCache_arrived run genuine (by decide) (by decide) done idle (by decide) ⟨commands, past⟩ lasts⟩

end NewsIngestion
end KuhlHausMdp
