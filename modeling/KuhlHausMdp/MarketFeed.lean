import Mathlib
import KuhlHausMdp.Library.Expiry
import KuhlHausMdp.Library.Produced
import KuhlHausMdp.MassiveDataAnalyzer
import KuhlHausMdp.MassiveDataQueues.Accounting

/-! The way of the raw market data: `MassiveDataQueues` publishes the provider's
messages to five queues of RabbitMQ, any number of `MassiveDataProcessor`s with a
`MassiveDataAnalyzer` take them from there, and Redis executes their pipelines one
command at a time. -/

set_option autoImplicit false

namespace KuhlHausMdp

/-- `MassiveDataQueues` with its connection. -/
structure MarketFeed.Publisher (Text : Type*) where
  rabbit : DataQueues
  queues : MassiveDataQueues Text

abbrev MarketFeed (Text : Type*) := Produced (MarketFeed.Publisher Text) (Publication Text) (Redis.Command Text)

namespace MarketFeed

open MassiveDataAnalyzer Redis Transition WebSocketMessageSerde

/-- The JSON library, and the text of numbers, lists and dictionaries in an f-string. -/
structure Setting (Text : Type*) where
  json : Json Text
  shown : Value → String

variable {Text : Type*}

namespace Setting

variable (setting : Setting Text)

def pipeline (result : RollingList.MarketDataAnalyzerResult) : List (Command Text) :=
  (RollingList.cacheResult setting.json .massiveDataProcessor result).getD []

/-- `_process_message` up to its pipeline; `now` is the text of `time()`. -/
def commands (now : String) (publication : Publication Text) : List (Command Text) :=
  match (setting.json.loads publication.body).bind fun message => toDict (.plain message) with
  | some data => ((analyzeData setting.shown now data).getD []).flatMap setting.pipeline
  | none => []

def destination (body : Text) : Option (Feed × String) :=
  ((setting.json.loads body).bind route).map fun goal =>
    (goal.1, FinlightDataAnalyzer.formatted setting.shown goal.2)

end Setting

inductive Publisher.Action where
  | rabbit (action : DataQueues.Action)
  | handleMessages (msgs : List MassiveDataQueues.Offer) (order : List Nat)

abbrev Action (Text : Type*) := Produced.Action Publisher.Action (Publication Text) String String

def fresh : MarketFeed Text := Produced.fresh ⟨.fresh, .fresh⟩

variable (setting : Setting Text)

def Publisher.step (publisher : Publisher Text) : Publisher.Action → Option (Publisher Text)
  | .rabbit action => (DataQueues.step MassiveDataQueues.queues publisher.rabbit action).map fun rabbit =>
      { publisher with rabbit := rabbit }
  | .handleMessages msgs order =>
      ((publisher.queues.refreshed publisher.rabbit).handleMessages setting.json msgs order).map fun queues =>
        { publisher with queues := queues }

def Publisher.published (publisher : Publisher Text) : List (Publication Text) := publisher.queues.published

/-- The lanes are the queues. -/
def step : MarketFeed Text → Action Text → Option (MarketFeed Text) :=
  Produced.step (Publisher.step setting) Publisher.published Publication.routingKey setting.commands

/-! The commands for one message. -/

variable {setting}

theorem pipeline_string {key channel : String} {ttl : Nat} {data : Value} (named : key ≠ "") (given : channel ≠ "")
    (lasting : 0 < ttl) : setting.pipeline ⟨data, some key, some ttl, some channel, none⟩ =
      [.setex key ttl (setting.json.dumps data), .publish channel (setting.json.dumps data)] := by
  simp [Setting.pipeline, RollingList.cacheResult, RollingList.pipeline, RollingList.given, RollingList.Writer.positive,
    Option.filter_some, named, given, lasting]

theorem channel_ne (feed : Feed) (symbol : String) {text : String} (unknown : text.toList.head? ≠ some 's') :
    feed.channel symbol ≠ text := by
  rintro rfl
  apply unknown
  rw [Feed.toList_channel]
  cases feed <;> rfl

/-- A message with a destination is stored and published under one key of its
own; any other comes under keys that are of no feed, if it comes anywhere. -/
theorem commands_cases (now : String) {data : Value} {publication : Publication Text}
    (body : publication.body = setting.json.dumps data) :
    (∃ feed symbol, setting.destination publication.body = some (feed, symbol) ∧
      setting.commands now publication =
        [.setex (feed.channel symbol) feed.ttl publication.body, .publish (feed.channel symbol) publication.body]) ∨
    (setting.destination publication.body = none ∧
      (setting.commands now publication = [] ∨ ∃ key : String, key.toList.head? = some 'u' ∧
        setting.commands now publication = [.setex key MarketDataCacheTTL.UNKNOWN publication.body,
          .publish MarketDataCacheKeys.UNKNOWN publication.body])) := by
  have read : setting.json.loads publication.body = some data := body ▸ setting.json.loads_dumps data
  simp only [Setting.destination, Setting.commands, read, Option.bind_some, toDict]
  rcases analyzeData_cases now data with ⟨feed, symbol, routed, analyzed⟩ | ⟨unrouted, analyzed⟩
  · refine .inl ⟨feed, FinlightDataAnalyzer.formatted setting.shown symbol, by rw [routed]; rfl, ?_⟩
    rw [analyzed, body]
    have named :=
      channel_ne feed (FinlightDataAnalyzer.formatted setting.shown symbol) (by decide : "".toList.head? ≠ some 's')
    exact (List.append_nil _).trans (pipeline_string named named feed.ttl_pos)
  · refine .inr ⟨by rw [unrouted]; rfl, ?_⟩
    rcases analyzed with raised | analyzed
    · exact .inl (by rw [raised]; rfl)
    · refine .inr ⟨MarketDataCacheKeys.UNKNOWN ++ ":" ++ String.ofList (now.toList.filter (· ≠ '.')), ?_, ?_⟩
      · rw [String.toList_append]
        rfl
      · rw [analyzed, body]
        refine (List.append_nil _).trans (pipeline_string ?_ (by decide) (by decide))
        intro none
        have letters := congrArg (fun text => text.toList.head?) none
        rw [String.toList_append] at letters
        cases letters

def Setting.due (setting : Setting Text) (feed : Feed) (symbol : String) (bodies : List Text) : List Text :=
  bodies.filter fun body => setting.destination body = some (feed, symbol)

theorem commands_channel (now : String) {data : Value} {publication : Publication Text}
    (body : publication.body = setting.json.dumps data) (feed : Feed) (symbol : String) :
    (setting.commands now publication).filterMap (Command.storedTo (feed.channel symbol)) =
        setting.due feed symbol [publication.body] ∧
      (setting.commands now publication).filterMap (Command.publishedOn (feed.channel symbol)) =
        setting.due feed symbol [publication.body] ∧
      ∀ command ∈ setting.commands now publication, command.Holds (feed.channel symbol) feed.ttl := by
  unfold Setting.due
  rcases commands_cases now body with ⟨other, text, goes, commands⟩ | ⟨goes, none | ⟨key, unknown, commands⟩⟩
  · rw [commands, List.filter_singleton, goes]
    by_cases same : other = feed ∧ text = symbol
    · obtain ⟨rfl, rfl⟩ := same
      simp [List.filterMap_cons, Command.storedTo, Command.publishedOn, Command.Holds]
    · have apart : other.channel text ≠ feed.channel symbol := fun equal => same (Feed.channel_injective equal)
      simp [Command.storedTo, Command.publishedOn, Command.Holds, apart, same]
  · rw [none, List.filter_singleton, goes]
    simp
  · have apart : key ≠ feed.channel symbol := (channel_ne feed symbol (by rw [unknown]; decide)).symm
    have silent : MarketDataCacheKeys.UNKNOWN ≠ feed.channel symbol := (channel_ne feed symbol (by decide)).symm
    rw [commands, List.filter_singleton, goes]
    simp [Command.storedTo, Command.publishedOn, Command.Holds, apart, silent]

theorem commands_heard (now : String) {data : Value} {publication : Publication Text}
    (body : publication.body = setting.json.dumps data) (feed : Feed) :
    (setting.commands now publication).filterMap (Command.heardBy (feed.key ++ ":*")) =
      if (setting.destination publication.body).map Prod.fst = some feed then [publication.body] else [] := by
  rcases commands_cases now body with ⟨other, text, goes, commands⟩ | ⟨goes, none | ⟨key, unknown, commands⟩⟩
  · rw [commands, goes]
    have heard : Glob.Matches (feed.key ++ ":*") (other.channel text) ↔ other = feed := by
      rw [Feed.matches_iff]
      constructor
      · rintro ⟨symbol, same⟩
        exact (Feed.channel_injective same).1
      · rintro rfl
        exact ⟨text, rfl⟩
    by_cases same : other = feed
    · subst same
      have hit := heard.mpr rfl
      simp [List.filterMap_cons, Command.heardBy, hit]
    · have miss := mt heard.mp same
      simp [Command.heardBy, miss, same]
  · rw [none, goes]
    rfl
  · have silent : ¬Glob.Matches (feed.key ++ ":*") MarketDataCacheKeys.UNKNOWN := by
      rw [Feed.matches_iff]
      rintro ⟨symbol, same⟩
      exact channel_ne feed symbol (by decide) same.symm
    rw [commands, goes]
    simp [Command.heardBy, silent]

/-! Messages whose event type is that of their class. -/

def queueOf : Feed → String
  | .luld => MassiveDataQueue.HALTS
  | .agg => MassiveDataQueue.AGGREGATE
  | .trades => MassiveDataQueue.TRADES
  | .quotes => MassiveDataQueue.QUOTES

/-- The event type of a message is one of its class; a message of no class has
none that a feed takes. -/
def Genuine : WebSocketMessage → Prop
  | .equityTrade message => ∃ code ∈ Feed.trades.eventTypes, message.eventType = .str code
  | .equityAgg message => ∃ code ∈ Feed.agg.eventTypes, message.eventType = .str code
  | .equityQuote message => ∃ code ∈ Feed.quotes.eventTypes, message.eventType = .str code
  | .limitUpLimitDown message => ∃ code ∈ Feed.luld.eventTypes, message.eventType = .str code
  | .plain message => route message = none
  | .unhandled _ _ => True

theorem serialize_eq (json : Json Text) (message : WebSocketMessage) :
    serialize json message = (toDict message).map json.dumps := by
  cases message <;> rfl

theorem route_of_genuine {message : WebSocketMessage} {data : Value} (genuine : Genuine message)
    (written : toDict message = some data) (feed : Feed) :
    (route data).map Prod.fst = some feed ↔ queueNameForWebSocketMessage message = queueOf feed := by
  have typed (own : Feed) {symbol code : Value} {rest : List (String × Value)}
      (its : ∃ text ∈ own.eventTypes, code = .str text) :
      (route (.dict (("event_type", code) :: ("symbol", symbol) :: rest))).map Prod.fst = some feed ↔
        queueOf own = queueOf feed := by
    obtain ⟨text, among, rfl⟩ := its
    simp only [route, List.lookup, beq_self_eq_true, (by decide : ("symbol" == "event_type") = false),
      Feed.ofEventType_of_mem among, Option.map_some, Option.some.injEq]
    constructor
    · exact congrArg queueOf
    · intro same
      revert same
      cases own <;> cases feed <;> decide
  cases message with
  | equityTrade message =>
      cases written
      exact typed .trades genuine
  | equityAgg message =>
      cases written
      exact typed .agg genuine
  | equityQuote message =>
      cases written
      exact typed .quotes genuine
  | limitUpLimitDown message =>
      cases written
      exact typed .luld genuine
  | plain message =>
      have unrouted : route message = none := genuine
      cases written
      rw [unrouted, queueNameForWebSocketMessage]
      exact iff_of_false (by simp) (by cases feed <;> decide)
  | unhandled => cases written

/-! A run. -/

/-- The messages that are handed to the publisher are all of a kind. -/
def Publisher.Action.Offers (Kind : WebSocketMessage → Prop) : Publisher.Action → Prop
  | .handleMessages msgs _ => ∀ offer ∈ msgs, Kind offer.message
  | .rabbit _ => True

def Action.Offers (Kind : WebSocketMessage → Prop) : Action Text → Prop
  | .producer action => action.Offers Kind
  | .work _ => True

/-- The processors of a feed's queue handle one message after the other. -/
def TakesTurns (feed : Feed) (s : MarketFeed Text) : Action Text → Prop
  | .work action => WorkQueue.Turns Publication.routingKey (queueOf feed) s.work action
  | .producer _ => True

instance (feed : Feed) (s : MarketFeed Text) : ∀ action : Action Text, Decidable (TakesTurns feed s action)
  | .work action => inferInstanceAs (Decidable (WorkQueue.Turns Publication.routingKey (queueOf feed) s.work action))
  | .producer _ => isTrue trivial

def Written (setting : Setting Text) (Kind : WebSocketMessage → Prop) (publications : List (Publication Text)) : Prop :=
  ∀ publication ∈ publications, ∃ message, Kind message ∧ serialize setting.json message = some publication.body ∧
    publication.routingKey = queueNameForWebSocketMessage message

structure Sent (setting : Setting Text) (Kind : WebSocketMessage → Prop) (s : MarketFeed Text) : Prop where
  sent : s.work.sent = s.producer.published
  written : Written setting Kind s.producer.published

variable {s : MarketFeed Text} {Kind : WebSocketMessage → Prop}

theorem published_of_step {publisher next : Publisher Text} {action : Publisher.Action}
    (one : publisher.step setting action = some next) : ∃ new, next.published = publisher.published ++ new ∧
      (action.Offers Kind → Written setting Kind new) := by
  cases action with
  | rabbit action =>
      obtain ⟨rabbit, -, rfl⟩ := Option.map_eq_some_iff.mp one
      exact ⟨[], (List.append_nil _).symm, fun _ publication none => by cases none⟩
  | handleMessages msgs order =>
      obtain ⟨queues, handled, rfl⟩ := Option.map_eq_some_iff.mp one
      obtain ⟨ending, handled⟩ := MassiveDataQueues.handleMessages_handled handled
      obtain ⟨new, grown, origin⟩ := MassiveDataQueues.published_of_handled handled
      refine ⟨new, grown, fun offers publication member => ?_⟩
      obtain ⟨offer, among, body, queue⟩ := origin publication member
      exact ⟨offer.message, offers offer among, body, queue⟩

theorem sent_of_run {actions : List (Action Text)} (run : exec (step setting) actions fresh = some s)
    (offers : ∀ action ∈ actions, action.Offers Kind) : Sent setting Kind s where
  sent := by
    refine Produced.sent_of_run (fun one => ?_) rfl run
    obtain ⟨new, grown, -⟩ : ∃ new, _ ∧ (_ → Written setting (fun _ => True) new) := published_of_step one
    exact ⟨new, grown.symm⟩
  written := by
    have each : ∀ move ∈ actions.filterMap Produced.Action.ofProducer, Publisher.Action.Offers Kind move := by
      intro move member
      obtain ⟨action, among, own⟩ := List.mem_filterMap.mp member
      cases action with
      | producer action =>
          cases own
          exact offers _ among
      | work => cases own
    apply along_invariant (fun publisher : Publisher Text => Written setting Kind publisher.published) _ _
      (along_of_forall each _) (Produced.producer_of_run run)
    · intro publisher action next written fine one
      obtain ⟨new, grown, origin⟩ := published_of_step one
      intro publication member
      rw [grown] at member
      rcases List.mem_append.mp member with older | newer
      · exact written publication older
      · exact origin fine publication newer
    · exact fun publication none => by cases none

theorem Sent.body {publication : Publication Text} (kept : Sent setting Kind s) (member : publication ∈ s.work.sent) :
    ∃ message data, Kind message ∧ toDict message = some data ∧ publication.body = setting.json.dumps data ∧
      publication.routingKey = queueNameForWebSocketMessage message := by
  rw [kept.sent] at member
  obtain ⟨message, kind, written, queue⟩ := kept.written publication member
  rw [serialize_eq] at written
  obtain ⟨data, dict, body⟩ := Option.map_eq_some_iff.mp written
  exact ⟨message, data, kind, dict, body.symm, queue⟩

/-- At every moment, whatever was redelivered, lost or cut short and whatever the
provider sends, `get_cache` gives for the key of a symbol the message that was
stored there last, which is one that was published and is for the symbol, until
the lifetime of its feed is over. -/
theorem latest_of_run {actions : List (Action Text)} (run : exec (step setting) actions fresh = some s)
    {log : List (Int × Command Text)} {now : Int} (timed : Timed log s.work.executed now) (feed : Feed)
    (symbol : String) :
    ∃ messages : List (Int × Value),
      storedAt (feed.channel symbol) log = messages.map (Prod.map id setting.json.dumps) ∧
      (∀ message ∈ messages,
        (∃ publication ∈ s.producer.published, publication.body = setting.json.dumps message.2) ∧
          setting.destination (setting.json.dumps message.2) = some (feed, symbol)) ∧
      (Database.at log now).ttl (feed.channel symbol) = (living feed.ttl now messages).map (fun _ => (feed.ttl : Int)) ∧
      ∀ falsy : Text → Bool, (∀ value, falsy (setting.json.dumps value) = false) → ∀ limit : Int,
        RollingList.getCache setting.json (Database.at log now) falsy (feed.channel symbol) limit =
          some ((living feed.ttl now messages).map Prod.snd) := by
  have kept : Sent setting (fun _ => True) s := sent_of_run run fun action _ => by
    cases action with
    | producer action => cases action <;> simp [Action.Offers, Publisher.Action.Offers]
    | work => trivial
  have consistent := Produced.consistent_of_run run
  have origin : ∀ text ∈ storedAt (feed.channel symbol) log, ∃ message : Int × Value,
      text = Prod.map id setting.json.dumps message ∧
      (∃ publication ∈ s.producer.published, publication.body = setting.json.dumps message.2) ∧
        setting.destination (setting.json.dumps message.2) = some (feed, symbol) := by
    intro text member
    obtain ⟨command, executed, stores, stamped⟩ := exists_of_storedAt member
    obtain ⟨publication, sent, at_, planned⟩ := consistent.origin (timed.mem executed)
    obtain ⟨-, data, -, -, body, -⟩ := kept.body sent
    have among := List.mem_filterMap.mpr ⟨command.2, planned, stores⟩
    rw [(commands_channel at_ body feed symbol).1, Setting.due, List.mem_filter, List.mem_singleton] at among
    obtain ⟨own, goes⟩ := among
    rw [own] at goes
    refine ⟨(text.1, data), Prod.ext rfl (own.trans body), ⟨publication, kept.sent ▸ sent, body⟩, ?_⟩
    exact body ▸ of_decide_eq_true goes
  obtain ⟨messages, texts, each⟩ := exists_map_eq origin
  have newest := newest_at (Int.natCast_pos.mpr feed.ttl_pos) (fun command member => by
    obtain ⟨publication, sent, at_, planned⟩ := consistent.origin (timed.mem member)
    obtain ⟨-, data, -, -, body, -⟩ := kept.body sent
    exact (commands_channel at_ body feed symbol).2.2 command.2 planned) timed.past
  rw [texts, living_map] at newest
  refine ⟨messages, texts, each, ?_, fun falsy full limit => ?_⟩
  · rw [newest.2, Option.map_map]
    rfl
  · rw [RollingList.getCache, newest.1]
    cases living feed.ttl now messages with
    | none => rfl
    | some message => simp [full, setting.json.loads_dumps]

def trade (price : ℚ) : Value := decodeEquityTrade (.ofKeywords (.dict [
  ("event_type", .str EventType.EquityTrade), ("symbol", .str "AAPL"), ("price", .num price)]))

def offer (price : ℚ) : MassiveDataQueues.Offer := ⟨.equityTrade (.ofKeywords (trade price)), .confirmed⟩

def demo : Setting Value := ⟨Json.document, fun _ => ""⟩

def twoTrades : List (Action Value) := [
    .producer (.rabbit (.connect ⟨true, fun _ => true, fun _ => true⟩)),
    .producer (.handleMessages [offer 114, offer 115] [0, 1]),
    .work (.deliver MassiveDataQueue.TRADES),
    .work (.deliver MassiveDataQueue.TRADES)] ++
  List.replicate 4 (.work (.resume 0 "1.5")) ++ List.replicate 4 (.work (.resume 1 "1.5"))

def everySecond (commands : List (Command Text)) : List (Int × Command Text) :=
  commands.mapIdx fun i command => (1000 * (i : Int), command)

theorem latest_twoTrades : ∃ s, exec (step demo) twoTrades fresh = some s ∧
    ∀ falsy : Value → Bool, (∀ value, falsy value = false) →
      RollingList.getCache Json.document (Database.at (everySecond s.work.executed) 9000) falsy "stocks:trades:AAPL" 0 =
          some (some (trade 115)) ∧
        RollingList.getCache Json.document (Database.at (everySecond s.work.executed) 99999999) falsy
          "stocks:trades:AAPL" 0 = some none := by
  obtain ⟨s, run, history, commands, past⟩ : ∃ s, exec (step demo) twoTrades fresh = some s ∧
      storedAt "stocks:trades:AAPL" (everySecond s.work.executed) = [(2000, trade 115), (0, trade 114)] ∧
        (everySecond s.work.executed).map Prod.snd = s.work.executed ∧
        ∀ timed ∈ everySecond s.work.executed, timed.1 ≤ 9000 := by
    refine ⟨_, rfl, ?_, ?_, ?_⟩
    · rfl
    · rfl
    · decide
  have read {now : Int} (later : 9000 ≤ now) (falsy : Value → Bool) (full : ∀ value, falsy value = false) :
      RollingList.getCache Json.document (Database.at (everySecond s.work.executed) now) falsy "stocks:trades:AAPL" 0 =
        some ((living Feed.trades.ttl now [(2000, trade 115), (0, trade 114)]).map Prod.snd) := by
    have timed : Timed (everySecond s.work.executed) s.work.executed now :=
      ⟨commands, fun one member => (past one member).trans later⟩
    obtain ⟨messages, texts, -, -, newest⟩ := latest_of_run run timed .trades "AAPL"
    have both : messages = [(2000, trade 115), (0, trade 114)] :=
      (List.map_id messages).symm.trans (texts.symm.trans history)
    exact both ▸ newest falsy full 0
  exact ⟨s, run, fun falsy full => ⟨read (Int.le_refl _) falsy full, read (by decide) falsy full⟩⟩

def dueTo (feed : Feed) (s : MarketFeed Text) : List Text :=
  (s.producer.published.filter fun publication => publication.routingKey = queueOf feed).map Publication.body

theorem heard_of_genuine (kept : Sent setting Genuine s) (feed : Feed) :
    ∀ publication ∈ s.work.sent, ∀ now,
      (setting.commands now publication).filterMap (Command.heardBy (feed.key ++ ":*")) =
      if publication.routingKey = queueOf feed then [publication.body] else [] := by
  intro publication sent now
  obtain ⟨message, data, genuine, dict, body, queue⟩ := kept.body sent
  have own : (setting.destination publication.body).map Prod.fst = some feed ↔
      publication.routingKey = queueOf feed := by
    rw [queue, ← route_of_genuine genuine dict feed, Setting.destination, body, setting.json.loads_dumps,
      Option.bind_some, Option.map_map]
    rfl
  rw [commands_heard now body feed]
  exact if_congr own rfl rfl

theorem flatMap_dueTo (kept : Sent setting Genuine s) (feed : Feed) :
    (s.work.sent.flatMap fun publication => if publication.routingKey = queueOf feed then [publication.body] else []) =
      s.dueTo feed := by
  rw [kept.sent, dueTo]
  induction s.producer.published with
  | nil => rfl
  | cons publication rest ih =>
      by_cases here : publication.routingKey = queueOf feed <;> simp [here, ih]

/-- When every message has the event type of its class, a client subscribed to the
pattern of a feed receives nothing but messages of the feed's queue, none of
them more often than it was published unless the broker redelivers; and when
nothing is lost it has received them all once they are handled. -/
theorem heard_of_run {actions : List (Action Text)} (run : exec (step setting) actions fresh = some s)
    (genuine : ∀ action ∈ actions, action.Offers Genuine) (once : ∀ action ∈ actions, action.redelivers = false)
    (feed : Feed) :
    (heard (feed.key ++ ":*") s.work.executed).Subperm (s.dueTo feed) ∧
      ((∀ action ∈ actions, action.loses = false) → s.work.Idle →
        (heard (feed.key ++ ":*") s.work.executed).Perm (s.dueTo feed)) := by
  have kept := sent_of_run run genuine
  have each := heard_of_genuine kept feed
  constructor
  · obtain ⟨moves, along, works⟩ :=
      Produced.work_of_undisturbed (fun redelivers _ => redelivers = false) rfl run once
    rw [← flatMap_dueTo kept feed]
    exact (Produced.consistent_of_run run).seen_subperm (WorkQueue.inLane_sublist works along) each
  · intro whole idle
    obtain ⟨moves, along, works⟩ :=
      Produced.work_of_undisturbed (fun redelivers loses => redelivers = false ∧ loses = false) ⟨rfl, rfl⟩ run
        fun action member => ⟨once action member, whole action member⟩
    rw [← flatMap_dueTo kept feed]
    exact (WorkQueue.whole_of_run works along).seen_perm (Produced.consistent_of_run run) idle each

theorem genuine_twoTrades : ∀ action ∈ twoTrades, action.Offers Genuine := by
  have trades (price : ℚ) : Genuine (offer price).message := ⟨EventType.EquityTrade, List.mem_cons_self, rfl⟩
  simp [twoTrades, Action.Offers, Publisher.Action.Offers, trades]

theorem heard_twoTrades : ∃ s, exec (step demo) twoTrades fresh = some s ∧ s.dueTo .trades = [trade 114, trade 115] ∧
    (heard "stocks:trades:*" s.work.executed).Perm (s.dueTo .trades) := by
  obtain ⟨s, run, idle, due⟩ : ∃ s, exec (step demo) twoTrades fresh = some s ∧ s.work.Idle ∧
      s.dueTo .trades = [trade 114, trade 115] := by
    refine ⟨_, rfl, ?_, ?_⟩
    · decide
    · rfl
  exact ⟨s, run, due, (heard_of_run run genuine_twoTrades (by decide) .trades).2 (by decide) idle⟩

theorem channel_of_genuine (kept : Sent setting Genuine s) (feed : Feed) (symbol : String) :
    ∀ publication ∈ s.work.sent,
      (∀ now, (setting.commands now publication).filterMap (Command.storedTo (feed.channel symbol)) =
          setting.due feed symbol [publication.body] ∧
        (setting.commands now publication).filterMap (Command.publishedOn (feed.channel symbol)) =
          setting.due feed symbol [publication.body] ∧
        ∀ command ∈ setting.commands now publication, command.Holds (feed.channel symbol) feed.ttl) ∧
      (publication.routingKey ≠ queueOf feed → setting.due feed symbol [publication.body] = []) := by
  intro publication sent
  obtain ⟨message, data, genuine, dict, body, queue⟩ := kept.body sent
  refine ⟨fun now => commands_channel now body feed symbol, fun elsewhere => ?_⟩
  rw [Setting.due, List.filter_eq_nil_iff]
  intro text member goes
  rw [List.mem_singleton.mp member, decide_eq_true_eq, Setting.destination, body, setting.json.loads_dumps,
    Option.bind_some] at goes
  apply elsewhere
  rw [queue, ← route_of_genuine genuine dict feed]
  obtain ⟨goal, routed, same⟩ := Option.map_eq_some_iff.mp goes
  rw [routed]
  exact congrArg (fun goal => some goal.1) same

theorem flatMap_due (kept : Sent setting Kind s) (feed : Feed) (symbol : String) :
    (s.work.sent.flatMap fun publication => setting.due feed symbol [publication.body]) =
      setting.due feed symbol (s.producer.published.map Publication.body) := by
  rw [kept.sent]
  induction s.producer.published with
  | nil => rfl
  | cons publication rest ih =>
      rw [List.flatMap_cons, ih, List.map_cons, Setting.due, Setting.due, Setting.due, ← List.filter_append]
      rfl

/-- When the processors of a feed's queue handle one message after the other and
nothing is redelivered or lost, the messages for a symbol are announced, and
stored, in the order in which they were published, and the key is left with the
newest, as long as that lives. -/
theorem newest_of_turns {actions : List (Action Text)} (run : exec (step setting) actions fresh = some s)
    (genuine : ∀ action ∈ actions, action.Offers Genuine)
    (undisturbed : ∀ action ∈ actions, action.redelivers = false ∧ action.loses = false) (idle : s.work.Idle)
    (feed : Feed) (turns : Along (step setting) (TakesTurns feed) actions fresh) (symbol : String)
    {log : List (Int × Command Text)} {now : Int} (timed : Timed log s.work.executed now) :
    published (feed.channel symbol) s.work.executed =
        setting.due feed symbol (s.producer.published.map Publication.body) ∧
      (storedAt (feed.channel symbol) log).map Prod.snd =
        (setting.due feed symbol (s.producer.published.map Publication.body)).reverse ∧
      (Database.at log now).entries (feed.channel symbol) =
        (living feed.ttl now (storedAt (feed.channel symbol) log)).map fun message => .string message.2 := by
  have kept := sent_of_run run genuine
  have consistent := Produced.consistent_of_run run
  obtain ⟨moves, along, works⟩ := Produced.work_of_run
    (fun s action => (action.redelivers = false ∧ action.loses = false) ∧ TakesTurns feed s action)
    (fun work action => (action.redelivers = false ∧ action.loses = false) ∧
      WorkQueue.Turns Publication.routingKey (queueOf feed) work action)
    (fun _ _ => ⟨⟨rfl, rfl⟩, trivial⟩) (fun fine => fine) ((along_of_forall undisturbed fresh).and turns) run
  have whole := WorkQueue.whole_of_run works
    (along.mono (fun _ => True) (fun _ _ _ => trivial) (fun _ both => both.1) trivial)
  have inTurns := along.mono (fun _ => True) (fun _ _ _ => trivial) (fun _ both => both.2) trivial
  have each := channel_of_genuine kept feed symbol
  have stores := WorkQueue.seen_of_turns works inTurns whole idle
    (fun publication sent now => ((each publication sent).1 now).1) fun publication sent => (each publication sent).2
  have announces := WorkQueue.seen_of_turns works inTurns whole idle
    (fun publication sent now => ((each publication sent).1 now).2.1) fun publication sent => (each publication sent).2
  rw [flatMap_due kept] at stores announces
  have newest := newest_at (Int.natCast_pos.mpr feed.ttl_pos) (fun command member => by
    obtain ⟨publication, sent, at_, planned⟩ := consistent.origin (timed.mem member)
    exact ((each publication sent).1 at_).2.2 command.2 planned) timed.past
  refine ⟨announces, ?_, newest.1⟩
  rw [map_snd_storedAt, timed.commands, stored, stores]

theorem newest_twoTrades : ∃ s, exec (step demo) twoTrades fresh = some s ∧
    published "stocks:trades:AAPL" s.work.executed = [trade 114, trade 115] ∧
      (storedAt "stocks:trades:AAPL" (everySecond s.work.executed)).map Prod.snd = [trade 115, trade 114] ∧
      (Database.at (everySecond s.work.executed) 9000).entries "stocks:trades:AAPL" = some (.string (trade 115)) := by
  obtain ⟨s, run, handled, due, history, commands, past⟩ : ∃ s, exec (step demo) twoTrades fresh = some s ∧
      s.work.Idle ∧ demo.due .trades "AAPL" (s.producer.published.map Publication.body) = [trade 114, trade 115] ∧
      storedAt "stocks:trades:AAPL" (everySecond s.work.executed) = [(2000, trade 115), (0, trade 114)] ∧
      (everySecond s.work.executed).map Prod.snd = s.work.executed ∧
      ∀ timed ∈ everySecond s.work.executed, timed.1 ≤ 9000 := by
    refine ⟨_, rfl, ?_, ?_, ?_, ?_, ?_⟩
    · decide
    · rfl
    · rfl
    · rfl
    · decide
  have turns : Along (step demo) (TakesTurns .trades) twoTrades fresh := by decide
  obtain ⟨announced, ordered, read⟩ :=
    newest_of_turns run genuine_twoTrades (by decide) handled .trades turns "AAPL" ⟨commands, past⟩
  rw [due] at announced ordered
  refine ⟨s, run, announced, ordered, read.trans ?_⟩
  exact congrArg (fun messages => (living Feed.trades.ttl 9000 messages).map fun message => Entry.string message.2)
    history

/-- The pipelines of two processors overlap, and the older trade is announced last. -/
def overlapping : List (Action Value) := [
  .producer (.rabbit (.connect ⟨true, fun _ => true, fun _ => true⟩)),
  .producer (.handleMessages [offer 114, offer 115] [0, 1]),
  .work (.deliver MassiveDataQueue.TRADES), .work (.deliver MassiveDataQueue.TRADES),
  .work (.resume 0 "1.5"), .work (.resume 1 "1.5"),
  .work (.resume 0 "1.5"), .work (.resume 1 "1.5"), .work (.resume 1 "1.5"), .work (.resume 0 "1.5")]

example : ∃ s, exec (step demo) overlapping fresh = some s ∧
    published "stocks:trades:AAPL" s.work.executed = [trade 115, trade 114] ∧
      (Database.at (everySecond s.work.executed) 9000).entries "stocks:trades:AAPL" = some (.string (trade 115)) := by
  refine ⟨_, rfl, ?_, ?_⟩
  · rfl
  · rfl

end MarketFeed
end KuhlHausMdp
