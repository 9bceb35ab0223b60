import KuhlHausMdp.Library.Value

/-! `WebSocketMessageSerde`: messages of the provider's SDK to JSON text and
back. The encoder asks for the class of a message, the decoder for its
`event_type`. -/

set_option autoImplicit false

namespace KuhlHausMdp

/-! The values of the SDK's `EventType` that the program names. -/

namespace EventType

def EquityAgg : String := "A"
def EquityAggMin : String := "AM"
def EquityTrade : String := "T"
def EquityQuote : String := "Q"
def LimitUpLimitDown : String := "LULD"

end EventType

structure EquityTrade where
  eventType : Value
  symbol : Value
  exchange : Value
  id : Value
  tape : Value
  price : Value
  size : Value
  conditions : Value
  timestamp : Value
  sequenceNumber : Value
  trfId : Value
  trfTimestamp : Value

structure EquityAgg where
  eventType : Value
  symbol : Value
  volume : Value
  accumulatedVolume : Value
  officialOpenPrice : Value
  vwap : Value
  open' : Value
  close : Value
  high : Value
  low : Value
  aggregateVwap : Value
  averageSize : Value
  startTimestamp : Value
  endTimestamp : Value
  otc : Value

structure EquityQuote where
  eventType : Value
  symbol : Value
  bidExchangeId : Value
  bidPrice : Value
  bidSize : Value
  askExchangeId : Value
  askPrice : Value
  askSize : Value
  condition : Value
  indicators : Value
  timestamp : Value
  sequenceNumber : Value
  tape : Value

structure LimitUpLimitDown where
  eventType : Value
  symbol : Value
  highPrice : Value
  lowPrice : Value
  indicators : Value
  tape : Value
  timestamp : Value
  sequenceNumber : Value

/-! The SDK's constructors: a keyword is stored under its name, and a field
without one is `None`. -/

def EquityTrade.ofKeywords (message : Value) : EquityTrade where
  eventType := message.lookup "event_type"
  symbol := message.lookup "symbol"
  exchange := message.lookup "exchange"
  id := message.lookup "id"
  tape := message.lookup "tape"
  price := message.lookup "price"
  size := message.lookup "size"
  conditions := message.lookup "conditions"
  timestamp := message.lookup "timestamp"
  sequenceNumber := message.lookup "sequence_number"
  trfId := message.lookup "trf_id"
  trfTimestamp := message.lookup "trf_timestamp"

def EquityAgg.ofKeywords (message : Value) : EquityAgg where
  eventType := message.lookup "event_type"
  symbol := message.lookup "symbol"
  volume := message.lookup "volume"
  accumulatedVolume := message.lookup "accumulated_volume"
  officialOpenPrice := message.lookup "official_open_price"
  vwap := message.lookup "vwap"
  open' := message.lookup "open"
  close := message.lookup "close"
  high := message.lookup "high"
  low := message.lookup "low"
  aggregateVwap := message.lookup "aggregate_vwap"
  averageSize := message.lookup "average_size"
  startTimestamp := message.lookup "start_timestamp"
  endTimestamp := message.lookup "end_timestamp"
  otc := message.lookup "otc"

def EquityQuote.ofKeywords (message : Value) : EquityQuote where
  eventType := message.lookup "event_type"
  symbol := message.lookup "symbol"
  bidExchangeId := message.lookup "bid_exchange_id"
  bidPrice := message.lookup "bid_price"
  bidSize := message.lookup "bid_size"
  askExchangeId := message.lookup "ask_exchange_id"
  askPrice := message.lookup "ask_price"
  askSize := message.lookup "ask_size"
  condition := message.lookup "condition"
  indicators := message.lookup "indicators"
  timestamp := message.lookup "timestamp"
  sequenceNumber := message.lookup "sequence_number"
  tape := message.lookup "tape"

def LimitUpLimitDown.ofKeywords (message : Value) : LimitUpLimitDown where
  eventType := message.lookup "event_type"
  symbol := message.lookup "symbol"
  highPrice := message.lookup "high_price"
  lowPrice := message.lookup "low_price"
  indicators := message.lookup "indicators"
  tape := message.lookup "tape"
  timestamp := message.lookup "timestamp"
  sequenceNumber := message.lookup "sequence_number"

/-- What the SDK hands over. `unhandled` is a model of a class that no branch
of the encoder names, which `json.dumps` refuses; `plain` is anything else
that `json.dumps` takes. -/
inductive WebSocketMessage where
  | equityTrade (message : EquityTrade)
  | equityAgg (message : EquityAgg)
  | equityQuote (message : EquityQuote)
  | limitUpLimitDown (message : LimitUpLimitDown)
  | unhandled (model : String) (fields : Value)
  | plain (message : Value)

/-- `argumentTypeError` carries the event type that its text names. -/
inductive DeserializeError where
  | jsonDecodeError
  | attributeError
  | argumentTypeError (eventType : Value)

namespace WebSocketMessageSerde

def decodeLimitUpLimitDown (message : LimitUpLimitDown) : Value := .dict [
  ("event_type", message.eventType),
  ("symbol", message.symbol),
  ("high_price", message.highPrice),
  ("low_price", message.lowPrice),
  ("indicators", message.indicators),
  ("tape", message.tape),
  ("timestamp", message.timestamp),
  ("sequence_number", message.sequenceNumber)]

def decodeEquityAgg (message : EquityAgg) : Value := .dict [
  ("event_type", message.eventType),
  ("symbol", message.symbol),
  ("volume", message.volume),
  ("accumulated_volume", message.accumulatedVolume),
  ("official_open_price", message.officialOpenPrice),
  ("vwap", message.vwap),
  ("open", message.open'),
  ("close", message.close),
  ("high", message.high),
  ("low", message.low),
  ("aggregate_vwap", message.aggregateVwap),
  ("average_size", message.averageSize),
  ("start_timestamp", message.startTimestamp),
  ("end_timestamp", message.endTimestamp),
  ("otc", message.otc)]

def decodeEquityTrade (message : EquityTrade) : Value := .dict [
  ("event_type", message.eventType),
  ("symbol", message.symbol),
  ("exchange", message.exchange),
  ("id", message.id),
  ("tape", message.tape),
  ("price", message.price),
  ("size", message.size),
  ("conditions", message.conditions),
  ("timestamp", message.timestamp),
  ("sequence_number", message.sequenceNumber),
  ("trf_id", message.trfId),
  ("trf_timestamp", message.trfTimestamp)]

def decodeEquityQuote (message : EquityQuote) : Value := .dict [
  ("event_type", message.eventType),
  ("symbol", message.symbol),
  ("bid_exchange_id", message.bidExchangeId),
  ("bid_price", message.bidPrice),
  ("bid_size", message.bidSize),
  ("ask_exchange_id", message.askExchangeId),
  ("ask_price", message.askPrice),
  ("ask_size", message.askSize),
  ("condition", message.condition),
  ("indicators", message.indicators),
  ("timestamp", message.timestamp),
  ("sequence_number", message.sequenceNumber),
  ("tape", message.tape)]

/-! A constructor called with the dictionary of a message makes the message. -/

theorem ofKeywords_decodeEquityTrade (message : EquityTrade) :
    EquityTrade.ofKeywords (decodeEquityTrade message) = message := rfl

theorem ofKeywords_decodeEquityAgg (message : EquityAgg) :
    EquityAgg.ofKeywords (decodeEquityAgg message) = message := rfl

theorem ofKeywords_decodeEquityQuote (message : EquityQuote) :
    EquityQuote.ofKeywords (decodeEquityQuote message) = message := rfl

theorem ofKeywords_decodeLimitUpLimitDown (message : LimitUpLimitDown) :
    LimitUpLimitDown.ofKeywords (decodeLimitUpLimitDown message) = message := rfl

def toDict : WebSocketMessage → Option Value
  | .equityTrade message => some (decodeEquityTrade message)
  | .equityAgg message => some (decodeEquityAgg message)
  | .equityQuote message => some (decodeEquityQuote message)
  | .limitUpLimitDown message => some (decodeLimitUpLimitDown message)
  | .plain message => some message
  | .unhandled _ _ => none

variable {Text : Type*} (json : Json Text)

def serialize : WebSocketMessage → Option Text
  | .equityTrade message => some (json.dumps (decodeEquityTrade message))
  | .equityAgg message => some (json.dumps (decodeEquityAgg message))
  | .equityQuote message => some (json.dumps (decodeEquityQuote message))
  | .limitUpLimitDown message => some (json.dumps (decodeLimitUpLimitDown message))
  | .plain message => some (json.dumps message)
  | .unhandled _ _ => none

/-- The branches of `deserialize` on the `event_type` of a dictionary. -/
def construct (message : Value) : Except DeserializeError WebSocketMessage :=
  match message.lookup "event_type" with
  | .str eventType =>
      if eventType = EventType.LimitUpLimitDown then .ok (.limitUpLimitDown (.ofKeywords message))
      else if eventType = EventType.EquityAgg then .ok (.equityAgg (.ofKeywords message))
      else if eventType = EventType.EquityTrade then .ok (.equityTrade (.ofKeywords message))
      else if eventType = EventType.EquityQuote then .ok (.equityQuote (.ofKeywords message))
      else .error (.argumentTypeError (.str eventType))
  | eventType => .error (.argumentTypeError eventType)

def deserialize (serializedMessage : Text) : Except DeserializeError WebSocketMessage :=
  match json.loads serializedMessage with
  | some (.dict entries) => construct (.dict entries)
  -- only a dictionary has the method `get`
  | some _ => .error .attributeError
  | none => .error .jsonDecodeError

/-- Everything `construct` can make, and from which event types. -/
theorem construct_eq_ok_iff {message : Value} {made : WebSocketMessage} :
    construct message = .ok made ↔
      (message.lookup "event_type" = .str EventType.LimitUpLimitDown ∧
        made = .limitUpLimitDown (.ofKeywords message)) ∨
      (message.lookup "event_type" = .str EventType.EquityAgg ∧ made = .equityAgg (.ofKeywords message)) ∨
      (message.lookup "event_type" = .str EventType.EquityTrade ∧ made = .equityTrade (.ofKeywords message)) ∨
      (message.lookup "event_type" = .str EventType.EquityQuote ∧ made = .equityQuote (.ofKeywords message)) := by
  unfold construct
  cases read : message.lookup "event_type" with
  | str eventType =>
      -- the four codes differ, so one branch at most is taken
      simp only [Value.str.injEq, EventType.LimitUpLimitDown, EventType.EquityAgg, EventType.EquityTrade,
        EventType.EquityQuote]
      by_cases luld : eventType = "LULD"
      · simp [luld, eq_comm]
      by_cases agg : eventType = "A"
      · simp [agg, eq_comm]
      by_cases trade : eventType = "T"
      · simp [trade, eq_comm]
      by_cases quote : eventType = "Q"
      · simp [quote, eq_comm]
      simp [luld, agg, trade, quote]
  | _ => simp

/-- A message survives the wire: it is read back equal, and with the same dictionary. -/
def RoundTrips (message : WebSocketMessage) : Prop :=
  ∃ text, serialize json message = some text ∧ deserialize json text = .ok message ∧
    (deserialize json text).map toDict = .ok (toDict message)

theorem deserialize_dumps (entries : List (String × Value)) :
    deserialize json (json.dumps (.dict entries)) = construct (.dict entries) := by
  rw [deserialize, json.loads_dumps]

/-- A message written as a dictionary survives exactly when the constructor
makes it again from that dictionary. -/
theorem roundTrips_iff_construct {message : WebSocketMessage} {entries : List (String × Value)}
    (written : serialize json message = some (json.dumps (.dict entries))) :
    RoundTrips json message ↔ construct (.dict entries) = .ok message := by
  simp only [RoundTrips, written, Option.some.injEq, exists_eq_left', deserialize_dumps]
  constructor
  · exact And.left
  · intro same
    exact ⟨same, by rw [same]; rfl⟩

/-- A message survives the wire exactly when its `event_type` is the one that
the decoder gives to its class; an aggregate of event type `AM` does not. -/
theorem roundTrips_iff :
    (∀ message, RoundTrips json (.equityTrade message) ↔ message.eventType = .str EventType.EquityTrade) ∧
    (∀ message, RoundTrips json (.equityQuote message) ↔ message.eventType = .str EventType.EquityQuote) ∧
    (∀ message, RoundTrips json (.limitUpLimitDown message) ↔
      message.eventType = .str EventType.LimitUpLimitDown) ∧
    (∀ message, RoundTrips json (.equityAgg message) ↔ message.eventType = .str EventType.EquityAgg) := by
  refine ⟨fun message => ?_, fun message => ?_, fun message => ?_, fun message => ?_⟩
  · refine (roundTrips_iff_construct json rfl).trans (construct_eq_ok_iff.trans ?_)
    simp only [reduceCtorEq, and_false, false_or, or_false]
    exact and_iff_left (congrArg _ (ofKeywords_decodeEquityTrade message).symm)
  · refine (roundTrips_iff_construct json rfl).trans (construct_eq_ok_iff.trans ?_)
    simp only [reduceCtorEq, and_false, false_or]
    exact and_iff_left (congrArg _ (ofKeywords_decodeEquityQuote message).symm)
  · refine (roundTrips_iff_construct json rfl).trans (construct_eq_ok_iff.trans ?_)
    simp only [reduceCtorEq, and_false, or_false]
    exact and_iff_left (congrArg _ (ofKeywords_decodeLimitUpLimitDown message).symm)
  · refine (roundTrips_iff_construct json rfl).trans (construct_eq_ok_iff.trans ?_)
    simp only [reduceCtorEq, and_false, false_or, or_false]
    exact and_iff_left (congrArg _ (ofKeywords_decodeEquityAgg message).symm)

def minuteBar : EquityAgg := .ofKeywords (.dict [
  ("event_type", .str EventType.EquityAggMin), ("symbol", .str "GTE"), ("volume", .num 4110),
  ("accumulated_volume", .num 9470157), ("open", .num 3), ("close", .num 4), ("high", .num 4), ("low", .num 3),
  ("start_timestamp", .num 1610144640000), ("end_timestamp", .num 1610144700000)])

/-- A minute aggregate is written and not read back. -/
theorem minuteBar_lost : minuteBar.eventType = .str EventType.EquityAggMin ∧
    serialize Json.document (.equityAgg minuteBar) = some (decodeEquityAgg minuteBar) ∧
    deserialize Json.document (decodeEquityAgg minuteBar) =
      .error (.argumentTypeError (.str EventType.EquityAggMin)) ∧
    ¬RoundTrips Json.document (.equityAgg minuteBar) := by
  have refused : deserialize Json.document (decodeEquityAgg minuteBar) =
      .error (.argumentTypeError (.str EventType.EquityAggMin)) := rfl
  refine ⟨rfl, rfl, refused, ?_⟩
  rintro ⟨text, written, back, -⟩
  cases written
  cases refused.symm.trans back

end WebSocketMessageSerde
end KuhlHausMdp
