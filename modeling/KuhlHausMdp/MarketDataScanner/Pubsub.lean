import Mathlib.Data.List.Basic
import KuhlHausMdp.Library.Value

/-! `_handle_pubsub` of `MarketDataScanner`: a loop that fetches messages until
something ends it, and a handler of one message with a `try` of its own. -/

set_option autoImplicit false

namespace KuhlHausMdp

/-- The counters of a scanner. `dropped` is annotated in the class and assigned
nowhere: none is the missing attribute. -/
structure MarketDataScanner where
  running : Bool
  mdcConnected : Bool
  dropped : Option Nat
  processed : Nat
  decodingErrors : Nat
  emptyResults : Nat
  publishedResults : Nat
  errors : Nat
  deriving DecidableEq

namespace MarketDataScanner

def started : MarketDataScanner where
  running := true
  mdcConnected := true
  dropped := none
  processed := 0
  decodingErrors := 0
  emptyResults := 0
  publishedResults := 0
  errors := 0

/-- How an awaited call ends: it returns, raises a `JSONDecodeError` or another
exception, or is cancelled. -/
inductive Outcome (α : Type) where
  | returned (value : α)
  | decodeError
  | raised
  | cancelled

/-- What `analyze_data` gives; each result comes with how caching it ends. -/
abbrev Analysis := Outcome (Option (List (Outcome Unit)))

/-- What one turn of the loop fetches. The data of a message is what
`json.loads` makes of its payload, none when that raises. -/
inductive Event where
  | timeout
  | connectionError
  | cancelled
  | message (type : Option String) (data : Option Value) (analysis : Analysis)

inductive Reason where
  | connectionError | cancelled | raised
  deriving DecidableEq

inductive Turn where
  | fetching (self : MarketDataScanner)
  | ended (reason : Reason) (self : MarketDataScanner)
  deriving DecidableEq

/-- Whether `len` returns. -/
def sized : Value → Bool
  | .str _ | .list _ | .dict _ => true
  | _ => false

/-- The loop over the results; false when it is cancelled. -/
def cacheResults (self : MarketDataScanner) : List (Outcome Unit) → Bool × MarketDataScanner
  | [] => (true, self)
  | .returned () :: rest => cacheResults { self with publishedResults := self.publishedResults + 1 } rest
  | .decodeError :: _ => (true, { self with decodingErrors := self.decodingErrors + 1 })
  | .raised :: _ => (true, { self with errors := self.errors + 1 })
  | .cancelled :: _ => (false, self)

/-- Every exception is caught and counted; a cancellation is none. -/
def processMessage (self : MarketDataScanner) (data : Value) (analysis : Analysis) : Bool × MarketDataScanner :=
  if sized data then
    match analysis with
    | .returned results =>
        let self := { self with processed := self.processed + 1 }
        match results with
        | some (first :: rest) => self.cacheResults (first :: rest)
        | _ => (true, { self with emptyResults := self.emptyResults + 1 })
    | .decodeError => (true, { self with decodingErrors := self.decodingErrors + 1 })
    | .raised => (true, { self with errors := self.errors + 1 })
    | .cancelled => (false, self)
  else (true, { self with errors := self.errors + 1 })

def stopped (self : MarketDataScanner) : MarketDataScanner := { self with running := false, mdcConnected := false }

/-- One turn of the loop. The payload is decoded outside the handler's `try`. -/
def turn (self : MarketDataScanner) : Event → Turn
  | .timeout => .fetching self
  | .connectionError => .ended .connectionError self.stopped
  | .cancelled => .ended .cancelled self.stopped
  | .message type data analysis =>
      if type = some "subscribe" ∨ type = some "psubscribe" then .fetching self
      else if type = some "unsubscribe" ∨ type = some "punsubscribe" then .fetching self
      else if type = some "message" ∨ type = some "pmessage" then
        match data with
        | none => .ended .raised self.stopped
        | some data =>
            match self.processMessage data analysis with
            | (true, self) => .fetching self
            | (false, self) => .ended .cancelled self.stopped
      else
        match self.dropped with
        | none => .ended .raised self.stopped
        | some dropped => .fetching { self with dropped := some (dropped + 1) }

def handlePubsub (self : MarketDataScanner) : List Event → Turn
  | [] => .fetching self
  | event :: rest =>
      match self.turn event with
      | .fetching self => self.handlePubsub rest
      | .ended reason self => .ended reason self

/-! What is asked of the loop. -/

def isLifecycle (type : Option String) : Bool :=
  type = some "subscribe" || type = some "psubscribe" || type = some "unsubscribe" || type = some "punsubscribe"

def isData (type : Option String) : Bool := type = some "message" || type = some "pmessage"

def cachingFails : List (Outcome Unit) → Bool
  | .returned () :: rest => cachingFails rest
  | .decodeError :: _ | .raised :: _ => true
  | _ => false

def cachingCancelled : List (Outcome Unit) → Bool
  | .returned () :: rest => cachingCancelled rest
  | .cancelled :: _ => true
  | _ => false

def analysisFails : Analysis → Bool
  | .returned (some results) => cachingFails results
  | .decodeError | .raised => true
  | _ => false

def analysisCancelled : Analysis → Bool
  | .returned (some results) => cachingCancelled results
  | .cancelled => true
  | _ => false

/-- A message of an unknown type, one whose payload is no JSON, or one whose
processing fails. -/
def Event.failing : Event → Bool
  | .message type data analysis =>
      !isLifecycle type && (!isData type || match data with
        | none => true
        | some data => !sized data || analysisFails analysis)
  | _ => false

/-- The events that may end the loop: a connection error and a cancellation. -/
def Event.interrupts : Event → Bool
  | .timeout => false
  | .connectionError | .cancelled => true
  | .message type data analysis => isData type && match data with
      | none => false
      | some data => sized data && analysisCancelled analysis

/-- A message of a known type whose payload, if it is data, is valid JSON. -/
def Event.wellFormed : Event → Bool
  | .message type data _ => isLifecycle type || isData type && data.isSome
  | _ => true

def counted (self : MarketDataScanner) : Nat := self.dropped.getD 0 + self.decodingErrors + self.errors

/-- Whatever is fetched, the loop ends for no other reason, and after every turn
each failing message has been counted once. -/
def Tolerates (self : MarketDataScanner) (events : List Event) : Prop :=
  ∀ early late, events = early ++ late →
    match self.handlePubsub early with
    | .fetching after => after.counted = self.counted + (early.filter Event.failing).length
    | .ended reason _ => reason = .connectionError ∨ reason = .cancelled

theorem cacheResults_spec (self : MarketDataScanner) (results : List (Outcome Unit)) :
    (self.cacheResults results).1 = !cachingCancelled results ∧
      (self.cacheResults results).2.dropped = self.dropped ∧
      (self.cacheResults results).2.counted = self.counted + if cachingFails results then 1 else 0 := by
  induction results generalizing self with
  | nil => exact ⟨rfl, rfl, rfl⟩
  | cons first rest ih =>
      cases first with
      | returned value => exact ih { self with publishedResults := self.publishedResults + 1 }
      | decodeError => exact ⟨rfl, rfl, by simp only [cacheResults, cachingFails, counted, if_true]; omega⟩
      | raised => exact ⟨rfl, rfl, by simp only [cacheResults, cachingFails, counted, if_true]; omega⟩
      | cancelled => exact ⟨rfl, rfl, rfl⟩

/-- The handler is never left by an exception, and counts a failure once. -/
theorem processMessage_spec (self : MarketDataScanner) (data : Value) (analysis : Analysis) :
    (self.processMessage data analysis).1 = !(sized data && analysisCancelled analysis) ∧
      (self.processMessage data analysis).2.dropped = self.dropped ∧
      (self.processMessage data analysis).2.counted =
        self.counted + if !sized data || analysisFails analysis then 1 else 0 := by
  unfold processMessage
  cases sized data with
  | false =>
      simp only [Bool.false_eq_true, if_false, Bool.false_and, Bool.not_false, Bool.true_or, if_true, true_and, counted]
      omega
  | true =>
      cases analysis with
      | decodeError => exact ⟨rfl, rfl, by simp only [counted, analysisFails, Bool.or_true, if_true]; omega⟩
      | raised => exact ⟨rfl, rfl, by simp only [counted, analysisFails, Bool.or_true, if_true]; omega⟩
      | cancelled => exact ⟨rfl, rfl, rfl⟩
      | returned results =>
          cases results with
          | none => exact ⟨rfl, rfl, rfl⟩
          | some results =>
              cases results with
              | nil => exact ⟨rfl, rfl, rfl⟩
              | cons first rest => exact cacheResults_spec _ (first :: rest)

theorem turn_of_lifecycle (self : MarketDataScanner) {type : Option String} (lifecycle : isLifecycle type = true)
    (data : Option Value) (analysis : Analysis) :
    self.turn (.message type data analysis) = .fetching self ∧ isData type = false := by
  simp only [isLifecycle, Bool.or_eq_true, decide_eq_true_eq] at lifecycle
  rcases lifecycle with ((rfl | rfl) | rfl) | rfl <;> exact ⟨by simp [turn], by decide⟩

theorem turn_of_data (self : MarketDataScanner) {type : Option String} (isDatum : isData type = true)
    (data : Option Value) (analysis : Analysis) :
    self.turn (.message type data analysis) =
      match data with
      | none => .ended .raised self.stopped
      | some data =>
          if (self.processMessage data analysis).1 then .fetching (self.processMessage data analysis).2
          else .ended .cancelled (self.processMessage data analysis).2.stopped := by
  simp only [isData, Bool.or_eq_true, decide_eq_true_eq] at isDatum
  have shape : self.turn (.message type data analysis) =
      match data with
      | none => .ended .raised self.stopped
      | some data =>
          match self.processMessage data analysis with
          | (true, self) => .fetching self
          | (false, self) => .ended .cancelled self.stopped := by
    rcases isDatum with rfl | rfl <;> simp only [turn] <;> rfl
  rw [shape]
  cases data with
  | none => rfl
  | some data =>
      dsimp only
      rcases self.processMessage data analysis with ⟨_ | _, after⟩ <;> rfl

theorem turn_of_wellFormed (self : MarketDataScanner) {event : Event} (wellFormed : event.wellFormed = true) :
    if event.interrupts then ∃ reason after, self.turn event = .ended reason after ∧
      (reason = .connectionError ∨ reason = .cancelled)
    else ∃ after, self.turn event = .fetching after ∧ after.dropped = self.dropped ∧
      after.counted = self.counted + if event.failing then 1 else 0 := by
  cases event with
  | timeout => exact ⟨self, rfl, rfl, rfl⟩
  | connectionError => exact ⟨_, _, rfl, .inl rfl⟩
  | cancelled => exact ⟨_, _, rfl, .inr rfl⟩
  | message type data analysis =>
      cases lifecycle : isLifecycle type with
      | true =>
          obtain ⟨turned, noData⟩ := turn_of_lifecycle self lifecycle data analysis
          simp only [Event.interrupts, noData, Bool.false_and, Bool.false_eq_true, if_false, Event.failing, lifecycle,
            Bool.not_true]
          exact ⟨self, turned, rfl, rfl⟩
      | false =>
          simp only [Event.wellFormed, lifecycle, Bool.false_or, Bool.and_eq_true] at wellFormed
          obtain ⟨isDatum, valid⟩ := wellFormed
          obtain ⟨value, rfl⟩ := Option.isSome_iff_exists.mp valid
          obtain ⟨returns, dropped, total⟩ := processMessage_spec self value analysis
          have turned := turn_of_data self isDatum (some value) analysis
          simp only [Event.interrupts, isDatum, Bool.true_and, Event.failing, lifecycle, Bool.not_false, Bool.not_true,
            Bool.false_or]
          cases interrupted : sized value && analysisCancelled analysis with
          | true => exact ⟨_, _, by simpa [returns, interrupted] using turned, .inr rfl⟩
          | false => exact ⟨_, by simpa [returns, interrupted] using turned, dropped, total⟩

/-- Any other event ends it: the payload is decoded outside the handler, and the
counter of unknown messages is missing. -/
theorem turn_of_malformed {self : MarketDataScanner} (missing : self.dropped = none) {event : Event}
    (malformed : event.wellFormed = false) : ∃ after, self.turn event = .ended .raised after := by
  cases event with
  | timeout => cases malformed
  | connectionError => cases malformed
  | cancelled => cases malformed
  | message type data analysis =>
      simp only [Event.wellFormed, Bool.or_eq_false_iff] at malformed
      obtain ⟨noLifecycle, noJson⟩ := malformed
      cases isDatum : isData type with
      | true =>
          have invalid : data = none := by simpa [isDatum] using noJson
          subst invalid
          exact ⟨_, turn_of_data self isDatum none analysis⟩
      | false =>
          simp only [isLifecycle, isData, Bool.or_eq_false_iff, decide_eq_false_iff_not] at noLifecycle isDatum
          exact ⟨self.stopped, by simp [turn, noLifecycle, isDatum, missing]⟩

theorem not_interrupts_of_malformed {event : Event} (malformed : event.wellFormed = false) : event.interrupts = false := by
  cases event with
  | message type data analysis =>
      simp only [Event.wellFormed, Bool.or_eq_false_iff] at malformed
      cases isDatum : isData type with
      | true =>
          have invalid : data = none := by simpa [isDatum] using malformed.2
          simp [Event.interrupts, invalid]
      | false => simp [Event.interrupts, isDatum]
  | _ => cases malformed

theorem length_failing_cons (event : Event) (early : List Event) :
    ((event :: early).filter Event.failing).length =
      (if event.failing then 1 else 0) + (early.filter Event.failing).length := by
  cases failing : event.failing with
  | true => rw [List.filter_cons_of_pos failing, List.length_cons, if_pos rfl, Nat.add_comm]
  | false => rw [List.filter_cons_of_neg (by simp [failing]), if_neg Bool.false_ne_true, Nat.zero_add]

theorem tolerated_cons_iff {self after : MarketDataScanner} {event : Event} (turned : self.turn event = .fetching after)
    (total : after.counted = self.counted + if event.failing then 1 else 0) (early : List Event) :
    (match self.handlePubsub (event :: early) with
      | .fetching final => final.counted = self.counted + ((event :: early).filter Event.failing).length
      | .ended reason _ => reason = .connectionError ∨ reason = .cancelled) ↔
    match after.handlePubsub early with
      | .fetching final => final.counted = after.counted + (early.filter Event.failing).length
      | .ended reason _ => reason = .connectionError ∨ reason = .cancelled := by
  simp only [handlePubsub, turned, length_failing_cons]
  cases after.handlePubsub early with
  | fetching final => simp only [total, Nat.add_assoc]
  | ended reason final => exact Iff.rfl

theorem Tolerates.cons_iff {self after : MarketDataScanner} {event : Event} (turned : self.turn event = .fetching after)
    (total : after.counted = self.counted + if event.failing then 1 else 0) (rest : List Event) :
    self.Tolerates (event :: rest) ↔ after.Tolerates rest := by
  constructor
  · intro tolerates early late split
    apply (tolerated_cons_iff turned total early).mp
    exact tolerates (event :: early) late (by rw [split, List.cons_append])
  · intro tolerates early late split
    cases early with
    | nil => rfl
    | cons first early =>
        obtain ⟨rfl, later⟩ := List.cons.inj split
        exact (tolerated_cons_iff turned total early).mpr (tolerates early late later)

/-- The loop tolerates what it fetches exactly when every message before the
first interruption is of a known type and carries JSON if it is data. -/
theorem Tolerates.iff_wellFormed {self : MarketDataScanner} (missing : self.dropped = none) (events : List Event) :
    self.Tolerates events ↔ ∀ event ∈ events.takeWhile fun event => !event.interrupts, event.wellFormed = true := by
  induction events generalizing self with
  | nil =>
      simp only [List.takeWhile_nil, List.not_mem_nil, false_implies, implies_true, iff_true]
      intro early late split
      obtain ⟨rfl, -⟩ := List.append_eq_nil_iff.mp split.symm
      rfl
  | cons event rest ih =>
      cases wellFormed : event.wellFormed with
      | false =>
          obtain ⟨after, turned⟩ := turn_of_malformed missing wellFormed
          have first : event ∈ (event :: rest).takeWhile fun event => !event.interrupts := by
            simp [not_interrupts_of_malformed wellFormed]
          constructor
          · intro tolerates
            have ended := tolerates [event] rest rfl
            simp [handlePubsub, turned] at ended
          · intro all
            exact absurd (all event first) (by simp [wellFormed])
      | true =>
          have turned := turn_of_wellFormed self wellFormed
          cases interrupts : event.interrupts with
          | true =>
              rw [List.takeWhile_cons_of_neg (by simp [interrupts])]
              simp only [interrupts, if_true] at turned
              obtain ⟨reason, after, turned, known⟩ := turned
              refine iff_of_true (fun early late split => ?_) fun _ member => (nomatch member)
              cases early with
              | nil => rfl
              | cons first early =>
                  obtain ⟨rfl, -⟩ := List.cons.inj split
                  simpa only [handlePubsub, turned] using known
          | false =>
              rw [List.takeWhile_cons_of_pos (by simp [interrupts]), List.forall_mem_cons]
              simp only [interrupts, Bool.false_eq_true, if_false] at turned
              obtain ⟨after, turned, dropped, total⟩ := turned
              rw [Tolerates.cons_iff turned total, ih (dropped.trans missing), wellFormed]
              simp only [true_and]

theorem tolerates_iff (events : List Event) :
    started.Tolerates events ↔ ∀ event ∈ events.takeWhile fun event => !event.interrupts, event.wellFormed = true :=
  Tolerates.iff_wellFormed rfl events

def unknownType : Event := .message (some "weird") (some (.str "y")) (.returned none)

def invalidJson : Event := .message (some "message") none (.returned none)

/-- One message of an unknown type, or one that is no JSON, ends the loop. -/
theorem poison_ends_the_loop : ¬started.Tolerates [unknownType] ∧ ¬started.Tolerates [invalidJson] := by
  constructor
  · intro tolerates
    have ended : (.raised : Reason) = .connectionError ∨ (.raised : Reason) = .cancelled := tolerates [unknownType] [] rfl
    exact absurd ended (by decide)
  · intro tolerates
    have ended : (.raised : Reason) = .connectionError ∨ (.raised : Reason) = .cancelled := tolerates [invalidJson] [] rfl
    exact absurd ended (by decide)

end MarketDataScanner

end KuhlHausMdp
