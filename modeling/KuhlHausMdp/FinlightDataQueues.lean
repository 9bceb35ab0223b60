import Mathlib.Data.List.Count
import KuhlHausMdp.DataQueues
import KuhlHausMdp.Serde

/-! `FinlightDataQueues.handle_message`: an article is checked, written as JSON
and published to the one queue of the news. -/

set_option autoImplicit false

namespace KuhlHausMdp

namespace Serde

variable {F : Type*}

mutual

/-- What `json.dumps` writes, none when it raises; `number` is the value of a
float. A tuple is written as a list. -/
def jsonValue (number : F → ℚ) : Obj F → Option Value
  | .none => some .none
  | .str text => some (.str text)
  | .int i => some (.num i)
  | .float x => some (.num (number x))
  | .bool truth => some (.bool truth)
  | .list items => (jsonItems number items).map .list
  | .tuple items => (jsonItems number items).map .list
  | .dict items => (jsonPairs number items).map .dict
  | .object _ => none
  | .leaf _ => none

def jsonItems (number : F → ℚ) : List (Obj F) → Option (List Value)
  | [] => some []
  | item :: rest => (jsonValue number item).bind fun value => (jsonItems number rest).map (value :: ·)

def jsonPairs (number : F → ℚ) : List (String × Obj F) → Option (List (String × Value))
  | [] => some []
  | (key, item) :: rest =>
      (jsonValue number item).bind fun value => (jsonPairs number rest).map ((key, value) :: ·)

end

theorem isSome_jsonItems (number : F → ℚ) {items : List (Obj F)}
    (each : ∀ item ∈ items, (jsonValue number item).isSome) : (jsonItems number items).isSome := by
  induction items with
  | nil => rfl
  | cons item rest ih =>
      obtain ⟨here, later⟩ := List.forall_mem_cons.mp each
      obtain ⟨value, written⟩ := Option.isSome_iff_exists.mp here
      rw [jsonItems, written, Option.bind_some, Option.isSome_map]
      exact ih later

theorem isSome_jsonPairs (number : F → ℚ) {items : List (String × Obj F)}
    (each : ∀ item ∈ items, (jsonValue number item.2).isSome) : (jsonPairs number items).isSome := by
  induction items with
  | nil => rfl
  | cons item rest ih =>
      obtain ⟨here, later⟩ := List.forall_mem_cons.mp each
      obtain ⟨value, written⟩ := Option.isSome_iff_exists.mp here
      rw [jsonPairs, written, Option.bind_some, Option.isSome_map]
      exact ih later

theorem Obj.Plain.isSome_jsonValue (number : F → ℚ) {obj : Obj F} (plain : obj.Plain) :
    (jsonValue number obj).isSome := by
  induction plain with
  | none | str | int | float | bool => rfl
  | list _ ih =>
      rw [jsonValue, Option.isSome_map]
      exact isSome_jsonItems number ih
  | dict _ _ ih =>
      rw [jsonValue, Option.isSome_map]
      exact isSome_jsonPairs number ih

end Serde

/-- `rabbit` is what the publisher shares with its sibling, `news` the counter
of `connection_status` under the queue's name. -/
structure FinlightDataQueues (Text : Type*) where
  rabbit : DataQueues
  messagesReceived : Nat
  news : Nat
  errorCounter : Nat
  published : List (Publication Text)

namespace FinlightDataQueues

open Transition

/-- What is handed over: a model or a dictionary, with what `json.dumps` makes
of it, or anything else. -/
inductive Article where
  | modelDump (dumped : Option Value)
  | dict (content : Option Value)
  | other

inductive HandleError where
  | rabbitMQChannelsNotInitialized
  | rabbitMQConnectionNotInitialized
  | invalidArticleType
  | notJsonSerializable
  deriving DecidableEq, Repr

def queues : List String := [FinlightDataQueue.NEWS]

variable {Text : Type*}

def fresh : FinlightDataQueues Text := ⟨.fresh, 0, 0, 0, []⟩

def confirm (self : FinlightDataQueues Text) (channel : Nat) (body : Text) (delivery : Delivery) :
    FinlightDataQueues Text :=
  if self.rabbit.Live channel then
    { self with
      news := if delivery.returned then self.news + 1 else self.news
      published := if delivery.taken then self.published ++ [⟨body, FinlightDataQueue.NEWS⟩] else self.published }
  else self

/-- `_publish_message`; a missing exchange and a publish that raises are logged. -/
def publishMessage (self : FinlightDataQueues Text) (body : Text) (delivery : Delivery) : FinlightDataQueues Text :=
  match self.rabbit.exchanges.get FinlightDataQueue.NEWS with
  | some channel => self.confirm channel body delivery
  | none => self

def publishArticle (json : Json Text) (self : FinlightDataQueues Text) (content : Option Value) (delivery : Delivery) :
    Except HandleError Unit × FinlightDataQueues Text :=
  let self := { self with messagesReceived := self.messagesReceived + 1 }
  match content with
  | some value => (.ok (), self.publishMessage (json.dumps value) delivery)
  | none => (.error .notJsonSerializable, { self with errorCounter := self.errorCounter + 1 })

def handleMessage (json : Json Text) (self : FinlightDataQueues Text) (article : Article) (delivery : Delivery) :
    Except HandleError Unit × FinlightDataQueues Text :=
  if self.rabbit.channels.keys = [] then (.error .rabbitMQChannelsNotInitialized, self)
  else if self.rabbit.connection = none then (.error .rabbitMQConnectionNotInitialized, self)
  else match article with
    | .modelDump dumped => self.publishArticle json dumped delivery
    | .dict content => self.publishArticle json content delivery
    | .other => (.error .invalidArticleType, self)

/-! The side of the await in `_publish_message` before it, for callers that do not
wait for one article before they hand over the next; `confirm` is the other. -/

/-- `handle_message` up to the await: the channel and the body, unless it ends
before. -/
def enterContent (json : Json Text) (self : FinlightDataQueues Text) (content : Option Value) :
    Except HandleError (Option (Nat × Text)) × FinlightDataQueues Text :=
  let self := { self with messagesReceived := self.messagesReceived + 1 }
  match content with
  | some value => (.ok ((self.rabbit.exchanges.get FinlightDataQueue.NEWS).map (·, json.dumps value)), self)
  | none => (.error .notJsonSerializable, { self with errorCounter := self.errorCounter + 1 })

def enter (json : Json Text) (self : FinlightDataQueues Text) (article : Article) :
    Except HandleError (Option (Nat × Text)) × FinlightDataQueues Text :=
  if self.rabbit.channels.keys = [] then (.error .rabbitMQChannelsNotInitialized, self)
  else if self.rabbit.connection = none then (.error .rabbitMQConnectionNotInitialized, self)
  else match article with
    | .modelDump dumped => self.enterContent json dumped
    | .dict content => self.enterContent json content
    | .other => (.error .invalidArticleType, self)

theorem publishArticle_eq (json : Json Text) (self : FinlightDataQueues Text) (content : Option Value)
    (delivery : Delivery) :
    self.publishArticle json content delivery =
      match self.enterContent json content with
      | (.error error, after) => (.error error, after)
      | (.ok none, after) => (.ok (), after)
      | (.ok (some (channel, body)), after) => (.ok (), after.confirm channel body delivery) := by
  cases content with
  | none => rfl
  | some value =>
      simp only [publishArticle, enterContent, publishMessage]
      cases self.rabbit.exchanges.get FinlightDataQueue.NEWS with
      | none => rfl
      | some channel => rfl

theorem handleMessage_eq (json : Json Text) (self : FinlightDataQueues Text) (article : Article) (delivery : Delivery) :
    self.handleMessage json article delivery =
      match self.enter json article with
      | (.error error, after) => (.error error, after)
      | (.ok none, after) => (.ok (), after)
      | (.ok (some (channel, body)), after) => (.ok (), after.confirm channel body delivery) := by
  unfold handleMessage enter
  split
  · rfl
  · split
    · rfl
    · cases article with
      | modelDump dumped => exact publishArticle_eq json self dumped delivery
      | dict content => exact publishArticle_eq json self content delivery
      | other => rfl

def Article.written (json : Json Text) : Article → Option Text
  | .modelDump content => content.map json.dumps
  | .dict content => content.map json.dumps
  | .other => none

inductive Entered (json : Json Text) (self : FinlightDataQueues Text) (article : Article) :
    Except HandleError (Option (Nat × Text)) × FinlightDataQueues Text → Prop where
  | refused (error : HandleError) (early : error ≠ .notJsonSerializable)
      (cause : self.rabbit.channels.keys = [] ∨ self.rabbit.connection = none ∨ article.written json = none) :
      Entered json self article (.error error, self)
  | failed (unwritten : article.written json = none) : Entered json self article (.error .notJsonSerializable,
      { self with messagesReceived := self.messagesReceived + 1, errorCounter := self.errorCounter + 1 })
  | entered (body : Text) (written : article.written json = some body) :
      Entered json self article (.ok ((self.rabbit.exchanges.get FinlightDataQueue.NEWS).map (·, body)),
        { self with messagesReceived := self.messagesReceived + 1 })

theorem entered_enter (json : Json Text) (self : FinlightDataQueues Text) (article : Article) :
    Entered json self article (self.enter json article) := by
  unfold enter
  split
  · rename_i empty
    exact .refused _ (by decide) (.inl empty)
  · split
    · rename_i missing
      exact .refused _ (by decide) (.inr (.inl missing))
    · cases article with
      | modelDump content | dict content =>
          cases content with
          | none => exact .failed rfl
          | some value => exact .entered _ rfl
      | other => exact .refused _ (by decide) (.inr (.inr rfl))

inductive Action where
  | rabbit (action : DataQueues.Action)
  | handleMessage (article : Article) (delivery : Delivery)

def step (json : Json Text) (self : FinlightDataQueues Text) : Action → Option (FinlightDataQueues Text)
  | .rabbit action => (DataQueues.step queues self.rabbit action).map fun rabbit => { self with rabbit := rabbit }
  | .handleMessage article delivery => some (self.handleMessage json article delivery).2

/-! What becomes of the articles. -/

def offered : Action → Option Value
  | .rabbit _ => none
  | .handleMessage (.modelDump content) _ => content
  | .handleMessage (.dict content) _ => content
  | .handleMessage .other _ => none

/-- The publish that a call makes on an open channel, and how it ends. -/
def attempted (self : FinlightDataQueues Text) : Action → List (Value × Delivery)
  | .rabbit _ => []
  | .handleMessage article delivery =>
      if self.rabbit.channels.keys = [] ∨ self.rabbit.connection = none then []
      else match offered (.handleMessage article delivery), self.rabbit.exchanges.get FinlightDataQueue.NEWS with
        | some value, some channel => if self.rabbit.Live channel then [(value, delivery)] else []
        | _, _ => []

def toNews (json : Json Text) (value : Value) : Publication Text := ⟨json.dumps value, FinlightDataQueue.NEWS⟩

def takenOf (attempts : List (Value × Delivery)) : List Value :=
  (attempts.filter fun attempt => attempt.2.taken = true).map Prod.fst

def returnedOf (attempts : List (Value × Delivery)) : Nat := attempts.countP fun attempt => attempt.2.returned = true

variable {json : Json Text} {self : FinlightDataQueues Text}

inductive Handled (json : Json Text) (self : FinlightDataQueues Text) :
    List (Value × Delivery) → FinlightDataQueues Text → Prop where
  | refused : Handled json self [] self
  | failed : Handled json self []
      { self with messagesReceived := self.messagesReceived + 1, errorCounter := self.errorCounter + 1 }
  | dropped : Handled json self [] { self with messagesReceived := self.messagesReceived + 1 }
  | attempted (value : Value) (delivery : Delivery) (channel : Nat) (live : self.rabbit.Live channel) :
      Handled json self [(value, delivery)]
        ({ self with messagesReceived := self.messagesReceived + 1 }.confirm channel (json.dumps value) delivery)

theorem handled_publishArticle (content : Option Value) (delivery : Delivery) :
    Handled json self
      (match content, self.rabbit.exchanges.get FinlightDataQueue.NEWS with
        | some value, some channel => if self.rabbit.Live channel then [(value, delivery)] else []
        | _, _ => [])
      (self.publishArticle json content delivery).2 := by
  cases content with
  | none => exact .failed
  | some value =>
      simp only [publishArticle, publishMessage]
      cases self.rabbit.exchanges.get FinlightDataQueue.NEWS with
      | none => exact .dropped
      | some channel =>
          by_cases live : self.rabbit.Live channel
          · simp only [if_pos live]
            exact .attempted value delivery channel live
          · simp only [if_neg live, confirm]
            exact .dropped

theorem handled_handleMessage (article : Article) (delivery : Delivery) :
    Handled json self (self.attempted (.handleMessage article delivery))
      (self.handleMessage json article delivery).2 := by
  unfold handleMessage
  rw [attempted]
  by_cases channels : self.rabbit.channels.keys = []
  · rw [if_pos channels, if_pos (.inl channels)]
    exact .refused
  by_cases connection : self.rabbit.connection = none
  · rw [if_neg channels, if_pos connection, if_pos (.inr connection)]
    exact .refused
  rw [if_neg channels, if_neg connection, if_neg (not_or.mpr ⟨channels, connection⟩)]
  cases article with
  | modelDump content | dict content => exact handled_publishArticle content delivery
  | other => exact .refused

structure Counted (json : Json Text) (publisher : FinlightDataQueues Text) (attempts : List (Value × Delivery)) :
    Prop where
  published : publisher.published = (takenOf attempts).map (toNews json)
  news : publisher.news = returnedOf attempts
  received : attempts.length + publisher.errorCounter ≤ publisher.messagesReceived

theorem takenOf_append (first second : List (Value × Delivery)) :
    takenOf (first ++ second) = takenOf first ++ takenOf second := by
  simp only [takenOf, List.filter_append, List.map_append]

theorem returnedOf_append (first second : List (Value × Delivery)) :
    returnedOf (first ++ second) = returnedOf first + returnedOf second := List.countP_append

theorem Handled.spec {attempts : List (Value × Delivery)} {next : FinlightDataQueues Text}
    (handled : Handled json self attempts next) :
    next.published = self.published ++ (takenOf attempts).map (toNews json) ∧
      next.news = self.news + returnedOf attempts ∧
      attempts.length + next.errorCounter + self.messagesReceived ≤ self.errorCounter + next.messagesReceived := by
  cases handled with
  | refused => exact ⟨(List.append_nil _).symm, rfl, by simp⟩
  | failed => exact ⟨(List.append_nil _).symm, rfl, by simp only [List.length_nil]; omega⟩
  | dropped => exact ⟨(List.append_nil _).symm, rfl, by simp only [List.length_nil]; omega⟩
  | attempted value delivery channel live =>
      obtain ⟨taken, returned⟩ := delivery
      simp only [confirm, if_pos (show ({ self with messagesReceived := self.messagesReceived + 1 } :
        FinlightDataQueues Text).rabbit.Live channel from live)]
      refine ⟨?_, ?_, ?_⟩
      · cases taken <;> simp [takenOf, toNews]
      · cases returned <;> simp [returnedOf]
      · simp only [List.length_singleton]
        omega

theorem step_spec {action : Action} {next : FinlightDataQueues Text} (one : step json self action = some next) :
    next.published = self.published ++ (takenOf (self.attempted action)).map (toNews json) ∧
      next.news = self.news + returnedOf (self.attempted action) ∧
      (self.attempted action).length + next.errorCounter + self.messagesReceived ≤
        self.errorCounter + next.messagesReceived := by
  cases action with
  | rabbit action =>
      obtain ⟨rabbit, -, rfl⟩ := Option.map_eq_some_iff.mp one
      exact Handled.refused.spec
  | handleMessage article delivery =>
      cases one
      exact (handled_handleMessage article delivery).spec

theorem attempted_offered (self : FinlightDataQueues Text) (action : Action) :
    ((self.attempted action).map Prod.fst).Sublist (offered action).toList := by
  cases action with
  | rabbit => exact .slnil
  | handleMessage article delivery =>
      simp only [attempted]
      split
      · exact List.nil_sublist _
      · split
        · rename_i found _
          rw [found]
          split
          · exact List.Sublist.refl _
          · exact List.nil_sublist _
        · exact List.nil_sublist _

theorem step_offered {action : Action} {next : FinlightDataQueues Text} (one : step json self action = some next) :
    ∃ values : List Value, next.published = self.published ++ values.map (toNews json) ∧
      values.Sublist (offered action).toList :=
  ⟨_, (step_spec one).1, (List.filter_sublist.map _).trans (self.attempted_offered action)⟩

def attempts (json : Json Text) (actions : List Action) : List (Value × Delivery) :=
  observe (step json) attempted actions fresh

theorem counted_of_run {actions : List Action} (run : exec (step json) actions fresh = some self) :
    Counted json self (attempts json actions) := by
  have start : Counted json (fresh : FinlightDataQueues Text) [] := ⟨rfl, rfl, Nat.le_refl 0⟩
  refine observe_invariant (Counted json) ?_ start (along_of_forall (fun _ _ => trivial) fresh) run
  rintro state action next past ⟨published, news, received⟩ - one
  obtain ⟨grown, counted, more⟩ := step_spec one
  refine ⟨?_, ?_, ?_⟩
  · rw [grown, published, takenOf_append, List.map_append]
  · rw [counted, news, returnedOf_append]
  · rw [List.length_append]
    omega

theorem attempts_offered {actions : List Action} {start : FinlightDataQueues Text}
    (run : exec (step json) actions start = some self) :
    ((observe (step json) attempted actions start).map Prod.fst).Sublist (actions.filterMap offered) := by
  induction actions generalizing start with
  | nil => exact .slnil
  | cons action rest ih =>
      obtain ⟨next, one, more⟩ := exec_cons.mp run
      have together := (start.attempted_offered action).append (ih more)
      rw [observe_cons one, List.map_append]
      cases written : offered action with
      | none =>
          rw [List.filterMap_cons_none written]
          rwa [written] at together
      | some value =>
          rw [List.filterMap_cons_some written]
          rwa [written] at together

theorem offered_of_run {actions : List Action} (run : exec (step json) actions fresh = some self) :
    ∃ values : List Value, self.published = values.map (toNews json) ∧ values.Sublist (actions.filterMap offered) :=
  ⟨_, (counted_of_run run).published, (List.filter_sublist.map _).trans (attempts_offered run)⟩

/-- Whatever fails in between, the articles reach the broker in the order in which
they are handed over, each at most once and all for the queue of the news. The
counter is the number of publishes that returned: at most that of the articles taken
while a publish returns only if its article was taken, and just that number while no
confirmation is lost either. -/
theorem accounted_of_run {actions : List Action} (run : exec (step json) actions fresh = some self) :
    ((attempts json actions).map Prod.fst).Sublist (actions.filterMap offered) ∧
      self.published = (takenOf (attempts json actions)).map (toNews json) ∧
      self.news = returnedOf (attempts json actions) ∧
      self.news + self.errorCounter ≤ self.messagesReceived ∧
      ((∀ attempt ∈ attempts json actions, attempt.2.returned = true → attempt.2.taken = true) →
        self.news ≤ self.published.length) ∧
      ((∀ attempt ∈ attempts json actions, attempt.2.returned = attempt.2.taken) →
        self.news = self.published.length) := by
  obtain ⟨published, news, received⟩ := counted_of_run run
  have length : self.published.length = (attempts json actions).countP fun attempt => attempt.2.taken = true := by
    rw [published, List.length_map, takenOf, List.length_map, ← List.countP_eq_length_filter]
  refine ⟨attempts_offered run, published, news, ?_, fun confirmed => ?_, fun exact => ?_⟩
  · have most : returnedOf (attempts json actions) ≤ (attempts json actions).length := List.countP_le_length
    omega
  · rw [news, length]
    refine List.countP_mono_left fun attempt member => ?_
    simp only [decide_eq_true_eq]
    exact confirmed attempt member
  · rw [news, length]
    refine List.countP_congr fun attempt member => ?_
    simp only [decide_eq_true_eq, exact attempt member]

def interrupted : List Action := [
  .rabbit (.connect ⟨true, fun _ => true, fun _ => true⟩),
  .handleMessage (.dict (some (.str "first"))) .confirmed,
  .handleMessage (.dict none) .confirmed,
  .handleMessage (.modelDump (some (.str "refused"))) .refused,
  .handleMessage (.dict (some (.str "unconfirmed"))) ⟨true, false⟩,
  .rabbit (.shutdown ⟨fun _ => true, true⟩),
  .handleMessage (.dict (some (.str "late"))) .confirmed]

theorem accounted_interrupted : ∃ self, exec (step Json.document) interrupted fresh = some self ∧
    (self.messagesReceived = 4 ∧ self.errorCounter = 1 ∧ self.news = 1 ∧ self.published.length = 2) ∧
      ((attempts Json.document interrupted).map Prod.fst).Sublist (interrupted.filterMap offered) ∧
      self.published = (takenOf (attempts Json.document interrupted)).map (toNews Json.document) ∧
      self.news = returnedOf (attempts Json.document interrupted) ∧
      self.news + self.errorCounter ≤ self.messagesReceived ∧
      ((∀ attempt ∈ attempts Json.document interrupted, attempt.2.returned = true → attempt.2.taken = true) →
        self.news ≤ self.published.length) ∧
      ((∀ attempt ∈ attempts Json.document interrupted, attempt.2.returned = attempt.2.taken) →
        self.news = self.published.length) := by
  obtain ⟨self, run, counters⟩ : ∃ self, exec (step Json.document) interrupted fresh = some self ∧
      (self.messagesReceived = 4 ∧ self.errorCounter = 1 ∧ self.news = 1 ∧ self.published.length = 2) :=
    ⟨_, rfl, rfl, rfl, rfl, rfl⟩
  exact ⟨self, run, counters, accounted_of_run run⟩

/-- What `to_dict` makes of an article of the client library. -/
def ofObj {F : Type*} (number : F → ℚ) (article : Serde.Obj F) : Article :=
  match Serde.toDict article with
  | .dict items => .dict (Serde.jsonValue number (.dict items))
  | _ => .other

theorem ofObj_of_object {F : Type*} (number : F → ℚ) {attributes : List (String × Serde.Obj F)}
    (keyed : (Serde.Obj.object attributes).Keyed) :
    ∃ value, ofObj number (.object attributes) = .dict (some value) ∧
      Serde.jsonValue number (Serde.toDict (.object attributes)) = some value := by
  obtain ⟨value, written⟩ := Option.isSome_iff_exists.mp (keyed.plain_toDict.isSome_jsonValue number)
  refine ⟨value, ?_, written⟩
  rw [ofObj, Serde.toDict]
  rw [Serde.toDict] at written
  simp only [written]

end FinlightDataQueues
end KuhlHausMdp
