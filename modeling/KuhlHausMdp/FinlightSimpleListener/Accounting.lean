import Mathlib
import KuhlHausMdp.FinlightSimpleListener
import KuhlHausMdp.Library.Replacing

/-! What becomes of the articles that the listener hands to the publisher, each in
a task of its own. -/

set_option autoImplicit false

namespace KuhlHausMdp.FinlightSimpleListener

open Transition

variable {F Text : Type*} {number : F → ℚ} {json : Json Text} {s next : FinlightSimpleListener F Text}

/-- What the message of an article carries, unless it cannot be written. -/
def written (number : F → ℚ) (json : Json Text) (article : Serde.Obj F) : Option Text :=
  (FinlightDataQueues.ofObj number article).written json

theorem dumps_of_written {number : F → ℚ} {json : Json Text} {article : Serde.Obj F} {body : Text}
    (found : written number json article = some body) : ∃ value, body = json.dumps value := by
  unfold written at found
  cases given : FinlightDataQueues.ofObj number article with
  | modelDump content | dict content =>
      rw [given] at found
      obtain ⟨value, -, rfl⟩ := Option.map_eq_some_iff.mp found
      exact ⟨value, rfl⟩
  | other =>
      rw [given] at found
      cases found

namespace Handler

def taken (handler : Handler F Text) : Option Text :=
  match handler.handling with
  | .returned taken _ => taken
  | _ => none

def counted (handler : Handler F Text) : Bool :=
  match handler.handling with
  | .returned _ counted => counted
  | _ => false

def begun (handler : Handler F Text) : Bool :=
  match handler.handling with
  | .scheduled => false
  | _ => true

def failed (handler : Handler F Text) : Bool :=
  match handler.handling with
  | .raised _ => true
  | .returned _ _ => !logs handler.article
  | _ => false

def offered (handler : Handler F Text) : Bool :=
  match handler.handling with
  | .publishing _ _ | .returned _ _ | .raised .notJsonSerializable => true
  | _ => false

def ended (handler : Handler F Text) : Bool :=
  match handler.handling with
  | .scheduled | .publishing _ _ => false
  | _ => true

end Handler

/-- The article that an action brings, and whether it is a failed connection. -/
def Action.arrived : Action F → Option (Serde.Obj F)
  | .article _ found => some found
  | _ => none

def Action.failure : Action F → Bool
  | .disconnected _ .raised => true
  | _ => false

def toNews (body : Text) : Publication Text := ⟨body, FinlightDataQueue.NEWS⟩

/-- What is on its way, or was taken, is what the article is written as. -/
def Handler.Faithful (number : F → ℚ) (json : Json Text) (handler : Handler F Text) : Prop :=
  match handler.handling with
  | .publishing _ body | .returned (some body) _ => written number json handler.article = some body
  | _ => True

structure Accounted (number : F → ℚ) (json : Json Text) (past : List (Action F)) (s : FinlightSimpleListener F Text) :
    Prop where
  arrived : s.handlers.map (·.article) = past.filterMap Action.arrived
  received : s.articlesReceived = s.handlers.countP Handler.begun
  errors : s.errors = past.countP Action.failure + s.handlers.countP Handler.failed
  messages : s.queues.messagesReceived = s.handlers.countP Handler.offered
  news : s.queues.news = s.handlers.countP Handler.counted
  published : s.queues.published.Perm ((s.handlers.filterMap Handler.taken).map toNews)
  faithful : ∀ handler ∈ s.handlers, handler.Faithful number json

structure Moves (s next : FinlightSimpleListener F Text) (i : Nat) (old new : Handler F Text) : Prop where
  at_ : s.handlers[i]? = some old
  handlers : next.handlers = s.handlers.set i new
  article : new.article = old.article
  received : next.articlesReceived + old.begun.toNat = s.articlesReceived + new.begun.toNat
  errors : next.errors + old.failed.toNat = s.errors + new.failed.toNat
  messages : next.queues.messagesReceived + old.offered.toNat = s.queues.messagesReceived + new.offered.toNat
  blank : old.taken = none
  news : next.queues.news + old.counted.toNat = s.queues.news + new.counted.toNat
  published : next.queues.published = s.queues.published ++ new.taken.toList.map toNews

theorem Accounted.moves {past : List (Action F)} {action : Action F} {i : Nat} {old new : Handler F Text}
    (accounted : Accounted number json past s) (moves : s.Moves next i old new)
    (quiet : action.arrived = none ∧ action.failure = false) (faithful : new.Faithful number json) :
    Accounted number json (past ++ [action]) next where
  arrived := by
    rw [moves.handlers, Replacing.map_set_of_same _ moves.at_ moves.article, accounted.arrived, List.filterMap_append,
      List.filterMap_cons_none quiet.1, List.filterMap_nil, List.append_nil]
  received := by
    have counts := Replacing.countP_set Handler.begun moves.at_ new
    have before := accounted.received
    have after := moves.received
    rw [moves.handlers]
    omega
  errors := by
    have counts := Replacing.countP_set Handler.failed moves.at_ new
    have before := accounted.errors
    have after := moves.errors
    rw [moves.handlers, List.countP_append, List.countP_cons_of_neg (by rw [quiet.2]; exact Bool.false_ne_true),
      List.countP_nil]
    omega
  messages := by
    have counts := Replacing.countP_set Handler.offered moves.at_ new
    have before := accounted.messages
    have after := moves.messages
    rw [moves.handlers]
    omega
  news := by
    have counts := Replacing.countP_set Handler.counted moves.at_ new
    have before := accounted.news
    have after := moves.news
    rw [moves.handlers]
    omega
  published := by
    have grown := Replacing.filterMap_set_perm moves.at_ moves.blank new
    rw [moves.published, moves.handlers]
    apply (accounted.published.append_right _).trans
    rw [← List.map_append]
    exact (grown.map toNews).symm
  faithful handler member := by
    rw [moves.handlers] at member
    rcases List.mem_or_eq_of_mem_set member with before | rfl
    · exact accounted.faithful handler before
    · exact faithful

structure Still (s next : FinlightSimpleListener F Text) (failure : Bool) : Prop where
  handlers : next.handlers = s.handlers
  received : next.articlesReceived = s.articlesReceived
  errors : next.errors = s.errors + failure.toNat
  messages : next.queues.messagesReceived = s.queues.messagesReceived
  news : next.queues.news = s.queues.news
  published : next.queues.published = s.queues.published
  tables : DataQueues.Tables FinlightDataQueues.queues s.queues.rabbit →
    DataQueues.Tables FinlightDataQueues.queues next.queues.rabbit

theorem Accounted.still {past : List (Action F)} {action : Action F} (accounted : Accounted number json past s)
    (still : s.Still next action.failure) (quiet : action.arrived = none) :
    Accounted number json (past ++ [action]) next where
  arrived := by
    rw [still.handlers, accounted.arrived, List.filterMap_append, List.filterMap_cons_none quiet, List.filterMap_nil,
      List.append_nil]
  received := by rw [still.received, still.handlers, accounted.received]
  errors := by
    rw [still.errors, still.handlers, accounted.errors, List.countP_append, List.countP_cons, List.countP_nil]
    have one : (if action.failure = true then 1 else 0) = action.failure.toNat := by cases action.failure <;> rfl
    omega
  messages := by rw [still.messages, still.handlers, accounted.messages]
  news := by rw [still.news, still.handlers, accounted.news]
  published := by rw [still.published, still.handlers]; exact accounted.published
  faithful := by rw [still.handlers]; exact accounted.faithful

theorem Accounted.arrival {past : List (Action F)} (accounted : Accounted number json past s) (task : Nat)
    (found : Serde.Obj F) :
    Accounted number json (past ++ [.article task found])
      { s with handlers := s.handlers ++ [⟨found, .scheduled⟩] } where
  arrived := by rw [List.map_append, accounted.arrived, List.filterMap_append]; rfl
  received := by rw [accounted.received, List.countP_append]; rfl
  errors := by rw [accounted.errors, List.countP_append, List.countP_append]; rfl
  messages := by rw [accounted.messages, List.countP_append]; rfl
  news := by rw [accounted.news, List.countP_append]; rfl
  published := by
    rw [List.filterMap_append, List.filterMap_cons_none rfl, List.filterMap_nil, List.append_nil]
    exact accounted.published
  faithful handler member := by
    rcases List.mem_append.mp member with before | new
    · exact accounted.faithful handler before
    · cases List.mem_singleton.mp new
      trivial

theorem still_loop (s : FinlightSimpleListener F Text) (task : Nat) : s.Still (s.loop task) false := by
  unfold loop
  split
  · exact ⟨rfl, rfl, rfl, rfl, rfl, rfl, id⟩
  · exact ⟨rfl, rfl, rfl, rfl, rfl, rfl, id⟩

theorem still_stop (s : FinlightSimpleListener F Text) : s.Still s.stop false := by
  unfold stop
  simp only
  split
  · split
    · exact ⟨rfl, rfl, rfl, rfl, rfl, rfl, id⟩
    · exact ⟨rfl, rfl, rfl, rfl, rfl, rfl, id⟩
  · exact ⟨rfl, rfl, rfl, rfl, rfl, rfl, id⟩

theorem still_disconnected (s : FinlightSimpleListener F Text) (task : Nat) (outcome : Outcome) :
    s.Still (s.disconnected task outcome) (Action.disconnected (F := F) task outcome).failure := by
  cases outcome with
  | returned =>
      have after := still_loop { s with connected := false } task
      exact ⟨after.1, after.2, after.3, after.4, after.5, after.6, after.7⟩
  | cancelled => exact ⟨rfl, rfl, rfl, rfl, rfl, rfl, id⟩
  | raised =>
      unfold disconnected
      simp only
      split
      · exact ⟨rfl, rfl, rfl, rfl, rfl, rfl, id⟩
      · exact ⟨rfl, rfl, rfl, rfl, rfl, rfl, id⟩

theorem errors_finishHandle (s : FinlightSimpleListener F Text) (i : Nat) (article : Serde.Obj F)
    (taken : Option Text) (counted : Bool) :
    (s.finishHandle i article taken counted).errors = s.errors + (!logs article).toNat := by
  unfold finishHandle setHandler
  cases logs article <;> rfl

theorem moves_handleArticle {i : Nat} {article : Serde.Obj F} (at_ : s.handlers[i]? = some ⟨article, .scheduled⟩) :
    ∃ new : Handler F Text, s.Moves (s.handleArticle number json i article) i ⟨article, .scheduled⟩ new ∧
      new.Faithful number json := by
  have entered := FinlightDataQueues.entered_enter json s.queues (FinlightDataQueues.ofObj number article)
  unfold handleArticle
  simp only
  generalize s.queues.enter json (FinlightDataQueues.ofObj number article) = outcome at entered ⊢
  cases entered with
  | refused error early cause =>
      refine ⟨⟨article, .raised error⟩, ⟨at_, rfl, rfl, rfl, rfl, ?_, rfl, rfl, (List.append_nil _).symm⟩, trivial⟩
      cases error with
      | notJsonSerializable => exact absurd rfl early
      | _ => rfl
  | failed unwritten =>
      exact ⟨⟨article, .raised .notJsonSerializable⟩,
        ⟨at_, rfl, rfl, rfl, rfl, rfl, rfl, rfl, (List.append_nil _).symm⟩, trivial⟩
  | entered body found =>
      cases s.queues.rabbit.exchanges.get FinlightDataQueue.NEWS with
      | none =>
          refine ⟨⟨article, .returned none false⟩,
            ⟨at_, rfl, rfl, rfl, ?_, rfl, rfl, rfl, (List.append_nil _).symm⟩, trivial⟩
          exact errors_finishHandle _ i article none false
      | some channel =>
          exact ⟨⟨article, .publishing channel body⟩,
            ⟨at_, rfl, rfl, rfl, rfl, rfl, rfl, rfl, (List.append_nil _).symm⟩, found⟩

theorem moves_confirm {i channel : Nat} {article : Serde.Obj F} {body : Text} {delivery : Delivery}
    (at_ : s.handlers[i]? = some ⟨article, .publishing channel body⟩)
    (found : written number json article = some body) :
    ∃ new : Handler F Text,
      s.Moves (s.confirm i article channel body delivery) i ⟨article, .publishing channel body⟩ new ∧
      new.Faithful number json := by
  refine ⟨⟨article, .returned (if s.queues.rabbit.Live channel ∧ delivery.taken then some body else none)
    (decide (s.queues.rabbit.Live channel ∧ delivery.returned))⟩,
    ⟨at_, rfl, rfl, rfl, ?_, ?_, rfl, ?_, ?_⟩, ?_⟩
  · unfold confirm
    exact errors_finishHandle _ i article
      (if s.queues.rabbit.Live channel ∧ delivery.taken then some body else none)
      (decide (s.queues.rabbit.Live channel ∧ delivery.returned))
  · unfold confirm FinlightDataQueues.confirm
    by_cases live : s.queues.rabbit.Live channel
    · simp [live, finishHandle, setHandler, Handler.offered]
    · simp [live, finishHandle, setHandler, Handler.offered]
  · unfold confirm FinlightDataQueues.confirm
    by_cases live : s.queues.rabbit.Live channel
    · cases delivery.returned <;> simp [live, finishHandle, setHandler, Handler.counted]
    · simp [live, finishHandle, setHandler, Handler.counted]
  · unfold confirm FinlightDataQueues.confirm
    by_cases live : s.queues.rabbit.Live channel
    · cases delivery.taken <;> simp [live, finishHandle, setHandler, Handler.taken, toNews]
    · simp [live, finishHandle, setHandler, Handler.taken]
  · by_cases taken : s.queues.rabbit.Live channel ∧ delivery.taken = true
    · rw [if_pos taken]
      exact found
    · rw [if_neg taken]
      trivial

inductive Stepped (number : F → ℚ) (json : Json Text) (s : FinlightSimpleListener F Text) :
    Action F → FinlightSimpleListener F Text → Prop where
  | still {action : Action F} {next : FinlightSimpleListener F Text} (still : s.Still next action.failure)
      (quiet : action.arrived = none) : Stepped number json s action next
  | article {task : Nat} {found : Serde.Obj F} :
      Stepped number json s (.article task found) { s with handlers := s.handlers ++ [⟨found, .scheduled⟩] }
  | handle {i : Nat} {article : Serde.Obj F} (at_ : s.handlers[i]? = some ⟨article, .scheduled⟩) :
      Stepped number json s (.handle i) (s.handleArticle number json i article)
  | confirm {i channel : Nat} {article : Serde.Obj F} {body : Text} {delivery : Delivery}
      (at_ : s.handlers[i]? = some ⟨article, .publishing channel body⟩) :
      Stepped number json s (.confirm i delivery) (s.confirm i article channel body delivery)

theorem stepped_of_step {action : Action F} (one : s.step number json action = some next) :
    s.Stepped number json action next := by
  cases performed_of_step one with
  | start | stopped | cancelled => exact .still ⟨rfl, rfl, rfl, rfl, rfl, rfl, id⟩ rfl
  | stop => exact .still (still_stop s) rfl
  | begin | slept => exact .still (still_loop s _) rfl
  | disconnected => exact .still (still_disconnected s _ _) rfl
  | rabbit moved => exact .still ⟨rfl, rfl, rfl, rfl, rfl, rfl, fun tables => tables.step moved⟩ rfl
  | article => exact .article
  | handle at_ => exact .handle at_
  | confirm at_ => exact .confirm at_

theorem published_of_step {action : Action F} (one : s.step number json action = some next) :
    ∃ more, next.queues.published = s.queues.published ++ more := by
  cases stepped_of_step one with
  | still still => exact ⟨[], still.published.trans (List.append_nil _).symm⟩
  | article => exact ⟨[], (List.append_nil _).symm⟩
  | handle at_ =>
      obtain ⟨new, moves, -⟩ := moves_handleArticle at_
      exact ⟨_, moves.published⟩
  | @confirm _ channel _ body delivery =>
      unfold confirm FinlightDataQueues.confirm
      by_cases live : s.queues.rabbit.Live channel
      · cases taken : delivery.taken with
        | true => exact ⟨[⟨body, FinlightDataQueue.NEWS⟩], by simp [live, finishHandle, setHandler]⟩
        | false => exact ⟨[], by simp [live, finishHandle, setHandler]⟩
      · exact ⟨[], by simp [live, finishHandle, setHandler]⟩

theorem Accounted.step {past : List (Action F)} {action : Action F} (accounted : Accounted number json past s)
    (one : s.step number json action = some next) : Accounted number json (past ++ [action]) next := by
  cases stepped_of_step one with
  | still still quiet => exact accounted.still still quiet
  | article => exact accounted.arrival _ _
  | handle at_ =>
      obtain ⟨new, moves, faithful⟩ := moves_handleArticle at_
      exact accounted.moves moves ⟨rfl, rfl⟩ faithful
  | confirm at_ =>
      obtain ⟨new, moves, faithful⟩ := moves_confirm at_ (accounted.faithful _ (List.mem_of_getElem? at_))
      exact accounted.moves moves ⟨rfl, rfl⟩ faithful

theorem accounted_fresh : Accounted number json [] (fresh : FinlightSimpleListener F Text) where
  arrived := rfl
  received := rfl
  errors := rfl
  messages := rfl
  news := rfl
  published := .refl _
  faithful := fun _ member => by cases member

theorem written_of_taken {handler : Handler F Text} {body : Text} (faithful : handler.Faithful number json)
    (taken : handler.taken = some body) : written number json handler.article = some body := by
  obtain ⟨article, handling⟩ := handler
  cases handling with
  | returned other counted =>
      cases (taken : other = some body)
      exact faithful
  | scheduled | publishing | raised => cases taken

theorem filterMap_sublist {A B : Type*} {f g : A → Option B} {items : List A}
    (agree : ∀ a ∈ items, ∀ b, f a = some b → g a = some b) : (items.filterMap f).Sublist (items.filterMap g) := by
  induction items with
  | nil => exact .slnil
  | cons a rest ih =>
      obtain ⟨here, later⟩ := List.forall_mem_cons.mp agree
      cases found : f a with
      | some b =>
          rw [List.filterMap_cons_some found, List.filterMap_cons_some (here b found)]
          exact (ih later).cons_cons b
      | none =>
          rw [List.filterMap_cons_none found]
          cases other : g a with
          | none => rw [List.filterMap_cons_none other]; exact ih later
          | some b => rw [List.filterMap_cons_some other]; exact (ih later).cons b

theorem Accounted.subperm {past : List (Action F)} (accounted : Accounted number json past s) :
    s.queues.published.Subperm (((past.filterMap Action.arrived).filterMap (written number json)).map toNews) := by
  apply accounted.published.subperm.trans
  rw [← accounted.arrived, List.filterMap_map]
  apply List.Sublist.subperm
  apply List.Sublist.map
  exact filterMap_sublist fun handler member body taken => written_of_taken (accounted.faithful handler member) taken

theorem record_of_run {actions : List (Action F)} (run : exec (step number json) actions fresh = some s) :
    Accounted number json actions s :=
  exec_record (Accounted number json) (fun accounted one => accounted.step one) accounted_fresh run

/-- However the tasks of the listener, the articles, and the connections and
shutdowns of the publisher interleave: the articles are handled in tasks of their
own, the broker takes each at most once and nothing else, and the counters are the
numbers of what has happened to them; what is counted as published is what the broker
has taken while no confirmation is lost and none comes for what was not taken. -/
theorem articles_of_run {actions : List (Action F)} (run : exec (step number json) actions fresh = some s) :
    s.handlers.map (·.article) = actions.filterMap Action.arrived ∧
      s.queues.published.Perm ((s.handlers.filterMap Handler.taken).map toNews) ∧
      s.queues.published.Subperm (((actions.filterMap Action.arrived).filterMap (written number json)).map toNews) ∧
      s.articlesReceived = s.handlers.countP Handler.begun ∧
      s.queues.messagesReceived = s.handlers.countP Handler.offered ∧
      s.queues.news = s.handlers.countP Handler.counted ∧
      s.errors = actions.countP Action.failure + s.handlers.countP Handler.failed ∧
      ((∀ handler ∈ s.handlers, handler.counted = true → handler.taken.isSome = true) →
        s.queues.news ≤ s.queues.published.length) ∧
      ((∀ handler ∈ s.handlers, handler.counted = handler.taken.isSome) →
        s.queues.news = s.queues.published.length) := by
  have accounted := record_of_run run
  have length : s.queues.published.length = s.handlers.countP fun handler => handler.taken.isSome := by
    rw [accounted.published.length_eq, List.length_map, List.length_filterMap_eq_countP]
  refine ⟨accounted.arrived, accounted.published, accounted.subperm, accounted.received, accounted.messages,
    accounted.news, accounted.errors, fun confirmed => ?_, fun exact => ?_⟩
  · rw [accounted.news, length]
    exact List.countP_mono_left confirmed
  · rw [accounted.news, length]
    exact List.countP_congr fun handler member => by rw [exact handler member]

def connecting : DataQueues.Action := .connect ⟨true, fun _ => true, fun _ => true⟩

def untitled : Serde.Obj ℚ := .object [("headline", .none)]

def titled : Serde.Obj ℚ := .object [("headline", .str "title")]

/-- The second article is published before the first, whose confirmation is lost. That
one is counted as an error as well, since there is nothing to cut off a missing headline. -/
def outOfOrder : List (Action ℚ) := [
  .start, .begin 0, .article 0 untitled, .rabbit connecting, .article 0 titled, .handle 0, .handle 1,
  .confirm 1 .confirmed, .confirm 0 ⟨true, false⟩, .disconnected 0 .raised, .slept 0, .article 0 titled,
  .rabbit (.shutdown ⟨fun _ => true, true⟩), .handle 2]

theorem articles_outOfOrder : ∃ s, exec (step id Json.document) outOfOrder fresh = some s ∧
    (s.articlesReceived = 3 ∧ s.queues.messagesReceived = 2 ∧ s.queues.news = 1 ∧ s.errors = 3) ∧
      s.handlers.map (·.article) = outOfOrder.filterMap Action.arrived ∧
      s.queues.published.Perm ((s.handlers.filterMap Handler.taken).map toNews) ∧
      s.queues.published.Subperm
        (((outOfOrder.filterMap Action.arrived).filterMap (written id Json.document)).map toNews) ∧
      s.articlesReceived = s.handlers.countP Handler.begun ∧
      s.queues.messagesReceived = s.handlers.countP Handler.offered ∧
      s.queues.news = s.handlers.countP Handler.counted ∧
      s.errors = outOfOrder.countP Action.failure + s.handlers.countP Handler.failed ∧
      ((∀ handler ∈ s.handlers, handler.counted = true → handler.taken.isSome = true) →
        s.queues.news ≤ s.queues.published.length) ∧
      ((∀ handler ∈ s.handlers, handler.counted = handler.taken.isSome) →
        s.queues.news = s.queues.published.length) := by
  obtain ⟨s, run, counters⟩ : ∃ s, exec (step id Json.document) outOfOrder fresh = some s ∧
      (s.articlesReceived = 3 ∧ s.queues.messagesReceived = 2 ∧ s.queues.news = 1 ∧ s.errors = 3) :=
    ⟨_, rfl, rfl, rfl, rfl, rfl⟩
  exact ⟨s, run, counters, articles_of_run run⟩

/-! Nothing is lost while the publisher is connected. -/

/-- The publisher is connected when an article comes to it, and the broker takes
and confirms what is published. -/
def Delivering (s : FinlightSimpleListener F Text) : Action F → Prop
  | .handle _ => s.queues.rabbit.channels.keys ≠ [] ∧ s.queues.rabbit.connection ≠ none
  | .confirm i delivery =>
      delivery = .confirmed ∧ match s.handlers[i]? with
        | some ⟨_, .publishing channel _⟩ => s.queues.rabbit.Live channel
        | _ => True
  | _ => True

instance (s : FinlightSimpleListener F Text) (action : Action F) : Decidable (s.Delivering action) := by
  unfold Delivering
  split
  · infer_instance
  · refine @instDecidableAnd _ _ _ ?_
    split
    · infer_instance
    · infer_instance
  · infer_instance

def Genuine (article : Serde.Obj F) : Prop := ∃ attributes, article = .object attributes ∧ article.Keyed

theorem isSome_written (number : F → ℚ) (json : Json Text) {article : Serde.Obj F} (genuine : Genuine article) :
    (written number json article).isSome := by
  obtain ⟨attributes, rfl, keyed⟩ := genuine
  obtain ⟨value, same, -⟩ := FinlightDataQueues.ofObj_of_object number keyed
  rw [written, same]
  rfl

/-- An article of the client library whose handling has ended was taken and counted. -/
def Handler.Whole (handler : Handler F Text) : Prop :=
  Genuine handler.article → handler.ended = true → handler.taken.isSome = true ∧ handler.counted = true

structure Delivered (s : FinlightSimpleListener F Text) : Prop where
  tables : DataQueues.Tables FinlightDataQueues.queues s.queues.rabbit
  whole : ∀ handler ∈ s.handlers, handler.Whole

theorem exchange_of_tables {rabbit : DataQueues} (tables : DataQueues.Tables FinlightDataQueues.queues rabbit)
    (connected : rabbit.channels.keys ≠ []) :
    ∃ channel, rabbit.exchanges.get FinlightDataQueue.NEWS = some channel := by
  obtain ⟨queue, member⟩ := List.exists_mem_of_ne_nil _ connected
  obtain rfl : queue = FinlightDataQueue.NEWS := List.mem_singleton.mp (tables.known queue member)
  rw [tables.same]
  exact Dict.mem_iff_get.mp member

theorem whole_set {i : Nat} {new : Handler F Text} (whole : ∀ handler ∈ s.handlers, handler.Whole) (also : new.Whole) :
    ∀ handler ∈ s.handlers.set i new, handler.Whole := by
  intro handler member
  rcases List.mem_or_eq_of_mem_set member with before | rfl
  · exact whole handler before
  · exact also

theorem Delivered.handleArticle {i : Nat} {article : Serde.Obj F} (delivered : s.Delivered)
    (connected : s.queues.rabbit.channels.keys ≠ [] ∧ s.queues.rabbit.connection ≠ none) :
    (s.handleArticle number json i article).Delivered := by
  have entered := FinlightDataQueues.entered_enter json s.queues (FinlightDataQueues.ofObj number article)
  obtain ⟨channel, exchange⟩ := exchange_of_tables delivered.tables connected.1
  have unwritten (missing : written number json article = none) (handling : Handling Text) :
      Handler.Whole ⟨article, handling⟩ := by
    intro genuine
    have found := isSome_written number json genuine
    rw [missing] at found
    cases found
  unfold FinlightSimpleListener.handleArticle
  simp only
  generalize s.queues.enter json (FinlightDataQueues.ofObj number article) = outcome at entered ⊢
  cases entered with
  | refused error early cause =>
      rcases cause with empty | missing | missing
      · exact absurd empty connected.1
      · exact absurd missing connected.2
      · exact ⟨delivered.tables, whole_set delivered.whole (unwritten missing _)⟩
  | failed missing => exact ⟨delivered.tables, whole_set delivered.whole (unwritten missing _)⟩
  | entered body found =>
      rw [exchange]
      exact ⟨delivered.tables, whole_set delivered.whole fun _ ended => by cases ended⟩

theorem Delivered.confirm {i channel : Nat} {article : Serde.Obj F} {body : Text} (delivered : s.Delivered)
    (live : s.queues.rabbit.Live channel) : (s.confirm i article channel body .confirmed).Delivered := by
  unfold FinlightSimpleListener.confirm FinlightDataQueues.confirm
  rw [if_pos live]
  refine ⟨delivered.tables, whole_set delivered.whole fun _ _ => ?_⟩
  simp [Handler.taken, Handler.counted, Delivery.confirmed, live]

theorem Delivered.step {action : Action F} (delivered : s.Delivered) (delivering : s.Delivering action)
    (one : s.step number json action = some next) : next.Delivered := by
  cases stepped_of_step one with
  | still still => exact ⟨still.tables delivered.tables, still.handlers ▸ delivered.whole⟩
  | article =>
      refine ⟨delivered.tables, fun handler member => ?_⟩
      rcases List.mem_append.mp member with before | new
      · exact delivered.whole handler before
      · cases List.mem_singleton.mp new
        exact fun _ ended => by cases ended
  | handle => exact delivered.handleArticle delivering
  | confirm at_ =>
      obtain ⟨rfl, live⟩ := delivering
      rw [at_] at live
      exact delivered.confirm live

theorem begun_of_taken {handler : Handler F Text} (taken : handler.taken.isSome = true) : handler.begun = true := by
  obtain ⟨article, handling⟩ := handler
  cases handling with
  | scheduled => cases taken
  | _ => rfl

theorem offered_of_taken {handler : Handler F Text} (taken : handler.taken.isSome = true) : handler.offered = true := by
  obtain ⟨article, handling⟩ := handler
  cases handling with
  | scheduled | raised => cases taken
  | _ => rfl

theorem taken_of_run {actions : List (Action F)}
    (genuine : ∀ article ∈ actions.filterMap Action.arrived, Genuine article)
    (delivering : Along (step number json) Delivering actions fresh)
    (run : exec (step number json) actions fresh = some s) (done : ∀ handler ∈ s.handlers, handler.ended = true) :
    ∀ handler ∈ s.handlers, handler.taken.isSome = true ∧ handler.counted = true := by
  have start : (fresh : FinlightSimpleListener F Text).Delivered :=
    ⟨DataQueues.tables_fresh _, fun _ member => by cases member⟩
  have delivered : s.Delivered :=
    along_invariant Delivered (fun delivered fine one => delivered.step fine one) start delivering run
  intro handler member
  apply delivered.whole handler member _ (done handler member)
  apply genuine
  rw [← (record_of_run run).arrived]
  exact List.mem_map_of_mem member

theorem Accounted.perm {past : List (Action F)} (accounted : Accounted number json past s)
    (taken : ∀ handler ∈ s.handlers, handler.taken.isSome = true) :
    s.queues.published.Perm (((past.filterMap Action.arrived).filterMap (written number json)).map toNews) := by
  have same :
      s.handlers.filterMap Handler.taken = (past.filterMap Action.arrived).filterMap (written number json) := by
    rw [← accounted.arrived, List.filterMap_map]
    apply List.filterMap_congr
    intro handler member
    obtain ⟨body, found⟩ := Option.isSome_iff_exists.mp (taken handler member)
    exact found.trans (written_of_taken (accounted.faithful handler member) found).symm
  exact same ▸ accounted.published

/-- While the publisher is connected and the broker takes what is published, no
article is lost: once every article has been handled, the broker has got each just
once, and all the counters agree. -/
theorem published_perm_arrived {actions : List (Action F)}
    (genuine : ∀ article ∈ actions.filterMap Action.arrived, Genuine article)
    (delivering : Along (step number json) Delivering actions fresh)
    (run : exec (step number json) actions fresh = some s) (done : ∀ handler ∈ s.handlers, handler.ended = true) :
    s.queues.published.Perm (((actions.filterMap Action.arrived).filterMap (written number json)).map toNews) ∧
      s.queues.published.length = (actions.filterMap Action.arrived).length ∧
      s.articlesReceived = s.queues.news ∧ s.queues.messagesReceived = s.queues.news := by
  have accounted := record_of_run run
  have whole := taken_of_run genuine delivering run done
  have taken : ∀ handler ∈ s.handlers, handler.taken.isSome = true := fun handler member => (whole handler member).1
  have length : s.queues.published.length = s.handlers.length := by
    rw [accounted.published.length_eq, List.length_map, List.length_filterMap_eq_countP]
    exact List.countP_eq_length.mpr taken
  have news : s.queues.news = s.handlers.length := by
    rw [accounted.news]
    exact List.countP_eq_length.mpr fun handler member => (whole handler member).2
  have counted {p : Handler F Text → Bool}
      (each : ∀ handler : Handler F Text, handler.taken.isSome = true → p handler = true) :
      s.handlers.countP p = s.queues.news := by
    rw [news]
    exact List.countP_eq_length.mpr fun handler member => each handler (taken handler member)
  refine ⟨accounted.perm taken, ?_, ?_, ?_⟩
  · rw [length, ← accounted.arrived, List.length_map]
  · rw [accounted.received]
    exact counted fun handler found => begun_of_taken found
  · rw [accounted.messages]
    exact counted fun handler found => offered_of_taken found

def delivered : List (Action ℚ) := [
  .rabbit connecting, .start, .begin 0, .article 0 untitled, .article 0 titled, .handle 0, .handle 1,
  .confirm 1 .confirmed, .disconnected 0 .raised, .stop, .confirm 0 .confirmed]

theorem published_perm_arrived_delivered : ∃ s, exec (step id Json.document) delivered fresh = some s ∧
    (s.queues.published.Perm (((delivered.filterMap Action.arrived).filterMap (written id Json.document)).map toNews) ∧
      s.queues.published.length = (delivered.filterMap Action.arrived).length ∧
      s.articlesReceived = s.queues.news ∧ s.queues.messagesReceived = s.queues.news) := by
  have genuine : ∀ article ∈ delivered.filterMap Action.arrived, Genuine article := by
    intro article member
    obtain rfl | rfl : article = untitled ∨ article = titled := by
      simpa [delivered, Action.arrived, eq_comm] using member
    · exact ⟨_, rfl, .object (by simp) (by simp [Serde.Obj.Keyed.none])⟩
    · exact ⟨_, rfl, .object (by simp) (by simp [Serde.Obj.Keyed.str])⟩
  obtain ⟨s, run, done⟩ : ∃ s, exec (step id Json.document) delivered fresh = some s ∧
      ∀ handler ∈ s.handlers, handler.ended = true := ⟨_, rfl, by decide⟩
  exact ⟨s, run, published_perm_arrived genuine (by decide) run done⟩

end KuhlHausMdp.FinlightSimpleListener
