import KuhlHausMdp.WidgetDataService.Isolation

/-! The fan-out of one message by one polling task, while other clients call
`subscribe`, `unsubscribe` and `disconnect` and other tasks poll: who is passed
the payload, and whom the cleanup removes. -/

set_option autoImplicit false

namespace KuhlHausMdp.WidgetDataService

open Transition

variable {W D : Type*} [DecidableEq W] [DecidableEq D]

inductive Handling (W : Type*) where
  | passed (websocket : W) (data : String) (raised : Bool)
  | removed (websocket : W)

namespace Handling

def sends : List (Handling W) → List (W × String)
  | [] => []
  | .passed websocket data _ :: rest => (websocket, data) :: sends rest
  | .removed _ :: rest => sends rest

def failures : List (Handling W) → List W
  | [] => []
  | .passed websocket _ true :: rest => websocket :: failures rest
  | _ :: rest => failures rest

omit [DecidableEq W] in
theorem sends_append (first second : List (Handling W)) : sends (first ++ second) = sends first ++ sends second := by
  induction first with
  | nil => rfl
  | cons handling rest ih => cases handling <;> simp only [List.cons_append, sends, ih]

omit [DecidableEq W] in
theorem failures_append (first second : List (Handling W)) :
    failures (first ++ second) = failures first ++ failures second := by
  induction first with
  | nil => rfl
  | cons handling rest ih =>
      cases handling with
      | passed websocket data raised => cases raised <;> simp only [List.cons_append, failures, ih]
      | removed websocket => simp only [List.cons_append, failures, ih]

end Handling

namespace RelayAction

def handling (task : Nat) (s : Relay D W) : RelayAction D W → List (Handling W)
  | .send other raises =>
      match s.loops other with
      | .sending _ data (websocket :: _) _ => if other = task then [.passed websocket data raises] else []
      | _ => []
  | .clean other _ =>
      match s.loops other with
      | .cleaning _ (websocket :: _) => if other = task then [.removed websocket] else []
      | _ => []
  | _ => []

def RedisReturns : RelayAction D W → Prop
  | .call action => action.RedisReturns
  | .clean _ redis => redis = .returned
  | _ => True

def Subscribes (websocket : W) (channel : String) : RelayAction D W → Prop
  | .call (.subscribe feed client _) => feed = channel ∧ client = websocket
  | _ => False

instance (websocket : W) (channel : String) :
    ∀ action : RelayAction D W, Decidable (action.Subscribes websocket channel)
  | .call (.subscribe feed client _) => inferInstanceAs (Decidable (feed = channel ∧ client = websocket))
  | .call (.unsubscribe ..) | .call (.disconnect ..) | .call (.disconnectNext ..) | .call (.disconnectReturn ..) =>
      inferInstanceAs (Decidable False)
  | .publish .. | .notice _ | .take .. | .send .. | .turn _ | .clean .. | .crash .. =>
      inferInstanceAs (Decidable False)

end RelayAction

def Loop.MayRemove (websocket : W) : Loop W → Prop
  | .sending .. => True
  | .cleaning _ rest => websocket ∈ rest
  | .polling => False

instance (websocket : W) : ∀ loop : Loop W, Decidable (loop.MayRemove websocket)
  | .sending .. => inferInstanceAs (Decidable True)
  | .cleaning _ rest => inferInstanceAs (Decidable (websocket ∈ rest))
  | .polling => inferInstanceAs (Decidable False)

namespace Relay

def Dispatched (task : Nat) (channel data : String) (snapshot : List W) (s : Relay D W) (past : List (Handling W)) :
    Prop :=
  match s.loops task with
  | .sending target payload rest failed => target = channel ∧ payload = data ∧
      Handling.sends past ++ rest.map (·, data) = snapshot.map (·, data) ∧ failed = Handling.failures past
  | .cleaning target rest => target = channel ∧ Handling.sends past = snapshot.map (·, data) ∧
      rest.Sublist (Handling.failures past)
  | .polling => Handling.sends past = snapshot.map (·, data)

theorem loops_step {s next : Relay D W} {action : RelayAction D W} {task : Nat} (one : s.step action = some next)
    (other : action.task ≠ some task) : next.loops task = s.loops task := by
  have moved {who : Nat} (loop : Loop W) (acts : action.task = some who) (t : Relay D W)
      (same : t.loops = s.loops) : (t.move who loop).loops task = s.loops task := by
    rw [move, same]
    apply Function.update_of_ne
    rintro rfl
    exact other acts
  cases (performed_of_step one).1 with
  | call | publish | notice | dropped | crashed => rfl
  | taken | sent | allSent | allClean | cleaned | raised => exact moved _ rfl _ rfl

omit [DecidableEq W] [DecidableEq D] in
theorem handling_other {s : Relay D W} {action : RelayAction D W} {task : Nat} (other : action.task ≠ some task) :
    action.handling task s = [] := by
  cases action with
  | send who raises =>
      have apart : who ≠ task := fun same => other (congrArg some same)
      simp only [RelayAction.handling, if_neg apart]
      split <;> rfl
  | clean who redis =>
      have apart : who ≠ task := fun same => other (congrArg some same)
      simp only [RelayAction.handling, if_neg apart]
      split <;> rfl
  | _ => rfl

inductive OwnStep (task : Nat) (s next : Relay D W) : RelayAction D W → Prop where
  | send {target payload : String} {websocket : W} {rest failed : List W} (raises : Bool)
      (before : s.loops task = .sending target payload (websocket :: rest) failed)
      (after : next.loops task = .sending target payload rest (if raises then failed ++ [websocket] else failed)) :
      OwnStep task s next (.send task raises)
  | sent {target payload : String} {failed : List W} (before : s.loops task = .sending target payload [] failed)
      (after : next.loops task = .cleaning target failed) : OwnStep task s next (.turn task)
  | cleaned {target : String} (before : s.loops task = .cleaning target []) (after : next.loops task = .polling)
      (same : next.calls = s.calls) : OwnStep task s next (.turn task)
  | clean {target : String} {websocket : W} {rest : List W} {redis : Ending}
      (before : s.loops task = .cleaning target (websocket :: rest)) (after : next.loops task = .cleaning target rest) :
      OwnStep task s next (.clean task redis)
  | raised {target : String} {websocket : W} {rest : List W} {redis : Ending}
      (before : s.loops task = .cleaning target (websocket :: rest)) (after : next.loops task = .polling)
      (emptied : redis = .returned → next.calls.service.subscriptions.keys = []) :
      OwnStep task s next (.clean task redis)
  | crash {runtimeError : Bool} (before : s.loops task = .polling) (after : next.loops task = .polling)
      (same : next.calls.service.subscriptions = s.calls.service.subscriptions) :
      OwnStep task s next (.crash task runtimeError)

theorem OwnStep.of_step {task : Nat} {s next : Relay D W} {action : RelayAction D W} (own : action.task = some task)
    (once : ∀ taken, action ≠ .take task taken) (one : s.step action = some next) : OwnStep task s next action := by
  cases (performed_of_step one).1 with
  | call | publish | notice => cases own
  | taken | dropped =>
      cases own
      exact absurd rfl (once _)
  | sent sending =>
      cases own
      exact .send _ sending (Function.update_self ..)
  | allSent sending =>
      cases own
      exact .sent sending (Function.update_self ..)
  | allClean cleaning =>
      cases own
      exact .cleaned cleaning (Function.update_self ..) rfl
  | cleaned cleaning left =>
      cases own
      exact .clean cleaning (Function.update_self ..)
  | raised cleaning left =>
      cases own
      refine .raised cleaning (Function.update_self ..) ?_
      rintro rfl
      have emptied := Service.keys_of_unsubscribe_raised (congrArg Prod.fst left)
      rwa [left] at emptied
  | crashed polling =>
      cases own
      exact .crash polling polling rfl

theorem Dispatched.step {task : Nat} {channel data : String} {snapshot : List W} {s next : Relay D W}
    {past : List (Handling W)} {action : RelayAction D W} (dispatched : s.Dispatched task channel data snapshot past)
    (once : ∀ taken, action ≠ .take task taken) (one : s.step action = some next) :
    next.Dispatched task channel data snapshot (past ++ action.handling task s) := by
  unfold Dispatched at dispatched ⊢
  by_cases own : action.task = some task
  · cases OwnStep.of_step own once one with
    | @send target payload websocket rest failed raises before after =>
        simp only [before, after, RelayAction.handling, if_true, Handling.sends_append, Handling.failures_append]
          at dispatched ⊢
        obtain ⟨rfl, rfl, sends, rfl⟩ := dispatched
        refine ⟨rfl, rfl, ?_, ?_⟩
        · simpa [Handling.sends] using sends
        · cases raises <;> simp [Handling.failures]
    | sent before after =>
        simp only [before, after, RelayAction.handling, List.append_nil] at dispatched ⊢
        obtain ⟨rfl, -, sends, rfl⟩ := dispatched
        exact ⟨rfl, by simpa using sends, List.Sublist.refl _⟩
    | cleaned before after =>
        simp only [before, after, RelayAction.handling, List.append_nil] at dispatched ⊢
        exact dispatched.2.1
    | clean before after =>
        simp only [before, after, RelayAction.handling, if_true, Handling.sends_append, Handling.failures_append,
          Handling.sends, Handling.failures, List.append_nil] at dispatched ⊢
        obtain ⟨rfl, sends, left⟩ := dispatched
        exact ⟨rfl, sends, (List.sublist_cons_self _ _).trans left⟩
    | raised before after =>
        simp only [before, after, RelayAction.handling, if_true, Handling.sends_append, Handling.sends,
          List.append_nil] at dispatched ⊢
        exact dispatched.2.1
    | crash before after =>
        simp only [before, after, RelayAction.handling, List.append_nil] at dispatched ⊢
        exact dispatched
  · rw [handling_other own, List.append_nil, loops_step one own]
    exact dispatched

theorem clients_clean {s next : Relay D W} {task : Nat} {channel : String} {websocket : W} {rest : List W}
    (cleaning : s.loops task = .cleaning channel (websocket :: rest)) (one : s.step (.clean task .returned) = some next)
    (feed : String) : next.calls.service.clients feed =
      if feed = channel then (s.calls.service.clients channel).erase websocket else s.calls.service.clients feed := by
  rw [← Service.clients_unsubscribe _ _ _ _ (.polling task)]
  cases (performed_of_step one).1 with
  | cleaned found left | raised found left =>
      cases cleaning.symm.trans found
      rw [left]
      rfl

theorem mem_clients_of_step {s next : Relay D W} {action : RelayAction D W} {channel : String} {websocket : W}
    (returns : action.RedisReturns) (stays : ¬action.Subscribes websocket channel) (one : s.step action = some next)
    (member : websocket ∈ next.calls.service.clients channel) : websocket ∈ s.calls.service.clients channel := by
  cases (performed_of_step one).1 with
  | call called =>
      rcases Calls.step_cases returns called with ⟨feed, client, rfl, rfl⟩ | ⟨feed, client, caller, rfl, rfl⟩ |
        ⟨call, client, -, -, rfl⟩ | ⟨call, client, feed, rest, left, -, -, -, rfl⟩ | ⟨call, client, -, -, rfl⟩
      · simp only [Service.clients_subscribe] at member
        split at member
        · rename_i same
          subst same
          have apart : client ≠ websocket := fun same => stays ⟨rfl, same⟩
          exact Finset.mem_of_mem_insert_of_ne member apart.symm
        · exact member
      · exact Service.clients_unsubscribe_subset _ _ _ _ _ _ member
      · exact member
      · exact Service.clients_unsubscribe_subset _ _ _ _ _ _ member
      · exact member
  | publish | notice | taken | dropped | sent | allSent | allClean | crashed => exact member
  | cleaned cleaning | raised cleaning =>
      cases returns
      rw [clients_clean cleaning one] at member
      split at member
      · rename_i same
        subst same
        exact Finset.mem_of_mem_erase member
      · exact member

/-- Once the sends are over, a client whose send failed is off the channel or
still to be removed. -/
def Dropped (task : Nat) (channel : String) (websocket : W) (s : Relay D W) (past : List (Handling W)) : Prop :=
  match s.loops task with
  | .sending .. => True
  | .cleaning _ rest =>
      websocket ∈ Handling.failures past → websocket ∈ rest ∨ websocket ∉ s.calls.service.clients channel
  | .polling => websocket ∈ Handling.failures past → websocket ∉ s.calls.service.clients channel

theorem Dropped.step {task : Nat} {channel data : String} {websocket : W} {snapshot : List W} {s next : Relay D W}
    {past : List (Handling W)} {action : RelayAction D W} (dropped : s.Dropped task channel websocket past)
    (dispatched : s.Dispatched task channel data snapshot past) (once : ∀ taken, action ≠ .take task taken)
    (returns : action.RedisReturns) (stays : (s.loops task).MayRemove websocket ∨ ¬action.Subscribes websocket channel)
    (one : s.step action = some next) : next.Dropped task channel websocket (past ++ action.handling task s) := by
  -- what is off the channel stays off it
  have off (idle : ¬(s.loops task).MayRemove websocket) (gone : websocket ∉ s.calls.service.clients channel) :
      websocket ∉ next.calls.service.clients channel :=
    fun member => gone (mem_clients_of_step returns (stays.resolve_left idle) one member)
  unfold Dropped at dropped ⊢
  unfold Dispatched at dispatched
  by_cases own : action.task = some task
  · cases OwnStep.of_step own once one with
    | send raises before after => simp only [after]
    | sent before after =>
        simp only [before, after, RelayAction.handling, List.append_nil] at dispatched ⊢
        obtain ⟨-, -, -, rfl⟩ := dispatched
        exact .inl
    | cleaned before after same =>
        simp only [before, after, same, RelayAction.handling, List.append_nil] at dropped ⊢
        exact fun failed => (dropped failed).resolve_left List.not_mem_nil
    | @clean target client rest redis before after =>
        have still (gone : websocket ∉ s.calls.service.clients channel) :
            websocket ∉ next.calls.service.clients channel :=
          fun member => gone (mem_clients_of_step returns id one member)
        obtain rfl : redis = .returned := returns
        simp only [before] at dispatched
        obtain ⟨rfl, -, -⟩ := dispatched
        have left := clients_clean before one target
        rw [if_pos rfl] at left
        simp only [before, after, RelayAction.handling, if_true, Handling.failures_append, Handling.failures,
          List.append_nil] at dropped ⊢
        intro failed
        by_cases same : websocket = client
        · refine .inr ?_
          rw [left, same]
          exact Finset.notMem_erase _ _
        · exact (dropped failed).imp (fun member => (List.mem_cons.mp member).resolve_left same) still
    | raised before after emptied =>
        simp only [after]
        -- the exception leaves no feed behind
        intro _ member
        have key : channel ∈ next.calls.service.subscriptions.keys := Service.mem_of_mem_clients member
        rw [emptied returns] at key
        cases key
    | crash before after same =>
        simp only [before, after, Service.clients, same, RelayAction.handling, List.append_nil] at dropped ⊢
        exact dropped
  · rw [handling_other own, List.append_nil, loops_step one own]
    cases at_ : s.loops task with
    | sending target payload rest failed => trivial
    | cleaning target rest =>
        simp only [at_] at dropped
        intro failed
        by_cases pending : websocket ∈ rest
        · exact .inl pending
        · exact .inr (off (by simpa only [at_, Loop.MayRemove]) ((dropped failed).resolve_left pending))
    | polling =>
        simp only [at_] at dropped
        exact fun failed => off (by simp [at_, Loop.MayRemove]) (dropped failed)

end Relay

/-- A run in which a task takes a data message for a feed with a key and is
back at `get_message` at the end. Redis answers; the snapshot is the set of the
clients in some order. -/
structure FanOut (D W : Type*) [DecidableEq D] [DecidableEq W] where
  task : Nat
  start : Relay D W
  message : Message
  snapshot : List W
  actions : List (RelayAction D W)
  final : Relay D W
  waits : start.queue.head? = some message
  data : message.type = .message ∨ message.type = .pmessage
  key : message.channel ∈ start.calls.service.subscriptions
  distinct : snapshot.Nodup
  members : ∀ websocket, websocket ∈ snapshot ↔ websocket ∈ start.calls.service.clients message.channel
  run : exec Relay.step (.take task snapshot :: actions) start = some final
  once : ∀ taken, .take task taken ∉ actions
  returns : ∀ action ∈ actions, action.RedisReturns
  finished : final.loops task = .polling

namespace FanOut

variable (f : FanOut D W)

def channel : String := f.message.channel

def handlings : List (Handling W) :=
  observe Relay.step (fun s action => action.handling f.task s) (.take f.task f.snapshot :: f.actions) f.start

/-- The client does not come back to the channel after the cleanup. -/
def StaysAway (websocket : W) : Prop :=
  Along Relay.step (fun s action => (s.loops f.task).MayRemove websocket ∨ ¬action.Subscribes websocket f.channel)
    (.take f.task f.snapshot :: f.actions) f.start

theorem taken : ∃ s, f.start.step (.take f.task f.snapshot) = some s ∧ exec Relay.step f.actions s = some f.final ∧
    s.loops f.task = .sending f.channel f.message.data f.snapshot [] := by
  obtain ⟨s, one, more⟩ := exec_cons.mp f.run
  refine ⟨s, one, more, ?_⟩
  cases (Relay.performed_of_step one).1 with
  | @taken _ _ message _ polling waits =>
      obtain rfl : message = f.message := by simpa [waits] using f.waits
      exact Function.update_self ..
  | @dropped _ _ message _ polling waits ignored =>
      obtain rfl : message = f.message := by simpa [waits] using f.waits
      exact absurd f.key (ignored f.data)

theorem taken_once (f : FanOut D W) (action : RelayAction D W) (member : action ∈ f.actions) (taken : List W) :
    action ≠ .take f.task taken := by
  rintro rfl
  exact f.once taken member

theorem handlings_eq {s : Relay D W} (one : f.start.step (.take f.task f.snapshot) = some s) :
    f.handlings = observe Relay.step (fun s action => action.handling f.task s) f.actions s := by
  rw [handlings, observe_cons one]
  rfl

theorem dispatched {first second : List (RelayAction D W)} {s middle : Relay D W}
    (one : f.start.step (.take f.task f.snapshot) = some s) (split : f.actions = first ++ second)
    (reached : exec Relay.step first s = some middle) :
    middle.Dispatched f.task f.channel f.message.data f.snapshot
      (observe Relay.step (fun s action => action.handling f.task s) first s) := by
  obtain ⟨also, same, -, sending⟩ := f.taken
  obtain rfl := Option.some.inj (one.symm.trans same)
  have start : s.Dispatched f.task f.channel f.message.data f.snapshot [] := by
    simp only [Relay.Dispatched, sending]
    exact ⟨trivial, trivial, rfl, rfl⟩
  have once : ∀ action ∈ first, ∀ taken, action ≠ .take f.task taken := fun action member =>
    f.taken_once action (split ▸ List.mem_append_left second member)
  exact observe_invariant _ (fun held once moved => held.step once moved) start (along_of_forall once s) reached

theorem count_sends (websocket : W) : (Handling.sends f.handlings).count (websocket, f.message.data) =
    if websocket ∈ f.start.calls.service.clients f.channel then 1 else 0 := by
  obtain ⟨middle, one, run, -⟩ := f.taken
  have all := f.dispatched one (List.append_nil _).symm run
  simp only [Relay.Dispatched, f.finished, ← f.handlings_eq one] at all
  have apart : Function.Injective fun client : W => (client, f.message.data) := fun _ _ same => congrArg Prod.fst same
  rw [all, List.count_map_of_injective f.snapshot (fun client => (client, f.message.data)) apart,
    List.Nodup.count f.distinct]
  have members : websocket ∈ f.snapshot ↔ websocket ∈ f.start.calls.service.clients f.channel := f.members websocket
  by_cases member : websocket ∈ f.snapshot
  · rw [if_pos member, if_pos (members.mp member)]
  · rw [if_neg member, if_neg (mt members.mpr member)]

theorem notMem_of_failed {websocket : W} (failed : websocket ∈ Handling.failures f.handlings)
    (away : f.StaysAway websocket) : websocket ∉ f.final.calls.service.clients f.channel := by
  obtain ⟨middle, one, run, sending⟩ := f.taken
  have start : middle.Dispatched f.task f.channel f.message.data f.snapshot [] ∧
      middle.Dropped f.task f.channel websocket [] := by
    simp only [Relay.Dispatched, Relay.Dropped, sending]
    exact ⟨⟨trivial, trivial, rfl, rfl⟩, trivial⟩
  -- what every step of the run is known to be
  have plain : ∀ action ∈ f.actions, (∀ taken, action ≠ .take f.task taken) ∧ action.RedisReturns :=
    fun action member => ⟨f.taken_once action member, f.returns action member⟩
  have allowed := (away.2 middle one).and (along_of_forall plain middle)
  have ended := observe_invariant
    (fun s past => s.Dispatched f.task f.channel f.message.data f.snapshot past ∧
      s.Dropped f.task f.channel websocket past)
    (fun held permitted moved => ⟨held.1.step permitted.2.1 moved,
      held.2.step held.1 permitted.2.1 permitted.2.2 permitted.1 moved⟩) start allowed run
  have dropped := ended.2
  simp only [Relay.Dropped, f.finished] at dropped
  exact dropped (by rwa [List.nil_append, ← f.handlings_eq one])

theorem clients_cleaned {first second : List (RelayAction D W)} {redis : Ending} {s next : Relay D W}
    (split : f.actions = first ++ .clean f.task redis :: second)
    (reached : exec Relay.step (.take f.task f.snapshot :: first) f.start = some s)
    (cleaned : s.step (.clean f.task redis) = some next) :
    ∃ websocket ∈ Handling.failures f.handlings, ∀ feed, next.calls.service.clients feed =
      if feed = f.channel then (s.calls.service.clients f.channel).erase websocket
      else s.calls.service.clients feed := by
  obtain ⟨middle, one, more⟩ := exec_cons.mp reached
  have here := f.dispatched one split more
  have answered : redis = .returned := f.returns (.clean f.task redis) (split ▸ by simp)
  subst answered
  have events : f.handlings = observe Relay.step (fun s action => action.handling f.task s) first middle ++
      observe Relay.step (fun s action => action.handling f.task s) (.clean f.task .returned :: second) s := by
    rw [f.handlings_eq one, split, observe_append more]
  have next_of {websocket : W} {target : String} {rest : List W}
      (before : s.loops f.task = .cleaning target (websocket :: rest)) :
      ∃ websocket ∈ Handling.failures f.handlings, ∀ feed, next.calls.service.clients feed =
        if feed = f.channel then (s.calls.service.clients f.channel).erase websocket
        else s.calls.service.clients feed := by
    simp only [Relay.Dispatched, before] at here
    obtain ⟨rfl, -, left⟩ := here
    refine ⟨websocket, ?_, Relay.clients_clean before cleaned⟩
    rw [events, Handling.failures_append]
    exact List.mem_append_left _ (left.subset List.mem_cons_self)
  cases Relay.OwnStep.of_step rfl (by simp) cleaned with
  | clean before after => exact next_of before
  | raised before after emptied => exact next_of before

/-- Every client of the channel is passed the payload once and nobody else is;
the clients whose send failed are off the channel at the end, unless they have
come back since; and each step of the cleanup takes one of these off this
channel and changes nothing else. -/
theorem exact_once :
    (∀ websocket, (Handling.sends f.handlings).count (websocket, f.message.data) =
      if websocket ∈ f.start.calls.service.clients f.channel then 1 else 0) ∧
    (∀ websocket ∈ Handling.failures f.handlings, f.StaysAway websocket →
      websocket ∉ f.final.calls.service.clients f.channel) ∧
    ∀ first second redis s next, f.actions = first ++ .clean f.task redis :: second →
      exec Relay.step (.take f.task f.snapshot :: first) f.start = some s → s.step (.clean f.task redis) = some next →
      ∃ websocket ∈ Handling.failures f.handlings, ∀ feed, next.calls.service.clients feed =
        if feed = f.channel then (s.calls.service.clients f.channel).erase websocket
        else s.calls.service.clients feed :=
  ⟨f.count_sends, fun _ failed away => f.notMem_of_failed failed away,
    fun _ _ _ _ _ split reached cleaned => f.clients_cleaned split reached cleaned⟩

/-! Two clients, of which the first has gone; a third comes during the sends. -/

def twoClients : Relay Nat Nat where
  calls := ⟨(Window.topVolume.subscribe "leaderboard:top_volume" 2 .returned).2, fun _ => none⟩
  queue := [Window.plainMessage]
  loops := fun _ => .polling
  sent := []

def meanwhile : List (RelayAction Nat Nat) :=
  [.send 0 true, .call (.subscribe "leaderboard:top_volume" 3 .returned), .send 0 false, .turn 0, .clean 0 .returned,
    .turn 0]

theorem isSome_meanwhile : (exec Relay.step (.take 0 [1, 2] :: meanwhile) twoClients).isSome = true := by
  decide +kernel

def lostClient : FanOut Nat Nat where
  task := 0
  start := twoClients
  message := Window.plainMessage
  snapshot := [1, 2]
  actions := meanwhile
  final := (exec Relay.step (.take 0 [1, 2] :: meanwhile) twoClients).get isSome_meanwhile
  waits := rfl
  data := .inl rfl
  key := by decide +kernel
  distinct := by decide
  members := by
    have clients : twoClients.calls.service.clients "leaderboard:top_volume" = {1, 2} := by decide +kernel
    simp [clients, Window.plainMessage]
  run := (Option.some_get isSome_meanwhile).symm
  once := by simp [meanwhile]
  returns := by simp [meanwhile, RelayAction.RedisReturns, Action.RedisReturns]
  finished := rfl

theorem exact_once_lostClient : Handling.sends lostClient.handlings = [(1, "[]"), (2, "[]")] ∧
    1 ∉ lostClient.final.calls.service.clients "leaderboard:top_volume" ∧
    3 ∈ lostClient.final.calls.service.clients "leaderboard:top_volume" := by
  have away : lostClient.StaysAway 1 := by
    unfold StaysAway
    decide +kernel
  exact ⟨by decide +kernel, lostClient.exact_once.2.1 1 (by decide +kernel) away, by decide +kernel⟩

end FanOut

end KuhlHausMdp.WidgetDataService
