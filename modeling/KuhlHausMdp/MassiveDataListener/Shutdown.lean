import KuhlHausMdp.MassiveDataListener.Lifecycle

/-! One call of `stop` from beginning to end, whoever makes it and whichever of
its steps fails. A call whose `CancelledError` comes up ends where it stands. -/

set_option autoImplicit false

namespace KuhlHausMdp.MassiveDataListener

open Transition

/-- What a call of `stop` meets: the awaits at which its caller is cancelled by
somebody else, and whether `unsubscribe_all` returns. An exception of `close`
comes after the attempt and is caught. -/
structure Course where
  cancelled : StopAt → Bool
  unsubscribes : Bool

namespace Listener

/-- The caller is one of the listener's tasks or, with `none`, a task of somebody else. -/
def interrupted (s : Listener) (caller : Option Nat) (course : Course) (point : StopAt) : Bool :=
  course.cancelled point ||
    match caller with
    | some task => (s.tasks task).cancelled
    | none => false

/-- `stop` from one of its awaits on, with at most so many awaits to come. -/
def finishStop (caller : Option Nat) (course : Course) : Nat → Listener × Option StopAt → Listener
  | awaits + 1, (s, some point) =>
      if s.interrupted caller course point then s
      else finishStop caller course awaits (s.stopFrom point course.unsubscribes)
  | _, (s, _) => s

def stopCall (s : Listener) (caller : Option Nat) (course : Course) : Listener := finishStop caller course 3 s.stop

def unsubscribeAll (s : Listener) (connection : Nat) : Listener :=
  { s with clients := s.clients.modify connection fun client => { client with unsubscribed := true } }

def close (s : Listener) (connection : Nat) : Listener :=
  { s with clients := s.clients.modify connection fun client => { client with closing := true } }

def Closing (s : Listener) (connection : Nat) : Prop :=
  ∀ client, s.clients[connection]? = some client → client.closing = true

structure ShutDown (before after : Listener) : Prop where
  closed : ∀ connection, before.wsConnection = some connection → after.Closing connection
  disconnected : after.connected = false
  noConnection : after.wsConnection = none
  noCoroutine : after.wsCoroutine = none

/-- The caller is not the task that `ws_coroutine` refers to, nor cancelled at
an await it comes to, and the call comes to `close` unless there is nothing to close. -/
def Orderly (s : Listener) (caller : Option Nat) (course : Course) : Prop :=
  match s.wsCoroutine with
  | none => ∀ connection, s.wsConnection = some connection → s.Closing connection
  | some current =>
      (caller ≠ some current ∧ s.interrupted caller course .cancelled = false) ∧
        ∀ connection, s.wsConnection = some connection →
          if course.unsubscribes then course.cancelled .unsubscribed = false ∧ course.cancelled .closing = false
          else s.Closing connection

/-! The stretches of `stop`. -/

section StopFrom

variable {s : Listener} {connection : Nat} {answered : Bool}

theorem stopFrom_unconnected {point : StopAt} (unconnected : s.wsConnection = none) :
    s.stopFrom point answered = (s.shut, none) := by
  cases point <;> simp only [stopFrom, unconnected]

theorem stopFrom_unanswered : s.stopFrom .cancelled false = (s.shut, none) := by
  cases serving : s.wsConnection <;> simp [stopFrom, serving]

theorem stopFrom_answered (serving : s.wsConnection = some connection) :
    s.stopFrom .cancelled true = (s.unsubscribeAll connection, some .unsubscribed) := by
  simp only [stopFrom, serving, if_true, unsubscribeAll]

theorem stopFrom_unsubscribed (serving : s.wsConnection = some connection) :
    s.stopFrom .unsubscribed answered = (s.close connection, some .closing) := by
  simp only [stopFrom, serving, close]

theorem stopFrom_closing : s.stopFrom .closing answered = (s.shut, none) := rfl

end StopFrom

/-! When the caller is struck. -/

/-- `cancel` reaches the caller itself at its next await. -/
theorem interrupted_cancel {s : Listener} {current : Nat} {caller : Option Nat} {course : Course} {point : StopAt} :
    (s.cancel current).interrupted caller course point = false ↔
      caller ≠ some current ∧ s.interrupted caller course point = false := by
  cases caller with
  | none => simp [interrupted]
  | some task =>
      by_cases same : task = current
      · simp [interrupted, cancel, same]
      · simp [interrupted, cancel, same]

theorem interrupted_later {s next : Listener} {caller : Option Nat} {course : Course} {first : StopAt}
    (went : s.interrupted caller course first = false) (same : next.tasks = s.tasks) (point : StopAt) :
    next.interrupted caller course point = course.cancelled point := by
  have unmarked := (Bool.or_eq_false_iff.mp went).2
  unfold interrupted
  rw [same, unmarked, Bool.or_false]

theorem finishStop_none (caller : Option Nat) (course : Course) (awaits : Nat) (s : Listener) :
    finishStop caller course awaits (s, none) = s := by
  cases awaits <;> rfl

theorem finishStop_succ (caller : Option Nat) (course : Course) (awaits : Nat) (s : Listener) (point : StopAt) :
    finishStop caller course (awaits + 1) (s, some point) =
      if s.interrupted caller course point then s
      else finishStop caller course awaits (s.stopFrom point course.unsubscribes) := rfl

/-! The call, by what `ws_coroutine` and `ws_connection` are. -/

theorem stopCall_idle {s : Listener} (idle : s.wsCoroutine = none) (caller : Option Nat) (course : Course) :
    s.stopCall caller course = s.shut := by
  rw [stopCall, stop, idle]
  rfl

section Cancels

variable {s : Listener} {current connection : Nat} {caller : Option Nat} {course : Course}

theorem stopCall_cancels (refers : s.wsCoroutine = some current) :
    s.stopCall caller course =
      if (s.cancel current).interrupted caller course .cancelled then s.cancel current
      else finishStop caller course 2 ((s.cancel current).stopFrom .cancelled course.unsubscribes) := by
  rw [stopCall, stop, refers]
  exact finishStop_succ ..

theorem stopCall_interrupted (refers : s.wsCoroutine = some current)
    (strikes : (s.cancel current).interrupted caller course .cancelled = true) :
    s.stopCall caller course = s.cancel current := by
  rw [stopCall_cancels refers, if_pos strikes]

theorem stopCall_unconnected (refers : s.wsCoroutine = some current)
    (goes : (s.cancel current).interrupted caller course .cancelled = false) (unconnected : s.wsConnection = none) :
    s.stopCall caller course = (s.cancel current).shut := by
  have still : (s.cancel current).wsConnection = none := unconnected
  rw [stopCall_cancels refers, if_neg (Bool.eq_false_iff.mp goes), stopFrom_unconnected still, finishStop_none]

theorem stopCall_unanswered (refers : s.wsCoroutine = some current)
    (goes : (s.cancel current).interrupted caller course .cancelled = false) (fails : course.unsubscribes = false) :
    s.stopCall caller course = (s.cancel current).shut := by
  rw [stopCall_cancels refers, if_neg (Bool.eq_false_iff.mp goes), fails, stopFrom_unanswered, finishStop_none]

theorem stopCall_answered (refers : s.wsCoroutine = some current)
    (goes : (s.cancel current).interrupted caller course .cancelled = false) (serving : s.wsConnection = some connection)
    (answers : course.unsubscribes = true) :
    s.stopCall caller course =
      if course.cancelled .unsubscribed then (s.cancel current).unsubscribeAll connection
      else if course.cancelled .closing then ((s.cancel current).unsubscribeAll connection).close connection
      else (((s.cancel current).unsubscribeAll connection).close connection).shut := by
  have still : (s.cancel current).wsConnection = some connection := serving
  have asked : ((s.cancel current).unsubscribeAll connection).wsConnection = some connection := serving
  -- a caller that was not struck at the first await is not the task `stop` has cancelled
  have second : ((s.cancel current).unsubscribeAll connection).interrupted caller course .unsubscribed =
      course.cancelled .unsubscribed := interrupted_later goes rfl .unsubscribed
  have third : (((s.cancel current).unsubscribeAll connection).close connection).interrupted caller course .closing =
      course.cancelled .closing := interrupted_later goes rfl .closing
  rw [stopCall_cancels refers, if_neg (Bool.eq_false_iff.mp goes), answers, stopFrom_answered still, finishStop_succ,
    second, stopFrom_unsubscribed asked, finishStop_succ, third, stopFrom_closing, finishStop_none]

end Cancels

/-! Which of these ends is a shutdown. -/

theorem shutDown_shut {before after : Listener} :
    ShutDown before after.shut ↔ ∀ connection, before.wsConnection = some connection → after.Closing connection := by
  constructor
  · exact fun down => down.closed
  · exact fun closed => ⟨closed, rfl, rfl, rfl⟩

theorem not_shutDown {before after : Listener} {current : Nat} (kept : after.wsCoroutine = some current) :
    ¬ShutDown before after := by
  intro down
  cases kept.symm.trans down.noCoroutine

theorem closing_close (s : Listener) (connection : Nat) : (s.close connection).Closing connection := by
  intro client found
  rw [close, List.getElem?_modify_eq] at found
  obtain ⟨old, -, rfl⟩ := Option.map_eq_some_iff.mp found
  rfl

theorem shutDown_stopCall_goes {s : Listener} {current : Nat} {caller : Option Nat} {course : Course}
    (refers : s.wsCoroutine = some current)
    (goes : (s.cancel current).interrupted caller course .cancelled = false) :
    ShutDown s (s.stopCall caller course) ↔
      ∀ connection, s.wsConnection = some connection →
        if course.unsubscribes then course.cancelled .unsubscribed = false ∧ course.cancelled .closing = false
        else s.Closing connection := by
  cases serving : s.wsConnection with
  | none =>
      rw [stopCall_unconnected refers goes serving, shutDown_shut, serving]
      exact iff_of_true nofun nofun
  | some connection =>
      simp only [Option.some.injEq, forall_eq']
      cases answers : course.unsubscribes with
      | false =>
          rw [stopCall_unanswered refers goes answers, shutDown_shut, serving]
          simp only [Option.some.injEq, forall_eq']
          exact Iff.rfl
      | true =>
          rw [stopCall_answered refers goes serving answers]
          cases course.cancelled .unsubscribed with
          | true => exact iff_of_false (not_shutDown refers) nofun
          | false =>
              cases course.cancelled .closing with
              | true => exact iff_of_false (not_shutDown refers) nofun
              | false =>
                  refine iff_of_true (shutDown_shut.mpr ?_) ⟨rfl, rfl⟩
                  intro other same
                  cases serving.symm.trans same
                  exact closing_close _ connection

/-- A call of `stop` shuts the listener down just when its caller is not struck
by a cancellation, its own included, and it does not leave out `close`. -/
theorem shutDown_stopCall_iff (s : Listener) (caller : Option Nat) (course : Course) :
    ShutDown s (s.stopCall caller course) ↔ s.Orderly caller course := by
  unfold Orderly
  cases refers : s.wsCoroutine with
  | none =>
      rw [stopCall_idle refers, shutDown_shut]
  | some current =>
      cases goes : (s.cancel current).interrupted caller course .cancelled with
      | true =>
          have kept : (s.cancel current).wsCoroutine = some current := refers
          rw [stopCall_interrupted refers goes]
          apply iff_of_false (not_shutDown kept)
          intro orderly
          cases goes.symm.trans (interrupted_cancel.mpr orderly.1)
      | false =>
          rw [shutDown_stopCall_goes refers goes]
          exact (and_iff_right (interrupted_cancel.mp goes)).symm

/-- The task that is running makes the call itself: it had connected to the
provider, was disconnected, and could not ask for the market's status. -/
def disconnected : List Action := [.start 0 true, .begin 0, .ask 0 .raised true, .cancelled 0]

theorem not_shutDown_disconnected :
    ∃ before s, exec (step (some 1)) [.start 0 true, .begin 0] (fresh ⟨"realtime", "stocks", ["T.*"]⟩) = some before ∧
      ¬before.ShutDown (before.stopCall (some 0) ⟨fun _ => false, true⟩) ∧
      exec (step (some 1)) disconnected (fresh ⟨"realtime", "stocks", ["T.*"]⟩) = some s ∧
      s.wsConnection = some 0 ∧ s.wsCoroutine = some 0 ∧ s.clients = [⟨s.settings, false, false⟩] := by
  refine ⟨_, _, rfl, ?_, rfl, rfl, rfl, rfl⟩
  intro down
  cases down.noConnection

/-! The steps of a call are those of the listener. -/

def awaitsLeft : Option StopAt → Nat
  | some .cancelled => 3
  | some .unsubscribed => 2
  | some .closing => 1
  | none => 0

theorem awaitsLeft_stopFrom (s : Listener) (point : StopAt) (answered : Bool) :
    awaitsLeft (s.stopFrom point answered).2 < awaitsLeft (some point) := by
  cases point <;> cases answered <;> cases serving : s.wsConnection <;> simp [stopFrom, serving, awaitsLeft]

theorem stopFrom_setCall (s : Listener) (call : Nat) (stage : Option Call) (point : StopAt) (answered : Bool) :
    (s.setCall call stage).stopFrom point answered =
      ((s.stopFrom point answered).1.setCall call stage, (s.stopFrom point answered).2) := by
  have same : (s.setCall call stage).wsConnection = s.wsConnection := rfl
  cases point <;> cases answered <;> cases serving : s.wsConnection <;> simp [stopFrom, same, serving] <;> rfl

section Runs

variable {maxReconnects : Option Int}

theorem step_resume (s : Listener) (call : Nat) (restarts : Bool) (point : StopAt) (answered : Bool) :
    (setStopping (s, some point) call restarts).step maxReconnects (.resume call answered) =
      some (setStopping (s.stopFrom point answered) call restarts) := by
  have stopping : (s.setCall call (some (.stopping point restarts))).calls call = some (.stopping point restarts) :=
    Function.update_self ..
  have suspended : setStopping (s, some point) call restarts = s.setCall call (some (.stopping point restarts)) := rfl
  rw [suspended]
  simp only [step, stopping, setStopping, stopFrom_setCall]
  simp only [setCall, Function.update_idem]

theorem exec_finishStop (call : Nat) (restarts answered : Bool) (awaits : Nat) (result : Listener × Option StopAt)
    (enough : awaitsLeft result.2 ≤ awaits) :
    ∃ actions, exec (step maxReconnects) actions (setStopping result call restarts) =
      some (setStopping (finishStop none ⟨fun _ => false, answered⟩ awaits result, none) call restarts) := by
  induction awaits generalizing result with
  | zero =>
      obtain ⟨s, _ | point⟩ := result
      · exact ⟨[], rfl⟩
      · cases point <;> cases enough
  | succ awaits ih =>
      obtain ⟨s, _ | point⟩ := result
      · exact ⟨[], rfl⟩
      · have fewer := awaitsLeft_stopFrom s point answered
        obtain ⟨actions, run⟩ := ih (s.stopFrom point answered) (by simp only at enough; omega)
        refine ⟨.resume call answered :: actions, ?_⟩
        exact exec_cons.mpr ⟨_, step_resume s call restarts point answered, run⟩

theorem exec_stopCall {s : Listener} {call : Nat} (unused : s.calls call = none) (answered : Bool) :
    ∃ actions, exec (step maxReconnects) (.stop call :: actions) s =
      some ((s.stopCall none ⟨fun _ => false, answered⟩).setCall call none) := by
  have enough : awaitsLeft s.stop.2 ≤ 3 := by
    unfold stop
    split
    · exact Nat.le_refl 3
    · exact Nat.zero_le 3
  obtain ⟨actions, run⟩ := @exec_finishStop maxReconnects call false answered 3 s.stop enough
  refine ⟨actions, exec_cons.mpr ⟨_, ?_, run⟩⟩
  simp only [step, called, unused]

theorem step_cancelled {s : Listener} {task : Nat} (marked : (s.tasks task).cancelled = true) (point : StopAt) :
    (s.setStage task (.stopping point)).step maxReconnects (.cancelled task) = some (s.setStage task .finished) := by
  have stopping : (s.setStage task (.stopping point)).tasks task = ⟨.stopping point, true⟩ := by
    rw [tasks_setStage, if_pos rfl, ← marked]
  simp only [step, stopping]
  simp only [setStage, Function.update_self, Function.update_idem]

/-- A task that calls `stop` while `ws_coroutine` refers to it ends at its first await. -/
theorem step_ownStop {s : Listener} {task : Nat} (refers : s.wsCoroutine = some task) (course : Course) :
    (setTaskStopping s.stop task).step maxReconnects (.cancelled task) =
      some ((s.stopCall (some task) course).setStage task .finished) := by
  have marked : ((s.cancel task).tasks task).cancelled = true := by simp [cancel]
  have strikes : (s.cancel task).interrupted (some task) course .cancelled = true := by simp [interrupted, marked]
  have own : setTaskStopping s.stop task = (s.cancel task).setStage task (.stopping .cancelled) := by
    simp only [setTaskStopping, stop, refers]
  rw [stopCall_interrupted refers strikes, own, step_cancelled marked]

end Runs

end Listener

end KuhlHausMdp.MassiveDataListener
