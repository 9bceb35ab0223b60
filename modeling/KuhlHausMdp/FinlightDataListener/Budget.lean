import KuhlHausMdp.FinlightDataListener.Lifecycle

/-! The connections that one `_run` makes before it gives up, whatever the other
calls and tasks of the listener do meanwhile. -/

set_option autoImplicit false

namespace KuhlHausMdp.FinlightDataListener

open Transition

namespace Listener

/-- The `connect` calls that an action makes for a task: one at each turn of
its loop. -/
def connectCalls (config : Config) (task : Nat) (s : Listener) : Action → List Params
  | .begin other built => if other = task ∧ built ∧ s.running then [config.params s.settings] else []
  | .slept other => if other = task ∧ s.running then [config.params s.settings] else []
  | _ => []

/-- What the steps of others leave of a task, and of the counter it shares. -/
structure Beside (task : Nat) (s next : Listener) : Prop where
  stage : (next.tasks task).stage = (s.tasks task).stage
  reconnects : s.reconnects ≤ next.reconnects
  created : s.created ≤ next.created

def OwnAction (task : Nat) : Action → Prop
  | .begin other _ | .disconnected other _ | .slept other | .cancelled other => other = task
  | _ => False

/-- `calls` connect calls have been made by the task, out of a budget `most`. -/
structure Spent (most task calls : Nat) (s : Listener) : Prop where
  old : task < s.created
  le : calls ≤ most
  created : (s.tasks task).stage = .created → calls = 0
  connecting : ∀ params, (s.tasks task).stage = .connecting params → calls ≤ s.reconnects + 1
  sleeping : (s.tasks task).stage = .sleeping → calls ≤ s.reconnects ∧ calls < most

namespace Beside

variable {task : Nat} {s next : Listener}

theorem refl (task : Nat) (s : Listener) : Beside task s s := ⟨rfl, Nat.le_refl _, Nat.le_refl _⟩

theorem setStage (beside : Beside task s next) {other : Nat} (apart : task ≠ other) (stage : Stage) :
    Beside task s (next.setStage other stage) where
  stage := by
    simp only [Listener.setStage, Function.update_of_ne apart]
    exact beside.stage
  reconnects := beside.reconnects
  created := beside.created

theorem status (beside : Beside task s next) (up : Bool) : Beside task s (next.status up) :=
  ⟨beside.stage, beside.reconnects, beside.created⟩

theorem leave (beside : Beside task s next) {other : Nat} (apart : task ≠ other) : Beside task s (next.leave other) :=
  (beside.status false).setStage apart .finished

theorem loop (config : Config) {other : Nat} (apart : task ≠ other) : Beside task s (s.loop config other) := by
  unfold Listener.loop
  split
  · exact ((refl task s).status true).setStage apart _
  · exact (refl task s).leave apart

theorem reconnect (config : Config) {other : Nat} (apart : task ≠ other) : Beside task s (s.reconnect config other) := by
  have counted : Beside task s { s.status false with reconnects := s.reconnects + 1 } :=
    ⟨rfl, Nat.le_succ _, Nat.le_refl _⟩
  unfold Listener.reconnect
  simp only
  split
  · split
    · exact counted.leave apart
    · exact counted.setStage apart _
  · exact ((refl task s).status false).leave apart

theorem start (old : task < s.created) : Beside task s s.start := by
  have created : Beside task s ({ s with stopped := false } : Listener).createTask := by
    refine ⟨?_, Nat.le_refl _, Nat.le_succ _⟩
    simp only [createTask, Function.update_of_ne (Nat.ne_of_lt old)]
  unfold Listener.start
  simp only
  split
  · split
    · exact ⟨rfl, Nat.le_refl _, Nat.le_refl _⟩
    · exact created
  · exact created

theorem stop (call : Nat) (restarts : Bool) : Beside task s (s.stop call restarts) := by
  unfold Listener.stop
  simp only
  split
  · split
    · refine ⟨?_, Nat.le_refl _, Nat.le_refl _⟩
      simp only [cancel, setCall, Function.update_apply]
      split
      case isTrue same => rw [same]
      case isFalse => rfl
    · exact ⟨rfl, Nat.le_refl _, Nat.le_refl _⟩
  · exact ⟨rfl, Nat.le_refl _, Nat.le_refl _⟩

theorem assigned (settings : Settings) (call : Nat) : Beside task s ({ s with settings := settings }.assigned call) := by
  unfold Listener.assigned
  split <;> exact ⟨rfl, Nat.le_refl _, Nat.le_refl _⟩

/-- A step of anything but the task itself. -/
theorem of_step {config : Config} {action : Action} (old : task < s.created) (other : ¬OwnAction task action)
    (one : s.step config action = some next) : Beside task s next := by
  cases performed_of_step one with
  | start => exact start old
  | stop | restart | enter => exact stop _ _
  | setQuery | setTickers | setSources | setLanguage => exact assigned _ _
  | resume => exact ⟨rfl, Nat.le_refl _, Nat.le_refl _⟩
  | wake =>
      have started := start old
      exact ⟨started.stage, started.reconnects, started.created⟩
  | begin | slept => exact loop config fun same => other same.symm
  | disconnected => exact reconnect config fun same => other same.symm
  | aborted => exact (refl task s).leave fun same => other same.symm
  | broken | cancelled => exact (refl task s).setStage (fun same => other same.symm) _

end Beside

theorem connectCalls_other {config : Config} {task : Nat} {s : Listener} {action : Action}
    (other : ¬OwnAction task action) : connectCalls config task s action = [] := by
  cases action with
  | begin who built => exact if_neg fun here => other here.1
  | slept who => exact if_neg fun here => other here.1
  | _ => rfl

theorem not_exhausted {config : Config} {most reconnects : Nat} (bounded : config.maxReconnects = some (most : Int))
    (positive : 1 ≤ most) (left : ¬config.exhausted reconnects = true) : reconnects < most := by
  rw [Config.exhausted, bounded, decide_eq_true_eq, not_and] at left
  have below := left (by omega)
  omega

namespace Spent

variable {most task calls : Nat} {s next : Listener}

theorem beside (spent : Spent most task calls s) (same : Beside task s next) : Spent most task calls next where
  old := Nat.lt_of_lt_of_le spent.old same.created
  le := spent.le
  created := fun created => spent.created (same.stage ▸ created)
  connecting := by
    intro params connecting
    have before := spent.connecting params (same.stage ▸ connecting)
    have more := same.reconnects
    omega
  sleeping := by
    intro sleeping
    have before := spent.sleeping (same.stage ▸ sleeping)
    have more := same.reconnects
    omega

theorem finished (old : task < next.created) (le : calls ≤ most) (finished : (next.tasks task).stage = .finished) :
    Spent most task calls next where
  old := old
  le := le
  created := fun created => nomatch finished.symm.trans created
  connecting := fun _ connecting => nomatch finished.symm.trans connecting
  sleeping := fun sleeping => nomatch finished.symm.trans sleeping

theorem stage_setStage (s : Listener) (task : Nat) (stage : Stage) : ((s.setStage task stage).tasks task).stage = stage := by
  simp only [setStage, Function.update_self]

theorem loop (config : Config) (old : task < s.created) (left : calls < most) (counted : calls ≤ s.reconnects) :
    Spent most task (calls + if s.running then 1 else 0) (s.loop config task) := by
  unfold Listener.loop
  split
  case isTrue running =>
    have connecting := stage_setStage (s.status true) task (.connecting (config.params s.settings))
    refine ⟨old, by omega, ?_, ?_, ?_⟩
    · intro created
      cases connecting.symm.trans created
    · intro _ _
      exact Nat.succ_le_succ counted
    · intro sleeping
      cases connecting.symm.trans sleeping
  case isFalse => exact finished old (by omega) (stage_setStage (s.status false) task .finished)

theorem reconnect {config : Config} (bounded : config.maxReconnects = some (most : Int)) (positive : 1 ≤ most)
    (old : task < s.created) (le : calls ≤ most) (counted : calls ≤ s.reconnects + 1) :
    Spent most task calls (s.reconnect config task) := by
  have ended (t : Listener) (known : t.created = s.created) : Spent most task calls (t.leave task) :=
    finished (known ▸ old) le (stage_setStage (t.status false) task .finished)
  unfold Listener.reconnect
  simp only
  split
  · split
    · exact ended _ rfl
    · rename_i left
      have sleeping := stage_setStage { s.status false with reconnects := s.reconnects + 1 } task .sleeping
      have below : s.reconnects + 1 < most := not_exhausted bounded positive left
      refine ⟨old, le, ?_, ?_, ?_⟩
      · intro created
        cases sleeping.symm.trans created
      · intro params connecting
        cases sleeping.symm.trans connecting
      · intro _
        exact ⟨counted, by omega⟩
  · exact ended _ rfl

theorem step {config : Config} {action : Action} (spent : Spent most task calls s)
    (bounded : config.maxReconnects = some (most : Int)) (positive : 1 ≤ most) (one : s.step config action = some next) :
    Spent most task (calls + (connectCalls config task s action).length) next := by
  by_cases own : OwnAction task action
  case neg =>
    rw [connectCalls_other own]
    exact spent.beside (.of_step spent.old own one)
  case pos =>
    cases performed_of_step one with
    | @begin who created =>
        obtain rfl : who = task := own
        obtain rfl := spent.created created
        have turn := loop config spent.old positive (Nat.zero_le s.reconnects)
        cases running : s.running <;> simpa [connectCalls, running] using turn
    | @broken who =>
        obtain rfl : who = task := own
        simp only [connectCalls, Bool.false_eq_true, false_and, and_false, if_false, List.length_nil]
        exact finished spent.old spent.le (stage_setStage s who .finished)
    | @aborted who =>
        obtain rfl : who = task := own
        exact finished spent.old spent.le (stage_setStage (s.status false) who .finished)
    | @disconnected who params outcome connecting =>
        obtain rfl : who = task := own
        exact reconnect bounded positive spent.old spent.le (spent.connecting params connecting)
    | @slept who sleeping =>
        obtain rfl : who = task := own
        obtain ⟨counted, left⟩ := spent.sleeping sleeping
        have turn := loop config spent.old left counted
        cases running : s.running <;> simpa [connectCalls, running] using turn
    | @cancelled who =>
        obtain rfl : who = task := own
        exact finished spent.old spent.le (stage_setStage s who .finished)
    | _ => exact own.elim

end Spent

/-! Tasks are numbered as they are created. -/

def Numbered (s : Listener) : Prop := ∀ task, s.Unfinished task → task < s.created

namespace Numbered

variable {s next : Listener}

theorem of_fewer (numbered : s.Numbered) (created : next.created = s.created)
    (fewer : ∀ task, next.Unfinished task → s.Unfinished task) : next.Numbered := by
  intro task unfinished
  rw [created]
  exact numbered task (fewer task unfinished)

theorem follows (numbered : s.Numbered) (follows : s.Follows next) (created : next.created = s.created) :
    next.Numbered := numbered.of_fewer created follows.fewer

theorem start (numbered : s.Numbered) : s.start.Numbered := by
  have created : ({ s with stopped := false } : Listener).createTask.Numbered := by
    intro task unfinished
    rcases unfinished_createTask.mp unfinished with rfl | old
    · exact Nat.lt_succ_self _
    · exact Nat.lt_succ_of_lt (numbered task old)
  unfold Listener.start
  simp only
  split
  · split
    · exact numbered.of_fewer rfl fun _ same => same
    · exact created
  · exact created

theorem stop (numbered : s.Numbered) (call : Nat) (restarts : Bool) : (s.stop call restarts).Numbered := by
  unfold Listener.stop
  simp only
  split
  · split
    · exact numbered.of_fewer rfl fun _ => unfinished_cancel.mp
    · exact numbered.of_fewer rfl fun _ same => same
  · exact numbered.of_fewer rfl fun _ same => same

theorem assigned (numbered : s.Numbered) (settings : Settings) (call : Nat) :
    ({ s with settings := settings }.assigned call).Numbered := by
  unfold Listener.assigned
  split <;> exact numbered.of_fewer rfl fun _ same => same

theorem created_loop (config : Config) (s : Listener) (task : Nat) : (s.loop config task).created = s.created := by
  unfold Listener.loop
  split <;> rfl

theorem created_reconnect (config : Config) (s : Listener) (task : Nat) :
    (s.reconnect config task).created = s.created := by
  unfold Listener.reconnect
  simp only
  split
  · split <;> rfl
  · rfl

theorem step {config : Config} {action : Action} (numbered : s.Numbered) (one : s.step config action = some next) :
    next.Numbered := by
  cases performed_of_step one with
  | start | wake => exact numbered.start
  | stop | restart | enter => exact numbered.stop _ _
  | setQuery | setTickers | setSources | setLanguage => exact numbered.assigned _ _
  | resume => exact numbered.of_fewer rfl fun _ same => same
  | begin created => exact numbered.follows (follows_loop (unfinished_of_stage created nofun)) (created_loop ..)
  | slept sleeping => exact numbered.follows (follows_loop (unfinished_of_stage sleeping nofun)) (created_loop ..)
  | disconnected connecting =>
      exact numbered.follows (follows_reconnect (unfinished_of_stage connecting nofun)) (created_reconnect ..)
  | aborted => exact numbered.follows (follows_leave (.refl s) _) rfl
  | broken | cancelled => exact numbered.follows ((Follows.refl s).setStage (.inr rfl)) rfl

end Numbered

end Listener

/-- A `_run` that begins after any history of the listener, each of whose
connections ends by itself, until it gives up. Other calls and tasks may act in
between. -/
structure Run where
  config : Config
  most : Nat
  bounded : config.maxReconnects = some (most : Int)
  positive : 1 ≤ most
  settings : Settings
  history : List Action
  start : Listener
  reached : exec (Listener.step config) history (Listener.fresh settings) = some start
  task : Nat
  actions : List Action
  final : Listener
  run : exec (Listener.step config) (.begin task true :: actions) start = some final
  uncancelled : ∀ action ∈ actions, action ≠ .disconnected task .cancelled ∧ action ≠ .cancelled task
  gaveUp : (final.tasks task).stage = .finished

namespace Run

variable (r : Run)

def connects : List Params :=
  observe (Listener.step r.config) (Listener.connectCalls r.config r.task) (.begin r.task true :: r.actions) r.start

/-- The initial connection and as many reconnections as are allowed. -/
def WithinBudget : Prop := r.connects.length = r.most + 1

theorem length_connects_le : r.connects.length ≤ r.most := by
  have none : (Listener.fresh r.settings).Numbered := fun _ unfinished => absurd rfl unfinished
  have numbered : r.start.Numbered :=
    exec_invariant Listener.Numbered (fun numbered one => numbered.step one) none r.reached
  obtain ⟨next, one, more⟩ := exec_cons.mp r.run
  have created : (r.start.tasks r.task).stage = .created := by
    simp only [Listener.step] at one
    split at one
    · rename_i created
      rw [created]
    · cases one
  have unfinished : r.start.Unfinished r.task := by
    rw [Listener.Unfinished, created]
    intro finished
    cases finished
  have spent : Listener.Spent r.most r.task ([] : List Params).length r.start :=
    { old := numbered r.task unfinished
      le := Nat.zero_le _
      created := fun _ => rfl
      connecting := fun _ connecting => by cases created.symm.trans connecting
      sleeping := fun sleeping => by cases created.symm.trans sleeping }
  have all : Along (Listener.step r.config) (fun _ _ => True) (.begin r.task true :: r.actions) r.start :=
    along_of_forall (fun _ _ => trivial) r.start
  have ended := observe_invariant (fun s past => Listener.Spent r.most r.task past.length s)
    (fun spent _ one => by
      rw [List.length_append]
      exact Listener.Spent.step spent r.bounded r.positive one)
    spent all r.run
  exact ended.le

/-- The last reconnection is counted and not made, so no run is within its budget. -/
theorem not_withinBudget : ¬r.WithinBudget := by
  intro within
  have le := r.length_connects_le
  rw [within] at le
  omega

/-- With a budget of one the task gives up after its first connection. -/
def once : Run where
  config := ⟨false, true, some 1⟩
  most := 1
  bounded := rfl
  positive := Nat.le_refl 1
  settings := ⟨none, none, none, none⟩
  history := [.start]
  start := (Listener.fresh ⟨none, none, none, none⟩).start
  reached := rfl
  task := 0
  actions := [.disconnected 0 .returned]
  final := (((Listener.fresh ⟨none, none, none, none⟩).start.loop ⟨false, true, some 1⟩ 0).reconnect
    ⟨false, true, some 1⟩ 0)
  run := rfl
  uncancelled := by simp
  gaveUp := rfl

theorem withinBudget_once : once.connects.length = 1 ∧ ¬once.WithinBudget := by
  have one : once.connects.length = 1 := rfl
  refine ⟨one, ?_⟩
  rw [WithinBudget, one]
  decide

end Run

/-! The task alone: the counter of earlier runs is taken off its budget. -/

namespace Listener

/-- Connections end one after another, with a pause after each but the last. -/
def alone (task : Nat) : List Outcome → List Action
  | [] => []
  | [outcome] => [.disconnected task outcome]
  | outcome :: rest => .disconnected task outcome :: .slept task :: alone task rest

variable {config : Config} {most task : Nat} {s : Listener} {params : Params} {outcome : Outcome}

theorem step_disconnected (connecting : s.tasks task = ⟨.connecting params, false⟩) (ended : outcome ≠ .cancelled) :
    s.step config (.disconnected task outcome) = some (s.reconnect config task) := by
  cases outcome with
  | cancelled => exact absurd rfl ended
  | returned | raised => simp only [step, connecting]

theorem step_slept (sleeping : s.tasks task = ⟨.sleeping, false⟩) :
    s.step config (.slept task) = some (s.loop config task) := by
  simp only [step, sleeping]

theorem exec_alone (bounded : config.maxReconnects = some (most : Int)) (positive : 1 ≤ most) (running : s.running = true)
    (connecting : s.tasks task = ⟨.connecting params, false⟩) {outcomes : List Outcome}
    (ended : ∀ outcome ∈ outcomes, outcome ≠ .cancelled) (enough : outcomes.length = max 1 (most - s.reconnects)) :
    ∃ final, exec (step config) (alone task outcomes) s = some final ∧ (final.tasks task).stage = .finished ∧
      (observe (step config) (connectCalls config task) (alone task outcomes) s).length + 1 = outcomes.length := by
  induction outcomes generalizing s params with
  | nil =>
      rw [List.length_nil] at enough
      omega
  | cons outcome rest ih =>
      obtain ⟨here, later⟩ := List.forall_mem_cons.mp ended
      have one : s.step config (.disconnected task outcome) = some (s.reconnect config task) :=
        step_disconnected connecting here
      cases rest with
      | nil =>
          -- no other connection follows, so the count reaches the limit
          have spent : most ≤ s.reconnects + 1 := by
            simp only [List.length_singleton] at enough
            omega
          have exhausted : config.exhausted (s.reconnects + 1) = true := by
            by_contra left
            have below := not_exhausted bounded positive left
            omega
          have left : s.reconnect config task = { s.status false with reconnects := s.reconnects + 1 }.leave task := by
            simp only [reconnect, status, running, exhausted, if_true]
          refine ⟨s.reconnect config task, ?_, ?_, ?_⟩
          · exact exec_cons.mpr ⟨_, one, exec_nil _⟩
          · rw [left]
            exact Spent.stage_setStage _ task .finished
          · rw [alone, observe_cons one]
            rfl
      | cons next rest =>
          -- a connection that others follow leaves some of the budget
          have left : s.reconnects + 1 < most := by
            simp only [List.length_cons] at enough
            omega
          have unspent : ¬config.exhausted (s.reconnects + 1) = true := by
            rw [Config.exhausted, bounded, decide_eq_true_eq]
            omega
          let waits : Listener := { s.status false with reconnects := s.reconnects + 1 }.setStage task .sleeping
          have paused : s.reconnect config task = waits := by
            simp only [reconnect, status, running, unspent, if_true, Bool.false_eq_true, if_false, waits]
          have sleeping : waits.tasks task = ⟨.sleeping, false⟩ := Function.update_self ..
          let again : Listener := (waits.status true).setStage task (.connecting (config.params s.settings))
          have turned : waits.loop config task = again := if_pos running
          have two : waits.step config (.slept task) = some again := (step_slept sleeping).trans (congrArg some turned)
          obtain ⟨final, run, finished, counted⟩ :=
            ih (s := again) running (Function.update_self ..) later (by
              simp only [List.length_cons] at enough ⊢
              change rest.length + 1 = max 1 (most - (s.reconnects + 1))
              omega)
          rw [paused] at one
          refine ⟨final, ?_, finished, ?_⟩
          · exact exec_cons.mpr ⟨waits, one, exec_cons.mpr ⟨again, two, run⟩⟩
          · have turn : connectCalls config task waits (.slept task) = [config.params s.settings] :=
              if_pos ⟨rfl, running⟩
            have turns : alone task (outcome :: next :: rest) =
                .disconnected task outcome :: .slept task :: alone task (next :: rest) := rfl
            rw [turns, observe_cons one, observe_cons two, turn]
            simp only [connectCalls, List.nil_append, List.singleton_append, List.length_cons] at counted ⊢
            omega

end Listener

end KuhlHausMdp.FinlightDataListener
