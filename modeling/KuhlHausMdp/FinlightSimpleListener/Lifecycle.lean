import Mathlib
import KuhlHausMdp.FinlightSimpleListener

/-! `start` and `stop`: `start` does not look for a task that is there already. -/

set_option autoImplicit false

namespace KuhlHausMdp.FinlightSimpleListener

open Transition

variable {F Text : Type*} {number : F → ℚ} {json : Json Text} {s next : FinlightSimpleListener F Text}

/-- At most one `_run` task is unfinished, and it is the one `_task` refers to. -/
def Single (s : FinlightSimpleListener F Text) : Prop := ∀ task, s.Unfinished task → s.task = some task

def Settled (s : FinlightSimpleListener F Text) : Prop :=
  ∀ call task : Nat, s.stops[call]? ≠ some (some task)

/-- After a `stop` that no `start` follows, with none of them under way, every
`_run` task is finished and the status says so. -/
def Quiet (s : FinlightSimpleListener F Text) : Prop :=
  s.running = false → s.Settled → (∀ task, ¬s.Unfinished task) ∧ s.connected = false ∧ s.healthy = false

def NotReplacing (s : FinlightSimpleListener F Text) : Action F → Prop
  | .start => ∀ runTask ∈ s.tasks, runTask.stage = .finished
  | _ => True

structure Inv (s : FinlightSimpleListener F Text) : Prop where
  single : s.Single
  awaited : s.running = false → ∀ task, s.Unfinished task → ∃ call : Nat, s.stops[call]? = some (some task)
  down : s.running = false → s.Settled → s.connected = false ∧ s.healthy = false

theorem Inv.quiet (inv : s.Inv) : s.Quiet := by
  intro stopped settled
  refine ⟨fun task unfinished => ?_, inv.down stopped settled⟩
  obtain ⟨call, awaiting⟩ := inv.awaited stopped task unfinished
  exact settled call task awaiting

/-- A step that makes no task, and changes the status only as a step of a task. -/
structure Follows (s next : FinlightSimpleListener F Text) : Prop where
  task : next.task = s.task
  running : next.running = s.running
  stops : next.stops = s.stops
  fewer : ∀ task, next.Unfinished task → s.Unfinished task
  status : (next.connected = s.connected ∧ next.healthy = s.healthy) ∨ ∃ task, s.Unfinished task

theorem Inv.follow (inv : s.Inv) (follows : s.Follows next) : next.Inv where
  single task unfinished := follows.task.trans (inv.single task (follows.fewer task unfinished))
  awaited stopped task unfinished := by
    rw [follows.stops]
    exact inv.awaited (follows.running.symm.trans stopped) task (follows.fewer task unfinished)
  down stopped settled := by
    have before : s.running = false := follows.running.symm.trans stopped
    have free : s.Settled := by rwa [Settled, follows.stops] at settled
    rcases follows.status with ⟨connected, healthy⟩ | ⟨task, unfinished⟩
    · rw [connected, healthy]
      exact inv.down before free
    · obtain ⟨call, awaiting⟩ := inv.awaited before task unfinished
      exact absurd awaiting (free call task)

theorem unfinished_of_set {task other : Nat} {runTask : RunTask} (before : s.Unfinished task)
    (after : ({ s with tasks := s.tasks.set task runTask } : FinlightSimpleListener F Text).Unfinished other) :
    s.Unfinished other := by
  by_cases same : other = task
  · exact same ▸ before
  · unfold Unfinished stageOf at after ⊢
    rwa [List.getElem?_set_ne (Ne.symm same)] at after

theorem follows_loop {task : Nat} (unfinished : s.Unfinished task) : s.Follows (s.loop task) := by
  unfold loop
  split
  · exact ⟨rfl, rfl, rfl, fun _ => unfinished_of_set unfinished, .inr ⟨task, unfinished⟩⟩
  · exact ⟨rfl, rfl, rfl, fun _ => unfinished_of_set unfinished, .inr ⟨task, unfinished⟩⟩

theorem follows_disconnected {task : Nat} {outcome : Outcome} (unfinished : s.Unfinished task) :
    s.Follows (s.disconnected task outcome) := by
  cases outcome with
  | returned =>
      have down : ({ s with connected := false } : FinlightSimpleListener F Text).Unfinished task := unfinished
      have after := follows_loop down
      exact ⟨after.task, after.running, after.stops, after.fewer, .inr ⟨task, unfinished⟩⟩
  | cancelled => exact ⟨rfl, rfl, rfl, fun _ => unfinished_of_set unfinished, .inr ⟨task, unfinished⟩⟩
  | raised =>
      unfold disconnected
      simp only
      split
      · exact ⟨rfl, rfl, rfl, fun _ => unfinished_of_set unfinished, .inr ⟨task, unfinished⟩⟩
      · exact ⟨rfl, rfl, rfl, fun _ => unfinished_of_set unfinished, .inr ⟨task, unfinished⟩⟩

theorem finished_of_idle (idle : ∀ runTask ∈ s.tasks, runTask.stage = .finished) (task : Nat) : ¬s.Unfinished task := by
  unfold Unfinished stageOf
  split
  · rename_i runTask at_
    exact fun unfinished => unfinished (idle runTask (List.mem_of_getElem? at_))
  · exact fun unfinished => unfinished rfl

theorem stageOf_start {task : Nat} (older : task ≠ s.tasks.length) : s.start.stageOf task = s.stageOf task := by
  unfold stageOf start
  rcases Nat.lt_or_gt_of_ne older with before | beyond
  · rw [List.getElem?_append_left before]
  · rw [List.getElem?_eq_none (by simp; omega), List.getElem?_eq_none (by omega)]

theorem Inv.start (idle : ∀ runTask ∈ s.tasks, runTask.stage = .finished) : s.start.Inv where
  single task unfinished := by
    by_cases new : task = s.tasks.length
    · exact congrArg some new.symm
    · unfold Unfinished at unfinished
      rw [stageOf_start new] at unfinished
      exact absurd unfinished (finished_of_idle idle task)
  awaited stopped := by cases stopped
  down stopped := by cases stopped

theorem inv_stopped (finished : ∀ task, ¬s.Unfinished task) :
    ({ s.status false with running := false, stops := s.stops ++ [none] } : FinlightSimpleListener F Text).Inv where
  single task unfinished := absurd unfinished (finished task)
  awaited _ task unfinished := absurd unfinished (finished task)
  down _ _ := ⟨rfl, rfl⟩

theorem Inv.stop (inv : s.Inv) : s.stop.Inv := by
  unfold FinlightSimpleListener.stop
  simp only
  split
  · rename_i task installed
    split
    · rename_i unfinished
      have waits : (s.stops ++ [some task])[s.stops.length]? = some (some task) := List.getElem?_concat_length
      refine ⟨fun other still => ?_, fun _ other still => ?_, fun _ settled => ?_⟩
      · exact inv.single other (unfinished_of_set unfinished still)
      · have same : some task = some other :=
          installed.symm.trans (inv.single other (unfinished_of_set unfinished still))
        cases same
        exact ⟨s.stops.length, waits⟩
      · exact absurd waits (settled s.stops.length task)
    · rename_i finished
      apply inv_stopped
      intro other unfinished
      have same : some task = some other := installed.symm.trans (inv.single other unfinished)
      cases same
      exact finished unfinished
  · rename_i none
    apply inv_stopped
    intro other unfinished
    cases none.symm.trans (inv.single other unfinished)

theorem Inv.finishStop {call task : Nat} (inv : s.Inv) (awaiting : s.stops[call]? = some (some task))
    (finished : ¬s.Unfinished task) : (s.finishStop call).Inv where
  single := inv.single
  awaited stopped other unfinished := by
    obtain ⟨elsewhere, waits⟩ := inv.awaited stopped other unfinished
    have apart : elsewhere ≠ call := by
      rintro rfl
      cases awaiting.symm.trans waits
      exact finished unfinished
    exact ⟨elsewhere, (List.getElem?_set_ne (Ne.symm apart)).trans waits⟩
  down _ _ := ⟨rfl, rfl⟩

theorem follows_handleArticle {i : Nat} {article : Serde.Obj F} :
    s.Follows (s.handleArticle number json i article) := by
  unfold handleArticle
  simp only
  split
  · exact ⟨rfl, rfl, rfl, fun _ same => same, .inl ⟨rfl, rfl⟩⟩
  · exact ⟨rfl, rfl, rfl, fun _ same => same, .inl ⟨rfl, rfl⟩⟩
  · exact ⟨rfl, rfl, rfl, fun _ same => same, .inl ⟨rfl, rfl⟩⟩

theorem Inv.step {action : Action F} (inv : s.Inv) (fine : s.NotReplacing action)
    (one : s.step number json action = some next) : next.Inv := by
  cases performed_of_step one with
  | start => exact .start fine
  | stop => exact inv.stop
  | stopped awaiting finished => exact inv.finishStop awaiting finished
  | begin unfinished | slept unfinished => exact inv.follow (follows_loop unfinished)
  | cancelled unfinished => exact inv.follow ⟨rfl, rfl, rfl, fun _ => unfinished_of_set unfinished, .inl ⟨rfl, rfl⟩⟩
  | disconnected unfinished => exact inv.follow (follows_disconnected unfinished)
  | article | confirm | rabbit => exact inv.follow ⟨rfl, rfl, rfl, fun _ same => same, .inl ⟨rfl, rfl⟩⟩
  | handle => exact inv.follow follows_handleArticle

/-- A `start` that replaces an unfinished task leaves it out of reach. -/
theorem notReplacing_of_single {action : Action F}
    (single : ∀ next, s.step number json action = some next → next.Single) : s.NotReplacing action := by
  cases action with
  | start =>
      intro runTask member
      obtain ⟨task, at_⟩ := List.mem_iff_getElem?.mp member
      by_contra unfinished
      have older : task ≠ s.tasks.length := Nat.ne_of_lt (List.getElem?_eq_some_iff.mp at_).1
      have left : s.start.Unfinished task := by
        unfold Unfinished
        rw [stageOf_start older]
        exact unfinished_of_stage at_ unfinished
      exact older (Option.some.inj (single s.start rfl task left)).symm
  | _ => trivial

/-- In every state of a run there is one task at most and `stop` reaches it, so that
nothing is left of it when `stop` returns, just when no `start` is made while a task
is unfinished. -/
theorem quiet_iff (number : F → ℚ) (json : Json Text) (actions : List (Action F)) :
    Along (step number json) (fun s action => ∀ next, s.step number json action = some next → next.Single ∧ next.Quiet)
        actions fresh ↔
      Along (step number json) NotReplacing actions fresh := by
  have start : (fresh : FinlightSimpleListener F Text).Inv :=
    ⟨fun _ unfinished => absurd rfl unfinished, fun _ _ unfinished => absurd rfl unfinished, fun _ _ => ⟨rfl, rfl⟩⟩
  apply along_congr Inv (fun inv fine one => inv.step fine one) _ start
  intro s action inv
  constructor
  · exact fun kept => notReplacing_of_single fun next one => (kept next one).1
  · intro fine next one
    have after := inv.step fine one
    exact ⟨after.single, after.quiet⟩

/-- A second `start` leaves the first task running: it still receives articles
after `stop` has returned. -/
def replaced : List (Action F) :=
  [.start, .begin 0, .start, .stop, .cancelled 1, .stopped 0, .article 0 (.object [("title", .str "late")])]

example : ∃ s, exec (step (id : ℚ → ℚ) Json.document) replaced fresh = some s ∧
    s.running = false ∧ s.stops = [none] ∧ s.handlers.length = 1 := ⟨_, rfl, rfl, rfl, rfl⟩

end KuhlHausMdp.FinlightSimpleListener
