import Mathlib.Data.Finset.Basic
import KuhlHausMdp.Library.Transition

/-! `stop` of the two data processors beside the deliveries and the tasks. It
waits for the tasks it finds once; deliveries go on until the channel is closed. -/

set_option autoImplicit false

namespace KuhlHausMdp.DataProcessor

open Transition

/-- Where `stop` stands: before its first line, awaiting the tasks it found, or
awaiting one of the three `close` calls. -/
inductive Stop where
  | consuming
  | gathering (tasks : Finset Nat)
  | closingChannel
  | closingConnection
  | closingRedis
  | stopped
  deriving DecidableEq

/-- Tasks are numbered as `_callback` creates them. `seen` is how many there
were when `stop` read `processing_tasks`. -/
structure Consumer where
  created : Nat
  unfinished : Finset Nat
  processingTasks : Finset Nat
  running : Bool
  stop : Stop
  seen : Option Nat

inductive Move where
  | deliver
  | work (task : Nat)
  | finish (task : Nat)
  | discard (task : Nat)
  | stop
  deriving DecidableEq

namespace Consumer

def started : Consumer where
  created := 0
  unfinished := ∅
  processingTasks := ∅
  running := true
  stop := .consuming
  seen := none

/-- Messages arrive until the channel is closed. -/
def channelOpen (s : Consumer) : Bool :=
  match s.stop with
  | .consuming | .gathering _ | .closingChannel => true
  | _ => false

/-- `_callback`: a task is created and put into `processing_tasks`. -/
def callback (s : Consumer) : Consumer :=
  { s with
    created := s.created + 1
    unfinished := insert s.created s.unfinished
    processingTasks := insert s.created s.processingTasks }

/-- `stop` up to its next `await`. Nothing is awaited when no task is found. -/
def stopStep (s : Consumer) : Option Consumer :=
  match s.stop with
  | .consuming =>
      if s.processingTasks = ∅ then some { s with running := false, stop := .closingChannel, seen := some s.created }
      else some { s with running := false, stop := .gathering s.processingTasks, seen := some s.created }
  | .gathering tasks => if Disjoint tasks s.unfinished then some { s with stop := .closingChannel } else none
  | .closingChannel => some { s with stop := .closingConnection }
  | .closingConnection => some { s with stop := .closingRedis }
  | .closingRedis => some { s with stop := .stopped }
  | .stopped => none

/-- A task leaves the set in a callback of its own, after it has finished. -/
def step (s : Consumer) : Move → Option Consumer
  | .deliver => if s.channelOpen then some s.callback else none
  | .work task => if task ∈ s.unfinished then some s else none
  | .finish task => if task ∈ s.unfinished then some { s with unfinished := s.unfinished.erase task } else none
  | .discard task =>
      if task ∈ s.processingTasks ∧ task ∉ s.unfinished then
        some { s with processingTasks := s.processingTasks.erase task }
      else none
  | .stop => s.stopStep

/-- Whether a move is one in which `stop` calls `close` on the channel, the
connection or the Redis client. -/
def closes (s : Consumer) (move : Move) : Prop :=
  move = .stop ∧ match s.stop with
    | .consuming => s.processingTasks = ∅
    | .gathering tasks => Disjoint tasks s.unfinished
    | .closingChannel | .closingConnection => True
    | .closingRedis | .stopped => False

def Graceful (s : Consumer) (move : Move) : Prop := s.closes move → s.unfinished = ∅

/-- Nothing is closed while a task that `stop` did not find is unfinished. -/
def LateFinished (s : Consumer) (move : Move) : Prop :=
  s.closes move → ∀ task ∈ s.unfinished, ∀ seen, s.seen = some seen → task < seen

/-- Unfinished tasks are in the set, and those that `stop` found are awaited. -/
structure Tracked (s : Consumer) : Prop where
  held : s.unfinished ⊆ s.processingTasks
  numbered : ∀ task ∈ s.processingTasks, task < s.created
  found : match s.stop with
    | .consuming => s.seen = none
    | .gathering tasks => ∃ seen, s.seen = some seen ∧ seen ≤ s.created ∧ ∀ task ∈ s.unfinished, task < seen → task ∈ tasks
    | _ => ∃ seen, s.seen = some seen ∧ seen ≤ s.created ∧ ∀ task ∈ s.unfinished, seen ≤ task

theorem Tracked.started : started.Tracked where
  held := Finset.Subset.refl ∅
  numbered _ member := absurd member (Finset.notMem_empty _)
  found := rfl

theorem Tracked.of_tasks {s next : Consumer} (tracked : s.Tracked) (sameStop : next.stop = s.stop)
    (sameSeen : next.seen = s.seen) (more : s.created ≤ next.created)
    (added : ∀ task ∈ next.unfinished, task ∈ s.unfinished ∨ s.created ≤ task)
    (held : next.unfinished ⊆ next.processingTasks) (numbered : ∀ task ∈ next.processingTasks, task < next.created) :
    next.Tracked where
  held := held
  numbered := numbered
  found := by
    have found := tracked.found
    rw [sameStop, sameSeen]
    cases at_ : s.stop with
    | consuming => simpa only [at_] using found
    | gathering tasks =>
        simp only [at_] at found ⊢
        obtain ⟨seen, isSeen, bound, awaited⟩ := found
        refine ⟨seen, isSeen, bound.trans more, fun task member early => ?_⟩
        rcases added task member with old | new
        · exact awaited task old early
        · omega
    | _ =>
        simp only [at_] at found ⊢
        obtain ⟨seen, isSeen, bound, late⟩ := found
        refine ⟨seen, isSeen, bound.trans more, fun task member => ?_⟩
        rcases added task member with old | new
        · exact late task old
        · omega

theorem Tracked.callback {s : Consumer} (tracked : s.Tracked) : s.callback.Tracked := by
  refine tracked.of_tasks rfl rfl (Nat.le_succ _) (fun task member => ?_) ?_ fun task member => ?_
  · rcases Finset.mem_insert.mp member with rfl | old
    · exact .inr (Nat.le_refl _)
    · exact .inl old
  · exact Finset.insert_subset_insert _ tracked.held
  · rcases Finset.mem_insert.mp member with rfl | old
    · exact Nat.lt_succ_self _
    · exact Nat.lt_succ_of_lt (tracked.numbered task old)

theorem Tracked.stopStep {s next : Consumer} (tracked : s.Tracked) (one : s.stopStep = some next) : next.Tracked := by
  obtain ⟨held, numbered, found⟩ := tracked
  unfold Consumer.stopStep at one
  cases at_ : s.stop with
  | consuming =>
      simp only [at_] at one
      by_cases none : s.processingTasks = ∅
      · rw [if_pos none] at one
        cases one
        refine ⟨held, numbered, s.created, rfl, Nat.le_refl _, fun task member => ?_⟩
        exact absurd (none ▸ held member) (Finset.notMem_empty task)
      · rw [if_neg none] at one
        cases one
        exact ⟨held, numbered, s.created, rfl, Nat.le_refl _, fun task member _ => held member⟩
  | gathering tasks =>
      simp only [at_] at one found
      by_cases done : Disjoint tasks s.unfinished
      · rw [if_pos done] at one
        cases one
        obtain ⟨seen, isSeen, bound, awaited⟩ := found
        refine ⟨held, numbered, seen, isSeen, bound, fun task member => ?_⟩
        -- an earlier task was awaited, and would be finished
        by_contra early
        exact Finset.disjoint_left.mp done (awaited task member (not_le.mp early)) member
      · rw [if_neg done] at one
        cases one
  | stopped => simp only [at_] at one; cases one
  | _ =>
      simp only [at_] at one found
      cases one
      exact ⟨held, numbered, found⟩

theorem Tracked.step {s next : Consumer} {move : Move} (tracked : s.Tracked) (one : s.step move = some next) :
    next.Tracked := by
  cases move with
  | deliver =>
      obtain ⟨-, ⟨⟩⟩ := Option.ite_none_right_eq_some.mp one
      exact tracked.callback
  | work task =>
      obtain ⟨-, ⟨⟩⟩ := Option.ite_none_right_eq_some.mp one
      exact tracked
  | finish task =>
      obtain ⟨-, ⟨⟩⟩ := Option.ite_none_right_eq_some.mp one
      exact tracked.of_tasks rfl rfl (Nat.le_refl _) (fun other member => .inl (Finset.mem_of_mem_erase member))
        ((Finset.erase_subset _ _).trans tracked.held) tracked.numbered
  | discard task =>
      obtain ⟨⟨-, finished⟩, ⟨⟩⟩ := Option.ite_none_right_eq_some.mp one
      refine tracked.of_tasks rfl rfl (Nat.le_refl _) (fun other member => .inl member) (fun other member => ?_)
        fun other member => tracked.numbered other (Finset.mem_of_mem_erase member)
      exact Finset.mem_erase.mpr ⟨fun same => finished (same ▸ member), tracked.held member⟩
  | stop => exact tracked.stopStep one

/-- Of the tasks unfinished at a `close`, `stop` has found none. -/
theorem Tracked.late_of_closes {s : Consumer} {move : Move} (tracked : s.Tracked) (closing : s.closes move)
    {task : Nat} (unfinished : task ∈ s.unfinished) : ∃ seen, s.seen = some seen ∧ seen ≤ task := by
  obtain ⟨held, numbered, found⟩ := tracked
  obtain ⟨-, closing⟩ := closing
  cases at_ : s.stop with
  | consuming =>
      simp only [at_] at closing
      exact absurd (closing ▸ held unfinished) (Finset.notMem_empty task)
  | gathering tasks =>
      simp only [at_] at closing found
      obtain ⟨seen, isSeen, -, awaited⟩ := found
      refine ⟨seen, isSeen, ?_⟩
      by_contra early
      exact Finset.disjoint_left.mp closing (awaited task unfinished (not_le.mp early)) unfinished
  | closingRedis => simp only [at_] at closing
  | stopped => simp only [at_] at closing
  | _ =>
      simp only [at_] at found
      obtain ⟨seen, isSeen, -, late⟩ := found
      exact ⟨seen, isSeen, late task unfinished⟩

theorem Tracked.graceful_iff {s : Consumer} {move : Move} (tracked : s.Tracked) :
    s.Graceful move ↔ s.LateFinished move := by
  constructor
  · intro graceful closing task unfinished
    rw [graceful closing] at unfinished
    exact absurd unfinished (Finset.notMem_empty task)
  · intro finished closing
    refine Finset.eq_empty_of_forall_notMem fun task unfinished => ?_
    obtain ⟨seen, isSeen, late⟩ := tracked.late_of_closes closing unfinished
    exact absurd (finished closing task unfinished seen isSeen) (not_lt.mpr late)

/-- A run closes nothing under an unfinished task exactly when no message that
was delivered after `stop` read the set is unfinished at a `close`. -/
theorem graceful_iff_late_finished (moves : List Move) :
    Along step Graceful moves started ↔ Along step LateFinished moves started := by
  exact along_congr Tracked (fun tracked _ one => tracked.step one) (fun tracked => tracked.graceful_iff) Tracked.started

/-- A second message arrives while `stop` awaits the first one's task. -/
def lateDelivery : List Move := [.deliver, .stop, .deliver, .finish 0]

theorem channel_closed_under_late_task : ¬∀ moves, Along step Graceful moves started := by
  intro always
  obtain ⟨state, reached, closing, unfinished⟩ : ∃ state, exec step lateDelivery started = some state ∧
      state.closes .stop ∧ 1 ∈ state.unfinished := by
    refine ⟨_, rfl, ⟨rfl, ?_⟩, by decide⟩
    change Disjoint {0} ((insert 1 {0} : Finset Nat).erase 0)
    decide
  have graceful := Along.at_step lateDelivery (always (lateDelivery ++ [.stop])) reached
  rw [graceful closing] at unfinished
  exact absurd unfinished (Finset.notMem_empty 1)

end Consumer

end KuhlHausMdp.DataProcessor
