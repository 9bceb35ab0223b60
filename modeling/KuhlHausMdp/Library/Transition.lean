import Mathlib.Logic.Function.Basic
import Mathlib.Data.List.Basic

/-! Partial transition functions and their finite runs. An action that is not
enabled has no successor, so a run exists only when each of its actions was
enabled where it was taken. -/

set_option autoImplicit false

namespace Transition

variable {S A : Type*}

def exec (step : S → A → Option S) : List A → S → Option S
  | [], state => some state
  | action :: rest, state => (step state action).bind (exec step rest)

def Along (step : S → A → Option S) (permitted : S → A → Prop) : List A → S → Prop
  | [], _ => True
  | action :: rest, state =>
      permitted state action ∧ ∀ next, step state action = some next → Along step permitted rest next

variable {step : S → A → Option S}

instance Along.decidable {permitted : S → A → Prop} [∀ state action, Decidable (permitted state action)] :
    ∀ (actions : List A) (state : S), Decidable (Along step permitted actions state)
  | [], _ => inferInstanceAs (Decidable True)
  | action :: rest, state =>
      match one : step state action with
      | some next =>
          have : Decidable (Along step permitted rest next) := Along.decidable rest next
          decidable_of_iff (permitted state action ∧ Along step permitted rest next) (by simp [Along, one])
      | none => decidable_of_iff (permitted state action) (by simp [Along, one])

@[simp] theorem exec_nil (state : S) : exec step [] state = some state := rfl

theorem exec_cons {action : A} {rest : List A} {state final : S} :
    exec step (action :: rest) state = some final ↔
      ∃ next, step state action = some next ∧ exec step rest next = some final := by
  simp only [exec, Option.bind_eq_some_iff]

theorem exec_append {first second : List A} {state final : S} :
    exec step (first ++ second) state = some final ↔
      ∃ middle, exec step first state = some middle ∧ exec step second middle = some final := by
  induction first generalizing state with
  | nil => simp
  | cons action rest ih =>
      simp only [List.cons_append, exec_cons, ih]
      constructor
      · rintro ⟨next, one, middle, more, last⟩
        exact ⟨middle, ⟨next, one, more⟩, last⟩
      · rintro ⟨middle, ⟨next, one, more⟩, last⟩
        exact ⟨next, one, middle, more, last⟩

/-- A property kept by each step is kept by each run. -/
theorem exec_invariant (Inv : S → Prop)
    (kept : ∀ {state action next}, Inv state → step state action = some next → Inv next)
    {actions : List A} {state final : S} (start : Inv state)
    (run : exec step actions state = some final) : Inv final := by
  induction actions generalizing state with
  | nil => cases run; exact start
  | cons action rest ih =>
      obtain ⟨next, one, more⟩ := exec_cons.mp run
      exact ih (kept start one) more

/-- A property kept by each permitted step is kept by each run whose steps
are all permitted. -/
theorem along_invariant (Inv : S → Prop) {permitted : S → A → Prop}
    (kept : ∀ {state action next}, Inv state → permitted state action →
      step state action = some next → Inv next)
    {actions : List A} {state final : S} (start : Inv state)
    (allowed : Along step permitted actions state)
    (run : exec step actions state = some final) : Inv final := by
  induction actions generalizing state with
  | nil => cases run; exact start
  | cons action rest ih =>
      obtain ⟨next, one, more⟩ := exec_cons.mp run
      exact ih (kept start allowed.1 one) (allowed.2 next one) more

theorem along_append {permitted : S → A → Prop} {first second : List A} {state : S} :
    Along step permitted (first ++ second) state ↔ Along step permitted first state ∧
      ∀ middle, exec step first state = some middle → Along step permitted second middle := by
  induction first generalizing state with
  | nil => simp [Along]
  | cons action rest ih =>
      simp only [List.cons_append, Along, ih]
      constructor
      · rintro ⟨here, later⟩
        refine ⟨⟨here, fun next one => (later next one).1⟩, fun middle run => ?_⟩
        obtain ⟨next, one, more⟩ := exec_cons.mp run
        exact (later next one).2 middle more
      · rintro ⟨⟨here, early⟩, late⟩
        refine ⟨here, fun next one => ⟨early next one, fun middle more => ?_⟩⟩
        exact late middle (exec_cons.mpr ⟨next, one, more⟩)

/-- Permission that does not depend on the state. -/
theorem along_of_forall {permitted : A → Prop} {actions : List A} (allowed : ∀ action ∈ actions, permitted action)
    (state : S) : Along step (fun _ action => permitted action) actions state := by
  induction actions generalizing state with
  | nil => trivial
  | cons action rest ih =>
      obtain ⟨here, later⟩ := List.forall_mem_cons.mp allowed
      exact ⟨here, fun next _ => ih later next⟩

/-- The same for a property of the state and the actions that led to it. -/
theorem along_record (Inv : List A → S → Prop) {permitted : S → A → Prop}
    (kept : ∀ {past state action next}, Inv past state → permitted state action →
      step state action = some next → Inv (past ++ [action]) next)
    {actions past : List A} {state final : S} (start : Inv past state)
    (allowed : Along step permitted actions state)
    (run : exec step actions state = some final) : Inv (past ++ actions) final := by
  induction actions generalizing past state with
  | nil =>
      cases run
      rwa [List.append_nil]
  | cons action rest ih =>
      obtain ⟨next, one, more⟩ := exec_cons.mp run
      have later := ih (kept start allowed.1 one) (allowed.2 next one) more
      rwa [List.append_assoc] at later

theorem exec_record (Inv : List A → S → Prop)
    (kept : ∀ {past state action next}, Inv past state → step state action = some next → Inv (past ++ [action]) next)
    {actions : List A} {state final : S} (start : Inv [] state)
    (run : exec step actions state = some final) : Inv actions final := by
  have allowed : Along step (fun _ _ => True) actions state := along_of_forall (fun _ _ => trivial) state
  exact along_record Inv (fun inv _ => kept inv) start allowed run

theorem Along.cons {permitted : S → A → Prop} {action : A} {rest : List A} {state next : S}
    (here : permitted state action) (one : step state action = some next)
    (later : Along step permitted rest next) : Along step permitted (action :: rest) state := by
  refine ⟨here, fun other also => ?_⟩
  cases one.symm.trans also
  exact later

theorem Along.and {permitted other : S → A → Prop} {actions : List A} {state : S}
    (first : Along step permitted actions state) (second : Along step other actions state) :
    Along step (fun state action => permitted state action ∧ other state action) actions state := by
  induction actions generalizing state with
  | nil => trivial
  | cons action rest ih =>
      exact ⟨⟨first.1, second.1⟩, fun next one => ih (first.2 next one) (second.2 next one)⟩

theorem Along.at_step {permitted : S → A → Prop} (first : List A) {rest : List A} {action : A} {state middle : S}
    (allowed : Along step permitted (first ++ action :: rest) state)
    (reached : exec step first state = some middle) : permitted middle action :=
  ((along_append.mp allowed).2 middle reached).1

theorem Along.mono (Inv : S → Prop) {permitted other : S → A → Prop}
    (kept : ∀ {state action next}, Inv state → permitted state action →
      step state action = some next → Inv next)
    (weaker : ∀ {state action}, Inv state → permitted state action → other state action)
    {actions : List A} {state : S} (start : Inv state)
    (allowed : Along step permitted actions state) : Along step other actions state := by
  induction actions generalizing state with
  | nil => trivial
  | cons action rest ih =>
      exact ⟨weaker start allowed.1, fun next one => ih (kept start allowed.1 one) (allowed.2 next one)⟩

/-- Two permissions that agree wherever an invariant holds permit the same runs
of the actions in question. -/
theorem along_congr_on (Inv : S → Prop) {permitted other : S → A → Prop} {allowed : A → Prop}
    (kept : ∀ {state action next}, Inv state → allowed action → other state action →
      step state action = some next → Inv next)
    (same : ∀ {state action}, Inv state → allowed action → (permitted state action ↔ other state action))
    {actions : List A} {state : S} (start : Inv state) (all : ∀ action ∈ actions, allowed action) :
    Along step permitted actions state ↔ Along step other actions state := by
  induction actions generalizing state with
  | nil => rfl
  | cons action rest ih =>
      obtain ⟨here, later⟩ := List.forall_mem_cons.mp all
      constructor
      · rintro ⟨now, more⟩
        have now := (same start here).mp now
        exact ⟨now, fun next one => (ih (kept start here now one) later).mp (more next one)⟩
      · rintro ⟨now, more⟩
        exact ⟨(same start here).mpr now, fun next one => (ih (kept start here now one) later).mpr (more next one)⟩

theorem along_congr (Inv : S → Prop) {permitted other : S → A → Prop}
    (kept : ∀ {state action next}, Inv state → other state action → step state action = some next → Inv next)
    (same : ∀ {state action}, Inv state → (permitted state action ↔ other state action))
    {actions : List A} {state : S} (start : Inv state) :
    Along step permitted actions state ↔ Along step other actions state :=
  along_congr_on Inv (fun inv (_ : True) => kept inv) (fun inv _ => same inv) start fun _ _ => trivial

/-- Where what is not permitted leaves a lasting mark, a run of the actions in
question that ends unmarked was permitted throughout. -/
theorem along_of_unmarked_on (Inv Marked : S → Prop) {permitted : S → A → Prop} {allowed : A → Prop}
    (kept : ∀ {state action next}, Inv state → allowed action → step state action = some next → Inv next)
    (lasts : ∀ {state action next}, Inv state → Marked state → allowed action → step state action = some next →
      Marked next)
    (marks : ∀ {state action next}, Inv state → allowed action → ¬permitted state action →
      step state action = some next → Marked next)
    {actions : List A} {state final : S} (start : Inv state) (all : ∀ action ∈ actions, allowed action)
    (run : exec step actions state = some final) (clean : ¬Marked final) : Along step permitted actions state := by
  induction actions generalizing state with
  | nil => trivial
  | cons action rest ih =>
      obtain ⟨next, one, more⟩ := exec_cons.mp run
      obtain ⟨here, later⟩ := List.forall_mem_cons.mp all
      have inv := kept start here one
      refine .cons ?_ one (ih inv later more)
      by_contra forbidden
      have both : Inv final ∧ Marked final :=
        along_invariant (fun s => Inv s ∧ Marked s)
          (fun has fine step => ⟨kept has.1 fine step, lasts has.1 has.2 fine step⟩)
          ⟨inv, marks start here forbidden one⟩ (along_of_forall later next) more
      exact clean both.2

theorem along_of_unmarked (Inv Marked : S → Prop) {permitted : S → A → Prop}
    (kept : ∀ {state action next}, Inv state → step state action = some next → Inv next)
    (lasts : ∀ {state action next}, Inv state → Marked state → step state action = some next → Marked next)
    (marks : ∀ {state action next}, Inv state → ¬permitted state action → step state action = some next → Marked next)
    {actions : List A} {state final : S} (start : Inv state) (run : exec step actions state = some final)
    (clean : ¬Marked final) : Along step permitted actions state :=
  along_of_unmarked_on Inv Marked (fun inv (_ : True) => kept inv) (fun inv marked _ => lasts inv marked)
    (fun inv _ => marks inv) start (fun _ _ => trivial) run clean

/-- A function of the state that follows every step follows every run. -/
theorem exec_image {T : Type*} {other : T → A → Option T} (f : S → T)
    (follows : ∀ {state action next}, step state action = some next → other (f state) action = some (f next))
    {actions : List A} {state final : S} (run : exec step actions state = some final) :
    exec other actions (f state) = some (f final) := by
  induction actions generalizing state with
  | nil => cases run; rfl
  | cons action rest ih =>
      obtain ⟨next, one, more⟩ := exec_cons.mp run
      exact exec_cons.mpr ⟨f next, follows one, ih more⟩

/-- When every permitted step is, seen through a function of the state, a step that
an abstract system permits, every permitted run is a run of the abstract system. -/
theorem exec_simulates {T B : Type*} {other : T → B → Option T} (f : S → T) {permitted : S → A → Prop}
    {allowed : T → B → Prop}
    (follows : ∀ {state action next}, permitted state action → step state action = some next →
      ∃ move, allowed (f state) move ∧ other (f state) move = some (f next))
    {actions : List A} {state final : S} (along : Along step permitted actions state)
    (run : exec step actions state = some final) :
    ∃ moves, Along other allowed moves (f state) ∧ exec other moves (f state) = some (f final) := by
  induction actions generalizing state with
  | nil =>
      cases run
      exact ⟨[], trivial, rfl⟩
  | cons action rest ih =>
      obtain ⟨next, one, more⟩ := exec_cons.mp run
      obtain ⟨move, fine, moved⟩ := follows along.1 one
      obtain ⟨moves, later, last⟩ := ih (along.2 next one) more
      exact ⟨move :: moves, .cons fine moved later, exec_cons.mpr ⟨f next, moved, last⟩⟩

/-- A component moves in some of the actions, and stands still in the others. -/
theorem exec_project {T B : Type*} {other : T → B → Option T} (f : S → T) (own : A → Option B)
    (moves : ∀ {state action next}, step state action = some next →
      (∀ move, own action = some move → other (f state) move = some (f next)) ∧ (own action = none → f next = f state))
    {actions : List A} {state final : S} (run : exec step actions state = some final) :
    exec other (actions.filterMap own) (f state) = some (f final) := by
  induction actions generalizing state with
  | nil =>
      cases run
      rfl
  | cons action rest ih =>
      obtain ⟨next, one, more⟩ := exec_cons.mp run
      cases moved : own action with
      | some move =>
          rw [List.filterMap_cons_some moved]
          exact exec_cons.mpr ⟨f next, (moves one).1 move moved, ih more⟩
      | none =>
          rw [List.filterMap_cons_none moved, ← (moves one).2 moved]
          exact ih more

/-- What its moves are permitted to do in the whole, they are in its own run. -/
theorem along_project {T B : Type*} {other : T → B → Option T} (f : S → T) (own : A → Option B)
    {permitted : T → B → Prop}
    (moves : ∀ {state action next}, step state action = some next →
      (∀ move, own action = some move → other (f state) move = some (f next)) ∧ (own action = none → f next = f state))
    {actions : List A} {state final : S}
    (allowed : Along step (fun state action => ∀ move, own action = some move → permitted (f state) move) actions state)
    (run : exec step actions state = some final) : Along other permitted (actions.filterMap own) (f state) := by
  induction actions generalizing state with
  | nil => trivial
  | cons action rest ih =>
      obtain ⟨next, one, more⟩ := exec_cons.mp run
      have later := ih (allowed.2 next one) more
      cases moved : own action with
      | some move =>
          rw [List.filterMap_cons_some moved]
          exact .cons (allowed.1 move moved) ((moves one).1 move moved) later
      | none =>
          rw [List.filterMap_cons_none moved, ← (moves one).2 moved]
          exact later

/-! What an observer records along a run. -/

section

variable {B : Type*}

def observe (step : S → A → Option S) (seen : S → A → List B) : List A → S → List B
  | [], _ => []
  | action :: rest, state =>
      match step state action with
      | some next => seen state action ++ observe step seen rest next
      | none => []

variable {seen : S → A → List B}

theorem observe_cons {action : A} {rest : List A} {state next : S} (one : step state action = some next) :
    observe step seen (action :: rest) state = seen state action ++ observe step seen rest next := by
  simp only [observe, one]

theorem observe_append {first second : List A} {state middle : S} (run : exec step first state = some middle) :
    observe step seen (first ++ second) state = observe step seen first state ++ observe step seen second middle := by
  induction first generalizing state with
  | nil => cases run; rfl
  | cons action rest ih =>
      obtain ⟨next, one, more⟩ := exec_cons.mp run
      rw [List.cons_append, observe_cons one, observe_cons one, ih more, List.append_assoc]

/-- A relation between the state and what was recorded so far, kept by each
permitted step, holds at the end of the run. -/
theorem observe_invariant (Inv : S → List B → Prop) {permitted : S → A → Prop}
    (kept : ∀ {state action next past}, Inv state past → permitted state action →
      step state action = some next → Inv next (past ++ seen state action))
    {actions : List A} {state final : S} {past : List B} (start : Inv state past)
    (allowed : Along step permitted actions state) (run : exec step actions state = some final) :
    Inv final (past ++ observe step seen actions state) := by
  induction actions generalizing state past with
  | nil => cases run; rwa [observe, List.append_nil]
  | cons action rest ih =>
      obtain ⟨next, one, more⟩ := exec_cons.mp run
      rw [observe_cons one, ← List.append_assoc]
      exact ih (kept start allowed.1 one) (allowed.2 next one) more

end

/-! Independent components that take turns. -/

section

variable {I : Type*} [DecidableEq I]

def interleave (step : I → S → A → Option S) (states : I → S) (move : I × A) : Option (I → S) :=
  (step move.1 (states move.1) move.2).map (Function.update states move.1)

variable {rules : I → S → A → Option S}

/-- An invariant of each component, kept by what it is permitted to do, is an
invariant of the interleaved whole. -/
theorem interleave_kept (Inv : I → S → Prop) (permitted : I → S → A → Prop)
    (kept : ∀ {i state action next}, Inv i state → permitted i state action →
      rules i state action = some next → Inv i next)
    {states final : I → S} {move : I × A} (start : ∀ i, Inv i (states i))
    (allowed : permitted move.1 (states move.1) move.2)
    (one : interleave rules states move = some final) (i : I) : Inv i (final i) := by
  obtain ⟨after, moved, rfl⟩ := Option.map_eq_some_iff.mp one
  revert i
  apply (Function.forall_update_iff states Inv).mpr
  exact ⟨kept (start _) allowed moved, fun i _ => start i⟩

end

end Transition
