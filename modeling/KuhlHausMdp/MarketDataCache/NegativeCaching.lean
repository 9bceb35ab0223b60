import KuhlHausMdp.MarketDataCache.Coordination

/-! When a cached value keeps the REST client silent. Every check of the cache
asks whether the value is truthy, so a stored 0 is no better than no entry. -/

set_option autoImplicit false

namespace KuhlHausMdp.MarketDataCache

open Transition

variable {P C R V : Type*} [DecidableEq P] [DecidableEq C]

/-- All tickers of one getter; no two of them share a Redis key or an event. -/
def system (metric : Metric R V) (proc : C → P) :
    (String → Slot P C R V) → String × Action C R → Option (String → Slot P C R V) :=
  interleave fun ticker => Slot.step metric ticker proc

/-- The read under the lock found nothing, and a REST call may still follow. -/
def Phase.Missed : Phase C R V → Prop
  | .lockedRead value => value.truthy = false
  | .fetching (.call ..) | .calling .. => True
  | _ => False

omit [DecidableEq C] in
theorem Phase.Missed.holding {phase : Phase C R V} (missed : phase.Missed) : phase.Holding := by
  cases phase with
  | fetching rest | lockedRead value | calling request next => trivial
  | _ => cases missed

namespace Slot

def ReadsTruthy (s : Slot P C R V) (action : Action C R) : Prop :=
  ∀ c entry, action = .proceed c → s.phase c = .acquired → s.entry = some entry → entry.data.truthy = true

/-- A result is stored while nobody else is between its read under the lock and
its last REST call. -/
def StoresAlone (s : Slot P C R V) (action : Action C R) : Prop :=
  ∀ c data cacheTtl result, action = .proceed c → s.phase c = .fetching (.store data cacheTtl result) →
    ∀ other, other ≠ c → ¬ (s.phase other).Missed

/-- Whoever may still call the REST client does so without a cached value. -/
def Uncached (s : Slot P C R V) : Prop := ∀ c, (s.phase c).Missed → s.entry = none

variable {metric : Metric R V} {ticker : String} {proc : C → P} {s t : Slot P C R V} {action : Action C R}

omit [DecidableEq P] [DecidableEq C] in
theorem Moves.missed {c : C} {before after : Phase C R V} (moves : Moves metric ticker s c action before after)
    (missed : after.Missed) :
    before.Missed ∨ before = .acquired ∧ action = .proceed c ∧ s.read.truthy = false := by
  cases moves with
  | lockedRead => exact .inr ⟨rfl, rfl, missed⟩
  | fetch miss => exact .inl miss
  | call => exact .inl trivial
  | interrupt raised =>
      -- a raising await never leads on to a call
      cases before with
      | fetching rest => cases rest <;> cases raised; cases missed
      | _ => cases raised <;> cases missed
  | _ => cases missed

omit [DecidableEq P] [DecidableEq C] in
theorem entry_eq_none_of_read (truthy : ∀ entry, s.entry = some entry → entry.data.truthy = true)
    (falsy : s.read.truthy = false) : s.entry = none := by
  cases found : s.entry with
  | none => rfl
  | some entry =>
      rw [read, found] at falsy
      exact absurd (truthy entry found) (by simp [falsy])

omit [DecidableEq P] in
theorem Uncached.moved {c : C} {phase : Phase C R V} (uncached : s.Uncached)
    (phases : t.phase = Function.update s.phase c phase) (entry : t.entry = s.entry)
    (missed : phase.Missed → s.entry = none) : t.Uncached := by
  unfold Uncached
  rw [phases, entry]
  apply (Function.forall_update_iff s.phase fun _ phase => phase.Missed → s.entry = none).mpr
  exact ⟨missed, fun d _ => uncached d⟩

theorem Uncached.step (uncached : s.Uncached) (truthy : s.ReadsTruthy action) (alone : s.StoresAlone action)
    (one : s.step metric ticker proc action = some t) : t.Uncached := by
  cases step_cases one with
  | @moved c _ phase moves phases entry lock answers =>
      apply uncached.moved phases entry
      intro here
      rcases moves.missed here with before | ⟨before, proceeds, falsy⟩
      · exact uncached c before
      · exact entry_eq_none_of_read (truthy c · proceeds before) falsy
  | acquired before free after =>
      subst after
      exact uncached.moved rfl rfl fun here => nomatch here
  | @answered c request next response before after =>
      subst after
      exact uncached.moved rfl rfl fun _ => uncached c (before ▸ trivial)
  | @stored c data cacheTtl result before after =>
      subst after
      apply (Function.forall_update_iff s.phase fun _ phase => phase.Missed → _ = none).mpr
      exact ⟨fun here => (nomatch here), fun d apart here => absurd here (alone c data cacheTtl result rfl before d apart)⟩
  | released before after =>
      subst after
      exact uncached.moved rfl rfl fun here => nomatch here
  | lockExpired after =>
      subst after
      exact uncached
  | entryExpired after =>
      subst after
      exact fun _ _ => rfl

omit [DecidableEq P] [DecidableEq C] in
theorem Uncached.startsCall (uncached : s.Uncached) (starts : s.StartsCall action) : s.entry = none := by
  obtain ⟨c, request, next, -, here⟩ := starts
  exact uncached c (here ▸ trivial)

omit [DecidableEq P] [DecidableEq C] in
theorem Locked.storesAlone (locked : s.Locked) : s.StoresAlone action := by
  intro c data cacheTtl result _ here other apart missed
  exact apart (locked.only (by rw [here]; trivial) missed.holding)

end Slot

/-- A REST call starts only where the ticker has no entry, in every run whose
steps read truthy entries under the lock and store alone. -/
theorem rest_called_without_entry (metric : Metric R V) (proc : C → P) (moves : List (String × Action C R))
    (guarded : Along (system metric proc)
      (fun slots move => (slots move.1).ReadsTruthy move.2 ∧ (slots move.1).StoresAlone move.2) moves
      fun _ => Slot.fresh) :
    Along (system metric proc)
      (fun slots move => (slots move.1).StartsCall move.2 → (slots move.1).entry = none) moves
      fun _ => Slot.fresh := by
  apply Along.mono (fun slots => ∀ ticker, (slots ticker).Uncached) _ _ _ guarded
  · intro slots move next uncached allowed one
    exact interleave_kept (fun _ s => s.Uncached) (fun _ s action => s.ReadsTruthy action ∧ s.StoresAlone action)
      (fun kept allowed one => kept.step allowed.1 allowed.2 one) uncached allowed one
  · exact fun uncached _ starts => (uncached _).startsCall starts
  · exact fun _ _ missed => nomatch missed

/-- One caller's way from its first read through these answers to the end. -/
def callFor (ticker : String) (c : C) (answers : List R) : List (String × Action C R) :=
  List.replicate 6 (ticker, .proceed c) ++
    answers.flatMap (fun answer => [(ticker, .proceed c), (ticker, .reply c (some answer))]) ++
      List.replicate 5 (ticker, .proceed c)

theorem rest_called_without_entry_ratio :
    Along (system avgVolume fun _ => ())
      (fun slots move => (slots move.1).StartsCall move.2 → (slots move.1).entry = none)
      (callFor "AAPL" false [[.num 5]] ++ List.replicate 2 ("AAPL", .proceed true))
      fun _ => (Slot.fresh : Slot Unit Bool (List Value) Value) := by
  apply rest_called_without_entry
  simp only [callFor, List.reduceReplicate, List.flatMap_cons, List.flatMap_nil, List.cons_append, List.nil_append]
  repeat' refine Along.cons ⟨fun c entry proceeds here found => ?_,
    fun c data cacheTtl result proceeds here other apart => ?_⟩ rfl ?_
  all_goals try trivial
  all_goals cases proceeds
  all_goals try cases here
  -- the step that stores: the other caller has not begun
  cases other
  · exact absurd rfl apart
  · exact not_false

/-- A caller finds no data and 0 is stored; the next caller asks again. -/
theorem stored_zero_is_asked_again :
    (¬ Along (system avgVolume fun _ => ())
        (fun slots move => (slots move.1).StartsCall move.2 → (slots move.1).entry = none)
        (callFor "AAPL" false [[], []] ++ callFor "AAPL" true [[], []])
        fun _ => (Slot.fresh : Slot Unit Bool (List Value) Value)) ∧
      ¬ Along (system freeFloat fun _ => ())
        (fun slots move => (slots move.1).StartsCall move.2 → (slots move.1).entry = none)
        (callFor "AAPL" false [[]] ++ callFor "AAPL" true [[]])
        fun _ => (Slot.fresh : Slot Unit Bool (List Value) Value) := by
  constructor
  · intro silent
    have call := Along.at_step (callFor "AAPL" false [[], []] ++ List.replicate 6 ("AAPL", .proceed true)) silent rfl
    cases call ⟨true, _, _, rfl, rfl⟩
  · intro silent
    have call := Along.at_step (callFor "AAPL" false [[]] ++ List.replicate 6 ("AAPL", .proceed true)) silent rfl
    cases call ⟨true, _, _, rfl, rfl⟩

/-! With the lock lasting, only the value of an entry matters. -/

theorem rest_called_without_entry_of_lockLasts (metric : Metric R V) (proc : C → P)
    (moves : List (String × Action C R))
    (guarded : Along (system metric proc)
      (fun slots move => (slots move.1).ReadsTruthy move.2 ∧ (slots move.1).LockLasts move.2) moves
      fun _ => Slot.fresh) :
    Along (system metric proc)
      (fun slots move => (slots move.1).ReadsTruthy move.2 ∧ (slots move.1).StoresAlone move.2) moves
      fun _ => Slot.fresh := by
  apply Along.mono (fun slots => ∀ ticker, (slots ticker).Locked) _ _ _ guarded
  · intro slots move next locked allowed one
    exact interleave_kept (fun _ s => s.Locked) (fun _ s action => s.ReadsTruthy action ∧ s.LockLasts action)
      (fun kept allowed one => kept.step allowed.2 one) locked allowed one
  · exact fun locked allowed => ⟨allowed.1, (locked _).storesAlone⟩
  · exact fun _ _ holds => nomatch holds

end KuhlHausMdp.MarketDataCache
