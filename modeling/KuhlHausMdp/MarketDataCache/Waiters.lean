import KuhlHausMdp.MarketDataCache.Coordination

/-! Nobody waits in vain. Woken waiters become leaders at the same time,
overwrite each other's event in the table and pop events that are not theirs,
so what keeps a waiter safe is said about the event it waits on, not about the
table. -/

set_option autoImplicit false

namespace KuhlHausMdp.MarketDataCache

open Transition

variable {P C R V : Type*}

/-- Between `self._pending[ticker] = event` and the end of the `finally` block. -/
def Phase.Leading : Phase C R V → Prop
  | .acquiring | .granted | .acquired | .lockedRead _ | .fetching _ | .calling .. | .stored _
  | .closing .. | .releasing .. | .ending _ => True
  | _ => False

def Phase.Active : Phase C R V → Prop
  | .start | .finished _ => False
  | _ => True

theorem Phase.Leading.active {phase : Phase C R V} (leading : phase.Leading) : phase.Active := by
  cases phase <;> trivial

namespace Slot

variable [DecidableEq P] [DecidableEq C] {metric : Metric R V} {ticker : String} {proc : C → P} {s t : Slot P C R V}

/-- What a step does to the events. Apart from the four kinds of step that are
named, a caller moves on without touching them, and stays a leader if it was one. -/
inductive Events (proc : C → P) (s t : Slot P C R V) : Prop where
  | moved (c : C) (phase : Phase C R V) (phases : t.phase = Function.update s.phase c phase)
      (pending : t.pending = s.pending) (signalled : t.signalled = s.signalled)
      (leading : (s.phase c).Leading ↔ phase.Leading) (waits : ∀ leader, phase ≠ .waiting leader)
  | waits (c leader : C) (value : Value) (before : s.phase c = .firstRead value)
      (registered : s.pending (proc c) = some leader) (after : t = s.move c (.waiting leader))
  | leads (c : C) (before : ¬(s.phase c).Leading) (after : t = s.lead proc c)
  | finishes (c : C) (outcome : Outcome V) (before : s.phase c = .ending outcome) (after : t = s.finish proc c outcome)
  | still (phases : t.phase = s.phase) (pending : t.pending = s.pending) (signalled : t.signalled = s.signalled)

theorem Events.move {c : C} {before after : Phase C R V} (here : s.phase c = before)
    (leading : before.Leading ↔ after.Leading) (waits : ∀ leader, after ≠ .waiting leader) :
    Events proc s (s.move c after) :=
  .moved c after rfl rfl rfl (here ▸ leading) waits

theorem events_proceed {c : C} (one : s.proceed metric ticker proc c = some t) : Events proc s t := by
  unfold proceed at one
  split at one
  case h_1 here => cases one; exact .move here Iff.rfl nofun
  case h_2 value here =>
    split at one
    · cases one; exact .move here Iff.rfl nofun
    · split at one
      case h_1 leader registered => cases one; exact .waits c leader value here registered rfl
      case h_2 => cases one; exact .leads c (by rw [here]; exact id) rfl
  case h_3 leader here =>
    split at one
    · cases one; exact .move here Iff.rfl nofun
    · cases one
  case h_4 value here =>
    split at one
    · cases one; exact .move here Iff.rfl nofun
    · cases one; exact .leads c (by rw [here]; exact id) rfl
  case h_5 here =>
    split at one
    · cases one; exact .moved c .granted rfl rfl rfl (here ▸ Iff.rfl) nofun
    · cases one
  case h_6 here => cases one; exact .move here Iff.rfl nofun
  case h_7 here => cases one; exact .move here Iff.rfl nofun
  case h_8 value here =>
    split at one
    · cases one; exact .move here Iff.rfl nofun
    · cases one; exact .move here Iff.rfl nofun
  case h_9 here => cases one; exact .move here Iff.rfl nofun
  case h_10 result here => cases one; exact .moved c (.stored result) rfl rfl rfl (here ▸ Iff.rfl) nofun
  case h_11 here => cases one; exact .move here Iff.rfl nofun
  case h_12 => cases one
  case h_13 here => cases one; exact .move here Iff.rfl nofun
  case h_14 here =>
    split at one
    · cases one; exact .move here Iff.rfl nofun
    · cases one; exact .move here Iff.rfl nofun
  case h_15 owned outcome here =>
    cases owned with
    | true => cases one; exact .moved c (.ending outcome) rfl rfl rfl (here ▸ Iff.rfl) nofun
    | false => cases one; exact .move here Iff.rfl nofun
  case h_16 outcome here => cases one; exact .finishes c outcome here rfl
  case h_17 => cases one

omit [DecidableEq P] [DecidableEq C] in
theorem leading_interrupted {before after : Phase C R V} (raised : interrupted before = some after) :
    (before.Leading ↔ after.Leading) ∧ ∀ leader, after ≠ .waiting leader := by
  cases before with
  | fetching rest => cases rest <;> cases raised; exact ⟨Iff.rfl, nofun⟩
  | _ => cases raised; try exact ⟨Iff.rfl, nofun⟩

theorem events_step {action : Action C R} (one : s.step metric ticker proc action = some t) : Events proc s t := by
  cases action with
  | proceed c => exact events_proceed one
  | reply c answer =>
      simp only [step] at one
      split at one
      case h_1 request next here =>
        cases answer with
        | none => cases one; exact .move here Iff.rfl fun _ same => by cases same
        | some response => cases one; exact .moved c (.fetching (next response)) rfl rfl rfl (here ▸ Iff.rfl) fun _ same => by cases same
      case h_2 => cases one
  | interrupt c =>
      obtain ⟨phase, raised, rfl⟩ := Option.map_eq_some_iff.mp one
      exact .move rfl (leading_interrupted raised).1 (leading_interrupted raised).2
  | lockExpires => cases one; exact .still rfl rfl rfl
  | entryExpires => cases one; exact .still rfl rfl rfl

/-- The event that the caller made is set, or the caller is still on its way to set it. -/
def Attended (s : Slot P C R V) (leader : C) : Prop := s.signalled leader = true ∨ (s.phase leader).Leading

omit [DecidableEq P] in
theorem leading_update {c leader : C} {phase : Phase C R V} (leads : (s.phase leader).Leading)
    (own : leader = c → (s.phase c).Leading → phase.Leading) : (Function.update s.phase c phase leader).Leading := by
  by_cases same : leader = c
  · rw [same, Function.update_self]
    exact own same (same ▸ leads)
  · rwa [Function.update_of_ne same]

/-- An event stays attended: a leader stops leading only by setting it. -/
theorem Attended.step {leader : C} (attended : s.Attended leader) (events : Events proc s t) : t.Attended leader := by
  cases events with
  | moved c phase phases pending signalled leading waits =>
      rw [Attended, signalled, phases]
      exact attended.imp_right fun leads => leading_update leads fun _ => leading.mp
  | waits c other value before registered after =>
      subst after
      exact attended.imp_right fun leads => leading_update leads fun _ led => by rw [before] at led; exact led
  | leads c before after =>
      subst after
      exact attended.imp_right fun leads => leading_update leads fun _ led => absurd led before
  | finishes c outcome before after =>
      subst after
      by_cases same : leader = c
      · exact .inl (by rw [same]; exact Function.update_self _ _ _)
      · refine attended.imp (fun set => ?_) fun leads => leading_update leads fun own => absurd own same
        exact (Function.update_of_ne same true s.signalled).trans set
  | still phases pending signalled => rwa [Attended, phases, signalled]

/-- Who waits, waits on an attended event; what is registered is the event of a
leader of that process. -/
structure Safe (proc : C → P) (s : Slot P C R V) : Prop where
  attended : ∀ c leader, s.phase c = .waiting leader → s.Attended leader
  registered : ∀ p leader, s.pending p = some leader → proc leader = p ∧ (s.phase leader).Leading

omit [DecidableEq P] [DecidableEq C] in
theorem Safe.fresh : Safe proc (Slot.fresh : Slot P C R V) where
  attended := fun _ _ => nofun
  registered := fun _ _ => nofun

theorem Safe.step (safe : s.Safe proc) (events : Events proc s t) : t.Safe proc := by
  -- a caller that goes somewhere else than to wait leaves the waiters attended
  have elsewhere {c : C} {phase : Phase C R V} (phases : t.phase = Function.update s.phase c phase)
      (waits : ∀ leader, phase ≠ .waiting leader) (d leader : C) (here : t.phase d = .waiting leader) :
      t.Attended leader := by
    rw [phases] at here
    by_cases same : d = c
    · rw [same, Function.update_self] at here
      exact absurd here (waits leader)
    · rw [Function.update_of_ne same] at here
      exact (safe.attended d leader here).step events
  cases events with
  | moved c phase phases pending signalled leading waits =>
      refine ⟨elsewhere phases waits, ?_⟩
      rw [pending, phases]
      intro p leader entry
      obtain ⟨own, leads⟩ := safe.registered p leader entry
      exact ⟨own, leading_update leads fun _ => leading.mp⟩
  | waits c other value before registered after =>
      have attends := (safe.registered _ _ registered).2
      subst after
      have kept {leader : C} (leads : (s.phase leader).Leading) :
          (Function.update s.phase c (.waiting other) leader).Leading :=
        leading_update leads fun _ led => by rw [before] at led; exact led
      constructor
      · intro d leader here
        change Function.update s.phase c (.waiting other) d = .waiting leader at here
        by_cases same : d = c
        · rw [same, Function.update_self] at here
          cases here
          exact .inr (kept attends)
        · rw [Function.update_of_ne same] at here
          exact (safe.attended d leader here).imp_right kept
      · intro p leader entry
        obtain ⟨own, leads⟩ := safe.registered p leader entry
        exact ⟨own, kept leads⟩
  | leads c before after =>
      subst after
      refine ⟨elsewhere rfl nofun, ?_⟩
      intro p leader entry
      change Function.update s.pending (proc c) (some c) p = some leader at entry
      -- the new leader takes the place of whoever was registered
      by_cases same : p = proc c
      · rw [same, Function.update_self] at entry
        cases entry
        refine ⟨same.symm, ?_⟩
        change (Function.update s.phase c .acquiring c).Leading
        rw [Function.update_self]
        trivial
      · rw [Function.update_of_ne same] at entry
        obtain ⟨own, leads⟩ := safe.registered p leader entry
        exact ⟨own, leading_update leads fun _ led => absurd led before⟩
  | finishes c outcome before after =>
      subst after
      refine ⟨elsewhere rfl nofun, ?_⟩
      intro p leader entry
      change Function.update s.pending (proc c) none p = some leader at entry
      -- the event popped may be another's; the leaders of other processes stay
      by_cases same : p = proc c
      · rw [same, Function.update_self] at entry
        cases entry
      · rw [Function.update_of_ne same] at entry
        obtain ⟨own, leads⟩ := safe.registered p leader entry
        exact ⟨own, leading_update leads fun own' => absurd (own.symm.trans (congrArg proc own')) same⟩
  | still phases pending signalled =>
      constructor
      · intro c leader here
        rw [phases] at here
        rw [Attended, phases, signalled]
        exact safe.attended c leader here
      · rw [phases, pending]
        exact safe.registered

/-- Nobody waits in vain: at any time, whoever waits, waits on an event that is
set, or whose maker has not finished and cannot finish without setting it; and
a process without an active call has no event registered. -/
theorem no_lost_waiter {actions : List (Action C R)}
    (run : exec (Slot.step metric ticker proc) actions Slot.fresh = some s) :
    (∀ c leader, s.phase c = .waiting leader →
      s.signalled leader = true ∨
      (s.phase leader).Leading ∧ ∀ later final outcome, exec (Slot.step metric ticker proc) later s = some final →
        final.phase leader = .finished outcome → final.signalled leader = true) ∧
    ∀ p, (∀ c, proc c = p → ¬(s.phase c).Active) → s.pending p = none := by
  have safe : s.Safe proc := exec_invariant (Safe proc) (fun safe one => safe.step (events_step one)) Safe.fresh run
  constructor
  · intro c leader waiting
    refine (safe.attended c leader waiting).imp_right fun leads => ⟨leads, ?_⟩
    intro later final outcome more finished
    have attended : final.Attended leader :=
      exec_invariant (Attended · leader) (fun attended one => attended.step (events_step one)) (.inr leads) more
    refine attended.resolve_right fun still => ?_
    rw [finished] at still
    exact still
  · intro p idle
    by_contra occupied
    obtain ⟨leader, entry⟩ := Option.ne_none_iff_exists'.mp occupied
    obtain ⟨own, leads⟩ := safe.registered p leader entry
    exact idle leader own leads.active

/-- One caller leads, another comes to wait, the leader is interrupted. -/
def interruptedLeader : List (Action Bool (List Value)) :=
  [.proceed true, .proceed true, .proceed false, .proceed false, .interrupt true, .proceed true]

theorem no_lost_waiter_interrupted : ∃ s : Slot Unit Bool (List Value) Value,
    exec (Slot.step avgVolume "AAPL" fun _ => ()) interruptedLeader Slot.fresh = some s ∧
    s.phase false = .waiting true ∧ s.phase true = .ending .raised ∧
    (∀ c leader, s.phase c = .waiting leader →
      s.signalled leader = true ∨
      (s.phase leader).Leading ∧ ∀ later final outcome,
        exec (Slot.step avgVolume "AAPL" fun _ => ()) later s = some final →
        final.phase leader = .finished outcome → final.signalled leader = true) ∧
    ∀ p, (∀ c, (fun _ => ()) c = p → ¬(s.phase c).Active) → s.pending p = none := by
  obtain ⟨s, run, waiting, ending⟩ : ∃ s : Slot Unit Bool (List Value) Value,
      exec (Slot.step avgVolume "AAPL" fun _ => ()) interruptedLeader Slot.fresh = some s ∧
      s.phase false = .waiting true ∧ s.phase true = .ending .raised := ⟨_, rfl, rfl, rfl⟩
  exact ⟨s, run, waiting, ending, no_lost_waiter run⟩

end Slot
end KuhlHausMdp.MarketDataCache
