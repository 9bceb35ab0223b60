import KuhlHausMdp.Library.Transition
import KuhlHausMdp.LeaderboardAnalyzer.Store

/-! `_check_day_boundary` in two steps: the key is formed from the clock, and
sent later. The script asks whether the stored key differs, not which is later. -/

set_option autoImplicit false

namespace KuhlHausMdp.LeaderboardAnalyzer

open Transition

/-- `formed` is the key a call has formed and not sent yet, `resets` the keys
under which the boards were deleted, the latest first. -/
structure Boundary (T : Type*) where
  now : ℤ
  store : Store
  formed : T → Option ℤ
  resets : List ℤ

/-- The calls of all instances, told apart by `t`, and the pipelines between them. -/
inductive BoundaryStep (T : Type*) where
  | advance (seconds : Nat)
  | readClock (t : T)
  | eval (t : T)
  | commit (commit : Commit)

namespace Boundary

variable {T : Type*}

def fresh (now : ℤ) (store : Store) : Boundary T where
  now := now
  store := store
  formed _ := none
  resets := []

variable [DecidableEq T]

def step (zone : ZoneInfo) (s : Boundary T) : BoundaryStep T → Option (Boundary T)
  | .advance seconds => some { s with now := s.now + seconds }
  | .readClock t => some { s with formed := Function.update s.formed t (some (currentDayTs zone s.now)) }
  | .eval t =>
      match s.formed t with
      | some key => some
          { s with
            store := s.store.checkDayBoundary key
            formed := Function.update s.formed t none
            resets := if (compareDay s.store.marketDay key).1 then key :: s.resets else s.resets }
      | none => none
  | .commit commit => some { s with store := s.store.commit commit }

def OnTime (s : Boundary T) (action : BoundaryStep T) : Prop :=
  ∀ t key day, action = .eval t → s.formed t = some key → s.store.marketDay = some day → day ≤ key

def NeverBack (zone : ZoneInfo) (s : Boundary T) (action : BoundaryStep T) : Prop :=
  ∀ next day after, s.step zone action = some next → s.store.marketDay = some day →
    next.store.marketDay = some after → day ≤ after

omit [DecidableEq T] in
/-- The boards were deleted once for each of some keys, none of them later than the stored one. -/
def Past (s : Boundary T) : Prop :=
  s.resets.Nodup ∧ ∀ key ∈ s.resets, ∃ day, s.store.marketDay = some day ∧ key ≤ day

variable {zone : ZoneInfo} {s t : Boundary T} {action : BoundaryStep T}

theorem marketDay_checkDayBoundary (store : Store) (key : ℤ) :
    (store.checkDayBoundary key).marketDay = some key := compareDay_stored _ _

theorem step_cases (one : s.step zone action = some t) :
    (∃ c key, action = .eval c ∧ s.formed c = some key ∧ t.store.marketDay = some key ∧
        t.resets = if (compareDay s.store.marketDay key).1 then key :: s.resets else s.resets) ∨
      t.store.marketDay = s.store.marketDay ∧ t.resets = s.resets ∧ ∀ c, action ≠ .eval c := by
  cases action with
  | advance seconds => cases one; exact .inr ⟨rfl, rfl, fun _ same => nomatch same⟩
  | readClock c => cases one; exact .inr ⟨rfl, rfl, fun _ same => nomatch same⟩
  | commit commit => cases one; exact .inr ⟨rfl, rfl, fun _ same => nomatch same⟩
  | eval c =>
      simp only [step] at one
      cases formed : s.formed c with
      | none =>
          rw [formed] at one
          cases one
      | some key =>
          rw [formed] at one
          rw [← Option.some.inj one]
          exact .inl ⟨c, key, rfl, formed, marketDay_checkDayBoundary s.store key, rfl⟩

theorem neverBack_of_onTime (onTime : s.OnTime action) : s.NeverBack zone action := by
  intro next day after one stored later
  rcases step_cases one with ⟨c, key, same, formed, now, -⟩ | ⟨kept, -, -⟩
  · have sent : key = after := Option.some.inj (now.symm.trans later)
    exact sent ▸ onTime c key day same formed stored
  · have same : day = after := Option.some.inj (stored.symm.trans (kept.symm.trans later))
    exact same.le

theorem onTime_of_neverBack (neverBack : s.NeverBack zone action) : s.OnTime action := by
  rintro c key day rfl formed stored
  have one : s.step zone (.eval c) = some
      { s with
        store := s.store.checkDayBoundary key
        formed := Function.update s.formed c none
        resets := if (compareDay s.store.marketDay key).1 then key :: s.resets else s.resets } := by
    simp only [step, formed]
  exact neverBack _ day key one stored (marketDay_checkDayBoundary s.store key)

theorem Past.step (past : s.Past) (onTime : s.OnTime action) (one : s.step zone action = some t) : t.Past := by
  rcases step_cases one with ⟨c, key, same, formed, now, resets⟩ | ⟨kept, same, -⟩
  · rw [Past, resets, now]
    split
    case isTrue reset =>
      have earlier : ∀ old ∈ s.resets, old < key := by
        intro old member
        obtain ⟨day, stored, before⟩ := past.2 old member
        apply lt_of_le_of_ne (before.trans (onTime c key day same formed stored))
        rintro rfl
        -- a stored key equal to the sent one would not reset
        have ahead := onTime c old day same formed stored
        exact compareDay_resets.mp reset (stored.trans (congrArg some (le_antisymm ahead before)))
      refine ⟨List.nodup_cons.mpr ⟨fun member => lt_irrefl key (earlier key member), past.1⟩, ?_⟩
      intro old member
      rcases List.mem_cons.mp member with rfl | rest
      · exact ⟨old, rfl, le_refl old⟩
      · exact ⟨key, rfl, (earlier old rest).le⟩
    case isFalse =>
      refine ⟨past.1, fun old member => ?_⟩
      obtain ⟨day, stored, before⟩ := past.2 old member
      exact ⟨key, rfl, before.trans (onTime c key day same formed stored)⟩
  · rw [Past, same, kept]
    exact past

/-- The stored day never goes back and each day's deletion happens once exactly
when every key is sent on time. -/
theorem resets_once_iff (zone : ZoneInfo) (now : ℤ) (store : Store) (actions : List (BoundaryStep T)) :
    (Along (step zone) (NeverBack zone) actions (fresh now store) ∧
      ∀ final, exec (step zone) actions (fresh now store) = some final → final.resets.Nodup) ↔
        Along (step zone) OnTime actions (fresh now store) := by
  have same : Along (step zone) (NeverBack zone) actions (fresh now store) ↔
      Along (step zone) OnTime actions (fresh now store) :=
    along_congr (fun _ => True) (fun _ _ _ => trivial) (fun _ => ⟨onTime_of_neverBack, neverBack_of_onTime⟩) trivial
  constructor
  · rintro ⟨neverBack, -⟩
    exact same.mp neverBack
  · intro onTime
    constructor
    · exact same.mpr onTime
    · intro final run
      have past : final.Past := by
        apply along_invariant Past (fun past sent one => past.step sent one) _ onTime run
        exact ⟨List.nodup_nil, fun key member => nomatch member⟩
      exact past.1

/-- A call that was slow to send puts the old day back; the new day begins, and
the boards go, a second time. -/
theorem slow_call_deletes_again :
    ∃ (actions : List (BoundaryStep Bool)) (final : Boundary Bool),
      exec (step newYork) actions (fresh 1700000000 Store.fresh) = some final ∧
        ¬ final.resets.Nodup ∧ ¬ Along (step newYork) (NeverBack newYork) actions (fresh 1700000000 Store.fresh) := by
  refine ⟨[.readClock false, .advance 86400, .readClock true, .eval true, .eval false, .readClock true, .eval true],
    _, rfl, by decide, ?_⟩
  intro kept
  have back := Along.at_step
    [BoundaryStep.readClock false, .advance 86400, .readClock true, .eval true] kept rfl
  exact absurd (back _ _ _ rfl rfl rfl) (by decide)

end Boundary

end KuhlHausMdp.LeaderboardAnalyzer
