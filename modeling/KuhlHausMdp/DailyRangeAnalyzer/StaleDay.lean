import KuhlHausMdp.MarketDay
import KuhlHausMdp.Library.Since
import KuhlHausMdp.DailyRangeAnalyzer.Rehydrate

/-! Which day the restored values come from. A stored state carries no day of
its own, and the boundary check clears only when the stored day has changed. -/

set_option autoImplicit false

namespace KuhlHausMdp.DailyRangeAnalyzer

/-- A restorable state with the day on which its key was written beside every value. -/
def datedAt (redis : Redis) (writtenOn : String → ℤ) (key : String) : Option (Restorable (ℚ × ℤ)) :=
  (restorableAt redis key).map fun payload =>
    ⟨payload.symbol, fun session direction => (payload.field session direction).map (·, writtenOn key)⟩

/-- What rehydration restores into empty dictionaries, with the days. -/
def datedExtremes (current : Option Session) (redis : Redis) (writtenOn : String → ℤ) (pages : List (List String)) :
    Session → Direction → Dict String (ℚ × ℤ) :=
  match current with
  | none => fun _ _ => ∅
  | some current => (pages.flatten.filterMap (datedAt redis writtenOn)).foldl (restore current) fun _ _ => ∅

/-- The dictionaries after the boundary check of the first tick, with the days. -/
def firstChecked (stored : Option ℤ) (today : ℤ) (extremes : Session → Direction → Dict String (ℚ × ℤ)) :
    Session → Direction → Dict String (ℚ × ℤ) :=
  if (compareDay stored today).1 then fun _ _ => ∅ else extremes

section
variable (redis : Redis) (writtenOn : String → ℤ) (symbol : String) (session : Session) (direction : Direction)

def entryAt (key : String) : Option (ℚ × ℤ) :=
  (datedAt redis writtenOn key).bind (Restorable.provides symbol session direction)

theorem get_datedExtremes (current : Session) (pages : List (List String)) :
    (datedExtremes (some current) redis writtenOn pages session direction).get symbol =
      if session ∈ elapsed current then
        (pages.flatten.filterMap (entryAt redis writtenOn symbol session direction)).getLast?
      else none := by
  rw [datedExtremes, get_foldl_restore, List.filterMap_filterMap]
  simp only [Dict.get_empty, Option.or_none]
  rfl

theorem entryAt_eq_some_iff {key : String} {value : ℚ} {day : ℤ} :
    entryAt redis writtenOn symbol session direction key = some (value, day) ↔
      writtenOn key = day ∧ ∃ payload, restorableAt redis key = some payload ∧ payload.symbol = symbol ∧
        payload.field session direction = some value := by
  unfold entryAt datedAt
  cases restorableAt redis key with
  | none => simp
  | some payload =>
      by_cases own : payload.symbol = symbol
      · simp [Restorable.provides, own, and_comm]
      · simp [Restorable.provides, own]

end

/-- The dated dictionaries are the analyzer's, with the days beside the values. -/
theorem fst_firstChecked (draCacheListMax : Nat) (now : Tick) (redis : Redis) (writtenOn : String → ℤ)
    (pages : List (List String)) (stored : Option ℤ) (today : ℤ) (symbol : String) (session : Session)
    (direction : Direction) :
    (((rehydrate (fresh draCacheListMax) now redis pages).checkDayBoundary (compareDay stored today).1).extremes session
        direction).get symbol =
      ((firstChecked stored today
        (datedExtremes ((fresh draCacheListMax).getSession now).1 redis writtenOn pages) session direction).get
          symbol).map Prod.fst := by
  -- dropping the days gives the keys' own values back
  have undated : ∀ key, (entryAt redis writtenOn symbol session direction key).map Prod.fst =
      (restorableAt redis key).bind (Restorable.provides symbol session direction) := by
    intro key
    unfold entryAt datedAt
    cases restorableAt redis key with
    | none => rfl
    | some payload =>
        by_cases own : payload.symbol = symbol
        · simp [Restorable.provides, own, Function.comp_def]
        · simp [Restorable.provides, own]
  unfold firstChecked
  cases (compareDay stored today).1 with
  | true => rfl
  | false =>
      simp only [checkDayBoundary, Bool.false_eq_true, if_false]
      cases known : ((fresh draCacheListMax).getSession now).1 with
      | none =>
          rw [rehydrate_closed known]
          rfl
      | some current =>
          rw [rehydrate_eq known, get_datedExtremes, get_foldl_restore, List.filterMap_filterMap]
          by_cases begun : session ∈ elapsed current
          · rw [if_pos begun, if_pos begun, ← List.getLast?_map, List.map_filterMap]
            simp only [undated]
            exact Option.or_none
          · rw [if_neg begun, if_neg begun]
            rfl

/-- In the order of the scan, every state of an earlier day that has a value of a
session begun is followed by a state of today that has it too. -/
def Refreshed (current : Session) (redis : Redis) (writtenOn : String → ℤ) (pages : List (List String)) (today : ℤ) :
    Prop :=
  ∀ early key late, pages.flatten = early ++ key :: late → writtenOn key < today →
    ∀ payload, restorableAt redis key = some payload →
      ∀ session ∈ elapsed current, ∀ direction, (payload.field session direction).isSome →
        ∃ later ∈ late, today ≤ writtenOn later ∧
          ∃ other, restorableAt redis later = some other ∧ other.symbol = payload.symbol ∧
            (other.field session direction).isSome

theorem refreshed_iff (current : Session) (redis : Redis) (writtenOn : String → ℤ) (pages : List (List String))
    (today : ℤ) :
    (∀ symbol session direction value day,
        (datedExtremes (some current) redis writtenOn pages session direction).get symbol = some (value, day) →
          today ≤ day) ↔ Refreshed current redis writtenOn pages today := by
  constructor
  · intro clean early key late split stale payload found session begun direction present
    obtain ⟨value, isValue⟩ := Option.isSome_iff_exists.mp present
    have last := (List.forall_getLast?_filterMap_iff (entryAt redis writtenOn payload.symbol session direction)
      (fun entry => today ≤ entry.2) pages.flatten).mp fun entry found => clean payload.symbol session direction entry.1
        entry.2 (by rw [get_datedExtremes, if_pos begun]; exact found)
    obtain ⟨later, member, ⟨value, day⟩, entry, fresh⟩ := last early key late split (value, writtenOn key)
      ((entryAt_eq_some_iff ..).mpr ⟨rfl, payload, found, rfl, isValue⟩) (not_le.mpr stale)
    obtain ⟨rfl, other, there, own, isOther⟩ := (entryAt_eq_some_iff ..).mp entry
    exact ⟨later, member, fresh, other, there, own, isOther ▸ rfl⟩
  · intro refreshed symbol session direction value day found
    rw [get_datedExtremes] at found
    by_cases begun : session ∈ elapsed current
    · rw [if_pos begun] at found
      refine (List.forall_getLast?_filterMap_iff (entryAt redis writtenOn symbol session direction)
        (fun entry => today ≤ entry.2) pages.flatten).mpr ?_ (value, day) found
      rintro early key late split ⟨old, before⟩ entry stale
      obtain ⟨rfl, payload, there, rfl, isOld⟩ := (entryAt_eq_some_iff ..).mp entry
      obtain ⟨later, member, fresh, other, stored, own, present⟩ :=
        refreshed early key late split (not_le.mp stale) payload there session begun direction (isOld ▸ rfl)
      obtain ⟨next, isNext⟩ := Option.isSome_iff_exists.mp present
      exact ⟨later, member, (next, writtenOn later),
        (entryAt_eq_some_iff ..).mpr ⟨rfl, other, stored, own, isNext⟩, fresh⟩
    · rw [if_neg begun] at found
      cases found

/-- After a restart and the first boundary check no value is of an earlier day,
exactly when that check clears or today's states cover what is restored. -/
theorem no_stale_day_iff (draCacheListMax : Nat) (now : Tick) (redis : Redis) (writtenOn : String → ℤ)
    (pages : List (List String)) (stored : Option ℤ) (today : ℤ) :
    (∀ symbol session direction value day,
        (firstChecked stored today
          (datedExtremes ((fresh draCacheListMax).getSession now).1 redis writtenOn pages) session direction).get
            symbol = some (value, day) → today ≤ day) ↔
      stored ≠ some today ∨
        ∀ current, ((fresh draCacheListMax).getSession now).1 = some current →
          Refreshed current redis writtenOn pages today := by
  unfold firstChecked
  by_cases changed : stored = some today
  · subst changed
    have kept : (compareDay (some today) today).1 = false := by
      rw [← Bool.not_eq_true, compareDay_resets, not_ne_iff]
    simp only [kept, Bool.false_eq_true, if_false, ne_eq, not_true_eq_false, false_or]
    cases ((fresh draCacheListMax).getSession now).1 with
    | none => simp [datedExtremes]
    | some current =>
        simp only [Option.some.injEq, forall_eq']
        exact refreshed_iff current redis writtenOn pages today
  · simp only [compareDay_resets.mpr changed, if_true, ne_eq, changed, not_false_eq_true, true_or, iff_true]
    intro symbol session direction value day found
    cases found

def yesterdaysState : Payload where
  data := ⟨[("symbol", .str "AAPL"), ("pre_market_high", .num 170), ("pre_market_low", .num 160),
    ("regular_session_high", .num 172), ("regular_session_low", .num 161), ("after_hours_high", .none),
    ("after_hours_low", .none)], by decide⟩
  numeric session direction := by
    cases session <;> cases direction <;>
      first | exact .inl rfl | exact .inr ⟨_, rfl⟩

def preMarketTick : Tick := { regularTick with status := some ⟨.str "extended-hours", .bool true, .bool false⟩ }

/-- Another symbol has moved the stored day already, so nothing is cleared. -/
theorem yesterdays_high_is_restored :
    ¬ ∀ (draCacheListMax : Nat) (now : Tick) (redis : Redis) (writtenOn : String → ℤ) (pages : List (List String))
        (stored : Option ℤ) (today : ℤ) symbol session direction value day,
        (firstChecked stored today
          (datedExtremes ((fresh draCacheListMax).getSession now).1 redis writtenOn pages) session direction).get
            symbol = some (value, day) → today ≤ day := by
  intro always
  have stale := always 1000 preMarketTick (fun key => if key = "daily_range:AAPL" then some (.state yesterdaysState) else none)
    (fun _ => 1700000000) [["daily_range:AAPL"]] (some 1700086400) 1700086400 "AAPL" .preMarket .high 170 1700000000
    (by decide +kernel)
  exact absurd stale (by decide)

end KuhlHausMdp.DailyRangeAnalyzer
