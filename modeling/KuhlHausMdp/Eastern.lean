import Mathlib
import KuhlHausMdp.MarketDay
import KuhlHausMdp.Library.Period

/-! Eastern time, whose clocks change at 2 AM. Days are counted from 1970-01-01. -/

set_option autoImplicit false

namespace KuhlHausMdp

def localDay (zone : ZoneInfo) (now : ℤ) : ℤ := (now + zone.utcoffset now) / 86400

def localSecond (zone : ZoneInfo) (now : ℤ) : ℤ := (now + zone.utcoffset now) % 86400

/-- `summer day` says whether daylight time is in force from that day's 2 AM on.
A wall time that is skipped is read before the change, one that comes twice as
the first. -/
def eastern (summer : ℤ → Bool) : ZoneInfo where
  utcoffset now :=
    let day := (now - 18000) / 86400
    let second := (now - 18000) % 86400
    let daylight := if summer day then summer (day - 1) || 7200 ≤ second else summer (day - 1) && second < 3600
    if daylight then -14400 else -18000
  wallOffset wall :=
    let day := wall / 86400
    let second := wall % 86400
    let daylight := if summer day then summer (day - 1) || 10800 ≤ second else summer (day - 1) && second < 7200
    if daylight then -14400 else -18000

/-- From the second Sunday of March to the first of November, in years that
begin with March. -/
def daylightSaving (day : ℤ) : Bool :=
  let dayOfEra := (day + 719468) % 146097
  let yearOfEra := (dayOfEra - dayOfEra / 1460 + dayOfEra / 36524 - dayOfEra / 146096) / 365
  let dayOfYear := dayOfEra - (365 * yearOfEra + yearOfEra / 4 - yearOfEra / 100)
  let sunday := dayOfYear - (day + 4) % 7
  7 ≤ sunday && sunday < 245

/-- `ZoneInfo("America/New_York")` under the rule in force since 2007. -/
def americaNewYork : ZoneInfo := eastern daylightSaving

def fourAM (summer : ℤ → Bool) (day : ℤ) : ℤ := day * 86400 + 14400 + if summer day then 14400 else 18000

variable {summer : ℤ → Bool} {now : ℤ}

theorem fourAM_strictMono : StrictMono (fourAM summer) := by
  apply strictMono_int_of_lt_succ
  intro day
  unfold fourAM
  split <;> split <;> omega

theorem utcoffset_eastern {day second : ℤ} (isNow : now = day * 86400 + second + 18000) (nonneg : 0 ≤ second)
    (small : second < 86400) :
    (eastern summer).utcoffset now =
      if summer day then (if summer (day - 1) = false ∧ second < 7200 then -18000 else -14400)
      else if summer (day - 1) = true ∧ second < 3600 then -14400 else -18000 := by
  have isDay : (now - 18000) / 86400 = day := by omega
  have isSecond : (now - 18000) % 86400 = second := by omega
  simp only [eastern, isDay, isSecond]
  cases summer day <;> cases summer (day - 1) <;> simp
  by_cases early : second < 7200
  · rw [if_neg (not_le.mpr early), if_pos early]
  · rw [if_pos (not_lt.mp early), if_neg early]

/-- Only the last hour before midnight can be the next day's. -/
theorem localDay_eastern {day second : ℤ} (isNow : now = day * 86400 + second + 18000) (nonneg : 0 ≤ second)
    (small : second < 86400) :
    localDay (eastern summer) now = if summer day = true ∧ 82800 ≤ second then day + 1 else day := by
  rw [localDay, utcoffset_eastern isNow nonneg small]
  cases summer day with
  | true => simp only [if_true, true_and]; split_ifs <;> omega
  | false => simp only [Bool.false_eq_true, if_false, false_and]; split_ifs <;> omega

theorem exists_standard (now : ℤ) :
    ∃ day second, now = day * 86400 + second + 18000 ∧ 0 ≤ second ∧ second < 86400 :=
  ⟨(now - 18000) / 86400, (now - 18000) % 86400, by omega, by omega, by omega⟩

theorem localDay_mono {later : ℤ} (ordered : now ≤ later) :
    localDay (eastern summer) now ≤ localDay (eastern summer) later := by
  obtain ⟨day, second, isNow, nonneg, small⟩ := exists_standard now
  obtain ⟨laterDay, laterSecond, isLater, laterNonneg, laterSmall⟩ := exists_standard later
  rw [localDay_eastern isNow nonneg small, localDay_eastern isLater laterNonneg laterSmall]
  have forwards : day ≤ laterDay := by omega
  rcases forwards.eq_or_lt with rfl | before
  · cases summer day with
    | true => simp only [true_and]; split_ifs <;> omega
    | false => simp
  · split_ifs <;> omega

theorem currentDayTs_eastern : currentDayTs (eastern summer) now = fourAM summer (localDay (eastern summer) now) := by
  have wall : ∀ day : ℤ, (eastern summer).wallOffset (day * 86400 + 14400) = if summer day then -14400 else -18000 := by
    intro day
    have isDay : (day * 86400 + 14400) / 86400 = day := by omega
    have isSecond : (day * 86400 + 14400) % 86400 = 14400 := by omega
    simp only [eastern, isDay, isSecond]
    cases summer day <;> cases summer (day - 1) <;> rfl
  simp only [currentDayTs]
  rw [wall, ← localDay, fourAM]
  split <;> omega

/-- Before a day's 4 AM the clock shows less than 4 hours, from then on what has
passed since. -/
theorem localSecond_eastern :
    (now < fourAM summer (localDay (eastern summer) now) → localSecond (eastern summer) now < 14400) ∧
      (fourAM summer (localDay (eastern summer) now) ≤ now →
        localSecond (eastern summer) now = now - fourAM summer (localDay (eastern summer) now) + 14400) := by
  obtain ⟨day, second, isNow, nonneg, small⟩ := exists_standard now
  rw [localDay_eastern isNow nonneg small, localSecond, utcoffset_eastern isNow nonneg small]
  by_cases next : summer day = true ∧ 82800 ≤ second
  · rw [if_pos next, fourAM, next.1]
    simp only [if_true]
    split_ifs <;> omega
  · rw [if_neg next, fourAM]
    cases isSummer : summer day with
    | true =>
        simp only [isSummer, true_and, not_le, if_true] at next ⊢
        split_ifs <;> omega
    | false =>
        simp only [Bool.false_eq_true, if_false]
        split_ifs <;> omega

theorem localSecond_lt_iff :
    localSecond (eastern summer) now < 14400 ↔ now < fourAM summer (localDay (eastern summer) now) := by
  obtain ⟨before, after⟩ := @localSecond_eastern summer now
  constructor
  · intro early
    by_contra late
    rw [after (not_lt.mp late)] at early
    omega
  · exact before

theorem localDay_fourAM (day : ℤ) : localDay (eastern summer) (fourAM summer day) = day := by
  have isNow : fourAM summer day = day * 86400 + (if summer day then 10800 else 14400) + 18000 := by
    unfold fourAM
    split <;> omega
  rw [localDay_eastern isNow (by split <;> decide) (by split <;> decide)]
  split_ifs <;> omega

theorem localDay_le {day : ℤ} (before : now < fourAM summer day) : localDay (eastern summer) now ≤ day :=
  (localDay_mono before.le).trans_eq (localDay_fourAM day)

theorem le_localDay {day : ℤ} (begun : fourAM summer day ≤ now) : day ≤ localDay (eastern summer) now :=
  (localDay_fourAM day).symm.trans_le (localDay_mono begun)

/-- The instants at which the clock shows 4:00:00. -/
theorem localSecond_eq_iff : localSecond (eastern summer) now = 14400 ↔ ∃ day, now = fourAM summer day := by
  constructor
  · intro shows
    have begun : fourAM summer (localDay (eastern summer) now) ≤ now := by
      rw [← not_lt, ← localSecond_lt_iff]
      omega
    have passed := localSecond_eastern.2 begun
    exact ⟨localDay (eastern summer) now, by omega⟩
  · rintro ⟨day, rfl⟩
    have passed := @localSecond_eastern summer (fourAM summer day)
    rw [localDay_fourAM] at passed
    rw [passed.2 le_rfl]
    omega

/-! The day that runs from one 4 AM to the next. -/

def tradingDay (zone : ZoneInfo) (now : ℤ) : ℤ :=
  if localSecond zone now < 14400 then localDay zone now - 1 else localDay zone now

theorem inPeriod_tradingDay (summer : ℤ → Bool) (now : ℤ) :
    Period.InPeriod (fourAM summer) (tradingDay (eastern summer) now) now := by
  unfold tradingDay
  split
  case isTrue early =>
    rw [localSecond_lt_iff] at early
    refine ⟨?_, by rwa [sub_add_cancel]⟩
    by_contra before
    have back := localDay_le (not_le.mp before)
    omega
  case isFalse late =>
    rw [localSecond_lt_iff, not_lt] at late
    refine ⟨late, ?_⟩
    by_contra beyond
    have on := le_localDay (not_lt.mp beyond)
    omega

end KuhlHausMdp
