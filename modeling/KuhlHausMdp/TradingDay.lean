import KuhlHausMdp.Eastern
import KuhlHausMdp.LeaderboardAnalyzer.Store
import KuhlHausMdp.TopStocksAnalyzer.Analyzer

/-! The day to which the three analyzers assign an instant. All three take the
4 AM of its local date, so their day begins at midnight. Instants are in
microseconds. -/

set_option autoImplicit false

namespace KuhlHausMdp.TradingDay

open LeaderboardAnalyzer

/-- The instant without its microseconds. -/
def second (instant : ℤ) : ℤ := instant / 1000000

/-! A check at one instant, and whether one at another resets. -/

def leaderboardSameDay (zone : ZoneInfo) (s : Store) (first later : ℤ) : Prop :=
  (compareDay (s.checkDayBoundary (currentDayTs zone (second first))).marketDay
    (currentDayTs zone (second later))).1 = false

def dailyRangeSameDay (zone : ZoneInfo) (stored : Option ℤ) (first later : ℤ) : Prop :=
  (compareDay (compareDay stored (currentDayTs zone (second first))).2 (currentDayTs zone (second later))).1 = false

def topStocksSameDay (zone : ZoneInfo) (analyzer : TopStocksAnalyzer) (first later : ℤ) : Prop :=
  (analyzer.checkBoundaries zone (second first)).isNewDay zone (second later) = false

/-- The clock shows 4:00:00 and no microseconds. -/
def IsFourAM (zone : ZoneInfo) (instant : ℤ) : Prop :=
  instant % 1000000 = 0 ∧ localSecond zone (second instant) = 14400

def NoFourAM (zone : ZoneInfo) (first later : ℤ) : Prop :=
  ∀ instant, first < instant → instant ≤ later → ¬IsFourAM zone instant

/-- The clock shows less than 4 hours. -/
def BeforeFour (zone : ZoneInfo) (instant : ℤ) : Prop := localSecond zone (second instant) < 14400

/-- On one date, 4 AM comes between the instants; or only midnight does. -/
def Misdated (zone : ZoneInfo) (first later : ℤ) : Prop :=
  localDay zone (second first) = localDay zone (second later) ∧ BeforeFour zone first ∧ ¬BeforeFour zone later ∨
    localDay zone (second later) = localDay zone (second first) + 1 ∧ ¬BeforeFour zone first ∧ BeforeFour zone later

instance (zone : ZoneInfo) (instant : ℤ) : Decidable (BeforeFour zone instant) :=
  inferInstanceAs (Decidable (localSecond zone (second instant) < 14400))

instance (zone : ZoneInfo) (first later : ℤ) : Decidable (Misdated zone first later) :=
  inferInstanceAs (Decidable (localDay zone (second first) = localDay zone (second later) ∧
    BeforeFour zone first ∧ ¬BeforeFour zone later ∨
      localDay zone (second later) = localDay zone (second first) + 1 ∧ ¬BeforeFour zone first ∧ BeforeFour zone later))

section
variable {zone : ZoneInfo} {first later : ℤ}

theorem compareDay_same {stored : Option ℤ} {day : ℤ} :
    (compareDay stored day).1 = false ↔ stored = some day := by
  rw [← Bool.not_eq_true, compareDay_resets, not_not]

theorem leaderboardSameDay_iff (s : Store) : leaderboardSameDay zone s first later ↔
    currentDayTs zone (second first) = currentDayTs zone (second later) := by
  rw [leaderboardSameDay, compareDay_same, Store.checkDayBoundary, compareDay_stored, Option.some_inj]

theorem dailyRangeSameDay_iff (stored : Option ℤ) : dailyRangeSameDay zone stored first later ↔
    currentDayTs zone (second first) = currentDayTs zone (second later) := by
  rw [dailyRangeSameDay, compareDay_same, compareDay_stored, Option.some_inj]

theorem topStocksSameDay_iff (analyzer : TopStocksAnalyzer) : topStocksSameDay zone analyzer first later ↔
    currentDayTs zone (second first) = currentDayTs zone (second later) := by
  rw [topStocksSameDay, TopStocksAnalyzer.isNewDay, TopStocksAnalyzer.dayStartTime_checkBoundaries,
    decide_eq_false_iff_not, not_not, Option.some_inj, Rat.intCast_inj, eq_comm]

end

section
variable {summer : ℤ → Bool} {first later : ℤ}

theorem sameKey_iff : currentDayTs (eastern summer) first = currentDayTs (eastern summer) later ↔
    localDay (eastern summer) first = localDay (eastern summer) later := by
  rw [currentDayTs_eastern, currentDayTs_eastern, fourAM_strictMono.injective.eq_iff]

theorem noFourAM_iff (ordered : first ≤ later) : NoFourAM (eastern summer) first later ↔
    tradingDay (eastern summer) (second first) = tradingDay (eastern summer) (second later) := by
  have periods := Period.exists_start_iff fourAM_strictMono (inPeriod_tradingDay summer (second first))
    (inPeriod_tradingDay summer (second later)) (Int.ediv_le_ediv (by decide) ordered)
  rw [← not_iff_not, ← ne_eq, ← periods]
  constructor
  · intro crossed
    simp only [NoFourAM, not_forall, not_not] at crossed
    obtain ⟨instant, after, reached, whole, shows⟩ := crossed
    obtain ⟨day, same⟩ := localSecond_eq_iff.mp shows
    refine ⟨day, ?_, ?_⟩ <;> rw [← same] <;> unfold second <;> omega
  · rintro ⟨day, after, reached⟩ quiet
    refine quiet (1000000 * fourAM summer day) ?_ ?_ ⟨by omega, ?_⟩
    · unfold second at after
      omega
    · unfold second at reached
      omega
    · have same : second (1000000 * fourAM summer day) = fourAM summer day := by
        unfold second
        omega
      rw [same]
      exact localSecond_eq_iff.mpr ⟨day, rfl⟩

/-- Calendar dates and trading days agree unless 4 AM splits a date or midnight
splits a trading day. -/
theorem sameDate_iff (ordered : first ≤ later) :
    (localDay (eastern summer) (second first) = localDay (eastern summer) (second later) ↔
        tradingDay (eastern summer) (second first) = tradingDay (eastern summer) (second later)) ↔
      ¬Misdated (eastern summer) first later := by
  have seconds : second first ≤ second later := Int.ediv_le_ediv (by decide) ordered
  have forwards : localDay (eastern summer) (second first) ≤ localDay (eastern summer) (second later) :=
    localDay_mono seconds
  have early : localDay (eastern summer) (second first) = localDay (eastern summer) (second later) →
      localSecond (eastern summer) (second later) < 14400 → localSecond (eastern summer) (second first) < 14400 := by
    intro same
    rw [localSecond_lt_iff, localSecond_lt_iff, same]
    exact seconds.trans_lt
  unfold Misdated BeforeFour tradingDay
  split_ifs <;> omega

end

/-- The three analyzers assign two instants the same day exactly when no 4 AM
comes between them, but for the hours from midnight to 4. -/
theorem same_trading_day_iff (summer : ℤ → Bool) {first later : ℤ} (ordered : first ≤ later) (s : Store)
    (stored : Option ℤ) (analyzer : TopStocksAnalyzer) :
    ((leaderboardSameDay (eastern summer) s first later ↔ NoFourAM (eastern summer) first later) ∧
      (dailyRangeSameDay (eastern summer) stored first later ↔ NoFourAM (eastern summer) first later) ∧
      (topStocksSameDay (eastern summer) analyzer first later ↔ NoFourAM (eastern summer) first later)) ↔
        ¬Misdated (eastern summer) first later := by
  rw [leaderboardSameDay_iff, dailyRangeSameDay_iff, topStocksSameDay_iff, sameKey_iff, noFourAM_iff ordered,
    ← sameDate_iff ordered]
  tauto

/-- From 5:13 to 6:13 in the afternoon. -/
theorem same_trading_day_iff_afternoon :
    (leaderboardSameDay americaNewYork Store.fresh 1700000000000000 1700003600000000 ↔
        NoFourAM americaNewYork 1700000000000000 1700003600000000) ∧
      (dailyRangeSameDay americaNewYork none 1700000000000000 1700003600000000 ↔
        NoFourAM americaNewYork 1700000000000000 1700003600000000) ∧
      (topStocksSameDay americaNewYork ⟨TopStocksCacheItem.fresh, false⟩ 1700000000000000 1700003600000000 ↔
        NoFourAM americaNewYork 1700000000000000 1700003600000000) :=
  (same_trading_day_iff daylightSaving (by decide) Store.fresh none ⟨TopStocksCacheItem.fresh, false⟩).mpr (by decide)

/-- A minute before midnight and a minute after it: no 4 AM between them, and all three reset. -/
theorem midnight_starts_the_day :
    NoFourAM americaNewYork 1700024340000000 1700024460000000 ∧
      ¬leaderboardSameDay americaNewYork Store.fresh 1700024340000000 1700024460000000 ∧
      ¬dailyRangeSameDay americaNewYork none 1700024340000000 1700024460000000 ∧
      ¬topStocksSameDay americaNewYork ⟨TopStocksCacheItem.fresh, false⟩ 1700024340000000 1700024460000000 := by
  rw [leaderboardSameDay_iff, dailyRangeSameDay_iff, topStocksSameDay_iff, americaNewYork, noFourAM_iff (by decide)]
  decide

end KuhlHausMdp.TradingDay
