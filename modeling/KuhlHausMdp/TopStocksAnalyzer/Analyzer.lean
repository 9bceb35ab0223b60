import Mathlib.Algebra.Order.Ring.Rat
import KuhlHausMdp.Library.Dict
import KuhlHausMdp.Library.Value
import KuhlHausMdp.Eastern

/-! What `TopStocksAnalyzer` keeps in memory, and the two resets with which
`analyze_data` begins. -/

set_option autoImplicit false

namespace KuhlHausMdp

structure TopStocksCacheItem where
  dayStartTime : Option ℚ
  symbolDataCache : Dict String (Dict String Value)
  topVolumeMap : Dict String Value
  topGappersMap : Dict String Value
  topGainersMap : Dict String Value

def TopStocksCacheItem.fresh : TopStocksCacheItem where
  dayStartTime := some 0
  symbolDataCache := ∅
  topVolumeMap := ∅
  topGappersMap := ∅
  topGainersMap := ∅

structure TopStocksAnalyzer where
  cacheItem : TopStocksCacheItem
  preMarketReset : Bool

namespace TopStocksAnalyzer

def isNewDay (self : TopStocksAnalyzer) (zone : ZoneInfo) (now : ℤ) : Bool :=
  some (currentDayTs zone now : ℚ) ≠ self.cacheItem.dayStartTime

def checkBoundaries (self : TopStocksAnalyzer) (zone : ZoneInfo) (now : ℤ) : TopStocksAnalyzer :=
  let currentDay : ℚ := currentDayTs zone now
  if self.isNewDay zone now then
    { cacheItem := { TopStocksCacheItem.fresh with dayStartTime := some currentDay }
      preMarketReset := false }
  else if 34200 ≤ localSecond zone now ∧ localSecond zone now < 34260 ∧ self.preMarketReset = false then
    { cacheItem := { TopStocksCacheItem.fresh with dayStartTime := some currentDay }
      preMarketReset := true }
  else self

theorem dayStartTime_checkBoundaries (analyzer : TopStocksAnalyzer) (zone : ZoneInfo) (now : ℤ) :
    (analyzer.checkBoundaries zone now).cacheItem.dayStartTime = some (currentDayTs zone now : ℚ) := by
  unfold checkBoundaries
  split
  case isTrue => rfl
  case isFalse same =>
    split
    case isTrue => rfl
    case isFalse => exact (by simpa [isNewDay] using same : some (currentDayTs zone now : ℚ) = _).symm

end TopStocksAnalyzer

end KuhlHausMdp
