import Mathlib.Data.Int.Notation

/-! The market day both analyzers compare with the one stored in Redis. -/

set_option autoImplicit false

namespace KuhlHausMdp

/-- A time zone: the offset from UTC at an instant and at a local time, in seconds. -/
structure ZoneInfo where
  utcoffset : ℤ → ℤ
  wallOffset : ℤ → ℤ

def newYork : ZoneInfo := ⟨fun _ => -14400, fun _ => -14400⟩

/-- 4 AM local time of the local day on which the instant falls, as an instant. -/
def currentDayTs (zone : ZoneInfo) (now : ℤ) : ℤ :=
  let etNow := now + zone.utcoffset now
  let currentDay := etNow / 86400 * 86400 + 14400
  currentDay - zone.wallOffset currentDay

/-- The comparison of the Lua scripts: whether they reset, and the key stored afterwards. -/
def compareDay (stored : Option ℤ) (currentDay : ℤ) : Bool × Option ℤ :=
  if stored = some currentDay then (false, stored) else (true, some currentDay)

theorem compareDay_stored (stored : Option ℤ) (currentDay : ℤ) :
    (compareDay stored currentDay).2 = some currentDay := by
  unfold compareDay
  split
  · assumption
  · rfl

theorem compareDay_resets {stored : Option ℤ} {currentDay : ℤ} :
    (compareDay stored currentDay).1 = true ↔ stored ≠ some currentDay := by
  unfold compareDay
  split <;> simp_all

end KuhlHausMdp
