import Mathlib

/-! Periods cut off by an increasing sequence of instants. -/

set_option autoImplicit false

namespace Period

variable {T : Type*} [LinearOrder T] {start : ℤ → T} {p q : ℤ} {s t : T}

def InPeriod (start : ℤ → T) (p : ℤ) (t : T) : Prop := start p ≤ t ∧ t < start (p + 1)

theorem InPeriod.le_iff (mono : StrictMono start) (period : InPeriod start p t) : start q ≤ t ↔ q ≤ p := by
  constructor
  · intro begun
    exact Int.lt_add_one_iff.mp (mono.lt_iff_lt.mp (begun.trans_lt period.2))
  · intro le
    exact (mono.le_iff_le.mpr le).trans period.1

theorem InPeriod.lt_iff (mono : StrictMono start) (period : InPeriod start p t) : t < start q ↔ p < q := by
  rw [← not_le, period.le_iff mono, not_le]

/-- A period begins after one instant and by a later one exactly when the
instants lie in different periods. -/
theorem exists_start_iff (mono : StrictMono start) (first : InPeriod start p s) (second : InPeriod start q t)
    (ordered : s ≤ t) : (∃ d, s < start d ∧ start d ≤ t) ↔ p ≠ q := by
  have forwards : p ≤ q := (second.le_iff mono).mp (first.1.trans ordered)
  constructor
  · rintro ⟨d, after, begun⟩
    exact (((first.lt_iff mono).mp after).trans_le ((second.le_iff mono).mp begun)).ne
  · intro apart
    exact ⟨q, (first.lt_iff mono).mpr (lt_of_le_of_ne forwards apart), second.1⟩

end Period
