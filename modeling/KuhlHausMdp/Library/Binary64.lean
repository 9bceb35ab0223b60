import Mathlib.Data.Int.Log
import Mathlib.Data.Nat.Prime.Basic
import Mathlib.Data.Rat.Floor
import KuhlHausMdp.Library.Decimal

/-! The finite binary64 numbers, rounding to the nearest of them with ties to
even, and the shortest decimal that rounds to one. -/

set_option autoImplicit false

namespace Binary64

def IsMagnitude (x : ℚ) : Prop := ∃ (m : ℕ) (e : ℤ), m < 2 ^ 53 ∧ -1074 ≤ e ∧ e ≤ 971 ∧ x = m * 2 ^ e

def roundHalfEven (x : ℚ) : ℕ :=
  let n := ⌊x⌋₊
  if x - n < 1 / 2 then n
  else if 1 / 2 < x - n then n + 1
  else if n % 2 = 0 then n else n + 1

def lastBit (x : ℚ) : ℤ := max (-1074) (Int.log 2 x - 52)

def nearest (x : ℚ) : ℚ := roundHalfEven (x / 2 ^ lastBit x) * 2 ^ lastBit x

/-- The two decimals of `n` digits around a number, those that round to it; of
both the closer, or else the even one. -/
def candidate (x : ℚ) (n : ℕ) : Option Decimal :=
  let exponent := Int.log 10 x + 1 - n
  let low : Decimal := ⟨⌊x / 10 ^ exponent⌋₊, exponent⟩
  let high : Decimal := ⟨low.digits + 1, exponent⟩
  if nearest low.value = x then
    if nearest high.value = x ∧ (high.value - x < x - low.value ∨ high.value - x = x - low.value ∧ low.digits % 2 = 1)
    then some high
    else some low
  else if nearest high.value = x then some high
  else none

def exact (x : ℚ) : Decimal := ⟨x.num.toNat * 5 ^ Nat.log 2 x.den, -Nat.log 2 x.den⟩

/-- With the fewest digits. No float needs more than 17, so `exact` only makes
the definition total. -/
def shortest (x : ℚ) : Decimal := (((List.range 17).findSome? fun n => candidate x (n + 1)).getD (exact x)).trimmed

end Binary64

structure Binary64 where
  negative : Bool
  magnitude : ℚ
  isMagnitude : Binary64.IsMagnitude magnitude

namespace Binary64

def value (v : Binary64) : ℚ := if v.negative then -v.magnitude else v.magnitude

def decimal (v : Binary64) : Decimal := shortest v.magnitude

/-- `repr` of a float. -/
def write (v : Binary64) : List Char := Decimal.write v.negative v.decimal

/-- `float` on ASCII digits; no number where the text has none, or it is infinite. -/
def readFloat (text : List Char) : Option ℚ := do
  let (negative, d) ← Decimal.read text
  let magnitude := nearest d.value
  if magnitude < 2 ^ 1024 then return if negative then -magnitude else magnitude else none

/-! A number is read as itself. -/

theorem roundHalfEven_natCast (n : ℕ) : roundHalfEven (n : ℚ) = n := by
  simp [roundHalfEven]

theorem nearest_of_isMagnitude {x : ℚ} (isMagnitude : IsMagnitude x) : nearest x = x := by
  obtain ⟨m, e, bits, low, -, rfl⟩ := isMagnitude
  rcases Nat.eq_zero_or_pos m with rfl | positive
  · simp [nearest, roundHalfEven]
  -- with at most 53 bits the number is a multiple of its last bit
  · have fits : lastBit (m * 2 ^ e) ≤ e := by
      have unit : (0 : ℚ) < 2 ^ e := zpow_pos (by decide) e
      have small : (m : ℚ) < 2 ^ (53 : ℤ) := by exact_mod_cast bits
      have below : (m * 2 ^ e : ℚ) < ((2 : ℕ) : ℚ) ^ (53 + e) := by
        rw [Nat.cast_ofNat, zpow_add₀ (by decide)]
        exact mul_lt_mul_of_pos_right small unit
      have nonzero : (0 : ℚ) < m * 2 ^ e := mul_pos (by exact_mod_cast positive) unit
      have log := (Int.lt_zpow_iff_log_lt one_lt_two nonzero).mp below
      exact max_le low (by omega)
    obtain ⟨shift, places⟩ : ∃ shift : ℕ, e = lastBit (m * 2 ^ e) + shift :=
      ⟨(e - lastBit (m * 2 ^ e)).toNat, by omega⟩
    unfold nearest
    generalize lastBit (m * 2 ^ e) = u at *
    have whole : (m * 2 ^ e : ℚ) / 2 ^ u = ((m * 2 ^ shift : ℕ) : ℚ) := by
      rw [places, zpow_add₀ (by decide), zpow_natCast]
      push_cast
      field_simp
    have cancel : (m * 2 ^ e : ℚ) / 2 ^ u * 2 ^ u = m * 2 ^ e := by field_simp
    rw [whole, roundHalfEven_natCast, ← whole, cancel]

theorem lt_of_isMagnitude {x : ℚ} (isMagnitude : IsMagnitude x) : x < 2 ^ 1024 := by
  obtain ⟨m, e, bits, -, high, rfl⟩ := isMagnitude
  have small : (m : ℚ) < 2 ^ 53 := by exact_mod_cast bits
  have scale : (2 : ℚ) ^ e ≤ 2 ^ 971 := by
    rw [← zpow_natCast]
    exact zpow_le_zpow_right₀ one_le_two high
  calc (m * 2 ^ e : ℚ) < 2 ^ 53 * 2 ^ e := mul_lt_mul_of_pos_right small (zpow_pos (by decide) e)
    _ ≤ 2 ^ 53 * 2 ^ 971 := mul_le_mul_of_nonneg_left scale (by positivity)
    _ = 2 ^ 1024 := (pow_add 2 53 971).symm

/-! The shortest decimal rounds to its number. -/

theorem nearest_candidate {x : ℚ} {n : ℕ} {d : Decimal} (found : candidate x n = some d) : nearest d.value = x := by
  unfold candidate at found
  simp only at found
  split_ifs at found with low high high
  · cases found
    exact high.1
  · cases found
    exact low
  · cases found
    exact high

theorem den_of_isMagnitude {x : ℚ} (isMagnitude : IsMagnitude x) : ∃ j : ℕ, x.den = 2 ^ j := by
  obtain ⟨m, e, -, low, -, rfl⟩ := isMagnitude
  obtain ⟨shift, depth, places⟩ : ∃ shift depth : ℕ, e = (shift : ℤ) - depth := ⟨(e + 1074).toNat, 1074, by omega⟩
  have quotient : (m * 2 ^ e : ℚ) = Rat.divInt (m * 2 ^ shift : ℕ) (2 ^ depth : ℕ) := by
    rw [Rat.divInt_eq_div, places, zpow_sub₀ (by decide), zpow_natCast, zpow_natCast]
    push_cast
    ring
  have divides : (m * 2 ^ e : ℚ).den ∣ 2 ^ depth := by
    rw [quotient]
    exact Int.natCast_dvd_natCast.mp (Rat.den_dvd _ _)
  obtain ⟨j, -, same⟩ := (Nat.dvd_prime_pow Nat.prime_two).mp divides
  exact ⟨j, same⟩

theorem value_exact {x : ℚ} (isMagnitude : IsMagnitude x) : (exact x).value = x := by
  obtain ⟨j, den⟩ := den_of_isMagnitude isMagnitude
  have nonneg : 0 ≤ x.num := by
    obtain ⟨m, e, -, -, -, rfl⟩ := isMagnitude
    exact Rat.num_nonneg.mpr (mul_nonneg m.cast_nonneg (zpow_nonneg (by decide) e))
  have num : ((x.num.toNat : ℕ) : ℚ) = x.num := by exact_mod_cast Int.toNat_of_nonneg nonneg
  -- n / 2 ^ j is n * 5 ^ j / 10 ^ j
  have tenth : (5 : ℚ) ^ j * 10 ^ (-(j : ℤ)) = (2 ^ j)⁻¹ := by
    rw [zpow_neg, zpow_natCast, show (10 : ℚ) = 2 * 5 by norm_num, mul_pow]
    field_simp
  calc (exact x).value = x.num * (5 ^ j * 10 ^ (-(j : ℤ))) := by
        rw [exact, Decimal.value, den, Nat.log_pow one_lt_two]
        push_cast
        rw [num]
        ring
    _ = x.num / x.den := by rw [tenth, den, div_eq_mul_inv, Nat.cast_pow, Nat.cast_ofNat]
    _ = x := x.num_div_den

theorem nearest_shortest {x : ℚ} (isMagnitude : IsMagnitude x) : nearest (shortest x).value = x := by
  rw [shortest, Decimal.value_trimmed]
  cases found : (List.range 17).findSome? fun n => candidate x (n + 1) with
  | none => rw [Option.getD_none, value_exact isMagnitude, nearest_of_isMagnitude isMagnitude]
  | some d =>
      obtain ⟨n, -, rounds⟩ := List.exists_of_findSome?_eq_some found
      exact nearest_candidate rounds

theorem readFloat_write {v : Binary64} (dotted : v.decimal.Dotted) : readFloat v.write = some v.value := by
  obtain ⟨other, text, same⟩ := Decimal.read_write v.negative dotted
  have rounds : nearest other.value = v.magnitude := by rw [same, decimal, nearest_shortest v.isMagnitude]
  simp only [readFloat, write, text, Option.bind_eq_bind, Option.bind_some, rounds,
    if_pos (lt_of_isMagnitude v.isMagnitude), value, Option.pure_def]

end Binary64
