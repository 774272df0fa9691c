/-
Royd.Lib.Decimal — a division that may be refused, and rounding to a number
of decimal places, on exact rationals.

`ratio` is the guarded quotient `a / b if b else None`: it never reaches the
division by zero (`ratio_eq`). Rounding is to the nearest decimal, a tie to
the even one; it crosses no integer (`le_roundTo`, `roundTo_le`), so a
quantity that lies between two whole bounds still does when it is rounded.
-/
import Mathlib.Algebra.Order.Floor.Ring
import Mathlib.Algebra.Order.Ring.Rat
import Mathlib.Data.Rat.Floor
import Mathlib.Tactic.Positivity
import Mathlib.Tactic.Linarith

namespace Decimal

universe u

variable {ε : Type u}

/-! ## Division -/

/-- `a / b`, which raises when there is nothing to divide by. -/
def divide (raised : ε) (a b : ℚ) : Except ε ℚ :=
  if b = 0 then .error raised else .ok (a / b)

/-- `a / b if b else None`. -/
def ratio (raised : ε) (a b : ℚ) : Except ε (Option ℚ) :=
  if b = 0 then .ok none else (divide raised a b).map some

/-- What a guarded quotient comes to. -/
def quotient (a b : ℚ) : Option ℚ := if b = 0 then none else some (a / b)

/-- The guard is there in time. -/
theorem ratio_eq (raised : ε) (a b : ℚ) : ratio raised a b = .ok (quotient a b) := by
  unfold ratio quotient divide
  split
  · rfl
  · rfl

/-- A part of the whole is a share from nothing to all of it. -/
theorem quotient_bounds {part whole q : ℚ} (hpart : 0 ≤ part) (hle : part ≤ whole)
    (hq : q ∈ quotient (100 * part) whole) : 0 ≤ q ∧ q ≤ 100 := by
  unfold quotient at hq
  split at hq
  · cases hq
  · rename_i hne
    have hwhole : 0 < whole := lt_of_le_of_ne (le_trans hpart hle) (Ne.symm hne)
    cases hq
    constructor
    · positivity
    · rw [div_le_iff₀ hwhole]
      linarith

/-! ## Rounding -/

/-- The nearest integer, of two the even one. -/
def roundHalfEven (x : ℚ) : ℤ :=
  let down := ⌊x⌋
  let rest := x - down
  if rest < 1 / 2 then down
  else if 1 / 2 < rest then down + 1
  else if down % 2 = 0 then down
  else down + 1

/-- `round(x, digits)`. -/
def roundTo (digits : ℕ) (x : ℚ) : ℚ := roundHalfEven (x * 10 ^ digits) / 10 ^ digits

theorem floor_le_roundHalfEven (x : ℚ) : ⌊x⌋ ≤ roundHalfEven x := by
  unfold roundHalfEven
  dsimp only
  split_ifs <;> omega

theorem roundHalfEven_le_succ (x : ℚ) : roundHalfEven x ≤ ⌊x⌋ + 1 := by
  unfold roundHalfEven
  dsimp only
  split_ifs <;> omega

/-- A whole number is not rounded. -/
theorem roundHalfEven_intCast (m : ℤ) : roundHalfEven m = m := by
  have hrest : (m : ℚ) - (⌊(m : ℚ)⌋ : ℤ) < 1 / 2 := by
    rw [Int.floor_intCast, sub_self]
    norm_num
  unfold roundHalfEven
  dsimp only
  rw [if_pos hrest, Int.floor_intCast]

theorem le_roundHalfEven {m : ℤ} {x : ℚ} (h : (m : ℚ) ≤ x) : m ≤ roundHalfEven x :=
  le_trans (Int.le_floor.mpr h) (floor_le_roundHalfEven x)

theorem roundHalfEven_le {m : ℤ} {x : ℚ} (h : x ≤ m) : roundHalfEven x ≤ m := by
  rcases eq_or_lt_of_le h with rfl | hlt
  · rw [roundHalfEven_intCast]
  · have hfloor : ⌊x⌋ < m := Int.floor_lt.mpr hlt
    have hround := roundHalfEven_le_succ x
    omega

/-- No whole number is passed on the way down. -/
theorem le_roundTo (digits : ℕ) {m : ℤ} {x : ℚ} (h : (m : ℚ) ≤ x) : (m : ℚ) ≤ roundTo digits x := by
  have hpow : (0 : ℚ) < 10 ^ digits := by positivity
  have hscaled : ((m * 10 ^ digits : ℤ) : ℚ) ≤ x * 10 ^ digits := by
    push_cast
    exact mul_le_mul_of_nonneg_right h hpow.le
  unfold roundTo
  rw [le_div_iff₀ hpow]
  exact_mod_cast le_roundHalfEven hscaled

/-- Nor on the way up. -/
theorem roundTo_le (digits : ℕ) {m : ℤ} {x : ℚ} (h : x ≤ m) : roundTo digits x ≤ m := by
  have hpow : (0 : ℚ) < 10 ^ digits := by positivity
  have hscaled : x * 10 ^ digits ≤ ((m * 10 ^ digits : ℤ) : ℚ) := by
    push_cast
    exact mul_le_mul_of_nonneg_right h hpow.le
  unfold roundTo
  rw [div_le_iff₀ hpow]
  exact_mod_cast roundHalfEven_le hscaled

/-- Two thirds, and the two ties around twelve and a half percent. -/
example : roundTo 1 (200 / 3) = 667 / 10 ∧ roundTo 1 (1225 / 100) = 122 / 10 ∧
    roundTo 1 (1235 / 100) = 124 / 10 := by decide +kernel

end Decimal
