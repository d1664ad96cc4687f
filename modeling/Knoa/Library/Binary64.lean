import Mathlib.Data.Int.Log
import Mathlib.Data.Rat.Floor
import Mathlib.Tactic.Linarith

/-!
# Rounding to 53 bits

The values of IEEE 754 binary64 arithmetic, to nearest with ties to even, as rationals. The exponent
has no bounds.
-/
namespace Binary64

/-- To the nearest integer, to the even one from half way. -/
def roundHalfEven (x : Rat) : Int :=
  let below := ⌊x⌋
  let rest := x - below
  if rest < 1 / 2 then below
  else if rest = 1 / 2 ∧ below % 2 = 0 then below
  else below + 1

/-- The weight of the last of 53 bits. -/
def ulp (x : Rat) : Rat := 2 ^ (Int.log 2 |x| - 52)

def nearest (x : Rat) : Rat := roundHalfEven (x / ulp x) * ulp x

theorem roundHalfEven_ge (x : Rat) : x - 1 / 2 ≤ roundHalfEven x := by
  have above := Int.lt_floor_add_one x
  unfold roundHalfEven
  dsimp only
  split
  · linarith
  · split
    · rename_i half
      linarith [half.1]
    · push_cast
      linarith

theorem roundHalfEven_le (x : Rat) : (roundHalfEven x : Rat) ≤ x + 1 / 2 := by
  have below := Int.floor_le x
  unfold roundHalfEven
  dsimp only
  split
  · linarith
  · split
    · linarith
    · push_cast
      linarith

theorem roundHalfEven_intCast (m : Int) : roundHalfEven m = m := by
  rw [roundHalfEven, Int.floor_intCast, sub_self, if_pos (by norm_num)]

theorem ulp_pos (x : Rat) : 0 < ulp x := zpow_pos two_pos _

theorem nearest_nonneg {x : Rat} (h : 0 ≤ x) : 0 ≤ nearest x := by
  have scaled : -(1 / 2) ≤ (roundHalfEven (x / ulp x) : Rat) := by
    linarith [roundHalfEven_ge (x / ulp x), div_nonneg h (ulp_pos x).le]
  have whole : 0 ≤ roundHalfEven (x / ulp x) := by
    by_contra negative
    have below : roundHalfEven (x / ulp x) ≤ -1 := by omega
    have cast : (roundHalfEven (x / ulp x) : Rat) ≤ -1 := by exact_mod_cast below
    linarith
  exact mul_nonneg (Int.cast_nonneg whole) (ulp_pos x).le

/-- Rounding moves a value by at most half the weight of its last bit. -/
theorem abs_nearest_sub_le (x : Rat) : |nearest x - x| ≤ ulp x / 2 := by
  have pos := ulp_pos x
  have low := roundHalfEven_ge (x / ulp x)
  have high := roundHalfEven_le (x / ulp x)
  have scaled : x = x / ulp x * ulp x := (div_mul_cancel₀ x pos.ne').symm
  rw [abs_le]
  unfold nearest
  constructor
  · nlinarith
  · nlinarith

theorem ulp_le {x : Rat} (positive : 0 < x) : ulp x ≤ x / 2 ^ 52 := by
  have low := Int.zpow_log_le_self (b := 2) one_lt_two positive
  rw [Nat.cast_ofNat] at low
  rw [ulp, abs_of_pos positive, zpow_sub₀ two_ne_zero]
  exact div_le_div_of_nonneg_right low (by positivity)

/-- An integer of at most 53 bits is a value. -/
theorem nearest_natCast {m : Nat} (small : m < 2 ^ 53) : nearest m = m := by
  rcases Nat.eq_zero_or_pos m with rfl | positive
  · have zero : ((0 : Int) : Rat) = (0 : Nat) := by norm_num
    rw [nearest, Nat.cast_zero, zero_div, ← Nat.cast_zero, ← zero, roundHalfEven_intCast, Int.cast_zero,
      zero_mul]
  have log : Nat.log 2 m ≤ 52 := Nat.lt_succ_iff.mp (Nat.log_lt_of_lt_pow positive.ne' small)
  have weight : ulp m = (((2 ^ (52 - Nat.log 2 m) : Nat) : Rat))⁻¹ := by
    rw [ulp, abs_of_nonneg (Nat.cast_nonneg m), Int.log_natCast, ← neg_sub, zpow_neg]
    congr 1
    rw [← Nat.cast_ofNat (R := Int) (n := 52), ← Nat.cast_sub log, zpow_natCast]
    push_cast
    rfl
  have scaled : (m : Rat) / ulp m = ((m * 2 ^ (52 - Nat.log 2 m) : Nat) : Int) := by
    rw [weight, div_inv_eq_mul]
    push_cast
    rfl
  rw [nearest, scaled, roundHalfEven_intCast, ← scaled, div_mul_cancel₀ _ (ulp_pos _).ne']

/-- The relative error of a rounding. -/
theorem abs_nearest_sub_le_div {x : Rat} (h : 0 ≤ x) : |nearest x - x| ≤ x / 2 ^ 53 := by
  rcases h.eq_or_lt with rfl | positive
  · simpa using congrArg (fun y : Rat => |y|) (nearest_natCast (m := 0) (by norm_num))
  · have weight := ulp_le positive
    linarith [abs_nearest_sub_le x]

/-- A quotient of integers of at most 53 bits does not round up to the next integer. -/
theorem floor_nearest_div {x y : Nat} (small : x < 2 ^ 53) (positive : 0 < y) :
    ⌊nearest ((x : Rat) / y)⌋ = ((x / y : Nat) : Int) := by
  have wide : (0 : Rat) < y := by exact_mod_cast positive
  have split : (x : Rat) = y * (x / y : Nat) + (x % y : Nat) := by
    exact_mod_cast (Nat.div_add_mod x y).symm
  rcases Nat.eq_zero_or_pos (x % y) with even | rest
  · have whole : (x : Rat) / y = (x / y : Nat) := by
      rw [split, even, Nat.cast_zero, add_zero, mul_div_cancel_left₀ _ wide.ne']
    rw [whole, nearest_natCast ((Nat.div_le_self x y).trans_lt small), Int.floor_natCast]
  have some_ : (0 : Rat) < x := by exact_mod_cast rest.trans_le (Nat.mod_le x y)
  have near : |nearest ((x : Rat) / y) - x / y| < 1 / y := by
    have bound : (x : Rat) < 2 ^ 53 := by exact_mod_cast small
    refine (abs_nearest_sub_le _).trans_lt ?_
    refine (div_le_div_of_nonneg_right (ulp_le (div_pos some_ wide)) two_pos.le).trans_lt ?_
    rw [div_div, div_div, div_lt_div_iff₀ (by positivity) wide]
    nlinarith
  have low : (1 : Rat) ≤ (x % y : Nat) := by exact_mod_cast rest
  have high : ((x % y : Nat) : Rat) + 1 ≤ y := by exact_mod_cast Nat.mod_lt x positive
  have quotient : (x : Rat) / y = (x / y : Nat) + (x % y : Nat) / y := by
    rw [div_eq_iff wide.ne', add_mul, div_mul_cancel₀ _ wide.ne', mul_comm _ (y : Rat)]
    exact split
  have above : 1 / (y : Rat) ≤ (x % y : Nat) / y := div_le_div_of_nonneg_right low wide.le
  have below : ((x % y : Nat) : Rat) / y + 1 / y ≤ 1 := by
    rw [← add_div]
    exact div_le_one_of_le₀ high wide.le
  obtain ⟨left, right⟩ := abs_lt.mp near
  rw [Int.floor_eq_iff, Int.cast_natCast]
  constructor <;> linarith

end Binary64
