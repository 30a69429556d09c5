import Mathlib.Algebra.Order.Field.Power
import Mathlib.Algebra.Order.Ring.Cast
import Mathlib.Tactic.FieldSimp
import Mathlib.Tactic.Linarith
import Mathlib.Tactic.Positivity
import Mathlib.Tactic.Ring
import SemanticLayer.Number.Shortest

namespace SemanticLayer

-- The shortest decimal of a number lies among the reals that round to it, and no real rounds to two
-- numbers. So the decimal tells the number.

def DecimalForm.value (d : DecimalForm) : ℚ := d.digits * (10 : ℚ) ^ d.exponent

theorem DecimalForm.strip_value (d : DecimalForm) : d.strip.value = d.value := by
  fun_induction DecimalForm.strip d with
  | case1 d zeros ih =>
    have ten : d.digits = d.digits / 10 * 10 := by omega
    have whole : (d.digits : ℚ) = (d.digits / 10 : Nat) * 10 := by exact_mod_cast ten
    rw [ih, value, value, whole, zpow_add_one₀ (by norm_num)]
    ring
  | case2 d done => rfl

namespace Magnitude

-- The ends of the interval that rounds to the number, in quarters of its last place.

def low (x : Magnitude) : Nat :=
  if x.narrowBelow then 4 * x.significand - 1 else 4 * x.significand - 2

def high (x : Magnitude) : Nat := 4 * x.significand + 2

def quarter (x : Magnitude) : ℚ := (2 : ℚ) ^ (x.exponent - 2)

structure Rounds (x : Magnitude) (q : ℚ) : Prop where
  above : x.low * x.quarter ≤ q
  below : q ≤ x.high * x.quarter
  inside : x.significand % 2 ≠ 0 → x.low * x.quarter < q ∧ q < x.high * x.quarter

structure Canonical (x : Magnitude) : Prop where
  positive : 0 < x.significand
  bounded : x.significand < 2 ^ 53
  lowest : -1074 ≤ x.exponent
  full : -1074 < x.exponent → 2 ^ 52 ≤ x.significand
  narrow : x.narrowBelow = true ↔ x.significand = 2 ^ 52 ∧ -1074 < x.exponent

theorem quarter_positive (x : Magnitude) : 0 < x.quarter := by
  unfold quarter
  positivity

theorem scale_cancel (base : Nat) (positive : 0 < base) (power : Int) :
    (base : ℚ) ^ power * (base : ℚ) ^ (-power).toNat = (base : ℚ) ^ power.toNat := by
  have nonzero : (base : ℚ) ≠ 0 := by positivity
  rw [← zpow_natCast, ← zpow_natCast, ← zpow_add₀ nonzero]
  congr 1
  omega

theorem scaled_decimal (a : Nat) (i j : Int) :
    ((a * Nat.pow 10 i.toNat * Nat.pow 2 (-j).toNat : Nat) : ℚ) =
      a * (10 : ℚ) ^ i * ((10 : ℚ) ^ (-i).toNat * (2 : ℚ) ^ (-j).toNat) := by
  have scale := scale_cancel 10 (by decide) i
  push_cast [Nat.pow_eq] at scale ⊢
  rw [← scale]
  ring

theorem scaled_binary (b : Nat) (i j : Int) :
    ((b * Nat.pow 2 j.toNat * Nat.pow 10 (-i).toNat : Nat) : ℚ) =
      b * (2 : ℚ) ^ j * ((10 : ℚ) ^ (-i).toNat * (2 : ℚ) ^ (-j).toNat) := by
  have scale := scale_cancel 2 (by decide) j
  push_cast [Nat.pow_eq] at scale ⊢
  rw [← scale]
  ring

theorem compareScaled_rational (a : Nat) (i : Int) (b : Nat) (j : Int) :
    compareScaled a i b j = compare ((a : ℚ) * (10 : ℚ) ^ i) (b * (2 : ℚ) ^ j) := by
  have positive : (0 : ℚ) < (10 : ℚ) ^ (-i).toNat * (2 : ℚ) ^ (-j).toNat := by positivity
  unfold compareScaled
  rw [← cmp_eq_compare, ← cmp_eq_compare, ← cmp_mul_pos_right positive, ← scaled_decimal,
    ← scaled_binary]
  exact (Nat.strictMono_cast.cmp_map_eq _ _).symm

theorem readsBack_iff (x : Magnitude) (d : DecimalForm) : x.readsBack d = true ↔ x.Rounds d.value := by
  have lower : compareScaled d.digits d.exponent
      (if x.narrowBelow then 4 * x.significand - 1 else 4 * x.significand - 2) (x.exponent - 2) =
        compare d.value (x.low * x.quarter) := compareScaled_rational ..
  have upper : compareScaled d.digits d.exponent (4 * x.significand + 2) (x.exponent - 2) =
      compare d.value (x.high * x.quarter) := compareScaled_rational ..
  have parts : x.Rounds d.value ↔ x.low * x.quarter ≤ d.value ∧ d.value ≤ x.high * x.quarter ∧
      (x.significand % 2 ≠ 0 → x.low * x.quarter < d.value ∧ d.value < x.high * x.quarter) :=
    ⟨fun ⟨above, below, inside⟩ => ⟨above, below, inside⟩,
      fun ⟨above, below, inside⟩ => ⟨above, below, inside⟩⟩
  unfold readsBack
  rw [lower, upper, parts]
  by_cases even : x.significand % 2 = 0
  · simp [even, compare_gt_iff_gt, compare_lt_iff_lt, ← le_iff_lt_or_eq]
    intro _
    rw [le_iff_lt_or_eq, eq_comm]
  · simp [even, compare_gt_iff_gt, compare_lt_iff_lt]
    constructor
    · rintro ⟨above, below⟩
      exact ⟨above.le, below.le, above, below⟩
    · exact fun parts => parts.2.2

theorem onGrid_rounds {x : Magnitude} (found : x.onGrid k = some d) : x.Rounds d.value := by
  rw [← readsBack_iff]
  unfold onGrid at found
  dsimp only at found
  split at found
  · rename_i lower upper
    split at found
    · cases found
      exact lower
    · cases found
      exact upper
    · split at found
      · cases found
        exact lower
      · cases found
        exact upper
  · rename_i lower upper
    cases found
    exact lower
  · rename_i lower upper
    cases found
    exact upper
  · cases found

def value (x : Magnitude) : ℚ := x.significand * (2 : ℚ) ^ x.exponent

theorem value_quarters (x : Magnitude) : x.value = 4 * x.significand * x.quarter := by
  unfold value quarter
  rw [zpow_sub₀ (by norm_num)]
  norm_num
  ring

theorem rounds_positive {x : Magnitude} (positive : 0 < x.significand) (rounds : x.Rounds q) :
    0 < q := by
  have some : 0 < x.low := by
    unfold low
    split <;> omega
  have scale := x.quarter_positive
  exact lt_of_lt_of_le (by positivity) rounds.above

theorem value_rounds (x : Magnitude) (positive : 0 < x.significand) : x.Rounds x.value := by
  have scale := x.quarter_positive
  have below : (x.low : ℚ) < 4 * x.significand := by
    have small : x.low < 4 * x.significand := by
      unfold low
      split <;> omega
    exact_mod_cast small
  have above : (4 * x.significand : ℚ) < x.high := by
    unfold high
    push_cast
    linarith
  have left := mul_lt_mul_of_pos_right below scale
  have right := mul_lt_mul_of_pos_right above scale
  rw [value_quarters]
  exact ⟨left.le, right.le, fun _ => ⟨left, right⟩⟩

theorem exact_value (x : Magnitude) : x.exact.value = x.value := by
  unfold exact DecimalForm.value value
  split
  · rename_i negative
    obtain ⟨n, size⟩ : ∃ n : Nat, x.exponent = -n := ⟨x.exponent.natAbs, by omega⟩
    have ten : (10 : ℚ) ^ n = 5 ^ n * 2 ^ n := by rw [← mul_pow]; norm_num
    rw [size, zpow_neg, zpow_neg, zpow_natCast, zpow_natCast, ten, Int.natAbs_neg, Int.natAbs_natCast]
    push_cast [Nat.pow_eq]
    field_simp
  · rename_i positive
    have same : (x.exponent.toNat : Int) = x.exponent := by omega
    push_cast [Nat.pow_eq]
    rw [← zpow_natCast, same]
    simp

theorem shortest_rounds (x : Magnitude) (positive : 0 < x.significand) : x.Rounds x.shortest.value := by
  unfold shortest
  dsimp only
  cases found : (List.range 17).findSome? fun (n : Nat) => x.onGrid (x.decade - 1 - n) with
  | none =>
    rw [Option.getD_none, exact_value]
    exact x.value_rounds positive
  | some d =>
    obtain ⟨n, _, here⟩ := List.exists_of_findSome?_eq_some found
    exact onGrid_rounds here

-- No real rounds to two numbers: between neighbours the intervals at most touch, and where they touch
-- one of the significands is odd.

structure Precedes (x y : Magnitude) : Prop where
  apart : x.high * x.quarter ≤ y.low * y.quarter
  touching : x.high * x.quarter = y.low * y.quarter → x.significand % 2 ≠ 0 ∨ y.significand % 2 ≠ 0

theorem precedes_rounds {x y : Magnitude} (precedes : x.Precedes y) (rounds : x.Rounds q) :
    ¬ y.Rounds q := by
  intro other
  have touches := le_antisymm precedes.apart (other.above.trans rounds.below)
  rcases precedes.touching touches with odd | odd
  · exact absurd ((rounds.inside odd).2.trans_le precedes.apart) (not_lt.mpr other.above)
  · exact absurd (precedes.apart.trans_lt (other.inside odd).1) (not_lt.mpr rounds.below)

theorem precedes_scaled {x y : Magnitude} (k : Nat) (scale : y.exponent = x.exponent + k)
    (apart : x.high ≤ y.low * 2 ^ k)
    (touching : x.high = y.low * 2 ^ k → x.significand % 2 ≠ 0 ∨ y.significand % 2 ≠ 0) :
    x.Precedes y := by
  have positive := x.quarter_positive
  have quarters : y.low * y.quarter = ((y.low * 2 ^ k : Nat) : ℚ) * x.quarter := by
    have split : y.exponent - 2 = (k : Int) + (x.exponent - 2) := by omega
    unfold quarter
    rw [split, zpow_add₀ (by norm_num), zpow_natCast]
    push_cast
    ring
  constructor
  · rw [quarters]
    exact mul_le_mul_of_nonneg_right (by exact_mod_cast apart) positive.le
  · rw [quarters]
    intro same
    exact touching (by exact_mod_cast mul_right_cancel₀ positive.ne' same)

theorem canonical_precedes {x y : Magnitude} (one : x.Canonical) (two : y.Canonical)
    (before : x.exponent < y.exponent ∨ x.exponent = y.exponent ∧ x.significand < y.significand) :
    x.Precedes y := by
  have narrow := two.narrow
  have bounded := one.bounded
  rcases before with smaller | ⟨same, smaller⟩
  · obtain ⟨k, scale⟩ := Int.le.dest smaller.le
    have lowest := one.lowest
    have full := two.full (by omega)
    have doubled : y.low * 2 ≤ y.low * 2 ^ k :=
      Nat.mul_le_mul_left _ (Nat.le_self_pow (by omega) 2)
    have reach : x.high ≤ y.low * 2 ∧ (x.high = y.low * 2 → x.significand % 2 ≠ 0) := by
      unfold high low
      split <;> grind
    refine precedes_scaled k scale.symm (reach.1.trans doubled) ?_
    intro same
    exact .inl (reach.2 (by omega))
  · refine precedes_scaled 0 (by omega) ?_ ?_
    · unfold high low
      split <;> omega
    · unfold high low
      split <;> omega

theorem rounds_unique {x y : Magnitude} (one : x.Canonical) (two : y.Canonical) (rounds : x.Rounds q)
    (other : y.Rounds q) : x = y := by
  rcases lt_trichotomy x.exponent y.exponent with smaller | same | smaller
  · exact absurd other (precedes_rounds (canonical_precedes one two (.inl smaller)) rounds)
  · rcases lt_trichotomy x.significand y.significand with fewer | equal | fewer
    · exact absurd other (precedes_rounds (canonical_precedes one two (.inr ⟨same, fewer⟩)) rounds)
    · have narrow : x.narrowBelow = y.narrowBelow := by
        rw [Bool.eq_iff_iff, one.narrow, two.narrow, same, equal]
      cases x
      cases y
      rw [mk.injEq]
      exact ⟨equal, same, narrow⟩
    · exact absurd rounds
        (precedes_rounds (canonical_precedes two one (.inr ⟨same.symm, fewer⟩)) other)
  · exact absurd rounds (precedes_rounds (canonical_precedes two one (.inl smaller)) other)

end Magnitude

end SemanticLayer
