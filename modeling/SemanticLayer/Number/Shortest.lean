import SemanticLayer.Number.Binary64

namespace SemanticLayer

-- digits * 10 ^ exponent
structure DecimalForm where
  digits : Nat
  exponent : Int
  deriving DecidableEq, Repr

-- Where a power of two begins, the gap to the number below is half as wide as the gap above.
structure Magnitude where
  significand : Nat
  exponent : Int
  narrowBelow : Bool
  deriving DecidableEq, Repr

def Binary64.magnitude (x : Binary64) : Magnitude :=
  if x.exponentField = 0 then ⟨x.fraction, -1074, false⟩
  else ⟨Nat.pow 2 52 + x.fraction, (x.exponentField : Int) - 1075,
    x.fraction == 0 && x.exponentField > 1⟩

namespace Magnitude

def compareScaled (a : Nat) (i : Int) (b : Nat) (j : Int) : Ordering :=
  compare (a * Nat.pow 10 i.toNat * Nat.pow 2 (-j).toNat)
    (b * Nat.pow 2 j.toNat * Nat.pow 10 (-i).toNat)

-- The midpoints to the neighbours are included when the significand is even.
def readsBack (x : Magnitude) (d : DecimalForm) : Bool :=
  let low := compareScaled d.digits d.exponent
    (if x.narrowBelow then 4 * x.significand - 1 else 4 * x.significand - 2) (x.exponent - 2)
  let high := compareScaled d.digits d.exponent (4 * x.significand + 2) (x.exponent - 2)
  let closed := x.significand % 2 == 0
  (low == .gt || closed && low == .eq) && (high == .lt || closed && high == .eq)

-- The estimate from the binary logarithm is at most two too low.
def decade (x : Magnitude) : Int :=
  let estimate := Int.fdiv ((Nat.log2 x.significand + x.exponent) * 1233) 4096
  let above (k : Int) : Bool := compareScaled 1 k x.significand x.exponent == .gt
  if above estimate then estimate
  else if above (estimate + 1) then estimate + 1
  else estimate + 2

-- Where both neighbours on the grid read back, the closer one, and midway the even one.
def onGrid (x : Magnitude) (exponent : Int) : Option DecimalForm :=
  let numerator := x.significand * Nat.pow 2 x.exponent.toNat * Nat.pow 10 (-exponent).toNat
  let denominator := Nat.pow 2 (-x.exponent).toNat * Nat.pow 10 exponent.toNat
  let below := numerator / denominator
  let lower : DecimalForm := ⟨below, exponent⟩
  let upper : DecimalForm := ⟨below + 1, exponent⟩
  match x.readsBack lower, x.readsBack upper with
  | true, true =>
      match compare (2 * numerator) ((2 * below + 1) * denominator) with
      | .lt => some lower
      | .gt => some upper
      | .eq => some (if below % 2 = 0 then lower else upper)
  | true, false => some lower
  | false, true => some upper
  | false, false => none

def exact (x : Magnitude) : DecimalForm :=
  if x.exponent < 0 then ⟨x.significand * Nat.pow 5 x.exponent.natAbs, x.exponent⟩
  else ⟨x.significand * Nat.pow 2 x.exponent.toNat, 0⟩

def shortest (x : Magnitude) : DecimalForm :=
  let top := x.decade
  ((List.range 17).findSome? fun (n : Nat) => x.onGrid (top - 1 - n)).getD x.exact

end Magnitude

def DecimalForm.strip (d : DecimalForm) : DecimalForm :=
  if _h : d.digits ≠ 0 ∧ d.digits % 10 = 0 then strip ⟨d.digits / 10, d.exponent + 1⟩ else d
termination_by d.digits
decreasing_by exact Nat.div_lt_self (by omega) (by omega)

end SemanticLayer
