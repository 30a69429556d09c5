namespace SemanticLayer

-- The bits, so that equality is decidable and two zeros of different sign stay apart.
structure Binary64 where
  bits : UInt64
  deriving DecidableEq, Repr

namespace Binary64

def ofFloat (x : Float) : Binary64 := ⟨x.toBits⟩

def isNegative (x : Binary64) : Bool := x.bits >>> 63 != 0

-- All ones mark the infinities and the values that are no number.
def exponentField (x : Binary64) : Nat := ((x.bits >>> 52) &&& 0x7FF).toNat

def fraction (x : Binary64) : Nat := (x.bits &&& 0xFFFFFFFFFFFFF).toNat

def isFinite (x : Binary64) : Bool := x.exponentField != 0x7FF

def isNaN (x : Binary64) : Bool := !x.isFinite && x.fraction != 0

def negate (x : Binary64) : Binary64 := ⟨x.bits ^^^ 0x8000000000000000⟩

-- Far outside the range of exponents the answer is known without the power.
def nearest (digits : Nat) (exponent : Int) : Binary64 :=
  if digits = 0 then ⟨0⟩
  else if exponent > 400 then ⟨0x7FF0000000000000⟩
  else if exponent + (Nat.log2 digits : Int) < -1200 then ⟨0⟩
  else if exponent < 0 then ofFloat (Float.ofScientific digits true exponent.natAbs)
  else ofFloat (Float.ofScientific digits false exponent.natAbs)

end Binary64

end SemanticLayer
