import SemanticLayer.Json.Basic

namespace SemanticLayer.Json

inductive Fault where
  | malformed
  | truncated
  | shape
  deriving DecidableEq, Repr

structure Numeral where
  negative : Bool
  whole : List Char
  fraction : Option (List Char)
  exponent : Option (Bool × List Char)

namespace Numeral

private def expected (rest : List Char) : Fault := if rest.isEmpty then .truncated else .malformed

private def readFraction : List Char → Except Fault (Option (List Char) × List Char)
  | '.' :: rest =>
      let digits := rest.takeWhile Char.isDigit
      let rest := rest.dropWhile Char.isDigit
      if digits.isEmpty then .error (expected rest) else .ok (some digits, rest)
  | rest => .ok (none, rest)

private def readExponentDigits (negative : Bool) (rest : List Char) :
    Except Fault (Option (Bool × List Char) × List Char) :=
  let digits := rest.takeWhile Char.isDigit
  let rest := rest.dropWhile Char.isDigit
  if digits.isEmpty then .error (expected rest) else .ok (some (negative, digits), rest)

private def readExponent : List Char → Except Fault (Option (Bool × List Char) × List Char)
  | e :: rest =>
      if e = 'e' ∨ e = 'E' then
        match rest with
        | '+' :: rest => readExponentDigits false rest
        | '-' :: rest => readExponentDigits true rest
        | rest => readExponentDigits false rest
      else .ok (none, e :: rest)
  | [] => .ok (none, [])

def read (negative : Bool) (rest : List Char) : Except Fault (Numeral × List Char) := do
  let whole := rest.takeWhile Char.isDigit
  let rest := rest.dropWhile Char.isDigit
  if whole.isEmpty then throw (expected rest)
  if whole.head? = some '0' ∧ whole.length > 1 then throw .malformed
  let (fraction, rest) ← readFraction rest
  let (exponent, rest) ← readExponent rest
  pure (⟨negative, whole, fraction, exponent⟩, rest)

def collect (digits : List Char) (held : Nat) : Nat × Nat :=
  match digits with
  | [] => (held, 0)
  | d :: rest =>
      let next := held * 10 + (d.toNat - '0'.toNat)
      if next < Nat.pow 2 64 then collect rest next else (held, digits.length)

private def powerOfTen (n : Nat) : Float := Float.ofScientific 1 false n

-- Each step is rounded. A result beyond the finite numbers is none; a result too small is zero.
def scale (x : Float) (exponent : Int) : Option Float :=
  if exponent.natAbs ≤ 308 then
    if exponent < 0 then some (x / powerOfTen exponent.natAbs)
    else
      let scaled := x * powerOfTen exponent.natAbs
      if scaled.isInf then none else some scaled
  else if x == 0 then some x
  else if exponent < 0 then scale (x / powerOfTen 308) (exponent + 308)
  else none
termination_by exponent.natAbs
decreasing_by omega

private def signed (negative : Bool) (x : Float) : Json :=
  let magnitude := Binary64.ofFloat x
  .decimal (if negative then magnitude.negate else magnitude)

private def exponentBound : Nat := Nat.pow 2 31

def value (n : Numeral) : Except Fault Json :=
  let (whole, dropped) := collect n.whole 0
  let fits := !n.negative || 0 < whole && whole ≤ Nat.pow 2 63
  if n.fraction.isNone ∧ n.exponent.isNone ∧ dropped = 0 ∧ fits then
    .ok (.integer (if n.negative then -(whole : Int) else whole))
  else
    let fraction := n.fraction.getD []
    let (digits, ignored) := collect fraction whole
    let places : Int := (dropped : Int) - (fraction.length - ignored : Nat)
    let (down, power) := match n.exponent with
      | some (down, ds) => (down, ds.foldl (fun p d => p * 10 + (d.toNat - '0'.toNat)) 0)
      | none => (false, 0)
    if power ≥ exponentBound then
      if digits ≠ 0 ∧ !down then .error .malformed else .ok (signed n.negative 0.0)
    else
      let exponent := if down then places - power else places + power
      match scale (Float.ofScientific digits false 0) exponent with
      | some x => .ok (signed n.negative x)
      | none => .error .malformed

end Numeral

end SemanticLayer.Json
