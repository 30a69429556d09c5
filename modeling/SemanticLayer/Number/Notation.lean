import SemanticLayer.Number.Shortest

namespace SemanticLayer

def zeros (n : Nat) : List Char := List.replicate n '0'

inductive ExponentStyle where
  | plain
  | signed
  deriving DecidableEq, Repr

def ExponentStyle.text (style : ExponentStyle) (exponent : Int) : String :=
  if style = .signed ∧ 0 ≤ exponent then "e+" ++ toString exponent else "e" ++ toString exponent

def DecimalForm.text (d : DecimalForm) (style : ExponentStyle) : String :=
  let digits := (toString d.digits).toList
  let point : Int := digits.length + d.exponent
  if 0 ≤ d.exponent ∧ point ≤ 16 then
    String.ofList (digits ++ zeros d.exponent.toNat ++ ['.', '0'])
  else if 0 < point ∧ point ≤ 16 then
    String.ofList (digits.take point.toNat ++ '.' :: digits.drop point.toNat)
  else if -5 < point ∧ point ≤ 0 then
    String.ofList ('0' :: '.' :: zeros (-point).toNat ++ digits)
  else
    let exponent := style.text (point - 1)
    match digits with
    | [] => exponent
    | [digit] => String.ofList [digit] ++ exponent
    | digit :: rest => String.ofList (digit :: '.' :: rest) ++ exponent

namespace Binary64

def finiteText (x : Binary64) (style : ExponentStyle) : String :=
  let sign := if x.isNegative then "-" else ""
  if x.exponentField = 0 ∧ x.fraction = 0 then sign ++ "0.0"
  else sign ++ x.magnitude.shortest.strip.text style

def nonFiniteText (x : Binary64) : String :=
  if x.isNaN then "NaN" else if x.isNegative then "-inf" else "inf"

def hexText (x : Binary64) : String :=
  let digits := Nat.toDigits 16 x.bits.toNat
  String.ofList (zeros (16 - digits.length) ++ digits)

end Binary64

end SemanticLayer
