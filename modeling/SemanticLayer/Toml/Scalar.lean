import SemanticLayer.Toml.Basic

namespace SemanticLayer.Toml

private def ungrouped? (isDigit : Char → Bool) : List Char → Option (List Char)
  | [] => none
  | [c] => if isDigit c then some [c] else none
  | c :: '_' :: rest => if isDigit c then (c :: ·) <$> ungrouped? isDigit rest else none
  | c :: rest => if isDigit c then (c :: ·) <$> ungrouped? isDigit rest else none

private def digitValue (c : Char) : Nat :=
  if c.isDigit then c.toNat - '0'.toNat else c.toLower.toNat - 'a'.toNat + 10

private def natural (base : Nat) (digits : List Char) : Nat :=
  digits.foldl (fun n c => n * base + digitValue c) 0

private def isHexDigit (c : Char) : Bool :=
  c.isDigit || ('a' ≤ c && c ≤ 'f') || ('A' ≤ c && c ≤ 'F')

private def plainDigits? (text : List Char) : Option (List Char) := do
  let digits ← ungrouped? Char.isDigit text
  if digits.head? = some '0' ∧ digits.length > 1 then none else return digits

private def unsigned? : List Char → Option Nat
  | '0' :: 'x' :: text => natural 16 <$> ungrouped? isHexDigit text
  | '0' :: 'o' :: text => natural 8 <$> ungrouped? (fun c => '0' ≤ c && c ≤ '7') text
  | '0' :: 'b' :: text => natural 2 <$> ungrouped? (fun c => c = '0' || c = '1') text
  | text => natural 10 <$> plainDigits? text

private def signed? (text : List Char) : Option Int :=
  match text with
  | '+' :: digits => do return natural 10 (← plainDigits? digits)
  | '-' :: digits => do return -(natural 10 (← plainDigits? digits) : Int)
  | text => do return ← unsigned? text

-- An integer has at most 128 bits, with or without a sign.
def integer? (text : List Char) : Option Int := do
  let value ← signed? text
  if -(Nat.pow 2 127 : Int) ≤ value ∧ value < Nat.pow 2 128 then return value else none

private def sign : List Char → Bool × List Char
  | '+' :: text => (false, text)
  | '-' :: text => (true, text)
  | text => (false, text)

private def isExponentMark (c : Char) : Bool := c = 'e' || c = 'E'

private def decimalPlaces? : List Char → Option (List Char)
  | [] => some []
  | '.' :: text => ungrouped? Char.isDigit text
  | _ => none

private def tenPower? (text : List Char) : Option Int :=
  match text with
  | [] => some 0
  | _ :: text => do
      let (negative, digits) := sign text
      let power := natural 10 (← ungrouped? Char.isDigit digits)
      return if negative then -(power : Int) else power

-- A number that is too large for 64 bits is none.
def decimal? (text : List Char) : Option Binary64 := do
  let (negative, text) := sign text
  let withSign (x : Binary64) : Binary64 := if negative then x.negate else x
  if text = ['i', 'n', 'f'] then return withSign ⟨0x7FF0000000000000⟩
  if text = ['n', 'a', 'n'] then return withSign ⟨0x7FF8000000000000⟩
  let mantissa := text.takeWhile (!isExponentMark ·)
  let exponent := text.dropWhile (!isExponentMark ·)
  let whole := mantissa.takeWhile (· ≠ '.')
  let fraction := mantissa.dropWhile (· ≠ '.')
  if fraction.isEmpty ∧ exponent.isEmpty then none
  let whole ← plainDigits? whole
  let places ← decimalPlaces? fraction
  let power ← tenPower? exponent
  let x := Binary64.nearest (natural 10 (whole ++ places)) (power - (places.length : Int))
  if x.isFinite then return withSign x else none

private def field? (width low high : Nat) (text : List Char) : Option (Nat × List Char) := do
  let digits := text.take width
  if digits.length = width ∧ digits.all Char.isDigit then
    let value := natural 10 digits
    if low ≤ value ∧ value ≤ high then return (value, text.drop width)
  none

private def mark? (mark : Char) : List Char → Option (List Char)
  | c :: text => if c = mark then some text else none
  | [] => none

private def isLeap (year : Nat) : Bool :=
  (year % 4 == 0 && year % 100 != 0) || year % 400 == 0

private def daysOf (year month : Nat) : Nat :=
  if month = 2 then if isLeap year then 29 else 28
  else if month = 4 ∨ month = 6 ∨ month = 9 ∨ month = 11 then 30
  else 31

private def afterDate? (text : List Char) : Option (List Char) := do
  let (year, text) ← field? 4 0 9999 text
  let (month, text) ← field? 2 1 12 (← mark? '-' text)
  let (_, text) ← field? 2 1 (daysOf year month) (← mark? '-' text)
  return text

-- Second 60 is a leap second. Parts of a second may have any number of digits, but not none.
private def afterSeconds? (text : List Char) : Option (List Char) := do
  let (_, text) ← field? 2 0 60 text
  match text with
  | '.' :: text =>
      if (text.head?.map Char.isDigit) = some true then return text.dropWhile Char.isDigit else none
  | text => return text

private def afterTime? (text : List Char) : Option (List Char) := do
  let (_, text) ← field? 2 0 23 text
  let (_, text) ← field? 2 0 59 (← mark? ':' text)
  match text with
  | ':' :: text => afterSeconds? text
  | text => return text

private def afterOffset? (text : List Char) : Option (List Char) :=
  match text with
  | [] => some []
  | c :: text =>
      if c = 'Z' ∨ c = 'z' then some text
      else if c = '+' ∨ c = '-' then do
        let (_, text) ← field? 2 0 23 text
        let (_, text) ← field? 2 0 59 (← mark? ':' text)
        return text
      else none

def isDate (text : List Char) : Bool := afterDate? text == some []

private def isTime (text : List Char) : Bool := afterTime? text == some []

private def isDateTime (text : List Char) : Bool :=
  let ending : Option (List Char) := do
    match ← afterDate? text with
    | c :: text =>
        if c = 'T' ∨ c = 't' ∨ c = ' ' then afterOffset? (← afterTime? text) else none
    | [] => none
  ending == some []

def scalar? (text : List Char) : Option Toml :=
  if text = ['t', 'r', 'u', 'e'] then some (.boolean true)
  else if text = ['f', 'a', 'l', 's', 'e'] then some (.boolean false)
  else if isDate text || isTime text || isDateTime text then
    some (.moment (String.ofList text))
  else
    match integer? text with
    | some value => some (.integer value)
    | none => .decimal <$> decimal? text

end SemanticLayer.Toml
