namespace SemanticLayer

structure CivilDate where
  year : Int
  month : Nat
  day : Nat
  deriving DecidableEq, Repr

-- Nanoseconds from a thousand million on belong to a leap second.
structure Timestamp where
  date : CivilDate
  hour : Nat
  minute : Nat
  second : Nat
  nanosecond : Nat
  deriving DecidableEq, Repr

def padded (width n : Nat) : String :=
  let digits := toString n
  String.ofList (List.replicate (width - digits.length) '0') ++ digits

def CivilDate.text (d : CivilDate) : String :=
  let sign := if d.year < 0 then "-" else if d.year > 9999 then "+" else ""
  sign ++ padded 4 d.year.natAbs ++ "-" ++ padded 2 d.month ++ "-" ++ padded 2 d.day

def Timestamp.text (t : Timestamp) : String :=
  let second := if t.nanosecond < 1000000000 then t.second else t.second + 1
  t.date.text ++ " " ++ padded 2 t.hour ++ ":" ++ padded 2 t.minute ++ ":" ++ padded 2 second

end SemanticLayer
