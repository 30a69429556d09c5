import SemanticLayer.Calendar
import SemanticLayer.Error
import SemanticLayer.Json.Printer

namespace SemanticLayer

inductive Literal where
  | string (value : String)
  | integer (value : Int)
  | decimal (value : Binary64)
  | boolean (value : Bool)
  | date (value : CivilDate)
  | timestamp (value : Timestamp)
  deriving DecidableEq, Repr

namespace Literal

def type : Literal → ScalarType
  | .string _ => .string
  | .integer _ => .integer
  | .decimal _ => .decimal
  | .boolean _ => .boolean
  | .date _ => .date
  | .timestamp _ => .timestamp

def ofJson : Json → Except Error Literal
  | .string value => .ok (.string value)
  | .bool value => .ok (.boolean value)
  | .integer value =>
      if value < Nat.pow 2 63 then .ok (.integer value) else .ok (.decimal (.nearest value.toNat 0))
  | .decimal value => .ok (.decimal value)
  | json => .error (.unsupportedLiteral json.compact)

def quoted (text : String) : String :=
  String.ofList ('\x27' :: text.toList.flatMap (fun c => if c = '\x27' then [c, c] else [c]) ++
    ['\x27'])

-- Only a finite decimal has a text that a database reads.
def text : Literal → String
  | .string value => quoted value
  | .integer value => toString value
  | .decimal value => if value.isFinite then value.finiteText .plain else value.nonFiniteText
  | .boolean value => if value then "true" else "false"
  | .date value => "to_date('" ++ value.text ++ "', 'YYYY-MM-DD')"
  | .timestamp value => "to_timestamp('" ++ value.text ++ "', 'YYYY-MM-DD HH24:MI:SS')"

end Literal

end SemanticLayer
