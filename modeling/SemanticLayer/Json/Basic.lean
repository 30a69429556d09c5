import SemanticLayer.Number.Binary64

namespace SemanticLayer

-- A key may come twice: whether that is allowed is for the reader of the value to say.
inductive Json where
  | null
  | bool (value : Bool)
  | integer (value : Int)
  | decimal (value : Binary64)
  | string (value : String)
  | array (items : List Json)
  | object (members : List (String × Json))

namespace Json

def string? : Json → Option String
  | .string value => some value
  | _ => none

def array? : Json → Option (List Json)
  | .array items => some items
  | _ => none

def isNull : Json → Bool
  | .null => true
  | _ => false

def member? (key : String) : Json → Option Json
  | .object members => (members.reverse.find? (·.1 == key)).map (·.2)
  | _ => none

-- In an object each field may come once and other members are ignored; of an array the last fields
-- may be missing.
def fields? (names : List String) : Json → Option (List (Option Json))
  | .object members =>
      names.mapM fun name =>
        match members.filter (·.1 == name) with
        | [] => some none
        | [member] => some (some member.2)
        | _ => none
  | .array items =>
      if items.length ≤ names.length then
        some (items.map some ++ List.replicate (names.length - items.length) none)
      else none
  | _ => none

end Json

end SemanticLayer
