import SemanticLayer.Json.Basic
import SemanticLayer.Number.Notation
import SemanticLayer.Sorted

namespace SemanticLayer.Json

private def controlEscape (n : Nat) : List Char :=
  ['\\', 'u', '0', '0'] ++ (if n < 16 then ['0'] else []) ++ Nat.toDigits 16 n

def escape (c : Char) : List Char :=
  match c.toNat with
  | 0x22 => ['\\', '\x22']
  | 0x5c => ['\\', '\\']
  | 0x08 => ['\\', 'b']
  | 0x09 => ['\\', 't']
  | 0x0a => ['\\', 'n']
  | 0x0c => ['\\', 'f']
  | 0x0d => ['\\', 'r']
  | n => if n < 0x20 then controlEscape n else [c]

def quoted (text : String) : String :=
  String.ofList ('\x22' :: text.toList.flatMap escape ++ ['\x22'])

private def braced (parts : String) : String := "\x7b" ++ parts ++ "\x7d"

mutual

def compact : Json → String
  | .null => "null"
  | .bool value => if value then "true" else "false"
  | .integer value => toString value
  | .decimal value => value.finiteText .signed
  | .string value => quoted value
  | .array items => "[" ++ ",".intercalate (compactItems items) ++ "]"
  | .object members =>
      braced (",".intercalate ((Sorted.ofList (·.1) (compactMembers members)).map
        fun member => quoted member.1 ++ ":" ++ member.2))

def compactItems : List Json → List String
  | [] => []
  | item :: items => compact item :: compactItems items

def compactMembers : List (String × Json) → List (String × String)
  | [] => []
  | (key, value) :: members => (key, compact value) :: compactMembers members

end

private def block (indent : String) (start stop : String) (lines : List String) : String :=
  if lines.isEmpty then start ++ stop
  else
    let inner := indent ++ "  "
    start ++ "\n" ++ ",\n".intercalate (lines.map (inner ++ ·)) ++ "\n" ++ indent ++ stop

mutual

def pretty (indent : String) : Json → String
  | .null => "null"
  | .bool value => if value then "true" else "false"
  | .integer value => toString value
  | .decimal value => value.finiteText .signed
  | .string value => quoted value
  | .array items => block indent "[" "]" (prettyItems (indent ++ "  ") items)
  | .object members =>
      block indent "\x7b" "\x7d" ((Sorted.ofList (·.1) (prettyMembers (indent ++ "  ") members)).map
        fun member => quoted member.1 ++ ": " ++ member.2)

def prettyItems (indent : String) : List Json → List String
  | [] => []
  | item :: items => pretty indent item :: prettyItems indent items

def prettyMembers (indent : String) : List (String × Json) → List (String × String)
  | [] => []
  | (key, value) :: members => (key, pretty indent value) :: prettyMembers indent members

end

end SemanticLayer.Json
