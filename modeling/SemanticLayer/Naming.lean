import SemanticLayer.Text.Alphanumeric
import SemanticLayer.Text.Case

namespace SemanticLayer

inductive Naming where
  | camelCase
  | preserve
  deriving DecidableEq, Repr

namespace Naming

-- Words end at a character that is neither letter nor digit, after a digit, and where a capital
-- follows a small letter. The last character that was written small decides where a capital starts a
-- word.
private def joined (started raised : Bool) (last : Char) : List Char → List Char
  | [] => []
  | c :: rest =>
      if !Text.isAlphanumeric c then joined started started last rest
      else if Text.isNumeric c then c :: joined true true last rest
      else if raised || (Text.isLowercase last && Text.isUppercase c) then
        c.toUpper :: joined true false last rest
      else c.toLower :: joined true false c rest

def apply : Naming → String → String
  | .camelCase, name => String.ofList (joined false false ' ' name.toList)
  | .preserve, name => name

def name : Naming → String
  | .camelCase => "camel_case"
  | .preserve => "preserve"

def ofName? : String → Option Naming
  | "camel_case" => some .camelCase
  | "preserve" => some .preserve
  | _ => none

end Naming

end SemanticLayer
