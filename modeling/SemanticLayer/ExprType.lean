import SemanticLayer.ScalarType

namespace SemanticLayer

def domainMark (name : String) : String := "Domain\x7b" ++ name ++ "\x7d"

inductive ExprType where
  | scalar (type : ScalarType)
  | domain (name : String)
  | aggregate (result : ScalarType)
  deriving DecidableEq, Repr

namespace ExprType

def boolean : ExprType := .scalar .boolean

def text : ExprType → String
  | .scalar type => type.name
  | .domain name => domainMark name
  | .aggregate result => "AGGREGATE(" ++ result.name ++ ")"

def scalar? : ExprType → Option ScalarType
  | .scalar type => some type
  | _ => none

def isAggregate : ExprType → Bool
  | .aggregate _ => true
  | _ => false

end ExprType

end SemanticLayer
