import SemanticLayer.Operator
import SemanticLayer.Source

namespace SemanticLayer

inductive ScopeFault where
  | mixed (left right : Source)
  | outside (got : Source) (expected : String)
  deriving DecidableEq, Repr

inductive Error where
  | unknownDomain (name : String)
  | unknownAttribute (domain name : String)
  | unknownColumn (table column : String)
  | scalarOperandsRequired (operator : Operator) (left right : ExprType)
  | scalarOperandRequired (function : AggregateFunction) (got : ExprType)
  | operandRequired (function : AggregateFunction)
  | conditionNotBoolean (owner target : String) (got : ExprType)
  | filterNotBoolean (query : String) (got : ExprType)
  | unsupportedLiteral (text : String)
  | notAReference (domain name : String)
  | valueComposed (got : ExprType)
  | compositionOutOfScope (expected : String) (got : Option Source)
  | conditionOutOfScope (owner target : String) (got : Option Source)
  | sourcesDisagree (left right : Source)
  | definitionOutOfScope (domain name : String) (got : Source)
  | projectionOutOfScope (query label : String) (fault : ScopeFault)
  | filterOutOfScope (query : String) (fault : ScopeFault)
  | ambiguousSide (domain name left right : String)
  | referenceAsValue (domain name : String)
  | notNavigable (got : ExprType)
  | nonFiniteDecimal (text : String)
  deriving DecidableEq, Repr

namespace Error

inductive Kind where
  | notFound
  | typeMismatch
  | structural
  | ambiguous
  | unsupported
  deriving DecidableEq, Repr

def kind : Error → Kind
  | .unknownDomain _ | .unknownAttribute _ _ | .unknownColumn _ _ => .notFound
  | .scalarOperandsRequired _ _ _ | .scalarOperandRequired _ _ | .operandRequired _
  | .conditionNotBoolean _ _ _ | .filterNotBoolean _ _ | .unsupportedLiteral _ => .typeMismatch
  | .notAReference _ _ | .valueComposed _ | .compositionOutOfScope _ _
  | .conditionOutOfScope _ _ _ | .sourcesDisagree _ _ | .definitionOutOfScope _ _ _
  | .projectionOutOfScope _ _ _ | .filterOutOfScope _ _ => .structural
  | .ambiguousSide _ _ _ _ => .ambiguous
  | .referenceAsValue _ _ | .notNavigable _ | .nonFiniteDecimal _ => .unsupported

-- An internal error shows only while SQL is generated; the other kinds are found while a model
-- or a query is put together.
def isInternal (e : Error) : Bool :=
  match e.kind with
  | .ambiguous | .unsupported => true
  | _ => false

end Error

private def disagreement (left right : Source) : String :=
  "Incompatible expression sources: cannot combine " ++ left.text ++ " with " ++ right.text

def ScopeFault.text : ScopeFault → String
  | .mixed left right => disagreement left right
  | .outside got expected =>
      "expression is scoped to " ++ got.text ++ ", expected " ++ domainMark expected

private def compositionFault (expected : String) (got : Option Source) : String :=
  "Invalid composition: composition must be scoped to " ++ domainMark expected ++ ", got " ++
    match got with
    | some source => source.text
    | none => "a constant expression"

private def conditionFault (owner target : String) (got : Option Source) : String :=
  "Invalid join condition from '" ++ owner ++ "' to '" ++ target ++ "': " ++
    match got with
    | some source => "condition is scoped to " ++ source.text
    | none => "condition is constant"

def Error.message : Error → String
  | .unknownDomain name => "Domain '" ++ name ++ "' not found"
  | .unknownAttribute domain name =>
      "Attribute '" ++ name ++ "' not found in domain '" ++ domain ++ "'"
  | .unknownColumn table column => "Column '" ++ column ++ "' not found in table '" ++ table ++ "'"
  | .scalarOperandsRequired operator left right =>
      "Type mismatch: arithmetic operator " ++ operator.symbol ++
        " requires scalar operands, got " ++ left.text ++ " and " ++ right.text
  | .scalarOperandRequired function got =>
      "Type mismatch: " ++ function.name ++ " can only be applied to scalar expressions, got " ++
        got.text
  | .operandRequired function => "Type mismatch: " ++ function.name ++ " requires an operand"
  | .conditionNotBoolean owner target got =>
      "Type mismatch: join condition from '" ++ owner ++ "' to '" ++ target ++
        "' must be BOOLEAN, got " ++ got.text
  | .filterNotBoolean query got =>
      "Type mismatch: filter of query '" ++ query ++ "' must be BOOLEAN, got " ++ got.text
  | .unsupportedLiteral text => "Unsupported literal value: " ++ text
  | .notAReference domain name =>
      "Attribute '" ++ name ++ "' in domain '" ++ domain ++ "' must be a reference attribute"
  | .valueComposed got =>
      "Invalid composition: reference expression must evaluate to a domain, got " ++ got.text
  | .compositionOutOfScope expected got => compositionFault expected got
  | .conditionOutOfScope owner target got => conditionFault owner target got
  | .sourcesDisagree left right => disagreement left right
  | .definitionOutOfScope domain name got =>
      "Incompatible expression sources: definition of '" ++ domain ++ "." ++ name ++
        "' must be scoped to " ++ domainMark domain ++ ", got " ++ got.text
  | .projectionOutOfScope query label fault =>
      "Invalid projection '" ++ label ++ "' in query '" ++ query ++ "': " ++ fault.text
  | .filterOutOfScope query fault =>
      "Incompatible expression sources: filter of query '" ++ query ++ "': " ++ fault.text
  | .ambiguousSide domain name left right =>
      "Attribute '" ++ name ++ "' of domain '" ++ domain ++
        "' does not match exactly one side of the join ('" ++ left ++ "', '" ++ right ++ "')"
  | .referenceAsValue domain name =>
      "Unsupported construct: reference attribute '" ++ domain ++ "." ++ name ++
        "' cannot be rendered as a value"
  | .notNavigable got =>
      "Unsupported construct: cannot navigate through " ++ got.text ++ " expression"
  | .nonFiniteDecimal text => "Unsupported construct: non-finite decimal literal " ++ text

end SemanticLayer
