import SemanticLayer.Error

namespace SemanticLayer

def Operator.resultType (operator : Operator) (left right : ExprType) : Except Error ExprType :=
  if operator.isArithmetic then
    match left, right with
    | .scalar l, .scalar r => .ok (.scalar (.widen l r))
    | _, _ => .error (.scalarOperandsRequired operator left right)
  else .ok .boolean

def AggregateFunction.result : AggregateFunction → ScalarType → ScalarType
  | .count, _ => .integer
  | .sum, _ | .avg, _ => .decimal
  | .min, type | .max, type => type

def AggregateFunction.resultType (function : AggregateFunction) :
    Option ScalarType → Except Error ScalarType
  | some type => .ok (function.result type)
  | none => if function = .count then .ok .integer else .error (.operandRequired function)

-- Two distinct domains cross; a crossing combines with a constant or with itself and nothing else.
def Source.union : Option Source → Option Source → Except Error (Option Source)
  | none, source | source, none => .ok source
  | some left, some right =>
      if left = right then .ok (some left)
      else
        match left, right with
        | .domain l, .domain r => .ok (some (.cross l r))
        | _, _ => .error (.sourcesDisagree left right)

end SemanticLayer
