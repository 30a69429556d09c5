import SemanticLayer.Formula

namespace SemanticLayer

inductive ExprDescriptor where
  | path (text : String)
  | literal (value : Json)
  | binary (operator : Operator) (left right : ExprDescriptor)
  | aggregate (function : AggregateFunction) (operand : ExprDescriptor)
  | aggregateAll (function : AggregateFunction)

structure ProjectionDescriptor where
  label : String
  expr : ExprDescriptor

structure Descriptor where
  name : String
  source : String
  projections : List ProjectionDescriptor
  filter : Option ExprDescriptor

-- The first literal without a type counts.
def ExprDescriptor.formula : ExprDescriptor → Except Error Formula
  | .path text => .ok (.path text)
  | .literal value => do pure (.literal (← Literal.ofJson value))
  | .binary operator left right => do
      let left ← left.formula
      let right ← right.formula
      pure (.binary operator left right)
  | .aggregate function operand => do pure (.aggregate function (← operand.formula))
  | .aggregateAll function => .ok (.aggregateAll function)

namespace Descriptor

def steps (d : Descriptor) : Except Error (List Query.Step) := do
  let columns ← d.projections.mapM fun p => do
    pure (Query.Step.selectFormula p.label (← p.expr.formula))
  let restrictions ← d.filter.toList.mapM fun condition => do
    pure (Query.Step.restrict (← condition.formula))
  pure (columns ++ restrictions)

-- To settle each literal only when its step comes leads to the same.
def query (d : Descriptor) (model : Model) : Except Error Query := do
  model.query d.name d.source (← d.steps)

end Descriptor

end SemanticLayer
