import SemanticLayer.Expr.Basic

namespace SemanticLayer

-- Literals, accesses, columns and nested queries need no check.

namespace Expr

def composed (reference composition : Expr) : Except Error Expr :=
  match reference.type with
  | .domain target =>
      if composition.source = some (.domain target) then .ok (.compose reference composition)
      else .error (.compositionOutOfScope target composition.source)
  | got => .error (.valueComposed got)

-- The sources of the operands are combined before their types are looked at.
def operation (operator : Operator) (left right : Expr) : Except Error Expr := do
  let _ ← Source.union left.source right.source
  let type ← operator.resultType left.type right.type
  pure (.binary operator left right type)

def both (left right : Expr) : Except Error Expr := operation .and left right

def aggregated (function : AggregateFunction) : Option Expr → Except Error Expr
  | some operand =>
      match operand.type with
      | .scalar _ => .ok (.aggregate function operand)
      | got => .error (.scalarOperandRequired function got)
  | none => do
      let _ ← function.resultType none
      pure .countAll

end Expr

def checkJoin (owner target : String) (condition : Expr) : Except Error Unit :=
  if condition.type ≠ .boolean then .error (.conditionNotBoolean owner target condition.type)
  else
    match condition.source with
    | some (.cross left right) =>
        if Source.Pairs left right owner target then .ok ()
        else .error (.conditionOutOfScope owner target condition.source)
    | some (.domain single) =>
        if owner = target ∧ single = owner then .ok ()
        else .error (.conditionOutOfScope owner target condition.source)
    | none => .error (.conditionOutOfScope owner target none)

namespace Attribute

def calculated (domain name : String) (expr : Expr) : Except Error Attribute :=
  match expr.source with
  | none => .ok ⟨domain, name, .value expr⟩
  | some source =>
      if source = .domain domain then .ok ⟨domain, name, .value expr⟩
      else .error (.definitionOutOfScope domain name source)

def reference (domain name target table : String) (condition : Expr) : Except Error Attribute := do
  checkJoin domain target condition
  pure ⟨domain, name, .reference target table condition⟩

end Attribute

end SemanticLayer
