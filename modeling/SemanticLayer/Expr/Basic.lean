import SemanticLayer.Literal
import SemanticLayer.Typing

namespace SemanticLayer

-- The side of the domain that is read, the side joined before, or the side that is being joined.
inductive Side where
  | matching
  | left
  | right
  deriving DecidableEq, Repr

mutual

-- An expression holds the attributes and queries it speaks of, not their names: what it means is
-- fixed when it is made and does not follow later changes of a model.
inductive Expr where
  | literal (value : Literal)
  | access (member : Attribute) (side : Side)
  | compose (reference composition : Expr)
  -- Carries the type of its result, so that its operands need not be looked at again.
  | binary (operator : Operator) (left right : Expr) (type : ExprType)
  | countAll
  | aggregate (function : AggregateFunction) (operand : Expr)
  | column (domain name : String) (type : ExprType)
  | query (query : Query)

structure Attribute where
  domain : String
  name : String
  definition : Definition

inductive Definition where
  | value (expr : Expr)
  | reference (target table : String) (condition : Expr)

structure Projection where
  label : String
  expr : Expr

-- No two projections have one alias.
structure Query where
  name : String
  source : String
  table : String
  projections : List Projection
  filter : Option Expr

end

namespace Expr

def type : Expr → ExprType
  | .literal value => .scalar value.type
  | .access ⟨_, _, .value expr⟩ _ => expr.type
  | .access ⟨_, _, .reference target _ _⟩ _ => .domain target
  | .compose _ composition => composition.type
  | .binary _ _ _ type => type
  | .countAll => .aggregate .integer
  | .aggregate function operand => .aggregate (function.result (operand.type.scalar?.getD .integer))
  | .column _ _ type => type
  | .query nested => .domain nested.name

-- Navigation does not show from outside: a composition reads what its reference reads.
def source : Expr → Option Source
  | .literal _ => none
  | .access member _ => some (.domain member.domain)
  | .compose reference _ => reference.source
  | .binary _ left right _ =>
      match Source.union left.source right.source with
      | .ok source => source
      | .error _ => none
  | .countAll => none
  | .aggregate _ operand => operand.source
  | .column domain _ _ => some (.domain domain)
  | .query nested => some (.domain nested.name)

def depth : Expr → Nat
  | .compose _ composition => composition.depth + 1
  | _ => 0

def terminal : Expr → Expr
  | .compose _ composition => composition.terminal
  | expr => expr

end Expr

namespace Attribute

def type (member : Attribute) : ExprType := (Expr.access member .matching).type

def id (member : Attribute) : String := member.domain ++ "." ++ member.name

def mapped (domain name column : String) (type : ExprType) : Attribute :=
  ⟨domain, name, .value (.column domain column type)⟩

-- An attribute that reads the column of its own name.
def namesake (domain name : String) (type : ScalarType) : Attribute :=
  .mapped domain name name (.scalar type)

def isReference (member : Attribute) : Bool :=
  match member.definition with
  | .reference _ _ _ => true
  | .value _ => false

end Attribute

def Expr.read (domain name : String) (type : ScalarType) : Expr :=
  .access (.namesake domain name type) .matching

namespace Projection

def type (p : Projection) : ExprType := p.expr.type

def isAggregate (p : Projection) : Bool := p.type.isAggregate

end Projection

end SemanticLayer
