import SemanticLayer.Literal

namespace SemanticLayer

inductive Role (ρ : Type) where
  | select (label : String)
  | filter
  | group
  | join (relation : ρ) (table : String)

mutual

-- A value in SQL. The columns name the relation that they are read from by a ρ, which is a path
-- while a statement is planned and an alias when it is written; nested statements carry a ν.
inductive Term (ρ ν : Type) where
  | literal (value : Literal)
  | column (relation : ρ) (name : String)
  | binary (operator : Operator) (left right : Term ρ ν)
  | countAll
  | aggregate (function : AggregateFunction) (operand : Term ρ ν)
  | subquery (number : ν) (statement : Statement ρ ν)

structure Statement (ρ ν : Type) where
  root : ρ
  table : String
  -- In the order in which they are worked out: columns, filter, grouping, joins.
  clauses : List (Clause ρ ν)

structure Clause (ρ ν : Type) where
  role : Role ρ
  term : Term ρ ν

end

end SemanticLayer
