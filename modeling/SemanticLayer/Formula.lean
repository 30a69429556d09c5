import SemanticLayer.Model
import SemanticLayer.Query

namespace SemanticLayer

-- There is always one segment, which may be empty.
def pathSegments (path : String) : List String :=
  (go [] path.toList).map String.ofList
where
  -- The segment read so far, the last character first, is in front of the text.
  go (segment : List Char) : List Char → List (List Char)
    | [] => [segment.reverse]
    | '.' :: text => segment.reverse :: go [] text
    | c :: text => go (c :: segment) text

-- A reference to a domain of the same name stays in the domain at hand, whether or not the model
-- knows it.
def Domain.walk (model : Model) (d : Domain) : String → List String → Except Error Expr
  | name, [] => do
      let member ← d.lookup name
      pure (.access member .matching)
  | name, next :: rest => do
      let member ← d.lookup name
      match member.definition with
      | .value _ => throw (.notAReference d.name name)
      | .reference target _ _ =>
          let aim ← if target = d.name then pure d else model.lookup target
          let composition ← aim.walk model next rest
          Expr.composed (.access member .matching) composition

def Domain.resolve (model : Model) (d : Domain) (path : String) : Except Error Expr :=
  match pathSegments path with
  | [] => throw (.unknownAttribute d.name "")
  | name :: rest => d.walk model name rest

inductive Formula where
  | path (text : String)
  | literal (value : Literal)
  | binary (operator : Operator) (left right : Formula)
  | aggregate (function : AggregateFunction) (operand : Formula)
  | aggregateAll (function : AggregateFunction)
  | resolved (expr : Expr)

def Formula.resolve (model : Model) (d : Domain) : Formula → Except Error Expr
  | .path text => d.resolve model text
  | .literal value => .ok (.literal value)
  | .binary operator left right => do
      let left ← left.resolve model d
      let right ← right.resolve model d
      Expr.operation operator left right
  | .aggregate function operand => do
      let operand ← operand.resolve model d
      Expr.aggregated function (some operand)
  | .aggregateAll function => Expr.aggregated function none
  | .resolved expr => .ok expr

inductive Query.Step where
  | select (path : String)
  | selectAs (label path : String)
  | selectFormula (label : String) (formula : Formula)
  | restrict (formula : Formula)
  | restrictTo (condition : Expr)

def pathAlias (path : String) : String := (pathSegments path).getLastD path

def Query.step (model : Model) (d : Domain) (q : Query) : Query.Step → Except Error Query
  | .select path => do q.select (pathAlias path) (← d.resolve model path)
  | .selectAs label path => do q.select label (← d.resolve model path)
  | .selectFormula label formula => do q.select label (← formula.resolve model d)
  | .restrict formula => do q.restrict (← formula.resolve model d)
  | .restrictTo condition => q.restrict condition

def Query.build (model : Model) (name : String) (d : Domain) (steps : List Query.Step) :
    Except Error Query :=
  steps.foldlM (Query.step model d) (.start name d)

def Model.query (model : Model) (name domain : String) (steps : List Query.Step) :
    Except Error Query := do
  Query.build model name (← model.lookup domain) steps

end SemanticLayer
