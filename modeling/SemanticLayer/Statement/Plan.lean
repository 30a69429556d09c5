import SemanticLayer.Path
import SemanticLayer.Query
import SemanticLayer.Statement.Basic

namespace SemanticLayer

-- A statement whose relations are still the paths that lead to them.
abbrev Plan := Statement Path Unit

inductive Scope where
  | at (path : Path)
  | join (parent child : Path)

-- In a join an access without a mark goes to the side of its domain, if just one side is of that
-- domain.
def Scope.locate (scope : Scope) (domain name : String) (side : Side) : Except Error Path :=
  match scope, side with
  | .at path, _ => .ok path
  | .join parent _, .left => .ok parent
  | .join _ child, .right => .ok child
  | .join parent child, .matching =>
      match decide (parent.domain = domain), decide (child.domain = domain) with
      | true, false => .ok parent
      | false, true => .ok child
      | _, _ => .error (.ambiguousSide domain name parent.domain child.domain)

mutual

-- The condition is not planned before the join is asked for: a path that many hops lead to is joined
-- once, and a condition that cannot be planned does no harm until then.
structure Hop where
  path : Path
  table : String
  condition : Unit → Condition

inductive Condition where
  | planned (term : Term Path Unit) (hops : List Hop)
  | failed (error : Error)

end

structure Planned where
  term : Term Path Unit
  hops : List Hop

def Condition.ofPlan : Except Error Planned → Condition
  | .ok ⟨term, hops⟩ => .planned term hops
  | .error error => .failed error

mutual

def Hop.weight : Hop → Nat
  | ⟨_, _, condition⟩ => (condition ()).weight + 1

def Condition.weight : Condition → Nat
  | .planned _ hops => Hop.totalWeight hops
  | .failed _ => 0

def Hop.totalWeight : List Hop → Nat
  | [] => 0
  | hop :: hops => hop.weight + Hop.totalWeight hops

end

theorem Hop.totalWeight_append (l₁ l₂ : List Hop) :
    Hop.totalWeight (l₁ ++ l₂) = Hop.totalWeight l₁ + Hop.totalWeight l₂ := by
  induction l₁ with
  | nil => simp [Hop.totalWeight]
  | cons hop hops ih => simp [Hop.totalWeight, ih]; omega

-- The hops of a condition come after all that wait already; the first hop to a path makes its join.
def joinClauses (seen : List Path) : List Hop → Except Error (List (Clause Path Unit))
  | [] => .ok []
  | ⟨path, table, condition⟩ :: rest =>
      if path ∈ seen then joinClauses seen rest
      else
        match _h : condition () with
        | .failed error => .error error
        | .planned term hops => do
            let more ← joinClauses (path :: seen) (rest ++ hops)
            pure (⟨.join path table, term⟩ :: more)
termination_by todo => Hop.totalWeight todo
decreasing_by
  · simp [Hop.totalWeight, Hop.weight]
  · simp [Hop.totalWeight, Hop.weight, Hop.totalWeight_append, _h, Condition.weight]
    omega

def planLiteral : Literal → Except Error Planned
  | .decimal value =>
      if value.isFinite then .ok ⟨.literal (.decimal value), []⟩
      else .error (.nonFiniteDecimal value.nonFiniteText)
  | value => .ok ⟨.literal value, []⟩

mutual

def Expr.plan : Expr → Scope → Except Error Planned
  | .literal value, _ => planLiteral value
  | .access ⟨domain, name, .value (.column _ column _)⟩ side, scope => do
      let path ← scope.locate domain name side
      pure ⟨.column path column, []⟩
  | .access ⟨domain, name, .value expr⟩ side, scope => do
      let path ← scope.locate domain name side
      expr.plan (.at path)
  | .access ⟨domain, name, .reference _ _ _⟩ side, scope => do
      let _ ← scope.locate domain name side
      throw (.referenceAsValue domain name)
  | .compose reference composition, scope => do
      let (path, hops) ← reference.navigate scope
      let planned ← composition.plan (.at path)
      pure ⟨planned.term, hops ++ planned.hops⟩
  | .binary operator left right _, scope => do
      let left ← left.plan scope
      let right ← right.plan scope
      pure ⟨.binary operator left.term right.term, left.hops ++ right.hops⟩
  | .countAll, _ => pure ⟨.countAll, []⟩
  | .aggregate function operand, scope => do
      let operand ← operand.plan scope
      pure ⟨.aggregate function operand.term, operand.hops⟩
  | .column domain name _, scope => do
      let path ← scope.locate domain name .matching
      pure ⟨.column path name, []⟩
  | .query nested, _ => do
      let plan ← nested.plan
      pure ⟨.subquery () plan, []⟩

def Expr.navigate : Expr → Scope → Except Error (Path × List Hop)
  | .access ⟨domain, name, .reference target table condition⟩ side, scope => do
      let parent ← scope.locate domain name side
      let path := parent.extend domain name target
      pure (path, [⟨path, table, fun _ => .ofPlan (condition.plan (.join parent path))⟩])
  | .access ⟨domain, name, .value _⟩ side, scope => do
      let _ ← scope.locate domain name side
      throw (.notAReference domain name)
  | .compose reference composition, scope => do
      let (inner, hops) ← reference.navigate scope
      let (path, more) ← composition.navigate (.at inner)
      pure (path, hops ++ more)
  | expr, _ => throw (.notNavigable expr.type)

-- Columns and filter first, then the grouping, and the joins last.
def Query.plan : Query → Except Error Plan
  | ⟨_, source, table, projections, filter⟩ => do
      let root := Path.root source
      let columns ← planProjections root projections
      let restriction ← match filter with
        | none => pure none
        | some condition => some <$> condition.plan (.at root)
      let aggregates := projections.any (·.isAggregate)
      let hops := columns.flatMap (·.2.hops) ++ (restriction.map (·.hops)).getD []
      let joins ← joinClauses [root] hops
      let selected := columns.map fun (p, planned) => ⟨.select p.label, planned.term⟩
      let filtered := restriction.toList.map fun planned => ⟨.filter, planned.term⟩
      let grouped :=
        if aggregates then
          (columns.filter (!·.1.isAggregate)).map fun (_, planned) => ⟨.group, planned.term⟩
        else []
      pure ⟨root, table, selected ++ filtered ++ grouped ++ joins⟩

def planProjections (root : Path) : List Projection → Except Error (List (Projection × Planned))
  | [] => pure []
  | ⟨label, expr⟩ :: rest => do
      let planned ← expr.plan (.at root)
      let planneds ← planProjections root rest
      pure ((⟨label, expr⟩, planned) :: planneds)

end

end SemanticLayer
