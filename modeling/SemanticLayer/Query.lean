import SemanticLayer.Domain

namespace SemanticLayer

-- A nested query is closed and reads nothing of the query it stands in, as long as nothing is
-- followed from there.
def Expr.enclosing : Expr → Except ScopeFault (Option Source)
  | .query _ => .ok none
  | .binary _ left right _ => do
      let left ← left.enclosing
      let right ← right.enclosing
      match Source.union left right with
      | .ok source => .ok source
      | .error (.sourcesDisagree l r) => .error (.mixed l r)
      | .error _ => .ok none
  | .aggregate _ operand => operand.enclosing
  | expr => .ok expr.source

def Expr.checkScope (expr : Expr) (domain : String) : Except ScopeFault Unit := do
  match ← expr.enclosing with
  | none => pure ()
  | some source => if source = .domain domain then pure () else throw (.outside source domain)

namespace Query

def start (name : String) (source : Domain) : Query := ⟨name, source.name, source.table, [], none⟩

-- An alias in use keeps its place among the columns.
def place (label : String) (expr : Expr) : List Projection → List Projection
  | [] => [⟨label, expr⟩]
  | p :: ps => if p.label = label then ⟨label, expr⟩ :: ps else p :: place label expr ps

def select (q : Query) (label : String) (expr : Expr) : Except Error Query :=
  match expr.checkScope q.source with
  | .ok () => .ok { q with projections := place label expr q.projections }
  | .error fault => .error (.projectionOutOfScope q.name label fault)

def setFilter (q : Query) (condition : Expr) : Except Error Query :=
  if condition.type ≠ .boolean then .error (.filterNotBoolean q.name condition.type)
  else
    match condition.checkScope q.source with
    | .ok () => .ok { q with filter := some condition }
    | .error fault => .error (.filterOutOfScope q.name fault)

def restrict (q : Query) (condition : Expr) : Except Error Query := do
  match q.filter with
  | none => q.setFilter condition
  | some filter => q.setFilter (← Expr.both filter condition)

def asDomain (q : Query) : Domain :=
  q.projections.foldl (fun d p => d.insert (.mapped q.name p.label p.label p.type)) (.new q.name)

end Query

end SemanticLayer
