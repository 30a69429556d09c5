import SemanticLayer.AliasTable
import SemanticLayer.Statement.Basic

namespace SemanticLayer

def Role.map {ρ ρ' : Type} (f : ρ → ρ') : Role ρ → Role ρ'
  | .select label => .select label
  | .filter => .filter
  | .group => .group
  | .join relation table => .join (f relation) table

def Role.joined? {ρ : Type} : Role ρ → Option ρ
  | .join relation _ => some relation
  | _ => none

def Statement.relations {ρ ν : Type} (s : Statement ρ ν) : List ρ :=
  s.root :: s.clauses.filterMap (·.role.joined?)

-- Every column is read from a relation of its statement, so no other path is asked for.
def AliasTable.name (t : AliasTable) (path : Path) : String := (t.alias? path).getD ""

mutual

-- A nested statement has aliases of its own.
def Term.aliased {ν : Type} (names : AliasTable) : Term Path ν → Term String ν
  | .literal value => .literal value
  | .column path column => .column (names.name path) column
  | .binary operator left right => .binary operator (left.aliased names) (right.aliased names)
  | .countAll => .countAll
  | .aggregate function operand => .aggregate function (operand.aliased names)
  | .subquery number statement => .subquery number statement.aliased

def Statement.aliased {ν : Type} : Statement Path ν → Statement String ν
  | ⟨root, table, clauses⟩ =>
      let names := AliasTable.ofPaths (Statement.relations ⟨root, table, clauses⟩)
      ⟨names.name root, table, aliasedClauses names clauses⟩

def aliasedClauses {ν : Type} (names : AliasTable) : List (Clause Path ν) → List (Clause String ν)
  | [] => []
  | ⟨role, term⟩ :: rest => ⟨role.map names.name, term.aliased names⟩ :: aliasedClauses names rest

end

end SemanticLayer
