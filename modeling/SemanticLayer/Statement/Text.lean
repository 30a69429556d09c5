import SemanticLayer.Statement.Basic

namespace SemanticLayer

def statementText (root table : String) (parts : List (Role String × String)) : String :=
  let columns := parts.filterMap fun
    | (.select label, text) => some (text ++ " AS " ++ label)
    | _ => none
  let joins := parts.filterMap fun
    | (.join label table, text) => some (" JOIN " ++ table ++ " AS " ++ label ++ " ON " ++ text)
    | _ => none
  let restrictions := parts.filterMap fun
    | (.filter, text) => some (" WHERE " ++ text)
    | _ => none
  let groups := parts.filterMap fun
    | (.group, text) => some text
    | _ => none
  "SELECT " ++ (if columns.isEmpty then "*" else ", ".intercalate columns) ++
    " FROM " ++ table ++ (if root = table then "" else " AS " ++ root) ++
    String.join joins ++ String.join restrictions ++
    (if groups.isEmpty then "" else " GROUP BY " ++ ", ".intercalate groups)

mutual

-- Every operation stands in parentheses, so that no reading depends on how operators bind.
def Term.text : Term String Nat → String
  | .literal value => value.text
  | .column label name => label ++ "." ++ name
  | .binary operator left right =>
      "(" ++ left.text ++ " " ++ operator.symbol ++ " " ++ right.text ++ ")"
  | .countAll => "COUNT(*)"
  | .aggregate function operand => function.name ++ "(" ++ operand.text ++ ")"
  | .subquery number statement => "(" ++ statement.text ++ ") AS sq" ++ toString number

def Statement.text : Statement String Nat → String
  | ⟨root, table, clauses⟩ => statementText root table (clauseTexts clauses)

def clauseTexts : List (Clause String Nat) → List (Role String × String)
  | [] => []
  | ⟨role, term⟩ :: rest => (role, term.text) :: clauseTexts rest

end

end SemanticLayer
