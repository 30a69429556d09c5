import SemanticLayer.Statement.Aliased
import SemanticLayer.Statement.Numbered
import SemanticLayer.Statement.Plan
import SemanticLayer.Statement.Text

namespace SemanticLayer

def Query.statement (q : Query) (counter : Nat) : Except Error (Statement String Nat × Nat) := do
  let plan ← q.plan
  pure (plan.aliased.numbered counter)

def Query.sqlFrom (q : Query) (counter : Nat) : Except Error (String × Nat) := do
  let (statement, counter) ← q.statement counter
  pure (statement.text, counter)

def Query.sql (q : Query) : Except Error String := do
  let (text, _) ← q.sqlFrom 0
  pure text

end SemanticLayer
