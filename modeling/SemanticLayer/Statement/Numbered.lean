import SemanticLayer.Statement.Basic

namespace SemanticLayer

-- Nested statements get the numbers that follow the given one, in the order in which they are
-- worked out, an outer one before those inside it. Each pass returns the last number it gave.

mutual

def Term.numbered {ρ : Type} : Term ρ Unit → Nat → Term ρ Nat × Nat
  | .literal value, n => (.literal value, n)
  | .column relation name, n => (.column relation name, n)
  | .binary operator left right, n =>
      let (left, n) := left.numbered n
      let (right, n) := right.numbered n
      (.binary operator left right, n)
  | .countAll, n => (.countAll, n)
  | .aggregate function operand, n =>
      let (operand, n) := operand.numbered n
      (.aggregate function operand, n)
  | .subquery _ statement, n =>
      let (statement, last) := statement.numbered (n + 1)
      (.subquery (n + 1) statement, last)

def Statement.numbered {ρ : Type} : Statement ρ Unit → Nat → Statement ρ Nat × Nat
  | ⟨root, table, clauses⟩, n =>
      let (clauses, n) := numberedClauses clauses n
      (⟨root, table, clauses⟩, n)

def numberedClauses {ρ : Type} : List (Clause ρ Unit) → Nat → List (Clause ρ Nat) × Nat
  | [], n => ([], n)
  | ⟨role, term⟩ :: rest, n =>
      let (term, n) := term.numbered n
      let (rest, n) := numberedClauses rest n
      (⟨role, term⟩ :: rest, n)

end

end SemanticLayer
