import SemanticLayer.Statement.Numbered

namespace SemanticLayer

mutual

def Term.raised {ρ : Type} (amount : Nat) : Term ρ Nat → Term ρ Nat
  | .literal value => .literal value
  | .column relation name => .column relation name
  | .binary operator left right => .binary operator (left.raised amount) (right.raised amount)
  | .countAll => .countAll
  | .aggregate function operand => .aggregate function (operand.raised amount)
  | .subquery number statement => .subquery (number + amount) (statement.raised amount)

def Statement.raised {ρ : Type} (amount : Nat) : Statement ρ Nat → Statement ρ Nat
  | ⟨root, table, clauses⟩ => ⟨root, table, raisedClauses amount clauses⟩

def raisedClauses {ρ : Type} (amount : Nat) : List (Clause ρ Nat) → List (Clause ρ Nat)
  | [] => []
  | ⟨role, term⟩ :: rest => ⟨role, term.raised amount⟩ :: raisedClauses amount rest

end

-- The numbers only say where the count stood: a later start raises them all alike.

mutual

theorem Term.numbered_raised {ρ : Type} (more : Nat) : ∀ (term : Term ρ Unit) (n : Nat),
    term.numbered (n + more) = ((term.numbered n).1.raised more, (term.numbered n).2 + more)
  | .literal _, _ => by simp [Term.numbered, Term.raised]
  | .column _ _, _ => by simp [Term.numbered, Term.raised]
  | .countAll, _ => by simp [Term.numbered, Term.raised]
  | .binary _ left right, n => by
      simp [Term.numbered, Term.raised, left.numbered_raised more, right.numbered_raised more]
  | .aggregate _ operand, n => by
      simp [Term.numbered, Term.raised, operand.numbered_raised more]
  | .subquery _ statement, n => by
      have later : n + more + 1 = n + 1 + more := by omega
      simp [Term.numbered, Term.raised, later, statement.numbered_raised more]

theorem Statement.numbered_raised {ρ : Type} (more : Nat) :
    ∀ (statement : Statement ρ Unit) (n : Nat), statement.numbered (n + more) =
      ((statement.numbered n).1.raised more, (statement.numbered n).2 + more)
  | ⟨_, _, clauses⟩, n => by
      simp [Statement.numbered, Statement.raised, numberedClauses_raised more clauses]

theorem numberedClauses_raised {ρ : Type} (more : Nat) :
    ∀ (clauses : List (Clause ρ Unit)) (n : Nat), numberedClauses clauses (n + more) =
      (raisedClauses more (numberedClauses clauses n).1, (numberedClauses clauses n).2 + more)
  | [], _ => by simp [numberedClauses, raisedClauses]
  | ⟨_, term⟩ :: rest, n => by
      simp [numberedClauses, raisedClauses, term.numbered_raised more,
        numberedClauses_raised more rest]

end

mutual

theorem Term.numbered_grows {ρ : Type} : ∀ (term : Term ρ Unit) (n : Nat), n ≤ (term.numbered n).2
  | .literal _, _ => by simp [Term.numbered]
  | .column _ _, _ => by simp [Term.numbered]
  | .countAll, _ => by simp [Term.numbered]
  | .binary _ left right, n => by
      have one := left.numbered_grows n
      have two := right.numbered_grows (left.numbered n).2
      simpa [Term.numbered] using Nat.le_trans one two
  | .aggregate _ operand, n => by simpa [Term.numbered] using operand.numbered_grows n
  | .subquery _ statement, n => by
      have inner := statement.numbered_grows (n + 1)
      simp only [Term.numbered]
      omega

theorem Statement.numbered_grows {ρ : Type} :
    ∀ (statement : Statement ρ Unit) (n : Nat), n ≤ (statement.numbered n).2
  | ⟨_, _, clauses⟩, n => by simpa [Statement.numbered] using numberedClauses_grows clauses n

theorem numberedClauses_grows {ρ : Type} :
    ∀ (clauses : List (Clause ρ Unit)) (n : Nat), n ≤ (numberedClauses clauses n).2
  | [], _ => by simp [numberedClauses]
  | ⟨_, term⟩ :: rest, n => by
      have one := term.numbered_grows n
      have two := numberedClauses_grows rest (term.numbered n).2
      simpa [numberedClauses] using Nat.le_trans one two

end

theorem numberedClauses_append {ρ : Type} (first second : List (Clause ρ Unit)) (n : Nat) :
    numberedClauses (first ++ second) n =
      ((numberedClauses first n).1 ++ (numberedClauses second (numberedClauses first n).2).1,
        (numberedClauses second (numberedClauses first n).2).2) := by
  induction first generalizing n with
  | nil => simp [numberedClauses]
  | cons clause rest ih =>
    obtain ⟨role, term⟩ := clause
    simp [numberedClauses, ih]

end SemanticLayer
