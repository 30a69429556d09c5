import SemanticLayer.Proofs.Nesting

namespace SemanticLayer

-- A statement in three parts: what it selects, where that comes from, and what comes after. Each
-- part is made from the clauses that concern it.

structure Joined where
  label : String
  table : String
  condition : Term String Nat

namespace Joined

def text (item : Joined) : String :=
  " JOIN " ++ item.table ++ " AS " ++ item.label ++ " ON " ++ item.condition.text

end Joined

namespace Clause

def columnText? : Clause String Nat → Option String
  | ⟨.select label, term⟩ => some (term.text ++ " AS " ++ label)
  | _ => none

def joined? : Clause String Nat → Option Joined
  | ⟨.join label table, term⟩ => some ⟨label, table, term⟩
  | _ => none

def filterText? : Clause String Nat → Option String
  | ⟨.filter, term⟩ => some (" WHERE " ++ term.text)
  | _ => none

def groupText? : Clause String Nat → Option String
  | ⟨.group, term⟩ => some term.text
  | _ => none

end Clause

namespace Statement
variable (s : Statement String Nat)

def joins : List Joined := s.clauses.filterMap Clause.joined?

def selectText : String :=
  let columns := s.clauses.filterMap Clause.columnText?
  "SELECT " ++ (if columns.isEmpty then "*" else ", ".intercalate columns)

def fromText : String :=
  " FROM " ++ s.table ++ (if s.root = s.table then "" else " AS " ++ s.root) ++
    String.join (s.joins.map Joined.text)

def tailText : String :=
  let groups := s.clauses.filterMap Clause.groupText?
  String.join (s.clauses.filterMap Clause.filterText?) ++
    (if groups.isEmpty then "" else " GROUP BY " ++ ", ".intercalate groups)

end Statement

theorem clauseTexts_filtered {f : Role String × String → Option α} {g : Clause String Nat → Option α}
    (clauses : List (Clause String Nat))
    (same : ∀ clause, f (clause.role, clause.term.text) = g clause) :
    (clauseTexts clauses).filterMap f = clauses.filterMap g := by
  induction clauses with
  | nil => rfl
  | cons clause rest ih =>
    obtain ⟨role, term⟩ := clause
    rw [clauseTexts, List.filterMap_cons, List.filterMap_cons, ih, ← same ⟨role, term⟩]

theorem text_layout (s : Statement String Nat) :
    s.text = s.selectText ++ s.fromText ++ s.tailText := by
  obtain ⟨root, table, clauses⟩ := s
  rw [Statement.text, statementText, clauseTexts_filtered (g := Clause.columnText?),
    clauseTexts_filtered (g := fun clause => clause.joined?.map Joined.text),
    clauseTexts_filtered (g := Clause.filterText?), clauseTexts_filtered (g := Clause.groupText?)]
  · simp only [Statement.selectText, Statement.fromText, Statement.tailText, Statement.joins,
      List.map_filterMap, String.append_assoc]
  all_goals
    rintro ⟨role, term⟩
    cases role <;> rfl

end SemanticLayer
