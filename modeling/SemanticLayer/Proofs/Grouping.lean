import SemanticLayer.Proofs.Formation
import SemanticLayer.Proofs.JoinOrder

namespace SemanticLayer

namespace Clause

def column? : Clause String Nat → Option (String × Term String Nat)
  | ⟨.select label, term⟩ => some (label, term)
  | _ => none

def grouped? : Clause String Nat → Option (Term String Nat)
  | ⟨.group, term⟩ => some term
  | _ => none

end Clause

namespace Statement
variable (s : Statement String Nat)

def columns : List (String × Term String Nat) := s.clauses.filterMap Clause.column?

def groups : List (Term String Nat) := s.clauses.filterMap Clause.grouped?

def restrictionText : String := String.join (s.clauses.filterMap Clause.filterText?)

end Statement

def columnList (columns : List (String × Term String Nat)) : String :=
  "SELECT " ++ if columns.isEmpty then "*" else
    ", ".intercalate (columns.map fun column => column.2.text ++ " AS " ++ column.1)

def groupList (terms : List (Term String Nat)) : String :=
  if terms.isEmpty then "" else " GROUP BY " ++ ", ".intercalate (terms.map Term.text)

theorem text_grouped (s : Statement String Nat) :
    s.text = columnList s.columns ++ s.fromText ++ s.restrictionText ++ groupList s.groups := by
  have columns : s.clauses.filterMap Clause.columnText? =
      s.columns.map fun column => column.2.text ++ " AS " ++ column.1 := by
    rw [Statement.columns, List.map_filterMap]
    congr 1
    funext clause
    obtain ⟨role, term⟩ := clause
    cases role <;> rfl
  have groups : s.clauses.filterMap Clause.groupText? = s.groups.map Term.text := by
    rw [Statement.groups, List.map_filterMap]
    congr 1
    funext clause
    obtain ⟨role, term⟩ := clause
    cases role <;> rfl
  rw [text_layout, Statement.selectText, Statement.tailText, columns, groups]
  simp only [columnList, groupList, Statement.restrictionText, List.isEmpty_map, String.append_assoc]

theorem raised_plain (term : Term ρ Nat) (plain : term.nested = []) (more : Nat) :
    term.raised more = term := by
  fun_induction Term.nested term with
  | case1 operator left right one two =>
    obtain ⟨inLeft, inRight⟩ := List.append_eq_nil_iff.mp plain
    rw [Term.raised, one inLeft, two inRight]
  | case2 function operand ih => rw [Term.raised, ih plain]
  | case3 number statement => cases plain
  | case4 term noBinary noAggregate noSubquery =>
    cases term <;> simp_all [Term.raised]

def Expr.Shows (names : AliasTable) (low high : Nat) (expr : Expr) (scope : Scope)
    (term : Term String Nat) : Prop :=
  ∃ planned k, low ≤ k ∧ k ≤ high ∧ expr.plan scope = .ok planned ∧
    term = ((planned.term.aliased names).numbered k).1

def Reading.WritesWithin (names : AliasTable) (low high : Nat) (reading : Reading)
    (clause : Clause String Nat) : Prop :=
  clause.role = reading.role.map names.name ∧
    reading.expr.Shows names low high reading.scope clause.term

theorem drafts_numbered (drafted : List.Forall₂ (Reading.Drafts names) readings drafts) (n : Nat) :
    List.Forall₂ (Reading.WritesWithin names n (numberedClauses drafts n).2) readings
      (numberedClauses drafts n).1 := by
  refine forall₂_chain drafted (numberedClauses_parts drafts n) ?_
  rintro reading before after ⟨role, planned, made, term⟩ ⟨same, k, low, high, written⟩
  exact ⟨by rw [same, role], planned, k, low, high, made, by rw [written, term]⟩

theorem forall₂_append_split {related : α → β → Prop} (first : List α)
    (all : List.Forall₂ related (first ++ second) bs) :
    ∃ one two, bs = one ++ two ∧ List.Forall₂ related first one ∧ List.Forall₂ related second two := by
  induction first generalizing bs with
  | nil => exact ⟨[], bs, rfl, .nil, all⟩
  | cons a rest ih =>
    cases all with
    | @cons _ b _ _ here later =>
      obtain ⟨one, two, rfl, before, after⟩ := ih later
      exact ⟨b :: one, two, rfl, .cons here before, after⟩

def Reading.selected? (reading : Reading) : Option (String × Expr × Scope) :=
  match reading.role with
  | .select label => some (label, reading.expr, reading.scope)
  | _ => none

def Reading.grouped? (reading : Reading) : Option (Expr × Scope) :=
  match reading.role with
  | .group => some (reading.expr, reading.scope)
  | _ => none

section
variable (written : List.Forall₂ (Reading.WritesWithin names low high) readings clauses)
include written

theorem columns_shown :
    List.Forall₂ (fun selected column => column.1 = selected.1 ∧
        selected.2.1.Shows names low high selected.2.2 column.2)
      (readings.filterMap Reading.selected?) (clauses.filterMap Clause.column?) := by
  refine List.rel_filterMap ?_ written
  rintro ⟨role, expr, scope⟩ ⟨_, term⟩ ⟨rfl, shown⟩
  cases role with
  | select label => exact .some ⟨rfl, shown⟩
  | _ => exact .none

theorem groups_shown :
    List.Forall₂ (fun grouped term => grouped.1.Shows names low high grouped.2 term)
      (readings.filterMap Reading.grouped?) (clauses.filterMap Clause.grouped?) := by
  refine List.rel_filterMap ?_ written
  rintro ⟨role, expr, scope⟩ ⟨_, term⟩ ⟨rfl, shown⟩
  cases role with
  | group => exact .some shown
  | _ => exact .none

end

-- The columns are counted first, and what is grouped is counted after them.
theorem statement_counted (ran : Query.statement q n = .ok (s, m)) :
    ∃ names middle, List.Forall₂ (fun p column => column.1 = p.label ∧
        p.expr.Shows names n middle (.at (.root q.source)) column.2) q.projections s.columns ∧
      List.Forall₂ (fun p term => p.expr.Shows names middle m (.at (.root q.source)) term)
        q.grouped s.groups := by
  obtain ⟨whole, drafts, _, _, _, drafted, numbered⟩ := statement_drafted ran
  rw [Query.readings, List.append_assoc, List.append_assoc] at drafted
  obtain ⟨first, second, rfl, selects, rest⟩ := forall₂_append_split _ drafted
  have early := drafts_numbered selects n
  have late := drafts_numbered rest (numberedClauses first n).2
  rw [numberedClauses_append] at numbered
  obtain ⟨clauses, counted⟩ := Prod.mk.inj numbered
  rw [counted] at late
  have noColumns : (numberedClauses second (numberedClauses first n).2).1.filterMap
      Clause.column? = [] := by
    simpa [List.filterMap_map, Reading.selected?, Function.comp_def] using columns_shown late
  have noGroups : (numberedClauses first n).1.filterMap Clause.grouped? = [] := by
    simpa [List.filterMap_map, Reading.grouped?, Function.comp_def] using groups_shown early
  refine ⟨.ofPaths (q.paths whole), (numberedClauses first n).2, ?_, ?_⟩
  · rw [Statement.columns, ← clauses, List.filterMap_append, noColumns, List.append_nil]
    simpa [List.filterMap_map, Reading.selected?, Function.comp_def, List.filterMap_eq_map'] using
      columns_shown early
  · rw [Statement.groups, ← clauses, List.filterMap_append, noGroups, List.nil_append]
    simpa [List.filterMap_map, Reading.grouped?, Function.comp_def, List.filterMap_eq_map'] using
      groups_shown late

-- The second time an expression is written out its numbers are larger by what was counted since.
theorem shown_twice (column : Expr.Shows names low middle expr scope before)
    (group : Expr.Shows names middle high expr scope after) :
    (∃ more, after = before.raised more) ∧ (expr.queries = [] → after = before) := by
  obtain ⟨planned, j, _, early, made, rfl⟩ := column
  obtain ⟨again, k, late, _, remade, rfl⟩ := group
  cases made.symm.trans remade
  have later : k = j + (k - j) := by omega
  have raised : ((planned.term.aliased names).numbered k).1 =
      ((planned.term.aliased names).numbered j).1.raised (k - j) := by
    conv_lhs => rw [later, Term.numbered_raised]
  refine ⟨⟨k - j, raised⟩, ?_⟩
  intro plain
  have nested := plan_queries.1 _ _ _ made
  rw [plain] at nested
  have empty : ((planned.term.aliased names).numbered j).1.nested = [] := by
    have numbered := Term.nested_numbered (planned.term.aliased names) j
    rw [Term.nested_aliased, List.forall₂_nil_left_iff.mp nested] at numbered
    exact List.forall₂_nil_left_iff.mp numbered
  rw [raised, raised_plain _ empty]

-- A nested query is a column beside a count, so that it is written out twice.
namespace Ledger

def number : Attribute := .mapped "orders" "id" "id" (.scalar .integer)

def numbers : Query := ⟨"numbers", "orders", "orders", [⟨"id", .access number .matching⟩], none⟩

end Ledger

end SemanticLayer
