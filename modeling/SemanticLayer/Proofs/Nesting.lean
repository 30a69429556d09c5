import SemanticLayer.Proofs.Numbering
import SemanticLayer.Proofs.Readings

namespace SemanticLayer

-- A statement and those nested in it carry their own relations, columns and aliases. What is said
-- of a statement here is said of each of them, and no column is looked for in another one.

namespace Term

def columns {ρ ν : Type} : Term ρ ν → List (ρ × String)
  | .column relation name => [(relation, name)]
  | .binary _ left right => left.columns ++ right.columns
  | .aggregate _ operand => operand.columns
  | _ => []

def nested {ρ ν : Type} : Term ρ ν → List (Statement ρ ν)
  | .binary _ left right => left.nested ++ right.nested
  | .aggregate _ operand => operand.nested
  | .subquery _ statement => [statement]
  | _ => []

theorem columns_aliased (term : Term Path ν) (names : AliasTable) :
    (term.aliased names).columns = term.columns.map fun c => (names.name c.1, c.2) := by
  fun_induction Term.columns term with
  | case1 relation name => simp [Term.aliased, Term.columns]
  | case2 operator left right one two => simp [Term.aliased, Term.columns, one, two]
  | case3 function operand ih => simp [Term.aliased, Term.columns, ih]
  | case4 term noColumn noBinary noAggregate =>
    cases term <;> simp_all [Term.aliased, Term.columns]

theorem nested_aliased (term : Term Path ν) (names : AliasTable) :
    (term.aliased names).nested = term.nested.map Statement.aliased := by
  fun_induction Term.nested term with
  | case1 operator left right one two => simp [Term.aliased, Term.nested, one, two]
  | case2 function operand ih => simp [Term.aliased, Term.nested, ih]
  | case3 number statement => simp [Term.aliased, Term.nested]
  | case4 term noBinary noAggregate noSubquery =>
    cases term <;> simp_all [Term.aliased, Term.nested]

theorem columns_numbered (term : Term ρ Unit) (n : Nat) :
    (term.numbered n).1.columns = term.columns := by
  fun_induction Term.columns term generalizing n with
  | case1 relation name => simp [Term.numbered, Term.columns]
  | case2 operator left right one two => simp [Term.numbered, Term.columns, one, two]
  | case3 function operand ih => simp [Term.numbered, Term.columns, ih]
  | case4 term noColumn noBinary noAggregate =>
    cases term <;> simp_all [Term.numbered, Term.columns]

theorem nested_numbered (term : Term ρ Unit) (n : Nat) :
    List.Forall₂ (fun before after => ∃ k, after = (before.numbered k).1)
      term.nested (term.numbered n).1.nested := by
  fun_induction Term.nested term generalizing n with
  | case1 operator left right one two =>
    simp only [Term.numbered, Term.nested]
    exact List.rel_append (one n) (two _)
  | case2 function operand ih =>
    simp only [Term.numbered, Term.nested]
    exact ih n
  | case3 number statement =>
    simp only [Term.numbered, Term.nested]
    exact .cons ⟨n + 1, rfl⟩ .nil
  | case4 term noBinary noAggregate noSubquery =>
    cases term <;> simp_all [Term.numbered, Term.nested]

end Term

def Expr.queries : Expr → List Query
  | .access ⟨_, _, .value expr⟩ _ => expr.queries
  | .compose _ composition => composition.queries
  | .binary _ left right _ => left.queries ++ right.queries
  | .aggregate _ operand => operand.queries
  | .query nested => [nested]
  | _ => []

theorem plan_queries :
    (∀ expr scope planned, Expr.plan expr scope = .ok planned →
      List.Forall₂ (fun q plan => q.plan = .ok plan) expr.queries planned.term.nested) ∧
    ∀ expr scope path hops, Expr.navigate expr scope = .ok (path, hops) → True := by
  refine plan_induction ?literal ?mapped ?calculated ?compose ?binary ?countAll ?aggregate ?column
    ?query ?followed ?chained
  case literal => intros; exact .nil
  case mapped => intros; exact .nil
  case calculated =>
    intro domain name expr side scope path planned _ _ ih
    exact ih
  case compose =>
    intro reference composition scope path hops planned _ ih
    exact ih
  case binary =>
    intro operator left right type scope first second one two
    exact List.rel_append one two
  case countAll => intros; exact .nil
  case aggregate =>
    intro function operand scope planned ih
    exact ih
  case column => intros; exact .nil
  case query =>
    intro nested scope plan made
    exact .cons made .nil
  case followed => intros; trivial
  case chained => intros; trivial

theorem plan_reaches :
    (∀ expr scope planned, Expr.plan expr scope = .ok planned →
      ∀ read ∈ planned.term.columns, read.1 ∈ scope.paths ++ (expr.legs scope).map Leg.path) ∧
    ∀ expr scope path hops, Expr.navigate expr scope = .ok (path, hops) →
      path = expr.arrival scope := by
  refine plan_induction ?literal ?mapped ?calculated ?compose ?binary ?countAll ?aggregate ?column
    ?query ?followed ?chained
  case literal => intros; contradiction
  case mapped =>
    intro domain name owner column type side scope path found read member
    cases List.mem_singleton.mp member
    exact List.mem_append_left _ (locate_place found ▸ place_paths)
  case calculated =>
    intro domain name expr side scope path planned _ found ih read member
    rcases List.mem_append.mp (ih read member) with here | beyond
    · cases List.mem_singleton.mp here
      exact List.mem_append_left _ (locate_place found ▸ place_paths)
    · rw [Expr.legs, ← locate_place found]
      exact List.mem_append_right _ beyond
  case compose =>
    intro reference composition scope path hops planned led ih read member
    rw [Expr.legs, List.map_append, ← List.append_assoc, ← led]
    rcases List.mem_append.mp (ih read member) with here | beyond
    · cases List.mem_singleton.mp here
      exact List.mem_append_left _ (led ▸ arrival_route reference scope)
    · exact List.mem_append_right _ beyond
  case binary =>
    intro operator left right type scope first second one two read member
    rw [Expr.legs, List.map_append]
    rcases List.mem_append.mp member with inLeft | inRight
    · have reached := one read inLeft
      simp only [List.mem_append] at reached ⊢
      tauto
    · have reached := two read inRight
      simp only [List.mem_append] at reached ⊢
      tauto
  case countAll => intros; contradiction
  case aggregate =>
    intro function operand scope planned ih
    simpa [Expr.legs, Term.columns] using ih
  case column =>
    intro domain name type scope path found read member
    cases List.mem_singleton.mp member
    exact List.mem_append_left _ (locate_place found ▸ place_paths)
  case query => intros; contradiction
  case followed =>
    intro domain name target table condition side scope parent found
    rw [Expr.arrival, locate_place found]
  case chained =>
    rintro reference composition scope inner path hops more rfl rfl
    rw [Expr.arrival]

theorem aliasedClauses_parts (names : AliasTable) (clauses : List (Clause Path ν)) :
    aliasedClauses names clauses =
      clauses.map fun clause => ⟨clause.role.map names.name, clause.term.aliased names⟩ := by
  induction clauses with
  | nil => rfl
  | cons clause rest ih =>
    obtain ⟨role, term⟩ := clause
    rw [aliasedClauses, ih, List.map_cons]

-- Every clause is numbered on its own, from a count that it finds.
theorem numberedClauses_parts (clauses : List (Clause ρ Unit)) (n : Nat) :
    List.Forall₂ (fun before after => after.role = before.role ∧ ∃ k, n ≤ k ∧
      k ≤ (numberedClauses clauses n).2 ∧ after.term = (before.term.numbered k).1)
      clauses (numberedClauses clauses n).1 := by
  induction clauses generalizing n with
  | nil => exact .nil
  | cons clause rest ih =>
    obtain ⟨role, term⟩ := clause
    rw [numberedClauses]
    have first := term.numbered_grows n
    have last := numberedClauses_grows rest (term.numbered n).2
    refine .cons ⟨rfl, n, Nat.le_refl n, Nat.le_trans first last, rfl⟩ ((ih _).imp ?_)
    rintro before after ⟨same, k, low, high, made⟩
    exact ⟨same, k, Nat.le_trans first low, high, made⟩

def Reading.Drafts (names : AliasTable) (reading : Reading) (clause : Clause String Unit) : Prop :=
  clause.role = reading.role.map names.name ∧ ∃ planned,
    reading.expr.plan reading.scope = .ok planned ∧ clause.term = planned.term.aliased names

def Reading.Writes (names : AliasTable) (reading : Reading) (clause : Clause String Nat) : Prop :=
  clause.role = reading.role.map names.name ∧
    ∃ planned k, reading.expr.plan reading.scope = .ok planned ∧
      clause.term = ((planned.term.aliased names).numbered k).1

theorem joined_alike (gives : List.Forall₂ Reading.Gives readings clauses) :
    clauses.filterMap (·.role.joined?) = readings.filterMap (·.role.joined?) := by
  induction gives with
  | nil => rfl
  | cons made _ ih => rw [List.filterMap_cons, List.filterMap_cons, made.1, ih]

theorem readings_joined (q : Query) (whole : List Leg) :
    (q.readings whole).filterMap (·.role.joined?) = whole.map Leg.path := by
  simp [Query.readings, List.filterMap_map, Role.joined?, List.filterMap_eq_map']

theorem forall₂_chain {first : α → β → Prop} {second : β → γ → Prop} {both : α → γ → Prop}
    (one : List.Forall₂ first as bs) (two : List.Forall₂ second bs cs)
    (link : ∀ a b c, first a b → second b c → both a c) : List.Forall₂ both as cs := by
  induction one generalizing cs with
  | nil => cases two; exact .nil
  | cons here _ ih =>
    cases two with
    | cons there rest => exact .cons (link _ _ _ here there) (ih rest)

theorem statement_drafted (ran : Query.statement q n = .ok (s, m)) :
    ∃ whole drafts, q.Tours whole ∧
      s.root = (AliasTable.ofPaths (q.paths whole)).name (.root q.source) ∧ s.table = q.table ∧
      List.Forall₂ (Reading.Drafts (.ofPaths (q.paths whole))) (q.readings whole) drafts ∧
      numberedClauses drafts n = (s.clauses, m) := by
  obtain ⟨⟨root, table, clauses⟩, made, ran⟩ := bind_parts ran
  cases ran
  obtain ⟨rfl, rfl, whole, tours, gives⟩ := plan_parts made
  have names : Statement.relations ⟨.root q.source, q.table, clauses⟩ = q.paths whole :=
    congrArg _ ((joined_alike gives).trans (readings_joined q whole))
  rw [names]
  refine ⟨whole, aliasedClauses (.ofPaths (q.paths whole)) clauses, tours, rfl, rfl, ?_, rfl⟩
  rw [aliasedClauses_parts, List.forall₂_map_right_iff]
  refine gives.imp ?_
  rintro reading clause ⟨role, hops, planned⟩
  exact ⟨by rw [role], _, planned, rfl⟩

theorem statement_parts (ran : Query.statement q n = .ok (s, m)) :
    ∃ whole, q.Tours whole ∧
      s.root = (AliasTable.ofPaths (q.paths whole)).name (.root q.source) ∧ s.table = q.table ∧
      List.Forall₂ (Reading.Writes (.ofPaths (q.paths whole))) (q.readings whole) s.clauses := by
  obtain ⟨whole, drafts, tours, root, table, drafted, numbered⟩ := statement_drafted ran
  refine ⟨whole, tours, root, table, ?_⟩
  have counted := numberedClauses_parts drafts n
  rw [numbered] at counted
  refine forall₂_chain drafted counted ?_
  rintro reading before after ⟨role, planned, made, term⟩ ⟨sameRole, k, _, _, written⟩
  exact ⟨by rw [sameRole, role], planned, k, made, by rw [written, term]⟩

inductive Statement.Contains {ρ ν : Type} : Statement ρ ν → Statement ρ ν → Prop where
  | self : Contains s s
  | deeper : clause ∈ outer.clauses → s ∈ clause.term.nested → Contains s part →
      Contains outer part

inductive Query.Within : Query → Query → Prop where
  | self : Within q q
  | deeper : q.Tours whole → reading ∈ q.readings whole → r ∈ reading.expr.queries →
      Within r part → Within q part

theorem forall₂_left {related : α → β → Prop} (all : List.Forall₂ related as bs)
    (member : a ∈ as) : ∃ b ∈ bs, related a b := by
  induction all with
  | nil => cases member
  | cons here _ ih =>
    rcases List.mem_cons.mp member with rfl | later
    · exact ⟨_, List.mem_cons_self, here⟩
    · obtain ⟨b, present, there⟩ := ih later
      exact ⟨b, List.mem_cons_of_mem _ present, there⟩

theorem forall₂_right {related : α → β → Prop} (all : List.Forall₂ related as bs)
    (member : b ∈ bs) : ∃ a ∈ as, related a b := by
  induction all with
  | nil => cases member
  | cons here _ ih =>
    rcases List.mem_cons.mp member with rfl | later
    · exact ⟨_, List.mem_cons_self, here⟩
    · obtain ⟨a, present, there⟩ := ih later
      exact ⟨a, List.mem_cons_of_mem _ present, there⟩

theorem clause_nested (writes : Reading.Writes names reading clause) (member : s ∈ clause.term.nested) :
    ∃ r ∈ reading.expr.queries, ∃ k l, r.statement k = .ok (s, l) := by
  obtain ⟨_, planned, k, made, term⟩ := writes
  rw [term] at member
  obtain ⟨before, listed, k, rfl⟩ := forall₂_right (Term.nested_numbered _ k) member
  rw [Term.nested_aliased] at listed
  obtain ⟨plan, present, rfl⟩ := List.mem_map.mp listed
  obtain ⟨r, inside, planned⟩ := forall₂_right (plan_queries.1 _ _ _ made) present
  exact ⟨r, inside, k, (plan.aliased.numbered k).2, by rw [Query.statement, planned]; rfl⟩

theorem forall₂_members {related : α → β → Prop} (all : List.Forall₂ related as bs) :
    List.Forall₂ (fun a b => a ∈ as ∧ b ∈ bs ∧ related a b) as bs := by
  induction all with
  | nil => exact .nil
  | cons here _ ih =>
    refine .cons ⟨List.mem_cons_self, List.mem_cons_self, here⟩ (ih.imp ?_)
    rintro a b ⟨one, two, there⟩
    exact ⟨List.mem_cons_of_mem _ one, List.mem_cons_of_mem _ two, there⟩

-- Every nested statement is the statement of a query of its own. What is proved of the statements
-- of all queries therefore holds of the nested ones as well.
theorem statement_nested (ran : Query.statement q n = .ok (s, m)) (contains : s.Contains part) :
    ∃ r k l, q.Within r ∧ r.statement k = .ok (part, l) := by
  induction contains generalizing q n m with
  | self => exact ⟨q, n, m, .self, ran⟩
  | deeper clause nested _ ih =>
    obtain ⟨whole, tours, _, _, written⟩ := statement_parts ran
    obtain ⟨reading, present, writes⟩ := forall₂_right written clause
    obtain ⟨r, inside, k, l, made⟩ := clause_nested writes nested
    obtain ⟨last, k, l, within, made⟩ := ih made
    exact ⟨last, k, l, .deeper tours present inside within, made⟩

end SemanticLayer
