import SemanticLayer.Proofs.Aliases
import SemanticLayer.Proofs.Itinerary
import SemanticLayer.Statement.Sql

namespace SemanticLayer

-- A clause before it is planned: what it is for, what it says, and where that is read.
structure Reading where
  role : Role Path
  expr : Expr
  scope : Scope

namespace Query

def paths (q : Query) (whole : List Leg) : List Path := .root q.source :: whole.map Leg.path

def grouped (q : Query) : List Projection :=
  if q.projections.any (·.isAggregate) then q.projections.filter (!·.isAggregate) else []

def Says (q : Query) (expr : Expr) : Prop :=
  expr ∈ q.projections.map (·.expr) ∨ expr ∈ q.filter

def readings (q : Query) (whole : List Leg) : List Reading :=
  q.projections.map (fun p => ⟨.select p.label, p.expr, .at (.root q.source)⟩) ++
    q.filter.toList.map (fun condition => ⟨.filter, condition, .at (.root q.source)⟩) ++
    q.grouped.map (fun p => ⟨.group, p.expr, .at (.root q.source)⟩) ++
    whole.map fun leg => ⟨.join leg.path leg.table, leg.condition, .join leg.parent leg.path⟩

end Query

def Leg.reading (leg : Leg) : Reading :=
  ⟨.join leg.path leg.table, leg.condition, .join leg.parent leg.path⟩

def Reading.Planned (reading : Reading) : Prop :=
  ∃ planned, reading.expr.plan reading.scope = .ok planned

def Query.Reaches (q : Query) (leg : Leg) : Prop :=
  ∃ before after, q.Tours (before ++ leg :: after) ∧
    ∀ earlier ∈ q.readings before, earlier.Planned

def Reading.Gives (reading : Reading) (clause : Clause Path Unit) : Prop :=
  clause.role = reading.role ∧ ∃ hops, reading.expr.plan reading.scope = .ok ⟨clause.term, hops⟩

def PlansAt (root : Path) (expr : Expr) (planned : Planned) : Prop :=
  expr.plan (.at root) = .ok planned

def PlansColumn (root : Path) (p : Projection) (column : Projection × Planned) : Prop :=
  column.1 = p ∧ PlansAt root p.expr column.2

theorem planProjections_parts (projections : List Projection)
    (ran : planProjections root projections = .ok columns) :
    List.Forall₂ (PlansColumn root) projections columns := by
  induction projections generalizing columns with
  | nil =>
    rw [planProjections] at ran
    cases ran
    exact .nil
  | cons p rest ih =>
    obtain ⟨label, expr⟩ := p
    rw [planProjections] at ran
    obtain ⟨planned, made, ran⟩ := bind_parts ran
    obtain ⟨more, madeMore, ran⟩ := bind_parts ran
    cases ran
    exact .cons ⟨rfl, made⟩ (ih madeMore)

theorem plans_hops (planned : List.Forall₂ (PlansAt root) exprs plans) :
    plans.flatMap (·.hops) = (exprs.flatMap (·.legs (.at root))).map Leg.hop := by
  induction planned with
  | nil => rfl
  | cons made _ ih =>
    rw [List.flatMap_cons, List.flatMap_cons, List.map_append, ih, plan_legs.1 _ _ _ made]

theorem columns_hops (planned : List.Forall₂ (PlansColumn root) projections columns) :
    columns.flatMap (·.2.hops) =
      (projections.flatMap (·.expr.legs (.at root))).map Leg.hop := by
  have plans : List.Forall₂ (PlansAt root) (projections.map (·.expr)) (columns.map (·.2)) := by
    rw [List.forall₂_map_left_iff, List.forall₂_map_right_iff]
    exact planned.imp fun _ _ made => made.2
  simpa [List.flatMap_map] using plans_hops plans

theorem columns_give (role : Projection → Role Path)
    (planned : List.Forall₂ (PlansColumn root) projections columns) :
    List.Forall₂ Reading.Gives (projections.map fun p => ⟨role p, p.expr, .at root⟩)
      (columns.map fun column => ⟨role column.1, column.2.term⟩) := by
  rw [List.forall₂_map_left_iff, List.forall₂_map_right_iff]
  refine planned.imp ?_
  rintro p ⟨_, planned⟩ ⟨rfl, made⟩
  exact ⟨rfl, planned.hops, made⟩

theorem columns_filtered (keep : Projection → Bool)
    (planned : List.Forall₂ (PlansColumn root) projections columns) :
    List.Forall₂ (PlansColumn root) (projections.filter keep) (columns.filter (keep ·.1)) := by
  induction planned with
  | nil => exact .nil
  | @cons p column _ _ made _ ih =>
    obtain ⟨rfl, made⟩ := made
    cases kept : keep column.1 with
    | true => simpa [List.filter_cons, kept] using ⟨⟨rfl, made⟩, ih⟩
    | false => simpa [List.filter_cons, kept] using ih

theorem plan_stages (ran : Query.plan q = .ok plan) :
    ∃ columns restriction joins,
      List.Forall₂ (PlansColumn (.root q.source)) q.projections columns ∧
      List.Forall₂ (PlansAt (.root q.source)) q.filter.toList (Option.toList restriction) ∧
      joinClauses [.root q.source] (columns.flatMap (·.2.hops) ++
        (restriction.map (·.hops)).getD []) = .ok joins ∧
      plan = ⟨.root q.source, q.table,
        columns.map (fun (p, planned) => ⟨.select p.label, planned.term⟩) ++
        restriction.toList.map (fun planned => ⟨.filter, planned.term⟩) ++
        (if q.projections.any (·.isAggregate) then
          (columns.filter (!·.1.isAggregate)).map fun (_, planned) => ⟨.group, planned.term⟩
        else []) ++ joins⟩ := by
  obtain ⟨name, source, table, projections, filter⟩ := q
  rw [Query.plan] at ran
  obtain ⟨columns, madeColumns, ran⟩ := bind_parts ran
  have planned := planProjections_parts projections madeColumns
  cases filter with
  | none =>
    obtain ⟨restriction, none_made, ran⟩ := bind_parts ran
    obtain ⟨joins, madeJoins, made⟩ := bind_parts ran
    cases none_made
    cases made
    exact ⟨columns, none, joins, planned, .nil, madeJoins, rfl⟩
  | some condition =>
    obtain ⟨restriction, some_made, ran⟩ := bind_parts ran
    obtain ⟨joins, madeJoins, made⟩ := bind_parts ran
    obtain ⟨first, filtered, rfl⟩ := map_parts some_made
    cases made
    exact ⟨columns, some first, joins, planned, .cons filtered .nil, madeJoins, rfl⟩

theorem outset_hops {restriction : Option Planned}
    (planned : List.Forall₂ (PlansColumn (.root q.source)) (Query.projections q) columns)
    (filtered : List.Forall₂ (PlansAt (.root q.source)) q.filter.toList restriction.toList) :
    columns.flatMap (·.2.hops) ++ (restriction.map (·.hops)).getD [] = q.outset.map Leg.hop := by
  have listed : (restriction.map (·.hops)).getD [] = restriction.toList.flatMap (·.hops) := by
    cases restriction <;> simp
  rw [listed, Query.outset, List.map_append, columns_hops planned, plans_hops filtered]

-- Before anything is joined the planner has seen the root, to which no leg leads.
theorem root_unseen (source : String) (leg : Leg) :
    leg.path ∈ [Path.root source] ↔ leg.path ∈ ([] : List Leg).map Leg.path := by
  simp [Leg.path, Path.extend]

-- What a plan is: the tour of its query is known, and every clause is the plan of its reading.
theorem plan_parts (ran : Query.plan q = .ok plan) :
    plan.root = .root q.source ∧ plan.table = q.table ∧
      ∃ whole, q.Tours whole ∧ List.Forall₂ Reading.Gives (q.readings whole) plan.clauses := by
  obtain ⟨columns, restriction, joins, planned, filtered, madeJoins, rfl⟩ := plan_stages ran
  rw [outset_hops planned filtered] at madeJoins
  obtain ⟨whole, tour, joined⟩ :=
    joinClauses_tour q.outset [] joins (root_unseen q.source) madeJoins
  refine ⟨rfl, rfl, whole, tour, ?_⟩
  refine List.rel_append (List.rel_append (List.rel_append ?_ ?_) ?_) ?_
  · exact columns_give (fun p => .select p.label) planned
  · rw [List.forall₂_map_left_iff, List.forall₂_map_right_iff]
    exact filtered.imp fun _ planned made => ⟨rfl, planned.hops, made⟩
  · unfold Query.grouped
    split
    · exact columns_give (fun _ => .group) (columns_filtered (!·.isAggregate) planned)
    · exact .nil
  · rw [List.forall₂_map_left_iff]
    exact joined.imp fun _ _ joins => joins

theorem grouped_selected (member : p ∈ Query.grouped q) : p ∈ q.projections := by
  unfold Query.grouped at member
  split at member
  · exact List.mem_of_mem_filter member
  · cases member

theorem readings_cases (member : reading ∈ Query.readings q whole) :
    (reading.scope = .at (.root q.source) ∧ q.Says reading.expr) ∨
      ∃ leg ∈ whole, reading = leg.reading := by
  simp only [Query.readings, List.mem_append, List.mem_map] at member
  rcases member with ((⟨p, selected, rfl⟩ | ⟨condition, filtered, rfl⟩) | ⟨p, grouped, rfl⟩) |
    ⟨leg, present, rfl⟩
  · exact .inl ⟨rfl, .inl (List.mem_map_of_mem selected)⟩
  · exact .inl ⟨rfl, .inr (Option.mem_toList.mp filtered)⟩
  · exact .inl ⟨rfl, .inl (List.mem_map_of_mem (grouped_selected grouped))⟩
  · exact .inr ⟨leg, present, rfl⟩

theorem said_reading (whole : List Leg) (said : Query.Says q expr) :
    ∃ role, ⟨role, expr, .at (.root q.source)⟩ ∈ q.readings whole := by
  simp only [Query.readings, List.mem_append, List.mem_map]
  rcases said with column | filter
  · obtain ⟨p, selected, rfl⟩ := List.mem_map.mp column
    exact ⟨_, .inl (.inl (.inl ⟨p, selected, rfl⟩))⟩
  · exact ⟨_, .inl (.inl (.inr ⟨expr, Option.mem_toList.mpr filter, rfl⟩))⟩

theorem leg_reading (q : Query) (present : leg ∈ whole) : leg.reading ∈ q.readings whole :=
  List.mem_append_right _ (List.mem_map_of_mem present)

theorem readings_append (q : Query) (before after : List Leg) :
    q.readings (before ++ after) = q.readings before ++ after.map Leg.reading := by
  rw [Query.readings, List.map_append, ← List.append_assoc]
  rfl

theorem planned_reaches (tours : Query.Tours q whole)
    (planned : ∀ reading ∈ q.readings whole, reading.Planned) : ∀ leg ∈ whole, q.Reaches leg := by
  intro leg present
  obtain ⟨before, after, rfl⟩ := List.append_of_mem present
  refine ⟨before, after, tours, fun earlier member => planned earlier ?_⟩
  rw [readings_append]
  exact List.mem_append_left _ member

theorem said_outset (said : Query.Says q expr)
    (inside : leg ∈ expr.legs (.at (.root q.source))) : leg ∈ q.outset := by
  rcases said with column | filter
  · obtain ⟨p, selected, rfl⟩ := List.mem_map.mp column
    exact List.mem_append_left _ (List.mem_flatMap.mpr ⟨p, selected, inside⟩)
  · exact List.mem_append_right _
      (List.mem_flatMap.mpr ⟨expr, Option.mem_toList.mpr filter, inside⟩)

theorem outset_cases (member : leg ∈ Query.outset q) :
    ∃ expr, q.Says expr ∧ leg ∈ expr.legs (.at (.root q.source)) := by
  rcases List.mem_append.mp member with column | filter
  · obtain ⟨p, selected, inside⟩ := List.mem_flatMap.mp column
    exact ⟨p.expr, .inl (List.mem_map_of_mem selected), inside⟩
  · obtain ⟨condition, filtered, inside⟩ := List.mem_flatMap.mp filter
    exact ⟨condition, .inr (Option.mem_toList.mp filtered), inside⟩

end SemanticLayer
