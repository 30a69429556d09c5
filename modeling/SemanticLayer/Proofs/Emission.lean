import SemanticLayer.Proofs.Formation
import SemanticLayer.Proofs.JoinOrder

namespace SemanticLayer

def Statement.Earlier (s : Statement String Nat) (before : List Joined) (item : Joined)
    (label : String) : Prop :=
  label = item.label ∨ label ∈ s.root :: before.map Joined.label

def Query.Follows (q : Query) (whole : List Leg) (item : Joined) (label : String) : Prop :=
  ∃ leg ∈ whole, JoinWrites (.ofPaths (q.paths whole)) leg item ∧
    ∃ more ∈ leg.onward, more.path ∈ whole.map Leg.path ∧
      label = (AliasTable.ofPaths (q.paths whole)).name more.path

def Query.EmitsConditions (q : Query) (s : Statement String Nat) : Prop :=
  ∃ whole, q.FromTour whole s ∧
    ∀ before item after, s.joins = before ++ item :: after → ∀ used ∈ item.condition.columns,
      s.Earlier before item used.1 ∨ q.Follows whole item used.1

theorem forall₂_split {related : α → β → Prop} (before : List β)
    (all : List.Forall₂ related as (before ++ b :: after)) :
    ∃ first a rest, as = first ++ a :: rest ∧ List.Forall₂ related first before ∧ related a b := by
  induction before generalizing as with
  | nil =>
    cases all with
    | @cons a _ rest _ here later => exact ⟨[], a, rest, rfl, .nil, here⟩
  | cons _ before ih =>
    cases all with
    | @cons first _ _ _ here later =>
      obtain ⟨firsts, a, rest, rfl, earlier, same⟩ := ih later
      exact ⟨first :: firsts, a, rest, rfl, .cons here earlier, same⟩

theorem parent_named (names : AliasTable) (member : path ∈ Query.paths q before) :
    names.name path ∈ names.name (.root q.source) :: before.map fun leg => names.name leg.path := by
  have named := List.mem_map_of_mem (f := names.name) member
  rw [Query.paths, List.map_cons, List.map_map] at named
  exact named

theorem condition_emitted (tour : Query.FromTour q whole s)
    (split : s.joins = before ++ item :: after) (member : used ∈ item.condition.columns) :
    s.Earlier before item used.1 ∨ q.Follows whole item used.1 := by
  have joins := tour.joins
  rw [split] at joins
  obtain ⟨first, leg, rest, rfl, earlier, written⟩ := forall₂_split before joins
  obtain ⟨label, table, planned, k, made, condition⟩ := written
  rw [condition, Term.columns_numbered, Term.columns_aliased] at member
  obtain ⟨read, inside, rfl⟩ := List.mem_map.mp member
  rcases List.mem_append.mp (plan_reaches.1 _ _ _ made read inside) with ends | beyond
  · simp only [Scope.paths, List.mem_cons, List.not_mem_nil, or_false] at ends
    rcases ends with parent | child
    · left
      right
      rw [tour.root, labels_written earlier, parent]
      exact parent_named _ (tour.parents first leg rest rfl)
    · left
      left
      rw [child, label]
  · right
    obtain ⟨more, onward, same⟩ := List.mem_map.mp beyond
    have present : leg ∈ first ++ leg :: rest := by simp
    obtain ⟨i, at_i⟩ := List.getElem?_of_mem present
    exact ⟨leg, present, ⟨label, table, planned, k, made, condition⟩, more, onward,
      tour_closed tour.tour (Nat.zero_le i) at_i onward, by rw [same]⟩

-- A condition names its own table, a table that stands before it, or a table that it leads to
-- itself. What it leads to is put on the list by the condition, and so stands after it unless it
-- has been there.
theorem sql_conditions_emitted (q : Query) (ran : q.sqlFrom n = .ok (sql, m)) :
    ∃ s, q.statement n = .ok (s, m) ∧ sql = s.selectText ++ s.fromText ++ s.tailText ∧
      q.EmitsConditions s ∧ ∀ inner, s.Contains inner → ∃ r k l,
        q.Within r ∧ r.statement k = .ok (inner, l) ∧ r.EmitsConditions inner := by
  obtain ⟨⟨s, counter⟩, made, written⟩ := bind_parts ran
  cases written
  refine ⟨s, made, text_layout s, ?_, ?_⟩
  · obtain ⟨whole, tour⟩ := statement_tour made
    exact ⟨whole, tour, fun _ _ _ split _ member => condition_emitted tour split member⟩
  · intro inner contains
    obtain ⟨r, k, l, within, ran⟩ := statement_nested made contains
    obtain ⟨whole, tour⟩ := statement_tour ran
    exact ⟨r, k, l, within, ran, whole, tour,
      fun _ _ _ split _ member => condition_emitted tour split member⟩

namespace Shops

theorem report_conditions_emitted : report.sqlFrom 0 = .ok (reportText, 0) ∧
    ∃ s, report.statement 0 = .ok (s, 0) ∧
      reportText = s.selectText ++ s.fromText ++ s.tailText ∧ report.EmitsConditions s ∧
      ∀ inner, s.Contains inner → ∃ r k l,
        report.Within r ∧ r.statement k = .ok (inner, l) ∧ r.EmitsConditions inner := by
  have ran : report.sqlFrom 0 = .ok (reportText, 0) := by decide +kernel
  exact ⟨ran, sql_conditions_emitted report ran⟩

theorem report_built : report.Built := by
  have linked : Expr.operation .equals (.read "orders" "warehouse_id" .integer)
      (.read "warehouses" "id" .integer) = .ok sameId := rfl
  have sameId_built : sameId.Built := .operation (read_built _ _ _ _) (read_built _ _ _ _) linked
  have warehouse_led : Attribute.reference "orders" "warehouse" "warehouses" "warehouses" sameId =
      .ok warehouse := rfl
  have warehouse_built : warehouse.Built := .reference sameId_built warehouse_led
  have region_built : region.Built :=
    .composed (.access .matching warehouse_built)
      (read_built "warehouses" "region" .string .matching) rfl
  have matched : Expr.operation .equals region
      (.read "shops" "region" .string) = .ok sameRegion := rfl
  have sameRegion_built : sameRegion.Built := .operation region_built (read_built _ _ _ _) matched
  have shop_led : Attribute.reference "orders" "shop" "shops" "shops" sameRegion = .ok shop := rfl
  have shop_built : shop.Built := .reference sameRegion_built shop_led
  have name_built : shopName.Built :=
    .composed (.access .matching shop_built) (read_built "shops" "name" .string .matching) rfl
  exact .select (.start "report" ⟨"orders", "orders", []⟩) name_built rfl

-- The shop is joined under a condition on the warehouse, and the warehouse is joined after it.
theorem report_warehouse_later : ¬ ∀ q : Query, q.Built → ∀ n s m, q.statement n = .ok (s, m) →
    ∀ before item after, s.joins = before ++ item :: after →
      ∀ used ∈ item.condition.columns, s.Earlier before item used.1 := by
  intro always
  have shown : (report.statement 0).toOption.map (fun made =>
      (made.1.root, made.1.joins.map fun item => (item.label, item.condition.columns))) =
      some ("orders", [("shop", [("warehouse", "region"), ("shop", "region")]),
        ("warehouse", [("orders", "warehouse_id"), ("warehouse", "id")])]) := by decide +kernel
  cases made : report.statement 0 with
  | error error =>
    rw [made] at shown
    cases shown
  | ok pair =>
    obtain ⟨s, m⟩ := pair
    rw [made] at shown
    obtain ⟨root, joins⟩ := Prod.mk.inj (Option.some.inj shown)
    obtain ⟨first, rest, split, same, _⟩ := List.map_eq_cons_iff.mp joins
    obtain ⟨label, columns⟩ := Prod.mk.inj same
    have used : (("warehouse", "region") : String × String) ∈ first.condition.columns := by
      rw [columns]
      simp
    rcases always report report_built 0 s m made [] first rest split _ used with own | before
    · rw [label] at own
      simp at own
    · have named : s.root = "orders" := root
      rw [named] at before
      simp at before

end Shops

end SemanticLayer
