import SemanticLayer.Proofs.Layout

namespace SemanticLayer

def JoinWrites (names : AliasTable) (leg : Leg) (item : Joined) : Prop :=
  item.label = names.name leg.path ∧ item.table = leg.table ∧
    ∃ planned k, leg.condition.plan (.join leg.parent leg.path) = .ok planned ∧
      item.condition = ((planned.term.aliased names).numbered k).1

-- What a statement reads, item by item, is what the tour of its query passes.
structure Query.FromTour (q : Query) (whole : List Leg) (s : Statement String Nat) : Prop where
  tour : q.Tours whole
  only : ∀ other, q.Tours other → other = whole
  paths : (q.paths whole).Nodup
  parents : ∀ before leg after, whole = before ++ leg :: after → leg.parent ∈ q.paths before
  -- Working the columns out again for the grouping puts nothing on the list.
  grouping : (q.grouped.flatMap (·.expr.legs (.at (.root q.source)))).foldl enlist
    (q.outset.foldl enlist []) = q.outset.foldl enlist []
  root : s.root = (AliasTable.ofPaths (q.paths whole)).name (.root q.source)
  table : s.table = q.table
  joins : List.Forall₂ (JoinWrites (.ofPaths (q.paths whole))) whole s.joins
  relations : s.relations = (q.paths whole).map (AliasTable.ofPaths (q.paths whole)).name
  labels : s.relations.Nodup

theorem paths_distinct (tours : Query.Tours q whole) : (q.paths whole).Nodup := by
  refine List.nodup_cons.mpr ⟨?_, tours_distinct tours⟩
  simp [Leg.path, Path.extend]

theorem parent_before (tours : Query.Tours q (before ++ leg :: after)) :
    leg.parent ∈ q.paths before :=
  grounded_split before (tours_grounded tours)

theorem parent_listed (tours : Query.Tours q whole) (present : leg ∈ whole) :
    leg.parent ∈ q.paths whole := by
  obtain ⟨before, after, rfl⟩ := List.append_of_mem present
  exact List.cons_subset_cons _ (List.map_subset _ (List.subset_append_left _ _))
    (parent_before tours)

theorem grouping_idle (q : Query) :
    (q.grouped.flatMap (·.expr.legs (.at (.root q.source)))).foldl enlist
      (q.outset.foldl enlist []) = q.outset.foldl enlist [] := by
  apply enlist_idle
  intro leg member
  obtain ⟨p, grouped, inside⟩ := List.mem_flatMap.mp member
  apply enlisted_reached
  exact said_outset (.inl (List.mem_map_of_mem (grouped_selected grouped))) inside

def Reading.joins? (reading : Reading) : Option Reading := reading.role.joined?.map fun _ => reading

def Reading.WritesJoin (names : AliasTable) (reading : Reading) (item : Joined) : Prop :=
  reading.role.map names.name = .join item.label item.table ∧
    ∃ planned k, reading.expr.plan reading.scope = .ok planned ∧
      item.condition = ((planned.term.aliased names).numbered k).1

theorem writes_join (writes : Reading.Writes names reading clause) :
    Option.Rel (Reading.WritesJoin names) reading.joins? clause.joined? := by
  obtain ⟨role, expr, scope⟩ := reading
  obtain ⟨written, term⟩ := clause
  obtain ⟨same, made⟩ := writes
  cases role with
  | join path table => cases same; exact .some ⟨rfl, made⟩
  | _ => cases same; exact .none

theorem readings_joins (q : Query) (whole : List Leg) :
    (q.readings whole).filterMap Reading.joins? = whole.map Leg.reading := by
  simp [Query.readings, List.filterMap_map, Reading.joins?, Role.joined?, Function.comp_def,
    List.filterMap_eq_map', Leg.reading]

theorem joins_written
    (written : List.Forall₂ (Reading.Writes names) (Query.readings q whole) s.clauses) :
    List.Forall₂ (JoinWrites names) whole (Statement.joins s) := by
  have joined := List.rel_filterMap (fun _ _ writes => writes_join writes) written
  rw [readings_joins, List.forall₂_map_left_iff] at joined
  refine joined.imp ?_
  rintro leg ⟨label, table, condition⟩ ⟨same, made⟩
  cases same
  exact ⟨rfl, rfl, made⟩

theorem relations_joins (s : Statement String Nat) :
    s.relations = s.root :: s.joins.map Joined.label := by
  rw [Statement.relations, Statement.joins, List.map_filterMap]
  congr 2
  funext clause
  obtain ⟨role, term⟩ := clause
  cases role <;> rfl

theorem labels_written (joins : List.Forall₂ (JoinWrites names) whole items) :
    items.map Joined.label = whole.map fun leg => names.name leg.path := by
  induction joins with
  | nil => rfl
  | cons written _ ih => rw [List.map_cons, List.map_cons, written.1, ih]

theorem statement_tour (ran : Query.statement q n = .ok (s, m)) : ∃ whole, q.FromTour whole s := by
  obtain ⟨whole, tours, root, table, written⟩ := statement_parts ran
  have relations : s.relations = (q.paths whole).map (AliasTable.ofPaths (q.paths whole)).name := by
    rw [relations_joins, root, labels_written (joins_written written), Query.paths, List.map_cons,
      List.map_map]
    rfl
  refine ⟨whole, ?_⟩
  constructor
  case tour => exact tours
  case only => exact fun other also => tour_unique tours also
  case paths => exact paths_distinct tours
  case parents => rintro before leg after rfl; exact parent_before tours
  case grouping => exact grouping_idle q
  case root => exact root
  case table => exact table
  case joins => exact joins_written written
  case relations => exact relations
  case labels => rw [relations]; exact names_distinct (paths_distinct tours)

theorem reading_reaches (tours : Query.Tours q whole) (member : reading ∈ q.readings whole)
    (made : reading.expr.plan reading.scope = .ok planned) :
    ∀ read ∈ planned.term.columns, read.1 ∈ q.paths whole := by
  intro read inside
  have reached := plan_reaches.1 _ _ _ made read inside
  rcases readings_cases member with ⟨here, said⟩ | ⟨leg, present, rfl⟩
  · rw [here] at reached
    rcases List.mem_append.mp reached with root | beyond
    · exact List.mem_singleton.mp root ▸ List.mem_cons_self
    · obtain ⟨leg, inside, same⟩ := List.mem_map.mp beyond
      have listed := enlisted_reached q.outset [] (said_outset said inside)
      exact same ▸ List.mem_cons_of_mem _ (List.map_subset _ (tour_extends tours).subset listed)
  · rcases List.mem_append.mp reached with ends | beyond
    · simp only [Leg.reading, Scope.paths, List.mem_cons, List.not_mem_nil, or_false] at ends
      rcases ends with parent | child
      · exact parent ▸ parent_listed tours present
      · exact child ▸ List.mem_cons_of_mem _ (List.mem_map_of_mem present)
    · obtain ⟨more, onward, same⟩ := List.mem_map.mp beyond
      obtain ⟨i, at_i⟩ := List.getElem?_of_mem present
      exact same ▸ List.mem_cons_of_mem _ (tour_closed tours (Nat.zero_le i) at_i onward)

-- The SQL of a query names in FROM the root and in JOIN the legs of the tour, in their order and
-- nothing else; so does every statement that is nested in it, by the tour of its own query.
theorem sql_from_tour (q : Query) (ran : q.sqlFrom n = .ok (sql, m)) :
    ∃ s, q.statement n = .ok (s, m) ∧ sql = s.selectText ++ s.fromText ++ s.tailText ∧
      (∃ whole, q.FromTour whole s) ∧
      ∀ inner, s.Contains inner → ∃ r k l whole,
        q.Within r ∧ r.statement k = .ok (inner, l) ∧ r.FromTour whole inner := by
  obtain ⟨⟨s, counter⟩, made, written⟩ := bind_parts ran
  cases written
  refine ⟨s, made, text_layout s, statement_tour made, ?_⟩
  intro inner contains
  obtain ⟨r, k, l, within, ran⟩ := statement_nested made contains
  obtain ⟨whole, tour⟩ := statement_tour ran
  exact ⟨r, k, l, whole, within, ran, tour⟩

-- The shop of an order is the one in the region of the order's warehouse: the condition of its join
-- follows a reference in its turn.
namespace Shops

def sameId : Expr :=
  .binary .equals (.read "orders" "warehouse_id" .integer)
    (.read "warehouses" "id" .integer) .boolean

def warehouse : Attribute := ⟨"orders", "warehouse", .reference "warehouses" "warehouses" sameId⟩

def region : Expr :=
  .compose (.access warehouse .matching) (.read "warehouses" "region" .string)

def sameRegion : Expr :=
  .binary .equals region (.read "shops" "region" .string) .boolean

def shop : Attribute := ⟨"orders", "shop", .reference "shops" "shops" sameRegion⟩

def shopName : Expr :=
  .compose (.access shop .matching) (.read "shops" "name" .string)

def report : Query := ⟨"report", "orders", "orders", [⟨"name", shopName⟩], none⟩

def reportText : String :=
  "SELECT shop.name AS name FROM orders JOIN shops AS shop ON (warehouse.region = shop.region)" ++
    " JOIN warehouses AS warehouse ON (orders.warehouse_id = warehouse.id)"

theorem report_from_tour : report.sqlFrom 0 = .ok (reportText, 0) ∧
    ∃ s, report.statement 0 = .ok (s, 0) ∧
      reportText = s.selectText ++ s.fromText ++ s.tailText ∧ (∃ whole, report.FromTour whole s) ∧
      ∀ inner, s.Contains inner → ∃ r k l whole,
        report.Within r ∧ r.statement k = .ok (inner, l) ∧ r.FromTour whole inner := by
  have ran : report.sqlFrom 0 = .ok (reportText, 0) := by decide +kernel
  exact ⟨ran, sql_from_tour report ran⟩

end Shops

end SemanticLayer
