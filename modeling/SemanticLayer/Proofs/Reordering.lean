import SemanticLayer.Proofs.Faults
import SemanticLayer.Proofs.Mentions
import SemanticLayer.Proofs.Relabelling

namespace SemanticLayer

-- The order in which a query has its columns. It decides which leg comes first, and so which path
-- has to give way to another one's alias, but neither what is joined nor what is read.

-- No query is written out with it.
def Query.Flat (q : Query) : Prop := ∀ r, q.Within r → r = q

-- References of one domain that have one name are one reference.
def Query.Coherent (q : Query) : Prop :=
  ∀ one two, q.Mentions one → q.Mentions two → one.isReference = true → two.isReference = true →
    one.domain = two.domain → one.name = two.name → one = two

theorem flat_readings (flat : Query.Flat q) (tours : q.Tours whole)
    (member : reading ∈ q.readings whole) : reading.expr.queries = [] := by
  apply List.eq_nil_iff_forall_not_mem.mpr
  intro r nested
  have smaller := nested_smaller tours member nested
  rw [flat r (.deeper tours member nested .self)] at smaller
  exact Nat.lt_irrefl _ smaller

theorem legs_equal (coherent : Query.Coherent q) (first : q.Mentions (Leg.reference one))
    (second : q.Mentions (Leg.reference two)) (same : one.path = two.path) : one = two := by
  obtain ⟨parent, owner, name, target, table, condition⟩ := one
  obtain ⟨parent', owner', name', target', table', condition'⟩ := two
  simp only [Leg.path, Path.extend, Path.step.injEq] at same
  obtain ⟨_, rfl, rfl, rfl, rfl⟩ := same
  cases coherent _ _ first second rfl rfl rfl rfl
  rfl

section
variable {q r : Query} (source : r.source = q.source) (spoken : ∀ expr, r.Says expr → q.Says expr)
include source spoken

theorem outset_included (outset : leg ∈ r.outset) : leg ∈ q.outset := by
  obtain ⟨expr, said, inside⟩ := outset_cases outset
  exact said_outset (spoken expr said) (source ▸ inside)

theorem tours_included (coherent : q.Coherent) (tours : q.Tours whole) (others : r.Tours legs) :
    legs ⊆ whole := by
  have mentioned := tours_mentioned tours
  -- A leg that q would make is on the list of q under its path, and is the leg that stands there.
  have listed : ∀ leg, q.Mentions leg.reference → leg.path ∈ whole.map Leg.path → leg ∈ whole := by
    intro leg mention reached
    obtain ⟨other, present, same⟩ := List.mem_map.mp reached
    exact legs_equal coherent (mentioned other present) mention same ▸ present
  refine tours_inherit others ?_ ?_
  · intro leg outset
    have own := outset_included source spoken outset
    obtain ⟨expr, said, inside⟩ := outset_cases own
    refine listed leg ⟨expr, said, legs_mentioned expr _ inside⟩ ?_
    exact List.map_subset _ (tour_extends tours).subset (enlisted_reached q.outset [] own)
  · intro leg _ present more onward
    obtain ⟨expr, said, inside⟩ := mentioned leg present
    obtain ⟨i, at_i⟩ := List.getElem?_of_mem present
    refine listed more ⟨expr, said, ?_⟩ (tour_closed tours (Nat.zero_le i) at_i onward)
    exact mentions_condition inside (legs_mentioned leg.condition _ onward)

theorem readings_included (smaller : legs ⊆ whole) (member : reading ∈ r.readings legs) :
    ∃ other ∈ q.readings whole, other.expr = reading.expr ∧ other.scope = reading.scope := by
  rcases readings_cases member with ⟨here, said⟩ | ⟨leg, present, rfl⟩
  · obtain ⟨role, present⟩ := said_reading whole (spoken _ said)
    exact ⟨_, present, rfl, by rw [here, source]⟩
  · exact ⟨_, leg_reading q (smaller present), rfl, rfl⟩

theorem planned_included (smaller : legs ⊆ whole)
    (planned : ∀ reading ∈ q.readings whole, reading.Planned) :
    ∀ reading ∈ r.readings legs, reading.Planned := by
  intro reading member
  obtain ⟨other, present, expr, scope⟩ := readings_included source spoken smaller member
  have made := planned other present
  rwa [Reading.Planned, expr, scope] at made

theorem plain_included (smaller : legs ⊆ whole)
    (plain : ∀ reading ∈ q.readings whole, reading.expr.queries = []) :
    ∀ reading ∈ r.readings legs, reading.expr.queries = [] := by
  intro reading member
  obtain ⟨other, present, expr, _⟩ := readings_included source spoken smaller member
  exact expr ▸ plain other present

end

theorem coherent_included {q r : Query} (spoken : ∀ expr, r.Says expr → q.Says expr)
    (coherent : q.Coherent) : r.Coherent := by
  have mentions : ∀ member, r.Mentions member → q.Mentions member := by
    rintro member ⟨expr, said, inside⟩
    exact ⟨expr, spoken expr said, inside⟩
  intro one two first second
  exact coherent one two (mentions one first) (mentions two second)

theorem sqlFrom_planned (tours : Query.Tours q whole) (n : Nat) :
    (∃ made, q.sqlFrom n = .ok made) ↔ ∀ reading ∈ q.readings whole, reading.Planned := by
  constructor
  · rintro ⟨made, ran⟩ reading member
    obtain ⟨⟨s, m⟩, stated, _⟩ := bind_parts ran
    obtain ⟨plan, planned, _⟩ := bind_parts stated
    obtain ⟨_, _, legs, also, gives⟩ := plan_parts planned
    cases tour_unique tours also
    obtain ⟨clause, _, _, hops, read⟩ := forall₂_left gives member
    exact ⟨_, read⟩
  · intro planned
    cases ran : q.sqlFrom n with
    | ok made => exact ⟨made, rfl⟩
    | error error =>
      obtain ⟨before, reading, after, split, _, failed⟩ := plan_breaks tours (sqlFrom_failed ran)
      have member : reading ∈ q.readings whole := by simp [split]
      obtain ⟨_, made⟩ := planned reading member
      cases made.symm.trans failed

def Expr.written (names : AliasTable) (expr : Expr) (scope : Scope) : Term String Nat :=
  match expr.plan scope with
  | .ok planned => ((planned.term.aliased names).numbered 0).1
  | .error _ => .countAll

def Reading.clause (names : AliasTable) (reading : Reading) : Clause String Nat :=
  ⟨reading.role.map names.name, reading.expr.written names reading.scope⟩

theorem writes_clause (writes : Reading.Writes names reading clause)
    (plain : reading.expr.queries = []) : clause = reading.clause names := by
  obtain ⟨role, term⟩ := clause
  obtain ⟨rfl, planned, k, made, written⟩ := writes
  have early : reading.expr.Shows names 0 0 reading.scope (reading.expr.written names reading.scope) :=
    ⟨planned, 0, Nat.le_refl 0, Nat.le_refl 0, made, by rw [Expr.written, made]⟩
  have late : reading.expr.Shows names 0 k reading.scope term :=
    ⟨planned, k, Nat.zero_le k, Nat.le_refl k, made, written⟩
  cases (shown_twice early late).2 plain
  rfl

theorem statement_clauses (tours : Query.Tours q whole)
    (plain : ∀ reading ∈ q.readings whole, reading.expr.queries = [])
    (ran : q.statement n = .ok (s, m)) :
    s.clauses = (q.readings whole).map (Reading.clause (.ofPaths (q.paths whole))) := by
  obtain ⟨legs, also, _, _, written⟩ := statement_parts ran
  cases tour_unique tours also
  have settled := (forall₂_members written).imp
    fun reading clause ⟨member, _, writes⟩ => (writes_clause writes (plain reading member)).symm
  have same := List.forall₂_map_left_iff.mpr settled
  rw [List.forall₂_eq_eq_eq] at same
  exact same.symm

def Clause.restriction? : Clause String Nat → Option (Term String Nat)
  | ⟨.filter, term⟩ => some term
  | _ => none

def Statement.restrictions (s : Statement String Nat) : List (Term String Nat) :=
  s.clauses.filterMap Clause.restriction?

def restrictionList (terms : List (Term String Nat)) : String :=
  String.join (terms.map fun term => " WHERE " ++ term.text)

theorem restriction_text (s : Statement String Nat) :
    s.restrictionText = restrictionList s.restrictions := by
  rw [Statement.restrictionText, restrictionList, Statement.restrictions, List.map_filterMap]
  congr 2
  funext clause
  obtain ⟨role, term⟩ := clause
  cases role <;> rfl

structure Query.Spells (q : Query) (whole : List Leg) (names : AliasTable)
    (s : Statement String Nat) : Prop where
  columns : s.columns = q.projections.map fun p =>
    (p.label, p.expr.written names (.at (.root q.source)))
  restrictions : s.restrictions = q.filter.toList.map fun condition =>
    condition.written names (.at (.root q.source))
  groups : s.groups = q.grouped.map fun p => p.expr.written names (.at (.root q.source))
  joins : s.joins = whole.map fun leg => ⟨names.name leg.path, leg.table,
    leg.condition.written names (.join leg.parent leg.path)⟩

theorem clauses_spell {s : Statement String Nat}
    (clauses : s.clauses = (Query.readings q whole).map (Reading.clause names)) :
    q.Spells whole names s := by
  constructor
  · simp [Statement.columns, clauses, Query.readings, List.filterMap_map, Function.comp_def,
      Reading.clause, Role.map, Clause.column?, List.filterMap_eq_map']
  · simp [Statement.restrictions, clauses, Query.readings, List.filterMap_map, Function.comp_def,
      Reading.clause, Role.map, Clause.restriction?, List.filterMap_eq_map']
  · simp [Statement.groups, clauses, Query.readings, List.filterMap_map, Function.comp_def,
      Reading.clause, Role.map, Clause.grouped?, List.filterMap_eq_map']
  · simp [Statement.joins, clauses, Query.readings, List.filterMap_map, Function.comp_def,
      Reading.clause, Role.map, Clause.joined?, List.filterMap_eq_map']

section
variable {names others : AliasTable} {rename : String → String} (tours : Query.Tours q whole)
  (planned : ∀ reading ∈ q.readings whole, reading.Planned)
  (same : ∀ path ∈ q.paths whole, rename (names.name path) = others.name path)
include tours planned same

theorem reading_relabelled (member : reading ∈ q.readings whole) :
    reading.expr.written others reading.scope =
      (reading.expr.written names reading.scope).relabelled rename := by
  obtain ⟨plan, made⟩ := planned reading member
  rw [Expr.written, Expr.written, made]
  dsimp only
  rw [(relabelled_numbered rename _ 0).1, relabelled_aliased]
  intro read inside
  exact same _ (reading_reaches tours member made read inside)

theorem said_relabelled (said : q.Says expr) : expr.written others (.at (.root q.source)) =
    (expr.written names (.at (.root q.source))).relabelled rename := by
  obtain ⟨role, member⟩ := said_reading whole said
  exact reading_relabelled tours planned same member

theorem leg_relabelled (present : leg ∈ whole) :
    Joined.mk (others.name leg.path) leg.table
        (leg.condition.written others (.join leg.parent leg.path)) =
      Joined.relabelled rename ⟨names.name leg.path, leg.table,
        leg.condition.written names (.join leg.parent leg.path)⟩ := by
  have path := same leg.path (List.mem_cons_of_mem _ (List.mem_map_of_mem present))
  have condition : leg.condition.written others (.join leg.parent leg.path) = _ :=
    reading_relabelled tours planned same (leg_reading q present)
  rw [Joined.relabelled, path, condition]
  rfl

end

-- What stands in the one statement stands in the other one under the aliases that it has for the same
-- paths. The order of the joins is left open.
structure Query.Reorders (q r : Query) (whole legs : List Leg) (s t : Statement String Nat)
    (rename : String → String) : Prop where
  first : q.FromTour whole s
  second : r.FromTour legs t
  same : legs.Perm whole
  aliases : ∀ path ∈ q.paths whole,
    rename ((AliasTable.ofPaths (q.paths whole)).name path) =
      (AliasTable.ofPaths (r.paths legs)).name path ∧
    path.Calls ((AliasTable.ofPaths (q.paths whole)).name path) ∧
    path.Calls ((AliasTable.ofPaths (r.paths legs)).name path)
  relations : t.relations.Perm (s.relations.map rename)
  apart : (s.relations.map rename).Nodup
  root : t.root = s.root
  table : t.table = s.table
  columns : ∃ shown : Projection → Term String Nat,
    s.columns = q.projections.map (fun p => (p.label, shown p)) ∧
    t.columns = r.projections.map (fun p => (p.label, (shown p).relabelled rename)) ∧
    s.groups = q.grouped.map shown ∧
    t.groups = r.grouped.map (fun p => (shown p).relabelled rename)
  restrictions : t.restrictions = s.restrictions.map (Term.relabelled rename)
  joins : t.joins.Perm (s.joins.map (Joined.relabelled rename))

structure Query.Permutes (q r : Query) : Prop where
  name : r.name = q.name
  source : r.source = q.source
  table : r.table = q.table
  filter : r.filter = q.filter
  projections : r.projections.Perm q.projections

theorem permutes_symm (permutes : Query.Permutes q r) : r.Permutes q :=
  ⟨permutes.name.symm, permutes.source.symm, permutes.table.symm, permutes.filter.symm,
    permutes.projections.symm⟩

theorem permutes_said (permutes : Query.Permutes q r) (expr : Expr) (said : r.Says expr) :
    q.Says expr := by
  unfold Query.Says at said ⊢
  rwa [permutes.filter, (permutes.projections.map (·.expr)).mem_iff] at said

section
variable {q r : Query} (permutes : q.Permutes r) (coherent : q.Coherent)
include permutes coherent

theorem permutes_legs (tours : q.Tours whole) (others : r.Tours legs) : legs.Perm whole := by
  have there := permutes_said permutes
  have back := permutes_said (permutes_symm permutes)
  have one : legs.Nodup := (tours_distinct others).of_map
  have two : whole.Nodup := (tours_distinct tours).of_map
  refine (List.perm_ext_iff_of_nodup one two).mpr ?_
  intro leg
  constructor
  · apply tours_included permutes.source there coherent tours others
  · apply tours_included permutes.source.symm back (coherent_included there coherent) others tours

-- Whatever is wrong with one of the readings, it is wrong in either order.
theorem permutes_written (n : Nat) :
    (∃ made, q.sqlFrom n = .ok made) ↔ ∃ made, r.sqlFrom n = .ok made := by
  obtain ⟨whole, tours⟩ := tours_exist q
  obtain ⟨legs, others⟩ := tours_exist r
  have same := permutes_legs permutes coherent tours others
  have there := permutes_said permutes
  have back := permutes_said (permutes_symm permutes)
  rw [sqlFrom_planned tours, sqlFrom_planned others]
  constructor
  · apply planned_included permutes.source there same.subset
  · apply planned_included permutes.source.symm back same.symm.subset

end

section
variable {q r : Query} (permutes : q.Permutes r) (first : q.FromTour whole s)
  (second : r.FromTour legs t) (same : legs.Perm whole)
include permutes same

theorem permutes_paths : (r.paths legs).Perm (q.paths whole) := by
  rw [Query.paths, Query.paths, permutes.source]
  exact (same.map Leg.path).cons _

include first second

theorem spells_reorder (planned : ∀ reading ∈ q.readings whole, reading.Planned)
    (one : q.Spells whole (.ofPaths (q.paths whole)) s)
    (two : r.Spells legs (.ofPaths (r.paths legs)) t) :
    ∃ rename, q.Reorders r whole legs s t rename := by
  let names := AliasTable.ofPaths (q.paths whole)
  let others := AliasTable.ofPaths (r.paths legs)
  have paths := permutes_paths permutes same
  have named : ∀ path ∈ q.paths whole, names.renaming others (names.name path) = others.name path :=
    fun path member => renaming_name first.paths others member
  have said : ∀ expr, q.Says expr → expr.written others (.at (.root r.source)) =
      (expr.written names (.at (.root q.source))).relabelled (names.renaming others) := by
    rw [permutes.source]
    exact fun expr => said_relabelled first.tour planned named
  have column : ∀ p ∈ r.projections, q.Says p.expr :=
    fun p member => permutes_said permutes _ (.inl (List.mem_map_of_mem member))
  have relations : t.relations.Perm (s.relations.map (names.renaming others)) := by
    rw [first.relations, second.relations, List.map_map]
    refine (paths.map others.name).trans (List.Perm.of_eq ?_)
    exact List.map_congr_left fun path member => (named path member).symm
  refine ⟨names.renaming others, ?_⟩
  constructor
  case first => exact first
  case second => exact second
  case same => exact same
  case aliases =>
    intro path member
    exact ⟨named path member, name_calls first.paths member,
      name_calls second.paths (paths.mem_iff.mpr member)⟩
  case relations => exact relations
  case apart => exact relations.nodup_iff.mp second.labels
  case root =>
    rw [first.root, second.root, permutes.source, Query.paths, Query.paths, permutes.source,
      first_named, first_named]
  case table => rw [first.table, second.table, permutes.table]
  case columns =>
    refine ⟨fun p => p.expr.written names (.at (.root q.source)), one.columns, ?_, one.groups, ?_⟩
    · rw [two.columns]
      exact List.map_congr_left fun p member => by rw [said p.expr (column p member)]
    · rw [two.groups]
      exact List.map_congr_left fun p member => said p.expr (column p (grouped_selected member))
  case restrictions =>
    rw [one.restrictions, two.restrictions, List.map_map, permutes.filter]
    exact List.map_congr_left fun condition member => said condition (.inr (Option.mem_toList.mp member))
  case joins =>
    rw [one.joins, two.joins, List.map_map]
    refine (same.map _).trans (List.Perm.of_eq ?_)
    exact List.map_congr_left fun leg present => leg_relabelled first.tour planned named present

end

theorem permutes_reorders (permutes : Query.Permutes q r) (coherent : q.Coherent) (flat : q.Flat)
    (ran : q.statement n = .ok (s, m)) (also : r.statement n = .ok (t, k)) :
    ∃ whole legs rename, q.Reorders r whole legs s t rename := by
  obtain ⟨whole, first⟩ := statement_tour ran
  obtain ⟨legs, second⟩ := statement_tour also
  have same := permutes_legs permutes coherent first.tour second.tour
  have plain : ∀ reading ∈ q.readings whole, reading.expr.queries = [] :=
    fun reading member => flat_readings flat first.tour member
  have plainToo := plain_included permutes.source (permutes_said permutes) same.subset plain
  have planned : ∀ reading ∈ q.readings whole, reading.Planned := by
    rw [← sqlFrom_planned first.tour n]
    exact ⟨(s.text, m), by rw [Query.sqlFrom, ran]; rfl⟩
  obtain ⟨rename, reorders⟩ := spells_reorder permutes first second same planned
    (clauses_spell (statement_clauses first.tour plain ran))
    (clauses_spell (statement_clauses second.tour plainToo also))
  exact ⟨whole, legs, rename, reorders⟩

-- The columns of a query may come in any order: SQL is there for all of them or for none, and it
-- says the same under a renaming of its aliases, each of which may only lose or change its number.
theorem sql_reordered (q : Query) (flat : q.Flat) (coherent : q.Coherent) (ps : List Projection)
    (permuted : ps.Perm q.projections) (n : Nat) :
    ((∃ made, q.sqlFrom n = .ok made) ↔
      ∃ made, Query.sqlFrom { q with projections := ps } n = .ok made) ∧
    ∀ sql m other k, q.sqlFrom n = .ok (sql, m) →
      Query.sqlFrom { q with projections := ps } n = .ok (other, k) →
      ∃ s t whole legs rename,
        sql = columnList s.columns ++ s.fromText ++ restrictionList s.restrictions ++
          groupList s.groups ∧
        other = columnList t.columns ++ t.fromText ++ restrictionList t.restrictions ++
          groupList t.groups ∧
        q.Reorders { q with projections := ps } whole legs s t rename := by
  have permutes : q.Permutes { q with projections := ps } := ⟨rfl, rfl, rfl, rfl, permuted⟩
  refine ⟨permutes_written permutes coherent n, ?_⟩
  intro sql m other k ran also
  obtain ⟨⟨s, _⟩, stated, written⟩ := bind_parts ran
  obtain ⟨⟨t, _⟩, statedToo, writtenToo⟩ := bind_parts also
  cases written
  cases writtenToo
  obtain ⟨whole, legs, rename, reorders⟩ := permutes_reorders permutes coherent flat stated statedToo
  refine ⟨s, t, whole, legs, rename, ?_, ?_, reorders⟩
  · rw [← restriction_text]
    exact text_grouped s
  · rw [← restriction_text]
    exact text_grouped t

theorem flat_mentioned (said : ∀ expr, Query.Says q expr → expr.queries = [])
    (conditions : ∀ domain name target table condition,
      q.Mentions ⟨domain, name, .reference target table condition⟩ → condition.queries = []) :
    q.Flat := by
  intro r within
  cases within with
  | self => rfl
  | deeper tours member nested _ =>
    rcases readings_cases member with ⟨_, own⟩ | ⟨leg, present, rfl⟩
    · rw [said _ own] at nested
      cases nested
    · have none : leg.reading.expr.queries = [] :=
        conditions _ _ _ _ _ (tours_mentioned tours leg present)
      rw [none] at nested
      cases nested

-- Both ends of the way of a parcel have a city, and one of the two cities gives way.
namespace Parcels

def link (domain name near target : String) : Attribute :=
  ⟨domain, name, .reference target target
    (.binary .equals (.read domain near .integer) (.read target "id" .integer) .boolean)⟩

def sender : Attribute := link "parcels" "sender" "sender_id" "persons"

def receiver : Attribute := link "parcels" "receiver" "receiver_id" "persons"

def city : Attribute := link "persons" "city" "city_id" "cities"

def cityOf (person : Attribute) : Expr :=
  .compose (.access person .matching) (.compose (.access city .matching) (.read "cities" "name" .string))

def origin : Projection := ⟨"origin", cityOf sender⟩

def goal : Projection := ⟨"goal", cityOf receiver⟩

def abroad : Expr := .binary .notEquals (cityOf sender) (.literal (.string "Ulm")) .boolean

def report : Query := ⟨"report", "parcels", "parcels", [origin, goal], some abroad⟩

def reportText : String :=
  "SELECT city.name AS origin, city_1.name AS goal FROM parcels" ++
    " JOIN persons AS sender ON (parcels.sender_id = sender.id)" ++
    " JOIN cities AS city ON (sender.city_id = city.id)" ++
    " JOIN persons AS receiver ON (parcels.receiver_id = receiver.id)" ++
    " JOIN cities AS city_1 ON (receiver.city_id = city_1.id) WHERE (city.name <> 'Ulm')"

def reversedText : String :=
  "SELECT city.name AS goal, city_1.name AS origin FROM parcels" ++
    " JOIN persons AS receiver ON (parcels.receiver_id = receiver.id)" ++
    " JOIN cities AS city ON (receiver.city_id = city.id)" ++
    " JOIN persons AS sender ON (parcels.sender_id = sender.id)" ++
    " JOIN cities AS city_1 ON (sender.city_id = city_1.id) WHERE (city_1.name <> 'Ulm')"

theorem city_mentions (mentioned : (cityOf (link domain name near target)).Mentions member)
    (reference : member.isReference = true) : member = link domain name near target ∨ member = city := by
  cases mentioned with
  | reference first => exact .inl (link_mentions first reference)
  | composition rest =>
    cases rest with
    | reference second => exact .inr (link_mentions second reference)
    | composition last => simp [column_mentions _ _ _ last] at reference

theorem report_says (said : report.Says expr) :
    expr = cityOf sender ∨ expr = cityOf receiver ∨ expr = abroad := by
  have listed : expr ∈ [cityOf sender, cityOf receiver] ∨ expr ∈ some abroad := said
  simpa [or_assoc, eq_comm] using listed

theorem report_mentions (mentioned : report.Mentions member) (reference : member.isReference = true) :
    member = sender ∨ member = receiver ∨ member = city := by
  obtain ⟨expr, said, mentioned⟩ := mentioned
  rcases report_says said with rfl | rfl | rfl
  · exact (city_mentions mentioned reference).imp_right .inr
  · exact .inr (city_mentions mentioned reference)
  · cases mentioned with
    | left inside => exact (city_mentions inside reference).imp_right .inr
    | right inside => cases inside

theorem report_flat : report.Flat := by
  refine flat_mentioned ?_ ?_
  · intro expr said
    rcases report_says said with rfl | rfl | rfl <;> rfl
  · intro domain name target table condition mentioned
    rcases report_mentions mentioned rfl with same | same | same <;> cases same <;> rfl

theorem report_coherent : report.Coherent := by
  intro one two first second reference referenceToo domain name
  rcases report_mentions first reference with rfl | rfl | rfl <;>
    rcases report_mentions second referenceToo with rfl | rfl | rfl <;>
    first | rfl | simp [sender, receiver, city, link] at domain name

theorem report_reordered : report.Flat ∧ report.Coherent ∧ [goal, origin].Perm report.projections ∧
    report.sqlFrom 0 = .ok (reportText, 0) ∧
    Query.sqlFrom { report with projections := [goal, origin] } 0 = .ok (reversedText, 0) ∧
    ∃ s t whole legs rename,
      reportText = columnList s.columns ++ s.fromText ++ restrictionList s.restrictions ++
        groupList s.groups ∧
      reversedText = columnList t.columns ++ t.fromText ++ restrictionList t.restrictions ++
        groupList t.groups ∧
      report.Reorders { report with projections := [goal, origin] } whole legs s t rename := by
  have permuted : [goal, origin].Perm report.projections := .swap origin goal []
  have ran : report.sqlFrom 0 = .ok (reportText, 0) := by decide +kernel
  have also : Query.sqlFrom { report with projections := [goal, origin] } 0 =
      .ok (reversedText, 0) := by decide +kernel
  exact ⟨report_flat, report_coherent, permuted, ran, also,
    (sql_reordered report report_flat report_coherent _ permuted 0).2 _ _ _ _ ran also⟩

end Parcels

end SemanticLayer
