import SemanticLayer.Proofs.JoinOrder
import SemanticLayer.Proofs.Sources

namespace SemanticLayer

def Expr.columns : Expr → List (String × String)
  | .access ⟨_, _, .value expr⟩ _ => expr.columns
  | .compose _ composition => composition.columns
  | .binary _ left right _ => left.columns ++ right.columns
  | .aggregate _ operand => operand.columns
  | .column domain name _ => [(domain, name)]
  | _ => []

def Expr.Fits (expr : Expr) (scope : Scope) : Prop :=
  ∀ head ∈ expr.heads, ∀ name path, scope.locate head.1 name head.2 = .ok path →
    path.domain = head.1

theorem fits_at (expr : Expr) (path : Path) (own : ∀ head ∈ expr.heads, head.1 = path.domain) :
    expr.Fits (.at path) := by
  intro head member name found located
  cases located
  exact (own head member).symm

theorem fits_left (fits : Expr.Fits (.binary operator left right type) scope) : left.Fits scope :=
  fun head member => fits head (List.mem_append_left _ member)

theorem fits_right (fits : Expr.Fits (.binary operator left right type) scope) : right.Fits scope :=
  fun head member => fits head (List.mem_append_right _ member)

-- In a join the accesses that name a side must be of the domain at that side.
def Leg.Marked (leg : Leg) : Prop :=
  ∀ head ∈ leg.condition.heads,
    (head.2 = .left → head.1 = leg.owner) ∧ (head.2 = .right → head.1 = leg.target)

theorem locate_matching (found : Scope.locate (.join parent child) domain name .matching = .ok path) :
    path.domain = domain := by
  simp only [Scope.locate] at found
  split at found
  · rename_i here _
    cases found
    simpa using here
  · rename_i _ here
    cases found
    simpa using here
  · cases found

theorem marked_fits (leg : Leg) (marked : leg.Marked) (based : leg.parent.domain = leg.owner) :
    leg.condition.Fits (.join leg.parent leg.path) := by
  rintro ⟨domain, side⟩ member name path found
  cases side with
  | matching => exact locate_matching found
  | left =>
    cases found
    exact based.trans ((marked _ member).1 rfl).symm
  | right =>
    cases found
    exact ((marked _ member).2 rfl).symm

def Owned (own : String × String) (read : Path × String) : Prop :=
  read.1.domain = own.1 ∧ read.2 = own.2

def Leg.Based (leg : Leg) : Prop := leg.parent.domain = leg.owner

-- What the checks have found out about domains is what the planner meets on its way.
theorem plan_owned :
    (∀ expr scope planned, Expr.plan expr scope = .ok planned → expr.Built → expr.Fits scope →
      List.Forall₂ Owned expr.columns planned.term.columns ∧ ∀ leg ∈ expr.legs scope, leg.Based) ∧
    ∀ expr scope path hops, Expr.navigate expr scope = .ok (path, hops) →
      path = expr.arrival scope ∧ (expr.Built → expr.Fits scope →
        expr.type = .domain path.domain ∧ ∀ leg ∈ expr.route scope, leg.Based) := by
  refine plan_induction ?literal ?mapped ?calculated ?compose ?binary ?countAll ?aggregate ?column
    ?query ?followed ?chained
  case literal => intros; exact ⟨.nil, by simp [Expr.legs]⟩
  case mapped =>
    intro domain name owner column type side scope path found built fits
    have same : domain = path.domain := (fits _ (List.mem_singleton_self _) name path found).symm
    have own : owner = domain := value_heads (access_built built) (List.mem_singleton_self _)
    exact ⟨.cons ⟨by simp [own, same], rfl⟩ .nil, by simp [Expr.legs]⟩
  case calculated =>
    intro domain name expr side scope path planned _ found ih built fits
    have same : domain = path.domain := (fits _ (List.mem_singleton_self _) name path found).symm
    have member := access_built built
    have inner := ih (value_built member).1
      (fits_at expr path fun head inside => (value_heads member inside).trans same)
    rw [Expr.legs, ← locate_place found]
    exact inner
  case compose =>
    rintro reference composition scope path hops planned ⟨rfl, led⟩ ih built fits
    obtain ⟨first, second, target, leads, inside⟩ := compose_built built
    obtain ⟨typed, based⟩ := led first fits
    cases leads.symm.trans typed
    obtain ⟨owned, rest⟩ := ih second
      (fits_at composition _ fun head member => source_heads composition second inside member)
    refine ⟨owned, ?_⟩
    intro leg member
    rw [Expr.legs] at member
    rcases List.mem_append.mp member with early | late
    · exact based leg early
    · exact rest leg late
  case binary =>
    intro operator left right type scope first second one two built fits
    obtain ⟨builtLeft, builtRight, _⟩ := binary_built built
    obtain ⟨ownedLeft, basedLeft⟩ := one builtLeft (fits_left fits)
    obtain ⟨ownedRight, basedRight⟩ := two builtRight (fits_right fits)
    refine ⟨List.rel_append ownedLeft ownedRight, ?_⟩
    intro leg member
    rw [Expr.legs] at member
    rcases List.mem_append.mp member with inLeft | inRight
    · exact basedLeft leg inLeft
    · exact basedRight leg inRight
  case countAll => intros; exact ⟨.nil, by simp [Expr.legs]⟩
  case aggregate =>
    intro function operand scope planned ih built fits
    rw [Expr.legs]
    exact ih (aggregate_built built).1 fits
  case column =>
    intro domain name type scope path found built fits
    have same : domain = path.domain := (fits _ (List.mem_singleton_self _) name path found).symm
    exact ⟨.cons ⟨same.symm, rfl⟩ .nil, by simp [Expr.legs]⟩
  case query => intros; exact ⟨.nil, by simp [Expr.legs]⟩
  case followed =>
    intro domain name target table condition side scope parent found
    have here := locate_place found
    refine ⟨by rw [Expr.arrival, here], ?_⟩
    intro built fits
    refine ⟨rfl, ?_⟩
    intro leg member
    rw [Expr.route] at member
    cases List.mem_singleton.mp member
    exact here ▸ fits _ (List.mem_singleton_self _) name parent found
  case chained =>
    rintro reference composition scope inner path hops more ⟨rfl, led⟩ ⟨rfl, ledOn⟩
    refine ⟨by rw [Expr.arrival], ?_⟩
    intro built fits
    obtain ⟨first, second, target, leads, inside⟩ := compose_built built
    obtain ⟨typed, based⟩ := led first fits
    cases leads.symm.trans typed
    obtain ⟨typedOn, basedOn⟩ := ledOn second
      (fits_at composition _ fun head member => source_heads composition second inside member)
    refine ⟨typedOn, ?_⟩
    intro leg member
    rw [Expr.route] at member
    rcases List.mem_append.mp member with early | late
    · exact based leg early
    · exact basedOn leg late

theorem within_trans (first : Query.Within q r) (second : r.Within part) : q.Within part := by
  induction first with
  | self => exact second
  | deeper tours reading nested _ ih => exact .deeper tours reading nested (ih second)

-- In all conditions that the query comes upon, those of the queries inside it included, the
-- accesses that name a side are of the domain at that side.
def Query.Marked (q : Query) : Prop :=
  ∀ r, q.Within r → ∀ whole, r.Tours whole → ∀ leg ∈ whole, leg.Marked

theorem root_fits (built : Query.Built q) (said : q.Says expr) :
    expr.Fits (.at (.root q.source)) := by
  obtain ⟨inner, checked⟩ := said_checked built said
  exact fits_at expr _ fun head member => checkScope_heads expr inner checked member

-- A leg that planning comes to starts where its domain is: that is known of the legs before it,
-- since their conditions have been planned, and they pass it on.
theorem reached_based (built : Query.Built q)
    (marked : ∀ whole, q.Tours whole → ∀ leg ∈ whole, leg.Marked) (reached : q.Reaches leg) :
    leg.Based := by
  obtain ⟨before, after, tours, planned⟩ := reached
  refine tours_pass tours ?_ ?_
  · intro leg outset
    obtain ⟨expr, said, inside⟩ := outset_cases outset
    obtain ⟨role, reading⟩ := said_reading before said
    obtain ⟨_, made⟩ := planned _ reading
    exact (plan_owned.1 _ _ _ made (said_checked built said).1 (root_fits built said)).2 leg inside
  · intro earlier present based more onward
    obtain ⟨_, made⟩ := planned _ (leg_reading q present)
    have listed := List.mem_append_left (leg :: after) present
    have fits := marked_fits earlier (marked _ tours earlier listed) based
    exact (plan_owned.1 _ _ _ made (tours_built built tours earlier listed) fits).2 more onward

section
variable {q : Query} (built : q.Built) (tours : q.Tours whole)
  (marked : ∀ leg ∈ whole, leg.Marked) (planned : ∀ reading ∈ q.readings whole, reading.Planned)
include built tours marked planned

theorem tours_based : ∀ leg ∈ whole, leg.Based := by
  intro leg present
  refine reached_based built ?_ (planned_reaches tours planned leg present)
  intro other toured
  cases tour_unique toured tours
  exact marked

theorem readings_fit (member : reading ∈ q.readings whole) : reading.expr.Fits reading.scope := by
  rcases readings_cases member with ⟨here, said⟩ | ⟨leg, present, rfl⟩
  · exact here ▸ root_fits built said
  · exact marked_fits leg (marked leg present) (tours_based built tours marked planned leg present)

end

-- A column that is read under an alias: one item of the statement has the alias, and the path of
-- this item ends at the domain that owns the column.
def Statement.Reads (s : Statement String Nat) (paths : List Path) (own read : String × String) :
    Prop :=
  read.2 = own.2 ∧ s.relations.count read.1 = 1 ∧
    ∃ path, (path, read.1) ∈ paths.zip s.relations ∧ path.domain = own.1

def Query.OwnsColumns (q : Query) (s : Statement String Nat) : Prop :=
  ∃ whole, q.FromTour whole s ∧
    List.Forall₂ (fun reading clause => reading.Writes (.ofPaths (q.paths whole)) clause ∧
      List.Forall₂ (s.Reads (q.paths whole)) reading.expr.columns clause.term.columns)
      (q.readings whole) s.clauses

theorem owned_reads (tour : Query.FromTour q whole s) (member : path ∈ q.paths whole)
    (owned : Owned own (path, column)) :
    s.Reads (q.paths whole) own ((AliasTable.ofPaths (q.paths whole)).name path, column) := by
  refine ⟨owned.2, ?_, path, ?_, owned.1⟩
  · apply List.count_eq_one_of_mem tour.labels
    rw [tour.relations]
    exact List.mem_map_of_mem member
  · have zipped := List.zip_map' (f := id) (g := (AliasTable.ofPaths (q.paths whole)).name)
      (l := q.paths whole)
    rw [List.map_id] at zipped
    rw [tour.relations, zipped]
    exact List.mem_map.mpr ⟨path, member, rfl⟩

theorem written_planned
    (written : List.Forall₂ (Reading.Writes names) (Query.readings q whole) clauses) :
    ∀ reading ∈ q.readings whole, reading.Planned := by
  intro reading member
  obtain ⟨clause, _, _, planned, _, made, _⟩ := forall₂_left written member
  exact ⟨planned, made⟩

theorem statement_owned (built : Query.Built q) (marked : q.Marked)
    (ran : q.statement n = .ok (s, m)) : q.OwnsColumns s := by
  obtain ⟨whole, tours, _, _, written⟩ := statement_parts ran
  obtain ⟨other, tour⟩ := statement_tour ran
  cases tour.only whole tours
  have planned := written_planned written
  refine ⟨whole, tour, (forall₂_members written).imp ?_⟩
  rintro reading clause ⟨member, _, writes⟩
  refine ⟨writes, ?_⟩
  obtain ⟨_, plan, k, made, term⟩ := writes
  have fits := readings_fit built tours (marked q .self whole tours) planned member
  have owned := (plan_owned.1 _ _ _ made (readings_built built tours member) fits).1
  rw [term, Term.columns_numbered, Term.columns_aliased, List.forall₂_map_right_iff]
  refine (forall₂_members owned).imp ?_
  rintro own ⟨path, column⟩ ⟨_, inside, same⟩
  exact owned_reads tour (reading_reaches tours member made _ inside) same

-- Every column in the SQL of a query comes from the one table whose domain owns it, and so does
-- every column of the statements inside, each in its own list of tables.
theorem sql_columns_owned (q : Query) (built : q.Built) (marked : q.Marked)
    (ran : q.sqlFrom n = .ok (sql, m)) :
    ∃ s, q.statement n = .ok (s, m) ∧ sql = s.text ∧ q.OwnsColumns s ∧
      ∀ inner, s.Contains inner → ∃ r k l,
        q.Within r ∧ r.statement k = .ok (inner, l) ∧ r.OwnsColumns inner := by
  obtain ⟨⟨s, counter⟩, made, written⟩ := bind_parts ran
  cases written
  refine ⟨s, made, rfl, statement_owned built marked made, ?_⟩
  intro inner contains
  obtain ⟨r, k, l, within, ran⟩ := statement_nested made contains
  refine ⟨r, k, l, within, ran, statement_owned (within_built within built) ?_ ran⟩
  exact fun deep inside => marked deep (within_trans within inside)

theorem marked_alone (tours : Query.Tours q whole) (marked : ∀ leg ∈ whole, leg.Marked)
    (closed : ∀ reading ∈ q.readings whole, reading.expr.queries = []) : q.Marked := by
  intro r within other toured leg present
  cases within with
  | self => exact marked leg (tour_unique tours toured ▸ present)
  | deeper also reading nested _ =>
    rw [closed _ (tour_unique tours also ▸ reading)] at nested
    cases nested

-- Employees and their managers are of one domain: the condition tells them apart by its sides.
namespace Staff

def condition : Expr :=
  .binary .equals (.access (.namesake "staff" "manager_id" .integer) .left)
    (.access (.namesake "staff" "id" .integer) .right) .boolean

def manager : Attribute := ⟨"staff", "manager", .reference "staff" "staff" condition⟩

def boss : Expr := .compose (.access manager .matching) (.read "staff" "name" .string)

def chart : Query := ⟨"chart", "staff", "staff", [⟨"boss", boss⟩], none⟩

def chartText : String :=
  "SELECT manager.name AS boss FROM staff JOIN staff AS manager ON (staff.manager_id = manager.id)"

def managerLeg : Leg := ⟨.root "staff", "staff", "manager", "staff", "staff", condition⟩

theorem manager_built : manager.Built := by
  have joined : Expr.operation .equals (.access (.namesake "staff" "manager_id" .integer) .left)
      (.access (.namesake "staff" "id" .integer) .right) = .ok condition := rfl
  have condition_built : condition.Built :=
    .operation (read_built _ _ _ _) (read_built _ _ _ _) joined
  have led : Attribute.reference "staff" "manager" "staff" "staff" condition = .ok manager := rfl
  exact .reference condition_built led

theorem chart_built : chart.Built := by
  have boss_built : boss.Built :=
    .composed (.access .matching manager_built) (read_built "staff" "name" .string .matching) rfl
  exact .select (.start "chart" ⟨"staff", "staff", []⟩) boss_built rfl

theorem chart_tour : chart.Tours [managerLeg] := .visit rfl (.finish (Nat.le_refl 1))

theorem chart_marked : chart.Marked := by
  refine marked_alone chart_tour ?_ ?_
  · intro leg member
    cases List.mem_singleton.mp member
    simp [Leg.Marked, managerLeg, condition, Expr.heads, Attribute.namesake, Attribute.mapped]
  · simp [Query.readings, Query.grouped, chart, boss, manager, Expr.read, Attribute.namesake,
      Attribute.mapped, Projection.isAggregate, Projection.type, managerLeg, condition, Expr.queries]

theorem chart_columns_owned : chart.Built ∧ chart.Marked ∧ chart.sqlFrom 0 = .ok (chartText, 0) ∧
    ∃ s, chart.statement 0 = .ok (s, 0) ∧ chartText = s.text ∧ chart.OwnsColumns s ∧
      ∀ inner, s.Contains inner → ∃ r k l,
        chart.Within r ∧ r.statement k = .ok (inner, l) ∧ r.OwnsColumns inner := by
  have ran : chart.sqlFrom 0 = .ok (chartText, 0) := by decide +kernel
  exact ⟨chart_built, chart_marked, ran, sql_columns_owned chart chart_built chart_marked ran⟩

end Staff

end SemanticLayer
