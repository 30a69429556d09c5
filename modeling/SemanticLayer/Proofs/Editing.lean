import SemanticLayer.Proofs.Columns
import SemanticLayer.Proofs.Scoping

namespace SemanticLayer

-- A query that is put together in its place, kept beside the domain that it is seen as. A column is
-- written into both, one after the other, and no call looks at both of them.
structure Kept where
  query : Query
  domain : Domain

abbrev Writing := EStateM Error Kept Unit

inductive Edit where
  | select (label : String) (expr : Expr)
  | setFilter (condition : Expr)
  | restrict (condition : Expr)

namespace Kept

def start (name : String) (source : Domain) : Kept := ⟨.start name source, .new name⟩

def enter (label : String) (type : ExprType) : Writing :=
  modify fun kept =>
    { kept with domain := kept.domain.insert (.mapped kept.domain.name label label type) }

def place (label : String) (expr : Expr) : Writing :=
  modify fun kept => { kept with
    query := { kept.query with projections := Query.place label expr kept.query.projections } }

def select (label : String) (expr : Expr) : Writing := do
  let q := (← get).query
  match expr.checkScope q.source with
  | .error fault => throw (.projectionOutOfScope q.name label fault)
  | .ok () =>
    enter label expr.type
    place label expr

def setFilter (condition : Expr) : Writing := do
  let q := (← get).query
  if condition.type ≠ .boolean then throw (.filterNotBoolean q.name condition.type)
  match condition.checkScope q.source with
  | .error fault => throw (.filterOutOfScope q.name fault)
  | .ok () => modify fun kept => { kept with query := { kept.query with filter := some condition } }

def restrict (condition : Expr) : Writing := do
  match (← get).query.filter with
  | none => setFilter condition
  | some filter =>
    match Expr.both filter condition with
    | .error error => throw error
    | .ok both => setFilter both

end Kept

namespace Edit

def call : Edit → Writing
  | .select label expr => Kept.select label expr
  | .setFilter condition => Kept.setFilter condition
  | .restrict condition => Kept.restrict condition

def apply (q : Query) : Edit → Except Error Query
  | .select label expr => q.select label expr
  | .setFilter condition => q.setFilter condition
  | .restrict condition => q.restrict condition

def entered (d : Domain) : Edit → Domain
  | .select label expr => d.insert (.mapped d.name label label expr.type)
  | _ => d

def added (kept : Kept) (edit : Edit) : List Projection :=
  match edit, edit.call kept with
  | .select label expr, .ok _ _ => [⟨label, expr⟩]
  | _, _ => []

end Edit

namespace Kept

def perform (kept : Kept) (edit : Edit) : Kept :=
  match edit.call kept with
  | .ok _ next => next
  | .error _ left => left

def after (name : String) (source : Domain) (edits : List Edit) : Kept :=
  edits.foldl perform (start name source)

def additions (kept : Kept) : List Edit → List Projection
  | [] => []
  | edit :: rest => edit.added kept ++ (kept.perform edit).additions rest

-- So it is between two calls. Inside a call the domain is ahead of the query.
structure Holds (label : String) (d : Domain) (columns : List Projection) (kept : Kept) : Prop where
  name : kept.query.name = label
  source : kept.query.source = d.name
  table : kept.query.table = d.table
  projections : kept.query.projections = Query.placed columns
  domain : kept.domain = kept.query.asDomain
  inScope : ∀ p ∈ columns, p.expr.checkScope d.name = .ok ()
  filter : ∀ condition ∈ kept.query.filter,
    condition.type = .boolean ∧ condition.checkScope d.name = .ok ()

end Kept

theorem reading_ran (rest : Kept → Writing) (kept : Kept) :
    (get >>= rest) kept = rest kept kept := rfl

theorem setFilter_ran (condition : Expr) (kept : Kept) :
    Kept.setFilter condition kept = match kept.query.setFilter condition with
      | .ok q => .ok () { kept with query := q }
      | .error error => .error error kept := by
  unfold Query.setFilter
  rw [Kept.setFilter, reading_ran]
  by_cases boolean : condition.type = .boolean
  · simp only [boolean, ne_eq, not_true_eq_false, ↓reduceIte]
    cases condition.checkScope kept.query.source <;> rfl
  · simp only [boolean, ne_eq, not_false_eq_true, ↓reduceIte]
    rfl

theorem call_ran (edit : Edit) (kept : Kept) :
    edit.call kept = match edit.apply kept.query with
      | .ok q => .ok () ⟨q, edit.entered kept.domain⟩
      | .error error => .error error kept := by
  cases edit with
  | select label expr =>
    rw [Edit.call, Edit.apply, Edit.entered, Query.select, Kept.select, reading_ran]
    cases expr.checkScope kept.query.source <;> rfl
  | setFilter condition => exact setFilter_ran condition kept
  | restrict condition =>
    rw [Edit.call, Edit.apply, Query.restrict, Kept.restrict, reading_ran]
    cases kept.query.filter with
    | none => exact setFilter_ran condition kept
    | some filter =>
      dsimp only
      cases Expr.both filter condition with
      | error error => rfl
      | ok both => exact setFilter_ran both kept

theorem perform_ran (kept : Kept) (edit : Edit) :
    kept.perform edit = match edit.apply kept.query with
      | .ok q => ⟨q, edit.entered kept.domain⟩
      | .error _ => kept := by
  unfold Kept.perform
  rw [call_ran]
  cases edit.apply kept.query <;> rfl

theorem added_ran (kept : Kept) (edit : Edit) :
    edit.added kept = match edit, edit.apply kept.query with
      | .select label expr, .ok _ => [⟨label, expr⟩]
      | _, _ => [] := by
  unfold Edit.added
  rw [call_ran]
  cases edit <;> cases Edit.apply kept.query _ <;> rfl

theorem start_holds (name : String) (source : Domain) :
    (Kept.start name source).Holds name source [] :=
  ⟨rfl, rfl, rfl, rfl, rfl, by simp, by simp [Kept.start, Query.start]⟩

-- What the list of the columns and the domain have in common is kept by writing to both.
theorem select_holds (holds : Kept.Holds name source columns kept)
    (made : kept.query.select label expr = .ok q) :
    Kept.Holds name source (columns ++ [⟨label, expr⟩])
      ⟨q, (Edit.select label expr).entered kept.domain⟩ := by
  obtain ⟨inside, rfl⟩ := select_parts made
  have distinct : (kept.query.projections.map (·.label)).Nodup :=
    holds.projections ▸ placed_distinct columns
  constructor
  case name => exact holds.name
  case source => exact holds.source
  case table => exact holds.table
  case projections =>
    rw [placed_concat, ← holds.projections]
  case domain =>
    rw [asDomain_place kept.query distinct, holds.domain, Edit.entered, asDomain_inserts]
  case inScope =>
    intro p member
    rcases List.mem_append.mp member with old | new
    · exact holds.inScope p old
    · rw [List.mem_singleton.mp new, ← holds.source]
      exact inside
  case filter => exact holds.filter

theorem setFilter_holds (holds : Kept.Holds name source columns kept)
    (made : kept.query.setFilter condition = .ok q) :
    Kept.Holds name source columns { kept with query := q } := by
  obtain ⟨boolean, inside, rfl⟩ := setFilter_parts made
  refine ⟨holds.name, holds.source, holds.table, holds.projections, holds.domain, holds.inScope, ?_⟩
  rintro _ ⟨⟩
  exact ⟨boolean, holds.source ▸ inside⟩

theorem perform_holds (holds : Kept.Holds name source columns kept) (edit : Edit) :
    (kept.perform edit).Holds name source (columns ++ edit.added kept) := by
  rw [perform_ran, added_ran]
  cases made : edit.apply kept.query with
  | error error => cases edit <;> simpa using holds
  | ok q =>
    cases edit with
    | select label expr => exact select_holds holds made
    | setFilter condition =>
      rw [List.append_nil]
      exact setFilter_holds holds made
    | restrict condition =>
      rw [List.append_nil]
      obtain ⟨filter, made, _⟩ := restrict_parts made
      exact setFilter_holds holds made

theorem performs_hold (holds : Kept.Holds name source columns kept) (edits : List Edit) :
    (edits.foldl Kept.perform kept).Holds name source (columns ++ kept.additions edits) := by
  induction edits generalizing kept columns with
  | nil => simpa [Kept.additions] using holds
  | cons edit rest ih =>
    rw [Kept.additions, ← List.append_assoc]
    exact ih (perform_holds holds edit)

-- However a new query is edited, and whichever of the calls fail: the domain beside the query is the
-- query seen as a domain. Every call does what the function of its name does, and one that fails
-- leaves all as it was.
theorem edits_in_step (name : String) (source : Domain) (edits : List Edit) :
    let kept := Kept.after name source edits
    let columns := (Kept.start name source).additions edits
    kept.query.name = name ∧ kept.query.source = source.name ∧ kept.query.table = source.table ∧
    kept.query.projections.map (·.label) = (columns.map (·.label)).eraseDups ∧
    (kept.query.projections.map (·.label)).Nodup ∧
    (∀ p, p ∈ kept.query.projections ↔ Latest Projection.label p columns) ∧
    kept.domain = kept.query.asDomain ∧ kept.domain.name = name ∧
    kept.domain.attributes.Perm
      (kept.query.projections.map fun p => .mapped name p.label p.label p.type) ∧
    (∀ p ∈ kept.query.projections, p.expr.checkScope source.name = .ok () ∧
      (p.expr.Built → p.expr.reads ⊆ {source.name})) ∧
    (∀ condition ∈ kept.query.filter, condition.type = .boolean ∧
      condition.checkScope source.name = .ok () ∧
      (condition.Built → condition.reads ⊆ {source.name})) ∧
    ∀ edit : Edit,
      (∀ next, edit.call kept = .ok () next → edit.apply kept.query = .ok next.query) ∧
      ∀ error left, edit.call kept = .error error left →
        edit.apply kept.query = .error error ∧ left = kept := by
  intro kept columns
  have holds : kept.Holds name source columns := performs_hold (start_holds name source) edits
  have distinct := placed_distinct columns
  have within (expr : Expr) (inside : expr.checkScope source.name = .ok ()) (built : expr.Built) :
      expr.reads ⊆ {source.name} := (checkScope_reads expr built source.name).mp inside
  rw [← holds.projections] at distinct
  refine ⟨holds.name, holds.source, holds.table, ?_, distinct, ?_, holds.domain, ?_, ?_, ?_, ?_, ?_⟩
  · rw [holds.projections, placed_labels]
  · intro p
    rw [holds.projections, placed_latest]
  · rw [holds.domain, asDomain_inserts, holds.name]
  · rw [holds.domain, ← holds.name]
    exact asDomain_attributes kept.query distinct
  · intro p member
    rw [holds.projections, placed_latest] at member
    have inside := holds.inScope p (latest_member member)
    exact ⟨inside, within p.expr inside⟩
  · intro condition present
    obtain ⟨boolean, inside⟩ := holds.filter condition present
    exact ⟨boolean, inside, within condition inside⟩
  · intro edit
    rw [call_ran]
    cases edit.apply kept.query with
    | ok q => simp
    | error error => simp

namespace Bookings

def long : Expr :=
  .binary .greaterThan (.read "bookings" "nights" .integer) (.literal (.integer 6)) .boolean

def floor : Expr := .access (.mapped "rooms" "floor" "floor" (.scalar .integer)) .matching

-- The third and the fourth fail: another domain is read, and a number is no condition.
def edits : List Edit :=
  [.select "guest" (.read "bookings" "name" .string),
    .select "stay" (.read "bookings" "nights" .integer), .select "floor" floor,
    .restrict (.read "bookings" "nights" .integer), .restrict long,
    .select "guest" (.read "bookings" "guests" .integer)]

def stays : Kept := .after "stays" ⟨"bookings", "bookings", []⟩ edits

theorem stays_in_step : (Expr.read "bookings" "guests" .integer).Built ∧
    stays.query.projections.map (·.label) = ["guest", "stay"] ∧
    ⟨"guest", .read "bookings" "guests" .integer⟩ ∈ stays.query.projections ∧
    stays.domain.attributes.Perm
      (stays.query.projections.map fun p => .mapped "stays" p.label p.label p.type) ∧
    (Expr.read "bookings" "guests" .integer).reads ⊆ {"bookings"} ∧
    ∀ error left, (Edit.select "floor" floor).call stays = .error error left → left = stays := by
  have built : (Expr.read "bookings" "guests" .integer).Built := read_built _ _ _ _
  have columns : (Kept.start "stays" ⟨"bookings", "bookings", []⟩).additions edits =
      [⟨"guest", .read "bookings" "name" .string⟩, ⟨"stay", .read "bookings" "nights" .integer⟩,
        ⟨"guest", .read "bookings" "guests" .integer⟩] := rfl
  obtain ⟨_, _, _, labels, _, latest, _, _, attributes, inScope, _, calls⟩ :=
    edits_in_step "stays" ⟨"bookings", "bookings", []⟩ edits
  rw [columns] at labels latest
  have last := (latest ⟨"guest", .read "bookings" "guests" .integer⟩).mpr (latest_last [_, _] _)
  exact ⟨built, labels, last, attributes, (inScope _ last).2 built,
    fun error left failed => ((calls (.select "floor" floor)).2 error left failed).2⟩

end Bookings

end SemanticLayer
