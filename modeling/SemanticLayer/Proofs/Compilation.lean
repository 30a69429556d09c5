import SemanticLayer.Descriptor.Basic
import SemanticLayer.Proofs.Ingestion
import SemanticLayer.Proofs.Outcomes
import SemanticLayer.Proofs.Resolution
import SemanticLayer.Statement.Sql

namespace SemanticLayer

-- All numbers of a formula are finite, and no expression stands in it that was made elsewhere.
def Formula.Plain : Formula → Prop
  | .literal value => value.Finite
  | .binary _ left right => left.Plain ∧ right.Plain
  | .aggregate _ operand => operand.Plain
  | .resolved _ => False
  | _ => True

def Query.Step.Plain : Query.Step → Prop
  | .selectFormula _ formula => formula.Plain
  | .restrict formula => formula.Plain
  | .restrictTo _ => False
  | _ => True

-- The numbers of JSON are finite.
def ExprDescriptor.Finite : ExprDescriptor → Prop
  | .literal json => ∀ value, Literal.ofJson json = .ok value → value.Finite
  | .binary _ left right => left.Finite ∧ right.Finite
  | .aggregate _ operand => operand.Finite
  | _ => True

structure Descriptor.Finite (d : Descriptor) : Prop where
  columns : ∀ p ∈ d.projections, p.expr.Finite
  filter : ∀ condition ∈ d.filter, condition.Finite

theorem formula_plain (expr : ExprDescriptor) (finite : expr.Finite)
    (made : expr.formula = .ok formula) : formula.Plain := by
  induction expr generalizing formula with
  | path text =>
    cases made
    trivial
  | literal json =>
    obtain ⟨value, read, made⟩ := bind_parts made
    cases made
    exact finite value read
  | binary operator left right one two =>
    obtain ⟨first, madeFirst, made⟩ := bind_parts made
    obtain ⟨second, madeSecond, made⟩ := bind_parts made
    cases made
    exact ⟨one finite.1 madeFirst, two finite.2 madeSecond⟩
  | aggregate function operand ih =>
    obtain ⟨inner, madeInner, made⟩ := bind_parts made
    cases made
    have plain := ih finite madeInner
    exact plain
  | aggregateAll function =>
    cases made
    trivial

theorem mapM_parts {α β : Type} {f : α → Except Error β} {results : List β} (items : List α)
    (made : items.mapM f = .ok results) :
    ∀ result ∈ results, ∃ item ∈ items, f item = .ok result := by
  induction items generalizing results with
  | nil =>
    cases made
    intro result member
    cases member
  | cons item rest ih =>
    rw [List.mapM_cons] at made
    obtain ⟨first, one, made⟩ := bind_parts made
    obtain ⟨others, more, made⟩ := bind_parts made
    cases made
    intro result member
    rcases List.mem_cons.mp member with rfl | later
    · exact ⟨item, List.mem_cons_self, one⟩
    · obtain ⟨other, present, same⟩ := ih more result later
      exact ⟨other, List.mem_cons_of_mem item present, same⟩

theorem steps_plain (d : Descriptor) (finite : d.Finite) (made : d.steps = .ok steps) :
    ∀ step ∈ steps, step.Plain := by
  obtain ⟨columns, madeColumns, made⟩ := bind_parts made
  obtain ⟨restrictions, madeRestrictions, made⟩ := bind_parts made
  cases made
  intro step member
  rcases List.mem_append.mp member with column | restriction
  · obtain ⟨p, present, made⟩ := mapM_parts d.projections madeColumns step column
    obtain ⟨formula, madeFormula, made⟩ := bind_parts made
    cases made
    exact formula_plain p.expr (finite.columns p present) madeFormula
  · obtain ⟨condition, present, made⟩ := mapM_parts _ madeRestrictions step restriction
    obtain ⟨formula, madeFormula, made⟩ := bind_parts made
    cases made
    exact formula_plain condition (finite.filter condition (Option.mem_toList.mp present))
      madeFormula

section
variable {q : Query} (source : q.source = domain) (asked : q.Asked)
include source asked

theorem select_asked (column : expr.Asked domain) (made : q.select label expr = .ok next) :
    next.source = domain ∧ next.Asked := by
  obtain ⟨_, rfl⟩ := select_parts made
  refine ⟨source, ?_, asked.filter⟩
  intro p member
  rcases place_member q.projections member with rfl | old
  · exact source.symm ▸ column
  · exact asked.columns p old

theorem restrict_asked (condition_asked : condition.Asked domain)
    (made : q.restrict condition = .ok next) : next.source = domain ∧ next.Asked := by
  obtain ⟨filter, made, same | ⟨old, filtered, joined⟩⟩ := restrict_parts made
  all_goals obtain ⟨_, _, rfl⟩ := setFilter_parts made
  · refine ⟨source, asked.columns, ?_⟩
    rintro _ ⟨⟩
    exact same ▸ source.symm ▸ condition_asked
  · refine ⟨source, asked.columns, ?_⟩
    rintro _ ⟨⟩
    obtain ⟨_, _, _, _, rfl⟩ := operation_parts joined
    exact .binary (asked.filter old filtered) (source.symm ▸ condition_asked)

end

section
variable {model : Model} (ingested : model.Ingested options schema)
include ingested

theorem walks_chain (walks : Expr.Walks model domain expr) : expr.Chain domain := by
  induction walks with
  | last known found =>
    cases domain_named known
    exact .last (ingested.attributes _ _ known _ _ found)
  | step known found _ _ ih =>
    cases domain_named known
    cases ingested.attributes _ _ known _ _ found with
    | column mapped =>
      obtain ⟨_, _, _, same⟩ := mapped
      cases same
    | reference keys => exact .step keys ih

theorem resolve_chain (known : model.domain? d.name = some d)
    (resolved : d.resolve model path = .ok expr) : expr.Chain d.name :=
  walks_chain ingested (resolve_walks known resolved)

theorem resolve_asked (known : model.domain? d.name = some d) (formula : Formula)
    (plain : formula.Plain) (resolved : formula.resolve model d = .ok expr) :
    expr.Asked d.name := by
  induction formula generalizing expr with
  | path text => exact .path (resolve_chain ingested known resolved)
  | literal value =>
    cases resolved
    exact .literal plain
  | binary operator left right one two =>
    obtain ⟨first, madeFirst, resolved⟩ := bind_parts resolved
    obtain ⟨second, madeSecond, resolved⟩ := bind_parts resolved
    obtain ⟨_, _, _, _, rfl⟩ := operation_parts resolved
    exact .binary (one plain.1 madeFirst) (two plain.2 madeSecond)
  | aggregate function operand ih =>
    obtain ⟨inner, made, resolved⟩ := bind_parts resolved
    obtain ⟨_, _, rfl⟩ := aggregated_parts resolved
    exact .aggregate (ih plain made)
  | aggregateAll function =>
    cases counted_parts resolved
    exact .countAll
  | resolved => cases plain

-- What stays true of a query over the domain while it is put together.
theorem step_asked (known : model.domain? d.name = some d) (step : Query.Step) (plain : step.Plain)
    (asked : q.source = d.name ∧ q.Asked) (made : Query.step model d q step = .ok next) :
    next.source = d.name ∧ next.Asked := by
  obtain ⟨source, asked⟩ := asked
  cases step with
  | select path =>
    obtain ⟨expr, resolved, made⟩ := bind_parts made
    exact select_asked source asked (.path (resolve_chain ingested known resolved)) made
  | selectAs label path =>
    obtain ⟨expr, resolved, made⟩ := bind_parts made
    exact select_asked source asked (.path (resolve_chain ingested known resolved)) made
  | selectFormula label formula =>
    obtain ⟨expr, resolved, made⟩ := bind_parts made
    exact select_asked source asked (resolve_asked ingested known formula plain resolved) made
  | restrict formula =>
    obtain ⟨condition, resolved, made⟩ := bind_parts made
    exact restrict_asked source asked (resolve_asked ingested known formula plain resolved) made
  | restrictTo condition => cases plain

theorem build_asked (known : model.domain? d.name = some d) (steps : List Query.Step)
    (plain : ∀ step ∈ steps, step.Plain) (made : Query.build model name d steps = .ok q) :
    q.Asked := by
  have start : (Query.start name d).source = d.name ∧ (Query.start name d).Asked :=
    ⟨rfl, by simp [Query.start], by simp [Query.start]⟩
  have last := foldlM_keeps (fun q : Query => q.source = d.name ∧ q.Asked) steps
    (fun step present _ _ asked next => step_asked ingested known step (plain step present) asked next)
    start made
  exact last.2

end

-- A descriptor that is accepted against the model of a schema gives SQL, unless a path in it ends at
-- a reference. If one does, the error names the reference at the end of the first such path.
theorem ingested_sql (schema : Schema) (options : IngestOptions)
    (distinct : (schema.tables.map fun t => options.domainName t.name).Nodup)
    (ingested : Model.empty.ingest schema options = .ok (changes, model))
    (d : Descriptor) (finite : d.Finite) (accepted : d.query model = .ok q) :
    ((∃ sql, q.sql = .ok sql) ↔ ¬ q.EndsAtReference) ∧
      ∀ error, q.sql = .error error → error.kind = .unsupported ∧
        ∃ member, q.ends.find? (·.isReference) = some member ∧
          error = .referenceAsValue member.domain member.name := by
  obtain ⟨steps, made, accepted⟩ := bind_parts accepted
  obtain ⟨source, found, built⟩ := bind_parts accepted
  have known := domain_lookup found
  have asked := build_asked (ingest_ingested schema options distinct ingested)
    ((domain_named known).symm ▸ known) steps (steps_plain d finite made) built
  have settled := sql_settles q asked
  unfold Settles at settled
  cases ending : q.ends.find? (·.isReference) with
  | none =>
    rw [ending] at settled
    obtain ⟨sql, written, _⟩ := settled
    have values : ¬ q.EndsAtReference := by
      rintro ⟨member, present, reference⟩
      exact List.find?_eq_none.mp ending member present reference
    refine ⟨⟨fun _ => values, fun _ => ⟨sql, written⟩⟩, ?_⟩
    intro error failed
    cases written.symm.trans failed
  | some member =>
    rw [ending] at settled
    have reference : q.EndsAtReference :=
      ⟨member, List.mem_of_find?_eq_some ending, List.find?_some ending⟩
    refine ⟨⟨?_, fun values => absurd reference values⟩, ?_⟩
    · rintro ⟨sql, written⟩
      cases settled.symm.trans written
    · intro error failed
      cases settled.symm.trans failed
      exact ⟨rfl, member, rfl, rfl⟩

namespace Firm

def company : Table := ⟨none, "company", [⟨"id", .integer⟩, ⟨"name", .varchar⟩]⟩

def employee : Table :=
  ⟨none, "employee", [⟨"id", .integer⟩, ⟨"company_id", .integer⟩, ⟨"manager_id", .integer⟩]⟩

def schema : Schema :=
  ⟨[company, employee], [⟨"employee", "company", [("company_id", "id")]⟩,
    ⟨"employee", "employee", [("manager_id", "id"), ("company_id", "company_id")]⟩]⟩

def options : IngestOptions := ⟨.preserve, .preserve, true⟩

def descriptor : Descriptor :=
  ⟨"bosses", "employee", [⟨"firm", .path "employee.company.name"⟩],
    some (.binary .greaterThan (.path "id") (.literal (.integer 7)))⟩

def descriptorText : String :=
  "SELECT company.name AS firm FROM employee JOIN employee AS employee_1 ON" ++
    " ((employee.manager_id = employee_1.id) AND (employee.company_id = employee_1.company_id))" ++
    " JOIN company AS company ON (employee_1.company_id = company.id) WHERE (employee.id > 7)"

theorem descriptor_finite : descriptor.Finite := by
  constructor
  · intro p member
    cases List.mem_singleton.mp member
    trivial
  · rintro _ ⟨⟩
    refine ⟨trivial, ?_⟩
    intro value read
    cases read
    trivial

theorem descriptor_sql : (schema.tables.map fun t => options.domainName t.name).Nodup ∧
    descriptor.Finite ∧ ∃ changes model q, Model.empty.ingest schema options = .ok (changes, model) ∧
      descriptor.query model = .ok q ∧ q.sql = .ok descriptorText ∧
      ((∃ sql, q.sql = .ok sql) ↔ ¬ q.EndsAtReference) ∧
      ∀ error, q.sql = .error error → error.kind = .unsupported ∧
        ∃ member, q.ends.find? (·.isReference) = some member ∧
          error = .referenceAsValue member.domain member.name := by
  have distinct : (schema.tables.map fun t => options.domainName t.name).Nodup := by
    decide +kernel
  have ran : (do
      let staged ← Model.empty.ingest schema options
      let q ← descriptor.query staged.2
      q.sql : Except Error String) = .ok descriptorText := by decide +kernel
  obtain ⟨⟨changes, model⟩, ingested, ran⟩ := bind_parts ran
  obtain ⟨q, accepted, written⟩ := bind_parts ran
  exact ⟨distinct, descriptor_finite, changes, model, q, ingested, accepted, written,
    ingested_sql schema options distinct ingested descriptor descriptor_finite accepted⟩

end Firm

end SemanticLayer
