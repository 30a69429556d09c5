import SemanticLayer.Proofs.Faults
import SemanticLayer.Proofs.Narrowing
import SemanticLayer.Proofs.Resolution
import SemanticLayer.Proofs.Settling
import SemanticLayer.Proofs.Walking

namespace SemanticLayer

-- What a formula comes to reads its domain or nothing, so that its parts can always be brought
-- together: only names and types go wrong.

def Formula.hasPath : Formula → Bool
  | .path _ => true
  | .binary _ left right => left.hasPath || right.hasPath
  | .aggregate _ operand => operand.hasPath
  | _ => false

inductive Formula.Typed (m : Model) (d : Domain) : Formula → ExprType → Prop where
  | path : d.Visits m (pathSegments text) first rest →
      Typed m d (.path text) (rest.getLastD first).type
  | literal (value : Literal) : Typed m d (.literal value) (.scalar value.type)
  | binary : Typed m d left one → Typed m d right two → operator.resultType one two = .ok type →
      Typed m d (.binary operator left right) type
  | aggregate : Typed m d operand (.scalar type) →
      Typed m d (.aggregate function operand) (.aggregate (function.result type))
  | counted : Typed m d (.aggregateAll .count) (.aggregate .integer)

inductive Error.OfFormula : Error → Prop where
  | unknownDomain (name : String) : OfFormula (.unknownDomain name)
  | unknownAttribute (domain name : String) : OfFormula (.unknownAttribute domain name)
  | notAReference (domain name : String) : OfFormula (.notAReference domain name)
  | scalarOperandsRequired (operator : Operator) (left right : ExprType) :
      OfFormula (.scalarOperandsRequired operator left right)
  | scalarOperandRequired (function : AggregateFunction) (got : ExprType) :
      OfFormula (.scalarOperandRequired function got)
  | operandRequired (function : AggregateFunction) : OfFormula (.operandRequired function)

inductive Error.OfRun (query : String) : Error → Prop where
  | formula : error.OfFormula → OfRun query error
  | filter (got : ExprType) : OfRun query (.filterNotBoolean query got)

inductive Error.OfSources : Error → Prop where
  | valueComposed (got : ExprType) : OfSources (.valueComposed got)
  | compositionOutOfScope (expected : String) (got : Option Source) :
      OfSources (.compositionOutOfScope expected got)
  | sourcesDisagree (left right : Source) : OfSources (.sourcesDisagree left right)
  | definitionOutOfScope (domain name : String) (got : Source) :
      OfSources (.definitionOutOfScope domain name got)
  | projectionOutOfScope (query label : String) (fault : ScopeFault) :
      OfSources (.projectionOutOfScope query label fault)
  | filterOutOfScope (query : String) (fault : ScopeFault) :
      OfSources (.filterOutOfScope query fault)

theorem ofRun_sources (run : Error.OfRun query error) : ¬ error.OfSources := by
  intro sources
  cases sources with
  | _ => cases run with | formula cause => cases cause

-- Nothing shows from outside an expression but the domain, and no query is among its operands.
structure Expr.Local (domain : String) (expr : Expr) : Prop where
  inside : Inside domain expr.source
  enclosing : expr.enclosing = .ok expr.source

theorem local_scoped (own : Expr.Local domain expr) : expr.checkScope domain = .ok () :=
  (checkScope_inside expr domain).mpr ⟨expr.source, own.enclosing, own.inside⟩

theorem along_local (own : Attribute.domain first = domain) (rest : List Attribute) :
    (Expr.along first rest).Local domain := by
  refine ⟨.inr (own ▸ along_source first rest), ?_⟩
  cases rest <;> rfl

-- Nothing is asked of such operands but that their types are right.
theorem operation_local (operator : Operator) (one : Expr.Local domain left)
    (two : right.Local domain) :
    (∃ error, operator.resultType left.type right.type = .error error ∧
      Expr.operation operator left right = .error error) ∨
    ∃ type source, operator.resultType left.type right.type = .ok type ∧
      Source.union left.source right.source = .ok source ∧
      Expr.operation operator left right = .ok (.binary operator left right type) ∧
      (Expr.binary operator left right type).source = source ∧
      (Expr.binary operator left right type).Local domain := by
  obtain ⟨source, united, inside⟩ := inside_union one.inside two.inside
  cases typed : operator.resultType left.type right.type with
  | error error => exact .inl ⟨error, rfl, by rw [Expr.operation, united, typed]; rfl⟩
  | ok type =>
    have read : (Expr.binary operator left right type).source = source := by
      rw [Expr.source, united]
    refine .inr ⟨type, source, rfl, united, by rw [Expr.operation, united, typed]; rfl, read, ?_⟩
    refine ⟨read ▸ inside, ?_⟩
    rw [Expr.enclosing, one.enclosing, two.enclosing, read]
    simp [united, bind, Except.bind]

theorem resultType_failed (failed : Operator.resultType operator left right = .error error) :
    error = .scalarOperandsRequired operator left right := by
  unfold Operator.resultType at failed
  split at failed
  · split at failed <;> cases failed
    rfl
  · cases failed

theorem aggregated_failed (failed : Expr.aggregated function operand = .error error) :
    error.OfFormula := by
  cases operand with
  | some operand =>
    simp only [Expr.aggregated] at failed
    split at failed <;> cases failed
    exact .scalarOperandRequired function _
  | none =>
    cases function with
    | count => cases failed
    | sum | avg | min | max => cases failed; exact .operandRequired _

section
variable {m : Model} {d : Domain} (owns : m.Owns) (own : d.Owns)
include owns own

theorem path_resolved (resolved : d.resolve m text = .ok expr) :
    ∃ first rest, d.Visits m (pathSegments text) first rest ∧ expr = .along first rest := by
  obtain ⟨label, rest, split⟩ := segments_some text
  rw [resolve_walk m d split] at resolved
  rw [split]
  exact (walk_ok_iff owns own).mp resolved

theorem path_visited (visits : d.Visits m (pathSegments text) first rest) :
    d.resolve m text = .ok (.along first rest) := by
  obtain ⟨label, more, split⟩ := segments_some text
  rw [split] at visits
  rw [resolve_walk m d split]
  exact visits_walk owns own visits

theorem path_failed (failed : d.resolve m text = .error error) : error.OfFormula := by
  obtain ⟨label, rest, split⟩ := segments_some text
  rw [resolve_walk m d split] at failed
  rcases halts_cause ((walk_error_iff owns own).mp failed) with
    ⟨domain, label, _, rfl | rfl⟩ | ⟨target, _, rfl⟩
  · exact .unknownAttribute domain label
  · exact .notAReference domain label
  · exact .unknownDomain target

theorem formula_local (formula : Formula) (unresolved : formula.Unresolved)
    (made : formula.resolve m d = .ok expr) : expr.Local d.name ∧
      expr.source = (if formula.hasPath then some (.domain d.name) else none) ∧
      formula.Typed m d expr.type := by
  induction formula generalizing expr with
  | path text =>
    obtain ⟨first, rest, visits, rfl⟩ := path_resolved owns own made
    have owned := visits_owned own visits
    have typed := along_type first rest
    exact ⟨along_local owned rest, owned ▸ along_source first rest, typed ▸ .path visits⟩
  | literal value =>
    cases made
    exact ⟨⟨.inl rfl, rfl⟩, rfl, .literal value⟩
  | binary operator left right one two =>
    obtain ⟨first, madeFirst, made⟩ := bind_parts made
    obtain ⟨second, madeSecond, made⟩ := bind_parts made
    obtain ⟨localFirst, readsFirst, typedFirst⟩ := one unresolved.1 madeFirst
    obtain ⟨localSecond, readsSecond, typedSecond⟩ := two unresolved.2 madeSecond
    rcases operation_local _ localFirst localSecond with
      ⟨error, _, failed⟩ | ⟨type, source, typed, united, joined, read, within⟩
    · cases failed.symm.trans made
    · cases joined.symm.trans made
      refine ⟨within, ?_, .binary typedFirst typedSecond typed⟩
      rw [readsFirst, readsSecond] at united
      rw [read, Formula.hasPath]
      revert united
      cases left.hasPath <;> cases right.hasPath <;> simp [Source.union, eq_comm]
  | aggregate function operand ih =>
    obtain ⟨inner, madeInner, made⟩ := bind_parts made
    obtain ⟨⟨inside, enclosing⟩, reads, typed⟩ := ih unresolved madeInner
    obtain ⟨scalar, isScalar, rfl⟩ := aggregated_parts made
    rw [isScalar] at typed
    refine ⟨⟨inside, enclosing⟩, reads, ?_⟩
    rw [Expr.type, isScalar]
    exact .aggregate typed
  | aggregateAll function =>
    cases counted_function made
    cases made
    exact ⟨⟨.inl rfl, rfl⟩, rfl, .counted⟩
  | resolved expr => cases unresolved

theorem formula_failed (formula : Formula) (unresolved : formula.Unresolved)
    (failed : formula.resolve m d = .error error) : error.OfFormula := by
  induction formula generalizing error with
  | path text => exact path_failed owns own failed
  | literal value => cases failed
  | binary operator left right one two =>
    rcases bind_failed failed with failed | ⟨first, madeFirst, failed⟩
    · exact one unresolved.1 failed
    rcases bind_failed failed with failed | ⟨second, madeSecond, failed⟩
    · exact two unresolved.2 failed
    have localFirst := (formula_local owns own left unresolved.1 madeFirst).1
    have localSecond := (formula_local owns own right unresolved.2 madeSecond).1
    rcases operation_local _ localFirst localSecond with
      ⟨other, untyped, same⟩ | ⟨_, _, _, _, joined, _⟩
    · cases same.symm.trans failed
      rw [resultType_failed untyped]
      exact .scalarOperandsRequired operator first.type second.type
    · cases joined.symm.trans failed
  | aggregate function operand ih =>
    rcases bind_failed failed with failed | ⟨inner, _, failed⟩
    · exact ih unresolved failed
    · exact aggregated_failed failed
  | aggregateAll function => exact aggregated_failed failed
  | resolved expr => cases unresolved

theorem typed_formula (unresolved : Formula.Unresolved formula) (typed : formula.Typed m d type) :
    ∃ expr, formula.resolve m d = .ok expr ∧ expr.type = type := by
  induction typed with
  | path visits => exact ⟨_, path_visited owns own visits, along_type _ _⟩
  | literal value => exact ⟨.literal value, rfl, rfl⟩
  | binary _ _ result one two =>
    obtain ⟨first, madeFirst, rfl⟩ := one unresolved.1
    obtain ⟨second, madeSecond, rfl⟩ := two unresolved.2
    have localFirst := (formula_local owns own _ unresolved.1 madeFirst).1
    have localSecond := (formula_local owns own _ unresolved.2 madeSecond).1
    rcases operation_local _ localFirst localSecond with
      ⟨error, failed, _⟩ | ⟨other, _, same, _, joined, _⟩
    · cases failed.symm.trans result
    · cases same.symm.trans result
      exact ⟨_, by rw [Formula.resolve, madeFirst, madeSecond]; exact joined, rfl⟩
  | @aggregate operand scalar function _ ih =>
    obtain ⟨inner, madeInner, isScalar⟩ := ih unresolved
    refine ⟨.aggregate function inner, ?_, by rw [Expr.type, isScalar]; rfl⟩
    rw [Formula.resolve, madeInner]
    change Expr.aggregated function (some inner) = _
    simp [Expr.aggregated, isScalar]
  | counted => exact ⟨.countAll, rfl, rfl⟩

end

structure Query.Local (name domain : String) (q : Query) : Prop where
  name : q.name = name
  source : q.source = domain
  filter : ∀ condition ∈ q.filter, condition.Local domain

theorem select_local (inside : Query.Local name domain q) (own : Expr.Local domain expr)
    (label : String) : ∃ next, q.select label expr = .ok next ∧ next.Local name domain := by
  have inScope : expr.checkScope q.source = .ok () := inside.source ▸ local_scoped own
  exact ⟨{ q with projections := Query.place label expr q.projections },
    by simp [Query.select, inScope], inside.name, inside.source, inside.filter⟩

theorem setFilter_local (inside : Query.Local name domain q) (own : Expr.Local domain condition)
    (boolean : condition.type = .boolean) :
    ∃ next, q.setFilter condition = .ok next ∧ next.Local name domain := by
  have inScope : condition.checkScope q.source = .ok () := inside.source ▸ local_scoped own
  refine ⟨{ q with filter := some condition }, by simp [Query.setFilter, boolean, inScope],
    inside.name, inside.source, ?_⟩
  rintro _ ⟨⟩
  exact own

-- A filter that is narrowed is a conjunction, and that is BOOLEAN whatever is conjoined.
theorem restrict_local (inside : Query.Local name domain q) (own : Expr.Local domain condition) :
    (∃ next, q.restrict condition = .ok next ∧ next.Local name domain) ∨
      q.restrict condition = .error (.filterNotBoolean name condition.type) := by
  unfold Query.restrict
  cases filtered : q.filter with
  | none =>
    by_cases boolean : condition.type = .boolean
    · exact .inl (setFilter_local inside own boolean)
    · exact .inr (by simp [Query.setFilter, boolean, inside.name])
  | some old =>
    rcases operation_local .and (inside.filter old filtered) own with
      ⟨error, failed, _⟩ | ⟨type, _, typed, _, joined, _, both⟩
    · cases failed
    · cases typed
      dsimp only
      rw [Expr.both, joined]
      exact .inl (setFilter_local inside both rfl)

section
variable {m : Model} {d : Domain} (owns : m.Owns) (own : d.Owns)
include owns own

theorem step_local (inside : Query.Local name d.name q) (step : Query.Step)
    (unresolved : step.Unresolved) :
    (∃ next, Query.step m d q step = .ok next ∧ next.Local name d.name) ∨
      ∃ error, Query.step m d q step = .error error ∧ error.OfRun name := by
  have path (text label : String) :
      (∃ next, d.resolve m text >>= q.select label = .ok next ∧ next.Local name d.name) ∨
        ∃ error, d.resolve m text >>= q.select label = .error error ∧ error.OfRun name := by
    cases resolved : d.resolve m text with
    | ok expr =>
      obtain ⟨first, rest, visits, rfl⟩ := path_resolved owns own resolved
      exact .inl (select_local inside (along_local (visits_owned own visits) rest) label)
    | error error => exact .inr ⟨error, rfl, .formula (path_failed owns own resolved)⟩
  cases step with
  | select text => exact path text (pathAlias text)
  | selectAs label text => exact path text label
  | selectFormula label formula =>
    rw [Query.step]
    cases resolved : formula.resolve m d with
    | ok expr =>
      have within := (formula_local owns own formula unresolved resolved).1
      exact .inl (select_local inside within label)
    | error error =>
      exact .inr ⟨error, rfl, .formula (formula_failed owns own formula unresolved resolved)⟩
  | restrict formula =>
    rw [Query.step]
    cases resolved : formula.resolve m d with
    | ok expr =>
      have within := (formula_local owns own formula unresolved resolved).1
      rcases restrict_local inside within with made | failed
      · exact .inl made
      · exact .inr ⟨_, failed, .filter expr.type⟩
    | error error =>
      exact .inr ⟨error, rfl, .formula (formula_failed owns own formula unresolved resolved)⟩
  | restrictTo condition => cases unresolved

theorem steps_local (inside : Query.Local name d.name q) (steps : List Query.Step)
    (unresolved : ∀ step ∈ steps, step.Unresolved)
    (failed : steps.foldlM (Query.step m d) q = .error error) : error.OfRun name := by
  induction steps generalizing q with
  | nil => cases failed
  | cons step rest ih =>
    obtain ⟨here, later⟩ := List.forall_mem_cons.mp unresolved
    rw [List.foldlM_cons] at failed
    rcases step_local owns own inside step here with ⟨next, made, kept⟩ | ⟨cause, stopped, run⟩
    · rw [made] at failed
      exact ih kept later failed
    · rw [stopped] at failed
      cases failed
      exact run

theorem build_local (name : String) (steps : List Query.Step)
    (unresolved : ∀ step ∈ steps, step.Unresolved)
    (failed : Query.build m name d steps = .error error) : error.OfRun name :=
  steps_local owns own ⟨rfl, rfl, by simp [Query.start]⟩ steps unresolved failed

end

theorem query_local (owns : Model.Owns m) (name domain : String) (steps : List Query.Step)
    (unresolved : ∀ step ∈ steps, step.Unresolved)
    (failed : m.query name domain steps = .error error) : error.OfRun name := by
  rcases bind_failed failed with missing | ⟨d, found, failed⟩
  · unfold Model.lookup at missing
    split at missing <;> cases missing
    exact .formula (.unknownDomain domain)
  · exact build_local owns (owns domain d (domain_lookup found)) name steps unresolved failed

theorem settled_unresolved (expr : ExprDescriptor) (settled : expr.formula = .ok formula) :
    formula.Unresolved := by
  induction expr generalizing formula with
  | path | aggregateAll =>
    cases settled
    trivial
  | literal json =>
    obtain ⟨value, _, settled⟩ := bind_parts settled
    cases settled
    trivial
  | binary operator left right one two =>
    obtain ⟨first, settledFirst, settled⟩ := bind_parts settled
    obtain ⟨second, settledSecond, settled⟩ := bind_parts settled
    cases settled
    exact ⟨one settledFirst, two settledSecond⟩
  | aggregate function operand ih =>
    obtain ⟨inner, settledInner, settled⟩ := bind_parts settled
    cases settled
    have unresolved := ih settledInner
    exact unresolved

theorem column_unresolved (settled : ProjectionDescriptor.step p = .ok step) : step.Unresolved := by
  obtain ⟨formula, read, same⟩ := bind_parts settled
  cases same
  exact settled_unresolved p.expr read

theorem restriction_unresolved (settled : ExprDescriptor.restriction condition = .ok step) :
    step.Unresolved := by
  obtain ⟨formula, read, same⟩ := bind_parts settled
  cases same
  exact settled_unresolved condition read

theorem described_local (owns : Model.Owns m) (q : Descriptor) (failed : q.query m = .error error) :
    error.OfRun q.name ∨ ∃ json : Json, error = .unsupportedLiteral json.compact := by
  cases first : q.literals.find? Json.untyped with
  | some json => exact .inr ⟨json, by cases (query_untyped m q first).symm.trans failed; rfl⟩
  | none =>
    obtain ⟨columns, restrictions, made, eachColumn, eachRestriction⟩ := steps_typed q first
    rw [Descriptor.query, made] at failed
    refine .inl (query_local owns q.name q.source (columns ++ restrictions) ?_ failed)
    intro step member
    rcases List.mem_append.mp member with column | restriction
    · obtain ⟨p, _, settled⟩ := forall₂_right eachColumn column
      exact column_unresolved settled
    · obtain ⟨condition, _, settled⟩ := forall₂_right eachRestriction restriction
      exact restriction_unresolved settled

-- A formula that has a type comes to an expression of this type. Any other ends in a name that is not
-- found, a name that is no reference or operands of the wrong type, and a query that is made of such
-- formulas ends in no other way either, but that its filter may not be BOOLEAN, or a literal may have
-- no type. Formulas that hold an expression that was made elsewhere are left out.
theorem formulas_typed (operations : List Model.Operation)
    (registered : ∀ d, .register d ∈ operations → Domain.Formed d) (d : Domain) (formed : d.Formed) :
    (∀ formula : Formula, formula.Unresolved →
      (∀ type, formula.Typed (Model.after operations) d type ↔
        ∃ expr, formula.resolve (Model.after operations) d = .ok expr ∧ expr.type = type) ∧
      (∀ expr, formula.resolve (Model.after operations) d = .ok expr →
        expr.source = if formula.hasPath then some (.domain d.name) else none) ∧
      ∀ error, formula.resolve (Model.after operations) d = .error error → error.OfFormula) ∧
    (∀ name steps error, (∀ step ∈ steps, Query.Step.Unresolved step) →
      (Query.build (Model.after operations) name d steps = .error error → error.OfRun name) ∧
      ∀ domain, (Model.after operations).query name domain steps = .error error →
        error.OfRun name) ∧
    (∀ (q : Descriptor) error, q.query (Model.after operations) = .error error →
      error.OfRun q.name ∨ ∃ json : Json, error = .unsupportedLiteral json.compact) ∧
    ∀ (error : Error) name, error.OfRun name → ¬ error.OfSources := by
  have owns := sound_owns (after_sound operations registered)
  have own := formed_owns formed
  refine ⟨?_, ?_, fun q error => described_local owns q, fun error name => ofRun_sources⟩
  · intro formula unresolved
    refine ⟨fun type => ⟨typed_formula owns own unresolved, ?_⟩, ?_, ?_⟩
    · rintro ⟨expr, made, rfl⟩
      exact (formula_local owns own formula unresolved made).2.2
    · exact fun expr made => (formula_local owns own formula unresolved made).2.1
    · exact fun error => formula_failed owns own formula unresolved
  · intro name steps error unresolved
    exact ⟨build_local owns own name steps unresolved,
      fun domain => query_local owns name domain steps unresolved⟩

namespace Crew

def employed : Formula :=
  .binary .equals (.path "host.boss.works_for.name") (.literal (.string "Acme"))

def bosses : Formula := .aggregate .max (.path "boss")

def numbers : List Query.Step := [.select "host.id", .selectFormula "employed" employed,
  .restrict (.path "id")]

theorem visitor_typed : employed.Unresolved ∧
    (∃ expr, employed.resolve (Model.after operations) visitor = .ok expr ∧ expr.type = .boolean ∧
      expr.source = some (.domain "visitor")) ∧
    (∃ error, bosses.resolve (Model.after operations) visitor = .error error ∧ error.OfFormula) ∧
    (∀ step ∈ numbers, step.Unresolved) ∧
    (∃ error, Query.build (Model.after operations) "report" visitor numbers = .error error ∧
      error.OfRun "report" ∧ ¬ error.OfSources) := by
  have unresolved : employed.Unresolved := ⟨trivial, trivial⟩
  have steps : ∀ step ∈ numbers, step.Unresolved := by
    simp only [numbers, List.forall_mem_cons, List.not_mem_nil, false_implies, implies_true, and_true]
    exact ⟨trivial, unresolved, trivial⟩
  obtain ⟨formulas, runs, _, apart⟩ :=
    formulas_typed operations operations_registered visitor visitor_formed
  obtain ⟨typed, reads, _⟩ := formulas employed unresolved
  have walk : visitor.Visits (Model.after operations) ["host", "boss", "works_for", "name"] host
      [boss, worksFor, name] :=
    .step rfl rfl rfl (.step rfl rfl rfl (.step rfl rfl rfl (.last rfl)))
  have boolean : employed.Typed (Model.after operations) visitor .boolean :=
    .binary (.path walk) (.literal (.string "Acme")) rfl
  obtain ⟨expr, made, isBoolean⟩ := (typed .boolean).mp boolean
  have stopped : Query.build (Model.after operations) "report" visitor numbers =
      .error (.filterNotBoolean "report" (.scalar .integer)) := rfl
  have run := (runs "report" numbers _ steps).1 stopped
  exact ⟨unresolved, ⟨expr, made, isBoolean, reads expr made⟩,
    ⟨_, rfl, (formulas bosses trivial).2.2 _ rfl⟩, steps, _, stopped, run, apart _ _ run⟩

end Crew

end SemanticLayer
