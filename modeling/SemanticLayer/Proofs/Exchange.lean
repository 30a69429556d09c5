import SemanticLayer.Proofs.Columns
import SemanticLayer.Proofs.Inlining

namespace SemanticLayer

-- Two expressions that nobody can tell apart who checks them, plans them or follows them.
structure Expr.Alike (one two : Expr) : Prop where
  type : two.type = one.type
  source : two.source = one.source
  enclosing : two.enclosing = one.enclosing
  plan : ∀ scope, two.plan scope = one.plan scope
  navigate : ∀ scope, two.navigate scope = one.navigate scope

-- The places are operands, both sides of a composition, definitions of attributes, conditions of
-- references and queries among the operands.
inductive Expr.Exchanges (one two : Expr) : Expr → Expr → Prop where
  | here : Exchanges one two one two
  | same (expr : Expr) : Exchanges one two expr expr
  | definition (side : Side) : Exchanges one two expr other →
      Exchanges one two (.access ⟨domain, name, .value expr⟩ side)
        (.access ⟨domain, name, .value other⟩ side)
  | condition (side : Side) : Exchanges one two condition other →
      Exchanges one two (.access ⟨domain, name, .reference target table condition⟩ side)
        (.access ⟨domain, name, .reference target table other⟩ side)
  | compose : Exchanges one two reference other → Exchanges one two composition rest →
      Exchanges one two (.compose reference composition) (.compose other rest)
  | binary : Exchanges one two left first → Exchanges one two right second →
      Exchanges one two (.binary operator left right result) (.binary operator first second result)
  | aggregate : Exchanges one two operand other →
      Exchanges one two (.aggregate function operand) (.aggregate function other)
  | query : r.name = q.name → r.source = q.source → r.table = q.table →
      List.Forall₂ (fun p s => s.label = p.label) q.projections r.projections →
      (∀ p s, (p, s) ∈ q.projections.zip r.projections → Exchanges one two p.expr s.expr) →
      r.filter.isSome = q.filter.isSome →
      (∀ old ∈ q.filter, ∀ new ∈ r.filter, Exchanges one two old new) →
      Exchanges one two (.query q) (.query r)

def Query.Exchanges (one two : Expr) (q r : Query) : Prop :=
  Expr.Exchanges one two (.query q) (.query r)

theorem alike_refl (expr : Expr) : expr.Alike expr :=
  ⟨rfl, rfl, rfl, fun _ => rfl, fun _ => rfl⟩

theorem alike_symm (alike : Expr.Alike one two) : two.Alike one :=
  ⟨alike.type.symm, alike.source.symm, alike.enclosing.symm, fun scope => (alike.plan scope).symm,
    fun scope => (alike.navigate scope).symm⟩

theorem alike_trans (first : Expr.Alike one two) (second : two.Alike three) : one.Alike three :=
  ⟨second.type.trans first.type, second.source.trans first.source,
    second.enclosing.trans first.enclosing,
    fun scope => (second.plan scope).trans (first.plan scope),
    fun scope => (second.navigate scope).trans (first.navigate scope)⟩

-- An access plans the definition of its attribute where it is read, a column as well.
theorem value_plan (domain name : String) (expr : Expr) (side : Side) (scope : Scope) :
    (Expr.access ⟨domain, name, .value expr⟩ side).plan scope =
      scope.locate domain name side >>= fun path => expr.plan (.at path) := by
  cases expr with
  | column owner column type => rw [Expr.plan]; rfl
  | literal value => rw [Expr.plan]; intros; contradiction
  | _ =>
    rw [Expr.plan]
    intro _ _ _ equal
    cases equal

theorem alike_definition (domain name : String) (side : Side) (alike : Expr.Alike expr other) :
    (Expr.access ⟨domain, name, .value expr⟩ side).Alike (.access ⟨domain, name, .value other⟩ side) := by
  constructor
  case type => exact alike.type
  case source => rfl
  case enclosing => rfl
  case plan =>
    intro scope
    rw [value_plan, value_plan]
    simp only [alike.plan]
  case navigate => intro scope; rw [Expr.navigate, Expr.navigate]

theorem alike_condition (domain name target table : String) (side : Side)
    (alike : Expr.Alike condition other) :
    (Expr.access ⟨domain, name, .reference target table condition⟩ side).Alike
      (.access ⟨domain, name, .reference target table other⟩ side) := by
  constructor
  case type => rfl
  case source => rfl
  case enclosing => rfl
  case plan => intro scope; rw [Expr.plan, Expr.plan]
  case navigate =>
    intro scope
    rw [Expr.navigate, Expr.navigate]
    simp only [alike.plan]

theorem alike_compose (first : Expr.Alike reference other) (second : Expr.Alike composition rest) :
    (Expr.compose reference composition).Alike (.compose other rest) := by
  constructor
  case type => exact second.type
  case source => exact first.source
  case enclosing => exact congrArg Except.ok first.source
  case plan =>
    intro scope
    rw [Expr.plan, Expr.plan, first.navigate]
    simp only [second.plan]
  case navigate =>
    intro scope
    rw [Expr.navigate, Expr.navigate, first.navigate]
    simp only [second.navigate]

theorem alike_binary (operator : Operator) (type : ExprType) (first : Expr.Alike left one)
    (second : Expr.Alike right two) :
    (Expr.binary operator left right type).Alike (.binary operator one two type) := by
  constructor
  case type => rfl
  case source => rw [Expr.source, Expr.source, first.source, second.source]
  case enclosing => rw [Expr.enclosing, Expr.enclosing, first.enclosing, second.enclosing]
  case plan => intro scope; rw [Expr.plan, Expr.plan, first.plan, second.plan]
  case navigate => intro scope; simp [Expr.navigate, Expr.type]

theorem alike_aggregate (function : AggregateFunction) (alike : Expr.Alike operand other) :
    (Expr.aggregate function operand).Alike (.aggregate function other) := by
  have type : (Expr.aggregate function other).type = (Expr.aggregate function operand).type := by
    rw [Expr.type, Expr.type, alike.type]
  constructor
  case type => exact type
  case source => exact alike.source
  case enclosing => rw [Expr.enclosing, Expr.enclosing, alike.enclosing]
  case plan => intro scope; rw [Expr.plan, Expr.plan, alike.plan]
  case navigate => intro scope; simp [Expr.navigate, type]

theorem alike_query (name : r.name = Query.name q) (alike : q.Alike r) :
    (Expr.query q).Alike (.query r) := by
  have type : (Expr.query r).type = (Expr.query q).type := congrArg ExprType.domain name
  constructor
  case type => exact type
  case source => exact congrArg (fun name => some (Source.domain name)) name
  case enclosing => rfl
  case plan => intro scope; rw [Expr.plan, Expr.plan, plan_alike alike]
  case navigate => intro scope; simp [Expr.navigate, type]

section
variable {one two : Expr} (alike : one.Alike two)
include alike

theorem exchanges_alike (exchanges : Expr.Exchanges one two expr other) : expr.Alike other := by
  induction exchanges with
  | here => exact alike
  | same expr => exact alike_refl expr
  | definition side _ ih => exact alike_definition _ _ side ih
  | condition side _ ih => exact alike_condition _ _ _ _ side ih
  | compose _ _ first second => exact alike_compose first second
  | binary _ _ first second => exact alike_binary _ _ first second
  | aggregate _ ih => exact alike_aggregate _ ih
  | @query q r name source table labels _ filtered _ ihColumns ihFilter =>
    obtain ⟨length, labelled⟩ := List.forall₂_iff_zip.mp labels
    refine alike_query name ⟨source, table, List.forall₂_iff_zip.mpr ⟨length, ?_⟩, ?_⟩
    · intro p s both
      have columns := ihColumns p s both
      exact ⟨labelled both, columns.type, columns.plan _⟩
    · cases was : q.filter <;> cases now : r.filter
      · rfl
      · simp [was, now] at filtered
      · simp [was, now] at filtered
      · exact congrArg some ((ihFilter _ was _ now).plan _)

theorem exchanged_query (exchanges : Query.Exchanges one two q r) : r.plan = q.plan := by
  have same := (exchanges_alike alike exchanges).plan (.at (.root q.source))
  rw [Expr.plan, Expr.plan] at same
  revert same
  cases r.plan <;> cases q.plan <;> (intro same; cases same) <;> rfl

end

theorem alike_scope (alike : Expr.Alike one two) (domain : String) :
    two.checkScope domain = one.checkScope domain := by
  rw [Expr.checkScope, Expr.checkScope, alike.enclosing]

theorem alike_join (alike : Expr.Alike one two) (owner target : String) :
    checkJoin owner target two = checkJoin owner target one := by
  rw [checkJoin, checkJoin, alike.type, alike.source]

theorem alike_composed (first : Expr.Alike reference other) (second : Expr.Alike composition rest)
    (leads : reference.type = .domain target) (inside : composition.source = some (.domain target)) :
    Expr.composed other rest = .ok (.compose other rest) := by
  rw [Expr.composed, first.type, leads]
  exact if_pos (second.source.trans inside)

theorem alike_operation (first : Expr.Alike left one) (second : Expr.Alike right two)
    (united : Source.union left.source right.source = .ok source)
    (typed : operator.resultType left.type right.type = .ok type) :
    Expr.operation operator one two = .ok (.binary operator one two type) := by
  rw [Expr.operation, first.source, second.source, first.type, second.type, united, typed]
  rfl

theorem alike_calculated (alike : Expr.Alike expr other) (domain name : String)
    (inside : expr.source = none ∨ expr.source = some (.domain domain)) :
    Attribute.calculated domain name other = .ok ⟨domain, name, .value other⟩ := by
  unfold Attribute.calculated
  rw [alike.source]
  rcases inside with constant | own
  · rw [constant]
  · rw [own]
    exact if_pos rfl

theorem alike_reference (alike : Expr.Alike condition other) (domain name target table : String)
    (checked : checkJoin domain target condition = .ok ()) :
    Attribute.reference domain name target table other =
      .ok ⟨domain, name, .reference target table other⟩ := by
  rw [Attribute.reference, alike_join alike, checked]
  rfl

theorem place_fresh (expr : Expr) (fresh : label ∉ projections.map Projection.label) :
    Query.place label expr projections = projections ++ [⟨label, expr⟩] := by
  fun_induction Query.place label expr projections <;> simp_all

theorem columns_built (name source table : String) (projections : List Projection)
    (distinct : (projections.map (·.label)).Nodup)
    (columns : ∀ p ∈ projections, p.expr.Built ∧ p.expr.checkScope source = .ok ()) :
    Query.Built ⟨name, source, table, projections, none⟩ := by
  induction projections using List.reverseRecOn with
  | nil => exact .start name ⟨source, table, []⟩
  | append_singleton before p ih =>
    rw [List.map_append, List.nodup_append] at distinct
    obtain ⟨earlier, _, apart⟩ := distinct
    have fresh : p.label ∉ before.map Projection.label :=
      fun known => apart p.label known p.label (by simp) rfl
    have built := ih earlier fun other member => columns other (List.mem_append_left _ member)
    obtain ⟨last, inside⟩ := columns p (by simp)
    obtain ⟨label, expr⟩ := p
    refine .select built last (?_ : Query.select _ label expr = _)
    simp only [Query.select, inside, place_fresh expr fresh]

theorem checked_built (checked : Query.Checked q) (distinct : (q.projections.map (·.label)).Nodup) :
    q.Built := by
  obtain ⟨name, source, table, projections, filter⟩ := q
  have whole := columns_built name source table projections distinct checked.columns
  cases filter with
  | none => exact whole
  | some condition =>
    obtain ⟨built, boolean, inside⟩ := checked.filter condition rfl
    refine .setFilter whole built ?_
    simp only [Query.setFilter, boolean, inside, ne_eq, not_true, if_false]

theorem place_distinct (label : String) (expr : Expr)
    (distinct : (projections.map Projection.label).Nodup) :
    ((Query.place label expr projections).map Projection.label).Nodup := by
  rw [place_labels]
  split
  · exact distinct
  · rename_i fresh
    exact distinct.append (List.nodup_singleton label) (by simpa using fresh)

theorem built_distinct (built : Query.Built q) : (q.projections.map (·.label)).Nodup := by
  induction built with
  | start name source => exact List.nodup_nil
  | select _ _ made ih =>
    obtain ⟨_, rfl⟩ := select_parts made
    exact place_distinct _ _ ih
  | setFilter _ _ made ih =>
    obtain ⟨_, _, rfl⟩ := setFilter_parts made
    exact ih
  | restrict _ _ made ih =>
    obtain ⟨_, made, _⟩ := restrict_parts made
    obtain ⟨_, _, rfl⟩ := setFilter_parts made
    exact ih

theorem exchanges_built (alike : Expr.Alike one two) (accepted : one.Built → two.Built)
    (exchanges : Expr.Exchanges one two expr other) (built : expr.Built) : other.Built := by
  induction exchanges with
  | here => exact accepted built
  | same expr => exact built
  | @definition expr other domain name side inner ih =>
    obtain ⟨defined, inside⟩ := value_built (access_built built)
    have made := alike_calculated (exchanges_alike alike inner) domain name inside
    exact .access side (.calculated (ih defined) made)
  | @condition condition other domain name target table side inner ih =>
    obtain ⟨defined, checked⟩ := reference_built (access_built built)
    have made := alike_reference (exchanges_alike alike inner) domain name target table checked
    exact .access side (.reference (ih defined) made)
  | compose first second ihFirst ihSecond =>
    obtain ⟨builtFirst, builtSecond, target, leads, inside⟩ := compose_built built
    exact .composed (ihFirst builtFirst) (ihSecond builtSecond)
      (alike_composed (exchanges_alike alike first) (exchanges_alike alike second) leads inside)
  | binary first second ihFirst ihSecond =>
    obtain ⟨builtLeft, builtRight, typed, source, united⟩ := binary_built built
    exact .operation (ihFirst builtLeft) (ihSecond builtRight)
      (alike_operation (exchanges_alike alike first) (exchanges_alike alike second) united typed)
  | @aggregate operand other function inner ih =>
    obtain ⟨defined, scalar, typed⟩ := aggregate_built built
    have made : Expr.aggregated function (some other) = .ok (.aggregate function other) := by
      rw [Expr.aggregated, (exchanges_alike alike inner).type, typed]
    exact .aggregated (ih defined) made
  | @query q r name source table labels columns filtered condition ihColumns ihFilter =>
    have before := built_checked (query_built built)
    have distinct := built_distinct (query_built built)
    have length := labels.length_eq
    have same : r.projections.map (·.label) = q.projections.map (·.label) := by
      rw [← List.forall₂_eq_eq_eq, List.forall₂_map_left_iff, List.forall₂_map_right_iff]
      exact labels.flip
    refine .query (checked_built ⟨?_, ?_⟩ (same ▸ distinct))
    · intro s selected
      have pairs : List.Forall₂ (fun p s => (p, s) ∈ q.projections.zip r.projections)
          q.projections r.projections := List.forall₂_iff_zip.mpr ⟨length, id⟩
      obtain ⟨p, present, both⟩ := forall₂_right pairs selected
      obtain ⟨defined, inside⟩ := before.columns p present
      have column := exchanges_alike alike (columns p s both)
      exact ⟨ihColumns p s both defined, by rw [source, alike_scope column, inside]⟩
    · intro new present
      obtain ⟨old, was⟩ := Option.isSome_iff_exists.mp
        (filtered ▸ Option.isSome_iff_exists.mpr ⟨new, present⟩)
      obtain ⟨defined, boolean, inside⟩ := before.filter old was
      have restriction := exchanges_alike alike (condition old was new present)
      refine ⟨ihFilter old was new present defined, restriction.type.trans boolean, ?_⟩
      rw [source, alike_scope restriction, inside]

end SemanticLayer
