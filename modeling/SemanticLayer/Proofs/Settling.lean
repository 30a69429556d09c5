import Mathlib.Data.List.Forall2
import SemanticLayer.Descriptor.Basic
import SemanticLayer.Proofs.Columns
import SemanticLayer.Proofs.Emission

namespace SemanticLayer

def Json.untyped : Json → Bool
  | .null | .array _ | .object _ => true
  | _ => false

def ExprDescriptor.literals : ExprDescriptor → List Json
  | .literal value => [value]
  | .binary _ left right => left.literals ++ right.literals
  | .aggregate _ operand => operand.literals
  | _ => []

def Descriptor.literals (d : Descriptor) : List Json :=
  d.projections.flatMap (·.expr.literals) ++ d.filter.toList.flatMap (·.literals)

section
variable (m : Model) (d : Domain)

-- The operands come before what is made of them.
inductive ExprDescriptor.Means : ExprDescriptor → Expr → Prop where
  | path : d.resolve m text = .ok expr → Means (.path text) expr
  | literal : Literal.ofJson json = .ok value → Means (.literal json) (.literal value)
  | binary : Means left first → Means right second →
      Expr.operation operator first second = .ok made → Means (.binary operator left right) made
  | aggregate : Means operand first → Expr.aggregated function (some first) = .ok made →
      Means (.aggregate function operand) made
  | aggregateAll : Expr.aggregated function none = .ok made → Means (.aggregateAll function) made

-- The first fault from left to right, when all literals have types.
inductive ExprDescriptor.Fails : ExprDescriptor → Error → Prop where
  | path : d.resolve m text = .error error → Fails (.path text) error
  | left : Fails left error → Fails (.binary operator left right) error
  | right : left.Means m d first → Fails right error → Fails (.binary operator left right) error
  | binary : left.Means m d first → right.Means m d second →
      Expr.operation operator first second = .error error →
      Fails (.binary operator left right) error
  | operand : Fails operand error → Fails (.aggregate function operand) error
  | aggregate : operand.Means m d first → Expr.aggregated function (some first) = .error error →
      Fails (.aggregate function operand) error
  | aggregateAll : Expr.aggregated function none = .error error →
      Fails (.aggregateAll function) error

structure ProjectionDescriptor.Taken (p : ProjectionDescriptor) (column : Projection) : Prop where
  label : column.label = p.label
  means : p.expr.Means m d column.expr
  inScope : column.expr.checkScope d.name = .ok ()

inductive ProjectionDescriptor.Refused (query : String) (p : ProjectionDescriptor) :
    Error → Prop where
  | unresolved : p.expr.Fails m d error → Refused query p error
  | outOfScope : p.expr.Means m d made → made.checkScope d.name = .error fault →
      Refused query p (.projectionOutOfScope query p.label fault)

structure ExprDescriptor.Filters (condition : ExprDescriptor) (expr : Expr) : Prop where
  means : condition.Means m d expr
  boolean : expr.type = .boolean
  inScope : expr.checkScope d.name = .ok ()

inductive ExprDescriptor.Refused (query : String) (condition : ExprDescriptor) : Error → Prop where
  | unresolved : condition.Fails m d error → Refused query condition error
  | notBoolean : condition.Means m d expr → expr.type ≠ .boolean →
      Refused query condition (.filterNotBoolean query expr.type)
  | outOfScope : condition.Means m d expr → expr.type = .boolean →
      expr.checkScope d.name = .error fault →
      Refused query condition (.filterOutOfScope query fault)

end

-- The first fault of a query whose literals all have types: the domain, then the columns in their
-- order, each of them when those before it have been taken, and the filter when all have been.
inductive Descriptor.Fails (m : Model) (d : Descriptor) : Error → Prop where
  | unknown : m.domain? d.source = none → Fails m d (.unknownDomain d.source)
  | column : m.domain? d.source = some base → d.projections = before ++ p :: after →
      List.Forall₂ (ProjectionDescriptor.Taken m base) before columns →
      p.Refused m base d.name error → Fails m d error
  | filter : m.domain? d.source = some base →
      List.Forall₂ (ProjectionDescriptor.Taken m base) d.projections columns →
      d.filter = some condition → condition.Refused m base d.name error → Fails m d error

structure Descriptor.Gives (m : Model) (d : Descriptor) (base : Domain) (columns : List Projection)
    (q : Query) : Prop where
  source : m.domain? d.source = some base
  taken : List.Forall₂ (ProjectionDescriptor.Taken m base) d.projections columns
  filters : Option.Rel (ExprDescriptor.Filters m base) d.filter q.filter
  query : q = ⟨d.name, base.name, base.table, Query.placed columns, q.filter⟩

theorem ofJson_untyped (json : Json) (untyped : json.untyped = true) :
    Literal.ofJson json = .error (.unsupportedLiteral json.compact) := by
  cases json <;> first | rfl | cases untyped

theorem ofJson_typed (json : Json) (typed : json.untyped = false) :
    ∃ value, Literal.ofJson json = .ok value := by
  cases json with
  | integer value =>
    by_cases small : value < Nat.pow 2 63
    · exact ⟨_, if_pos small⟩
    · exact ⟨_, if_neg small⟩
  | null | array | object => cases typed
  | bool | decimal | string => exact ⟨_, rfl⟩

theorem formula_typed (expr : ExprDescriptor) (typed : expr.literals.find? Json.untyped = none) :
    ∃ formula, expr.formula = .ok formula := by
  induction expr with
  | path text => exact ⟨_, rfl⟩
  | literal json =>
    have typed : json.untyped = false := by simpa [ExprDescriptor.literals] using typed
    obtain ⟨value, read⟩ := ofJson_typed json typed
    exact ⟨.literal value, by rw [ExprDescriptor.formula, read]; rfl⟩
  | binary operator left right one two =>
    rw [ExprDescriptor.literals, List.find?_append, Option.or_eq_none_iff] at typed
    obtain ⟨first, settledLeft⟩ := one typed.1
    obtain ⟨second, settledRight⟩ := two typed.2
    exact ⟨.binary operator first second, by
      rw [ExprDescriptor.formula, settledLeft, settledRight]; rfl⟩
  | aggregate function operand ih =>
    obtain ⟨inner, settled⟩ := ih typed
    exact ⟨.aggregate function inner, by rw [ExprDescriptor.formula, settled]; rfl⟩
  | aggregateAll function => exact ⟨_, rfl⟩

theorem formula_untyped (expr : ExprDescriptor)
    (first : expr.literals.find? Json.untyped = some json) :
    expr.formula = .error (.unsupportedLiteral json.compact) := by
  induction expr with
  | path | aggregateAll => cases first
  | literal value =>
    have untyped := List.find?_some first
    cases List.mem_singleton.mp (List.mem_of_find?_eq_some first)
    exact congrArg (· >>= fun value => pure (Formula.literal value)) (ofJson_untyped json untyped)
  | binary operator left right one two =>
    rw [ExprDescriptor.literals, List.find?_append, Option.or_eq_some_iff] at first
    rcases first with inLeft | ⟨typedLeft, inRight⟩
    · rw [ExprDescriptor.formula, one inLeft]
      rfl
    · obtain ⟨formula, settled⟩ := formula_typed left typedLeft
      rw [ExprDescriptor.formula, settled, two inRight]
      rfl
  | aggregate function operand ih =>
    rw [ExprDescriptor.formula, ih first]
    rfl

section
variable {α β : Type} {literals : α → List Json} {f : α → Except Error β}

theorem mapM_typed
    (settles : ∀ item, (literals item).find? Json.untyped = none → ∃ result, f item = .ok result)
    (items : List α) (typed : (items.flatMap literals).find? Json.untyped = none) :
    ∃ results, items.mapM f = .ok results ∧
      List.Forall₂ (fun item result => f item = .ok result) items results := by
  induction items with
  | nil => exact ⟨[], rfl, .nil⟩
  | cons item rest ih =>
    rw [List.flatMap_cons, List.find?_append, Option.or_eq_none_iff] at typed
    obtain ⟨result, made⟩ := settles item typed.1
    obtain ⟨results, more, each⟩ := ih typed.2
    exact ⟨result :: results, by rw [List.mapM_cons, made, more]; rfl, .cons made each⟩

theorem mapM_untyped
    (settles : ∀ item, (literals item).find? Json.untyped = none → ∃ result, f item = .ok result)
    (fails : ∀ item json, (literals item).find? Json.untyped = some json →
      f item = .error (.unsupportedLiteral json.compact))
    (items : List α) (first : (items.flatMap literals).find? Json.untyped = some json) :
    items.mapM f = .error (.unsupportedLiteral json.compact) := by
  induction items with
  | nil => cases first
  | cons item rest ih =>
    rw [List.flatMap_cons, List.find?_append, Option.or_eq_some_iff] at first
    rw [List.mapM_cons]
    rcases first with here | ⟨typed, later⟩
    · rw [fails item json here]
      rfl
    · obtain ⟨result, made⟩ := settles item typed
      rw [made, ih later]
      rfl

end

def ProjectionDescriptor.step (p : ProjectionDescriptor) : Except Error Query.Step := do
  pure (.selectFormula p.label (← p.expr.formula))

def ExprDescriptor.restriction (condition : ExprDescriptor) : Except Error Query.Step := do
  pure (.restrict (← condition.formula))

theorem step_typed (p : ProjectionDescriptor) (typed : p.expr.literals.find? Json.untyped = none) :
    ∃ step, p.step = .ok step := by
  obtain ⟨formula, settled⟩ := formula_typed p.expr typed
  exact ⟨.selectFormula p.label formula, by rw [ProjectionDescriptor.step, settled]; rfl⟩

theorem restriction_typed (condition : ExprDescriptor)
    (typed : condition.literals.find? Json.untyped = none) :
    ∃ step, condition.restriction = .ok step := by
  obtain ⟨formula, settled⟩ := formula_typed condition typed
  exact ⟨.restrict formula, by rw [ExprDescriptor.restriction, settled]; rfl⟩

theorem steps_typed (d : Descriptor) (typed : d.literals.find? Json.untyped = none) :
    ∃ columns restrictions, d.steps = .ok (columns ++ restrictions) ∧
      List.Forall₂ (fun p step => ProjectionDescriptor.step p = .ok step) d.projections columns ∧
      List.Forall₂ (fun condition step => ExprDescriptor.restriction condition = .ok step)
        d.filter.toList restrictions := by
  rw [Descriptor.literals, List.find?_append, Option.or_eq_none_iff] at typed
  obtain ⟨columns, one, eachColumn⟩ := mapM_typed step_typed d.projections typed.1
  obtain ⟨restrictions, two, eachRestriction⟩ :=
    mapM_typed restriction_typed d.filter.toList typed.2
  have made : d.steps = d.projections.mapM ProjectionDescriptor.step >>= fun columns =>
      d.filter.toList.mapM ExprDescriptor.restriction >>= fun restrictions =>
        pure (columns ++ restrictions) := rfl
  exact ⟨columns, restrictions, by rw [made, one, two]; rfl, eachColumn, eachRestriction⟩

theorem query_untyped (m : Model) (d : Descriptor)
    (first : d.literals.find? Json.untyped = some json) :
    d.query m = .error (.unsupportedLiteral json.compact) := by
  have made : d.query m = (d.projections.mapM ProjectionDescriptor.step >>= fun columns =>
      d.filter.toList.mapM ExprDescriptor.restriction >>= fun restrictions =>
        pure (columns ++ restrictions)) >>= m.query d.name d.source := rfl
  have column_untyped (p : ProjectionDescriptor) (json : Json)
      (first : p.expr.literals.find? Json.untyped = some json) :
      p.step = .error (.unsupportedLiteral json.compact) := by
    rw [ProjectionDescriptor.step, formula_untyped p.expr first]
    rfl
  have filter_untyped (condition : ExprDescriptor) (json : Json)
      (first : condition.literals.find? Json.untyped = some json) :
      condition.restriction = .error (.unsupportedLiteral json.compact) := by
    rw [ExprDescriptor.restriction, formula_untyped condition first]
    rfl
  rw [Descriptor.literals, List.find?_append, Option.or_eq_some_iff] at first
  rw [made]
  rcases first with inColumns | ⟨typed, inFilter⟩
  · rw [mapM_untyped step_typed column_untyped d.projections inColumns]
    rfl
  · obtain ⟨columns, one, _⟩ := mapM_typed step_typed d.projections typed
    rw [one, mapM_untyped restriction_typed filter_untyped d.filter.toList inFilter]
    rfl

section
variable {m : Model} {d : Domain}

theorem means_resolved (means : ExprDescriptor.Means m d expr made)
    (settled : expr.formula = .ok formula) : formula.resolve m d = .ok made := by
  induction means generalizing formula with
  | path resolved =>
    cases settled
    exact resolved
  | literal read =>
    rw [ExprDescriptor.formula, read] at settled
    cases settled
    rfl
  | binary _ _ made one two =>
    obtain ⟨first, settledFirst, settled⟩ := bind_parts settled
    obtain ⟨second, settledSecond, settled⟩ := bind_parts settled
    cases settled
    rw [Formula.resolve, one settledFirst, two settledSecond]
    exact made
  | aggregate _ made ih =>
    obtain ⟨inner, settledInner, settled⟩ := bind_parts settled
    cases settled
    rw [Formula.resolve, ih settledInner]
    exact made
  | aggregateAll made =>
    cases settled
    exact made

theorem fails_unresolved (fails : ExprDescriptor.Fails m d expr error)
    (settled : expr.formula = .ok formula) : formula.resolve m d = .error error := by
  induction fails generalizing formula with
  | path failed =>
    cases settled
    exact failed
  | left _ ih =>
    obtain ⟨first, settledFirst, settled⟩ := bind_parts settled
    obtain ⟨second, _, settled⟩ := bind_parts settled
    cases settled
    rw [Formula.resolve, ih settledFirst]
    rfl
  | right means _ ih =>
    obtain ⟨first, settledFirst, settled⟩ := bind_parts settled
    obtain ⟨second, settledSecond, settled⟩ := bind_parts settled
    cases settled
    rw [Formula.resolve, means_resolved means settledFirst, ih settledSecond]
    rfl
  | binary one two failed =>
    obtain ⟨first, settledFirst, settled⟩ := bind_parts settled
    obtain ⟨second, settledSecond, settled⟩ := bind_parts settled
    cases settled
    rw [Formula.resolve, means_resolved one settledFirst, means_resolved two settledSecond]
    exact failed
  | operand _ ih =>
    obtain ⟨inner, settledInner, settled⟩ := bind_parts settled
    cases settled
    rw [Formula.resolve, ih settledInner]
    rfl
  | aggregate means failed =>
    obtain ⟨inner, settledInner, settled⟩ := bind_parts settled
    cases settled
    rw [Formula.resolve, means_resolved means settledInner]
    exact failed
  | aggregateAll failed =>
    cases settled
    exact failed

theorem means_or_fails (m : Model) (d : Domain) (expr : ExprDescriptor)
    (settled : expr.formula = .ok formula) :
    (∃ made, expr.Means m d made) ∨ ∃ error, expr.Fails m d error := by
  induction expr generalizing formula with
  | path text =>
    cases resolved : d.resolve m text with
    | ok made => exact .inl ⟨made, .path resolved⟩
    | error error => exact .inr ⟨error, .path resolved⟩
  | literal json =>
    obtain ⟨value, read, _⟩ := bind_parts settled
    exact .inl ⟨.literal value, .literal read⟩
  | binary operator left right one two =>
    obtain ⟨_, settledLeft, settled⟩ := bind_parts settled
    obtain ⟨_, settledRight, settled⟩ := bind_parts settled
    rcases one settledLeft with ⟨first, meansLeft⟩ | ⟨error, fails⟩
    · rcases two settledRight with ⟨second, meansRight⟩ | ⟨error, fails⟩
      · cases joined : Expr.operation operator first second with
        | ok made => exact .inl ⟨made, .binary meansLeft meansRight joined⟩
        | error error => exact .inr ⟨error, .binary meansLeft meansRight joined⟩
      · exact .inr ⟨error, .right meansLeft fails⟩
    · exact .inr ⟨error, .left fails⟩
  | aggregate function operand ih =>
    obtain ⟨_, settledInner, settled⟩ := bind_parts settled
    rcases ih settledInner with ⟨inner, means⟩ | ⟨error, fails⟩
    · cases aggregated : Expr.aggregated function (some inner) with
      | ok made => exact .inl ⟨made, .aggregate means aggregated⟩
      | error error => exact .inr ⟨error, .aggregate means aggregated⟩
    · exact .inr ⟨error, .operand fails⟩
  | aggregateAll function =>
    cases counted : Expr.aggregated function none with
    | ok made => exact .inl ⟨made, .aggregateAll counted⟩
    | error error => exact .inr ⟨error, .aggregateAll counted⟩

theorem step_taken (settled : ProjectionDescriptor.step p = .ok step) (taken : p.Taken m d column)
    (source : q.source = d.name) : Query.step m d q step =
      .ok { q with projections := Query.place column.label column.expr q.projections } := by
  obtain ⟨formula, read, made⟩ := bind_parts settled
  cases made
  have inScope : column.expr.checkScope q.source = .ok () := source ▸ taken.inScope
  rw [Query.step, means_resolved taken.means read, taken.label]
  change q.select p.label column.expr = _
  rw [Query.select, inScope]

theorem step_refused (settled : ProjectionDescriptor.step p = .ok step)
    (refused : p.Refused m d q.name error) (source : q.source = d.name) :
    Query.step m d q step = .error error := by
  obtain ⟨formula, read, made⟩ := bind_parts settled
  cases made
  rw [Query.step]
  cases refused with
  | unresolved fails =>
    rw [fails_unresolved fails read]
    rfl
  | @outOfScope made fault means outside =>
    rw [means_resolved means read]
    change q.select p.label made = _
    rw [Query.select, source, outside]

theorem columns_taken
    (settled : List.Forall₂ (fun p step => ProjectionDescriptor.step p = .ok step) projections steps)
    (taken : List.Forall₂ (ProjectionDescriptor.Taken m d) projections columns)
    (source : Query.source q = d.name) : steps.foldlM (Query.step m d) q =
      .ok { q with projections := (columns.foldl
        (fun placed column => Query.place column.label column.expr placed) q.projections) } := by
  induction settled generalizing q columns with
  | nil =>
    obtain ⟨name, domain, table, placed, filter⟩ := q
    cases taken
    rfl
  | cons one _ ih =>
    cases taken with
    | cons here later =>
      rw [List.foldlM_cons, step_taken one here source]
      exact ih later source

theorem columns_cases (m : Model) (d : Domain) (query : String)
    (settled : List.Forall₂ (fun p step => ProjectionDescriptor.step p = .ok step) projections steps) :
    (∃ columns, List.Forall₂ (ProjectionDescriptor.Taken m d) projections columns) ∨
      ∃ before p after columns error, projections = before ++ p :: after ∧
        List.Forall₂ (ProjectionDescriptor.Taken m d) before columns ∧
        p.Refused m d query error := by
  induction settled with
  | nil => exact .inl ⟨[], .nil⟩
  | @cons p step rest _ one _ ih =>
    obtain ⟨formula, read, _⟩ := bind_parts one
    rcases means_or_fails m d p.expr read with ⟨made, means⟩ | ⟨error, fails⟩
    · cases inScope : made.checkScope d.name with
      | ok =>
        have taken : p.Taken m d ⟨p.label, made⟩ := ⟨rfl, means, inScope⟩
        rcases ih with ⟨columns, all⟩ | ⟨before, other, after, columns, error, rfl, all, refused⟩
        · exact .inl ⟨⟨p.label, made⟩ :: columns, .cons taken all⟩
        · exact .inr ⟨p :: before, other, after, ⟨p.label, made⟩ :: columns, error, rfl,
            .cons taken all, refused⟩
      | error fault => exact .inr ⟨[], p, rest, [], _, rfl, .nil, .outOfScope means inScope⟩
    · exact .inr ⟨[], p, rest, [], error, rfl, .nil, .unresolved fails⟩

theorem restrict_filters (settled : ExprDescriptor.restriction condition = .ok step)
    (filters : condition.Filters m d expr) (source : q.source = d.name) (none : q.filter = none) :
    Query.step m d q step = .ok { q with filter := some expr } := by
  obtain ⟨formula, read, made⟩ := bind_parts settled
  cases made
  have inScope : expr.checkScope q.source = .ok () := source ▸ filters.inScope
  rw [Query.step, means_resolved filters.means read]
  change q.restrict expr = _
  simp [Query.restrict, none, Query.setFilter, filters.boolean, inScope]

theorem restrict_refused (settled : ExprDescriptor.restriction condition = .ok step)
    (refused : condition.Refused m d q.name error) (source : q.source = d.name)
    (none : q.filter = none) : Query.step m d q step = .error error := by
  obtain ⟨formula, read, made⟩ := bind_parts settled
  cases made
  rw [Query.step]
  cases refused with
  | unresolved fails =>
    rw [fails_unresolved fails read]
    rfl
  | @notBoolean expr means other =>
    rw [means_resolved means read]
    change q.restrict expr = _
    simp [Query.restrict, none, Query.setFilter, other]
  | @outOfScope expr fault means boolean outside =>
    rw [means_resolved means read]
    change q.restrict expr = _
    simp [Query.restrict, none, Query.setFilter, boolean, source, outside]

theorem filter_cases (m : Model) (d : Domain) (query : String)
    (settled : ExprDescriptor.restriction condition = .ok step) :
    (∃ expr, condition.Filters m d expr) ∨ ∃ error, condition.Refused m d query error := by
  obtain ⟨formula, read, _⟩ := bind_parts settled
  rcases means_or_fails m d condition read with ⟨made, means⟩ | ⟨error, fails⟩
  · by_cases boolean : made.type = .boolean
    · cases inScope : made.checkScope d.name with
      | ok => exact .inl ⟨made, means, boolean, inScope⟩
      | error fault => exact .inr ⟨_, .outOfScope means boolean inScope⟩
    · exact .inr ⟨_, .notBoolean means boolean⟩
  · exact .inr ⟨error, .unresolved fails⟩

end

section
variable {m : Model} {d : Descriptor}

theorem query_steps (steps : d.steps = .ok (columns ++ restrictions))
    (known : m.domain? d.source = some base) :
    d.query m = columns.foldlM (Query.step m base) (.start d.name base) >>= fun q =>
      restrictions.foldlM (Query.step m base) q := by
  have found : m.lookup d.source = .ok base := by rw [Model.lookup, known]
  rw [Descriptor.query, steps]
  change m.query d.name d.source (columns ++ restrictions) = _
  rw [Model.query, found]
  exact List.foldlM_append

theorem gives_query (typed : d.literals.find? Json.untyped = none)
    (gives : d.Gives m base columns q) : d.query m = .ok q := by
  obtain ⟨steps, restrictions, made, each, last⟩ := steps_typed d typed
  rw [query_steps made gives.source, columns_taken each gives.taken rfl]
  change List.foldlM _ (⟨d.name, base.name, base.table, Query.placed columns, none⟩ : Query) _ = _
  rw [gives.query]
  have filters := gives.filters
  revert last filters
  cases d.filter <;> cases q.filter
  all_goals
    intro last filters
    cases filters
  · cases last
    rfl
  · rename_i filters
    obtain _ | ⟨settled, ⟨⟩⟩ := last
    rw [List.foldlM_cons, restrict_filters settled filters rfl rfl]
    rfl

theorem fails_query (typed : d.literals.find? Json.untyped = none) (fails : d.Fails m error) :
    d.query m = .error error := by
  obtain ⟨steps, restrictions, made, each, last⟩ := steps_typed d typed
  cases fails with
  | unknown absent =>
    have missing : m.lookup d.source = .error (.unknownDomain d.source) := by
      rw [Model.lookup, absent]
    rw [Descriptor.query, made]
    change m.query d.name d.source (steps ++ restrictions) = _
    rw [Model.query, missing]
    rfl
  | @column base before p after columns _ known split taken refused =>
    rw [split] at each
    obtain ⟨earlier, step, rest, rfl, all, here⟩ := forall₂_split before each.flip
    rw [query_steps made known, List.foldlM_append, columns_taken all.flip taken rfl]
    change (List.foldlM _ _ (step :: rest) >>= _) = _
    rw [List.foldlM_cons, step_refused here refused rfl]
    rfl
  | @filter base columns condition _ known taken filtered refused =>
    rw [query_steps made known, columns_taken each taken rfl]
    change List.foldlM _ (⟨d.name, base.name, base.table, Query.placed columns, none⟩ : Query) _ = _
    rw [filtered] at last
    obtain _ | ⟨settled, ⟨⟩⟩ := last
    rw [List.foldlM_cons, restrict_refused settled refused rfl rfl]
    rfl

theorem gives_or_fails (m : Model) (typed : d.literals.find? Json.untyped = none) :
    (∃ base columns q, d.Gives m base columns q) ∨ ∃ error, d.Fails m error := by
  obtain ⟨steps, restrictions, _, each, last⟩ := steps_typed d typed
  cases known : m.domain? d.source with
  | none => exact .inr ⟨_, .unknown known⟩
  | some base =>
    rcases columns_cases m base d.name each with
      ⟨columns, taken⟩ | ⟨before, p, after, columns, error, split, taken, refused⟩
    · cases filtered : d.filter with
      | none =>
        refine .inl ⟨base, columns, ⟨d.name, base.name, base.table, Query.placed columns, none⟩, ?_⟩
        exact ⟨known, taken, filtered ▸ .none, rfl⟩
      | some condition =>
        rw [filtered] at last
        obtain _ | ⟨settled, _⟩ := last
        rcases filter_cases m base d.name settled with ⟨expr, filters⟩ | ⟨error, refused⟩
        · exact .inl ⟨base, columns, ⟨d.name, base.name, base.table, Query.placed columns, expr⟩,
            known, taken, filtered ▸ .some filters, rfl⟩
        · exact .inr ⟨error, .filter known taken filtered refused⟩
    · exact .inr ⟨error, .column known split taken refused⟩

end

end SemanticLayer
