import SemanticLayer.Formula
import SemanticLayer.Proofs.Formation
import SemanticLayer.Proofs.Lookup

namespace SemanticLayer

inductive Expr.Walks (m : Model) : String → Expr → Prop where
  | last : m.domain? domain = some d → d.attribute? label = some member →
      Walks m domain (.access member .matching)
  | step : m.domain? domain = some d →
      d.attribute? label = some ⟨owner, name, .reference target table condition⟩ →
      Walks m target rest → rest.source = some (.domain target) →
      Walks m domain (.compose (.access ⟨owner, name, .reference target table condition⟩ .matching) rest)

theorem walk_walks (known : Model.domain? m d.name = some d) (segments : List String)
    (walked : d.walk m label segments = .ok expr) : expr.Walks m d.name := by
  induction segments generalizing d label expr with
  | nil =>
    rw [Domain.walk] at walked
    obtain ⟨member, found, walked⟩ := bind_parts walked
    cases walked
    exact .last known (attribute_lookup found)
  | cons next rest ih =>
    rw [Domain.walk] at walked
    obtain ⟨⟨owner, name, definition⟩, found, walked⟩ := bind_parts walked
    cases definition with
    | value expr => cases walked
    | reference target table condition =>
      have stepped : ∃ aim composition, aim.name = target ∧ m.domain? aim.name = some aim ∧
          aim.walk m next rest = .ok composition ∧
          Expr.composed (.access ⟨owner, name, .reference target table condition⟩ .matching)
            composition = .ok expr := by
        dsimp only at walked
        split at walked
        · rename_i same
          obtain ⟨_, stayed, walked⟩ := bind_parts walked
          cases stayed
          obtain ⟨composition, inner, made⟩ := bind_parts walked
          exact ⟨d, composition, same.symm, known, inner, made⟩
        · obtain ⟨aim, reached, walked⟩ := bind_parts walked
          obtain ⟨composition, inner, made⟩ := bind_parts walked
          have named := domain_named (domain_lookup reached)
          exact ⟨aim, composition, named, named.symm ▸ domain_lookup reached, inner, made⟩
      obtain ⟨aim, composition, rfl, reached, inner, made⟩ := stepped
      obtain ⟨target, leads, inside, rfl⟩ := composed_parts made
      cases leads
      exact .step known (attribute_lookup found) (ih reached inner) inside

theorem resolve_walks (known : Model.domain? m d.name = some d)
    (resolved : d.resolve m path = .ok expr) : expr.Walks m d.name := by
  unfold Domain.resolve at resolved
  split at resolved
  · cases resolved
  · exact walk_walks known _ resolved

def Formula.Unresolved : Formula → Prop
  | .binary _ left right => left.Unresolved ∧ right.Unresolved
  | .aggregate _ operand => operand.Unresolved
  | .resolved _ => False
  | _ => True

def Query.Step.Unresolved : Query.Step → Prop
  | .selectFormula _ formula => formula.Unresolved
  | .restrict formula => formula.Unresolved
  | .restrictTo _ => False
  | _ => True

inductive Expr.Resolved (m : Model) (domain : String) : Expr → Prop where
  | literal (value : Literal) : Resolved m domain (.literal value)
  | path : expr.Walks m domain → Resolved m domain expr
  | operation : Resolved m domain left → Resolved m domain right →
      Expr.operation operator left right = .ok made → Resolved m domain made
  | aggregated : Resolved m domain operand →
      Expr.aggregated function (some operand) = .ok made → Resolved m domain made
  | counted : Expr.aggregated function none = .ok made → Resolved m domain made

theorem formula_resolved (known : Model.domain? m d.name = some d) (formula : Formula)
    (unresolved : formula.Unresolved) (made : formula.resolve m d = .ok expr) :
    expr.Resolved m d.name := by
  induction formula generalizing expr with
  | path text => exact .path (resolve_walks known made)
  | literal value =>
    cases made
    exact .literal value
  | binary operator left right one two =>
    obtain ⟨first, madeFirst, made⟩ := bind_parts made
    obtain ⟨second, madeSecond, made⟩ := bind_parts made
    exact .operation (one unresolved.1 madeFirst) (two unresolved.2 madeSecond) made
  | aggregate function operand ih =>
    obtain ⟨inner, madeInner, made⟩ := bind_parts made
    exact .aggregated (ih unresolved madeInner) made
  | aggregateAll function => exact .counted made
  | resolved => cases unresolved

theorem step_parts (known : Model.domain? m d.name = some d) (step : Query.Step)
    (unresolved : step.Unresolved) (made : Query.step m d q step = .ok next) :
    ∃ expr, expr.Resolved m d.name ∧
      ((∃ label, q.select label expr = .ok next) ∨ q.restrict expr = .ok next) := by
  cases step with
  | select path =>
    obtain ⟨expr, resolved, made⟩ := bind_parts made
    exact ⟨expr, .path (resolve_walks known resolved), .inl ⟨_, made⟩⟩
  | selectAs label path =>
    obtain ⟨expr, resolved, made⟩ := bind_parts made
    exact ⟨expr, .path (resolve_walks known resolved), .inl ⟨label, made⟩⟩
  | selectFormula label formula =>
    obtain ⟨expr, resolved, made⟩ := bind_parts made
    exact ⟨expr, formula_resolved known formula unresolved resolved, .inl ⟨label, made⟩⟩
  | restrict formula =>
    obtain ⟨expr, resolved, made⟩ := bind_parts made
    exact ⟨expr, formula_resolved known formula unresolved resolved, .inr made⟩
  | restrictTo condition => cases unresolved

structure Query.Resolved (m : Model) (domain : String) (q : Query) : Prop where
  source : q.source = domain
  table : ∃ d, m.domain? domain = some d ∧ q.table = d.table
  said : ∀ expr, q.Says expr → expr.Resolved m domain

theorem select_resolved (resolved : Query.Resolved m domain q) (column : expr.Resolved m domain)
    (made : q.select label expr = .ok next) : next.Resolved m domain := by
  obtain ⟨_, rfl⟩ := select_parts made
  refine ⟨resolved.source, resolved.table, ?_⟩
  rintro other (selected | filter)
  · obtain ⟨p, member, rfl⟩ := List.mem_map.mp selected
    rcases place_member q.projections member with rfl | old
    · exact column
    · exact resolved.said _ (.inl (List.mem_map_of_mem old))
  · exact resolved.said _ (.inr filter)

theorem restrict_resolved (resolved : Query.Resolved m domain q) (condition : expr.Resolved m domain)
    (made : q.restrict expr = .ok next) : next.Resolved m domain := by
  obtain ⟨filter, made, same | ⟨old, filtered, joined⟩⟩ := restrict_parts made
  all_goals
    obtain ⟨_, _, rfl⟩ := setFilter_parts made
    refine ⟨resolved.source, resolved.table, ?_⟩
    rintro other (selected | narrowed)
    · exact resolved.said _ (.inl selected)
    cases narrowed
  · exact same.symm ▸ condition
  · exact .operation (resolved.said old (.inr filtered)) condition joined

def Model.Built (m : Model) : Prop :=
  ∀ name d, m.domain? name = some d → ∀ label member, d.attribute? label = some member → member.Built

theorem walks_built (built : Model.Built m) (walks : Expr.Walks m domain expr) : expr.Built := by
  induction walks with
  | last known found => exact .access .matching (built _ _ known _ _ found)
  | step known found _ inside ih =>
    exact .composed (.access .matching (built _ _ known _ _ found)) ih (if_pos inside)

theorem resolved_built (built : Model.Built m) (resolved : Expr.Resolved m domain expr) :
    expr.Built := by
  induction resolved with
  | literal value => exact .literal value
  | path walks => exact walks_built built walks
  | operation _ _ made one two => exact .operation one two made
  | aggregated _ made ih => exact .aggregated ih made
  | counted made => exact .counted made

theorem query_resolved (built : Model.Built m) (steps : List Query.Step)
    (unresolved : ∀ step ∈ steps, step.Unresolved) (made : m.query name domain steps = .ok q) :
    q.Built ∧ q.Resolved m domain := by
  obtain ⟨d, found, ran⟩ := bind_parts made
  have known := domain_lookup found
  cases domain_named known
  have start : (Query.start name d).Built ∧ (Query.start name d).Resolved m d.name :=
    ⟨.start name d, rfl, ⟨d, known, rfl⟩, by simp [Query.Says, Query.start]⟩
  refine foldlM_keeps (fun q : Query => q.Built ∧ q.Resolved m d.name) steps ?_ start ran
  rintro step member before after ⟨putTogether, resolved⟩ stepped
  obtain ⟨expr, inside, ⟨label, selected⟩ | restricted⟩ :=
    step_parts known step (unresolved step member) stepped
  · exact ⟨.select putTogether (resolved_built built inside) selected,
      select_resolved resolved inside selected⟩
  · exact ⟨.restrict putTogether (resolved_built built inside) restricted,
      restrict_resolved resolved inside restricted⟩

structure Domain.Alike (d other : Domain) : Prop where
  name : d.name = other.name
  table : d.table = other.table
  attributes : ∀ label, d.attribute? label = other.attribute? label

def Model.Alike (m other : Model) : Prop :=
  ∀ name, Option.Rel Domain.Alike (m.domain? name) (other.domain? name)

theorem alike_attribute (domains : Domain.Alike d other) (label : String) :
    d.lookup label = other.lookup label := by
  unfold Domain.lookup
  rw [domains.attributes, domains.name]

theorem alike_domain (models : Model.Alike m other) (name : String) :
    (∃ error, m.lookup name = .error error ∧ other.lookup name = .error error) ∨
      ∃ d e, m.lookup name = .ok d ∧ other.lookup name = .ok e ∧ d.Alike e := by
  have same := models name
  unfold Model.lookup
  revert same
  cases m.domain? name <;> cases other.domain? name
  all_goals
    intro same
    cases same
  · exact .inl ⟨_, rfl, rfl⟩
  · rename_i domains
    exact .inr ⟨_, _, rfl, rfl, domains⟩

theorem walk_alike (models : Model.Alike m other) (domains : Domain.Alike d e)
    (segments : List String) : d.walk m label segments = e.walk other label segments := by
  induction segments generalizing d e label with
  | nil => rw [Domain.walk, Domain.walk, alike_attribute domains]
  | cons next rest ih =>
    rw [Domain.walk, Domain.walk, alike_attribute domains, domains.name]
    refine congrArg _ (funext fun member => ?_)
    split
    · rfl
    · rename_i target table condition leads
      split
      · simp only [pure_bind, ih domains]
      · rcases alike_domain models target with ⟨_, first, second⟩ | ⟨_, _, first, second, same⟩
        · rw [first, second]
          rfl
        · rw [first, second]
          exact congrArg (· >>= Expr.composed (.access member .matching)) (ih same)

theorem resolve_alike (models : Model.Alike m other) (domains : Domain.Alike d e) (path : String) :
    d.resolve m path = e.resolve other path := by
  unfold Domain.resolve
  rw [domains.name]
  split
  · rfl
  · exact walk_alike models domains _

theorem formula_alike (models : Model.Alike m other) (domains : Domain.Alike d e)
    (formula : Formula) : formula.resolve m d = formula.resolve other e := by
  induction formula with
  | path text => exact resolve_alike models domains text
  | binary operator left right one two => rw [Formula.resolve, Formula.resolve, one, two]
  | aggregate function operand ih => rw [Formula.resolve, Formula.resolve, ih]
  | literal | aggregateAll | resolved => rfl

theorem step_alike (models : Model.Alike m other) (domains : Domain.Alike d e) :
    Query.step m d = Query.step other e := by
  funext q step
  cases step with
  | select path => rw [Query.step, Query.step, resolve_alike models domains]
  | selectAs label path => rw [Query.step, Query.step, resolve_alike models domains]
  | selectFormula label formula => rw [Query.step, Query.step, formula_alike models domains]
  | restrict formula => rw [Query.step, Query.step, formula_alike models domains]
  | restrictTo condition => rfl

-- Two such models give every query the same meaning, or the same error.
theorem query_alike (models : Model.Alike m other) (name domain : String)
    (steps : List Query.Step) : m.query name domain steps = other.query name domain steps := by
  unfold Model.query
  rcases alike_domain models domain with ⟨error, first, second⟩ | ⟨d, e, first, second, domains⟩
  · rw [first, second]
    rfl
  · rw [first, second]
    have starts : Query.start name d = Query.start name e := by
      rw [Query.start, Query.start, domains.name, domains.table]
    exact congrArg₂ (fun step start => List.foldlM step start steps) (step_alike models domains) starts

end SemanticLayer
