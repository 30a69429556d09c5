import SemanticLayer.Proofs.Nesting

namespace SemanticLayer

-- What the checked ways of putting things together can give. `allowed` says which expressions a
-- query may be given: it stands for the predicate that is defined next, with queries inside it.
inductive Query.Assembled (allowed : Expr → Prop) : Query → Prop where
  | start (name : String) (source : Domain) : Assembled allowed (.start name source)
  | select : Assembled allowed q → allowed expr → q.select label expr = .ok next →
      Assembled allowed next
  | setFilter : Assembled allowed q → allowed condition → q.setFilter condition = .ok next →
      Assembled allowed next
  | restrict : Assembled allowed q → allowed condition → q.restrict condition = .ok next →
      Assembled allowed next

mutual

inductive Expr.Built : Expr → Prop where
  | literal (value : Literal) : Expr.Built (.literal value)
  | access (side : Side) : member.Built → Expr.Built (.access member side)
  | composed : reference.Built → composition.Built →
      Expr.composed reference composition = .ok made → made.Built
  | operation : left.Built → right.Built → Expr.operation operator left right = .ok made →
      made.Built
  | aggregated : operand.Built → Expr.aggregated function (some operand) = .ok made → made.Built
  | counted : Expr.aggregated function none = .ok made → made.Built
  | column (domain name : String) (type : ExprType) : Expr.Built (.column domain name type)
  | query : Query.Assembled Expr.Built nested → Expr.Built (.query nested)

inductive Attribute.Built : Attribute → Prop where
  | mapped (domain name column : String) (type : ExprType) :
      Attribute.Built (.mapped domain name column type)
  | calculated : expr.Built → Attribute.calculated domain name expr = .ok made → made.Built
  | reference : condition.Built → Attribute.reference domain name target table condition = .ok made →
      made.Built

end

def Query.Built (q : Query) : Prop := q.Assembled Expr.Built

theorem read_built (domain name : String) (type : ScalarType) (side : Side) :
    (Expr.access (.namesake domain name type) side).Built :=
  .access side (.mapped domain name name (.scalar type))

theorem composed_parts (made : Expr.composed reference composition = .ok expr) :
    ∃ target, reference.type = .domain target ∧ composition.source = some (.domain target) ∧
      expr = .compose reference composition := by
  unfold Expr.composed at made
  split at made
  · rename_i target leads
    split at made
    · rename_i inside
      cases made
      exact ⟨target, leads, inside, rfl⟩
    · cases made
  · cases made

theorem operation_parts (made : Expr.operation operator left right = .ok expr) :
    ∃ source type, Source.union left.source right.source = .ok source ∧
      operator.resultType left.type right.type = .ok type ∧
      expr = .binary operator left right type := by
  obtain ⟨source, united, made⟩ := bind_parts made
  obtain ⟨type, typed, made⟩ := bind_parts made
  cases made
  exact ⟨source, type, united, typed, rfl⟩

theorem aggregated_parts (made : Expr.aggregated function (some operand) = .ok expr) :
    ∃ scalar, operand.type = .scalar scalar ∧ expr = .aggregate function operand := by
  simp only [Expr.aggregated] at made
  split at made
  · rename_i scalar typed
    cases made
    exact ⟨scalar, typed, rfl⟩
  · cases made

theorem counted_parts (made : Expr.aggregated function none = .ok expr) : expr = .countAll := by
  simp only [Expr.aggregated] at made
  obtain ⟨_, _, made⟩ := bind_parts made
  cases made
  rfl

theorem counted_function (made : Expr.aggregated function none = .ok expr) : function = .count := by
  cases function <;> first | rfl | cases made

theorem calculated_parts (made : Attribute.calculated domain name expr = .ok member) :
    (expr.source = none ∨ expr.source = some (.domain domain)) ∧
      member = ⟨domain, name, .value expr⟩ := by
  unfold Attribute.calculated at made
  split at made
  · rename_i constant
    cases made
    exact ⟨.inl constant, rfl⟩
  · rename_i source sourced
    split at made
    · rename_i own
      cases made
      exact ⟨.inr (own ▸ sourced), rfl⟩
    · cases made

theorem reference_parts (made : Attribute.reference domain name target table condition = .ok member) :
    checkJoin domain target condition = .ok () ∧
      member = ⟨domain, name, .reference target table condition⟩ := by
  obtain ⟨_, checked, made⟩ := bind_parts made
  cases made
  exact ⟨checked, rfl⟩

theorem addReferenceOn_parts
    (made : Domain.addReferenceOn d name target table condition = .ok (member, grown)) :
    member = ⟨d.name, name, .reference target table condition⟩ ∧
      grown = d.insert ⟨d.name, name, .reference target table condition⟩ := by
  obtain ⟨_, referred, made⟩ := bind_parts made
  cases made
  have same := (reference_parts referred).2
  exact ⟨same, by rw [same]⟩

theorem access_built (built : (Expr.access member side).Built) : member.Built := by
  cases built with
  | access _ member => exact member
  | composed _ _ made => obtain ⟨_, _, _, made⟩ := composed_parts made; cases made
  | operation _ _ made => obtain ⟨_, _, _, _, made⟩ := operation_parts made; cases made
  | aggregated _ made => obtain ⟨_, _, made⟩ := aggregated_parts made; cases made
  | counted made => cases counted_parts made

theorem compose_built (built : (Expr.compose reference composition).Built) :
    reference.Built ∧ composition.Built ∧
      ∃ target, reference.type = .domain target ∧ composition.source = some (.domain target) := by
  cases built with
  | composed first second made =>
    obtain ⟨target, leads, inside, made⟩ := composed_parts made
    cases made
    exact ⟨first, second, target, leads, inside⟩
  | operation _ _ made => obtain ⟨_, _, _, _, made⟩ := operation_parts made; cases made
  | aggregated _ made => obtain ⟨_, _, made⟩ := aggregated_parts made; cases made
  | counted made => cases counted_parts made

theorem binary_built (built : (Expr.binary operator left right type).Built) :
    left.Built ∧ right.Built ∧ operator.resultType left.type right.type = .ok type ∧
      ∃ source, Source.union left.source right.source = .ok source := by
  cases built with
  | composed _ _ made => obtain ⟨_, _, _, made⟩ := composed_parts made; cases made
  | operation one two made =>
    obtain ⟨source, type, united, typed, made⟩ := operation_parts made
    cases made
    exact ⟨one, two, typed, source, united⟩
  | aggregated _ made => obtain ⟨_, _, made⟩ := aggregated_parts made; cases made
  | counted made => cases counted_parts made

theorem aggregate_built (built : (Expr.aggregate function operand).Built) :
    operand.Built ∧ ∃ scalar, operand.type = .scalar scalar := by
  cases built with
  | composed _ _ made => obtain ⟨_, _, _, made⟩ := composed_parts made; cases made
  | operation _ _ made => obtain ⟨_, _, _, _, made⟩ := operation_parts made; cases made
  | aggregated inner made =>
    obtain ⟨scalar, typed, made⟩ := aggregated_parts made
    cases made
    exact ⟨inner, scalar, typed⟩
  | counted made => cases counted_parts made

theorem query_built (built : (Expr.query nested).Built) : nested.Built := by
  cases built with
  | composed _ _ made => obtain ⟨_, _, _, made⟩ := composed_parts made; cases made
  | operation _ _ made => obtain ⟨_, _, _, _, made⟩ := operation_parts made; cases made
  | aggregated _ made => obtain ⟨_, _, made⟩ := aggregated_parts made; cases made
  | counted made => cases counted_parts made
  | query inner => exact inner

theorem value_built (built : Attribute.Built ⟨domain, name, .value expr⟩) :
    expr.Built ∧ (expr.source = none ∨ expr.source = some (.domain domain)) := by
  cases built with
  | mapped _ _ column type => exact ⟨.column domain column type, .inr rfl⟩
  | calculated inner made =>
    obtain ⟨sourced, made⟩ := calculated_parts made
    cases made
    exact ⟨inner, sourced⟩
  | reference _ made => obtain ⟨_, made⟩ := reference_parts made; cases made

theorem reference_built (built : Attribute.Built ⟨domain, name, .reference target table condition⟩) :
    condition.Built ∧ checkJoin domain target condition = .ok () := by
  cases built with
  | calculated _ made => obtain ⟨_, made⟩ := calculated_parts made; cases made
  | reference inner made =>
    obtain ⟨checked, made⟩ := reference_parts made
    cases made
    exact ⟨inner, checked⟩

theorem place_member (projections : List Projection)
    (member : p ∈ Query.place label expr projections) : p = ⟨label, expr⟩ ∨ p ∈ projections := by
  induction projections with
  | nil => exact .inl (List.mem_singleton.mp member)
  | cons first rest ih =>
    rw [Query.place] at member
    split at member
    · rcases List.mem_cons.mp member with placed | kept
      · exact .inl placed
      · exact .inr (List.mem_cons_of_mem first kept)
    · rcases List.mem_cons.mp member with same | later
      · exact .inr (same ▸ List.mem_cons_self)
      · rcases ih later with placed | kept
        · exact .inl placed
        · exact .inr (List.mem_cons_of_mem first kept)

theorem select_parts (made : Query.select q label expr = .ok next) :
    expr.checkScope q.source = .ok () ∧
      next = { q with projections := Query.place label expr q.projections } := by
  unfold Query.select at made
  split at made
  · rename_i inside
    cases made
    exact ⟨inside, rfl⟩
  · cases made

theorem setFilter_parts (made : Query.setFilter q condition = .ok next) :
    condition.type = .boolean ∧ condition.checkScope q.source = .ok () ∧
      next = { q with filter := some condition } := by
  unfold Query.setFilter at made
  split at made
  · cases made
  · rename_i boolean
    split at made
    · rename_i inside
      cases made
      exact ⟨by simpa using boolean, inside, rfl⟩
    · cases made

theorem restrict_parts (made : Query.restrict q condition = .ok next) :
    ∃ filter, q.setFilter filter = .ok next ∧ (filter = condition ∨
      ∃ old, q.filter = some old ∧ Expr.both old condition = .ok filter) := by
  unfold Query.restrict at made
  cases filtered : q.filter with
  | none =>
    rw [filtered] at made
    exact ⟨condition, made, .inl rfl⟩
  | some old =>
    rw [filtered] at made
    obtain ⟨filter, joined, made⟩ := bind_parts made
    exact ⟨filter, made, .inr ⟨old, rfl, joined⟩⟩

structure Query.Checked (q : Query) : Prop where
  columns : ∀ p ∈ q.projections, p.expr.Built ∧ p.expr.checkScope q.source = .ok ()
  filter : ∀ condition ∈ q.filter,
    condition.Built ∧ condition.type = .boolean ∧ condition.checkScope q.source = .ok ()

theorem select_checked (checked : Query.Checked q) (built : expr.Built)
    (made : q.select label expr = .ok next) : next.Checked := by
  obtain ⟨inside, rfl⟩ := select_parts made
  refine ⟨?_, checked.filter⟩
  intro p member
  rcases place_member q.projections member with rfl | old
  · exact ⟨built, inside⟩
  · exact checked.columns p old

theorem setFilter_checked (checked : Query.Checked q) (built : condition.Built)
    (made : q.setFilter condition = .ok next) : next.Checked := by
  obtain ⟨boolean, inside, rfl⟩ := setFilter_parts made
  refine ⟨checked.columns, ?_⟩
  intro filter present
  cases present
  exact ⟨built, boolean, inside⟩

theorem restrict_checked (checked : Query.Checked q) (built : condition.Built)
    (made : q.restrict condition = .ok next) : next.Checked := by
  obtain ⟨filter, made, same | ⟨old, filtered, joined⟩⟩ := restrict_parts made
  · exact setFilter_checked checked (same ▸ built) made
  · have both : filter.Built := .operation (checked.filter old filtered).1 built joined
    exact setFilter_checked checked both made

theorem built_checked (built : Query.Built q) : q.Checked := by
  induction built with
  | start name source => exact ⟨by simp [Query.start], by simp [Query.start]⟩
  | select _ expr made checked => exact select_checked checked expr made
  | setFilter _ condition made checked => exact setFilter_checked checked condition made
  | restrict _ condition made checked => exact restrict_checked checked condition made

theorem said_checked (built : Query.Built q) (said : q.Says expr) :
    expr.Built ∧ expr.checkScope q.source = .ok () := by
  have checked := built_checked built
  rcases said with column | filter
  · obtain ⟨p, selected, rfl⟩ := List.mem_map.mp column
    exact checked.columns p selected
  · exact ⟨(checked.filter expr filter).1, (checked.filter expr filter).2.2⟩

end SemanticLayer
