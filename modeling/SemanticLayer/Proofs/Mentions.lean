import SemanticLayer.Proofs.Formation

namespace SemanticLayer

-- Nothing is evaluated: a query may mention what it never comes upon.
inductive Expr.Mentions : Expr → Attribute → Prop where
  | access : Mentions (.access member side) member
  | definition : Mentions expr member → Mentions (.access ⟨domain, name, .value expr⟩ side) member
  | condition : Mentions condition member →
      Mentions (.access ⟨domain, name, .reference target table condition⟩ side) member
  | reference : Mentions reference member → Mentions (.compose reference composition) member
  | composition : Mentions composition member → Mentions (.compose reference composition) member
  | left : Mentions left member → Mentions (.binary operator left right result) member
  | right : Mentions right member → Mentions (.binary operator left right result) member
  | operand : Mentions operand member → Mentions (.aggregate function operand) member
  | said : Query.Says nested expr → Mentions expr member → Mentions (.query nested) member

theorem column_mentions (domain name : String) (type : ScalarType)
    (mentioned : (Expr.access (.namesake domain name type) side).Mentions member) :
    member.isReference = false := by
  cases mentioned with
  | access => rfl
  | definition inside => cases inside

-- A reference that compares two columns mentions no other reference.
theorem link_mentions (mentioned : (Expr.access ⟨owner, label, .reference target table
      (.binary operator (.access (.namesake owner near nearType) nearSide)
        (.access (.namesake target far farType) farSide) result)⟩ side).Mentions member)
    (reference : member.isReference = true) : member = ⟨owner, label, .reference target table
      (.binary operator (.access (.namesake owner near nearType) nearSide)
        (.access (.namesake target far farType) farSide) result)⟩ := by
  cases mentioned with
  | access => rfl
  | condition inside =>
    cases inside with
    | left inside => simp [column_mentions _ _ _ inside] at reference
    | right inside => simp [column_mentions _ _ _ inside] at reference

def Query.Mentions (q : Query) (member : Attribute) : Prop :=
  ∃ expr, q.Says expr ∧ expr.Mentions member

def Leg.reference (leg : Leg) : Attribute :=
  ⟨leg.owner, leg.name, .reference leg.target leg.table leg.condition⟩

theorem mentions_condition
    (mentioned : Expr.Mentions expr ⟨domain, name, .reference target table condition⟩)
    (inside : condition.Mentions member) : expr.Mentions member := by
  generalize same : Attribute.mk domain name (.reference target table condition) = reference
    at mentioned
  induction mentioned with
  | access => exact same ▸ .condition inside
  | definition _ ih => exact .definition (ih same)
  | condition _ ih => exact .condition (ih same)
  | reference _ ih => exact .reference (ih same)
  | composition _ ih => exact .composition (ih same)
  | left _ ih => exact .left (ih same)
  | right _ ih => exact .right (ih same)
  | operand _ ih => exact .operand (ih same)
  | said expr _ ih => exact .said expr (ih same)

theorem route_mentioned (expr : Expr) (scope : Scope) (member : leg ∈ expr.route scope) :
    expr.Mentions leg.reference := by
  fun_induction Expr.route expr scope with
  | case1 =>
    cases List.mem_singleton.mp member
    exact .access
  | case2 reference composition scope first second =>
    rcases List.mem_append.mp member with early | late
    · exact .reference (first early)
    · exact .composition (second late)
  | case3 => cases member

theorem legs_mentioned (expr : Expr) (scope : Scope) (member : leg ∈ expr.legs scope) :
    expr.Mentions leg.reference := by
  fun_induction Expr.legs expr scope with
  | case1 domain name expr side scope ih => exact .definition (ih member)
  | case2 reference composition scope ih =>
    rcases List.mem_append.mp member with early | late
    · exact .reference (route_mentioned reference scope early)
    · exact .composition (ih late)
  | case3 operator left right type scope one two =>
    rcases List.mem_append.mp member with inLeft | inRight
    · exact .left (one inLeft)
    · exact .right (two inRight)
  | case4 function operand scope ih => exact .operand (ih member)
  | case5 => cases member

theorem queries_mentioned (expr : Expr) (member : r ∈ expr.queries)
    (mentioned : r.Mentions item) : expr.Mentions item := by
  fun_induction Expr.queries expr with
  | case1 domain name expr side ih => exact .definition (ih member)
  | case2 reference composition ih => exact .composition (ih member)
  | case3 operator left right type one two =>
    rcases List.mem_append.mp member with inLeft | inRight
    · exact .left (one inLeft)
    · exact .right (two inRight)
  | case4 function operand ih => exact .operand (ih member)
  | case5 nested =>
    cases List.mem_singleton.mp member
    obtain ⟨expr, said, inside⟩ := mentioned
    exact .said said inside
  | case6 => cases member

theorem tours_mentioned (tours : Query.Tours q whole) : ∀ leg ∈ whole, q.Mentions leg.reference := by
  refine tours_inherit tours ?_ ?_
  · intro leg outset
    obtain ⟨expr, said, inside⟩ := outset_cases outset
    exact ⟨expr, said, legs_mentioned expr _ inside⟩
  · rintro leg _ ⟨expr, said, mentioned⟩ more onward
    exact ⟨expr, said, mentions_condition mentioned (legs_mentioned leg.condition _ onward)⟩

theorem readings_mentioned (tours : Query.Tours q whole) (member : reading ∈ q.readings whole)
    (mentioned : reading.expr.Mentions item) : q.Mentions item := by
  rcases readings_cases member with ⟨_, said⟩ | ⟨leg, present, rfl⟩
  · exact ⟨reading.expr, said, mentioned⟩
  · obtain ⟨expr, said, inside⟩ := tours_mentioned tours leg present
    exact ⟨expr, said, mentions_condition inside mentioned⟩

theorem within_mentioned (within : Query.Within q r) (mentioned : r.Mentions item) :
    q.Mentions item := by
  induction within with
  | self => exact mentioned
  | deeper tours reading nested _ ih =>
    exact readings_mentioned tours reading (queries_mentioned _ nested (ih mentioned))

theorem mentions_built (mentioned : Expr.Mentions expr member) (built : expr.Built) :
    member.Built := by
  induction mentioned with
  | access => exact access_built built
  | definition _ ih => exact ih (value_built (access_built built)).1
  | condition _ ih => exact ih (reference_built (access_built built)).1
  | reference _ ih => exact ih (compose_built built).1
  | composition _ ih => exact ih (compose_built built).2.1
  | left _ ih => exact ih (binary_built built).1
  | right _ ih => exact ih (binary_built built).2.1
  | operand _ ih => exact ih (aggregate_built built).1
  | said said _ ih => exact ih (said_checked (query_built built) said).1

theorem tours_built (built : Query.Built q) (tours : q.Tours whole) :
    ∀ leg ∈ whole, leg.condition.Built := by
  intro leg present
  obtain ⟨expr, said, mentioned⟩ := tours_mentioned tours leg present
  exact (reference_built (mentions_built mentioned (said_checked built said).1)).1

theorem said_smaller (said : Query.Says q expr) : sizeOf expr < sizeOf q := by
  obtain ⟨name, source, table, projections, filter⟩ := q
  rw [Query.mk.sizeOf_spec]
  rcases said with column | filtered
  · obtain ⟨⟨label, expr⟩, selected, rfl⟩ := List.mem_map.mp column
    have smaller : sizeOf (Projection.mk label expr) < sizeOf projections :=
      List.sizeOf_lt_of_mem selected
    rw [Projection.mk.sizeOf_spec] at smaller
    dsimp only
    omega
  · cases filtered
    rw [Option.some.sizeOf_spec]
    omega

theorem mentions_smaller (mentioned : Expr.Mentions expr member) : sizeOf member < sizeOf expr := by
  induction mentioned with
  | access => rw [Expr.access.sizeOf_spec]; omega
  | definition _ ih =>
    rw [Expr.access.sizeOf_spec, Attribute.mk.sizeOf_spec, Definition.value.sizeOf_spec]
    omega
  | condition _ ih =>
    rw [Expr.access.sizeOf_spec, Attribute.mk.sizeOf_spec, Definition.reference.sizeOf_spec]
    omega
  | reference _ ih | composition _ ih => rw [Expr.compose.sizeOf_spec]; omega
  | left _ ih | right _ ih => rw [Expr.binary.sizeOf_spec]; omega
  | operand _ ih => rw [Expr.aggregate.sizeOf_spec]; omega
  | said said _ ih =>
    have smaller := said_smaller said
    rw [Expr.query.sizeOf_spec]
    omega

theorem queries_smaller (expr : Expr) (member : r ∈ expr.queries) : sizeOf r < sizeOf expr := by
  fun_induction Expr.queries expr with
  | case1 domain name expr side ih =>
    have smaller := ih member
    rw [Expr.access.sizeOf_spec, Attribute.mk.sizeOf_spec, Definition.value.sizeOf_spec]
    omega
  | case2 reference composition ih =>
    have smaller := ih member
    rw [Expr.compose.sizeOf_spec]
    omega
  | case3 operator left right type one two =>
    rw [Expr.binary.sizeOf_spec]
    rcases List.mem_append.mp member with inLeft | inRight
    · have smaller := one inLeft
      omega
    · have smaller := two inRight
      omega
  | case4 function operand ih =>
    have smaller := ih member
    rw [Expr.aggregate.sizeOf_spec]
    omega
  | case5 nested =>
    cases List.mem_singleton.mp member
    rw [Expr.query.sizeOf_spec]
    omega
  | case6 => cases member

theorem readings_smaller (tours : Query.Tours q whole) (member : reading ∈ q.readings whole) :
    sizeOf reading.expr < sizeOf q := by
  rcases readings_cases member with ⟨_, said⟩ | ⟨leg, present, rfl⟩
  · exact said_smaller said
  · obtain ⟨expr, said, mentioned⟩ := tours_mentioned tours leg present
    have one := said_smaller said
    have two := mentions_smaller mentioned
    rw [Leg.reference, Attribute.mk.sizeOf_spec, Definition.reference.sizeOf_spec] at two
    have three : leg.reading.expr = leg.condition := rfl
    rw [three]
    omega

theorem nested_smaller (tours : Query.Tours q whole) (member : reading ∈ q.readings whole)
    (nested : r ∈ reading.expr.queries) : sizeOf r < sizeOf q :=
  Nat.lt_trans (queries_smaller _ nested) (readings_smaller tours member)

end SemanticLayer
