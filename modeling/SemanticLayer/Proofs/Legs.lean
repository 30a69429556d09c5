import SemanticLayer.Statement.Plan

namespace SemanticLayer

-- A reference that is followed from a path, read off an expression without planning anything.
structure Leg where
  parent : Path
  owner : String
  name : String
  target : String
  table : String
  condition : Expr

namespace Leg

def path (leg : Leg) : Path := leg.parent.extend leg.owner leg.name leg.target

def hop (leg : Leg) : Hop :=
  ⟨leg.path, leg.table, fun _ => .ofPlan (leg.condition.plan (.join leg.parent leg.path))⟩

end Leg

-- Where an access is read, if it is read anywhere: the error of `locate` is left out.
def Scope.place : Scope → String → Side → Path
  | .at path, _, _ => path
  | .join parent _, _, .left => parent
  | .join _ child, _, .right => child
  | .join parent child, domain, .matching => if parent.domain = domain then parent else child

def Scope.paths : Scope → List Path
  | .at path => [path]
  | .join parent child => [parent, child]

namespace Expr

-- What leads nowhere stays where it is.
def arrival : Expr → Scope → Path
  | .access ⟨domain, name, .reference target _ _⟩ side, scope =>
      (scope.place domain side).extend domain name target
  | .compose reference composition, scope => composition.arrival (.at (reference.arrival scope))
  | .access ⟨domain, _, _⟩ side, scope => scope.place domain side
  | _, scope => scope.place "" .left

def route : Expr → Scope → List Leg
  | .access ⟨domain, name, .reference target table condition⟩ side, scope =>
      [⟨scope.place domain side, domain, name, target, table, condition⟩]
  | .compose reference composition, scope =>
      reference.route scope ++ composition.route (.at (reference.arrival scope))
  | _, _ => []

-- A nested query makes legs of its own.
def legs : Expr → Scope → List Leg
  | .access ⟨domain, _, .value expr⟩ side, scope => expr.legs (.at (scope.place domain side))
  | .compose reference composition, scope =>
      reference.route scope ++ composition.legs (.at (reference.arrival scope))
  | .binary _ left right _, scope => left.legs scope ++ right.legs scope
  | .aggregate _ operand, scope => operand.legs scope
  | _, _ => []

end Expr

def Leg.onward (leg : Leg) : List Leg := leg.condition.legs (.join leg.parent leg.path)

def Query.outset (q : Query) : List Leg :=
  q.projections.flatMap (·.expr.legs (.at (.root q.source))) ++
    q.filter.toList.flatMap (·.legs (.at (.root q.source)))

theorem bind_parts {ε α β : Type} {first : Except ε α} {next : α → Except ε β} {result : β}
    (ran : first >>= next = .ok result) : ∃ value, first = .ok value ∧ next value = .ok result := by
  cases first with
  | error error => cases ran
  | ok value => exact ⟨value, rfl, ran⟩

theorem map_parts {ε α β : Type} {first : Except ε α} {result : α → β} {last : β}
    (ran : result <$> first = .ok last) : ∃ value, first = .ok value ∧ last = result value := by
  cases first with
  | error error => cases ran
  | ok value => cases ran; exact ⟨value, rfl, rfl⟩

theorem locate_place (found : Scope.locate scope domain name side = .ok path) :
    path = scope.place domain side := by
  cases scope with
  | «at» here => cases found; rfl
  | join parent child =>
    cases side with
    | left => cases found; rfl
    | right => cases found; rfl
    | matching =>
      simp only [Scope.locate] at found
      split at found <;> simp_all [Scope.place]

theorem place_paths : Scope.place scope domain side ∈ scope.paths := by
  cases scope with
  | «at» here => exact List.mem_singleton.mpr rfl
  | join parent child =>
    cases side with
    | left => simp [Scope.place, Scope.paths]
    | right => simp [Scope.place, Scope.paths]
    | matching =>
      simp only [Scope.place, Scope.paths]
      split <;> simp

theorem planLiteral_term (made : planLiteral value = .ok planned) :
    planned = ⟨.literal value, []⟩ := by
  cases value with
  | decimal value =>
    simp only [planLiteral] at made
    split at made <;> cases made
    rfl
  | _ => cases made; rfl

-- What holds of every expression that is planned, and of every reference that is followed. All
-- other modules reach the planner through this principle, so that it is unfolded only here.
section
variable {reads : Expr → Scope → Planned → Prop} {leads : Expr → Scope → Path → List Hop → Prop}

theorem plan_induction
    (literal : ∀ value scope, planLiteral value = .ok ⟨.literal value, []⟩ →
      reads (.literal value) scope ⟨.literal value, []⟩)
    (mapped : ∀ domain name owner column type side scope path,
      scope.locate domain name side = .ok path →
      reads (.access ⟨domain, name, .value (.column owner column type)⟩ side) scope
        ⟨.column path column, []⟩)
    (calculated : ∀ domain name expr side scope path planned,
      (∀ owner column type, expr ≠ .column owner column type) →
      scope.locate domain name side = .ok path → reads expr (.at path) planned →
      reads (.access ⟨domain, name, .value expr⟩ side) scope planned)
    (compose : ∀ reference composition scope path hops planned,
      leads reference scope path hops → reads composition (.at path) planned →
      reads (.compose reference composition) scope ⟨planned.term, hops ++ planned.hops⟩)
    (binary : ∀ operator left right type scope first second,
      reads left scope first → reads right scope second →
      reads (.binary operator left right type) scope
        ⟨.binary operator first.term second.term, first.hops ++ second.hops⟩)
    (countAll : ∀ scope, reads .countAll scope ⟨.countAll, []⟩)
    (aggregate : ∀ function operand scope planned, reads operand scope planned →
      reads (.aggregate function operand) scope ⟨.aggregate function planned.term, planned.hops⟩)
    (column : ∀ domain name type scope path, scope.locate domain name .matching = .ok path →
      reads (.column domain name type) scope ⟨.column path name, []⟩)
    (query : ∀ nested scope plan, nested.plan = .ok plan →
      reads (.query nested) scope ⟨.subquery () plan, []⟩)
    (followed : ∀ domain name target table condition side scope parent,
      scope.locate domain name side = .ok parent →
      leads (.access ⟨domain, name, .reference target table condition⟩ side) scope
        (parent.extend domain name target)
        [Leg.hop ⟨parent, domain, name, target, table, condition⟩])
    (chained : ∀ reference composition scope inner path hops more,
      leads reference scope inner hops → leads composition (.at inner) path more →
      leads (.compose reference composition) scope path (hops ++ more)) :
    (∀ expr scope planned, expr.plan scope = .ok planned → reads expr scope planned) ∧
      ∀ expr scope path hops, expr.navigate scope = .ok (path, hops) →
        leads expr scope path hops := by
  have whole := Expr.plan.mutual_induct
    (fun expr scope => ∀ planned, expr.plan scope = .ok planned → reads expr scope planned)
    (fun _ => True) (fun _ _ => True)
    (fun expr scope => ∀ path hops, expr.navigate scope = .ok (path, hops) →
      leads expr scope path hops)
    ?literal ?mapped ?calculated ?value ?compose ?binary ?countAll ?aggregate ?column ?query
    ?followed ?stuck ?chained ?other ?statement ?none ?more
  · exact ⟨whole.1, whole.2.2.2⟩
  case literal =>
    intro value scope planned ran
    rw [Expr.plan] at ran
    cases planLiteral_term ran
    exact literal value scope ran
  case mapped =>
    intro domain name owner column type side scope planned ran
    rw [Expr.plan] at ran
    obtain ⟨path, found, made⟩ := bind_parts ran
    cases made
    exact mapped domain name owner column type side scope path found
  case calculated =>
    intro domain name expr side scope other ih planned ran
    rw [Expr.plan] at ran
    · obtain ⟨path, found, made⟩ := bind_parts ran
      exact calculated domain name expr side scope path planned other found (ih path planned made)
    · exact other
  case value =>
    intro domain name target table condition side scope planned ran
    rw [Expr.plan] at ran
    obtain ⟨_, _, made⟩ := bind_parts ran
    cases made
  case compose =>
    intro reference composition scope first second planned ran
    rw [Expr.plan] at ran
    obtain ⟨⟨path, hops⟩, led, rest⟩ := bind_parts ran
    obtain ⟨inner, made, rest⟩ := bind_parts rest
    cases rest
    exact compose reference composition scope path hops inner (first path hops led)
      (second path inner made)
  case binary =>
    intro operator left right type scope first second planned ran
    rw [Expr.plan] at ran
    obtain ⟨one, madeOne, rest⟩ := bind_parts ran
    obtain ⟨two, madeTwo, rest⟩ := bind_parts rest
    cases rest
    exact binary operator left right type scope one two (first one madeOne) (second two madeTwo)
  case countAll =>
    intro scope planned ran
    rw [Expr.plan] at ran
    cases ran
    exact countAll scope
  case aggregate =>
    intro function operand scope ih planned ran
    rw [Expr.plan] at ran
    obtain ⟨inner, made, rest⟩ := bind_parts ran
    cases rest
    exact aggregate function operand scope inner (ih inner made)
  case column =>
    intro domain name type scope planned ran
    rw [Expr.plan] at ran
    obtain ⟨path, found, made⟩ := bind_parts ran
    cases made
    exact column domain name type scope path found
  case query =>
    intro nested scope _ planned ran
    rw [Expr.plan] at ran
    obtain ⟨plan, made, rest⟩ := bind_parts ran
    cases rest
    exact query nested scope plan made
  case followed =>
    intro domain name target table condition side scope _ path hops ran
    rw [Expr.navigate] at ran
    obtain ⟨parent, found, made⟩ := bind_parts ran
    cases made
    exact followed domain name target table condition side scope parent found
  case stuck =>
    intro domain name expr side scope path hops ran
    rw [Expr.navigate] at ran
    obtain ⟨_, _, made⟩ := bind_parts ran
    cases made
  case chained =>
    intro reference composition scope first second path hops ran
    rw [Expr.navigate] at ran
    obtain ⟨⟨inner, hops⟩, led, rest⟩ := bind_parts ran
    obtain ⟨⟨path, more⟩, ledOn, rest⟩ := bind_parts rest
    cases rest
    exact chained reference composition scope inner path hops more (first inner hops led)
      (second inner path more ledOn)
  case other =>
    intro expr scope noReference noValue noChain path hops ran
    rw [Expr.navigate] at ran
    · cases ran
    · exact noReference
    · exact noValue
    · exact noChain
  case statement => intros; trivial
  case none => intros; trivial
  case more => intros; trivial

end

-- The hops of a plan are its legs: they were there before anything was planned.
theorem plan_legs :
    (∀ expr scope planned, Expr.plan expr scope = .ok planned →
      planned.hops = (expr.legs scope).map Leg.hop) ∧
    ∀ expr scope path hops, Expr.navigate expr scope = .ok (path, hops) →
      path = expr.arrival scope ∧ hops = (expr.route scope).map Leg.hop := by
  refine plan_induction ?literal ?mapped ?calculated ?compose ?binary ?countAll ?aggregate ?column
    ?query ?followed ?chained
  case literal => intros; rfl
  case mapped => intros; rfl
  case calculated =>
    intro domain name expr side scope path planned _ found ih
    rw [ih, Expr.legs, locate_place found]
  case compose =>
    intro reference composition scope path hops planned led ih
    obtain ⟨rfl, rfl⟩ := led
    simp [Expr.legs, ih]
  case binary =>
    intro operator left right type scope first second one two
    simp [Expr.legs, one, two]
  case countAll => intros; rfl
  case aggregate =>
    intro function operand scope planned ih
    simpa [Expr.legs] using ih
  case column => intros; rfl
  case query => intros; rfl
  case followed =>
    intro domain name target table condition side scope parent found
    simp [Expr.arrival, Expr.route, locate_place found]
  case chained =>
    intro reference composition scope inner path hops more first second
    obtain ⟨rfl, rfl⟩ := first
    obtain ⟨rfl, rfl⟩ := second
    simp [Expr.arrival, Expr.route]

end SemanticLayer
