import SemanticLayer.Proofs.Faults
import SemanticLayer.Proofs.Ownership

namespace SemanticLayer

-- What planning may find fault with once everything has been checked. The checks ask of what is
-- followed that its type is a domain; the planner asks for a reference.

inductive Expr.Steers : Expr → Attribute → Prop where
  | access : Steers (.access member side) member
  | reference : Steers reference member → Steers (.compose reference composition) member
  | composition : Steers composition member → Steers (.compose reference composition) member

inductive Expr.Traverses : Expr → Attribute → Prop where
  | steered : reference.Steers member → Traverses (.compose reference composition) member
  | condition : reference.Steers ⟨domain, name, .reference target table condition⟩ →
      Traverses condition member → Traverses (.compose reference composition) member
  | composition : Traverses composition member → Traverses (.compose reference composition) member
  | definition : Traverses expr member → Traverses (.access ⟨domain, name, .value expr⟩ side) member
  | left : Traverses left member → Traverses (.binary operator left right result) member
  | right : Traverses right member → Traverses (.binary operator left right result) member
  | operand : Traverses operand member → Traverses (.aggregate function operand) member
  | said : Query.Says nested expr → Traverses expr member → Traverses (.query nested) member

def Query.Traverses (q : Query) (member : Attribute) : Prop :=
  ∃ expr, q.Says expr ∧ expr.Traverses member

structure Error.Blames (error : Error) (member : Attribute) : Prop where
  told : error = .notAReference member.domain member.name
  value : member.isReference = false
  record : ∃ target, member.type = .domain target

theorem traverses_condition
    (traverses : Expr.Traverses expr ⟨domain, name, .reference target table condition⟩)
    (inside : condition.Traverses member) : expr.Traverses member := by
  generalize same : Attribute.mk domain name (.reference target table condition) = reference
    at traverses
  induction traverses with
  | steered steers =>
    subst same
    exact .condition steers inside
  | condition steers _ ih => exact .condition steers (ih same)
  | composition _ ih => exact .composition (ih same)
  | definition _ ih => exact .definition (ih same)
  | left _ ih => exact .left (ih same)
  | right _ ih => exact .right (ih same)
  | operand _ ih => exact .operand (ih same)
  | said said _ ih => exact .said said (ih same)

theorem route_steered (expr : Expr) (scope : Scope) (member : leg ∈ expr.route scope) :
    expr.Steers leg.reference := by
  fun_induction Expr.route expr scope with
  | case1 =>
    cases List.mem_singleton.mp member
    exact .access
  | case2 reference composition scope first second =>
    rcases List.mem_append.mp member with early | late
    · exact .reference (first early)
    · exact .composition (second late)
  | case3 => cases member

theorem legs_traversed (expr : Expr) (scope : Scope) (member : leg ∈ expr.legs scope) :
    expr.Traverses leg.reference := by
  fun_induction Expr.legs expr scope with
  | case1 domain name expr side scope ih => exact .definition (ih member)
  | case2 reference composition scope ih =>
    rcases List.mem_append.mp member with early | late
    · exact .steered (route_steered reference scope early)
    · exact .composition (ih late)
  | case3 operator left right type scope one two =>
    rcases List.mem_append.mp member with inLeft | inRight
    · exact .left (one inLeft)
    · exact .right (two inRight)
  | case4 function operand scope ih => exact .operand (ih member)
  | case5 => cases member

theorem queries_traversed (expr : Expr) (member : r ∈ expr.queries) (traverses : r.Traverses item) :
    expr.Traverses item := by
  fun_induction Expr.queries expr with
  | case1 domain name expr side ih => exact .definition (ih member)
  | case2 reference composition ih => exact .composition (ih member)
  | case3 operator left right type one two =>
    rcases List.mem_append.mp member with inLeft | inRight
    · exact .left (one inLeft)
    · exact .right (two inRight)
  | case4 function operand ih => exact .operand (ih member)
  | case5 nested =>
    cases List.mem_singleton.mp member
    obtain ⟨expr, said, inside⟩ := traverses
    exact .said said inside
  | case6 => cases member

theorem tours_traversed (tours : Query.Tours q whole) :
    ∀ leg ∈ whole, q.Traverses leg.reference := by
  refine tours_inherit tours ?_ ?_
  · intro leg outset
    obtain ⟨expr, said, inside⟩ := outset_cases outset
    exact ⟨expr, said, legs_traversed expr _ inside⟩
  · rintro leg _ ⟨expr, said, traverses⟩ more onward
    exact ⟨expr, said, traverses_condition traverses (legs_traversed leg.condition _ onward)⟩

theorem readings_traversed (tours : Query.Tours q whole) (member : reading ∈ q.readings whole)
    (traverses : reading.expr.Traverses item) : q.Traverses item := by
  rcases readings_cases member with ⟨_, said⟩ | ⟨leg, present, rfl⟩
  · exact ⟨reading.expr, said, traverses⟩
  · obtain ⟨expr, said, led⟩ := tours_traversed tours leg present
    exact ⟨expr, said, traverses_condition led traverses⟩

theorem locate_internal (failed : Scope.locate scope domain name side = .error error) :
    error.isInternal = true := by
  cases scope with
  | «at» path => cases failed
  | join parent child =>
    cases side with
    | left => cases failed
    | right => cases failed
    | matching =>
      simp only [Scope.locate] at failed
      split at failed <;> cases failed
      rfl

theorem literal_internal (failed : planLiteral value = .error error) : error.isInternal = true := by
  unfold planLiteral at failed
  split at failed
  · split at failed <;> cases failed
    rfl
  · cases failed

-- One step of the search: the fault is internal, or a member is blamed that the expression
-- traverses, or it lies in a query inside.
theorem plan_blames :
    (∀ expr scope error, Expr.plan expr scope = .error error → expr.Built →
      error.isInternal = true ∨ (∃ member, error.Blames member ∧ expr.Traverses member) ∨
        ∃ r ∈ expr.queries, r.plan = .error error) ∧
    ∀ expr scope error, Expr.navigate expr scope = .error error → expr.Built →
      ∀ target, expr.type = .domain target →
        error.isInternal = true ∨ ∃ member, error.Blames member ∧ expr.Steers member := by
  refine fault_induction ?literal ?lost ?calculated ?record ?reference ?composition ?left ?right
    ?operand ?column ?query ?adrift ?value ?first ?second ?still
  case literal =>
    intro value scope error failed _
    exact .inl (literal_internal failed)
  case lost =>
    intro member side scope error failed _
    exact .inl (locate_internal failed)
  case calculated =>
    intro domain name expr side scope path error _ ih built
    refine (ih (value_built (access_built built)).1).imp_right (Or.imp_left ?_)
    rintro ⟨member, blames, traverses⟩
    exact ⟨member, blames, .definition traverses⟩
  case record => intros; exact .inl rfl
  case reference =>
    intro reference composition scope error ih built
    obtain ⟨first, _, target, leads, _⟩ := compose_built built
    rcases ih first target leads with internal | ⟨member, blames, steers⟩
    · exact .inl internal
    · exact .inr (.inl ⟨member, blames, .steered steers⟩)
  case composition =>
    intro reference composition scope path hops error _ ih built
    refine (ih (compose_built built).2.1).imp_right (Or.imp_left ?_)
    rintro ⟨member, blames, traverses⟩
    exact ⟨member, blames, .composition traverses⟩
  case left =>
    intro operator left right type scope error ih built
    rcases ih (binary_built built).1 with
      internal | ⟨member, blames, traverses⟩ | ⟨r, nested, failed⟩
    · exact .inl internal
    · exact .inr (.inl ⟨member, blames, .left traverses⟩)
    · exact .inr (.inr ⟨r, List.mem_append_left _ nested, failed⟩)
  case right =>
    intro operator left right type scope planned error _ ih built
    rcases ih (binary_built built).2.1 with
      internal | ⟨member, blames, traverses⟩ | ⟨r, nested, failed⟩
    · exact .inl internal
    · exact .inr (.inl ⟨member, blames, .right traverses⟩)
    · exact .inr (.inr ⟨r, List.mem_append_right _ nested, failed⟩)
  case operand =>
    intro function operand scope error ih built
    refine (ih (aggregate_built built).1).imp_right (Or.imp_left ?_)
    rintro ⟨member, blames, traverses⟩
    exact ⟨member, blames, .operand traverses⟩
  case column =>
    intro domain name type scope error failed _
    exact .inl (locate_internal failed)
  case query =>
    intro nested scope error failed _
    exact .inr (.inr ⟨nested, List.mem_singleton_self _, failed⟩)
  case adrift =>
    intro member side scope error failed _ _ _
    exact .inl (locate_internal failed)
  case value =>
    -- All that the checks asked for is here: the type is that of a record.
    intro domain name expr side scope _ target leads
    exact .inr ⟨⟨domain, name, .value expr⟩, ⟨rfl, rfl, target, leads⟩, .access⟩
  case first =>
    intro reference composition scope error ih built _ _
    obtain ⟨first, _, target, leads, _⟩ := compose_built built
    rcases ih first target leads with internal | ⟨member, blames, steers⟩
    · exact .inl internal
    · exact .inr ⟨member, blames, .reference steers⟩
  case second =>
    intro reference composition scope inner hops error _ ih built target leads
    rcases ih (compose_built built).2.1 target leads with internal | ⟨member, blames, steers⟩
    · exact .inl internal
    · exact .inr ⟨member, blames, .composition steers⟩
  case still => intros; exact .inl rfl

theorem fault_blames (q : Query) (built : q.Built) (failed : q.plan = .error error) :
    error.isInternal = true ∨ ∃ member, error.Blames member ∧ q.Traverses member := by
  induction size : sizeOf q using Nat.strongRecOn generalizing q with
  | ind bound ih =>
    obtain ⟨whole, tours⟩ := tours_exist q
    obtain ⟨before, reading, after, split, _, stopped⟩ := plan_breaks tours failed
    have listed : reading ∈ q.readings whole := split ▸ List.mem_append_right _ List.mem_cons_self
    have inner := readings_built built tours listed
    rcases plan_blames.1 _ _ _ stopped inner with
      internal | ⟨member, blames, traverses⟩ | ⟨r, nested, stopped⟩
    · exact .inl internal
    · exact .inr ⟨member, blames, readings_traversed tours listed traverses⟩
    · -- What the smaller query traverses this one traverses in the reading.
      have smaller : sizeOf r < bound := size ▸ nested_smaller tours listed nested
      rcases ih (sizeOf r) smaller r (queries_built _ inner nested) stopped rfl with
        internal | ⟨member, blames, traverses⟩
      · exact .inl internal
      · exact .inr ⟨member, blames,
          readings_traversed tours listed (queries_traversed _ nested traverses)⟩

-- A query that was put together with all the checks fails with an error of generation, unless it
-- traverses a member that has a record for its value without being a reference: a calculated
-- attribute, or a column that was given the type of one. Then the error can be that the member is
-- no reference.
theorem sql_faults (q : Query) (built : q.Built) : ∀ n error, q.sqlFrom n = .error error →
    error.isInternal = true ∨ ∃ member, error.Blames member ∧ q.Traverses member := by
  intro n error failed
  exact fault_blames q built (sqlFrom_failed failed)

-- An attribute that is calculated to be the manager can be navigated into, for all the checks say.
namespace Staff

def head : Attribute := ⟨"staff", "head", .value (.access manager .matching)⟩

def headName : Expr :=
  .compose (.access head .matching) (.read "staff" "name" .string)

def heads : Query := ⟨"heads", "staff", "staff", [⟨"name", headName⟩], none⟩

theorem heads_built : heads.Built := by
  have calculated : Attribute.calculated "staff" "head" (.access manager .matching) =
      .ok head := rfl
  have head_built : head.Built := .calculated (.access .matching manager_built) calculated
  have named : headName.Built :=
    .composed (.access .matching head_built) (read_built "staff" "name" .string .matching) rfl
  exact .select (.start "heads" ⟨"staff", "staff", []⟩) named rfl

theorem heads_fault : heads.Built ∧ heads.sqlFrom 0 = .error (.notAReference "staff" "head") ∧
    ∃ member, (Error.notAReference "staff" "head").Blames member ∧ heads.Traverses member := by
  have failed : heads.sqlFrom 0 = .error (.notAReference "staff" "head") := by decide +kernel
  rcases sql_faults heads heads_built 0 _ failed with internal | blamed
  · cases internal
  · exact ⟨heads_built, failed, blamed⟩

-- The error is of a kind that is found while a query is put together, but it is found afterwards.
theorem heads_structural : ¬ ∀ q : Query, q.Built → ∀ error, q.sql = .error error →
    error.isInternal = true := by
  intro always
  have failed : heads.sql = .error (.notAReference "staff" "head") := by decide +kernel
  have internal := always heads heads_built _ failed
  cases internal

end Staff

end SemanticLayer
