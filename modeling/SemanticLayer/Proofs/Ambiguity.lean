import SemanticLayer.Proofs.Faults
import SemanticLayer.Proofs.Ownership

namespace SemanticLayer

-- A reference from a domain to itself, and in its condition an access that names no side.
def Leg.Ambiguous (leg : Leg) : Prop :=
  leg.owner = leg.target ∧ ∃ head ∈ leg.condition.heads, head.2 = .matching

-- What stands before the query inside has been planned.
inductive Expr.Begins : Expr → Scope → Query → Prop where
  | query : Begins (.query nested) scope nested
  | calculated : scope.locate domain name side = .ok path → Begins expr (.at path) r →
      Begins (.access ⟨domain, name, .value expr⟩ side) scope r
  | composition : reference.navigate scope = .ok (path, hops) → Begins composition (.at path) r →
      Begins (.compose reference composition) scope r
  | left : Begins left scope r → Begins (.binary operator left right result) scope r
  | right : left.plan scope = .ok planned → Begins right scope r →
      Begins (.binary operator left right result) scope r
  | operand : Begins operand scope r → Begins (.aggregate function operand) scope r

inductive Query.Begins : Query → Query → Prop where
  | self : Begins q q
  | deeper : q.Tours whole → q.readings whole = before ++ reading :: after →
      (∀ earlier ∈ before, earlier.Planned) → reading.expr.Begins reading.scope r →
      Begins r part → Begins q part

theorem condition_heads (leg : Leg) (built : leg.reference.Built)
    (member : head ∈ leg.condition.heads) : head.1 = leg.owner ∨ head.1 = leg.target := by
  obtain ⟨inner, checked⟩ := reference_built built
  obtain ⟨source, sourced, named⟩ := heads_sourced leg.condition inner member
  unfold checkJoin at checked
  split at checked
  · cases checked
  rw [sourced] at checked
  cases source with
  | domain single =>
    cases List.mem_singleton.mp named
    dsimp only at checked
    split at checked
    · rename_i own
      exact .inl own.2
    · cases checked
  | cross left right =>
    dsimp only at checked
    split at checked
    · rename_i pairs
      simp only [Source.names, List.mem_cons, List.not_mem_nil, or_false] at named
      rcases pairs with ⟨rfl, rfl⟩ | ⟨rfl, rfl⟩
      · exact named
      · exact named.symm
    · cases checked

-- Where a domain is joined to itself, the domain alone does not tell the side.
theorem self_lost (leg : Leg) (based : leg.Based) (same : leg.owner = leg.target) (name : String) :
    Scope.locate (.join leg.parent leg.path) leg.owner name .matching =
      .error (.ambiguousSide leg.owner name leg.owner leg.target) := by
  have base : leg.parent.domain = leg.owner := based
  have child : leg.path.domain = leg.owner := same.symm
  simp only [Scope.locate, base, child, decide_true, ← same]

section
variable (leg : Leg) (built : leg.reference.Built) (based : leg.Based)
  (member : head ∈ leg.condition.heads)
include built member

theorem head_own (same : leg.owner = leg.target) : head.1 = leg.owner :=
  (condition_heads leg built member).elim id fun far => far.trans same.symm

include based

theorem head_located (apart : leg.owner ≠ leg.target) (name : String) :
    ∃ path, Scope.locate (.join leg.parent leg.path) head.1 name head.2 = .ok path := by
  have ends := condition_heads leg built member
  have base : leg.parent.domain = leg.owner := based
  have child : leg.path.domain = leg.target := rfl
  obtain ⟨domain, side⟩ := head
  cases side with
  | left => exact ⟨leg.parent, rfl⟩
  | right => exact ⟨leg.path, rfl⟩
  | matching =>
    rcases ends with rfl | rfl
    · exact ⟨leg.parent, by simp [Scope.locate, base, child, apart.symm]⟩
    · exact ⟨leg.path, by simp [Scope.locate, base, child, apart]⟩

theorem head_lost
    (failed : Scope.locate (.join leg.parent leg.path) head.1 name head.2 = .error error) :
    leg.Ambiguous ∧ error = .ambiguousSide leg.owner name leg.owner leg.target := by
  by_cases apart : leg.owner ≠ leg.target
  · obtain ⟨path, found⟩ := head_located leg built based member apart name
    cases found.symm.trans failed
  have same : leg.owner = leg.target := not_ne_iff.mp apart
  have own := head_own leg built member same
  obtain ⟨domain, side⟩ := head
  cases side with
  | left => cases failed
  | right => cases failed
  | matching =>
    cases own
    cases (self_lost leg based same name).symm.trans failed
    exact ⟨⟨same, _, member, rfl⟩, rfl⟩

end

def Expr.Loses (expr : Expr) (scope : Scope) (error : Error) : Prop :=
  ∃ head ∈ expr.heads, ∃ name, scope.locate head.1 name head.2 = .error error

theorem not_lost_at (lost : Expr.Loses expr (.at path) error) : False := by
  obtain ⟨head, _, name, failed⟩ := lost
  cases failed

-- What is ambiguous about an expression is one of its heads, or it is inside a query that planning
-- comes to. Behind a reference everything is read at one place.
theorem plan_ambiguous :
    (∀ expr scope error, Expr.plan expr scope = .error error → error.kind = .ambiguous →
      expr.Loses scope error ∨ ∃ r, expr.Begins scope r ∧ r.plan = .error error) ∧
    ∀ expr scope error, Expr.navigate expr scope = .error error → error.kind = .ambiguous →
      expr.Loses scope error := by
  refine fault_induction ?literal ?lost ?calculated ?record ?reference ?composition ?left ?right
    ?operand ?column ?query ?adrift ?value ?first ?second ?still
  case literal =>
    intro value scope error failed kind
    cases value with
    | decimal number =>
      simp only [planLiteral] at failed
      split at failed
      · cases failed
      · cases failed
        cases kind
    | _ => cases failed
  case lost =>
    intro member side scope error failed _
    exact .inl ⟨_, List.mem_singleton_self _, member.name, failed⟩
  case calculated =>
    intro domain name expr side scope path error found ih kind
    rcases ih kind with lost | ⟨r, begins, failed⟩
    · exact (not_lost_at lost).elim
    · exact .inr ⟨r, .calculated found begins, failed⟩
  case record =>
    intro domain name target table condition side scope kind
    cases kind
  case reference =>
    intro reference composition scope error ih kind
    exact .inl (ih kind)
  case composition =>
    intro reference composition scope path hops error led ih kind
    rcases ih kind with lost | ⟨r, begins, failed⟩
    · exact (not_lost_at lost).elim
    · exact .inr ⟨r, .composition led begins, failed⟩
  case left =>
    intro operator left right type scope error ih kind
    rcases ih kind with ⟨head, member, lost⟩ | ⟨r, begins, failed⟩
    · exact .inl ⟨head, List.mem_append_left _ member, lost⟩
    · exact .inr ⟨r, .left begins, failed⟩
  case right =>
    intro operator left right type scope planned error made ih kind
    rcases ih kind with ⟨head, member, lost⟩ | ⟨r, begins, failed⟩
    · exact .inl ⟨head, List.mem_append_right _ member, lost⟩
    · exact .inr ⟨r, .right made begins, failed⟩
  case operand =>
    intro function operand scope error ih kind
    rcases ih kind with lost | ⟨r, begins, failed⟩
    · exact .inl lost
    · exact .inr ⟨r, .operand begins, failed⟩
  case column =>
    intro domain name type scope error failed _
    exact .inl ⟨_, List.mem_singleton_self _, name, failed⟩
  case query =>
    intro nested scope error failed _
    exact .inr ⟨nested, .query, failed⟩
  case adrift =>
    intro member side scope error failed _
    exact ⟨_, List.mem_singleton_self _, member.name, failed⟩
  case value =>
    intro domain name expr side scope kind
    cases kind
  case first =>
    intro reference composition scope error ih kind
    exact ih kind
  case second =>
    intro reference composition scope inner hops error _ ih kind
    exact (not_lost_at (ih kind)).elim
  case still =>
    intro expr scope kind
    cases kind

theorem plan_found :
    (∀ expr scope planned, Expr.plan expr scope = .ok planned → ∀ head ∈ expr.heads,
      ∃ name path, scope.locate head.1 name head.2 = .ok path) ∧
    ∀ expr scope path hops, Expr.navigate expr scope = .ok (path, hops) → ∀ head ∈ expr.heads,
      ∃ name path, scope.locate head.1 name head.2 = .ok path := by
  refine plan_induction ?literal ?mapped ?calculated ?compose ?binary ?countAll ?aggregate ?column
    ?query ?followed ?chained
  case literal => intro value scope _ head member; cases member
  case mapped =>
    intro domain name owner column type side scope path found head member
    cases List.mem_singleton.mp member
    exact ⟨name, path, found⟩
  case calculated =>
    intro domain name expr side scope path planned _ found _ head member
    cases List.mem_singleton.mp member
    exact ⟨name, path, found⟩
  case compose =>
    intro reference composition scope path hops planned led _
    exact led
  case binary =>
    intro operator left right type scope first second one two head member
    rcases List.mem_append.mp member with inLeft | inRight
    · exact one head inLeft
    · exact two head inRight
  case countAll => intro scope head member; cases member
  case aggregate =>
    intro function operand scope planned ih
    exact ih
  case column =>
    intro domain name type scope path found head member
    cases List.mem_singleton.mp member
    exact ⟨name, path, found⟩
  case query => intro nested scope plan _ head member; cases member
  case followed =>
    intro domain name target table condition side scope parent found head member
    cases List.mem_singleton.mp member
    exact ⟨name, parent, found⟩
  case chained =>
    intro reference composition scope inner path hops more led _
    exact led

theorem ambiguous_fails (leg : Leg) (built : leg.reference.Built) (based : leg.Based)
    (ambiguous : leg.Ambiguous) (planned : leg.reading.Planned) : False := by
  obtain ⟨same, head, member, unmarked⟩ := ambiguous
  obtain ⟨_, made⟩ := planned
  obtain ⟨name, path, found⟩ := plan_found.1 _ _ _ made head member
  rw [unmarked, head_own leg built member same] at found
  cases (self_lost leg based same name).symm.trans found

theorem begins_queries (begins : Expr.Begins expr scope r) : r ∈ expr.queries := by
  induction begins with
  | query => exact List.mem_singleton_self _
  | calculated _ _ ih => exact ih
  | composition _ _ ih => exact ih
  | left _ ih => exact List.mem_append_left _ ih
  | right _ _ ih => exact List.mem_append_right _ ih
  | operand _ ih => exact ih

theorem begins_within (begins : Query.Begins q r) : q.Within r := by
  induction begins with
  | self => exact .self
  | deeper tours split _ begins _ ih =>
    exact .deeper tours (split ▸ List.mem_append_right _ List.mem_cons_self) (begins_queries begins) ih

theorem marked_within (marked : Query.Marked q) (within : q.Within r) : r.Marked :=
  fun deep inside => marked deep (within_trans within inside)

theorem tour_reference_built (built : Query.Built q) (tours : q.Tours whole) (present : leg ∈ whole) :
    leg.reference.Built := by
  obtain ⟨expr, said, mentioned⟩ := tours_mentioned tours leg present
  exact mentions_built mentioned (said_checked built said).1

theorem ambiguity_begins (q : Query) (built : q.Built) (marked : q.Marked)
    (failed : q.plan = .error error) (kind : error.kind = .ambiguous) :
    ∃ r leg name, q.Begins r ∧ r.Reaches leg ∧ leg.Ambiguous ∧
      error = .ambiguousSide leg.owner name leg.owner leg.target := by
  induction size : sizeOf q using Nat.strongRecOn generalizing q with
  | ind bound ih =>
    obtain ⟨whole, tours⟩ := tours_exist q
    obtain ⟨before, reading, after, split, planned, stopped⟩ := plan_breaks tours failed
    have listed : reading ∈ q.readings whole := split ▸ List.mem_append_right _ List.mem_cons_self
    rcases plan_ambiguous.1 _ _ _ stopped kind with ⟨head, member, name, lost⟩ | ⟨r, begins, stopped⟩
    · rcases readings_split split with root | ⟨first, leg, rest, rfl, rfl, rfl⟩
      · rw [root] at lost
        cases lost
      · have present : leg ∈ first ++ leg :: rest := List.mem_append_right _ List.mem_cons_self
        have reached : q.Reaches leg := ⟨first, rest, tours, planned⟩
        have based := reached_based built (marked q .self) reached
        have cause := head_lost leg (tour_reference_built built tours present) based member lost
        exact ⟨q, leg, name, .self, reached, cause⟩
    · have nested := begins_queries begins
      have within : q.Within r := .deeper tours listed nested .self
      have smaller : sizeOf r < bound := size ▸ nested_smaller tours listed nested
      obtain ⟨part, leg, name, inside, cause⟩ := ih (sizeOf r) smaller r (within_built within built)
        (marked_within marked within) stopped rfl
      exact ⟨part, leg, name, .deeper tours split planned begins inside, cause⟩

theorem within_planned (within : Query.Within q r) (ran : q.plan = .ok plan) :
    ∃ inner, r.plan = .ok inner := by
  induction within generalizing plan with
  | self => exact ⟨plan, ran⟩
  | deeper tours reading nested _ ih =>
    obtain ⟨_, _, whole, other, gives⟩ := plan_parts ran
    cases tour_unique other tours
    obtain ⟨clause, _, _, hops, made⟩ := forall₂_left gives reading
    obtain ⟨inner, _, planned⟩ := forall₂_left (plan_queries.1 _ _ _ made) nested
    exact ih planned

theorem ambiguity_fails (built : Query.Built q) (marked : q.Marked) (tours : q.Tours whole)
    (present : leg ∈ whole) (ambiguous : leg.Ambiguous) (ran : q.plan = .ok plan) : False := by
  obtain ⟨_, _, other, toured, gives⟩ := plan_parts ran
  cases tour_unique tours toured
  have planned : ∀ reading ∈ q.readings whole, reading.Planned := by
    intro reading member
    obtain ⟨clause, _, _, hops, made⟩ := forall₂_left gives member
    exact ⟨_, made⟩
  have based := tours_based built tours (marked q .self whole tours) planned leg present
  exact ambiguous_fails leg (tour_reference_built built tours present) based ambiguous
    (planned _ (leg_reading q present))

theorem sql_failed (failed : Query.sql q = .error error) : q.plan = .error error := by
  rcases bind_failed failed with failed | ⟨_, _, made⟩
  · exact sqlFrom_failed failed
  · cases made

theorem sql_planned (ran : Query.sql q = .ok text) : ∃ plan, q.plan = .ok plan := by
  obtain ⟨_, ran, _⟩ := bind_parts ran
  obtain ⟨_, ran, _⟩ := bind_parts ran
  obtain ⟨plan, planned, _⟩ := bind_parts ran
  exact ⟨plan, planned⟩

-- SQL fails for an ambiguous side only where a domain is joined to itself under a condition with an
-- unmarked access, and always where that is so. Between two domains no side is ambiguous.
theorem sql_ambiguous (q : Query) (built : q.Built) (marked : q.Marked) :
    (∀ error, q.sql = .error error → error.kind = .ambiguous →
      ∃ r leg name, q.Begins r ∧ r.Reaches leg ∧ leg.Ambiguous ∧
        error = .ambiguousSide leg.owner name leg.owner leg.target) ∧
    (∀ r, q.Within r → ∀ whole, r.Tours whole → ∀ leg ∈ whole, leg.Ambiguous →
      ∃ error, q.sql = .error error) ∧
    ∀ r, q.Begins r → ∀ leg, r.Reaches leg → leg.owner ≠ leg.target →
      ∀ head ∈ leg.condition.heads, ∀ name, ∃ path,
        Scope.locate (.join leg.parent leg.path) head.1 name head.2 = .ok path := by
  refine ⟨?_, ?_, ?_⟩
  · intro error failed kind
    exact ambiguity_begins q built marked (sql_failed failed) kind
  · intro r within whole tours leg present ambiguous
    cases ran : q.sql with
    | error error => exact ⟨error, rfl⟩
    | ok text =>
      obtain ⟨plan, planned⟩ := sql_planned ran
      obtain ⟨inner, planned⟩ := within_planned within planned
      exact (ambiguity_fails (within_built within built) (marked_within marked within) tours present
        ambiguous planned).elim
  · intro r begins leg reached apart head member name
    have within := begins_within begins
    have inner := within_built within built
    have based := reached_based inner (marked r within) reached
    obtain ⟨before, after, tours, _⟩ := reached
    have present : leg ∈ before ++ leg :: after := List.mem_append_right _ List.mem_cons_self
    exact head_located leg (tour_reference_built inner tours present) based member apart name

-- Employees and their managers again, under a condition that does not say whose key is meant.
namespace Staff

def looseCondition : Expr :=
  .binary .equals (.read "staff" "manager_id" .integer)
    (.read "staff" "id" .integer) .boolean

def superior : Attribute :=
  ⟨"staff", "superior", .reference "staff" "staff" looseCondition⟩

def superiorName : Expr :=
  .compose (.access superior .matching) (.read "staff" "name" .string)

def loose : Query := ⟨"loose", "staff", "staff", [⟨"name", superiorName⟩], none⟩

def superiorLeg : Leg := ⟨.root "staff", "staff", "superior", "staff", "staff", looseCondition⟩

theorem loose_built : loose.Built := by
  have joined : Expr.operation .equals (.read "staff" "manager_id" .integer)
      (.read "staff" "id" .integer) = .ok looseCondition := rfl
  have condition : looseCondition.Built :=
    .operation (read_built _ _ _ _) (read_built _ _ _ _) joined
  have led : Attribute.reference "staff" "superior" "staff" "staff" looseCondition =
      .ok superior := rfl
  have named : superiorName.Built :=
    .composed (.access .matching (.reference condition led))
      (read_built "staff" "name" .string .matching) rfl
  exact .select (.start "loose" ⟨"staff", "staff", []⟩) named rfl

theorem loose_tour : loose.Tours [superiorLeg] := .visit rfl (.finish (Nat.le_refl 1))

theorem loose_marked : loose.Marked := by
  refine marked_alone loose_tour ?_ ?_
  · intro leg member
    cases List.mem_singleton.mp member
    simp [Leg.Marked, superiorLeg, looseCondition, Expr.read, Expr.heads]
  · simp [Query.readings, Query.grouped, loose, superiorName, superior, Expr.read,
      Attribute.namesake, Attribute.mapped, Projection.isAggregate, Projection.type, superiorLeg,
      looseCondition, Expr.queries]

theorem loose_ambiguous : loose.Built ∧ loose.Marked ∧
    loose.sql = .error (.ambiguousSide "staff" "manager_id" "staff" "staff") ∧
    superiorLeg.Ambiguous ∧
    (∀ error, loose.sql = .error error → error.kind = .ambiguous →
      ∃ r leg name, loose.Begins r ∧ r.Reaches leg ∧ leg.Ambiguous ∧
        error = .ambiguousSide leg.owner name leg.owner leg.target) ∧
    (∀ r, loose.Within r → ∀ whole, r.Tours whole → ∀ leg ∈ whole, leg.Ambiguous →
      ∃ error, loose.sql = .error error) ∧
    ∀ r, loose.Begins r → ∀ leg, r.Reaches leg → leg.owner ≠ leg.target →
      ∀ head ∈ leg.condition.heads, ∀ name, ∃ path,
        Scope.locate (.join leg.parent leg.path) head.1 name head.2 = .ok path := by
  have failed : loose.sql = .error (.ambiguousSide "staff" "manager_id" "staff" "staff") := by
    decide +kernel
  have ambiguous : superiorLeg.Ambiguous := ⟨rfl, ("staff", .matching), List.mem_cons_self, rfl⟩
  exact ⟨loose_built, loose_marked, failed, ambiguous,
    sql_ambiguous loose loose_built loose_marked⟩

end Staff

end SemanticLayer
