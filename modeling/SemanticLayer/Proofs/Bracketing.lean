import Mathlib.Data.List.Chain
import SemanticLayer.Proofs.Exchange

namespace SemanticLayer

inductive Bracketing where
  | leaf (expr : Expr)
  | node (reference composition : Bracketing)

namespace Bracketing

def leaves : Bracketing → List Expr
  | .leaf expr => [expr]
  | .node reference composition => reference.leaves ++ composition.leaves

def make : Bracketing → Except Error Expr
  | .leaf expr => .ok expr
  | .node reference composition => do
      let first ← reference.make
      let second ← composition.make
      Expr.composed first second

end Bracketing

def Expr.Leads (one two : Expr) : Prop :=
  ∃ target, one.type = .domain target ∧ two.source = some (.domain target)

def Expr.chain (first : Expr) : List Expr → Expr
  | [] => first
  | next :: rest => .compose first (chain next rest)

theorem composed_iff : Expr.composed one two = .ok expr ↔ one.Leads two ∧ expr = .compose one two := by
  constructor
  · intro made
    obtain ⟨target, leads, inside, made⟩ := composed_parts made
    exact ⟨⟨target, leads, inside⟩, made⟩
  · rintro ⟨⟨target, leads, inside⟩, rfl⟩
    rw [Expr.composed, leads]
    exact if_pos inside

theorem compose_plan (reference composition : Expr) (scope : Scope) :
    (Expr.compose reference composition).plan scope = reference.navigate scope >>= fun led =>
      composition.plan (.at led.1) >>= fun planned =>
        pure ⟨planned.term, led.2 ++ planned.hops⟩ := by
  rw [Expr.plan]

theorem compose_navigate (reference composition : Expr) (scope : Scope) :
    (Expr.compose reference composition).navigate scope = reference.navigate scope >>= fun led =>
      composition.navigate (.at led.1) >>= fun last => pure (last.1, led.2 ++ last.2) := by
  rw [Expr.navigate]

-- From the left the first two are followed as one reference, and from the right the last two are
-- planned as one composition: either way the hops come in their order.
theorem alike_assoc (a b c : Expr) :
    (Expr.compose (.compose a b) c).Alike (.compose a (.compose b c)) := by
  constructor
  case type => rfl
  case source => rfl
  case enclosing => rfl
  case plan =>
    intro scope
    simp only [compose_plan, compose_navigate, bind_assoc, pure_bind, List.append_assoc]
  case navigate =>
    intro scope
    simp only [compose_navigate, bind_assoc, pure_bind, List.append_assoc]

theorem chain_source (first : Expr) (rest : List Expr) : (first.chain rest).source = first.source := by
  cases rest <;> rfl

theorem chain_type (first : Expr) (rest : List Expr) :
    (first.chain rest).type = (rest.getLastD first).type := by
  induction rest generalizing first with
  | nil => rfl
  | cons next rest ih => rw [Expr.chain, Expr.type, ih, List.getLastD_cons]

theorem chain_append (first next : Expr) (rest others : List Expr) :
    (Expr.compose (first.chain rest) (next.chain others)).Alike (first.chain (rest ++ next :: others)) := by
  induction rest generalizing first with
  | nil => exact alike_refl _
  | cons second rest ih =>
    exact alike_trans (alike_assoc first _ _) (alike_compose (alike_refl first) (ih second))

theorem leaves_cons (order : Bracketing) : ∃ first rest, order.leaves = first :: rest := by
  induction order with
  | leaf expr => exact ⟨expr, [], rfl⟩
  | node reference composition first _ =>
    obtain ⟨start, rest, same⟩ := first
    exact ⟨start, rest ++ composition.leaves, by rw [Bracketing.leaves, same, List.cons_append]⟩

theorem leads_alike (first : Expr.Alike one other) (second : Expr.Alike two last) :
    other.Leads last ↔ one.Leads two := by
  rw [Expr.Leads, Expr.Leads, first.type, second.source]

theorem linked_append (first next : Expr) (rest others : List Expr) :
    (first :: (rest ++ next :: others)).IsChain Expr.Leads ↔
      (first :: rest).IsChain Expr.Leads ∧ (next :: others).IsChain Expr.Leads ∧
        (first.chain rest).Leads (next.chain others) := by
  rw [← List.cons_append, List.isChain_append, List.getLast?_cons, List.head?_cons, Expr.Leads,
    chain_type, chain_source, List.getLastD_eq_getLast?]
  simp [Expr.Leads]

-- What is asked of the chain is that each expression leads to the next one, whatever the order.
theorem make_chain (order : Bracketing) (leaves : order.leaves = first :: rest) :
    (∀ expr, order.make = .ok expr →
      (first :: rest).IsChain Expr.Leads ∧ (first.chain rest).Alike expr) ∧
    ((first :: rest).IsChain Expr.Leads → ∃ expr, order.make = .ok expr) := by
  induction order generalizing first rest with
  | leaf expr =>
    cases leaves
    refine ⟨?_, fun _ => ⟨expr, rfl⟩⟩
    rintro made ⟨⟩
    exact ⟨.singleton expr, alike_refl expr⟩
  | node reference composition ihFirst ihSecond =>
    obtain ⟨start, more, one⟩ := leaves_cons reference
    obtain ⟨next, others, two⟩ := leaves_cons composition
    rw [Bracketing.leaves, one, two, List.cons_append] at leaves
    obtain ⟨rfl, rfl⟩ := List.cons.inj leaves
    obtain ⟨madeFirst, linkedFirst⟩ := ihFirst one
    obtain ⟨madeSecond, linkedSecond⟩ := ihSecond two
    rw [linked_append]
    constructor
    · intro expr made
      obtain ⟨a, left, made⟩ := bind_parts made
      obtain ⟨b, right, made⟩ := bind_parts made
      obtain ⟨leads, rfl⟩ := composed_iff.mp made
      obtain ⟨before, former⟩ := madeFirst a left
      obtain ⟨after, latter⟩ := madeSecond b right
      refine ⟨⟨before, after, (leads_alike former latter).mp leads⟩, ?_⟩
      exact alike_trans (alike_symm (chain_append start next more others))
        (alike_compose former latter)
    · rintro ⟨before, after, leads⟩
      obtain ⟨a, left⟩ := linkedFirst before
      obtain ⟨b, right⟩ := linkedSecond after
      have composed := (leads_alike (madeFirst a left).2 (madeSecond b right).2).mpr leads
      refine ⟨.compose a b, ?_⟩
      rw [Bracketing.make, left, right]
      exact composed_iff.mpr ⟨composed, rfl⟩

theorem leaves_built (order : Bracketing) (made : order.make = .ok expr) :
    expr.Built ↔ ∀ leaf ∈ order.leaves, leaf.Built := by
  induction order generalizing expr with
  | leaf leaf =>
    cases made
    simp [Bracketing.leaves]
  | node reference composition ihFirst ihSecond =>
    obtain ⟨a, left, made⟩ := bind_parts made
    obtain ⟨b, right, made⟩ := bind_parts made
    have both : expr.Built ↔ a.Built ∧ b.Built := by
      constructor
      · intro built
        obtain ⟨_, rfl⟩ := composed_iff.mp made
        exact ⟨(compose_built built).1, (compose_built built).2.1⟩
      · rintro ⟨first, second⟩
        exact .composed first second made
    rw [both, ihFirst left, ihSecond right, Bracketing.leaves]
    simp only [List.forall_mem_append]

-- One order is accepted exactly if another one is, and a query cannot tell which one it has been
-- given: not by its plan, its statement or its text, and not by its error.
theorem bracketings_agree (one two : Bracketing) (leaves : two.leaves = one.leaves) :
    ((∃ expr, two.make = .ok expr) ↔ ∃ expr, one.make = .ok expr) ∧
    ∀ first second, one.make = .ok first → two.make = .ok second →
      second.type = first.type ∧ second.source = first.source ∧
      ∀ q r, Query.Exchanges first second q r → (q.Built → r.Built) ∧ r.plan = q.plan ∧
        (∀ counter, r.statement counter = q.statement counter) ∧
        (∀ counter, r.sqlFrom counter = q.sqlFrom counter) ∧ r.sql = q.sql := by
  obtain ⟨start, rest, chain⟩ := leaves_cons one
  obtain ⟨madeOne, linkedOne⟩ := make_chain one chain
  obtain ⟨madeTwo, linkedTwo⟩ := make_chain two (leaves.trans chain)
  constructor
  · constructor
    · rintro ⟨expr, made⟩
      exact linkedOne (madeTwo expr made).1
    · rintro ⟨expr, made⟩
      exact linkedTwo (madeOne expr made).1
  · intro first second left right
    have alike := alike_trans (alike_symm (madeOne first left).2) (madeTwo second right).2
    have accepted : first.Built → second.Built := by
      rw [leaves_built one left, leaves_built two right, leaves]
      exact id
    refine ⟨alike.type, alike.source, fun q r exchanges => ?_⟩
    have plan := exchanged_query alike exchanges
    have statement (counter : Nat) : r.statement counter = q.statement counter := by
      rw [Query.statement, Query.statement, plan]
    have text (counter : Nat) : r.sqlFrom counter = q.sqlFrom counter := by
      rw [Query.sqlFrom, Query.sqlFrom, statement]
    refine ⟨fun built => ?_, plan, statement, text, by rw [Query.sql, Query.sql, text]⟩
    exact query_built (exchanges_built alike accepted exchanges (.query built))

namespace Lodging

def link (domain name target : String) : Attribute :=
  ⟨domain, name, .reference target target
    (.binary .equals (.read domain name .string) (.read target "id" .string) .boolean)⟩

def followed (domain name target : String) : Bracketing :=
  .leaf (.access (link domain name target) .matching)

def early : Bracketing :=
  .node (.node (followed "rooms" "floor" "floors") (followed "floors" "house" "houses"))
    (.leaf (.read "houses" "city" .string))

def late : Bracketing :=
  .node (followed "rooms" "floor" "floors")
    (.node (followed "floors" "house" "houses") (.leaf (.read "houses" "city" .string)))

def earlyCity : Expr :=
  .compose (.compose (.access (link "rooms" "floor" "floors") .matching)
    (.access (link "floors" "house" "houses") .matching)) (.read "houses" "city" .string)

def lateCity : Expr :=
  .compose (.access (link "rooms" "floor" "floors") .matching)
    (.compose (.access (link "floors" "house" "houses") .matching) (.read "houses" "city" .string))

-- The district of a room is found by the city that its house is in.
def district (city : Expr) : Attribute :=
  ⟨"rooms", "district", .reference "districts" "districts"
    (.binary .equals city (.read "districts" "city" .string) .boolean)⟩

def census (city : Expr) : Query :=
  ⟨"census", "rooms", "rooms",
    [⟨"district", .compose (.access (district city) .matching) (.read "districts" "name" .string)⟩,
      ⟨"cities", .aggregate .count city⟩], none⟩

def censusText : String :=
  "SELECT district.name AS district, COUNT(house.city) AS cities FROM rooms" ++
    " JOIN districts AS district ON (house.city = district.city)" ++
    " JOIN floors AS floor ON (rooms.floor = floor.id)" ++
    " JOIN houses AS house ON (floor.house = house.id) GROUP BY district.name"

theorem census_exchanges : (census earlyCity).Exchanges earlyCity lateCity (census lateCity) := by
  refine .query rfl rfl rfl (.cons rfl (.cons rfl .nil)) ?_ rfl (by rintro _ ⟨⟩)
  intro p s both
  simp only [census, List.zip_cons_cons, List.zip_nil_right, List.mem_cons, Prod.mk.injEq,
    List.not_mem_nil, or_false] at both
  rcases both with ⟨rfl, rfl⟩ | ⟨rfl, rfl⟩
  · exact .compose (.condition .matching (.binary .here (.same _))) (.same _)
  · exact .aggregate .here

theorem link_built (joined : Expr.operation .equals (.read domain name .string)
      (.read target "id" .string) = .ok condition) (led : Attribute.reference domain name target target condition =
      .ok (link domain name target)) : (Expr.access (link domain name target) .matching).Built :=
  .access .matching (.reference (.operation (read_built _ _ _ _) (read_built _ _ _ _) joined) led)

theorem city_built : earlyCity.Built := by
  have floor : (Expr.access (link "rooms" "floor" "floors") .matching).Built := link_built rfl rfl
  have house : (Expr.access (link "floors" "house" "houses") .matching).Built := link_built rfl rfl
  refine (leaves_built early rfl).mpr ?_
  simp [early, followed, Bracketing.leaves, floor, house, Expr.read, read_built]

theorem census_built : (census earlyCity).Built := by
  let condition : Expr := .binary .equals earlyCity (.read "districts" "city" .string) .boolean
  have matched : Expr.operation .equals earlyCity (.read "districts" "city" .string) =
      .ok condition := rfl
  have led : Attribute.reference "rooms" "district" "districts" "districts" condition =
      .ok (district earlyCity) := rfl
  have member : (district earlyCity).Built :=
    .reference (.operation city_built (read_built _ _ _ _) matched) led
  let named : Expr :=
    .compose (.access (district earlyCity) .matching) (.read "districts" "name" .string)
  have named_built : named.Built :=
    .composed (.access .matching member) (read_built "districts" "name" .string .matching) rfl
  have counted_built : (Expr.aggregate .count earlyCity).Built := .aggregated city_built rfl
  let first : Query := ⟨"census", "rooms", "rooms", [⟨"district", named⟩], none⟩
  have one : (Query.start "census" ⟨"rooms", "rooms", []⟩).select "district" named = .ok first := rfl
  have two : first.select "cities" (.aggregate .count earlyCity) = .ok (census earlyCity) := rfl
  exact .select (.select (.start _ _) named_built one) counted_built two

theorem census_agrees : late.leaves = early.leaves ∧ early.make = .ok earlyCity ∧
    late.make = .ok lateCity ∧ (census earlyCity).Exchanges earlyCity lateCity (census lateCity) ∧
    (census earlyCity).Built ∧ (census earlyCity).sql = .ok censusText ∧
    (census lateCity).Built ∧ (census lateCity).sql = .ok censusText := by
  have made : early.make = .ok earlyCity := rfl
  have again : late.make = .ok lateCity := rfl
  have text : (census earlyCity).sql = .ok censusText := by decide +kernel
  obtain ⟨_, agree⟩ := bracketings_agree early late rfl
  obtain ⟨_, _, exchanged⟩ := agree _ _ made again
  obtain ⟨built, _, _, _, sql⟩ := exchanged _ _ census_exchanges
  exact ⟨rfl, made, again, census_exchanges, census_built, text, built census_built, sql.trans text⟩

end Lodging

end SemanticLayer
