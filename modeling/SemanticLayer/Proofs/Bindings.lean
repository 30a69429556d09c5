import SemanticLayer.Proofs.Links
import SemanticLayer.Proofs.Resolution

namespace SemanticLayer

-- A model that changes between the making of its references and their use: what a query looks up is
-- looked up in the model as it is, and what a reference joins was settled when it was made.

def Model.Makes (m : Model) (owner : String) (member : Attribute) : Prop :=
  ∃ label column target key next, m.addReference owner label column target key = .ok (member, next)

def Attribute.Recorded (past : List Model) (owner : String) (member : Attribute) : Prop :=
  member.Mapped owner ∨ ∃ m ∈ past, m.Makes owner member

def Domain.Recorded (past : List Model) (d : Domain) : Prop :=
  ∀ label member, d.attribute? label = some member → member.Recorded past d.name

def Model.Recorded (past : List Model) (m : Model) : Prop :=
  ∀ name d, m.domain? name = some d → d.Recorded past

-- A domain that is registered may be new, or a copy of one that has been there before.
inductive Model.History : List Model → Model → Prop where
  | start : History [] .empty
  | register : History past m → d.Recorded past → History (m :: past) (m.register d)
  | column : History past m →
      m.extend domain (fun d => .ok (d.addMapped name column type)) = .ok (member, next) →
      History (m :: past) next
  | reference : History past m →
      m.addReference domain label column target key = .ok (member, next) → History (m :: past) next

theorem recorded_later (recorded : Attribute.Recorded past owner member) (m : Model) :
    member.Recorded (m :: past) owner := by
  rcases recorded with mapped | ⟨earlier, present, made⟩
  · exact .inl mapped
  · exact .inr ⟨earlier, List.mem_cons_of_mem m present, made⟩

theorem domain_later (recorded : Domain.Recorded past d) (m : Model) : d.Recorded (m :: past) :=
  fun label member found => recorded_later (recorded label member found) m

theorem model_later (recorded : Model.Recorded past m) (next : Model) : m.Recorded (next :: past) :=
  fun name d found => domain_later (recorded name d found) next

theorem insert_recorded (recorded : Domain.Recorded past d) (new : member.Recorded past d.name) :
    (d.insert member).Recorded past := by
  intro label other found
  rw [insert_attribute] at found
  split at found
  · cases found
    exact new
  · exact recorded label other found

theorem register_recorded (recorded : Model.Recorded past m) (new : Domain.Recorded past d) :
    (m.register d).Recorded past := by
  intro name other found
  rw [register_domain] at found
  split at found
  · cases found
    exact new
  · exact recorded name other found

theorem history_recorded (history : Model.History past m) : m.Recorded past := by
  induction history with
  | start => intro name d found; cases found
  | @register past m d _ new ih =>
    exact register_recorded (model_later ih m) (domain_later new m)
  | @column past m domain name column type member next _ made ih =>
    obtain ⟨d, grown, found, added, rfl⟩ := extend_parts made
    cases added
    have grows := insert_recorded (model_later ih m _ d found) (.inl ⟨name, column, .scalar type, rfl⟩)
    exact register_recorded (model_later ih m) grows
  | @reference past m domain label column target key member next _ made ih =>
    obtain ⟨d, aim, near, far, found, _, _, _, _, rfl⟩ := addReference_parts made
    have makes : m.Makes d.name member :=
      ⟨label, column, target, key, _, (domain_named found).symm ▸ made⟩
    have grows := insert_recorded (model_later ih m _ d found) (.inr ⟨m, List.mem_cons_self, makes⟩)
    exact register_recorded (model_later ih m) grows

theorem history_past (history : Model.History past m) (member : state ∈ past) :
    ∃ earlier, Model.History earlier state := by
  induction history with
  | start => cases member
  | register before _ ih | column before _ ih | reference before _ ih =>
    rcases List.mem_cons.mp member with rfl | old
    · exact ⟨_, before⟩
    · exact ih old

theorem link_built (near : ∀ label member, Domain.attribute? d label = some member → member.Built)
    (far : Attribute.Built key)
    (made : d.link label column target table key = .ok (member, grown)) : member.Built := by
  obtain ⟨first, found, made⟩ := bind_parts made
  obtain ⟨condition, joined, made⟩ := bind_parts made
  obtain ⟨_, referred, made⟩ := bind_parts made
  cases made
  have both : condition.Built :=
    .operation (.access _ (near _ _ (attribute_lookup found))) (.access _ far) joined
  exact .reference both referred

theorem makes_built (built : Model.Built m) (makes : m.Makes owner member) : member.Built := by
  obtain ⟨label, column, target, key, next, made⟩ := makes
  obtain ⟨aim, reached, made⟩ := bind_parts made
  obtain ⟨far, found, made⟩ := bind_parts made
  obtain ⟨d, grown, known, made, _⟩ := extend_parts made
  exact link_built (built _ d known)
    (built _ aim (domain_lookup reached) _ _ (attribute_lookup found)) made

theorem recorded_built (recorded : Model.Recorded past m) (built : ∀ state ∈ past, state.Built) :
    m.Built := by
  intro name d known label member found
  rcases recorded name d known label member found with ⟨_, _, _, rfl⟩ | ⟨state, present, makes⟩
  · exact .mapped _ _ _ _
  · exact makes_built (built state present) makes

theorem history_built (history : Model.History past m) : m.Built := by
  refine recorded_built (history_recorded history) ?_
  induction history with
  | start => simp
  | register before _ ih | column before _ ih | reference before _ ih =>
    intro state member
    rcases List.mem_cons.mp member with rfl | old
    · exact recorded_built (history_recorded before) ih
    · exact ih state old

def Model.Holds (m : Model) (member : Attribute) : Prop :=
  ∃ d, m.domain? member.domain = some d ∧ d.attribute? member.name = some member

def Leg.MadeIn (leg : Leg) (m : Model) (near far : String) : Prop :=
  ∃ d aim column key next, m.domain? leg.owner = some d ∧ m.domain? leg.target = some aim ∧
    leg.table = aim.table ∧ d.HasColumn column near ∧ aim.HasColumn key far ∧
    m.addReference leg.owner leg.name column leg.target key = .ok (leg.reference, next)

def Query.JoinsMade (q : Query) (m : Model) (past : List Model) (s : Statement String Nat) : Prop :=
  ∃ whole, q.FromTour whole s ∧ List.Forall₂ (fun leg item => m.Holds leg.reference ∧
    ∃ state ∈ past, ∃ near far, leg.MadeIn state near far ∧
      JoinsOn (.ofPaths (q.paths whole)) leg near far item) whole s.joins

theorem recorded_owner (recorded : Attribute.Recorded past owner member) : member.domain = owner := by
  rcases recorded with ⟨_, _, _, rfl⟩ | ⟨_, _, _, _, _, _, _, made⟩
  · rfl
  · obtain ⟨_, _, _, _, _, _, _, _, rfl, _⟩ := addReference_parts made
    rfl

theorem recorded_legs (recorded : Attribute.Recorded past owner member) :
    (Expr.access member side).legs scope = [] := by
  rcases recorded with ⟨_, _, _, rfl⟩ | ⟨_, _, _, _, _, _, _, made⟩
  · simp [Attribute.mapped, Expr.legs]
  · obtain ⟨_, _, _, _, _, _, _, _, rfl, _⟩ := addReference_parts made
    simp [Expr.legs]

section
variable {m : Model} (recorded : m.Recorded past)
include recorded

theorem walks_holds (walks : Expr.Walks m domain expr) (member : leg ∈ expr.legs scope) :
    m.Holds leg.reference := by
  induction walks generalizing scope with
  | last known found =>
    rw [recorded_legs (recorded _ _ known _ _ found)] at member
    cases member
  | @step domain d label owner name target table condition rest known found _ _ ih =>
    rw [Expr.legs] at member
    rcases List.mem_append.mp member with first | later
    · rw [Expr.route] at first
      cases List.mem_singleton.mp first
      have own : owner = d.name := recorded_owner (recorded _ _ known _ _ found)
      have named : name = label := (attribute_named found).1
      exact ⟨d, by rw [Leg.reference, own, domain_named known, known], named ▸ found⟩
    · exact ih later

theorem resolved_holds (resolved : Expr.Resolved m domain expr) (member : leg ∈ expr.legs scope) :
    m.Holds leg.reference := by
  induction resolved with
  | literal value => cases member
  | path walks => exact walks_holds recorded walks member
  | operation _ _ made one two =>
    obtain ⟨_, _, _, _, rfl⟩ := operation_parts made
    rw [Expr.legs] at member
    rcases List.mem_append.mp member with inLeft | inRight
    · exact one inLeft
    · exact two inRight
  | aggregated _ made ih =>
    obtain ⟨_, _, rfl⟩ := aggregated_parts made
    rw [Expr.legs] at member
    exact ih member
  | counted made =>
    cases counted_parts made
    cases member

theorem holds_makes (holds : m.Holds (Leg.reference leg)) :
    ∃ state ∈ past, state.Makes leg.owner leg.reference := by
  obtain ⟨d, known, found⟩ := holds
  have own : d.name = leg.owner := domain_named known
  rcases recorded _ d known _ _ found with ⟨_, _, _, mapped⟩ | ⟨state, present, makes⟩
  · simp [Leg.reference, Attribute.mapped] at mapped
  · exact ⟨state, present, own ▸ makes⟩

end

theorem makes_parts (leg : Leg) (makes : Model.Makes m leg.owner leg.reference) :
    ∃ d aim column key near far next, m.domain? leg.owner = some d ∧
      m.domain? leg.target = some aim ∧ leg.table = aim.table ∧
      d.attribute? column = some near ∧ aim.attribute? key = some far ∧
      leg.condition = linkCondition leg.owner leg.target near far ∧
      m.addReference leg.owner leg.name column leg.target key = .ok (leg.reference, next) := by
  obtain ⟨label, column, target, key, next, made⟩ := makes
  obtain ⟨d, aim, near, far, known, reached, held, found, same, _⟩ := addReference_parts made
  simp only [Leg.reference, Attribute.mk.injEq, Definition.reference.injEq, true_and] at same
  obtain ⟨rfl, rfl, table, condition⟩ := same
  exact ⟨d, aim, column, key, near, far, next, known, reached, table, held, found, condition, made⟩

theorem value_planned (planned : Expr.plan (.access member side) scope = .ok result) :
    member.isReference = false := by
  obtain ⟨domain, name, definition⟩ := member
  cases definition with
  | value expr => rfl
  | reference target table condition =>
    rw [Expr.plan] at planned
    obtain ⟨_, _, thrown⟩ := bind_parts planned
    cases thrown

theorem recorded_column (recorded : Domain.Recorded past d)
    (found : d.attribute? label = some member) (value : member.isReference = false) :
    ∃ column type, member = .mapped d.name label column type := by
  rcases recorded label member found with ⟨name, column, type, rfl⟩ | ⟨_, _, _, _, _, _, _, made⟩
  · cases (attribute_named found).1
    exact ⟨column, type, rfl⟩
  · obtain ⟨_, _, _, _, _, _, _, _, rfl, _⟩ := addReference_parts made
    cases value

section
variable {leg : Leg} (recorded : Model.Recorded past m) (makes : m.Makes leg.owner leg.reference)
include recorded makes

theorem makes_onward : leg.onward = [] := by
  obtain ⟨d, aim, column, key, near, far, _, known, reached, _, held, found, condition, _⟩ :=
    makes_parts leg makes
  rw [Leg.onward, condition, linkCondition, Expr.legs,
    recorded_legs (recorded _ d known column near held),
    recorded_legs (recorded _ aim reached key far found), List.append_nil]

theorem makes_pairs (planned : leg.reading.Planned) :
    ∃ near far, leg.MadeIn m near far ∧ leg.Pairs near far := by
  obtain ⟨d, aim, column, key, near, far, next, known, reached, table, held, found, condition,
    made⟩ := makes_parts leg makes
  obtain ⟨_, ran⟩ := planned
  rw [Leg.reading, condition, linkCondition, Expr.plan] at ran
  obtain ⟨_, nearPlanned, ran⟩ := bind_parts ran
  obtain ⟨_, farPlanned, _⟩ := bind_parts ran
  obtain ⟨nearColumn, nearType, rfl⟩ :=
    recorded_column (recorded _ d known) held (value_planned nearPlanned)
  obtain ⟨farColumn, farType, rfl⟩ :=
    recorded_column (recorded _ aim reached) found (value_planned farPlanned)
  refine ⟨nearColumn, farColumn, ⟨d, aim, column, key, next, known, reached, table,
    ⟨nearType, held⟩, ⟨farType, found⟩, made⟩, column, nearType, key, farType, ?_⟩
  rw [condition, domain_named known, domain_named reached]

end

section
variable (history : Model.History past m) (resolved : Query.Resolved m domain q)
include history resolved

-- The conditions lead nowhere, so only what the query says itself is followed.
theorem tours_held (tours : q.Tours whole) : ∀ leg ∈ whole, m.Holds leg.reference := by
  refine tours_inherit tours ?_ ?_
  · intro leg member
    obtain ⟨expr, said, inside⟩ := outset_cases member
    exact resolved_holds (history_recorded history) (resolved.said expr said) inside
  · intro leg _ holds more member
    obtain ⟨state, present, makes⟩ := holds_makes (history_recorded history) holds
    obtain ⟨earlier, before⟩ := history_past history present
    rw [makes_onward (history_recorded before) makes] at member
    cases member

theorem statement_made (built : q.Built) (ran : q.statement n = .ok (s, k)) :
    q.JoinsMade m past s := by
  obtain ⟨whole, tours, _, _, written⟩ := statement_parts ran
  have holds := tours_held history resolved tours
  have makes : ∀ leg ∈ whole, ∃ state ∈ past, ∃ near far,
      leg.MadeIn state near far ∧ leg.Pairs near far := by
    intro leg present
    obtain ⟨state, old, makes⟩ := holds_makes (history_recorded history) (holds leg present)
    obtain ⟨earlier, before⟩ := history_past history old
    have planned := written_planned written leg.reading (leg_reading q present)
    exact ⟨state, old, makes_pairs (history_recorded before) makes planned⟩
  have pairs : ∀ leg ∈ whole, ∃ near far, leg.Pairs near far := by
    intro leg present
    obtain ⟨_, _, near, far, _, pair⟩ := makes leg present
    exact ⟨near, far, pair⟩
  obtain ⟨tour, joins⟩ := pairs_join built ran tours pairs
  refine ⟨whole, tour, (forall₂_members joins).imp ?_⟩
  rintro leg item ⟨present, _, reads⟩
  obtain ⟨state, old, near, far, origin, pair⟩ := makes leg present
  exact ⟨holds leg present, state, old, near, far, origin, reads near far pair⟩

end

-- A query depends on what is found in the model and on nothing else about it. It reads the columns
-- that the model has, but joins the tables and keys that its references found when they were made.
theorem sql_of_bindings (history : Model.History past m) (steps : List Query.Step)
    (unresolved : ∀ step ∈ steps, step.Unresolved) (made : m.query name domain steps = .ok q)
    (ran : q.sqlFrom n = .ok (sql, k)) :
    (∀ other, m.Alike other → other.query name domain steps = .ok q) ∧ q.Resolved m domain ∧
      ∃ s, q.statement n = .ok (s, k) ∧ sql = s.selectText ++ s.fromText ++ s.tailText ∧
        q.JoinsMade m past s := by
  obtain ⟨built, resolved⟩ := query_resolved (history_built history) steps unresolved made
  obtain ⟨⟨s, counter⟩, stated, written⟩ := bind_parts ran
  cases written
  refine ⟨?_, resolved, s, stated, text_layout s, statement_made history resolved built stated⟩
  intro other models
  rw [← query_alike models, made]

-- The customers move to another table, and their numbers to another column, after the orders have
-- been linked to them.
namespace Clients

def customers : Domain := ⟨"customers", "customers", [.namesake "customers" "id" .integer]⟩

def orders : Domain := ⟨"orders", "orders", [.namesake "orders" "customer_id" .integer]⟩

def customer : Attribute :=
  ⟨"orders", "customer", .reference "customers" "customers" (linkCondition "orders" "customers"
    (.namesake "orders" "customer_id" .integer) (.namesake "customers" "id" .integer))⟩

def clientId : Attribute := .mapped "customers" "id" "client_id" (.scalar .integer)

def clients : Domain := ⟨"customers", "clients", [clientId]⟩

def parted : Model := (Model.empty.register customers).register orders

def linked : Model := parted.register (orders.insert customer)

def moved : Model := linked.register clients

def past : List Model := [linked, parted, .register .empty customers, .empty]

def steps : List Query.Step := [.selectAs "number" "customer.id"]

def number : Expr := .compose (.access customer .matching) (.access clientId .matching)

def report : Query := ⟨"report", "orders", "orders", [⟨"number", number⟩], none⟩

def reportText : String :=
  "SELECT customer.client_id AS number FROM orders" ++
    " JOIN customers AS customer ON (orders.customer_id = customer.id)"

theorem column_recorded (past : List Model) (domain table name place : String) :
    (Domain.mk domain table [.mapped domain name place (.scalar .integer)]).Recorded past := by
  intro label member found
  cases List.mem_singleton.mp (find_member found)
  exact .inl ⟨name, place, .scalar .integer, rfl⟩

theorem moved_history : Model.History past moved := by
  have apart : Model.History _ parted :=
    .register (.register .start (column_recorded _ _ _ _ _)) (column_recorded _ _ _ _ _)
  have made : parted.addReference "orders" "customer" "customer_id" "customers" "id" =
      .ok (customer, linked) := rfl
  exact .register (.reference apart made) (column_recorded _ _ _ _ _)

theorem steps_unresolved : ∀ step ∈ steps, step.Unresolved := by
  simp [steps, Query.Step.Unresolved]

theorem report_made : moved.query "report" "orders" steps = .ok report := by
  rfl

theorem report_ran : report.sqlFrom 0 = .ok (reportText, 0) := by
  decide +kernel

theorem report_of_bindings : Model.History past moved ∧ (∀ step ∈ steps, step.Unresolved) ∧
    moved.query "report" "orders" steps = .ok report ∧ report.sqlFrom 0 = .ok (reportText, 0) ∧
    (∀ other, moved.Alike other → other.query "report" "orders" steps = .ok report) ∧
    report.Resolved moved "orders" ∧ ∃ s, report.statement 0 = .ok (s, 0) ∧
      reportText = s.selectText ++ s.fromText ++ s.tailText ∧ report.JoinsMade moved past s :=
  ⟨moved_history, steps_unresolved, report_made, report_ran,
    sql_of_bindings moved_history steps steps_unresolved report_made report_ran⟩

theorem report_left_behind : ¬ ∀ past m, Model.History past m → ∀ name domain steps q,
    (∀ step ∈ steps, step.Unresolved) → m.query name domain steps = .ok q →
    ∀ n s k, q.statement n = .ok (s, k) →
      ∀ item ∈ s.joins, ∃ name d, m.domain? name = some d ∧ item.table = d.table := by
  intro always
  have shown : (report.statement 0).toOption.map (fun made => made.1.joins.map Joined.table) =
      some ["customers"] := by decide +kernel
  have tables : moved.domains.map Domain.table = ["clients", "orders"] := by decide +kernel
  cases ran : report.statement 0 with
  | error error =>
    rw [ran] at shown
    cases shown
  | ok pair =>
    obtain ⟨s, k⟩ := pair
    rw [ran] at shown
    obtain ⟨item, rest, joins, table, _⟩ := List.map_eq_cons_iff.mp (Option.some.inj shown)
    have listed : item ∈ s.joins := joins ▸ List.mem_cons_self
    obtain ⟨name, d, known, same⟩ := always past moved moved_history "report" "orders" steps report
      steps_unresolved report_made 0 s k ran item listed
    have present : d.table ∈ moved.domains.map Domain.table := List.mem_map_of_mem (find_member known)
    rw [tables, ← same, table] at present
    simp at present

end Clients

end SemanticLayer
