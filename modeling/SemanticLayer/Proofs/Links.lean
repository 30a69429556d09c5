import SemanticLayer.Proofs.Keys
import SemanticLayer.Proofs.Ownership

namespace SemanticLayer

def Domain.HasColumn (d : Domain) (name column : String) : Prop :=
  ∃ type, d.attribute? name = some (.mapped d.name name column type)

-- A target with the name of the domain is the domain, whatever attributes it has.
inductive Attribute.Links (near far : String) : Attribute → Prop where
  | domain (d target : Domain) : d.HasColumn column near →
      (if target.name = d.name then d else target).HasColumn key far →
      d.addReference label column target key = .ok (member, grown) → Links near far member
  | self (d : Domain) : d.HasColumn column near → d.HasColumn key far →
      d.addSelfReference label column key = .ok (member, grown) → Links near far member
  | model (m : Model) (d aim : Domain) : m.domain? owner = some d → m.domain? target = some aim →
      d.HasColumn column near → aim.HasColumn key far →
      m.addReference owner label column target key = .ok (member, next) → Links near far member

def linkCondition (owner target : String) (near far : Attribute) : Expr :=
  .binary .equals (.access near (keySides owner target).1) (.access far (keySides owner target).2)
    .boolean

-- All three ways come down to this.
theorem link_parts (made : Domain.link d label column target table key = .ok (member, grown)) :
    ∃ near, d.attribute? column = some near ∧
      member = ⟨d.name, label, .reference target table (linkCondition d.name target near key)⟩ ∧
      grown = d.insert member := by
  obtain ⟨near, found, made⟩ := bind_parts made
  have sides : (if target = d.name then (Side.left, Side.right) else (.matching, .matching)) =
      keySides d.name target := by
    simp only [keySides, eq_comm]
  rw [sides] at made
  obtain ⟨condition, joined, made⟩ := bind_parts made
  obtain ⟨_, type, _, typed, rfl⟩ := operation_parts joined
  cases typed
  obtain ⟨rfl, rfl⟩ := addReferenceOn_parts made
  exact ⟨near, attribute_lookup found, rfl, rfl⟩

theorem addReference_parts
    (made : Model.addReference m owner label column target key = .ok (member, next)) :
    ∃ d aim near far, m.domain? owner = some d ∧ m.domain? target = some aim ∧
      d.attribute? column = some near ∧ aim.attribute? key = some far ∧
      member = ⟨owner, label, .reference target aim.table (linkCondition owner target near far)⟩ ∧
      next = m.register (d.insert member) := by
  obtain ⟨aim, lookedUp, made⟩ := bind_parts made
  obtain ⟨far, found, made⟩ := bind_parts made
  obtain ⟨d, grown, known, linked, rfl⟩ := extend_parts made
  obtain ⟨near, held, same, rfl⟩ := link_parts linked
  have reached := domain_lookup lookedUp
  rw [domain_named known, domain_named reached] at same
  exact ⟨d, aim, near, far, known, reached, held, attribute_lookup found, same, rfl⟩

def Leg.Pairs (leg : Leg) (near far : String) : Prop :=
  ∃ name type key keyType, leg.condition = linkCondition leg.owner leg.target
    (.mapped leg.owner name near type) (.mapped leg.target key far keyType)

theorem reference_pairs (leg : Leg) (same : leg.reference = ⟨owner, label, .reference target table
      (linkCondition owner target (.mapped owner column near nearType)
        (.mapped target key far farType))⟩) : leg.Pairs near far := by
  simp only [Leg.reference, Attribute.mk.injEq, Definition.reference.injEq] at same
  obtain ⟨own, _, aim, _, condition⟩ := same
  exact ⟨column, nearType, key, farType, by rw [condition, own, aim]⟩

theorem column_found (held : Domain.HasColumn d name column)
    (found : d.attribute? name = some member) : ∃ type, member = .mapped d.name name column type := by
  obtain ⟨type, known⟩ := held
  cases known.symm.trans found
  exact ⟨type, rfl⟩

theorem link_pairs (leg : Leg) (nearby : Domain.HasColumn d column near)
    (made : d.link label column target table (.mapped target key far type) =
      .ok (leg.reference, grown)) : leg.Pairs near far := by
  obtain ⟨member, found, same, _⟩ := link_parts made
  obtain ⟨nearType, rfl⟩ := column_found nearby found
  exact reference_pairs leg same

theorem links_pairs (leg : Leg) (links : leg.reference.Links near far) : leg.Pairs near far := by
  cases links with
  | domain d target nearby faraway made =>
    unfold Domain.addReference at made
    split at made
    · rename_i own
      rw [if_pos own] at faraway
      obtain ⟨member, found, made⟩ := bind_parts made
      obtain ⟨type, rfl⟩ := column_found faraway (attribute_lookup found)
      exact link_pairs leg nearby (own ▸ made)
    · rename_i other
      rw [if_neg other] at faraway
      obtain ⟨member, found, made⟩ := bind_parts made
      obtain ⟨type, rfl⟩ := column_found faraway (attribute_lookup found)
      exact link_pairs leg nearby made
  | self d nearby faraway made =>
    obtain ⟨member, found, made⟩ := bind_parts made
    obtain ⟨type, rfl⟩ := column_found faraway (attribute_lookup found)
    exact link_pairs leg nearby made
  | model m d aim known reached nearby faraway made =>
    obtain ⟨_, _, member, key, again, once_more, held, found, same, _⟩ := addReference_parts made
    cases known.symm.trans again
    cases reached.symm.trans once_more
    obtain ⟨nearType, rfl⟩ := column_found nearby held
    obtain ⟨farType, rfl⟩ := column_found faraway found
    rw [domain_named known, domain_named reached] at same
    exact reference_pairs leg same

theorem pairs_marked (leg : Leg) (pairs : leg.Pairs near far) : leg.Marked := by
  obtain ⟨name, type, key, keyType, same⟩ := pairs
  rintro head member
  rw [same] at member
  simp only [linkCondition, Expr.heads, Attribute.mapped, List.cons_append, List.nil_append,
    List.mem_cons, List.not_mem_nil, or_false] at member
  rcases member with rfl | rfl <;> (unfold keySides; split <;> simp_all)

def Query.Linked (q : Query) : Prop :=
  ∀ member, q.Mentions member → member.isReference = true → ∃ near far, member.Links near far

def JoinsOn (names : AliasTable) (leg : Leg) (near far : String) (item : Joined) : Prop :=
  names.name leg.parent ≠ names.name leg.path ∧
    item.text = " JOIN " ++ leg.table ++ " AS " ++ names.name leg.path ++ " ON (" ++
      names.name leg.parent ++ "." ++ near ++ " = " ++ names.name leg.path ++ "." ++ far ++ ")"

def Query.JoinsLinks (q : Query) (s : Statement String Nat) : Prop :=
  ∃ whole, q.FromTour whole s ∧
    List.Forall₂ (fun leg item => ∃ near far, leg.reference.Links near far ∧
      JoinsOn (.ofPaths (q.paths whole)) leg near far item) whole s.joins

theorem pairs_planned (leg : Leg) (based : leg.Based) (pairs : leg.Pairs near far) :
    leg.condition.plan (.join leg.parent leg.path) =
      .ok ⟨.binary .equals (.column leg.parent near) (.column leg.path far), []⟩ := by
  obtain ⟨name, type, key, keyType, same⟩ := pairs
  rw [same, ← based]
  exact pair_planned leg.parent leg.path name key near far type keyType .boolean

theorem pair_text (names : AliasTable) (parent path : Path) (near far : String) (k : Nat) :
    ((Term.aliased names (.binary .equals (.column parent near) (.column path far))).numbered k).1.text
      = "(" ++ names.name parent ++ "." ++ near ++ " = " ++ names.name path ++ "." ++ far ++ ")" := by
  have sign : (" " ++ Operator.equals.symbol ++ " ") = " = " := rfl
  simp only [Term.aliased, Term.numbered, Term.text, ← sign, String.append_assoc]

theorem parent_alias (tour : Query.FromTour q whole s) (present : leg ∈ whole) :
    (AliasTable.ofPaths (q.paths whole)).name leg.parent ≠
      (AliasTable.ofPaths (q.paths whole)).name leg.path := by
  intro same
  have listed : leg.path ∈ q.paths whole := List.mem_cons_of_mem _ (List.mem_map_of_mem present)
  have equal := List.inj_on_of_nodup_map (names_distinct tour.paths)
    (parent_listed tour.tour present) listed same
  have deeper : leg.path.depth = leg.parent.depth + 1 := rfl
  rw [equal] at deeper
  omega

theorem pairs_join (built : Query.Built q) (ran : q.statement n = .ok (s, m)) (tours : q.Tours whole)
    (pairs : ∀ leg ∈ whole, ∃ near far, leg.Pairs near far) : q.FromTour whole s ∧
      List.Forall₂ (fun leg item => ∀ near far, leg.Pairs near far →
        JoinsOn (.ofPaths (q.paths whole)) leg near far item) whole s.joins := by
  obtain ⟨other, toured, _, _, written⟩ := statement_parts ran
  cases tour_unique tours toured
  obtain ⟨other, tour⟩ := statement_tour ran
  cases tour.only whole tours
  have marked : ∀ leg ∈ whole, leg.Marked := by
    intro leg present
    obtain ⟨near, far, pair⟩ := pairs leg present
    exact pairs_marked leg pair
  have based := tours_based built tours marked (written_planned written)
  refine ⟨tour, (forall₂_members tour.joins).imp ?_⟩
  rintro leg ⟨label, table, condition⟩ ⟨present, _, sameLabel, sameTable, planned, k, made, term⟩
  intro near far pair
  cases (pairs_planned leg (based leg present) pair).symm.trans made
  dsimp only at sameLabel sameTable term
  have opened : " ON (" = " ON " ++ "(" := rfl
  refine ⟨parent_alias tour present, ?_⟩
  rw [Joined.text, sameLabel, sameTable, term, pair_text, opened]
  simp only [String.append_assoc]

theorem statement_links (built : Query.Built q) (linked : q.Linked)
    (ran : q.statement n = .ok (s, m)) : q.JoinsLinks s := by
  obtain ⟨whole, tours, _⟩ := statement_parts ran
  have links : ∀ leg ∈ whole, ∃ near far, leg.reference.Links near far :=
    fun leg present => linked leg.reference (tours_mentioned tours leg present) rfl
  have pairs : ∀ leg ∈ whole, ∃ near far, leg.Pairs near far := by
    intro leg present
    obtain ⟨near, far, link⟩ := links leg present
    exact ⟨near, far, links_pairs leg link⟩
  obtain ⟨tour, joins⟩ := pairs_join built ran tours pairs
  refine ⟨whole, tour, (forall₂_members joins).imp ?_⟩
  rintro leg item ⟨present, _, reads⟩
  obtain ⟨near, far, link⟩ := links leg present
  exact ⟨near, far, link, reads near far (links_pairs leg link)⟩

-- A query over links joins tables column by column: every join says that the near column of the
-- table it comes from equals the far column of its own table, each under the alias of its own path.
theorem sql_links_joined (q : Query) (built : q.Built) (linked : q.Linked)
    (ran : q.sqlFrom n = .ok (sql, m)) :
    ∃ s, q.statement n = .ok (s, m) ∧ sql = s.selectText ++ s.fromText ++ s.tailText ∧
      q.JoinsLinks s ∧ ∀ inner, s.Contains inner → ∃ r k l,
        q.Within r ∧ r.statement k = .ok (inner, l) ∧ r.JoinsLinks inner := by
  obtain ⟨⟨s, counter⟩, made, written⟩ := bind_parts ran
  cases written
  refine ⟨s, made, text_layout s, statement_links built linked made, ?_⟩
  intro inner contains
  obtain ⟨r, k, l, within, ran⟩ := statement_nested made contains
  refine ⟨r, k, l, within, ran, statement_links (within_built within built) ?_ ran⟩
  exact fun member mentioned => linked member (within_mentioned within mentioned)

-- Where the manager of a manager sits: twice from employees to employees, and then to an office.
namespace Desks

def staff : Domain :=
  ⟨"staff", "staff", [.namesake "staff" "id" .integer, .namesake "staff" "manager_id" .integer,
    .namesake "staff" "office_id" .integer]⟩

def offices : Domain :=
  ⟨"offices", "rooms", [.namesake "offices" "city" .string, .namesake "offices" "id" .integer]⟩

def manager : Attribute :=
  ⟨"staff", "manager", .reference "staff" "staff" (linkCondition "staff" "staff"
    (.namesake "staff" "manager_id" .integer) (.namesake "staff" "id" .integer))⟩

def office : Attribute :=
  ⟨"staff", "office", .reference "offices" "rooms" (linkCondition "staff" "offices"
    (.namesake "staff" "office_id" .integer) (.namesake "offices" "id" .integer))⟩

def city : Expr :=
  .compose (.access manager .matching) (.compose (.access manager .matching)
    (.compose (.access office .matching) (.read "offices" "city" .string)))

def seating : Query := ⟨"seating", "staff", "staff", [⟨"city", city⟩], none⟩

def seatingText : String :=
  "SELECT office.city AS city FROM staff" ++
    " JOIN staff AS manager ON (staff.manager_id = manager.id)" ++
    " JOIN staff AS manager_1 ON (manager.manager_id = manager_1.id)" ++
    " JOIN rooms AS office ON (manager_1.office_id = office.id)"

theorem manager_links : manager.Links "manager_id" "id" := by
  have made : staff.addSelfReference "manager" "manager_id" "id" =
      .ok (manager, staff.insert manager) := rfl
  exact .self staff ⟨.scalar .integer, rfl⟩ ⟨.scalar .integer, rfl⟩ made

theorem office_links : office.Links "office_id" "id" := by
  have made : Model.addReference ⟨[offices, staff], []⟩ "staff" "office" "office_id" "offices" "id" =
      .ok (office, ⟨[offices, staff.insert office], []⟩) := rfl
  exact .model ⟨[offices, staff], []⟩ staff offices rfl rfl ⟨.scalar .integer, rfl⟩
    ⟨.scalar .integer, rfl⟩ made

theorem manager_built : manager.Built := by
  have joined : Expr.operation .equals (.access (.namesake "staff" "manager_id" .integer) .left)
      (.access (.namesake "staff" "id" .integer) .right) = .ok (linkCondition "staff" "staff"
        (.namesake "staff" "manager_id" .integer) (.namesake "staff" "id" .integer)) := rfl
  have condition : Expr.Built _ := .operation (read_built _ _ _ _) (read_built _ _ _ _) joined
  exact .reference condition
    (rfl : Attribute.reference "staff" "manager" "staff" "staff" _ = .ok manager)

theorem office_built : office.Built := by
  have joined : Expr.operation .equals (.read "staff" "office_id" .integer)
      (.read "offices" "id" .integer) = .ok (linkCondition "staff" "offices"
        (.namesake "staff" "office_id" .integer) (.namesake "offices" "id" .integer)) := rfl
  have condition : Expr.Built _ := .operation (read_built _ _ _ _) (read_built _ _ _ _) joined
  exact .reference condition
    (rfl : Attribute.reference "staff" "office" "offices" "rooms" _ = .ok office)

theorem seating_built : seating.Built := by
  have seat : Expr.Built _ :=
    .composed (.access .matching office_built) (read_built "offices" "city" .string .matching) rfl
  have boss : Expr.Built _ := .composed (.access .matching manager_built) seat rfl
  have whole : city.Built := .composed (.access .matching manager_built) boss rfl
  exact .select (.start "seating" staff) whole rfl

theorem city_mentions (mentioned : city.Mentions member) (reference : member.isReference = true) :
    member = manager ∨ member = office := by
  cases mentioned with
  | reference first => exact .inl (link_mentions first reference)
  | composition rest =>
    cases rest with
    | reference second => exact .inl (link_mentions second reference)
    | composition rest =>
      cases rest with
      | reference third => exact .inr (link_mentions third reference)
      | composition last => simp [column_mentions _ _ _ last] at reference

theorem seating_linked : seating.Linked := by
  rintro member ⟨expr, said, mentioned⟩ reference
  have only : expr = city := by simpa [Query.Says, seating] using said
  rcases city_mentions (only ▸ mentioned) reference with rfl | rfl
  · exact ⟨_, _, manager_links⟩
  · exact ⟨_, _, office_links⟩

theorem seating_links_joined : seating.Built ∧ seating.Linked ∧ seating.sqlFrom 0 = .ok (seatingText, 0) ∧
    ∃ s, seating.statement 0 = .ok (s, 0) ∧ seatingText = s.selectText ++ s.fromText ++ s.tailText ∧
      seating.JoinsLinks s ∧ ∀ inner, s.Contains inner → ∃ r k l,
        seating.Within r ∧ r.statement k = .ok (inner, l) ∧ r.JoinsLinks inner := by
  have ran : seating.sqlFrom 0 = .ok (seatingText, 0) := by decide +kernel
  exact ⟨seating_built, seating_linked, ran, sql_links_joined seating seating_built seating_linked ran⟩

end Desks

end SemanticLayer
