import SemanticLayer.Proofs.Registry

namespace SemanticLayer

-- Three ways lead to a reference that compares two attributes: from a domain to a copy of its target,
-- from a domain to itself, and between two domains of a model. They take name, table and key of the
-- target from different places.

-- The table has no part in the condition.
def Domain.linking (d : Domain) (column target : String) (key : Attribute) : Except Error Expr := do
  let member ← d.lookup column
  let (near, far) : Side × Side := if target = d.name then (.left, .right) else (.matching, .matching)
  let condition ← Expr.operation .equals (.access member near) (.access key far)
  checkJoin d.name target condition
  pure condition

def Domain.joined (d : Domain) (name target table : String) (condition : Expr) : Domain.Addition :=
  d.added ⟨d.name, name, .reference target table condition⟩

theorem link_linking (d : Domain) (name column target table : String) (key : Attribute) :
    d.link name column target table key =
      (d.linking column target key).map (d.joined name target table) := by
  unfold Domain.link Domain.linking
  cases d.lookup column with
  | error error => rfl
  | ok member =>
    simp only [bind, Except.bind]
    generalize (if target = d.name then (Side.left, Side.right) else (.matching, .matching)) = sides
    cases Expr.operation .equals (.access member sides.1) (.access key sides.2) with
    | error error => rfl
    | ok condition =>
      simp only [Domain.addReferenceOn, Attribute.reference, bind, Except.bind]
      cases checkJoin d.name target condition <;> rfl

def Domain.selfLinking (d : Domain) (column key : String) : Except Error Expr := do
  let far ← d.lookup key
  d.linking column d.name far

theorem selfReference_linking (d : Domain) (name column key : String) :
    d.addSelfReference name column key =
      (d.selfLinking column key).map (d.joined name d.name d.table) := by
  unfold Domain.addSelfReference Domain.selfLinking
  cases d.lookup key with
  | error error => rfl
  | ok far => exact link_linking d name column d.name d.table far

-- A copy of the domain is asked for its table and for nothing else.
theorem copy_linking (d copy : Domain) (name column key : String) (same : copy.name = d.name) :
    d.addReference name column copy key =
      (d.selfLinking column key).map (d.joined name d.name copy.table) := by
  unfold Domain.addReference Domain.selfLinking
  rw [if_pos same, same]
  cases d.lookup key with
  | error error => rfl
  | ok far => exact link_linking d name column d.name copy.table far

theorem joined_table (d : Domain) (name target table other : String) (condition : Expr)
    (same : d.joined name target table condition = d.joined name target other condition) :
    table = other := by
  have member := congrArg Prod.fst same
  simp only [Domain.joined, Domain.added, Attribute.mk.injEq, Definition.reference.injEq] at member
  tauto

-- In a model the target of a domain that has the domain's name is the domain.
theorem target_linked (known : Model.domain? m domain = some d)
    (reached : m.domain? target = some aim) (name column key : String) :
    d.addReference name column aim key =
      aim.lookup key >>= fun far => d.link name column aim.name aim.table far := by
  unfold Domain.addReference
  split
  · rename_i same
    rw [domain_named known, domain_named reached] at same
    cases same
    cases known.symm.trans reached
    rfl
  · rfl

theorem model_linking (known : Model.domain? m domain = some d)
    (reached : m.domain? target = some aim) (name column key : String) :
    m.addReference domain name column target key =
      (d.addReference name column aim key).map fun made => (made.1, m.register made.2) := by
  unfold Model.addReference Model.extend
  rw [target_linked known reached, lookup_found reached, lookup_found known]
  simp only [bind, Except.bind]
  cases aim.lookup key with
  | error error => rfl
  | ok far =>
    dsimp only
    cases d.link name column aim.name aim.table far <;> rfl

-- The three ways agree but for one thing: a copy of the domain that has another table than the domain
-- gives a reference to that table. With the table of the domain, or where nothing can be added, the
-- copy does not matter, however old it is.
theorem references_agree (d copy : Domain) (same : copy.name = d.name) (m : Model) (aim : Domain)
    (known : m.domain? d.name = some d) (reached : m.domain? target = some aim) (name column key : String) :
    (∃ outcome : Except Error Expr,
      d.addSelfReference name column key = outcome.map (d.joined name d.name d.table) ∧
      d.addReference name column copy key = outcome.map (d.joined name d.name copy.table)) ∧
    (d.addReference name column copy key = d.addSelfReference name column key ↔
      copy.table = d.table ∨ ∃ error, d.addSelfReference name column key = .error error) ∧
    m.addReference d.name name column target key =
      (d.addReference name column aim key).map (fun made => (made.1, m.register made.2)) ∧
    ∀ member grown, d.addReference name column aim key = .ok (member, grown) →
      (m.register grown).domain? d.name = some grown ∧
        ∀ other, other ≠ d.name → (m.register grown).domain? other = m.domain? other := by
  have alone := selfReference_linking d name column key
  have copied := copy_linking d copy name column key same
  refine ⟨⟨_, alone, copied⟩, ?_, model_linking known reached name column key, ?_⟩
  · rw [alone, copied]
    cases d.selfLinking column key with
    | error error => simp [Except.map]
    | ok condition =>
      constructor
      · intro agree
        exact .inl (joined_table d name d.name _ _ condition (Except.ok.inj agree))
      · rintro (table | ⟨error, failed⟩)
        · rw [table]
        · cases failed
  · intro member grown made
    have named : grown.name = d.name := by
      obtain ⟨far, linked⟩ := reference_link made
      obtain ⟨condition, joined⟩ := link_joined linked
      rw [(joined_parts joined).2]
      rfl
    constructor
    · rw [register_domain, if_pos named]
    · intro other apart
      rw [register_domain, if_neg (named ▸ apart.symm)]

namespace Moves

def number (domain name : String) : Attribute := .mapped domain name name (.scalar .integer)

-- The staff, before and after their records were moved to another table.
def staff (table : String) : Domain :=
  ⟨"staff", table, [number "staff" "id", number "staff" "manager_id", number "staff" "room_id"]⟩

def rooms : Domain := ⟨"rooms", "rooms", [number "rooms" "id"]⟩

def firm : Model := (Model.empty.register rooms).register (staff "employees")

def manages : Expr :=
  .binary .equals (.access (number "staff" "manager_id") .left) (.access (number "staff" "id") .right)
    .boolean

def manager (table : String) : Attribute := ⟨"staff", "manager", .reference "staff" table manages⟩

theorem manages_linking : (staff "employees").selfLinking "manager_id" "id" = .ok manages := rfl

theorem manager_agrees : (staff "staff").name = (staff "employees").name ∧
    firm.domain? "staff" = some (staff "employees") ∧ firm.domain? "rooms" = some rooms ∧
    (staff "employees").addSelfReference "manager" "manager_id" "id" =
      .ok ((staff "employees").added (manager "employees")) ∧
    (staff "employees").addReference "manager" "manager_id" (staff "staff") "id" ≠
      (staff "employees").addSelfReference "manager" "manager_id" "id" ∧
    (staff "employees").addReference "manager" "manager_id" (staff "staff") "phone" =
      (staff "employees").addSelfReference "manager" "manager_id" "phone" ∧
    firm.addReference "staff" "room" "room_id" "rooms" "id" =
      ((staff "employees").addReference "room" "room_id" rooms "id").map
        fun made => (made.1, firm.register made.2) := by
  have known : firm.domain? "staff" = some (staff "employees") := rfl
  have reached : firm.domain? "rooms" = some rooms := rfl
  have made : (staff "employees").addSelfReference "manager" "manager_id" "id" =
      .ok ((staff "employees").added (manager "employees")) := rfl
  have agree := references_agree (staff "employees") (staff "staff") rfl firm rooms known reached
  refine ⟨rfl, known, reached, made, ?_, ?_, (agree "room" "room_id" "id").2.2.1⟩
  · intro same
    rcases (agree "manager" "manager_id" "id").2.1.mp same with table | ⟨error, failed⟩
    · exact absurd table (by decide)
    · cases made.symm.trans failed
  · exact (agree "manager" "manager_id" "phone").2.1.mpr (.inr ⟨_, rfl⟩)

theorem staff_formed (table : String) : (staff table).Formed := by
  have one : Domain.Formed ⟨"staff", "staff", [number "staff" "id"]⟩ :=
    .grown (.mapped "id" "id" .integer) (.new "staff") rfl
  have two : Domain.Formed ⟨"staff", "staff", [number "staff" "id", number "staff" "manager_id"]⟩ :=
    .grown (.mapped "manager_id" "manager_id" .integer) one rfl
  exact .table table (.grown (.mapped "room_id" "room_id" .integer) two rfl)

-- The move comes after the copy, so that the reference leads to the table from before the move.
theorem copy_disagrees : ¬ ∀ d copy : Domain, d.Formed → copy.Formed → copy.name = d.name →
    ∀ name column key, d.addReference name column copy key = d.addSelfReference name column key := by
  intro always
  have agree := always (staff "employees") (staff "staff") (staff_formed _) (staff_formed _) rfl
    "manager" "manager_id" "id"
  have named : (staff "staff").name = (staff "employees").name := rfl
  rw [copy_linking _ _ _ _ _ named, selfReference_linking, manages_linking] at agree
  exact absurd (joined_table _ _ _ _ _ _ (Except.ok.inj agree)) (by decide)

end Moves

end SemanticLayer
