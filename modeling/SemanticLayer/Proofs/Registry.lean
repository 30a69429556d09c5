import Mathlib.Logic.Relation
import SemanticLayer.Proofs.Narrowing
import SemanticLayer.Proofs.Staging

namespace SemanticLayer

def Expr.Joins (owner target : String) (condition : Expr) : Prop :=
  condition.type = .boolean ∧ ∃ source, condition.source = some source ∧
    ∀ name, name ∈ source.names ↔ name = owner ∨ name = target

theorem pairs_names (left right owner target : String) : Source.Pairs left right owner target ↔
    ∀ name, name ∈ (Source.cross left right).names ↔ name = owner ∨ name = target := by
  simp only [Source.names, List.mem_cons, List.not_mem_nil, or_false]
  constructor
  · rintro (⟨rfl, rfl⟩ | ⟨rfl, rfl⟩) name
    · rfl
    · exact or_comm
  · intro same
    have here := (same left).mp (.inl rfl)
    have there := (same right).mp (.inr rfl)
    have near := (same owner).mpr (.inl rfl)
    have far := (same target).mpr (.inr rfl)
    unfold Source.Pairs
    grind

theorem single_names (single owner target : String) : (owner = target ∧ single = owner) ↔
    ∀ name, name ∈ (Source.domain single).names ↔ name = owner ∨ name = target := by
  simp only [Source.names, List.mem_singleton]
  constructor
  · rintro ⟨rfl, rfl⟩ name
    exact (or_self_iff).symm
  · intro same
    have near := (same owner).mpr (.inl rfl)
    have far := (same target).mpr (.inr rfl)
    exact ⟨near.trans far.symm, near.symm⟩

theorem checkJoin_iff (owner target : String) (condition : Expr) :
    checkJoin owner target condition = .ok () ↔ condition.Joins owner target := by
  rw [Expr.Joins, checkJoin]
  by_cases boolean : condition.type = .boolean
  · cases condition.source with
    | none => simp [boolean]
    | some source =>
      cases source with
      | domain single => simp [boolean, single_names]
      | cross left right => simp [boolean, pairs_names]
  · simp [boolean]

-- The type of a value is left open: it may be that of a record without being a reference.
structure Attribute.Fits (owner : String) (member : Attribute) : Prop where
  owned : member.domain = owner
  values : ∀ expr, member.definition = .value expr → Inside owner expr.source
  references : ∀ target table condition, member.definition = .reference target table condition →
    condition.Joins owner target

theorem mapped_fits (owner name column : String) (type : ExprType) :
    (Attribute.mapped owner name column type).Fits owner := by
  refine ⟨rfl, ?_, fun _ _ _ other => nomatch other⟩
  intro expr same
  cases same
  exact .inr rfl

theorem calculated_fits (made : Attribute.calculated owner name expr = .ok member) :
    member.Fits owner := by
  obtain ⟨inside, rfl⟩ := calculated_parts made
  refine ⟨rfl, ?_, fun _ _ _ other => nomatch other⟩
  intro other same
  cases same
  exact inside

theorem reference_fits (made : Attribute.reference owner name target table condition = .ok member) :
    member.Fits owner := by
  obtain ⟨checked, rfl⟩ := reference_parts made
  refine ⟨rfl, fun _ other => (nomatch other), ?_⟩
  intro _ _ _ same
  cases same
  exact (checkJoin_iff owner target condition).mp checked

namespace Domain

inductive Operation where
  | mapped (name column : String) (type : ScalarType)
  | calculated (name : String) (expr : Expr)
  | reference (name column : String) (target : Domain) (key : String)
  | selfReference (name column key : String)
  | joined (name target table : String) (condition : Expr)

def Operation.apply (d : Domain) : Operation → Except Error Addition
  | .mapped name column type => .ok (d.addMapped name column type)
  | .calculated name expr => d.addCalculated name expr
  | .reference name column target key => d.addReference name column target key
  | .selfReference name column key => d.addSelfReference name column key
  | .joined name target table condition => d.addReferenceOn name target table condition

inductive Formed : Domain → Prop where
  | new (name : String) : Formed (.new name)
  | query (q : Query) : Formed q.asDomain
  | table (table : String) : Formed d → Formed { d with table := table }
  | grown (operation : Operation) : Formed d → operation.apply d = .ok (member, grown) →
      Formed grown

structure Sound (d : Domain) : Prop where
  sorted : d.attributes.Pairwise fun a b => a.name < b.name
  members : ∀ member ∈ d.attributes, member.Fits d.name

end Domain

theorem joined_parts
    (made : Domain.addReferenceOn d name target table condition = .ok (member, grown)) :
    member.Fits d.name ∧ grown = d.insert member := by
  obtain ⟨member, referred, made⟩ := bind_parts made
  cases made
  exact ⟨reference_fits referred, rfl⟩

theorem link_joined (made : Domain.link d name column target table key = .ok (member, grown)) :
    ∃ condition, d.addReferenceOn name target table condition = .ok (member, grown) := by
  obtain ⟨_, _, made⟩ := bind_parts made
  obtain ⟨condition, _, made⟩ := bind_parts made
  exact ⟨condition, made⟩

theorem reference_link (made : Domain.addReference d name column target key = .ok (member, grown)) :
    ∃ far, d.link name column target.name target.table far = .ok (member, grown) := by
  unfold Domain.addReference at made
  split at made <;>
    · obtain ⟨far, _, made⟩ := bind_parts made
      exact ⟨far, made⟩

-- All that an operation does to a domain is to put a member into it that fits.
theorem operation_fits (operation : Domain.Operation)
    (made : operation.apply d = .ok (member, grown)) :
    member.Fits d.name ∧ grown = d.insert member := by
  cases operation with
  | mapped name column type =>
    cases made
    exact ⟨mapped_fits d.name name column _, rfl⟩
  | calculated name expr =>
    obtain ⟨member, defined, made⟩ := bind_parts made
    cases made
    exact ⟨calculated_fits defined, rfl⟩
  | reference name column target key =>
    obtain ⟨far, made⟩ := reference_link made
    obtain ⟨_, made⟩ := link_joined made
    exact joined_parts made
  | selfReference name column key =>
    obtain ⟨far, _, made⟩ := bind_parts made
    obtain ⟨_, made⟩ := link_joined made
    exact joined_parts made
  | joined name target table condition => exact joined_parts made

theorem insert_sound (sound : Domain.Sound d) (fits : member.Fits d.name) :
    (d.insert member).Sound := by
  refine ⟨insert_sorted Attribute.name member sound.sorted, ?_⟩
  intro other present
  rcases insert_member Attribute.name present with rfl | old
  · exact fits
  · exact sound.members other old

theorem columns_sound (projections : List Projection) (sound : Domain.Sound d)
    (named : d.name = owner) :
    (projections.foldl (fun d p => d.insert (.mapped owner p.label p.label p.type)) d).Sound := by
  induction projections generalizing d with
  | nil => exact sound
  | cons p rest ih =>
    have fits := mapped_fits owner p.label p.label p.type
    exact ih (insert_sound sound (named ▸ fits)) named

theorem formed_sound (formed : Domain.Formed d) : d.Sound := by
  have empty (name : String) : (Domain.new name).Sound := ⟨.nil, by simp [Domain.new]⟩
  induction formed with
  | new name => exact empty name
  | query q => exact columns_sound q.projections (empty q.name) rfl
  | table table _ ih => exact ⟨ih.sorted, ih.members⟩
  | grown operation _ made ih =>
    obtain ⟨fits, rfl⟩ := operation_fits operation made
    exact insert_sound ih fits

theorem columnsOf_formed (options : IngestOptions) (columns : List Column)
    (formed : Domain.Formed d) : (columns.foldl
      (fun d c => (d.addMapped (options.attributeName c.name) c.name c.type.scalar).2) d).Formed := by
  induction columns generalizing d with
  | nil => exact formed
  | cons c rest ih =>
    let column : Domain.Operation := .mapped (options.attributeName c.name) c.name c.type.scalar
    exact ih (.grown column formed rfl)

theorem domainOf_formed (options : IngestOptions) (t : Table) : (options.domainOf t).Formed :=
  columnsOf_formed options t.columns (.table t.name (.new (options.domainName t.name)))

namespace Model

-- Where the references of its domains lead is left open: a target need not be in the model, and may
-- have become another one since.
structure Sound (m : Model) : Prop where
  sorted : m.domains.Pairwise fun a b => a.name < b.name
  domains : ∀ d ∈ m.domains, d.Formed
  relations : ∀ r ∈ m.relations, m.has r.left ∧ m.has r.right ∧ r.condition.Joins r.left r.right

-- Domains are replaced, but no name of a domain and no relation is lost.
structure Retains (m next : Model) : Prop where
  domains : ∀ name, m.has name → next.has name
  relations : m.relations <+: next.relations

inductive Step (m : Model) : Model → Prop where
  | domain (d : Domain) : d.Formed → Step m (m.register d)
  | relation (r : Relation) : m.has r.left → m.has r.right → r.condition.Joins r.left r.right →
      Step m { m with relations := m.relations ++ [r] }

abbrev Steps : Model → Model → Prop := Relation.ReflTransGen Step

end Model

theorem register_has (m : Model) (d : Domain) (name : String) :
    (m.register d).has name ↔ d.name = name ∨ m.has name := by
  unfold Model.has
  rw [register_domain]
  by_cases same : d.name = name <;> simp [same]

theorem empty_sound : Model.empty.Sound :=
  ⟨.nil, by simp [Model.empty], by simp [Model.empty]⟩

theorem step_sound (sound : Model.Sound m) (step : m.Step next) : next.Sound := by
  cases step with
  | domain d formed =>
    refine ⟨insert_sorted Domain.name d sound.sorted, ?_, ?_⟩
    · intro other present
      rcases insert_member Domain.name present with rfl | old
      · exact formed
      · exact sound.domains other old
    · intro r present
      obtain ⟨left, right, joins⟩ := sound.relations r present
      exact ⟨(register_has m d _).mpr (.inr left), (register_has m d _).mpr (.inr right), joins⟩
  | relation r left right joins =>
    refine ⟨sound.sorted, sound.domains, ?_⟩
    intro other present
    rcases List.mem_append.mp present with old | new
    · exact sound.relations other old
    · cases List.mem_singleton.mp new
      exact ⟨left, right, joins⟩

theorem step_retains (step : Model.Step m next) : m.Retains next := by
  cases step with
  | domain d formed =>
    exact ⟨fun name held => (register_has m d name).mpr (.inr held), List.prefix_rfl⟩
  | relation r left right joins => exact ⟨fun name held => held, List.prefix_append _ _⟩

theorem retains_refl (m : Model) : m.Retains m := ⟨fun _ held => held, List.prefix_rfl⟩

theorem retains_trans (first : Model.Retains m next) (second : next.Retains last) : m.Retains last :=
  ⟨fun name held => second.domains name (first.domains name held),
    first.relations.trans second.relations⟩

theorem steps_sound (sound : Model.Sound m) (steps : m.Steps next) : next.Sound := by
  induction steps with
  | refl => exact sound
  | tail _ step ih => exact step_sound ih step

theorem steps_retain (steps : Model.Steps m next) : m.Retains next := by
  induction steps with
  | refl => exact retains_refl m
  | tail _ step ih => exact retains_trans ih (step_retains step)

theorem lookup_has (found : Model.lookup m name = .ok d) : m.has name := by
  unfold Model.has
  rw [domain_lookup found]
  rfl

theorem extend_step (sound : Model.Sound m) (operation : Domain.Operation)
    (made : m.extend name (operation.apply ·) = .ok (member, next)) : m.Step next := by
  obtain ⟨d, grown, found, added, rfl⟩ := extend_parts made
  exact .domain grown (.grown operation (sound.domains d (find_member found)) added)

-- In a model a target with the name of the owner is the owner.
theorem addReference_step (sound : Model.Sound m)
    (made : m.addReference owner label column target key = .ok (member, next)) : m.Step next := by
  obtain ⟨aim, lookedUp, made⟩ := bind_parts made
  obtain ⟨far, found, made⟩ := bind_parts made
  obtain ⟨d, grown, known, linked, rfl⟩ := extend_parts made
  have reached := domain_lookup lookedUp
  have added : d.addReference label column aim key = .ok (member, grown) := by
    unfold Domain.addReference
    split
    · rename_i own
      rw [← domain_named known, ← own, domain_named reached, reached] at known
      cases known
      rw [found]
      exact linked
    · rw [found]
      exact linked
  let reference : Domain.Operation := .reference label column aim key
  exact .domain grown (.grown reference (sound.domains d (find_member known)) added)

theorem addRelation_step (between : Relation.between left right condition = .ok r)
    (made : Model.addRelation m r = .ok next) : m.Step next := by
  obtain ⟨_, checked, same⟩ := bind_parts between
  cases same
  obtain ⟨_, near, made⟩ := bind_parts made
  obtain ⟨_, far, made⟩ := bind_parts made
  cases made
  exact .relation _ (lookup_has near) (lookup_has far) ((checkJoin_iff left right condition).mp checked)

theorem addKey_steps (sound : Model.Sound staged.2)
    (made : addKey options staged key ends condition = .ok next) : staged.2.Steps next.2 := by
  obtain ⟨changes, model⟩ := staged
  obtain ⟨⟨member, grown⟩, extended, made⟩ := bind_parts made
  let label := key.referenceName options ends.owner ends.aim
  let reference : Domain.Operation := .joined label ends.aim.name ends.aim.table condition
  have first : model.Step grown := extend_step sound reference extended
  dsimp only at made
  split at made
  · obtain ⟨r, between, made⟩ := bind_parts made
    obtain ⟨related, added, made⟩ := bind_parts made
    cases made
    exact .tail (.single first) (addRelation_step between added)
  · cases made
    exact .single first

theorem stageKey_steps (sound : Model.Sound staged.2)
    (made : stageKey options schema staged key = .ok next) : staged.2.Steps next.2 := by
  unfold stageKey at made
  split at made
  · obtain ⟨owner, _, made⟩ := bind_parts made
    obtain ⟨aim, _, made⟩ := bind_parts made
    obtain ⟨condition, _, made⟩ := bind_parts made
    exact addKey_steps sound made
  · cases made
    exact .refl

theorem tables_steps (options : IngestOptions) (tables : List Table) (m : Model) :
    m.Steps (tables.foldl (fun m t => m.register (options.domainOf t)) m) := by
  induction tables generalizing m with
  | nil => exact .refl
  | cons t rest ih => exact .head (.domain _ (domainOf_formed options t)) (ih _)

theorem ingest_steps (sound : Model.Sound m) (made : m.ingest schema options = .ok (changes, next)) :
    m.Steps next := by
  refine foldlM_keeps (fun staged => m.Steps staged.2) schema.foreignKeys ?_
    (tables_steps options schema.tables m) made
  intro key _ before after steps staged
  exact steps.trans (stageKey_steps (steps_sound sound steps) staged)

end SemanticLayer
