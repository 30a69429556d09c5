import SemanticLayer.Proofs.Calls
import SemanticLayer.Proofs.Registry

namespace SemanticLayer

namespace Model

inductive Operation where
  | register (d : Domain)
  | extend (domain : String) (operation : Domain.Operation)
  | reference (domain name column target key : String)
  | relation (left right : String) (condition : Expr)
  | ingest (schema : Schema) (options : IngestOptions)

namespace Operation

def apply (m : Model) : Operation → Except Error Model
  | .register d => .ok (m.register d)
  | .extend domain operation => Prod.snd <$> m.extend domain (operation.apply ·)
  | .reference domain name column target key =>
      Prod.snd <$> m.addReference domain name column target key
  | .relation left right condition => Relation.between left right condition >>= m.addRelation
  | .ingest schema options => Prod.snd <$> m.ingest schema options

def call : Operation → Call Unit
  | .register d => modify (·.register d)
  | .extend domain operation => Call.extend domain (operation.apply ·)
  | .reference domain name column target key => Call.addReference domain name column target key
  | .relation left right condition => Call.relate left right condition
  | .ingest schema options => Call.onCopy (Call.stage schema options)

end Operation

def perform (m : Model) (operation : Operation) : Model :=
  match operation.call m with
  | .ok _ next => next
  | .error _ left => left

def after (operations : List Operation) : Model := operations.foldl perform .empty

end Model

theorem call_meets (operation : Model.Operation) (m : Model) :
    Call.Meets (operation.call m) (operation.apply m) := by
  cases operation with
  | register d => exact .ended (m.register d)
  | extend domain operation => exact Call.extend_meets m domain _
  | reference domain name column target key =>
    exact Call.addReference_meets m domain name column target key
  | relation left right condition => exact Call.relate_meets m left right condition
  | ingest schema options => exact Call.onCopy_meets (Call.stage_meets m schema options)

theorem call_harmless (operation : Model.Operation) : operation.call.Harmless := by
  cases operation with
  | register d => exact Call.modify_harmless _
  | extend domain operation => exact Call.extend_harmless domain _
  | reference domain name column target key =>
    exact Call.addReference_harmless domain name column target key
  | relation left right condition => exact Call.relate_harmless left right condition
  | ingest schema options => exact Call.onCopy_harmless _

theorem call_ok (operation : Model.Operation) (m next : Model) :
    operation.call m = .ok () next ↔ operation.apply m = .ok next := by
  have meets := call_meets operation m
  generalize operation.call m = outcome at meets
  generalize operation.apply m = result at meets
  cases meets <;> simp

theorem call_failed (operation : Model.Operation) (m : Model) (error : Error) (left : Model) :
    operation.call m = .error error left ↔ operation.apply m = .error error ∧ left = m := by
  have meets := call_meets operation m
  have harmless := call_harmless operation m
  generalize operation.call m = outcome at meets harmless
  generalize operation.apply m = result at meets
  cases meets with
  | ended next => simp
  | failed fault copy =>
    cases harmless fault copy rfl
    simp [eq_comm]

theorem perform_cases (m : Model) (operation : Model.Operation) :
    operation.apply m = .ok (m.perform operation) ∨ m.perform operation = m := by
  unfold Model.perform
  cases ran : operation.call m with
  | ok value next => exact .inl ((call_ok operation m next).mp ran)
  | error error left => exact .inr ((call_failed operation m error left).mp ran).2

theorem apply_steps (sound : Model.Sound m) (operation : Model.Operation)
    (formed : ∀ d, operation = .register d → d.Formed) (made : operation.apply m = .ok next) :
    m.Steps next := by
  cases operation with
  | register d =>
    cases made
    exact .single (.domain d (formed d rfl))
  | extend domain operation =>
    obtain ⟨⟨member, grown⟩, extended, rfl⟩ := map_parts made
    exact .single (extend_step sound operation extended)
  | reference domain name column target key =>
    obtain ⟨⟨member, grown⟩, referred, rfl⟩ := map_parts made
    exact .single (addReference_step sound referred)
  | relation left right condition =>
    obtain ⟨r, between, added⟩ := bind_parts made
    exact .single (addRelation_step between added)
  | ingest schema options =>
    obtain ⟨⟨changes, staged⟩, ingested, rfl⟩ := map_parts made
    exact ingest_steps sound ingested

theorem perform_steps (sound : Model.Sound m) (operation : Model.Operation)
    (formed : ∀ d, operation = .register d → d.Formed) : m.Steps (m.perform operation) := by
  rcases perform_cases m operation with made | same
  · exact apply_steps sound operation formed made
  · rw [same]

theorem performs_steps (sound : Model.Sound m) (operations : List Model.Operation)
    (formed : ∀ d, .register d ∈ operations → Domain.Formed d) :
    m.Steps (operations.foldl Model.perform m) := by
  induction operations generalizing m with
  | nil => exact .refl
  | cons operation rest ih =>
    have first := perform_steps sound operation fun d same => formed d (same ▸ List.mem_cons_self)
    refine first.trans (ih (steps_sound sound first) ?_)
    exact fun d later => formed d (List.mem_cons_of_mem operation later)

theorem after_sound (operations : List Model.Operation)
    (formed : ∀ d, .register d ∈ operations → Domain.Formed d) : (Model.after operations).Sound :=
  steps_sound empty_sound (performs_steps empty_sound operations formed)

def Model.Stored (m : Model) : Prop :=
  ∀ d ∈ m.domains, m.domain? d.name = some d ∧
    ∀ member ∈ d.attributes, d.attribute? member.name = some member

theorem sound_stored (sound : Model.Sound m) : m.Stored := by
  intro d present
  refine ⟨sorted_found Domain.name sound.sorted present, ?_⟩
  intro member held
  exact sorted_found Attribute.name (formed_sound (sound.domains d present)).sorted held

-- Whatever is done to a model that was empty, and whatever of it fails, the model is sound: every
-- domain and every member is found under its own name, a member fits the domain that it is in, and
-- a relation has its two ends in the model. Nothing is lost on the way, and a call that fails leaves
-- the model as it was.
theorem operations_sound (operations : List Model.Operation)
    (formed : ∀ d, .register d ∈ operations → Domain.Formed d) :
    (Model.after operations).Sound ∧ (Model.after operations).Stored ∧
      (∀ d ∈ (Model.after operations).domains, d.Sound) ∧
      (∀ before, before <+: operations → (Model.after before).Retains (Model.after operations)) ∧
      (∀ (operation : Model.Operation) (m next : Model),
        operation.call m = .ok () next ↔ operation.apply m = .ok next) ∧
      ∀ (operation : Model.Operation) (m : Model) (error : Error) (left : Model),
        operation.call m = .error error left ↔ operation.apply m = .error error ∧ left = m := by
  have sound := after_sound operations formed
  refine ⟨sound, sound_stored sound, fun d present => formed_sound (sound.domains d present), ?_,
    call_ok, call_failed⟩
  rintro before ⟨rest, rfl⟩
  have first := after_sound before fun d early => formed d (List.mem_append_left rest early)
  have steps := performs_steps first rest fun d late => formed d (List.mem_append_right before late)
  have same : Model.after (before ++ rest) = rest.foldl Model.perform (Model.after before) :=
    List.foldl_append
  rw [same]
  exact steps_retain steps

namespace Rota

def roster : Query := ⟨"roster", "staff", "staff", [⟨"half", .literal (.integer 1)⟩], none⟩

def rooms : Table := ⟨none, "rooms", [⟨"id", .integer⟩, ⟨"next_id", .integer⟩]⟩

def oneRoom : Expr :=
  .binary .equals (.column "rooms" "id" (.scalar .integer))
    (.column "roster" "half" (.scalar .integer)) .boolean

-- Four of these fail: a definition over another domain, a domain that is not there, a relation to a
-- domain that is not there yet, and a schema with a key that comes after tables and names no column.
def operations : List Model.Operation :=
  [.register (.new "staff"), .extend "staff" (.mapped "id" "id" .integer),
    .extend "staff" (.selfReference "same" "id" "id"), .reference "staff" "again" "id" "staff" "id",
    .extend "staff" (.calculated "size" (.column "rooms" "size" (.scalar .integer))),
    .reference "staff" "room" "id" "rooms" "id", .register roster.asDomain,
    .relation "rooms" "roster" oneRoom,
    .ingest ⟨[rooms], [⟨"rooms", "rooms", [("next", "id")]⟩]⟩ {},
    .ingest ⟨[rooms], [⟨"rooms", "rooms", [("next_id", "id")]⟩]⟩ {},
    .relation "rooms" "roster" oneRoom]

theorem operations_formed : ∀ d, .register d ∈ operations → Domain.Formed d := by
  intro d member
  simp only [operations, List.mem_cons, reduceCtorEq, Model.Operation.register.injEq, false_or,
    List.not_mem_nil, or_false] at member
  rcases member with rfl | rfl
  · exact .new "staff"
  · exact .query roster

def names (m : Model) : List (String × List String) :=
  m.domains.map fun d => (d.name, d.attributes.map Attribute.name)

theorem operations_retained : (∀ d, .register d ∈ operations → Domain.Formed d) ∧
    names (Model.after operations) =
      [("rooms", ["id", "next", "nextId"]), ("roster", ["half"]), ("staff", ["again", "id", "same"])] ∧
    (Model.after operations).relations.map (fun r => (r.left, r.right)) =
      [("rooms", "rooms"), ("rooms", "roster")] ∧
    names (Model.after (operations.take 9)) = [("roster", ["half"]), ("staff", ["again", "id", "same"])] ∧
    (Model.after operations).Sound ∧ (Model.after operations).Stored ∧
    (Model.after (operations.take 9)).Retains (Model.after operations) := by
  obtain ⟨sound, stored, _, retains, _⟩ := operations_sound operations operations_formed
  exact ⟨operations_formed, by decide +kernel, by decide +kernel, by decide +kernel, sound, stored,
    retains _ (List.take_prefix 9 operations)⟩

end Rota

end SemanticLayer
