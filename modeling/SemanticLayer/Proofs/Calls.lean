import SemanticLayer.Ingest

namespace SemanticLayer

-- The functions that give a new model, as calls that write to one model in place. What a call has
-- written before it fails stays written.

abbrev Call := EStateM Error Model

namespace Call

def asking (answer : Model → Except Error α) : Call α := fun m =>
  match answer m with
  | .ok value => .ok value m
  | .error error => .error error m

def extend (domain : String) (add : Domain → Except Error Domain.Addition) : Call Unit := do
  let d ← asking (·.lookup domain)
  let (_, grown) ← asking fun _ => add d
  modify (·.register grown)

def addReference (domain name column target key : String) : Call Unit := do
  let aim ← asking (·.lookup target)
  let far ← asking fun _ => aim.lookup key
  extend domain (·.link name column aim.name aim.table far)

def addRelation (r : Relation) : Call Unit := do
  let _ ← asking (·.lookup r.left)
  let _ ← asking (·.lookup r.right)
  modify fun m => { m with relations := m.relations ++ [r] }

def relate (left right : String) (condition : Expr) : Call Unit := do
  addRelation (← asking fun _ => Relation.between left right condition)

def addKey (options : IngestOptions) (key : ForeignKey) (ends : KeyEnds) (condition : Expr) :
    Call Unit := do
  let name := key.referenceName options ends.owner ends.aim
  extend ends.owner.name (·.addReferenceOn name ends.aim.name ends.aim.table condition)
  if options.registerRelations then relate ends.owner.name ends.aim.name condition

def stageKey (options : IngestOptions) (schema : Schema) (key : ForeignKey) : Call Unit :=
  match key.pairs, schema.latest? key.source, schema.latest? key.target with
  | first :: rest, some source, some target => do
      let owner ← asking (·.lookup (options.domainName source.name))
      let aim ← asking (·.lookup (options.domainName target.name))
      let ends : KeyEnds := ⟨source, target, owner, aim⟩
      let condition ← asking fun _ => ends.condition options key.isReflexive first rest
      addKey options key ends condition
  | _, _, _ => pure ()

-- Tables and keys are written one by one, so that a key that fails leaves the others behind.
def stage (schema : Schema) (options : IngestOptions) : Call Unit := do
  schema.tables.forM fun t => modify (·.register (options.domainOf t))
  schema.foreignKeys.forM (stageKey options schema)

def onCopy (call : Call Unit) : Call Unit := do
  match call (← get) with
  | .ok _ copy => set copy
  | .error error _ => throw error

inductive Meets : EStateM.Result Error Model Unit → Except Error Model → Prop where
  | ended (next : Model) : Meets (.ok () next) (.ok next)
  | failed (error : Error) (left : Model) : Meets (.error error left) (.error error)

def Harmless (call : Call Unit) : Prop := ∀ m error left, call m = .error error left → left = m

section
variable (answer : Model → Except Error α) {next : α → Call Unit}

theorem asking_ran : (asking answer >>= next) m = match answer m with
    | .ok value => next value m
    | .error error => .error error m := by
  simp only [bind, EStateM.bind, asking]
  cases answer m <;> rfl

theorem asking_meets {rest : α → Except Error Model}
    (meets : ∀ value, Meets (next value m) (rest value)) :
    Meets ((asking answer >>= next) m) (answer m >>= rest) := by
  rw [asking_ran]
  cases answer m with
  | ok value => exact meets value
  | error error => exact .failed error m

theorem asking_harmless (harmless : ∀ value, (next value).Harmless) :
    (asking answer >>= next).Harmless := by
  intro m error left failed
  rw [asking_ran] at failed
  cases told : answer m with
  | ok value =>
    rw [told] at failed
    exact harmless value m error left failed
  | error fault =>
    rw [told] at failed
    cases failed
    rfl

end

theorem then_meets {first next : Call Unit} {result : Except Error α} {read : α → Model}
    {rest : α → Except Error Model} (meets : Meets (first m) (read <$> result))
    (later : ∀ value, Meets (next (read value)) (rest value)) :
    Meets ((first >>= fun _ => next) m) (result >>= rest) := by
  have ran : (first >>= fun _ => next) m = match first m with
      | .ok _ between => next between
      | .error error left => .error error left := by
    simp only [bind, EStateM.bind]
    cases first m <;> rfl
  rw [ran]
  generalize first m = outcome at meets
  cases result with
  | ok value =>
    cases meets
    exact later value
  | error error =>
    cases meets
    exact .failed error _

theorem modify_harmless (change : Model → Model) : Harmless (modify change) := by
  intro m error left failed
  cases failed

theorem extend_meets (m : Model) (domain : String)
    (add : Domain → Except Error Domain.Addition) :
    Meets (extend domain add m) (Prod.snd <$> m.extend domain add) := by
  rw [Model.extend, map_bind]
  apply asking_meets _
  intro d
  rw [map_bind]
  apply asking_meets (fun _ => add d)
  rintro ⟨member, grown⟩
  exact .ended _

theorem addRelation_meets (m : Model) (r : Relation) : Meets (addRelation r m) (m.addRelation r) := by
  apply asking_meets _
  intro left
  apply asking_meets _
  intro right
  exact .ended _

theorem relate_meets (m : Model) (left right : String) (condition : Expr) :
    Meets (relate left right condition m)
      (Relation.between left right condition >>= m.addRelation) := by
  apply asking_meets (fun _ => Relation.between left right condition)
  exact addRelation_meets m

theorem addReference_meets (m : Model) (domain name column target key : String) :
    Meets (addReference domain name column target key m)
      (Prod.snd <$> m.addReference domain name column target key) := by
  rw [Model.addReference, map_bind]
  apply asking_meets _
  intro aim
  rw [map_bind]
  apply asking_meets (fun _ => aim.lookup key)
  intro far
  exact extend_meets m domain _

theorem addKey_meets (options : IngestOptions) (key : ForeignKey) (ends : KeyEnds)
    (condition : Expr) (changes : List Change) (m : Model) :
    Meets (addKey options key ends condition m)
      (Prod.snd <$> SemanticLayer.addKey options (changes, m) key ends condition) := by
  rw [SemanticLayer.addKey, map_bind]
  apply then_meets (extend_meets m ends.owner.name _)
  rintro ⟨member, grown⟩
  dsimp only
  split
  · have related := relate_meets grown ends.owner.name ends.aim.name condition
    simpa [map_bind] using related
  · exact .ended grown

theorem stageKey_meets (options : IngestOptions) (schema : Schema) (key : ForeignKey)
    (changes : List Change) (m : Model) :
    Meets (stageKey options schema key m)
      (Prod.snd <$> SemanticLayer.stageKey options schema (changes, m) key) := by
  unfold stageKey SemanticLayer.stageKey
  rcases key.pairs with - | ⟨first, rest⟩
  · exact .ended m
  rcases schema.latest? key.source with - | source
  · exact .ended m
  rcases schema.latest? key.target with - | target
  · exact .ended m
  rw [map_bind]
  apply asking_meets _
  intro owner
  rw [map_bind]
  apply asking_meets _
  intro aim
  rw [map_bind]
  let ends : KeyEnds := ⟨source, target, owner, aim⟩
  apply asking_meets (fun _ => ends.condition options key.isReflexive first rest)
  intro condition
  exact addKey_meets options key ends condition changes m

theorem keys_meet (options : IngestOptions) (schema : Schema) (keys : List ForeignKey)
    (staged : Staged) : Meets (keys.forM (stageKey options schema) staged.2)
      (Prod.snd <$> keys.foldlM (SemanticLayer.stageKey options schema) staged) := by
  induction keys generalizing staged with
  | nil => exact .ended staged.2
  | cons key rest ih =>
    rw [List.foldlM_cons, map_bind]
    exact then_meets (stageKey_meets options schema key staged.1 staged.2) ih

theorem tables_written (options : IngestOptions) (tables : List Table) (m : Model) :
    tables.forM (fun t => (modify (·.register (options.domainOf t)) : Call Unit)) m =
      .ok () (tables.foldl (fun m t => m.register (options.domainOf t)) m) := by
  induction tables generalizing m with
  | nil => rfl
  | cons t rest ih => exact ih (m.register (options.domainOf t))

theorem stage_meets (m : Model) (schema : Schema) (options : IngestOptions) :
    Meets (stage schema options m) (Prod.snd <$> m.ingest schema options) := by
  have keys := keys_meet options schema schema.foreignKeys
    (schema.tables.flatMap options.changesOf,
      schema.tables.foldl (fun m t => m.register (options.domainOf t)) m)
  have ran : stage schema options m = schema.foreignKeys.forM (stageKey options schema)
      (schema.tables.foldl (fun m t => m.register (options.domainOf t)) m) := by
    simp only [stage, bind, EStateM.bind, tables_written]
  rw [ran]
  exact keys

theorem onCopy_ran (call : Call Unit) (m : Model) : onCopy call m = match call m with
    | .ok _ copy => .ok () copy
    | .error error _ => .error error m := by
  change (match call m with
    | .ok _ copy => (set copy : Call Unit)
    | .error error _ => throw error) m = _
  cases call m <;> rfl

theorem onCopy_meets (meets : Meets (call m) result) : Meets (onCopy call m) result := by
  rw [onCopy_ran]
  generalize call m = outcome at meets
  cases meets with
  | ended next => exact .ended next
  | failed error left => exact .failed error m

theorem onCopy_harmless (call : Call Unit) : (onCopy call).Harmless := by
  intro m error left failed
  rw [onCopy_ran] at failed
  cases ran : call m with
  | ok value copy =>
    rw [ran] at failed
    cases failed
  | error fault copy =>
    rw [ran] at failed
    cases failed
    rfl

-- Without the copy a schema that fails would leave its tables behind.
example :
    let rooms : Table := ⟨none, "rooms", [⟨"id", .integer⟩]⟩
    (match stage ⟨[rooms], [⟨"rooms", "rooms", [("next", "id")]⟩]⟩ {} .empty with
      | .ok _ _ => false
      | .error _ left => left.has "rooms") = true := by
  decide +kernel

theorem extend_harmless (domain : String) (add : Domain → Except Error Domain.Addition) :
    (extend domain add).Harmless :=
  asking_harmless _ fun _ => asking_harmless _ fun _ => modify_harmless _

theorem addReference_harmless (domain name column target key : String) :
    (addReference domain name column target key).Harmless :=
  asking_harmless _ fun aim => asking_harmless _ fun far =>
    extend_harmless domain (·.link name column aim.name aim.table far)

theorem addRelation_harmless (r : Relation) : (addRelation r).Harmless :=
  asking_harmless _ fun _ => asking_harmless _ fun _ => modify_harmless _

theorem relate_harmless (left right : String) (condition : Expr) :
    (relate left right condition).Harmless :=
  asking_harmless _ addRelation_harmless

end Call

end SemanticLayer
