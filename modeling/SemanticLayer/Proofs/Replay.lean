import SemanticLayer.Proofs.Staging

namespace SemanticLayer

-- What of a model can be said by names alone. The changes of an ingestion say no more than that.

inductive Slot where
  | value
  | reference (target : String)
  deriving DecidableEq, Repr

structure Sketch where
  name : String
  table : String
  slots : List (String × Slot)
  deriving DecidableEq, Repr

structure Outline where
  domains : List Sketch
  relations : List (String × String)
  deriving DecidableEq, Repr

namespace Outline

def register (o : Outline) (s : Sketch) : Outline :=
  { o with domains := Sorted.insert Sketch.name s o.domains }

def put (o : Outline) (domain name : String) (slot : Slot) : Option Outline := do
  let s ← Sorted.find? Sketch.name domain o.domains
  pure (o.register { s with slots := Sorted.insert Prod.fst (name, slot) s.slots })

-- A change that speaks of a domain that is not there cannot be replayed.
def apply (o : Outline) : Change → Option Outline
  | .addDomain domain table => some (o.register ⟨domain, table, []⟩)
  | .addAttribute domain name => o.put domain name .value
  | .addReference domain name target => o.put domain name (.reference target)
  | .addRelation left right => some { o with relations := o.relations ++ [(left, right)] }

def replay (o : Outline) (changes : List Change) : Option Outline := changes.foldlM apply o

end Outline

def Definition.slot : Definition → Slot
  | .value _ => .value
  | .reference target _ _ => .reference target

def Attribute.entry (member : Attribute) : String × Slot := (member.name, member.definition.slot)

def Domain.sketch (d : Domain) : Sketch := ⟨d.name, d.table, d.attributes.map Attribute.entry⟩

def Model.outline (m : Model) : Outline :=
  ⟨m.domains.map Domain.sketch, m.relations.map fun r => (r.left, r.right)⟩

@[simp] theorem replay_cons (o : Outline) (change : Change) (rest : List Change) :
    o.replay (change :: rest) = (o.apply change).bind (·.replay rest) := rfl

@[simp] theorem replay_append (o : Outline) (first rest : List Change) :
    o.replay (first ++ rest) = (o.replay first).bind (·.replay rest) := by
  unfold Outline.replay
  rw [List.foldlM_append]
  rfl

theorem register_outline (m : Model) (d : Domain) :
    (m.register d).outline = m.outline.register d.sketch := by
  unfold Model.outline Outline.register
  congr 1
  exact insert_map Domain.name Domain.sketch Sketch.name (fun _ => rfl) d m.domains

theorem insert_sketch (d : Domain) (member : Attribute) :
    (d.insert member).sketch =
      { d.sketch with slots := Sorted.insert Prod.fst member.entry d.sketch.slots } := by
  unfold Domain.sketch
  congr 1
  exact insert_map Attribute.name Attribute.entry Prod.fst (fun _ => rfl) member d.attributes

theorem put_outline (member : Attribute) (found : Model.domain? m name = some d) :
    m.outline.put name member.name member.definition.slot =
      some (m.register (d.insert member)).outline := by
  have sketched : Sorted.find? Sketch.name name m.outline.domains = some d.sketch := by
    have read := find_map Domain.name Domain.sketch Sketch.name (fun _ => rfl) name m.domains
    rw [Model.domain?] at found
    rw [found] at read
    exact read
  rw [register_outline, insert_sketch, Outline.put, sketched]
  rfl

theorem register_again (m : Model) (d later : Domain) (same : d.name = later.name) :
    (m.register d).register later = m.register later := by
  unfold Model.register
  rw [insert_again Domain.name same]

theorem columns_replayed (options : IngestOptions) (columns : List Column) (m : Model) (d : Domain) :
    (m.register d).outline.replay
        (columns.map fun c => .addAttribute d.name (options.attributeName c.name)) =
      some (m.register (columns.foldl (fun d c =>
        (d.addMapped (options.attributeName c.name) c.name c.type.scalar).2) d)).outline := by
  induction columns generalizing d with
  | nil => rfl
  | cons c rest ih =>
    have found : (m.register d).domain? d.name = some d := by rw [register_domain, if_pos rfl]
    let member := Attribute.mapped d.name (options.attributeName c.name) c.name (.scalar c.type.scalar)
    have one : (m.register d).outline.apply (.addAttribute d.name (options.attributeName c.name)) =
        some (m.register (d.insert member)).outline := by
      rw [← register_again m d (d.insert member) rfl]
      exact put_outline member found
    rw [List.map_cons, replay_cons, one]
    exact ih (d.insert member)

theorem table_replayed (options : IngestOptions) (t : Table) (m : Model) :
    m.outline.replay (options.changesOf t) = some (m.register (options.domainOf t)).outline := by
  have columns := columns_replayed options t.columns m
    { Domain.new (options.domainName t.name) with table := t.name }
  rw [register_outline] at columns
  exact columns

theorem tables_replayed (options : IngestOptions) (tables : List Table) (m : Model) :
    m.outline.replay (tables.flatMap options.changesOf) =
      some (tables.foldl (fun m t => m.register (options.domainOf t)) m).outline := by
  induction tables generalizing m with
  | nil => rfl
  | cons t rest ih =>
    rw [List.flatMap_cons, replay_append, table_replayed]
    exact ih _

-- The reference is put into the outline first, and then the relation if one is wanted.
theorem key_replayed (o : Outline) (before : o.replay staged.1 = some (Model.outline staged.2))
    (made : stageKey options schema staged key = .ok next) :
    o.replay next.1 = some next.2.outline := by
  rcases stageKey_parts made with rfl | ⟨ends, condition, known, _, rfl⟩
  · exact before
  · let label := key.referenceName options ends.owner ends.aim
    let extended := staged.2.register (ends.owner.insert (ends.reference label condition))
    have referred : o.replay
        (staged.1 ++ [.addReference ends.owner.name label ends.aim.name]) = some extended.outline := by
      rw [replay_append, before, Option.bind_some, replay_cons]
      have put : staged.2.outline.apply (.addReference ends.owner.name label ends.aim.name) = _ :=
        put_outline (ends.reference label condition) known
      rw [put]
      rfl
    let relation : Relation := ⟨ends.owner.name, ends.aim.name, condition⟩
    have related : extended.outline.apply (.addRelation ends.owner.name ends.aim.name) =
        some (Model.outline { extended with relations := extended.relations ++ [relation] }) := by
      simp [Outline.apply, Model.outline, relation]
    unfold KeyEnds.added
    by_cases wanted : options.registerRelations = true
    · rw [if_pos wanted, replay_append, referred, Option.bind_some, replay_cons, related]
      rfl
    · rw [if_neg wanted]
      exact referred

-- The changes lead from the outline of the one model to the outline of the other.
theorem ingest_replayed (ran : Model.ingest model schema options = .ok (changes, next)) :
    model.outline.replay changes = some next.outline :=
  foldlM_keeps (fun staged : Staged => model.outline.replay staged.1 = some staged.2.outline)
    schema.foreignKeys (fun _ _ _ _ before step => key_replayed model.outline before step)
    (tables_replayed options schema.tables model) ran

namespace Kits

-- The model has had domains before, the names of two tables and of two columns become one, and the
-- key of a table to itself finds its name taken.
def model : Model :=
  ⟨[⟨"box", "old", [.mapped "box" "sum" "sum" (.scalar .decimal)]⟩, ⟨"town", "town", []⟩], []⟩

def schema : Schema :=
  ⟨[⟨none, "kit", [⟨"no", .integer⟩]⟩,
      ⟨none, "Kit", [⟨"id", .integer⟩, ⟨"of", .varchar⟩, ⟨"of_id", .integer⟩]⟩,
      ⟨none, "box", [⟨"no", .integer⟩, ⟨"No", .varchar⟩]⟩],
    [⟨"Kit", "Kit", [("of_id", "id")]⟩, ⟨"box", "Kit", [("no", "id")]⟩]⟩

def outline : Outline :=
  ⟨[⟨"box", "box", [("kit", .reference "kit"), ("no", .value)]⟩,
      ⟨"kit", "Kit", [("id", .value), ("of", .value), ("ofId", .value), ("ofRef", .reference "kit")]⟩,
      ⟨"town", "town", []⟩],
    [("kit", "kit"), ("box", "kit")]⟩

theorem schema_replayed : ∃ changes next, model.ingest schema {} = .ok (changes, next) ∧
    next.outline = outline ∧ model.outline.replay changes = some outline := by
  have ran : (do
      let staged ← model.ingest schema {}
      pure staged.2.outline : Except Error Outline) = .ok outline := by decide +kernel
  obtain ⟨⟨changes, next⟩, made, ran⟩ := bind_parts ran
  have reached : next.outline = outline := Except.ok.inj ran
  exact ⟨changes, next, made, reached, reached ▸ ingest_replayed made⟩

end Kits

end SemanticLayer
