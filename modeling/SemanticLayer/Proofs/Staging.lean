import SemanticLayer.Proofs.Ingestion
import SemanticLayer.Proofs.Outcomes

namespace SemanticLayer

-- What one table and what one key do to a model, as equations: nothing is said yet about names
-- that meet.

namespace IngestOptions

def columnOf (options : IngestOptions) (t : Table) (c : Column) : Attribute :=
  .mapped (options.domainName t.name) (options.attributeName c.name) c.name (.scalar c.type.scalar)

def table? (options : IngestOptions) (s : Schema) (domain : String) : Option Table :=
  s.tables.reverse.find? fun t => options.domainName t.name == domain

def column? (options : IngestOptions) (t : Table) (label : String) : Option Column :=
  t.columns.reverse.find? fun c => options.attributeName c.name == label

end IngestOptions

theorem columns_inserted (options : IngestOptions) (t : Table) (columns : List Column) (d : Domain)
    (named : d.name = options.domainName t.name) :
    columns.foldl (fun d c => (d.addMapped (options.attributeName c.name) c.name c.type.scalar).2) d =
      ⟨d.name, d.table, columns.foldl
        (fun l c => Sorted.insert Attribute.name (options.columnOf t c) l) d.attributes⟩ := by
  induction columns generalizing d with
  | nil => rfl
  | cons c rest ih =>
    have one : (d.addMapped (options.attributeName c.name) c.name c.type.scalar).2 =
        d.insert (options.columnOf t c) := by
      rw [IngestOptions.columnOf, ← named]
      rfl
    rw [List.foldl_cons, one, ih _ (by exact named)]
    rfl

theorem domainOf_inserted (options : IngestOptions) (t : Table) :
    options.domainOf t = ⟨options.domainName t.name, t.name, t.columns.foldl
      (fun l c => Sorted.insert Attribute.name (options.columnOf t c) l) []⟩ :=
  columns_inserted options t t.columns _ rfl

theorem domainOf_attribute (options : IngestOptions) (t : Table) (name : String) :
    (options.domainOf t).attribute? name = (options.column? t name).map (options.columnOf t) := by
  rw [Domain.attribute?, domainOf_inserted, find_inserts]
  exact Option.or_none

theorem tables_inserted (options : IngestOptions) (tables : List Table) (model : Model) :
    tables.foldl (fun m t => m.register (options.domainOf t)) model =
      ⟨tables.foldl (fun l t => Sorted.insert Domain.name (options.domainOf t) l) model.domains,
        model.relations⟩ := by
  induction tables generalizing model with
  | nil => rfl
  | cons t rest ih => exact ih (model.register (options.domainOf t))

theorem registered_domain (options : IngestOptions) (s : Schema) (model : Model) (name : String) :
    (s.tables.foldl (fun m t => m.register (options.domainOf t)) model).domain? name =
      ((options.table? s name).map options.domainOf).or (model.domain? name) := by
  rw [tables_inserted, Model.domain?, find_inserts]
  simp only [(domainOf_parts options _).1]
  rfl

structure IngestOptions.Separates (options : IngestOptions) (schema : Schema) : Prop where
  tables : (schema.tables.map fun t => options.domainName t.name).Nodup
  columns : ∀ t ∈ schema.tables, (t.columns.map fun c => options.attributeName c.name).Nodup

theorem table_stands (options : IngestOptions) (present : t ∈ Schema.tables schema) :
    ∃ last ∈ schema.tables, options.domainName last.name = options.domainName t.name ∧
      options.table? schema (options.domainName t.name) = some last := by
  obtain ⟨last, member, same, found⟩ := find_present (fun t : Table => options.domainName t.name)
    (List.mem_reverse.mpr present)
  exact ⟨last, List.mem_reverse.mp member, same, found⟩

theorem column_stands (options : IngestOptions) (present : c ∈ Table.columns t) :
    ∃ last ∈ t.columns, options.attributeName last.name = options.attributeName c.name ∧
      options.column? t (options.attributeName c.name) = some last := by
  obtain ⟨last, member, same, found⟩ := find_present
    (fun c : Column => options.attributeName c.name) (List.mem_reverse.mpr present)
  exact ⟨last, List.mem_reverse.mp member, same, found⟩

theorem separated_table (separates : IngestOptions.Separates options schema)
    (present : t ∈ schema.tables) : options.table? schema (options.domainName t.name) = some t := by
  obtain ⟨last, member, same, found⟩ := table_stands options present
  cases List.inj_on_of_nodup_map separates.tables member present same
  exact found

theorem separated_column (separates : IngestOptions.Separates options schema)
    (present : t ∈ schema.tables) (column : c ∈ t.columns) :
    options.column? t (options.attributeName c.name) = some c := by
  obtain ⟨last, member, same, found⟩ := column_stands options column
  cases List.inj_on_of_nodup_map (separates.columns t present) member column same
  exact found

namespace KeyEnds

def reference (ends : KeyEnds) (label : String) (condition : Expr) : Attribute :=
  ⟨ends.owner.name, label, .reference ends.aim.name ends.aim.table condition⟩

def added (options : IngestOptions) (ends : KeyEnds) (label : String) (condition : Expr)
    (staged : Staged) : Staged :=
  let extended := staged.2.register (ends.owner.insert (ends.reference label condition))
  let changes := staged.1 ++ [.addReference ends.owner.name label ends.aim.name]
  if options.registerRelations then
    (changes ++ [.addRelation ends.owner.name ends.aim.name],
      { extended with
        relations := extended.relations ++ [⟨ends.owner.name, ends.aim.name, condition⟩] })
  else (changes, extended)

theorem added_domain (options : IngestOptions) (ends : KeyEnds) (label : String) (condition : Expr)
    (staged : Staged) (name : String) :
    (ends.added options label condition staged).2.domain? name =
      if ends.owner.name = name then some (ends.owner.insert (ends.reference label condition))
      else staged.2.domain? name := by
  have registered := register_domain staged.2
    (ends.owner.insert (ends.reference label condition)) name
  unfold added
  split <;> exact registered

end KeyEnds

theorem lookup_found (found : Model.domain? m name = some d) : m.lookup name = .ok d := by
  rw [Model.lookup, found]

theorem register_keeps (d : Domain) (found : Model.domain? m name = some old) :
    ∃ held, (m.register d).lookup name = .ok held := by
  by_cases same : d.name = name
  · exact ⟨d, lookup_found (by rw [register_domain, if_pos same])⟩
  · exact ⟨old, lookup_found (by rw [register_domain, if_neg same, found])⟩

theorem addRelation_made (left : Model.lookup m r.left = .ok d) (right : m.lookup r.right = .ok e) :
    m.addRelation r = .ok { m with relations := m.relations ++ [r] } := by
  rw [Model.addRelation, left, right]
  rfl

theorem addKey_added (options : IngestOptions) (key : ForeignKey) (ends : KeyEnds) (staged : Staged)
    (known : staged.2.domain? ends.owner.name = some ends.owner)
    (reached : staged.2.domain? ends.aim.name = some ends.aim)
    (checked : checkJoin ends.owner.name ends.aim.name condition = .ok ()) :
    addKey options staged key ends condition =
      .ok (ends.added options (key.referenceName options ends.owner ends.aim) condition staged) := by
  obtain ⟨changes, model⟩ := staged
  dsimp only at known reached
  let member := ends.reference (key.referenceName options ends.owner ends.aim) condition
  have extended : model.extend ends.owner.name (·.addReferenceOn
      (key.referenceName options ends.owner ends.aim) ends.aim.name ends.aim.table condition) =
      .ok (member, model.register (ends.owner.insert member)) := by
    rw [Model.extend, lookup_found known, ok_bind rfl, Domain.addReferenceOn, Attribute.reference,
      checked]
    rfl
  rw [addKey, ok_bind extended, KeyEnds.added]
  by_cases wanted : options.registerRelations = true
  · have between : Relation.between ends.owner.name ends.aim.name condition =
        .ok ⟨ends.owner.name, ends.aim.name, condition⟩ := by
      rw [Relation.between, checked]
      rfl
    obtain ⟨_, left⟩ := register_keeps (ends.owner.insert member) known
    obtain ⟨_, right⟩ := register_keeps (ends.owner.insert member) reached
    have related : Model.addRelation _ ⟨ends.owner.name, ends.aim.name, condition⟩ = _ :=
      addRelation_made left right
    dsimp only
    rw [if_pos wanted, if_pos wanted, ok_bind between, ok_bind related]
    rfl
  · dsimp only
    rw [if_neg wanted, if_neg wanted]
    rfl

theorem addKey_checked (made : addKey options staged key ends condition = .ok next) :
    checkJoin ends.owner.name ends.aim.name condition = .ok () := by
  obtain ⟨⟨_, _⟩, extended, _⟩ := bind_parts made
  obtain ⟨d, _, found, added, _⟩ := extend_parts extended
  obtain ⟨_, referred, _⟩ := bind_parts added
  have checked := (reference_parts referred).1
  rwa [domain_named found] at checked

theorem stageKey_parts (made : stageKey options schema staged key = .ok next) :
    next = staged ∨ ∃ (ends : KeyEnds) (condition : Expr),
      staged.2.domain? ends.owner.name = some ends.owner ∧
      staged.2.domain? ends.aim.name = some ends.aim ∧
      next = ends.added options (key.referenceName options ends.owner ends.aim) condition staged := by
  unfold stageKey at made
  split at made
  · rename_i first rest source target _ _ _
    obtain ⟨owner, found, made⟩ := bind_parts made
    obtain ⟨aim, foundAim, made⟩ := bind_parts made
    obtain ⟨condition, _, made⟩ := bind_parts made
    have known := domain_lookup found
    have reached := domain_lookup foundAim
    rw [← domain_named known] at known
    rw [← domain_named reached] at reached
    let ends : KeyEnds := ⟨source, target, owner, aim⟩
    have checked : checkJoin ends.owner.name ends.aim.name condition = .ok () :=
      addKey_checked made
    refine .inr ⟨ends, condition, known, reached, ?_⟩
    exact Except.ok.inj (made.symm.trans (addKey_added options key ends staged known reached checked))
  · exact .inl (Except.ok.inj made).symm

end SemanticLayer
