import SemanticLayer.Proofs.KeyConditions

namespace SemanticLayer

section
variable (options : IngestOptions) (schema : Schema)

def ForeignKey.Joins (key : ForeignKey) (condition : Expr) : Prop :=
  ∃ source ∈ schema.tables, ∃ target ∈ schema.tables, source.name = key.source ∧
    target.name = key.target ∧ key.Compares options source target key.pairs condition

def ForeignKey.Becomes (key : ForeignKey) (member : Attribute) : Prop :=
  ∃ label condition, key.Joins options schema condition ∧
    member = ⟨options.domainName key.source, label,
      .reference (options.domainName key.target) key.target condition⟩

def ForeignKey.Relates (key : ForeignKey) (r : Relation) : Prop :=
  ∃ condition, key.Joins options schema condition ∧
    r = ⟨options.domainName key.source, options.domainName key.target, condition⟩

-- A domain has one attribute for each column of its table and one reference for each key of the
-- table that is not passed over, and nothing else. No two of them share a name.
structure Domain.Renders (t : Table) (keys : List ForeignKey) (d : Domain) : Prop where
  table : d.table = t.name
  attributes : ∃ references, d.attributes.Perm (t.columns.map (options.columnOf t) ++ references) ∧
    List.Forall₂ (ForeignKey.Becomes options schema)
      (keys.filter fun key => key.Stands schema ∧ key.source = t.name) references
  distinct : (d.attributes.map Attribute.name).Nodup

structure Model.Renders (next start : Model) (keys : List ForeignKey) : Prop where
  tables : ∀ t ∈ schema.tables, ∃ d,
    next.domain? (options.domainName t.name) = some d ∧ d.Renders options schema t keys
  others : ∀ name ∉ schema.tables.map fun t => options.domainName t.name,
    next.domain? name = start.domain? name
  relations : ∃ added, next.relations = start.relations ++ added ∧
    List.Forall₂ (ForeignKey.Relates options schema)
      (if options.registerRelations then keys.filter (·.Stands schema) else []) added

end

theorem renders_shows (renders : Domain.Renders options schema t keys d) : d.Shows options t := by
  obtain ⟨references, same, _⟩ := renders.attributes
  intro c column
  have listed : options.columnOf t c ∈ d.attributes :=
    same.mem_iff.mpr (List.mem_append_left _ (List.mem_map_of_mem column))
  exact find_distinct Attribute.name renders.distinct listed

theorem domainOf_renders (separates : IngestOptions.Separates options schema)
    (present : t ∈ schema.tables) : (options.domainOf t).Renders options schema t [] := by
  have same : (options.domainOf t).attributes.Perm (t.columns.map (options.columnOf t) ++ []) := by
    rw [domainOf_inserted, List.append_nil]
    exact inserts_fresh Attribute.name (options.columnOf t) t.columns [] (separates.columns t present)
  refine ⟨(domainOf_parts options t).2.1, ⟨[], same, .nil⟩, ?_⟩
  rw [(same.map Attribute.name).nodup_iff, List.append_nil, List.map_map]
  exact separates.columns t present

theorem tables_rendered (separates : IngestOptions.Separates options schema) (model : Model) :
    (schema.tables.foldl (fun m t => m.register (options.domainOf t)) model).Renders options schema
      model [] := by
  constructor
  · intro t present
    exact ⟨_, registered_found options schema.tables model separates.tables present,
      domainOf_renders separates present⟩
  · intro name absent
    exact registered_kept options schema.tables model absent
  · refine ⟨[], ?_, ?_⟩
    · rw [tables_inserted, List.append_nil]
    · split <;> exact .nil

theorem idle_renders (renders : Model.Renders options schema next start keys)
    (idle : ¬ ForeignKey.Stands key schema) :
    next.Renders options schema start (keys ++ [key]) := by
  constructor
  · intro t present
    obtain ⟨d, found, table, attributes, distinct⟩ := renders.tables t present
    refine ⟨d, found, table, ?_, distinct⟩
    simpa [List.filter_append, idle] using attributes
  · exact renders.others
  · simpa [List.filter_append, idle] using renders.relations

theorem reference_renders (renders : Domain.Renders options schema t keys d)
    (stands : ForeignKey.Stands key schema) (named : key.source = t.name)
    (becomes : key.Becomes options schema member)
    (fresh : member.name ∉ d.attributes.map Attribute.name) :
    (d.insert member).Renders options schema t (keys ++ [key]) := by
  obtain ⟨table, ⟨references, same, all⟩, distinct⟩ := renders
  have inserted : (d.insert member).attributes.Perm (member :: d.attributes) :=
    insert_fresh Attribute.name member d.attributes fresh
  refine ⟨table, ⟨references ++ [member], ?_, ?_⟩, ?_⟩
  · rw [← List.append_assoc]
    exact (inserted.trans (same.cons member)).trans (List.perm_append_singleton member _).symm
  · have kept : [key].filter (fun key => key.Stands schema ∧ key.source = t.name) = [key] := by
      simp [stands, named]
    rw [List.filter_append, kept]
    exact List.rel_append all (.cons becomes .nil)
  · rw [(inserted.map Attribute.name).nodup_iff]
    exact List.nodup_cons.mpr ⟨fresh, distinct⟩

theorem other_renders (renders : Domain.Renders options schema t keys d)
    (elsewhere : ForeignKey.source key ≠ t.name) : d.Renders options schema t (keys ++ [key]) := by
  refine ⟨renders.table, ?_, renders.distinct⟩
  simpa [List.filter_append, elsewhere] using renders.attributes

theorem latest_found (separates : IngestOptions.Separates options schema)
    (present : t ∈ schema.tables) : schema.latest? t.name = some t := by
  have distinct : (schema.tables.map Table.name).Nodup := by
    refine List.Nodup.of_map options.domainName ?_
    rw [List.map_map]
    exact separates.tables
  refine find_distinct Table.name ?_ (List.mem_reverse.mpr present)
  rwa [List.map_reverse, List.nodup_reverse]

section
variable {options : IngestOptions} {schema : Schema} {ends : KeyEnds} {key : ForeignKey}
  {staged : Staged} (renders : Model.Renders options schema staged.2 start keys)
  (target : ends.target ∈ schema.tables) (named : ends.source.name = key.source)
  (aimed : ends.target.name = key.target)
  (known : staged.2.domain? (options.domainName ends.source.name) = some ends.owner)
  (reached : staged.2.domain? (options.domainName ends.target.name) = some ends.aim)
include renders target named aimed known reached

theorem reference_becomes (label : String) (joins : key.Joins options schema condition) :
    key.Becomes options schema (ends.reference label condition) := by
  obtain ⟨d, found, rendered⟩ := renders.tables ends.target target
  cases found.symm.trans reached
  refine ⟨label, condition, joins, ?_⟩
  unfold KeyEnds.reference
  rw [domain_named known, domain_named reached, rendered.table, named, aimed]

variable (separates : options.Separates schema) (source : ends.source ∈ schema.tables)
include separates source

theorem added_renders (stands : key.Stands schema) (joins : key.Joins options schema condition) :
    (ends.added options (key.referenceName options ends.owner ends.aim) condition staged).2.Renders
      options schema start (keys ++ [key]) := by
  constructor
  · intro t present
    rw [KeyEnds.added_domain, domain_named known]
    obtain ⟨d, found, rendered⟩ := renders.tables t present
    by_cases here : options.domainName ends.source.name = options.domainName t.name
    · have same : ends.source = t := List.inj_on_of_nodup_map separates.tables source present here
      have becomes := reference_becomes renders target named aimed known reached
        (key.referenceName options ends.owner ends.aim) joins
      rw [if_pos here]
      rw [here, found] at known
      cases known
      exact ⟨_, rfl, reference_renders rendered stands (by rw [← named, same]) becomes
        (freeReferenceName_fresh _ _).1⟩
    · rw [if_neg here]
      refine ⟨d, found, other_renders rendered ?_⟩
      intro same
      exact here (congrArg options.domainName (named.trans same))
  · intro name absent
    rw [KeyEnds.added_domain, domain_named known, if_neg]
    · exact renders.others name absent
    · intro same
      exact absent (same ▸ List.mem_map_of_mem source)
  · obtain ⟨added, same, all⟩ := renders.relations
    unfold KeyEnds.added
    by_cases wanted : options.registerRelations = true
    · rw [if_pos wanted] at all ⊢
      refine ⟨added ++ [⟨ends.owner.name, ends.aim.name, condition⟩], ?_, ?_⟩
      · rw [← List.append_assoc, ← same]
        rfl
      · have kept : [key].filter (·.Stands schema) = [key] := by simp [stands]
        rw [if_pos wanted, List.filter_append, kept]
        refine List.rel_append all (.cons ⟨condition, joins, ?_⟩ .nil)
        rw [domain_named known, domain_named reached, named, aimed]
    · rw [if_neg wanted] at all ⊢
      rw [if_neg wanted]
      exact ⟨added, same, all⟩

end

-- A key that stands has both its domains in the model; only its columns may be missing.
theorem stageKey_decides (separates : IngestOptions.Separates options schema)
    (renders : Model.Renders options schema staged.2 start keys) (key : ForeignKey) :
    Decides (if key.Stands schema then key.missing schema else [])
      (fun next : Staged => next.2.Renders options schema start (keys ++ [key]))
      (stageKey options schema staged key) := by
  by_cases stands : key.Stands schema
  · obtain ⟨written, ⟨source, present, named⟩, target, within, aimed⟩ := id stands
    obtain ⟨owner, known, near⟩ := renders.tables source present
    obtain ⟨aim, reached, far⟩ := renders.tables target within
    let ends : KeyEnds := ⟨source, target, owner, aim⟩
    obtain ⟨first, rest, pairs⟩ := List.exists_cons_of_ne_nil written
    have staging : stageKey options schema staged key =
        ends.condition options key.isReflexive first rest >>= addKey options staged key ends := by
      unfold stageKey
      rw [pairs, ← named, ← aimed, latest_found separates present, latest_found separates within]
      dsimp only
      rw [lookup_found known, ok_bind rfl, lookup_found reached, ok_bind rfl]
    rw [if_pos stands, staging]
    refine decides_then (condition_decides separates present within named aimed
      (renders_shows near) (renders_shows far) pairs) ?_
    intro condition compares
    have joins : key.Joins options schema condition :=
      ⟨source, present, target, within, named, aimed, compares⟩
    have checked : checkJoin owner.name aim.name condition = .ok () := by
      rw [domain_named known, domain_named reached]
      exact compares_checked compares
    refine ⟨_, addKey_added options key ends staged ?_ ?_ checked,
      added_renders renders within named aimed known reached separates present stands joins⟩
    · rw [domain_named known]
      exact known
    · rw [domain_named reached]
      exact reached
  · have idle : stageKey options schema staged key = .ok staged := by
      unfold stageKey
      split
      · rename_i pairs foundSource foundTarget
        have written : key.pairs ≠ [] := by simp [pairs]
        exact absurd ⟨written, ⟨_, latest_parts foundSource⟩, _, latest_parts foundTarget⟩ stands
      · rfl
    rw [if_neg stands, idle]
    exact ⟨rfl, idle_renders renders stands⟩

theorem ingest_decides (separates : IngestOptions.Separates options schema) (model : Model) :
    Decides schema.unknown
      (fun staged : Staged => staged.2.Renders options schema model schema.foreignKeys)
      (model.ingest schema options) :=
  decides_fold _ (fun keys (staged : Staged) => staged.2.Renders options schema model keys)
    schema.foreignKeys (fun key _ _ _ renders => stageKey_decides separates renders key) [] _
    (tables_rendered separates model)

theorem unknown_nil (schema : Schema) : schema.unknown = [] ↔ ∀ key ∈ schema.foreignKeys,
    key.Stands schema → ∀ pair ∈ key.pairs,
      schema.HasColumn key.source pair.1 ∧ schema.HasColumn key.target pair.2 := by
  simp [Schema.unknown, ForeignKey.missing, Schema.missing]

-- A schema whose names stay apart is taken in exactly if its keys name columns that are there, and
-- otherwise the first column that is not there is told.
theorem ingest_rendered (separates : IngestOptions.Separates options schema) (model : Model) :
    ((∃ staged, model.ingest schema options = .ok staged) ↔
      ∀ key ∈ schema.foreignKeys, key.Stands schema → ∀ pair ∈ key.pairs,
        schema.HasColumn key.source pair.1 ∧ schema.HasColumn key.target pair.2) ∧
      (∀ error, model.ingest schema options = .error error → ∃ named,
        schema.unknown.head? = some named ∧ error = .unknownColumn named.1 named.2) ∧
      ∀ changes next, model.ingest schema options = .ok (changes, next) →
        next.Renders options schema model schema.foreignKeys := by
  have decided := ingest_decides separates model
  rw [← unknown_nil]
  cases ran : model.ingest schema options with
  | ok staged =>
    rw [ran] at decided
    obtain ⟨nothing, renders⟩ := decided
    refine ⟨⟨fun _ => nothing, fun _ => ⟨staged, rfl⟩⟩, by simp, ?_⟩
    rintro changes next ⟨⟩
    exact renders
  | error error =>
    rw [ran] at decided
    obtain ⟨named, head, same⟩ := decided
    refine ⟨⟨by simp, ?_⟩, ?_, by simp⟩
    · intro nothing
      rw [nothing] at head
      cases head
    · rintro _ ⟨⟩
      exact ⟨named, head, same⟩

namespace Guilds

def options : IngestOptions := ⟨.preserve, .preserve, true⟩

def model : Model := ⟨[⟨"members", "old_members", []⟩, ⟨"towns", "towns", []⟩], []⟩

-- A key of two pairs, a key of a table to itself, and two keys that are passed over.
def schema : Schema :=
  ⟨[⟨none, "guilds", [⟨"id", .integer⟩, ⟨"town", .varchar⟩]⟩,
      ⟨none, "members", [⟨"id", .integer⟩, ⟨"guild", .integer⟩, ⟨"town", .varchar⟩,
        ⟨"mentor_id", .integer⟩]⟩],
    [⟨"members", "guilds", [("guild", "id"), ("town", "town")]⟩,
      ⟨"members", "members", [("mentor_id", "id")]⟩, ⟨"members", "guilds", []⟩,
      ⟨"members", "towns", [("town", "name")]⟩]⟩

def broken : Schema :=
  ⟨schema.tables, schema.foreignKeys ++ [⟨"members", "guilds", [("guild", "number"), ("rank", "id")]⟩]⟩

theorem schema_separates : options.Separates schema :=
  ⟨by decide +kernel, by decide +kernel⟩

theorem schema_rendered : options.Separates schema ∧ options.Separates broken ∧
    (∃ changes next, model.ingest schema options = .ok (changes, next) ∧
      next.Renders options schema model schema.foreignKeys) ∧
    model.ingest broken options = .error (.unknownColumn "guilds" "number") := by
  have separates : options.Separates broken :=
    ⟨schema_separates.tables, schema_separates.columns⟩
  obtain ⟨taken, _, renders⟩ := ingest_rendered schema_separates model
  obtain ⟨refused, told, _⟩ := ingest_rendered separates model
  refine ⟨schema_separates, separates, ?_, ?_⟩
  · obtain ⟨⟨changes, next⟩, made⟩ := taken.mpr (by decide +kernel)
    exact ⟨changes, next, made, renders changes next made⟩
  · cases ran : model.ingest broken options with
    | ok staged => exact absurd (refused.mp ⟨staged, ran⟩) (by decide +kernel)
    | error error =>
      obtain ⟨named, head, same⟩ := told error ran
      have first : broken.unknown.head? = some ("guilds", "number") := by decide +kernel
      rw [first] at head
      cases head
      rw [same]

end Guilds

end SemanticLayer
