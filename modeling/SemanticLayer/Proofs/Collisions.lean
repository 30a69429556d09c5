import SemanticLayer.Proofs.Staging

namespace SemanticLayer

-- Tables and columns whose names become one. No error tells of them: the last is kept.

structure Domain.Grows (d later : Domain) : Prop where
  table : later.table = d.table
  attributes : ∀ name member, d.attribute? name = some member → later.attribute? name = some member

def Model.Grows (m later : Model) : Prop :=
  ∀ name d, m.domain? name = some d → ∃ grown, later.domain? name = some grown ∧ d.Grows grown

theorem grows_refl (m : Model) : m.Grows m :=
  fun _ d found => ⟨d, found, rfl, fun _ _ held => held⟩

theorem grows_trans (first : Model.Grows m middle) (second : middle.Grows later) :
    m.Grows later := by
  intro name d found
  obtain ⟨grown, present, one⟩ := first name d found
  obtain ⟨last, known, two⟩ := second name grown present
  refine ⟨last, known, two.table.trans one.table, ?_⟩
  intro label member held
  exact two.attributes label member (one.attributes label member held)

theorem insert_grows (d : Domain) (member : Attribute)
    (fresh : member.name ∉ d.attributes.map Attribute.name) : d.Grows (d.insert member) := by
  refine ⟨rfl, ?_⟩
  intro name held inside
  rw [insert_attribute, if_neg]
  · exact inside
  · intro taken
    exact fresh (taken ▸ (attribute_named inside).2)

theorem stageKey_grows (made : stageKey options schema staged key = .ok next) :
    staged.2.Grows next.2 := by
  rcases stageKey_parts made with rfl | ⟨ends, condition, known, _, rfl⟩
  · exact grows_refl _
  · intro name d found
    rw [KeyEnds.added_domain]
    by_cases here : ends.owner.name = name
    · rw [if_pos here]
      rw [here, found] at known
      cases known
      exact ⟨_, rfl, insert_grows ends.owner _ (freeReferenceName_fresh _ _).1⟩
    · rw [if_neg here]
      exact ⟨d, found, rfl, fun _ _ held => held⟩

theorem ingest_grows (ran : Model.ingest model schema options = .ok (changes, next)) :
    (schema.tables.foldl (fun m t => m.register (options.domainOf t)) model).Grows next :=
  foldlM_keeps (fun staged : Staged => Model.Grows _ staged.2) schema.foreignKeys
    (fun _ _ _ _ before step => grows_trans before (stageKey_grows step)) (grows_refl _) ran

def Model.Keeps (options : IngestOptions) (schema : Schema) (model : Model) : Prop :=
  ∀ t ∈ schema.tables, ∃ d, model.domain? (options.domainName t.name) = some d ∧ d.table = t.name ∧
    ∀ c ∈ t.columns, d.attribute? (options.attributeName c.name) = some (options.columnOf t c)

section
variable {options : IngestOptions} {schema : Schema}
  (tables : (schema.tables.map Table.name).Nodup)
  (columns : ∀ t ∈ schema.tables, (t.columns.map Column.name).Nodup)
include tables columns

theorem keeps_separates (kept : Model.Keeps options schema model) : options.Separates schema := by
  constructor
  · refine (List.Nodup.of_map _ tables).map_on ?_
    intro t present other member same
    obtain ⟨d, found, table, _⟩ := kept t present
    obtain ⟨held, known, reads, _⟩ := kept other member
    cases (same ▸ found).symm.trans known
    exact List.inj_on_of_nodup_map tables present member (table.symm.trans reads)
  · intro t present
    refine (List.Nodup.of_map _ (columns t present)).map_on ?_
    intro c column other member same
    obtain ⟨d, _, _, attributes⟩ := kept t present
    have one := attributes c column
    rw [same, attributes other member] at one
    have named : other.name = c.name := by
      simp only [IngestOptions.columnOf, Attribute.mapped] at one
      grind
    exact List.inj_on_of_nodup_map (columns t present) column member named.symm

end

-- A name of the schema stands for the last table that it can stand for, and in the domain of that
-- table for the last column. So nothing is lost exactly if no two names become one.
theorem ingested_kept (tables : (schema.tables.map Table.name).Nodup)
    (columns : ∀ t ∈ schema.tables, (t.columns.map Column.name).Nodup)
    (ran : Model.ingest model schema options = .ok (changes, next)) :
    (next.Keeps options schema ↔ options.Separates schema) ∧
      ∀ t ∈ schema.tables, ∃ last d,
        options.table? schema (options.domainName t.name) = some last ∧
        next.domain? (options.domainName t.name) = some d ∧ d.table = last.name ∧
        ∀ c ∈ last.columns, ∃ latest,
          options.column? last (options.attributeName c.name) = some latest ∧
          d.attribute? (options.attributeName c.name) = some (options.columnOf last latest) := by
  have stands : ∀ t ∈ schema.tables, ∃ last d,
      options.table? schema (options.domainName t.name) = some last ∧
      next.domain? (options.domainName t.name) = some d ∧ d.table = last.name ∧
      ∀ c ∈ last.columns, ∃ latest,
        options.column? last (options.attributeName c.name) = some latest ∧
        d.attribute? (options.attributeName c.name) = some (options.columnOf last latest) := by
    intro t present
    obtain ⟨last, _, _, found⟩ := table_stands options present
    have known := registered_domain options schema model (options.domainName t.name)
    rw [found, Option.map_some, Option.some_or] at known
    obtain ⟨d, held, grows⟩ := ingest_grows ran _ _ known
    refine ⟨last, d, found, held, grows.table.trans (domainOf_parts options last).2.1, ?_⟩
    intro c column
    obtain ⟨latest, _, _, picked⟩ := column_stands options column
    refine ⟨latest, picked, grows.attributes _ _ ?_⟩
    rw [domainOf_attribute, picked, Option.map_some]
  refine ⟨⟨keeps_separates tables columns, ?_⟩, stands⟩
  intro separates t present
  obtain ⟨last, d, named, found, table, attributes⟩ := stands t present
  cases (separated_table separates present).symm.trans named
  refine ⟨d, found, table, ?_⟩
  intro c column
  obtain ⟨latest, picked, held⟩ := attributes c column
  cases (separated_column separates present column).symm.trans picked
  exact held

namespace Baskets

-- The key means the first of the two tables.
def schema : Schema :=
  ⟨[⟨none, "order_items", [⟨"id", .integer⟩]⟩, ⟨none, "orderItems", [⟨"id", .integer⟩]⟩,
      ⟨none, "orders", [⟨"item_id", .integer⟩]⟩],
    [⟨"orders", "order_items", [("item_id", "id")]⟩]⟩

def options : IngestOptions := {}

theorem schema_tables : (schema.tables.map Table.name).Nodup := by
  decide +kernel

theorem schema_columns : ∀ t ∈ schema.tables, (t.columns.map Column.name).Nodup := by
  decide +kernel

theorem schema_made : ∃ changes next, Model.empty.ingest schema options = .ok (changes, next) ∧
    next.domains.map Domain.table = ["orderItems", "orders"] := by
  have ran : (do
      let staged ← Model.empty.ingest schema options
      pure (staged.2.domains.map Domain.table) : Except Error (List String)) =
        .ok ["orderItems", "orders"] := by decide +kernel
  obtain ⟨⟨changes, next⟩, made, ran⟩ := bind_parts ran
  exact ⟨changes, next, made, Except.ok.inj ran⟩

theorem schema_not_kept : (schema.tables.map Table.name).Nodup ∧
    (∀ t ∈ schema.tables, (t.columns.map Column.name).Nodup) ∧
    ∃ changes next, Model.empty.ingest schema options = .ok (changes, next) ∧
      ¬ next.Keeps options schema := by
  obtain ⟨changes, next, made, _⟩ := schema_made
  refine ⟨schema_tables, schema_columns, changes, next, made, ?_⟩
  intro kept
  have separates := (ingested_kept schema_tables schema_columns made).1.mp kept
  exact absurd separates.tables (by decide +kernel)

theorem order_items_lost : ¬ ∀ schema options, (schema.tables.map Table.name).Nodup →
    (∀ t ∈ schema.tables, (t.columns.map Column.name).Nodup) →
    ∀ changes next, Model.empty.ingest schema options = .ok (changes, next) →
      ∀ t ∈ schema.tables, ∃ d ∈ next.domains, d.table = t.name := by
  intro always
  obtain ⟨changes, next, made, tables⟩ := schema_made
  obtain ⟨d, present, same⟩ := always schema options schema_tables schema_columns changes next made
    ⟨none, "order_items", [⟨"id", .integer⟩]⟩ List.mem_cons_self
  have listed : d.table ∈ next.domains.map Domain.table := List.mem_map_of_mem present
  rw [tables, same] at listed
  simp at listed

end Baskets

end SemanticLayer
