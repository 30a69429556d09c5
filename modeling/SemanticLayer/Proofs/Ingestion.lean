import SemanticLayer.Proofs.Formation
import SemanticLayer.Proofs.Keys

namespace SemanticLayer

theorem freeReferenceName_fresh (taken : List String) (name : String) :
    freeReferenceName taken name ∉ taken ∧
      name.length ≤ (freeReferenceName taken name).length := by
  fun_induction freeReferenceName taken name with
  | case1 taken name present ih =>
    obtain ⟨fresh, longer⟩ := ih
    rw [String.length_append] at longer
    have three : "Ref".length = 3 := rfl
    refine ⟨?_, by omega⟩
    intro member
    have other : freeReferenceName (taken.erase name) (name ++ "Ref") ≠ name := fun same => by
      rw [same] at longer
      omega
    exact fresh ((List.mem_erase_of_ne other).mpr member)
  | case2 taken name absent => exact ⟨absent, Nat.le_refl _⟩

def HoldsColumns (options : IngestOptions) (d : Domain) (t : Table) : Prop :=
  ∀ c ∈ t.columns, ∃ member,
    d.attribute? (options.attributeName c.name) = some member ∧ member.Mapped d.name

structure Domain.Maps (d : Domain) (names : List String) : Prop where
  mapped : ∀ name member, d.attribute? name = some member → member.Mapped d.name
  present : ∀ name ∈ names, ∃ member, d.attribute? name = some member

theorem addMapped_maps (maps : Domain.Maps d names) (name column : String) (type : ScalarType) :
    (d.addMapped name column type).2.Maps (names ++ [name]) := by
  have added : ∀ other, (d.addMapped name column type).2.attribute? other =
      if name = other then some (.mapped d.name name column (.scalar type)) else d.attribute? other :=
    fun other => insert_attribute d (.mapped d.name name column (.scalar type)) other
  constructor
  · intro other member found
    rw [added] at found
    split at found
    · cases found
      exact ⟨name, column, .scalar type, rfl⟩
    · exact maps.mapped other member found
  · intro other member
    rw [added]
    split
    · exact ⟨_, rfl⟩
    · rename_i apart
      rcases List.mem_append.mp member with old | new
      · exact maps.present other old
      · exact absurd (List.mem_singleton.mp new).symm apart

theorem columns_map (options : IngestOptions) (columns : List Column)
    (maps : Domain.Maps d names) :
    let last := columns.foldl
      (fun d c => (d.addMapped (options.attributeName c.name) c.name c.type.scalar).2) d
    last.name = d.name ∧ last.table = d.table ∧
      last.Maps (names ++ columns.map fun c => options.attributeName c.name) := by
  induction columns generalizing d names with
  | nil => exact ⟨rfl, rfl, by simpa using maps⟩
  | cons c rest ih =>
    have one := addMapped_maps maps (options.attributeName c.name) c.name c.type.scalar
    obtain ⟨name, table, all⟩ := ih one
    refine ⟨name, table, ?_⟩
    rw [List.append_assoc] at all
    exact all

theorem domainOf_parts (options : IngestOptions) (t : Table) :
    (options.domainOf t).name = options.domainName t.name ∧ (options.domainOf t).table = t.name ∧
      (options.domainOf t).Maps (t.columns.map fun c => options.attributeName c.name) := by
  have empty : Domain.Maps { Domain.new (options.domainName t.name) with table := t.name } [] :=
    ⟨by simp [Domain.attribute?, Sorted.find?, Domain.new], by simp⟩
  exact columns_map options t.columns empty

theorem registered_kept (options : IngestOptions) (tables : List Table) (model : Model)
    (absent : name ∉ tables.map fun t => options.domainName t.name) :
    (tables.foldl (fun m t => m.register (options.domainOf t)) model).domain? name =
      model.domain? name := by
  induction tables generalizing model with
  | nil => rfl
  | cons t rest ih =>
    rw [List.map_cons, List.mem_cons, not_or] at absent
    rw [List.foldl_cons, ih _ absent.2, register_domain, (domainOf_parts options t).1,
      if_neg (Ne.symm absent.1)]

theorem registered_found (options : IngestOptions) (tables : List Table) (model : Model)
    (distinct : (tables.map fun t => options.domainName t.name).Nodup) (member : t ∈ tables) :
    (tables.foldl (fun m t => m.register (options.domainOf t)) model).domain?
      (options.domainName t.name) = some (options.domainOf t) := by
  induction tables generalizing model with
  | nil => cases member
  | cons first rest ih =>
    obtain ⟨absent, distinct⟩ := List.nodup_cons.mp distinct
    rw [List.foldl_cons]
    rcases List.mem_cons.mp member with rfl | later
    · rw [registered_kept options rest _ absent, register_domain, (domainOf_parts options t).1,
        if_pos rfl]
    · exact ih _ distinct later

theorem registered_cases (options : IngestOptions) (tables : List Table) (model : Model)
    (found : (tables.foldl (fun m t => m.register (options.domainOf t)) model).domain? name =
      some d) : (∃ t ∈ tables, d = options.domainOf t) ∨ model.domain? name = some d := by
  induction tables generalizing model with
  | nil => exact .inr found
  | cons first rest ih =>
    rcases ih _ found with ⟨t, later, same⟩ | before
    · exact .inl ⟨t, List.mem_cons_of_mem first later, same⟩
    · rw [register_domain] at before
      split at before
      · exact .inl ⟨first, List.mem_cons_self, (Option.some.inj before).symm⟩
      · exact .inr before

-- A reference is known to have been made for a key, but not for which one.
structure Model.Ingested (options : IngestOptions) (schema : Schema) (model : Model) : Prop where
  attributes : ∀ name d, model.domain? name = some d →
    ∀ label member, d.attribute? label = some member → member.Ingested d.name
  columns : ∀ t ∈ schema.tables, ∃ d, model.domain? (options.domainName t.name) = some d ∧
    HoldsColumns options d t

theorem tables_ingested (options : IngestOptions) (schema : Schema)
    (distinct : (schema.tables.map fun t => options.domainName t.name).Nodup) :
    (schema.tables.foldl (fun m t => m.register (options.domainOf t)) Model.empty).Ingested
      options schema := by
  constructor
  · intro name d found label member inside
    rcases registered_cases options schema.tables .empty found with ⟨t, _, rfl⟩ | nothing
    · exact .column ((domainOf_parts options t).2.2.mapped label member inside)
    · cases nothing
  · intro t present
    refine ⟨options.domainOf t, registered_found options schema.tables .empty distinct present, ?_⟩
    intro c column
    have maps := (domainOf_parts options t).2.2
    obtain ⟨member, found⟩ := maps.present _ (List.mem_map_of_mem column)
    exact ⟨member, found, maps.mapped _ member found⟩

theorem latest_parts (found : Schema.latest? s name = some t) : t ∈ s.tables ∧ t.name = name := by
  refine ⟨List.mem_reverse.mp (List.mem_of_find?_eq_some found), ?_⟩
  simpa using List.find?_some found

theorem columnAttribute_mapped (holds : HoldsColumns options d t)
    (made : columnAttribute options d t column = .ok member) : member.Mapped d.name := by
  unfold columnAttribute at made
  split at made
  · rename_i c found
    have named : c.name = column := by simpa using List.find?_some found
    obtain ⟨held, present, mapped⟩ := holds c (List.mem_of_find?_eq_some found)
    rw [named] at present
    cases present.symm.trans (attribute_lookup made)
    exact mapped
  · cases made

section
variable {ends : KeyEnds} (near : HoldsColumns options ends.owner ends.source)
  (far : HoldsColumns options ends.aim ends.target)
  (same : reflexive = true ↔ ends.owner.name = ends.aim.name)
include near far same

theorem pairCondition_keys (made : ends.pairCondition options reflexive pair = .ok expr) :
    expr.Keys ends.owner.name ends.aim.name := by
  obtain ⟨first, foundFirst, made⟩ := bind_parts made
  obtain ⟨second, foundSecond, made⟩ := bind_parts made
  have sides : (if reflexive = true then (Side.left, Side.right) else (.matching, .matching)) =
      keySides ends.owner.name ends.aim.name := by
    simp only [keySides, same]
  rw [sides] at made
  obtain ⟨_, type, _, _, rfl⟩ := operation_parts made
  exact .pair (columnAttribute_mapped near foundFirst) (columnAttribute_mapped far foundSecond)

theorem condition_keys (made : ends.condition options reflexive first rest = .ok expr) :
    expr.Keys ends.owner.name ends.aim.name := by
  obtain ⟨condition, one, made⟩ := bind_parts made
  refine foldlM_keeps (Expr.Keys _ _) rest ?_ (pairCondition_keys near far same one) made
  intro pair _ before after keys step
  obtain ⟨more, another, step⟩ := bind_parts step
  obtain ⟨_, type, _, _, rfl⟩ := operation_parts step
  exact .both keys (pairCondition_keys near far same another)

end

theorem reference_ingested (table : String) (ingested : Model.Ingested options schema model)
    (found : model.domain? name = some d) (fresh : label ∉ d.attributes.map Attribute.name)
    (keys : condition.Keys d.name target) :
    (model.register (d.insert ⟨d.name, label, .reference target table condition⟩)).Ingested options
      schema := by
  constructor
  · intro other domain present called member inside
    rw [register_domain] at present
    split at present
    · cases present
      rw [insert_attribute] at inside
      split at inside
      · cases inside
        exact .reference keys
      · exact ingested.attributes name d found called member inside
    · exact ingested.attributes other domain present called member inside
  · intro t present
    obtain ⟨held, known, columns⟩ := ingested.columns t present
    rw [register_domain]
    split
    · rename_i here
      have same : held = d := by
        rw [← here] at known
        rw [← domain_named found] at found
        exact Option.some.inj (known.symm.trans found)
      refine ⟨_, rfl, ?_⟩
      intro c column
      obtain ⟨member, inside, mapped⟩ := columns c column
      rw [same] at inside mapped
      refine ⟨member, ?_, mapped⟩
      rw [insert_attribute, if_neg]
      · exact inside
      · intro taken
        have named : label = options.attributeName c.name := taken
        exact fresh (named ▸ (attribute_named inside).2)
    · exact ⟨held, known, columns⟩

theorem addRelation_parts (made : Model.addRelation m r = .ok next) : next.domains = m.domains := by
  obtain ⟨_, _, made⟩ := bind_parts made
  obtain ⟨_, _, made⟩ := bind_parts made
  cases made
  rfl

theorem ingested_alike {model next : Model} (ingested : model.Ingested options schema)
    (same : next.domains = model.domains) : next.Ingested options schema := by
  have lookup : ∀ name, next.domain? name = model.domain? name := by
    intro name
    rw [Model.domain?, same]
    rfl
  constructor
  · intro name d found
    exact ingested.attributes name d (lookup name ▸ found)
  · intro t present
    rw [lookup]
    exact ingested.columns t present

theorem addKey_ingested (ingested : Model.Ingested options schema staged.2)
    (known : staged.2.domain? ends.owner.name = some ends.owner)
    (keys : condition.Keys ends.owner.name ends.aim.name)
    (made : addKey options staged key ends condition = .ok next) :
    next.2.Ingested options schema := by
  obtain ⟨⟨member, model⟩, extended, made⟩ := bind_parts made
  obtain ⟨d, grown, found, added, rfl⟩ := extend_parts extended
  cases known.symm.trans found
  obtain ⟨_, rfl⟩ := addReferenceOn_parts added
  have fresh : key.referenceName options ends.owner ends.aim ∉
      ends.owner.attributes.map Attribute.name := (freeReferenceName_fresh _ _).1
  have one := reference_ingested ends.aim.table ingested known fresh keys
  dsimp only at made
  split at made
  · obtain ⟨r, _, made⟩ := bind_parts made
    obtain ⟨last, related, made⟩ := bind_parts made
    cases made
    exact ingested_alike one (addRelation_parts related)
  · cases made
    exact one

theorem stageKey_ingested (distinct : (schema.tables.map fun t => options.domainName t.name).Nodup)
    (ingested : Model.Ingested options schema staged.2)
    (made : stageKey options schema staged key = .ok next) : next.2.Ingested options schema := by
  unfold stageKey at made
  split at made
  · rename_i first rest source target pairs foundSource foundTarget
    obtain ⟨owner, lookedUp, made⟩ := bind_parts made
    obtain ⟨aim, lookedUpAim, made⟩ := bind_parts made
    obtain ⟨condition, conditioned, made⟩ := bind_parts made
    obtain ⟨present, named⟩ := latest_parts foundSource
    obtain ⟨presentTarget, namedTarget⟩ := latest_parts foundTarget
    obtain ⟨held, known, near⟩ := ingested.columns source present
    obtain ⟨heldAim, knownAim, far⟩ := ingested.columns target presentTarget
    cases known.symm.trans (domain_lookup lookedUp)
    cases knownAim.symm.trans (domain_lookup lookedUpAim)
    have same : key.isReflexive = true ↔ owner.name = aim.name := by
      rw [domain_named known, domain_named knownAim, ForeignKey.isReflexive, beq_iff_eq]
      constructor
      · intro reflexive
        rw [named, namedTarget, reflexive]
      · intro names
        rw [← named, ← namedTarget, List.inj_on_of_nodup_map distinct present presentTarget names]
    have keys : condition.Keys owner.name aim.name :=
      condition_keys near far same conditioned
    exact addKey_ingested ingested ((domain_named known).symm ▸ known) keys made
  · cases made
    exact ingested

theorem ingest_ingested (schema : Schema) (options : IngestOptions)
    (distinct : (schema.tables.map fun t => options.domainName t.name).Nodup)
    (ran : Model.empty.ingest schema options = .ok (changes, model)) :
    model.Ingested options schema :=
  foldlM_keeps (fun staged : Staged => staged.2.Ingested options schema) schema.foreignKeys
    (fun _ _ _ _ before step => stageKey_ingested distinct before step)
    (tables_ingested options schema distinct) ran

end SemanticLayer
