import SemanticLayer.Proofs.Formation
import SemanticLayer.Proofs.Lookup

namespace SemanticLayer

def Projection.attribute (p : Projection) (query : String) : Attribute :=
  .mapped query p.label p.label p.type

def Query.placed (columns : List Projection) : List Projection :=
  columns.foldl (fun placed p => Query.place p.label p.expr placed) []

section
variable {α : Type} {label : α → String} {x next : α} {items : List α}

def Latest (label : α → String) (x : α) (items : List α) : Prop :=
  ∃ before after, items = before ++ x :: after ∧ label x ∉ after.map label

theorem latest_last (items : List α) (x : α) : Latest label x (items ++ [x]) :=
  ⟨items, [], rfl, by simp⟩

theorem latest_concat (latest : Latest label x items) (apart : label x ≠ label next) :
    Latest label x (items ++ [next]) := by
  obtain ⟨before, after, rfl, silent⟩ := latest
  exact ⟨before, after ++ [next], by simp, by simp_all⟩

theorem latest_member (latest : Latest label x items) : x ∈ items := by
  obtain ⟨before, after, rfl, _⟩ := latest
  simp

theorem latest_split (latest : Latest label x (items ++ [next])) :
    x = next ∨ (Latest label x items ∧ label x ≠ label next) := by
  obtain ⟨before, after, split, silent⟩ := latest
  rcases List.eq_nil_or_concat' after with rfl | ⟨earlier, last, rfl⟩
  · have same := List.append_inj_right' split rfl
    exact .inl (List.singleton_inj.mp same).symm
  · rw [← List.cons_append, ← List.append_assoc] at split
    obtain ⟨rfl, same⟩ := List.append_inj' split rfl
    cases List.singleton_inj.mp same
    rw [List.map_append, List.mem_append, not_or] at silent
    exact .inr ⟨⟨before, earlier, rfl, silent.1⟩, by simpa using silent.2⟩

end

theorem place_labels (label : String) (expr : Expr) (projections : List Projection) :
    (Query.place label expr projections).map (·.label) =
      if label ∈ projections.map (·.label) then projections.map (·.label)
      else projections.map (·.label) ++ [label] := by
  induction projections with
  | nil => rfl
  | cons p ps ih =>
    rw [Query.place]
    by_cases here : p.label = label
    · simp [here]
    · have other : label ≠ p.label := Ne.symm here
      simp only [here, ↓reduceIte, List.map_cons, ih, List.mem_cons, other, false_or]
      split <;> rfl

theorem place_placed (label : String) (expr : Expr) (projections : List Projection) :
    ⟨label, expr⟩ ∈ Query.place label expr projections := by
  fun_induction Query.place label expr projections <;> simp_all

theorem place_kept (apart : p.label ≠ label) (member : p ∈ projections) :
    p ∈ Query.place label expr projections := by
  fun_induction Query.place label expr projections <;> grind

-- Under an alias that is in use once, nothing of the old column is left.
theorem place_apart (distinct : (projections.map (·.label)).Nodup)
    (member : p ∈ Query.place label expr projections) :
    p = ⟨label, expr⟩ ∨ (p ∈ projections ∧ p.label ≠ label) := by
  induction projections with
  | nil => exact .inl (List.mem_singleton.mp member)
  | cons first rest ih =>
    obtain ⟨fresh, later⟩ := List.nodup_cons.mp distinct
    rw [Query.place] at member
    split at member
    · rename_i same
      rcases List.mem_cons.mp member with placed | kept
      · exact .inl placed
      · have other : p.label ≠ label := fun named =>
          fresh (List.mem_map.mpr ⟨p, kept, named.trans same.symm⟩)
        exact .inr ⟨List.mem_cons_of_mem first kept, other⟩
    · rename_i apart
      rcases List.mem_cons.mp member with rfl | inside
      · exact .inr ⟨List.mem_cons_self, apart⟩
      · rcases ih later inside with placed | ⟨kept, other⟩
        · exact .inl placed
        · exact .inr ⟨List.mem_cons_of_mem first kept, other⟩

theorem placed_concat (columns : List Projection) (p : Projection) :
    Query.placed (columns ++ [p]) = Query.place p.label p.expr (Query.placed columns) := by
  simp [Query.placed]

theorem placed_labels (columns : List Projection) :
    (Query.placed columns).map (·.label) = (columns.map (·.label)).eraseDups := by
  induction columns using List.reverseRecOn with
  | nil => rfl
  | append_singleton columns p ih =>
    rw [placed_concat, place_labels, ih, List.map_append, List.map_singleton, eraseDups_concat]
    simp only [List.mem_eraseDups]

theorem placed_distinct (columns : List Projection) :
    ((Query.placed columns).map (·.label)).Nodup :=
  placed_labels columns ▸ eraseDups_distinct _

theorem placed_latest (columns : List Projection) (p : Projection) :
    p ∈ Query.placed columns ↔ Latest Projection.label p columns := by
  induction columns using List.reverseRecOn with
  | nil => exact ⟨fun none => absurd none List.not_mem_nil, fun none => latest_member none⟩
  | append_singleton columns next ih =>
    obtain ⟨label, expr⟩ := next
    rw [placed_concat]
    constructor
    · intro member
      rcases place_apart (placed_distinct columns) member with rfl | ⟨old, apart⟩
      · exact latest_last columns _
      · exact latest_concat (ih.mp old) apart
    · intro latest
      rcases latest_split latest with rfl | ⟨before, apart⟩
      · exact place_placed label expr _
      · exact place_kept apart (ih.mpr before)

theorem asDomain_inserts (q : Query) :
    q.asDomain = ⟨q.name, q.name, q.projections.foldl
      (fun l p => Sorted.insert Attribute.name (p.attribute q.name) l) []⟩ := by
  have fold (d : Domain) : q.projections.foldl
      (fun d p => d.insert (.mapped q.name p.label p.label p.type)) d =
        ⟨d.name, d.table, q.projections.foldl
          (fun l p => Sorted.insert Attribute.name (p.attribute q.name) l) d.attributes⟩ := by
    induction q.projections generalizing d with
    | nil => rfl
    | cons p rest ih => exact ih (d.insert (.mapped q.name p.label p.label p.type))
  exact fold (.new q.name)

theorem inserts_place (query label : String) (expr : Expr) (projections : List Projection)
    (distinct : (projections.map (·.label)).Nodup) (l : List Attribute) :
    (Query.place label expr projections).foldl
        (fun l p => Sorted.insert Attribute.name (p.attribute query) l) l =
      Sorted.insert Attribute.name (Projection.attribute ⟨label, expr⟩ query)
        (projections.foldl (fun l p => Sorted.insert Attribute.name (p.attribute query) l) l) := by
  induction projections generalizing l with
  | nil => rfl
  | cons p rest ih =>
    obtain ⟨fresh, later⟩ := List.nodup_cons.mp distinct
    rw [Query.place]
    split
    · rename_i same
      have apart : ∀ other ∈ rest, (p.attribute query).name ≠ (other.attribute query).name :=
        fun other member named => fresh (List.mem_map.mpr ⟨other, member, named.symm⟩)
      have anew : ∀ other ∈ rest,
          (Projection.attribute ⟨label, expr⟩ query).name ≠ (other.attribute query).name :=
        fun other member named => apart other member (same.trans named)
      rw [List.foldl_cons, List.foldl_cons,
        inserts_swap Attribute.name (·.attribute query) rest _ anew,
        inserts_swap Attribute.name (·.attribute query) rest _ apart]
      exact (insert_again Attribute.name same _).symm
    · exact ih later _

theorem asDomain_place (q : Query) (distinct : (q.projections.map (·.label)).Nodup) (label : String)
    (expr : Expr) :
    Query.asDomain { q with projections := Query.place label expr q.projections } =
      q.asDomain.insert (.mapped q.name label label expr.type) := by
  rw [asDomain_inserts, asDomain_inserts, inserts_place q.name label expr _ distinct]
  rfl

theorem asDomain_attributes (q : Query) (distinct : (q.projections.map (·.label)).Nodup) :
    q.asDomain.attributes.Perm
      (q.projections.map fun p => .mapped q.name p.label p.label p.type) := by
  rw [asDomain_inserts]
  exact inserts_fresh Attribute.name (fun p : Projection => p.attribute q.name) q.projections []
    distinct

end SemanticLayer
