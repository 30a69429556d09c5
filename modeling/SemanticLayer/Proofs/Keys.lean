import SemanticLayer.Ingest
import SemanticLayer.Proofs.Lookup

namespace SemanticLayer

def Attribute.Mapped (domain : String) (member : Attribute) : Prop :=
  ∃ name column type, member = .mapped domain name column type

def keySides (owner target : String) : Side × Side :=
  if owner = target then (.left, .right) else (.matching, .matching)

inductive Expr.Keys (owner target : String) : Expr → Prop where
  | pair : near.Mapped owner → far.Mapped target →
      Keys owner target (.binary .equals (.access near (keySides owner target).1)
        (.access far (keySides owner target).2) result)
  | both : Keys owner target left → Keys owner target right →
      Keys owner target (.binary .and left right result)

inductive Attribute.Ingested (domain : String) : Attribute → Prop where
  | column : Attribute.Mapped domain member → Ingested domain member
  | reference : condition.Keys domain target →
      Ingested domain ⟨domain, label, .reference target table condition⟩

theorem near_located (parent child : Path) (name : String) :
    Scope.locate (.join parent child) parent.domain name
      (keySides parent.domain child.domain).1 = .ok parent := by
  by_cases same : parent.domain = child.domain
  · simp [keySides, same, Scope.locate]
  · simp [keySides, same, Scope.locate, Ne.symm same]

theorem far_located (parent child : Path) (name : String) :
    Scope.locate (.join parent child) child.domain name
      (keySides parent.domain child.domain).2 = .ok child := by
  by_cases same : parent.domain = child.domain
  · simp [keySides, same, Scope.locate]
  · simp [keySides, same, Scope.locate]

theorem column_planned (located : Scope.locate scope domain name side = .ok path) :
    Expr.plan (.access (.mapped domain name column type) side) scope =
      .ok ⟨.column path column, []⟩ := by
  rw [Attribute.mapped, Expr.plan, located]
  rfl

-- The near column is read where the join comes from, and the far one where it leads.
theorem pair_planned (parent child : Path) (near far nearColumn farColumn : String)
    (nearType farType result : ExprType) :
    Expr.plan (.binary .equals
        (.access (.mapped parent.domain near nearColumn nearType)
          (keySides parent.domain child.domain).1)
        (.access (.mapped child.domain far farColumn farType)
          (keySides parent.domain child.domain).2) result) (.join parent child) =
      .ok ⟨.binary .equals (.column parent nearColumn) (.column child farColumn), []⟩ := by
  rw [Expr.plan, column_planned (near_located parent child near),
    column_planned (far_located parent child far)]
  rfl

-- The condition of a key is planned between any two paths that end at its domains, and follows
-- nothing.
theorem keys_planned (keys : Expr.Keys parent.domain child.domain condition) :
    ∃ term, condition.plan (.join parent child) = .ok ⟨term, []⟩ := by
  induction keys with
  | pair near far =>
    obtain ⟨name, column, type, rfl⟩ := near
    obtain ⟨key, keyColumn, keyType, rfl⟩ := far
    exact ⟨_, pair_planned parent child name key column keyColumn type keyType _⟩
  | both _ _ left right =>
    obtain ⟨first, one⟩ := left
    obtain ⟨second, two⟩ := right
    refine ⟨.binary .and first second, ?_⟩
    rw [Expr.plan, one, two]
    rfl

end SemanticLayer
