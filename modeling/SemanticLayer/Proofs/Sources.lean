import SemanticLayer.Proofs.Mentions

namespace SemanticLayer

def Source.names : Source → List String
  | .domain name => [name]
  | .cross left right => [left, right]

-- What an expression reads of the scope that it stands in, before it follows anything: the
-- domains, and the sides that the accesses name.
def Expr.heads : Expr → List (String × Side)
  | .access member side => [(member.domain, side)]
  | .compose reference _ => reference.heads
  | .binary _ left right _ => left.heads ++ right.heads
  | .aggregate _ operand => operand.heads
  | .column domain _ _ => [(domain, .matching)]
  | _ => []

theorem union_names (united : Source.union first second = .ok both)
    (one : first = some source ∨ second = some source) :
    ∃ whole, both = some whole ∧ source.names ⊆ whole.names := by
  unfold Source.union at united
  split at united
  · cases united
    simp at one
    exact ⟨source, one, List.Subset.refl _⟩
  · cases united
    simp at one
    exact ⟨source, one, List.Subset.refl _⟩
  · rename_i left right
    simp only [Option.some.injEq] at one
    split at united
    · rename_i same
      cases united
      exact ⟨left, rfl, by rcases one with rfl | rfl <;> simp [same]⟩
    · split at united
      · rename_i l r _
        cases united
        refine ⟨.cross l r, rfl, ?_⟩
        rcases one with rfl | rfl <;> simp [Source.names]
      · cases united

theorem union_failed (failed : Source.union first second = .error error) :
    ∃ left right, error = .sourcesDisagree left right := by
  unfold Source.union at failed
  split at failed
  · cases failed
  · cases failed
  · split at failed
    · cases failed
    · split at failed
      · cases failed
      · cases failed
        exact ⟨_, _, rfl⟩

theorem heads_sourced (expr : Expr) (built : expr.Built) (member : head ∈ expr.heads) :
    ∃ source, expr.source = some source ∧ head.1 ∈ source.names := by
  fun_induction Expr.heads expr with
  | case1 read side =>
    cases List.mem_singleton.mp member
    exact ⟨.domain read.domain, rfl, List.mem_singleton_self _⟩
  | case2 reference composition ih => exact ih (compose_built built).1 member
  | case3 operator left right type one two =>
    obtain ⟨builtLeft, builtRight, _, both, united⟩ := binary_built built
    have sourced : ∃ source, (left.source = some source ∨ right.source = some source) ∧
        head.1 ∈ source.names := by
      rcases List.mem_append.mp member with inLeft | inRight
      · obtain ⟨source, sourced, named⟩ := one builtLeft inLeft
        exact ⟨source, .inl sourced, named⟩
      · obtain ⟨source, sourced, named⟩ := two builtRight inRight
        exact ⟨source, .inr sourced, named⟩
    obtain ⟨source, part, named⟩ := sourced
    obtain ⟨whole, rfl, wider⟩ := union_names united part
    exact ⟨whole, by simp [Expr.source, united], wider named⟩
  | case4 function operand ih => exact ih (aggregate_built built).1 member
  | case5 domain name type =>
    cases List.mem_singleton.mp member
    exact ⟨.domain domain, rfl, List.mem_singleton_self _⟩
  | case6 => cases member

-- The same of what a query looks at. It does not count the queries inside, and they have no heads.
theorem heads_enclosed (expr : Expr) (built : expr.Built) (read : expr.enclosing = .ok scope)
    (member : head ∈ expr.heads) : ∃ source, scope = some source ∧ head.1 ∈ source.names := by
  fun_induction Expr.enclosing expr generalizing scope with
  | case1 nested => cases member
  | case2 operator left right type one two =>
    obtain ⟨builtLeft, builtRight, _⟩ := binary_built built
    obtain ⟨first, readLeft, read⟩ := bind_parts read
    obtain ⟨second, readRight, read⟩ := bind_parts read
    have sourced : ∃ source, (first = some source ∨ second = some source) ∧
        head.1 ∈ source.names := by
      rcases List.mem_append.mp member with inLeft | inRight
      · obtain ⟨source, sourced, named⟩ := one builtLeft readLeft inLeft
        exact ⟨source, .inl sourced, named⟩
      · obtain ⟨source, sourced, named⟩ := two builtRight readRight inRight
        exact ⟨source, .inr sourced, named⟩
    obtain ⟨source, part, named⟩ := sourced
    split at read
    · rename_i both united
      cases read
      obtain ⟨whole, rfl, wider⟩ := union_names united part
      exact ⟨whole, rfl, wider named⟩
    · cases read
    · rename_i other noDisagreement failed
      obtain ⟨l, r, same⟩ := union_failed failed
      exact absurd same (noDisagreement l r)
  | case3 function operand ih => exact ih (aggregate_built built).1 read member
  | case4 expr noQuery noBinary noAggregate =>
    cases read
    exact heads_sourced expr built member

theorem checkScope_heads (expr : Expr) (built : expr.Built)
    (checked : expr.checkScope domain = .ok ()) (member : head ∈ expr.heads) : head.1 = domain := by
  obtain ⟨scope, read, checked⟩ := bind_parts checked
  obtain ⟨source, rfl, named⟩ := heads_enclosed expr built read member
  simp only at checked
  split at checked
  · rename_i same
    subst same
    exact List.mem_singleton.mp named
  · cases checked

theorem source_heads (expr : Expr) (built : expr.Built) (sourced : expr.source = some (.domain domain))
    (member : head ∈ expr.heads) : head.1 = domain := by
  obtain ⟨source, same, named⟩ := heads_sourced expr built member
  cases sourced.symm.trans same
  exact List.mem_singleton.mp named

theorem value_heads (built : Attribute.Built ⟨domain, name, .value expr⟩) (member : head ∈ expr.heads) :
    head.1 = domain := by
  obtain ⟨inner, constant | sourced⟩ := value_built built
  · obtain ⟨source, same, _⟩ := heads_sourced expr inner member
    cases constant.symm.trans same
  · exact source_heads expr inner sourced member

theorem queries_built (expr : Expr) (built : expr.Built) (member : r ∈ expr.queries) : r.Built := by
  fun_induction Expr.queries expr with
  | case1 domain name expr side ih => exact ih (value_built (access_built built)).1 member
  | case2 reference composition ih => exact ih (compose_built built).2.1 member
  | case3 operator left right type one two =>
    obtain ⟨builtLeft, builtRight, _⟩ := binary_built built
    rcases List.mem_append.mp member with inLeft | inRight
    · exact one builtLeft inLeft
    · exact two builtRight inRight
  | case4 function operand ih => exact ih (aggregate_built built).1 member
  | case5 nested =>
    cases List.mem_singleton.mp member
    exact query_built built
  | case6 => cases member

theorem readings_built (built : Query.Built q) (tours : q.Tours whole)
    (member : reading ∈ q.readings whole) : reading.expr.Built := by
  rcases readings_cases member with ⟨_, said⟩ | ⟨leg, present, rfl⟩
  · exact (said_checked built said).1
  · exact tours_built built tours leg present

theorem within_built (within : Query.Within q r) (built : q.Built) : r.Built := by
  induction within with
  | self => exact built
  | deeper tours reading nested _ ih =>
    exact ih (queries_built _ (readings_built built tours reading) nested)

end SemanticLayer
