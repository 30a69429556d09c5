import SemanticLayer.Proofs.Itinerary

namespace SemanticLayer

-- Every tour ends: however the conditions follow references in their turn, there is only so much to
-- be followed, and each leg that is passed leaves less of it.

mutual

def Expr.routeWeight : Expr → Nat
  | .access ⟨_, _, .reference _ _ condition⟩ _ => condition.weight + 1
  | .compose reference composition => reference.routeWeight + composition.routeWeight
  | _ => 0

def Expr.weight : Expr → Nat
  | .access ⟨_, _, .value expr⟩ _ => expr.weight
  | .compose reference composition => reference.routeWeight + composition.weight
  | .binary _ left right _ => left.weight + right.weight
  | .aggregate _ operand => operand.weight
  | _ => 0

end

def Leg.weight (leg : Leg) : Nat := leg.condition.weight + 1

def Leg.totalWeight : List Leg → Nat
  | [] => 0
  | leg :: legs => leg.weight + Leg.totalWeight legs

namespace Leg

theorem totalWeight_append (first second : List Leg) :
    totalWeight (first ++ second) = totalWeight first + totalWeight second := by
  induction first with
  | nil => simp [totalWeight]
  | cons leg rest ih => rw [List.cons_append, totalWeight, totalWeight, ih, Nat.add_assoc]

end Leg

theorem route_weight (expr : Expr) (scope : Scope) :
    Leg.totalWeight (expr.route scope) = expr.routeWeight := by
  fun_induction Expr.route expr scope with
  | case1 => simp [Expr.routeWeight, Leg.totalWeight, Leg.weight]
  | case2 reference composition scope first second =>
    rw [Leg.totalWeight_append, Expr.routeWeight, first, second]
  | case3 expr scope noReference noChain =>
    unfold Expr.routeWeight
    split
    · exact absurd rfl (noReference _ _ _ _ _ _)
    · exact absurd rfl (noChain _ _)
    · rfl

theorem legs_weight (expr : Expr) (scope : Scope) :
    Leg.totalWeight (expr.legs scope) = expr.weight := by
  fun_induction Expr.legs expr scope with
  | case1 domain name expr side scope ih => rw [Expr.weight, ih]
  | case2 reference composition scope ih =>
    rw [Leg.totalWeight_append, Expr.weight, route_weight, ih]
  | case3 operator left right type scope one two =>
    rw [Leg.totalWeight_append, Expr.weight, one, two]
  | case4 function operand scope ih => rw [Expr.weight, ih]
  | case5 expr scope noValue noChain noBinary noAggregate =>
    unfold Expr.weight
    split
    · exact absurd rfl (noValue _ _ _ _)
    · exact absurd rfl (noChain _ _)
    · exact absurd rfl (noBinary _ _ _ _)
    · exact absurd rfl (noAggregate _ _)
    · rfl

theorem onward_lighter (leg : Leg) : Leg.totalWeight leg.onward < leg.weight := by
  have same := legs_weight leg.condition (.join leg.parent leg.path)
  exact Nat.lt_succ_of_le (Nat.le_of_eq same)

theorem enlist_weight (legs known : List Leg) (passed : position ≤ known.length) :
    Leg.totalWeight ((legs.foldl enlist known).drop position) ≤
      Leg.totalWeight (known.drop position) + Leg.totalWeight legs := by
  induction legs generalizing known with
  | nil => simp [Leg.totalWeight]
  | cons leg rest ih =>
    have one : position ≤ (enlist known leg).length ∧
        Leg.totalWeight ((enlist known leg).drop position) ≤
          Leg.totalWeight (known.drop position) + leg.weight := by
      unfold enlist
      split
      · exact ⟨passed, Nat.le_add_right _ _⟩
      · rw [List.drop_append_of_le_length passed, Leg.totalWeight_append]
        exact ⟨by simpa using Nat.le_succ_of_le passed, by simp [Leg.totalWeight]⟩
    have later := ih (enlist known leg) one.1
    rw [List.foldl_cons, Leg.totalWeight]
    omega

-- A leg that is passed takes more weight away than its condition adds.
theorem passed_lighter {known : List Leg} (found : known[position]? = some leg) :
    Leg.totalWeight ((leg.onward.foldl enlist known).drop (position + 1)) <
      Leg.totalWeight (known.drop position) := by
  obtain ⟨bound, at_position⟩ := List.getElem?_eq_some_iff.mp found
  have passed : position + 1 ≤ known.length := bound
  have added := enlist_weight leg.onward known passed
  have lighter := onward_lighter leg
  rw [List.drop_eq_getElem_cons bound, at_position, Leg.totalWeight]
  omega

theorem tour_exists (position : Nat) (known : List Leg) : ∃ whole, Tour position known whole := by
  induction left : Leg.totalWeight (known.drop position) using Nat.strongRecOn
    generalizing position known with
  | ind weight ih =>
    cases found : known[position]? with
    | none => exact ⟨known, .finish (List.getElem?_eq_none_iff.mp found)⟩
    | some leg =>
      have lighter := passed_lighter found
      rw [left] at lighter
      obtain ⟨whole, tour⟩ := ih _ lighter (position + 1) (leg.onward.foldl enlist known) rfl
      exact ⟨whole, .visit found tour⟩

theorem tours_exist (q : Query) : ∃ whole, q.Tours whole := tour_exists 0 _

end SemanticLayer
