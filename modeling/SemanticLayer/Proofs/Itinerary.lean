import Mathlib.Data.List.Forall2
import Mathlib.Data.List.Nodup
import SemanticLayer.Proofs.Legs

namespace SemanticLayer

def enlist (known : List Leg) (leg : Leg) : List Leg :=
  if leg.path ∈ known.map Leg.path then known else known ++ [leg]

-- A walk along a list of legs that grows under the feet of the walker: every leg that is passed
-- puts the legs of its own condition at the end. The walk ends where the list ends.
inductive Tour : Nat → List Leg → List Leg → Prop where
  | finish : known.length ≤ position → Tour position known known
  | visit : known[position]? = some leg →
      Tour (position + 1) (leg.onward.foldl enlist known) whole → Tour position known whole

def Query.Tours (q : Query) (whole : List Leg) : Prop := Tour 0 (q.outset.foldl enlist []) whole

def Grounded : List Path → List Leg → Prop
  | _, [] => True
  | bases, leg :: rest => leg.parent ∈ bases ∧ Grounded (leg.path :: bases) rest

theorem enlist_adds (legs known : List Leg) :
    ∃ added, legs.foldl enlist known = known ++ added ∧ added ⊆ legs := by
  induction legs generalizing known with
  | nil => exact ⟨[], by simp, List.Subset.refl _⟩
  | cons leg rest ih =>
    obtain ⟨added, grown, inside⟩ := ih (enlist known leg)
    rw [List.foldl_cons, grown]
    unfold enlist
    split
    · exact ⟨added, rfl, List.subset_cons_of_subset leg inside⟩
    · exact ⟨leg :: added, by simp, List.cons_subset_cons leg inside⟩

theorem enlist_extends (legs known : List Leg) : known <+: legs.foldl enlist known := by
  obtain ⟨added, grown, _⟩ := enlist_adds legs known
  exact ⟨added, grown.symm⟩

theorem enlist_reaches (known : List Leg) (leg : Leg) : leg.path ∈ (enlist known leg).map Leg.path := by
  unfold enlist
  split
  · assumption
  · simp

theorem enlisted_reached (legs known : List Leg) (member : leg ∈ legs) :
    leg.path ∈ (legs.foldl enlist known).map Leg.path := by
  induction legs generalizing known with
  | nil => cases member
  | cons first rest ih =>
    rcases List.mem_cons.mp member with rfl | later
    · have extended := (enlist_extends rest (enlist known leg)).subset
      exact List.map_subset Leg.path extended (enlist_reaches known leg)
    · exact ih (enlist known first) later

theorem enlist_idle (legs known : List Leg)
    (reached : ∀ leg ∈ legs, leg.path ∈ known.map Leg.path) : legs.foldl enlist known = known := by
  induction legs with
  | nil => rfl
  | cons leg rest ih =>
    have idle : enlist known leg = known := if_pos (reached leg List.mem_cons_self)
    rw [List.foldl_cons, idle]
    exact ih fun other member => reached other (List.mem_cons_of_mem leg member)

theorem enlisted_member (legs known : List Leg) (member : leg ∈ legs.foldl enlist known) :
    leg ∈ known ∨ leg ∈ legs := by
  obtain ⟨added, grown, inside⟩ := enlist_adds legs known
  rw [grown] at member
  exact (List.mem_append.mp member).imp_right fun new => inside new

theorem enlist_distinct (legs known : List Leg) (distinct : (known.map Leg.path).Nodup) :
    ((legs.foldl enlist known).map Leg.path).Nodup := by
  induction legs generalizing known with
  | nil => exact distinct
  | cons leg rest ih =>
    apply ih
    unfold enlist
    split
    · exact distinct
    · rename_i fresh
      rw [List.map_append]
      exact distinct.append (List.nodup_singleton _) (by simpa using fresh)

theorem tour_extends (tour : Tour position known whole) : known <+: whole := by
  induction tour with
  | finish => exact List.prefix_refl _
  | visit _ _ ih => exact (enlist_extends _ _).trans ih

theorem tour_unique (tour : Tour position known whole) (other : Tour position known whole') :
    whole' = whole := by
  induction tour with
  | finish done =>
    cases other with
    | finish => rfl
    | visit found => simp [List.getElem?_eq_none done] at found
  | visit found _ ih =>
    cases other with
    | finish done => simp [List.getElem?_eq_none done] at found
    | visit found' rest =>
      cases found.symm.trans found'
      exact ih rest

theorem tour_distinct (tour : Tour position known whole) (distinct : (known.map Leg.path).Nodup) :
    (whole.map Leg.path).Nodup := by
  induction tour with
  | finish => exact distinct
  | visit _ _ ih => exact ih (enlist_distinct _ _ distinct)

theorem tour_origin (tour : Tour position known whole) (split : whole = before ++ leg :: after) :
    leg ∈ known ∨ ∃ earlier ∈ before, leg ∈ earlier.onward := by
  induction tour with
  | finish => exact .inl (split ▸ List.mem_append_right before List.mem_cons_self)
  | @visit known position first whole found rest ih =>
    rcases ih split with present | later
    · by_cases old : leg ∈ known
      · exact .inl old
      have new : leg ∈ first.onward := (enlisted_member _ _ present).resolve_left old
      have known_whole : known <+: whole := (enlist_extends _ _).trans (tour_extends rest)
      have before_whole : before ++ [leg] <+: whole := ⟨after, by simp [split]⟩
      refine .inr ⟨first, ?_, new⟩
      rcases Nat.lt_or_ge before.length known.length with longer | shorter
      · have reached := List.prefix_of_prefix_length_le before_whole known_whole
          (by rw [List.length_append]; exact longer)
        exact absurd (reached.subset (by simp)) old
      · have reached := List.prefix_of_prefix_length_le known_whole
          ((List.prefix_append before [leg]).trans before_whole) shorter
        exact reached.subset (List.mem_of_getElem? found)
    · exact .inr later

theorem visit_kept (found : known[position]? = some leg)
    (rest : Tour (position + 1) (leg.onward.foldl enlist known) whole) :
    whole[position]? = some leg := by
  have grown := (enlist_extends leg.onward known).trans (tour_extends rest)
  obtain ⟨bound, here⟩ := List.getElem?_eq_some_iff.mp found
  exact here ▸ List.prefix_iff_getElem?.mp grown position bound

-- Nothing is left out: where a leg of the tour goes on to, the tour goes.
theorem tour_closed (tour : Tour position known whole) (later : position ≤ i)
    (at_i : whole[i]? = some leg) (member : more ∈ leg.onward) :
    more.path ∈ whole.map Leg.path := by
  induction tour with
  | finish done => simp [List.getElem?_eq_none (Nat.le_trans done later)] at at_i
  | @visit known position first whole found rest ih =>
    rcases Nat.eq_or_lt_of_le later with rfl | after
    · cases (visit_kept found rest).symm.trans at_i
      exact List.map_subset Leg.path (tour_extends rest).subset (enlisted_reached _ known member)
    · exact ih after at_i

theorem grounded_weaken (legs : List Leg) (grounded : Grounded bases legs) (wider : bases ⊆ bases') :
    Grounded bases' legs := by
  induction legs generalizing bases bases' with
  | nil => trivial
  | cons leg rest ih =>
    exact ⟨wider grounded.1, ih grounded.2 (List.cons_subset_cons leg.path wider)⟩

theorem grounded_append (first second : List Leg) (one : Grounded bases first)
    (two : Grounded (bases ++ first.map Leg.path) second) : Grounded bases (first ++ second) := by
  induction first generalizing bases with
  | nil => simpa using two
  | cons leg rest ih =>
    refine ⟨one.1, ih one.2 (grounded_weaken second two ?_)⟩
    intro path member
    simp only [List.map_cons, List.mem_append, List.mem_cons] at member ⊢
    tauto

theorem grounded_split (before : List Leg) (grounded : Grounded bases (before ++ leg :: after)) :
    leg.parent ∈ bases ++ before.map Leg.path := by
  induction before generalizing bases with
  | nil => simpa using grounded.1
  | cons first rest ih =>
    have later := ih grounded.2
    simp only [List.map_cons, List.mem_append, List.mem_cons] at later ⊢
    tauto

theorem arrival_route (expr : Expr) (scope : Scope) :
    expr.arrival scope ∈ scope.paths ++ (expr.route scope).map Leg.path := by
  fun_induction Expr.route expr scope with
  | case1 => simp [Expr.arrival, Leg.path]
  | case2 reference composition scope first second =>
    simp only [Expr.arrival, Scope.paths, List.map_append, List.mem_append, List.mem_singleton]
      at first second ⊢
    rcases second with same | later
    · rw [same]
      tauto
    · exact .inr (.inr later)
  | case3 expr scope noReference noChain =>
    apply List.mem_append_left
    unfold Expr.arrival
    split
    · exact absurd rfl (noReference _ _ _ _ _ _)
    · exact absurd rfl (noChain _ _)
    · exact place_paths
    · exact place_paths

theorem grounded_arrival (reference : Expr) (scope : Scope) (legs : List Leg)
    (grounded : Grounded (Scope.paths (.at (reference.arrival scope))) legs) :
    Grounded (scope.paths ++ (reference.route scope).map Leg.path) legs := by
  apply grounded_weaken legs grounded
  intro path member
  rw [List.mem_singleton.mp member]
  exact arrival_route reference scope

theorem route_grounded (expr : Expr) (scope : Scope) : Grounded scope.paths (expr.route scope) := by
  fun_induction Expr.route expr scope with
  | case1 => exact ⟨place_paths, trivial⟩
  | case2 reference composition scope first second =>
    exact grounded_append _ _ first (grounded_arrival reference scope _ second)
  | case3 => trivial

theorem legs_grounded (expr : Expr) (scope : Scope) : Grounded scope.paths (expr.legs scope) := by
  fun_induction Expr.legs expr scope with
  | case1 domain name expr side scope ih =>
    apply grounded_weaken _ ih
    intro path member
    rw [List.mem_singleton.mp member]
    exact place_paths
  | case2 reference composition scope ih =>
    exact grounded_append _ _ (route_grounded reference scope)
      (grounded_arrival reference scope _ ih)
  | case3 operator left right type scope one two =>
    exact grounded_append _ _ one (grounded_weaken _ two (List.subset_append_left _ _))
  | case4 function operand scope ih => exact ih
  | case5 => trivial

theorem enlist_grounded (legs known : List Leg) (grounded : Grounded [root] known)
    (more : Grounded bases legs) (reached : bases ⊆ root :: known.map Leg.path) :
    Grounded [root] (legs.foldl enlist known) := by
  induction legs generalizing known bases with
  | nil => exact grounded
  | cons leg rest ih =>
    refine ih (enlist known leg) ?_ more.2 ?_
    · unfold enlist
      split
      · exact grounded
      · refine grounded_append known [leg] grounded ⟨?_, trivial⟩
        simpa using reached more.1
    · intro path member
      rcases List.mem_cons.mp member with rfl | old
      · exact List.mem_cons_of_mem root (enlist_reaches known leg)
      · rcases List.mem_cons.mp (reached old) with rfl | before
        · exact List.mem_cons_self
        · have grown := (enlist_extends [leg] known).subset
          exact List.mem_cons_of_mem root (List.map_subset Leg.path grown before)

theorem tour_grounded (tour : Tour position known whole) (grounded : Grounded [root] known) :
    Grounded [root] whole := by
  induction tour with
  | finish => exact grounded
  | @visit known position leg whole found _ ih =>
    refine ih (enlist_grounded leg.onward known grounded (legs_grounded leg.condition _) ?_)
    obtain ⟨before, after, split⟩ := List.append_of_mem (List.mem_of_getElem? found)
    have parent : leg.parent ∈ [root] ++ before.map Leg.path := by
      subst split
      exact grounded_split before grounded
    intro path member
    simp only [Scope.paths, List.mem_cons, List.not_mem_nil, or_false] at member
    rcases member with rfl | rfl
    · subst split
      simp only [List.singleton_append, List.mem_cons, List.map_append, List.mem_append] at parent ⊢
      tauto
    · exact List.mem_cons_of_mem root (List.mem_map_of_mem (List.mem_of_getElem? found))

theorem outset_grounded (q : Query) : Grounded [.root q.source] q.outset := by
  have columns : ∀ projections : List Projection, Grounded [.root q.source]
      (projections.flatMap (·.expr.legs (.at (.root q.source)))) := by
    intro projections
    induction projections with
    | nil => trivial
    | cons p rest ih =>
      rw [List.flatMap_cons]
      exact grounded_append _ _ (legs_grounded p.expr (.at (.root q.source)))
        (grounded_weaken _ ih (List.subset_append_left _ _))
  refine grounded_append _ _ (columns q.projections) ?_
  cases q.filter with
  | none => trivial
  | some condition =>
    rw [Option.toList_some, List.flatMap_singleton]
    exact grounded_weaken _ (legs_grounded condition (.at (.root q.source)))
      (List.subset_append_left _ _)

theorem tours_grounded (tours : Query.Tours q whole) : Grounded [.root q.source] whole := by
  refine tour_grounded tours (enlist_grounded q.outset [] trivial (outset_grounded q) ?_)
  simp

theorem tours_distinct (tours : Query.Tours q whole) : (whole.map Leg.path).Nodup :=
  tour_distinct tours (enlist_distinct q.outset [] List.nodup_nil)

-- A property that legs pass on to the legs of their conditions comes to a leg from those before it.
theorem tours_pass {property : Leg → Prop} (tours : Query.Tours q (before ++ leg :: after))
    (first : ∀ leg ∈ q.outset, property leg)
    (next : ∀ earlier ∈ before, property earlier → ∀ more ∈ earlier.onward, property more) :
    property leg := by
  induction size : before.length using Nat.strongRecOn generalizing before leg after with
  | ind count ih =>
    rcases tour_origin tours rfl with outset | ⟨earlier, present, onward⟩
    · rcases enlisted_member _ _ outset with impossible | outset
      · cases impossible
      · exact first leg outset
    · refine next earlier present ?_ leg onward
      obtain ⟨start, rest, rfl⟩ := List.append_of_mem present
      have shorter : start.length < count := by
        rw [← size, List.length_append, List.length_cons]
        omega
      rw [List.append_assoc, List.cons_append] at tours
      exact ih start.length shorter tours
        (fun other member => next other (List.mem_append_left _ member)) rfl

theorem tours_inherit {property : Leg → Prop} (tours : Query.Tours q whole)
    (first : ∀ leg ∈ q.outset, property leg)
    (next : ∀ leg ∈ whole, property leg → ∀ more ∈ leg.onward, property more) :
    ∀ leg ∈ whole, property leg := by
  intro leg present
  obtain ⟨before, after, rfl⟩ := List.append_of_mem present
  exact tours_pass tours first fun earlier member => next earlier (List.mem_append_left _ member)

theorem joinClauses_seen (present : path ∈ seen) :
    joinClauses seen (⟨path, table, condition⟩ :: rest) = joinClauses seen rest := by
  rw [joinClauses, if_pos present]

theorem joinClauses_failed (absent : path ∉ seen) (failed : condition () = .failed error) :
    joinClauses seen (⟨path, table, condition⟩ :: rest) = .error error := by
  rw [joinClauses, if_neg absent]
  split
  · rename_i found; cases failed.symm.trans found; rfl
  · rename_i found; cases failed.symm.trans found

theorem joinClauses_planned (absent : path ∉ seen) (planned : condition () = .planned term hops) :
    joinClauses seen (⟨path, table, condition⟩ :: rest) =
      joinClauses (path :: seen) (rest ++ hops) >>= fun more =>
        pure (⟨.join path table, term⟩ :: more) := by
  rw [joinClauses, if_neg absent]
  split
  · rename_i found; cases planned.symm.trans found
  · rename_i found; cases planned.symm.trans found; rfl

theorem ofPlan_planned (planned : Condition.ofPlan result = .planned term hops) :
    result = .ok ⟨term, hops⟩ := by
  cases result with
  | error error => cases planned
  | ok planned => cases planned; rfl

def JoinsLeg (leg : Leg) (clause : Clause Path Unit) : Prop :=
  clause.role = .join leg.path leg.table ∧
    ∃ hops, leg.condition.plan (.join leg.parent leg.path) = .ok ⟨clause.term, hops⟩

-- The worklist of the planner takes the same walk: what it has yet to look at is what the growing
-- list has not been passed yet, with repetitions that the list leaves out at once.
theorem joinClauses_tour (todo done : List Leg) (clauses : List (Clause Path Unit))
    (same : ∀ leg : Leg, leg.path ∈ seen ↔ leg.path ∈ done.map Leg.path)
    (ran : joinClauses seen (todo.map Leg.hop) = .ok clauses) :
    ∃ fresh, Tour done.length (todo.foldl enlist done) (done ++ fresh) ∧
      List.Forall₂ JoinsLeg fresh clauses := by
  generalize listed : todo.map Leg.hop = hops at ran
  induction seen, hops using joinClauses.induct generalizing todo done clauses with
  | case1 seen =>
    cases List.map_eq_nil_iff.mp listed
    rw [joinClauses] at ran
    cases ran
    exact ⟨[], by simpa using Tour.finish (Nat.le_refl done.length), .nil⟩
  | case2 seen path table condition rest present ih =>
    obtain ⟨leg, todo, rfl, same_hop, same_rest⟩ := List.map_eq_cons_iff.mp listed
    cases same_hop
    rw [joinClauses_seen present] at ran
    have idle : enlist done leg = done := if_pos ((same leg).mp present)
    rw [List.foldl_cons, idle]
    exact ih todo done clauses same same_rest ran
  | case3 seen path table condition rest absent error failed =>
    rw [joinClauses_failed absent failed] at ran
    cases ran
  | case4 seen path table condition rest absent term hops planned ih =>
    obtain ⟨leg, todo, rfl, same_hop, same_rest⟩ := List.map_eq_cons_iff.mp listed
    cases same_hop
    rw [joinClauses_planned absent planned] at ran
    obtain ⟨more, walked, made⟩ := bind_parts ran
    cases made
    have read := ofPlan_planned planned
    have onward : hops = leg.onward.map Leg.hop := plan_legs.1 _ _ _ read
    have listed_rest : (todo ++ leg.onward).map Leg.hop = rest ++ hops := by
      rw [List.map_append, same_rest, onward]
    have same_more : ∀ other : Leg,
        other.path ∈ leg.path :: seen ↔ other.path ∈ (done ++ [leg]).map Leg.path := by
      intro other
      simp [same other, or_comm]
    obtain ⟨fresh, tour, joined⟩ := ih (todo ++ leg.onward) (done ++ [leg]) more same_more
      listed_rest walked
    have added : enlist done leg = done ++ [leg] := if_neg fun known => absent ((same leg).mpr known)
    refine ⟨leg :: fresh, ?_, .cons ⟨rfl, hops, read⟩ joined⟩
    rw [List.foldl_cons, added]
    rw [List.foldl_append, List.length_append, List.append_assoc] at tour
    refine .visit ?_ tour
    have kept := enlist_extends todo (done ++ [leg])
    have here := List.prefix_iff_getElem?.mp kept done.length (by simp)
    simpa using here

end SemanticLayer
