import SemanticLayer.Proofs.Completion
import SemanticLayer.Proofs.Nesting

namespace SemanticLayer

-- Planning stops at the first thing that cannot be planned, and its error is the error of the whole.

theorem bind_failed {ε α β : Type} {first : Except ε α} {next : α → Except ε β} {error : ε}
    (failed : first >>= next = .error error) :
    first = .error error ∨ ∃ value, first = .ok value ∧ next value = .error error := by
  cases first with
  | error other => cases failed; exact .inl rfl
  | ok value => exact .inr ⟨value, rfl, failed⟩

theorem map_failed {ε α β : Type} {first : Except ε α} {result : α → β} {error : ε}
    (failed : result <$> first = .error error) : first = .error error := by
  cases first with
  | error other => cases failed; rfl
  | ok value => cases failed

-- What holds of every expression that cannot be planned, and of every one that cannot be followed.
section
variable {fails strays : Expr → Scope → Error → Prop}

theorem fault_induction
    (literal : ∀ value scope error, planLiteral value = .error error →
      fails (.literal value) scope error)
    (lost : ∀ member side scope error, scope.locate member.domain member.name side = .error error →
      fails (.access member side) scope error)
    (calculated : ∀ domain name expr side scope path error,
      scope.locate domain name side = .ok path → fails expr (.at path) error →
      fails (.access ⟨domain, name, .value expr⟩ side) scope error)
    (record : ∀ domain name target table condition side scope,
      fails (.access ⟨domain, name, .reference target table condition⟩ side) scope
        (.referenceAsValue domain name))
    (reference : ∀ reference composition scope error, strays reference scope error →
      fails (.compose reference composition) scope error)
    (composition : ∀ reference composition scope path hops error,
      reference.navigate scope = .ok (path, hops) → fails composition (.at path) error →
      fails (.compose reference composition) scope error)
    (left : ∀ operator left right type scope error, fails left scope error →
      fails (.binary operator left right type) scope error)
    (right : ∀ operator left right type scope planned error, left.plan scope = .ok planned →
      fails right scope error → fails (.binary operator left right type) scope error)
    (operand : ∀ function operand scope error, fails operand scope error →
      fails (.aggregate function operand) scope error)
    (column : ∀ domain name type scope error, scope.locate domain name .matching = .error error →
      fails (.column domain name type) scope error)
    (query : ∀ nested scope error, nested.plan = .error error → fails (.query nested) scope error)
    (adrift : ∀ member side scope error,
      scope.locate member.domain member.name side = .error error →
      strays (.access member side) scope error)
    (value : ∀ domain name expr side scope,
      strays (.access ⟨domain, name, .value expr⟩ side) scope (.notAReference domain name))
    (first : ∀ reference composition scope error, strays reference scope error →
      strays (.compose reference composition) scope error)
    (second : ∀ reference composition scope inner hops error,
      reference.navigate scope = .ok (inner, hops) → strays composition (.at inner) error →
      strays (.compose reference composition) scope error)
    (still : ∀ expr scope, strays expr scope (.notNavigable expr.type)) :
    (∀ expr scope error, expr.plan scope = .error error → fails expr scope error) ∧
      ∀ expr scope error, expr.navigate scope = .error error → strays expr scope error := by
  have whole := Expr.plan.mutual_induct
    (fun expr scope => ∀ error, expr.plan scope = .error error → fails expr scope error)
    (fun _ => True) (fun _ _ => True)
    (fun expr scope => ∀ error, expr.navigate scope = .error error → strays expr scope error)
    ?literal ?mapped ?calculated ?record ?compose ?binary ?countAll ?aggregate ?column ?query
    ?followed ?stuck ?chained ?other ?statement ?none ?more
  · exact ⟨whole.1, whole.2.2.2⟩
  case literal =>
    intro value scope error failed
    rw [Expr.plan] at failed
    exact literal value scope error failed
  case mapped =>
    intro domain name owner column type side scope error failed
    rw [Expr.plan] at failed
    rcases bind_failed failed with nowhere | ⟨path, _, made⟩
    · exact lost _ side scope error nowhere
    · cases made
  case calculated =>
    intro domain name expr side scope other ih error failed
    rw [Expr.plan] at failed
    · rcases bind_failed failed with nowhere | ⟨path, found, failed⟩
      · exact lost _ side scope error nowhere
      · exact calculated domain name expr side scope path error found (ih path error failed)
    · exact other
  case record =>
    intro domain name target table condition side scope error failed
    rw [Expr.plan] at failed
    rcases bind_failed failed with nowhere | ⟨_, _, thrown⟩
    · exact lost _ side scope error nowhere
    · cases thrown
      exact record domain name target table condition side scope
  case compose =>
    intro reference' composition' scope one two error failed
    rw [Expr.plan] at failed
    rcases bind_failed failed with astray | ⟨⟨path, hops⟩, led, failed⟩
    · exact reference reference' composition' scope error (one error astray)
    · rcases bind_failed failed with failed | ⟨_, _, made⟩
      · exact composition reference' composition' scope path hops error led (two path error failed)
      · cases made
  case binary =>
    intro operator left' right' type scope one two error failed
    rw [Expr.plan] at failed
    rcases bind_failed failed with failed | ⟨planned, made, failed⟩
    · exact left operator left' right' type scope error (one error failed)
    · rcases bind_failed failed with failed | ⟨_, _, made⟩
      · exact right operator left' right' type scope planned error made (two error failed)
      · cases made
  case countAll =>
    intro scope error failed
    rw [Expr.plan] at failed
    cases failed
  case aggregate =>
    intro function operand' scope ih error failed
    rw [Expr.plan] at failed
    rcases bind_failed failed with failed | ⟨_, _, made⟩
    · exact operand function operand' scope error (ih error failed)
    · cases made
  case column =>
    intro domain name type scope error failed
    rw [Expr.plan] at failed
    rcases bind_failed failed with nowhere | ⟨_, _, made⟩
    · exact column domain name type scope error nowhere
    · cases made
  case query =>
    intro nested scope _ error failed
    rw [Expr.plan] at failed
    rcases bind_failed failed with failed | ⟨_, _, made⟩
    · exact query nested scope error failed
    · cases made
  case followed =>
    intro domain name target table condition side scope _ error failed
    rw [Expr.navigate] at failed
    rcases bind_failed failed with nowhere | ⟨_, _, made⟩
    · exact adrift _ side scope error nowhere
    · cases made
  case stuck =>
    intro domain name expr side scope error failed
    rw [Expr.navigate] at failed
    rcases bind_failed failed with nowhere | ⟨_, _, thrown⟩
    · exact adrift _ side scope error nowhere
    · cases thrown
      exact value domain name expr side scope
  case chained =>
    intro reference' composition' scope one two error failed
    rw [Expr.navigate] at failed
    rcases bind_failed failed with astray | ⟨⟨inner, hops⟩, led, failed⟩
    · exact first reference' composition' scope error (one error astray)
    · rcases bind_failed failed with astray | ⟨_, _, made⟩
      · exact second reference' composition' scope inner hops error led (two inner error astray)
      · cases made
  case other =>
    intro expr scope noReference noValue noChain error failed
    rw [Expr.navigate] at failed
    · cases failed
      exact still expr scope
    · exact noReference
    · exact noValue
    · exact noChain
  case statement => intros; trivial
  case none => intros; trivial
  case more => intros; trivial

end

def Breaks (readings : List Reading) (error : Error) : Prop :=
  ∃ before reading after, readings = before ++ reading :: after ∧
    (∀ earlier ∈ before, earlier.Planned) ∧ reading.expr.plan reading.scope = .error error

theorem breaks_here (failed : Expr.plan (Reading.expr reading) reading.scope = .error error) :
    Breaks (reading :: rest) error :=
  ⟨[], reading, rest, rfl, by simp, failed⟩

theorem breaks_left (more : List Reading) (breaks : Breaks readings error) :
    Breaks (readings ++ more) error := by
  obtain ⟨before, reading, after, rfl, planned, failed⟩ := breaks
  exact ⟨before, reading, after ++ more, by simp, planned, failed⟩

theorem breaks_later (planned : Reading.Planned reading) (breaks : Breaks readings error) :
    Breaks (reading :: readings) error := by
  obtain ⟨before, later, after, rfl, plannedMore, failed⟩ := breaks
  exact ⟨reading :: before, later, after, rfl, List.forall_mem_cons.mpr ⟨planned, plannedMore⟩, failed⟩

theorem breaks_right (planned : ∀ earlier ∈ first, Reading.Planned earlier)
    (breaks : Breaks readings error) : Breaks (first ++ readings) error := by
  induction first with
  | nil => exact breaks
  | cons reading rest ih =>
    obtain ⟨here, more⟩ := List.forall_mem_cons.mp planned
    exact breaks_later here (ih more)

theorem projections_break (role : Projection → Role Path) (projections : List Projection)
    (failed : planProjections root projections = .error error) :
    Breaks (projections.map fun p => ⟨role p, p.expr, .at root⟩) error := by
  induction projections with
  | nil =>
    rw [planProjections] at failed
    cases failed
  | cons p rest ih =>
    obtain ⟨label, expr⟩ := p
    rw [planProjections] at failed
    rw [List.map_cons]
    rcases bind_failed failed with failed | ⟨planned, made, failed⟩
    · exact breaks_here failed
    · rcases bind_failed failed with failed | ⟨_, _, made⟩
      · exact breaks_later ⟨planned, made⟩ (ih failed)
      · cases made

theorem ofPlan_failed (failed : Condition.ofPlan result = .failed error) :
    result = .error error := by
  cases result with
  | error error => cases failed; rfl
  | ok planned => cases failed

theorem tour_next (absent : Leg.path leg ∉ done.map Leg.path)
    (tour : Tour done.length ((leg :: todo).foldl enlist done) (done ++ fresh)) :
    ∃ later, fresh = leg :: later ∧ Tour (done.length + 1)
      (leg.onward.foldl enlist (todo.foldl enlist (done ++ [leg]))) (done ++ [leg] ++ later) := by
  have added : enlist done leg = done ++ [leg] := if_neg absent
  rw [List.foldl_cons, added] at tour
  have kept := enlist_extends todo (done ++ [leg])
  obtain ⟨later, split⟩ := (List.prefix_append_right_inj done).mp (kept.trans (tour_extends tour))
  have here : (todo.foldl enlist (done ++ [leg]))[done.length]? = some leg := by
    simpa using List.prefix_iff_getElem?.mp kept done.length (by simp)
  refine ⟨later, split.symm, ?_⟩
  rw [List.append_assoc, split]
  generalize done ++ fresh = whole at tour ⊢
  generalize todo.foldl enlist (done ++ [leg]) = known at tour here ⊢
  cases tour with
  | finish past => simp [List.getElem?_eq_none past] at here
  | visit found rest =>
    cases found.symm.trans here
    exact rest

theorem joins_break (todo done fresh : List Leg)
    (same : ∀ leg : Leg, leg.path ∈ seen ↔ leg.path ∈ done.map Leg.path)
    (tour : Tour done.length (todo.foldl enlist done) (done ++ fresh))
    (failed : joinClauses seen (todo.map Leg.hop) = .error error) :
    Breaks (fresh.map Leg.reading) error := by
  generalize listed : todo.map Leg.hop = hops at failed
  induction seen, hops using joinClauses.induct generalizing todo done fresh with
  | case1 seen =>
    rw [joinClauses] at failed
    cases failed
  | case2 seen path table condition rest present ih =>
    obtain ⟨leg, todo, rfl, same_hop, same_rest⟩ := List.map_eq_cons_iff.mp listed
    cases same_hop
    rw [joinClauses_seen present] at failed
    have idle : enlist done leg = done := if_pos ((same leg).mp present)
    rw [List.foldl_cons, idle] at tour
    exact ih todo done fresh same tour same_rest failed
  | case3 seen path table condition rest absent other stopped =>
    obtain ⟨leg, todo, rfl, same_hop, same_rest⟩ := List.map_eq_cons_iff.mp listed
    cases same_hop
    rw [joinClauses_failed absent stopped] at failed
    cases failed
    obtain ⟨later, rfl, _⟩ := tour_next (fun known => absent ((same leg).mpr known)) tour
    exact breaks_here (ofPlan_failed stopped)
  | case4 seen path table condition rest absent term hops planned ih =>
    obtain ⟨leg, todo, rfl, same_hop, same_rest⟩ := List.map_eq_cons_iff.mp listed
    cases same_hop
    rw [joinClauses_planned absent planned] at failed
    have read := ofPlan_planned planned
    have onward : hops = leg.onward.map Leg.hop := plan_legs.1 _ _ _ read
    obtain ⟨later, rfl, rest_tour⟩ := tour_next (fun known => absent ((same leg).mpr known)) tour
    rcases bind_failed failed with failed | ⟨_, _, made⟩
    · refine breaks_later ⟨_, read⟩ (ih (todo ++ leg.onward) (done ++ [leg]) later ?_ ?_ ?_ failed)
      · intro other
        simp [same other, or_comm]
      · simpa [List.foldl_append] using rest_tour
      · rw [List.map_append, same_rest, onward]
    · cases made

theorem columns_planned (role : Projection → Role Path) {ps : List Projection}
    (planned : List.Forall₂ (PlansColumn root) projections columns)
    (kept : ∀ p ∈ ps, p ∈ projections) :
    ∀ reading ∈ ps.map (fun p => ⟨role p, p.expr, .at root⟩), Reading.Planned reading := by
  intro reading member
  obtain ⟨p, present, rfl⟩ := List.mem_map.mp member
  obtain ⟨column, _, _, made⟩ := forall₂_left planned (kept p present)
  exact ⟨column.2, made⟩

theorem filter_planned (planned : List.Forall₂ (PlansAt root) filters plans) :
    ∀ reading ∈ filters.map (fun condition => ⟨.filter, condition, .at root⟩),
      Reading.Planned reading := by
  intro reading member
  obtain ⟨condition, present, rfl⟩ := List.mem_map.mp member
  obtain ⟨planned, _, made⟩ := forall₂_left planned present
  exact ⟨planned, made⟩

section
variable {q : Query} (tours : q.Tours whole)
  (columns : List.Forall₂ (PlansColumn (.root q.source)) q.projections planned)

include columns in
theorem filter_breaks (failed : Breaks
      (q.filter.toList.map fun condition => ⟨.filter, condition, .at (.root q.source)⟩) error) :
    Breaks (q.readings whole) error :=
  breaks_left _ (breaks_left _ (breaks_right (columns_planned _ columns fun _ member => member) failed))

include tours columns in
-- The grouping never breaks: what it reads has been planned among the columns.
theorem joins_breaks {restriction : Option Planned}
    (filtered : List.Forall₂ (PlansAt (.root q.source)) q.filter.toList restriction.toList)
    (failed : joinClauses [.root q.source] (planned.flatMap (·.2.hops) ++
      (restriction.map (·.hops)).getD []) = .error error) : Breaks (q.readings whole) error := by
  rw [outset_hops columns filtered] at failed
  have joins := joins_break q.outset [] whole (root_unseen q.source) tours failed
  refine breaks_right ?_ joins
  intro reading member
  rcases List.mem_append.mp member with early | grouped
  · rcases List.mem_append.mp early with column | filter
    · exact columns_planned (.select ·.label) columns (fun _ member => member) reading column
    · exact filter_planned filtered reading filter
  · exact columns_planned (fun _ => .group) columns (fun _ member => grouped_selected member) reading
      grouped

end

theorem plan_breaks (tours : Query.Tours q whole) (failed : q.plan = .error error) :
    Breaks (q.readings whole) error := by
  obtain ⟨name, source, table, projections, filter⟩ := q
  rw [Query.plan] at failed
  rcases bind_failed failed with failed | ⟨columns, madeColumns, failed⟩
  · exact breaks_left _ (breaks_left _ (breaks_left _ (projections_break _ projections failed)))
  have planned := planProjections_parts projections madeColumns
  cases filter with
  | none =>
    rcases bind_failed failed with impossible | ⟨restriction, none_made, failed⟩
    · cases impossible
    cases none_made
    rcases bind_failed failed with failed | ⟨_, _, made⟩
    · exact joins_breaks tours planned .nil failed
    · cases made
  | some condition =>
    rcases bind_failed failed with failed | ⟨restriction, some_made, failed⟩
    · refine filter_breaks planned (breaks_here ?_)
      exact map_failed failed
    · obtain ⟨first, filtered, rfl⟩ := map_parts some_made
      have one : List.Forall₂ (PlansAt (.root source)) [condition] (some first).toList :=
        .cons filtered .nil
      rcases bind_failed failed with failed | ⟨_, _, made⟩
      · exact joins_breaks tours planned one failed
      · cases made

-- A reading on the list is read at the root, or it is the condition of a leg, and what stands before
-- it is then what the legs before that one leave to be read.
theorem readings_split (split : Query.readings q whole = before ++ reading :: after) :
    reading.scope = .at (.root q.source) ∨ ∃ first leg rest, whole = first ++ leg :: rest ∧
      reading = leg.reading ∧ before = q.readings first := by
  have parts : q.readings whole = q.readings [] ++ whole.map Leg.reading := readings_append q [] whole
  rw [parts] at split
  rcases List.append_eq_append_iff.mp split with ⟨more, early, late⟩ | ⟨more, early, late⟩
  · obtain ⟨first, rest, rfl, same, sameRest⟩ := List.map_eq_append_iff.mp late
    obtain ⟨leg, rest, rfl, sameLeg, _⟩ := List.map_eq_cons_iff.mp sameRest
    exact .inr ⟨first, leg, rest, rfl, sameLeg.symm, by rw [early, ← same, ← readings_append]; rfl⟩
  · cases more with
    | nil =>
      obtain ⟨leg, rest, rfl, sameLeg, _⟩ := List.map_eq_cons_iff.mp late.symm
      exact .inr ⟨[], leg, rest, rfl, sameLeg.symm, by simpa using early.symm⟩
    | cons first more =>
      cases (List.cons.inj late).1
      have listed : reading ∈ q.readings [] := by
        rw [early]
        exact List.mem_append_right _ List.mem_cons_self
      rcases readings_cases listed with ⟨here, _⟩ | ⟨leg, impossible, _⟩
      · exact .inl here
      · cases impossible

-- What fails is the planning: aliases, numbers and text can always be made.
theorem sqlFrom_failed (failed : Query.sqlFrom q n = .error error) : q.plan = .error error := by
  rcases bind_failed failed with failed | ⟨_, _, made⟩
  · rcases bind_failed failed with failed | ⟨_, _, made⟩
    · exact failed
    · cases made
  · cases made

end SemanticLayer
