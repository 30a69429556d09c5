import SemanticLayer.Formula
import SemanticLayer.Proofs.Faults
import SemanticLayer.Proofs.Formation
import SemanticLayer.Statement.Sql

namespace SemanticLayer

def Query.Step.selects : Query.Step → Bool
  | .select _ | .selectAs _ _ | .selectFormula _ _ => true
  | .restrict _ | .restrictTo _ => false

-- Both orders are kept, that of the columns and that of the restrictions.
def Query.Interleaves (selections restrictions steps : List Query.Step) : Prop :=
  steps.filter (·.selects) = selections ∧ steps.filter (!·.selects) = restrictions

def Query.withFilter (filter : Option Expr) (q : Query) : Query := { q with filter := filter }

def Query.withColumns (projections : List Projection) (q : Query) : Query :=
  { q with projections := projections }

theorem select_withFilter (filter : Option Expr) (q : Query) (label : String) (expr : Expr) :
    (q.withFilter filter).select label expr = Query.withFilter filter <$> q.select label expr := by
  unfold Query.select
  dsimp only [Query.withFilter]
  split <;> rfl

theorem setFilter_withColumns (projections : List Projection) (q : Query) (condition : Expr) :
    (q.withColumns projections).setFilter condition =
      Query.withColumns projections <$> q.setFilter condition := by
  unfold Query.setFilter
  dsimp only [Query.withColumns]
  split
  · rfl
  · split <;> rfl

theorem restrict_withColumns (projections : List Projection) (q : Query) (condition : Expr) :
    (q.withColumns projections).restrict condition =
      Query.withColumns projections <$> q.restrict condition := by
  unfold Query.restrict
  have kept : (q.withColumns projections).filter = q.filter := rfl
  rw [kept]
  cases q.filter with
  | none => exact setFilter_withColumns projections q condition
  | some old =>
    dsimp only
    cases Expr.both old condition with
    | error error => rfl
    | ok both => exact setFilter_withColumns projections q both

theorem bind_framed {ε α σ : Type} {first : Except ε α} {next framed : α → Except ε σ}
    (change : σ → σ) (same : ∀ value, framed value = change <$> next value) :
    first >>= framed = change <$> (first >>= next) := by
  cases first with
  | error error => rfl
  | ok value => exact same value

theorem foldlM_framed {ε α σ : Type} {f : σ → α → Except ε σ} (change : σ → σ) (items : List α)
    (step : ∀ item ∈ items, ∀ s, f (change s) item = change <$> f s item) (s : σ) :
    items.foldlM f (change s) = change <$> items.foldlM f s := by
  induction items generalizing s with
  | nil => rfl
  | cons item rest ih =>
    rw [List.foldlM_cons, List.foldlM_cons, step item List.mem_cons_self]
    cases f s item with
    | error error => rfl
    | ok next => exact ih (fun later member => step later (List.mem_cons_of_mem item member)) next

-- What the columns alone and the restrictions alone come to, and what all of them come to. A run
-- that fails has the error of the one or of the other.
def Query.Combines (columns filtered result : Except Error Query) : Prop :=
  match result with
  | .ok q => ∃ a b, columns = .ok a ∧ filtered = .ok b ∧ q = a.withFilter b.filter
  | .error error => columns = .error error ∨ filtered = .error error

theorem combines_columns (same : columns = Query.withFilter filter <$> before)
    (combines : Query.Combines columns filtered result) : Query.Combines before filtered result := by
  cases result with
  | ok q =>
    obtain ⟨a, b, made, other, rfl⟩ := combines
    obtain ⟨old, first, rfl⟩ := map_parts (same ▸ made)
    exact ⟨old, b, first, other, rfl⟩
  | error error => exact combines.imp_left fun failed => map_failed (same ▸ failed)

theorem combines_filtered (same : filtered = Query.withColumns projections <$> before)
    (combines : Query.Combines columns filtered result) : Query.Combines columns before result := by
  cases result with
  | ok q =>
    obtain ⟨a, b, other, made, rfl⟩ := combines
    obtain ⟨old, first, rfl⟩ := map_parts (same ▸ made)
    exact ⟨a, old, other, first, rfl⟩
  | error error => exact combines.imp_right fun failed => map_failed (same ▸ failed)

section
variable (model : Model) (d : Domain)

theorem step_withFilter (filter : Option Expr) (step : Query.Step) (selects : step.selects = true)
    (q : Query) : Query.step model d (q.withFilter filter) step =
      Query.withFilter filter <$> Query.step model d q step := by
  cases step with
  | select path => exact bind_framed _ (select_withFilter filter q (pathAlias path))
  | selectAs label path => exact bind_framed _ (select_withFilter filter q label)
  | selectFormula label formula => exact bind_framed _ (select_withFilter filter q label)
  | restrict | restrictTo => cases selects

theorem step_withColumns (projections : List Projection) (step : Query.Step)
    (restricts : step.selects = false) (q : Query) :
    Query.step model d (q.withColumns projections) step =
      Query.withColumns projections <$> Query.step model d q step := by
  cases step with
  | select | selectAs | selectFormula => cases restricts
  | restrict formula => exact bind_framed _ (restrict_withColumns projections q)
  | restrictTo condition => exact restrict_withColumns projections q condition

theorem step_selected (selects : Query.Step.selects step = true)
    (made : Query.step model d q step = .ok next) : ∃ projections, next = q.withColumns projections := by
  have selected : ∃ label expr, q.select label expr = .ok next := by
    cases step with
    | select | selectAs | selectFormula =>
      obtain ⟨expr, _, made⟩ := bind_parts made
      exact ⟨_, expr, made⟩
    | restrict | restrictTo => cases selects
  obtain ⟨label, expr, made⟩ := selected
  exact ⟨_, (select_parts made).2⟩

theorem step_restricted (restricts : Query.Step.selects step = false)
    (made : Query.step model d q step = .ok next) : ∃ filter, next = q.withFilter filter := by
  have restricted : ∃ condition, q.restrict condition = .ok next := by
    cases step with
    | select | selectAs | selectFormula => cases restricts
    | restrict formula =>
      obtain ⟨condition, _, made⟩ := bind_parts made
      exact ⟨condition, made⟩
    | restrictTo condition => exact ⟨condition, made⟩
  obtain ⟨condition, made⟩ := restricted
  obtain ⟨filter, made, _⟩ := restrict_parts made
  exact ⟨_, (setFilter_parts made).2.2⟩

theorem steps_combine (steps : List Query.Step) (q : Query) :
    Query.Combines ((steps.filter (·.selects)).foldlM (Query.step model d) q)
      ((steps.filter (!·.selects)).foldlM (Query.step model d) q)
      (steps.foldlM (Query.step model d) q) := by
  induction steps generalizing q with
  | nil =>
    have whole : q = q.withFilter q.filter := by cases q; rfl
    exact ⟨q, q, rfl, rfl, whole⟩
  | cons step rest ih =>
    cases kind : step.selects with
    | true =>
      simp only [List.filter_cons, kind, Bool.not_true, if_true, Bool.false_eq_true, if_false,
        List.foldlM_cons]
      cases made : Query.step model d q step with
      | error error => exact .inl rfl
      | ok next =>
        obtain ⟨projections, rfl⟩ := step_selected model d kind made
        refine combines_filtered (foldlM_framed _ _ ?_ q) (ih (q.withColumns projections))
        intro other member
        exact step_withColumns model d projections other (by simpa using (List.mem_filter.mp member).2)
    | false =>
      simp only [List.filter_cons, kind, Bool.not_false, if_true, Bool.false_eq_true, if_false,
        List.foldlM_cons]
      cases made : Query.step model d q step with
      | error error => exact .inr rfl
      | ok next =>
        obtain ⟨filter, rfl⟩ := step_restricted model d kind made
        refine combines_columns (foldlM_framed _ _ ?_ q) (ih (q.withFilter filter))
        intro other member
        exact step_withFilter model d filter other (List.mem_filter.mp member).2

end

def Query.Agree (build : List Query.Step → Except Error Query)
    (selections restrictions : List Query.Step) : Prop :=
  (∃ q, ∀ steps, Query.Interleaves selections restrictions steps →
    build steps = .ok q ∧ Query.asDomain <$> build steps = .ok q.asDomain ∧
      (build steps >>= Query.sql) = q.sql) ∨
  ∀ steps, Query.Interleaves selections restrictions steps →
    ∃ error, build steps = .error error ∧
      (build selections = .error error ∨ build restrictions = .error error)

theorem combines_agree {build : List Query.Step → Except Error Query}
    (combines : ∀ steps, Query.Combines (build (steps.filter (·.selects)))
      (build (steps.filter (!·.selects))) (build steps)) (selections restrictions : List Query.Step) :
    Query.Agree build selections restrictions := by
  by_cases both : ∃ a b, build selections = .ok a ∧ build restrictions = .ok b
  · obtain ⟨a, b, columns, filtered⟩ := both
    refine .inl ⟨a.withFilter b.filter, ?_⟩
    rintro steps ⟨rfl, rfl⟩
    have combined := combines steps
    have made : build steps = .ok (a.withFilter b.filter) := by
      cases result : build steps with
      | ok q =>
        rw [result] at combined
        obtain ⟨_, _, columns', filtered', rfl⟩ := combined
        cases columns.symm.trans columns'
        cases filtered.symm.trans filtered'
        rfl
      | error error => simp [result, Query.Combines, columns, filtered] at combined
    rw [made]
    exact ⟨rfl, rfl, rfl⟩
  · refine .inr ?_
    rintro steps ⟨rfl, rfl⟩
    have combined := combines steps
    cases result : build steps with
    | ok q =>
      rw [result] at combined
      obtain ⟨a, b, columns, filtered, _⟩ := combined
      exact absurd ⟨a, b, columns, filtered⟩ both
    | error error =>
      rw [result] at combined
      exact ⟨error, rfl, combined⟩

-- However columns and restrictions are mixed, over any domain and in any model, the query is the
-- same one, or there is none.
theorem interleavings_agree (model : Model) (name : String)
    (selections restrictions : List Query.Step) :
    (∀ d, Query.Agree (Query.build model name d) selections restrictions) ∧
      ∀ domain, Query.Agree (model.query name domain) selections restrictions := by
  have built : ∀ d steps, Query.Combines (Query.build model name d (steps.filter (·.selects)))
      (Query.build model name d (steps.filter (!·.selects))) (Query.build model name d steps) :=
    fun d steps => steps_combine model d steps (.start name d)
  refine ⟨fun d => combines_agree (built d) selections restrictions, fun domain => ?_⟩
  refine combines_agree (fun steps => ?_) selections restrictions
  unfold Model.query
  cases model.lookup domain with
  | error error => exact .inl rfl
  | ok d => exact built d steps

-- Where there is no query, it depends on the order which error is told.
example :
    (Query.build .empty "q" (.new "staff") [.select "name", .restrict (.path "age")] =
      .error (.unknownAttribute "staff" "name")) ∧
    Query.build .empty "q" (.new "staff") [.restrict (.path "age"), .select "name"] =
      .error (.unknownAttribute "staff" "age") :=
  ⟨rfl, rfl⟩

end SemanticLayer
