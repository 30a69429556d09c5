import Mathlib.Data.List.Forall2
import SemanticLayer.Proofs.Scoping
import SemanticLayer.Statement.Sql

namespace SemanticLayer

-- An access may be replaced wherever a value is asked for; the reference that a composition follows
-- is left as it is. What was put in place may be replaced in its turn.
inductive Expr.Inlines : Expr → Expr → Prop where
  | same (expr : Expr) : Inlines expr expr
  | access (side : Side) : Inlines expr other →
      Inlines (.access ⟨domain, name, .value expr⟩ side) other
  | compose (reference : Expr) : Inlines composition other →
      Inlines (.compose reference composition) (.compose reference other)
  -- The type that an operation carries is worked out anew.
  | binary : Inlines left one → Inlines right two →
      Inlines (.binary operator left right cached) (.binary operator one two other)
  | aggregate : Inlines operand other →
      Inlines (.aggregate function operand) (.aggregate function other)
  | query : r.name = q.name → r.source = q.source → r.table = q.table →
      List.Forall₂ (fun p s => s.label = p.label) q.projections r.projections →
      (∀ p s, (p, s) ∈ q.projections.zip r.projections → Inlines p.expr s.expr) →
      r.filter.isSome = q.filter.isSome →
      (∀ one ∈ q.filter, ∀ two ∈ r.filter, Inlines one two) → Inlines (.query q) (.query r)

def Query.Inlines (q r : Query) : Prop := (Expr.query q).Inlines (.query r)

structure Projection.Alike (root : Path) (p s : Projection) : Prop where
  label : s.label = p.label
  type : s.type = p.type
  plan : s.expr.plan (.at root) = p.expr.plan (.at root)

structure Query.Alike (q r : Query) : Prop where
  source : r.source = q.source
  table : r.table = q.table
  projections : List.Forall₂ (Projection.Alike (.root q.source)) q.projections r.projections
  filter : r.filter.map (·.plan (.at (.root q.source))) =
    q.filter.map (·.plan (.at (.root q.source)))

def Projection.shown (column : Projection × Planned) : String × Bool × Planned :=
  (column.1.label, column.1.isAggregate, column.2)

theorem planProjections_alike (alike : List.Forall₂ (Projection.Alike root) projections others) :
    (∃ error, planProjections root projections = .error error ∧
      planProjections root others = .error error) ∨
    ∃ columns more, planProjections root projections = .ok columns ∧
      planProjections root others = .ok more ∧
      more.map Projection.shown = columns.map Projection.shown := by
  induction alike with
  | nil => exact .inr ⟨[], [], rfl, rfl, rfl⟩
  | @cons p s rest others one _ ih =>
    obtain ⟨label, expr⟩ := p
    obtain ⟨other, changed⟩ := s
    have plan : changed.plan (.at root) = expr.plan (.at root) := one.plan
    rw [planProjections, planProjections, plan]
    cases expr.plan (.at root) with
    | error error => exact .inl ⟨error, rfl, rfl⟩
    | ok planned =>
      rcases ih with ⟨error, first, second⟩ | ⟨columns, more, first, second, same⟩
      · exact .inl ⟨error, by rw [first]; rfl, by rw [second]; rfl⟩
      · refine .inr ⟨(⟨label, expr⟩, planned) :: columns, (⟨other, changed⟩, planned) :: more,
          by rw [first]; rfl, by rw [second]; rfl, ?_⟩
        have head : Projection.shown (⟨other, changed⟩, planned) =
            Projection.shown (⟨label, expr⟩, planned) := by
          have type := one.type
          have label := one.label
          simp only [Projection.shown, Projection.isAggregate, type]
          exact Prod.ext label rfl
        rw [List.map_cons, List.map_cons, same, head]

section
variable {columns more : List (Projection × Planned)}
  (same : more.map Projection.shown = columns.map Projection.shown)
include same

theorem shown_selected :
    more.map (fun (p, planned) => (⟨.select p.label, planned.term⟩ : Clause Path Unit)) =
      columns.map (fun (p, planned) => ⟨.select p.label, planned.term⟩) := by
  simpa [Function.comp_def, Projection.shown] using
    congrArg (List.map fun shown => (⟨.select shown.1, shown.2.2.term⟩ : Clause Path Unit)) same

theorem shown_grouped :
    (more.filter (!·.1.isAggregate)).map
        (fun (_, planned) => (⟨.group, planned.term⟩ : Clause Path Unit)) =
      (columns.filter (!·.1.isAggregate)).map (fun (_, planned) => ⟨.group, planned.term⟩) := by
  simpa [List.filter_map, Function.comp_def, Projection.shown] using
    congrArg (fun shown => (shown.filter (!·.2.1)).map fun column =>
      (⟨.group, column.2.2.term⟩ : Clause Path Unit)) same

end

theorem columns_alike (alike : List.Forall₂ (Projection.Alike root) projections others) :
    others.any (·.isAggregate) = projections.any (·.isAggregate) := by
  induction alike with
  | nil => rfl
  | @cons p s _ _ one _ ih =>
    have aggregate : s.isAggregate = p.isAggregate := congrArg ExprType.isAggregate one.type
    rw [List.any_cons, List.any_cons, ih, aggregate]

-- The stages go through the columns side by side: they stop at the same error, or they come to
-- columns that show the same.
theorem plan_alike (alike : Query.Alike q r) : r.plan = q.plan := by
  obtain ⟨source, table, projections, filter⟩ := alike
  obtain ⟨name, domain, records, ps, condition⟩ := q
  obtain ⟨other, aim, others, rs, changed⟩ := r
  cases source
  cases table
  have aggregates := columns_alike projections
  rw [Query.plan, Query.plan]
  rcases planProjections_alike projections with
    ⟨error, first, second⟩ | ⟨columns, more, first, second, same⟩
  · rw [first, second]
    rfl
  · have hops : more.flatMap (·.2.hops) = columns.flatMap (·.2.hops) := by
      simpa [List.flatMap_map, Projection.shown] using congrArg (List.flatMap (·.2.2.hops)) same
    rw [first, second]
    simp only [bind, Except.bind, hops, shown_selected same, shown_grouped same, aggregates]
    rcases condition with _ | old <;> rcases changed with _ | new
    · rfl
    · cases filter
    · cases filter
    · have restriction : new.plan (.at (.root domain)) = old.plan (.at (.root domain)) :=
        Option.some.inj filter
      dsimp only
      rw [restriction]

theorem inlines_type (inlines : Expr.Inlines expr other) (built : expr.Built) (again : other.Built) :
    other.type = expr.type := by
  induction inlines with
  | same expr => rfl
  | access side _ ih => exact ih (value_built (access_built built)).1 again
  | compose reference _ ih => exact ih (compose_built built).2.1 (compose_built again).2.1
  | @binary left one right two operator cached other _ _ ihLeft ihRight =>
    obtain ⟨builtLeft, builtRight, typed, _⟩ := binary_built built
    obtain ⟨builtOne, builtTwo, retyped, _⟩ := binary_built again
    rw [ihLeft builtLeft builtOne, ihRight builtRight builtTwo] at retyped
    exact Except.ok.inj (retyped.symm.trans typed)
  | aggregate _ ih =>
    rw [Expr.type, Expr.type, ih (aggregate_built built).1 (aggregate_built again).1]
  | query name => exact congrArg ExprType.domain name

-- At the end of a path nothing is asked of the domain of an access: its definition is planned
-- there.
theorem access_plan (domain name : String) (expr : Expr) (side : Side) (path : Path) :
    (Expr.access ⟨domain, name, .value expr⟩ side).plan (.at path) = expr.plan (.at path) := by
  cases expr with
  | column owner column type => rw [Expr.plan, Expr.plan]; rfl
  | literal value => rw [Expr.plan]; rfl
  | _ =>
    rw [Expr.plan]
    · rfl
    · intro _ _ _ equal
      cases equal

theorem inlines_plan (inlines : Expr.Inlines expr other) (built : expr.Built) (again : other.Built)
    (path : Path) : other.plan (.at path) = expr.plan (.at path) := by
  induction inlines generalizing path with
  | same expr => rfl
  | @access expr other domain name side _ ih =>
    rw [access_plan]
    exact ih (value_built (access_built built)).1 again path
  | @compose composition other reference _ ih =>
    rw [Expr.plan, Expr.plan]
    refine congrArg _ (funext ?_)
    rintro ⟨inner, hops⟩
    dsimp only
    rw [ih (compose_built built).2.1 (compose_built again).2.1]
  | @binary left one right two operator cached other _ _ ihLeft ihRight =>
    rw [Expr.plan, Expr.plan, ihLeft (binary_built built).1 (binary_built again).1,
      ihRight (binary_built built).2.1 (binary_built again).2.1]
  | aggregate _ ih =>
    rw [Expr.plan, Expr.plan, ih (aggregate_built built).1 (aggregate_built again).1]
  | @query q r name source table labels columns filtered _ ihColumns ihFilter =>
    have before := built_checked (query_built built)
    have after := built_checked (query_built again)
    obtain ⟨length, labelled⟩ := List.forall₂_iff_zip.mp labels
    have alike : q.Alike r := by
      refine ⟨source, table, List.forall₂_iff_zip.mpr ⟨length, ?_⟩, ?_⟩
      · intro p s both
        have builtOld := (before.columns p (List.of_mem_zip both).1).1
        have builtNew := (after.columns s (List.of_mem_zip both).2).1
        exact ⟨labelled both, inlines_type (columns p s both) builtOld builtNew,
          ihColumns p s both builtOld builtNew (.root q.source)⟩
      · cases was : q.filter <;> cases now : r.filter
        · rfl
        · simp [was, now] at filtered
        · simp [was, now] at filtered
        · rename_i one two
          exact congrArg some (ihFilter one was two now (before.filter one was).1
            (after.filter two now).1 (.root q.source))
    rw [Expr.plan, Expr.plan, plan_alike alike]

theorem inlined_plan (inlines : Query.Inlines q r) (built : q.Built) (again : r.Built) :
    r.plan = q.plan := by
  have same := inlines_plan inlines (.query built) (.query again) (.root q.source)
  rw [Expr.plan, Expr.plan] at same
  revert same
  cases r.plan <;> cases q.plan <;> (intro same; cases same) <;> rfl

-- Attributes are put in place where they are read: the plans are the same with their joins and their
-- grouping, and so are statements, aliases and texts, or the errors.
theorem definitions_inlined (q r : Query) (built : q.Built) (again : r.Built)
    (inlines : q.Inlines r) :
    r.plan = q.plan ∧ (∀ counter, r.statement counter = q.statement counter) ∧
      (∀ counter, r.sqlFrom counter = q.sqlFrom counter) ∧ r.sql = q.sql := by
  have plan := inlined_plan inlines built again
  have statement (counter : Nat) : r.statement counter = q.statement counter := by
    rw [Query.statement, Query.statement, plan]
  have text (counter : Nat) : r.sqlFrom counter = q.sqlFrom counter := by
    rw [Query.sqlFrom, Query.sqlFrom, statement]
  exact ⟨plan, statement, text, by rw [Query.sql, Query.sql, text]⟩

namespace Fleet

def fromOslo : Expr :=
  .binary .equals (.read "drivers" "city" .string) (.literal (.string "Oslo")) .boolean

def native : Expr := .access ⟨"drivers", "native", .value fromOslo⟩ .matching

def driven (expr : Expr) : Expr := .compose (.access driver .matching) expr

def tally (expr : Expr) : Query :=
  ⟨"tally", "trucks", "trucks",
    [⟨"native", driven expr⟩, ⟨"trucks", .aggregate .count (driven expr)⟩], some (driven expr)⟩

theorem driven_built (built : expr.Built) (source : expr.source = some (.domain "drivers")) :
    (driven expr).Built :=
  .composed (compose_built city_built).1 built (if_pos source)

theorem tally_built (built : expr.Built) (source : expr.source = some (.domain "drivers"))
    (boolean : expr.type = .boolean) : (tally expr).Built := by
  have inner := driven_built built source
  have type : (driven expr).type = .boolean := boolean
  have counted : Expr.aggregated .count (some (driven expr)) =
      .ok (.aggregate .count (driven expr)) := by
    simp only [Expr.aggregated, type]
    rfl
  let first : Query := ⟨"tally", "trucks", "trucks", [⟨"native", driven expr⟩], none⟩
  let second : Query := ⟨"tally", "trucks", "trucks", (tally expr).projections, none⟩
  have one : (Query.start "tally" ⟨"trucks", "trucks", []⟩).select "native" (driven expr) =
      .ok first := rfl
  have two : first.select "trucks" (.aggregate .count (driven expr)) = .ok second := rfl
  have filtered : second.setFilter (driven expr) = .ok (tally expr) := by
    rw [Query.setFilter, if_neg (not_not.mpr type)]
    rfl
  exact .setFilter (.select (.select (.start _ _) inner one) (.aggregated inner counted) two) inner
    filtered

theorem tally_inlines : (tally native).Inlines (tally fromOslo) := by
  have inner : (driven native).Inlines (driven fromOslo) :=
    .compose _ (.access .matching (.same fromOslo))
  refine .query rfl rfl rfl (.cons rfl (.cons rfl .nil)) ?_ rfl ?_
  · intro p s both
    simp only [tally, List.zip_cons_cons, List.zip_nil_right, List.mem_cons, Prod.mk.injEq,
      List.not_mem_nil, or_false] at both
    rcases both with ⟨rfl, rfl⟩ | ⟨rfl, rfl⟩
    · exact inner
    · exact .aggregate inner
  · rintro one ⟨⟩ two ⟨⟩
    exact inner

theorem tally_inlined : (tally native).Built ∧ (tally fromOslo).Built ∧
    (tally native).Inlines (tally fromOslo) ∧ (tally fromOslo).sql = (tally native).sql := by
  have compared : Expr.operation .equals (.read "drivers" "city" .string)
      (.literal (.string "Oslo")) = .ok fromOslo := rfl
  have defined : fromOslo.Built :=
    .operation (read_built "drivers" "city" .string .matching) (.literal _) compared
  have member : Attribute.calculated "drivers" "native" fromOslo =
      .ok ⟨"drivers", "native", .value fromOslo⟩ := rfl
  have before := tally_built (.access .matching (.calculated defined member)) rfl rfl
  have after := tally_built defined rfl rfl
  exact ⟨before, after, tally_inlines,
    (definitions_inlined (tally native) (tally fromOslo) before after tally_inlines).2.2.2⟩

end Fleet

end SemanticLayer
