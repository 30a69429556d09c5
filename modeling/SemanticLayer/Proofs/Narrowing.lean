import SemanticLayer.Proofs.Sources

namespace SemanticLayer

-- The queries that stand among the operands of an expression. The scope of a condition leaves them
-- out; the source of the expression counts them.
def Expr.operandQueries : Expr → List Query
  | .query nested => [nested]
  | .binary _ left right _ => left.operandQueries ++ right.operandQueries
  | .aggregate _ operand => operand.operandQueries
  | _ => []

def Expr.conjoined (first : Expr) (rest : List Expr) : Expr :=
  rest.foldl (fun all condition => .binary .and all condition .boolean) first

namespace Query

def Accepts (q : Query) (condition : Expr) : Prop := ∃ next, q.setFilter condition = .ok next

-- A query that is kept and narrowed in its place: a call that fails leaves it as it was.
def narrowed (q : Query) (condition : Expr) : Query := (q.restrict condition).toOption.getD q

end Query

def Inside (domain : String) (source : Option Source) : Prop :=
  source = none ∨ source = some (.domain domain)

theorem inside_union (one : Inside domain first) (two : Inside domain second) :
    ∃ both, Source.union first second = .ok both ∧ Inside domain both := by
  rcases one with rfl | rfl <;> rcases two with rfl | rfl <;> simp [Source.union, Inside]

theorem checkScope_inside (expr : Expr) (domain : String) :
    expr.checkScope domain = .ok () ↔ ∃ scope, expr.enclosing = .ok scope ∧ Inside domain scope := by
  unfold Expr.checkScope Inside
  cases expr.enclosing with
  | error fault => simp [bind, Except.bind]
  | ok scope =>
    cases scope with
    | none => simp [bind, Except.bind, pure, Except.pure]
    | some source =>
      by_cases own : source = .domain domain <;>
        simp [own, bind, Except.bind, pure, Except.pure, throw, throwThe, MonadExceptOf.throw]

theorem accepts_iff (q : Query) (condition : Expr) :
    q.Accepts condition ↔ condition.type = .boolean ∧ condition.checkScope q.source = .ok () := by
  constructor
  · rintro ⟨next, made⟩
    obtain ⟨boolean, inside, _⟩ := setFilter_parts made
    exact ⟨boolean, inside⟩
  · rintro ⟨boolean, inside⟩
    exact ⟨{ q with filter := some condition }, by simp [Query.setFilter, boolean, inside]⟩

theorem accepts_set (accepts : Query.Accepts q condition) :
    q.setFilter condition = .ok { q with filter := some condition } := by
  obtain ⟨next, made⟩ := accepts
  rw [made, (setFilter_parts made).2.2]

theorem both_accepted (one : Query.Accepts q left) (two : q.Accepts right) :
    q.Accepts (.binary .and left right .boolean) := by
  rw [accepts_iff, checkScope_inside] at one two ⊢
  obtain ⟨_, first, readLeft, insideLeft⟩ := one
  obtain ⟨_, second, readRight, insideRight⟩ := two
  obtain ⟨both, united, inside⟩ := inside_union insideLeft insideRight
  refine ⟨rfl, both, ?_, inside⟩
  simp [Expr.enclosing, readLeft, readRight, united, bind, Except.bind]

-- One step: whether the conjunction can be made is a matter of the sources alone, since it is within
-- the scope of the query when its two sides are.
theorem restrict_filtered (filtered : Query.filter q = some old) (one : q.Accepts old)
    (two : q.Accepts condition) :
    q.restrict condition = Source.union old.source condition.source >>= fun _ =>
      .ok { q with filter := some (.binary .and old condition .boolean) } := by
  unfold Query.restrict Expr.both Expr.operation
  rw [filtered]
  dsimp only
  cases Source.union old.source condition.source with
  | error error => rfl
  | ok source => exact accepts_set (both_accepted one two)

theorem restrict_unfiltered (unfiltered : Query.filter q = none) (alone : q.Accepts condition) :
    q.restrict condition = .ok { q with filter := some condition } := by
  unfold Query.restrict
  rw [unfiltered]
  exact accepts_set alone

theorem accepts_kept (accepts : Query.Accepts q condition) (filter : Option Expr) :
    Query.Accepts { q with filter := filter } condition := by
  rw [accepts_iff] at accepts ⊢
  exact accepts

theorem restricts_filtered (rest : List Expr) (filtered : Query.filter q = some first)
    (one : q.Accepts first) (alone : ∀ condition ∈ rest, q.Accepts condition) :
    rest.foldlM Query.restrict q = (rest.map Expr.source).foldlM Source.union first.source >>=
      fun _ => .ok { q with filter := some (first.conjoined rest) } := by
  induction rest generalizing q first with
  | nil =>
    obtain ⟨name, source, table, projections, filter⟩ := q
    cases filtered
    rfl
  | cons condition rest ih =>
    have here := alone condition List.mem_cons_self
    rw [List.foldlM_cons, List.map_cons, List.foldlM_cons, restrict_filtered filtered one here]
    cases united : Source.union first.source condition.source with
    | error error => rfl
    | ok both =>
      have next := ih (q := { q with filter := some (.binary .and first condition .boolean) }) rfl
        (accepts_kept (both_accepted one here) _)
        fun later member => accepts_kept (alone later (List.mem_cons_of_mem _ member)) _
      -- The next source is united with that of the filter as it has become.
      have joined : (Expr.binary .and first condition .boolean).source = both := by
        rw [Expr.source, united]
      rw [joined] at next
      exact next

theorem restricts_conjoined (unfiltered : Query.filter q = none) (first : Expr) (rest : List Expr)
    (alone : ∀ condition ∈ first :: rest, q.Accepts condition) :
    (first :: rest).foldlM Query.restrict q =
      (rest.map Expr.source).foldlM Source.union first.source >>=
        fun _ => .ok { q with filter := some (first.conjoined rest) } := by
  have here := alone first List.mem_cons_self
  have later := restricts_filtered (q := { q with filter := some first }) rest rfl
    (accepts_kept here _) fun condition member =>
      accepts_kept (alone condition (List.mem_cons_of_mem _ member)) _
  rw [List.foldlM_cons, restrict_unfiltered unfiltered here]
  exact later

theorem enclosing_source (expr : Expr) (built : expr.Built) (plain : expr.operandQueries = []) :
    expr.enclosing = .ok expr.source := by
  fun_induction Expr.enclosing expr with
  | case1 nested => cases plain
  | case2 operator left right type one two =>
    obtain ⟨builtLeft, builtRight, _, both, united⟩ := binary_built built
    obtain ⟨plainLeft, plainRight⟩ := List.append_eq_nil_iff.mp plain
    rw [one builtLeft plainLeft, two builtRight plainRight]
    simp [Expr.source, united, bind, Except.bind]
  | case3 function operand ih => exact ih (aggregate_built built).1 plain
  | case4 => rfl

theorem plain_inside (expr : Expr) (built : expr.Built) (plain : expr.operandQueries = [])
    (accepts : Query.Accepts q expr) : Inside q.source expr.source := by
  rw [accepts_iff, checkScope_inside] at accepts
  obtain ⟨_, scope, read, inside⟩ := accepts
  cases (enclosing_source expr built plain).symm.trans read
  exact inside

theorem inside_unions (sources : List (Option Source)) (start : Inside domain first)
    (all : ∀ source ∈ sources, Inside domain source) :
    ∃ last, sources.foldlM Source.union first = .ok last := by
  induction sources generalizing first with
  | nil => exact ⟨first, rfl⟩
  | cons source rest ih =>
    obtain ⟨here, later⟩ := List.forall_mem_cons.mp all
    obtain ⟨both, united, inside⟩ := inside_union start here
    obtain ⟨last, made⟩ := ih inside later
    exact ⟨last, by rw [List.foldlM_cons, united]; exact made⟩

theorem narrowed_failed (failed : Query.restrict q condition = .error error) :
    q.narrowed condition = q := by
  simp [Query.narrowed, failed, Except.toOption]

theorem narrowed_kept (conditions : List Expr) (q : Query) :
    ∃ kept : List Expr, kept.Sublist conditions ∧
      kept.foldlM Query.restrict q = .ok (conditions.foldl Query.narrowed q) := by
  induction conditions generalizing q with
  | nil => exact ⟨[], .slnil, rfl⟩
  | cons condition rest ih =>
    obtain ⟨kept, sublist, made⟩ := ih (q.narrowed condition)
    cases ran : q.restrict condition with
    | error error =>
      rw [narrowed_failed ran] at made
      exact ⟨kept, sublist.cons condition, by rw [List.foldl_cons, narrowed_failed ran, made]⟩
    | ok next =>
      have same : q.narrowed condition = next := by simp [Query.narrowed, ran, Except.toOption]
      rw [same] at made
      exact ⟨condition :: kept, sublist.cons_cons condition, by
        rw [List.foldlM_cons, List.foldl_cons, same, ran]; exact made⟩

-- Conditions that a query accepts one by one are all accepted, and their conjunction becomes its
-- filter, unless what they read with the queries among their operands cannot be brought together.
-- Conditions without such queries always can be.
theorem restricts_accepted (q : Query) (unfiltered : q.filter = none) (first : Expr)
    (rest : List Expr) (alone : ∀ condition ∈ first :: rest, q.Accepts condition) :
    (first :: rest).foldlM Query.restrict q =
        (rest.map Expr.source).foldlM Source.union first.source >>=
          (fun _ => .ok { q with filter := some (first.conjoined rest) }) ∧
      ((∀ condition ∈ first :: rest, condition.Built ∧ condition.operandQueries = []) →
        (first :: rest).foldlM Query.restrict q =
          .ok { q with filter := some (first.conjoined rest) }) ∧
      (∀ p condition error, Query.restrict p condition = .error error → p.narrowed condition = p) ∧
      ∀ p conditions, ∃ kept : List Expr, kept.Sublist conditions ∧
        kept.foldlM Query.restrict p = .ok (conditions.foldl Query.narrowed p) := by
  have outcome := restricts_conjoined unfiltered first rest alone
  refine ⟨outcome, ?_, fun p condition error failed => narrowed_failed failed,
    fun p conditions => narrowed_kept conditions p⟩
  intro plain
  have inside : ∀ condition ∈ first :: rest, Inside q.source condition.source :=
    fun condition member => plain_inside condition (plain condition member).1
      (plain condition member).2 (alone condition member)
  obtain ⟨here, later⟩ := List.forall_mem_cons.mp inside
  obtain ⟨last, united⟩ := inside_unions (rest.map Expr.source) here (by simpa using later)
  rw [outcome, united]
  rfl

namespace Payroll

def wellPaid : Expr :=
  .binary .greaterThan (.read "staff" "salary" .integer) (.literal (.integer 10)) .boolean

def notNew : Expr := .binary .lessThan (.read "staff" "id" .integer) (.literal (.integer 100)) .boolean

def names : Query := ⟨"names", "staff", "staff", [⟨"name", .read "staff" "name" .string⟩], none⟩

def listed : Expr := .binary .isIn (.read "staff" "name" .string) (.query names) .boolean

def report : Query := .start "report" ⟨"staff", "staff", []⟩

theorem compared_built
    (made : Expr.operation operator (.read "staff" name type) (.literal value) = .ok expr) :
    expr.Built :=
  .operation (read_built "staff" name type .matching) (.literal value) made

theorem report_restricts : report.filter = none ∧
    (∀ condition ∈ [wellPaid, notNew], report.Accepts condition) ∧
    (∀ condition ∈ [wellPaid, notNew], condition.Built ∧ condition.operandQueries = []) ∧
    [wellPaid, notNew].foldlM Query.restrict report =
      .ok { report with filter := some (.binary .and wellPaid notNew .boolean) } := by
  have alone : ∀ condition ∈ [wellPaid, notNew], report.Accepts condition := by
    simp only [List.forall_mem_cons, List.not_mem_nil, false_implies, implies_true, and_true]
    exact ⟨⟨_, rfl⟩, ⟨_, rfl⟩⟩
  have paid : Expr.operation .greaterThan (.read "staff" "salary" .integer) (.literal (.integer 10)) =
      .ok wellPaid := rfl
  have older : Expr.operation .lessThan (.read "staff" "id" .integer) (.literal (.integer 100)) =
      .ok notNew := rfl
  have plain : ∀ condition ∈ [wellPaid, notNew],
      condition.Built ∧ condition.operandQueries = [] := by
    simp only [List.forall_mem_cons, List.not_mem_nil, false_implies, implies_true, and_true]
    exact ⟨⟨compared_built paid, rfl⟩, compared_built older, rfl⟩
  exact ⟨rfl, alone, plain, (restricts_accepted report rfl wellPaid [notNew] alone).2.1 plain⟩

-- Each of the two conditions can be the filter, but not both.
theorem listed_refused : ¬ ∀ (q : Query) (first second : Expr), first.Built → second.Built →
    q.filter = none → q.Accepts first → q.Accepts second →
    [first, second].foldlM Query.restrict q =
      .ok { q with filter := some (.binary .and first second .boolean) } := by
  intro always
  have names_built : names.Built :=
    .select (.start "names" ⟨"staff", "staff", []⟩) (read_built "staff" "name" .string .matching) rfl
  have listing : Expr.operation .isIn (.read "staff" "name" .string) (.query names) = .ok listed := rfl
  have listed_built : listed.Built :=
    .operation (read_built "staff" "name" .string .matching) (.query names_built) listing
  have paid : Expr.operation .greaterThan (.read "staff" "salary" .integer) (.literal (.integer 10)) =
      .ok wellPaid := rfl
  have refused : [listed, wellPaid].foldlM Query.restrict report =
      .error (.sourcesDisagree (.cross "staff" "names") (.domain "staff")) := rfl
  have made := always report listed wellPaid listed_built (compared_built paid) rfl ⟨_, rfl⟩ ⟨_, rfl⟩
  rw [refused] at made
  cases made

end Payroll

end SemanticLayer
