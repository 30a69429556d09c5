import SemanticLayer.Proofs.Grouping
import SemanticLayer.Proofs.Sources

namespace SemanticLayer

-- The type of an expression tells whether it is an aggregate. Comparisons and connectives are BOOLEAN
-- and tell nothing of their operands, so that nothing keeps track of calls in these.

namespace Term

-- Nested statements are not entered: they aggregate records of their own.
def aggregates {ρ ν : Type} (enters : Operator → Bool) : Term ρ ν → Bool
  | .binary operator left right =>
      enters operator && (left.aggregates enters || right.aggregates enters)
  | .countAll => true
  | .aggregate _ _ => true
  | _ => false

def apart {ρ ν : Type} (enters : Operator → Bool) : Term ρ ν → Bool
  | .binary _ left right => left.apart enters && right.apart enters
  | .aggregate _ operand => !operand.aggregates enters && operand.apart enters
  | _ => true

variable (enters : Operator → Bool)

theorem aggregates_aliased (term : Term Path ν) (names : AliasTable) :
    (term.aliased names).aggregates enters = term.aggregates enters := by
  fun_induction Term.aggregates enters term with
  | case1 operator left right one two => simp [Term.aliased, Term.aggregates, one, two]
  | case2 => simp [Term.aliased, Term.aggregates]
  | case3 function operand => simp [Term.aliased, Term.aggregates]
  | case4 term noBinary noCount noAggregate =>
    cases term <;> simp_all [Term.aliased, Term.aggregates]

theorem aggregates_numbered (term : Term ρ Unit) (n : Nat) :
    (term.numbered n).1.aggregates enters = term.aggregates enters := by
  fun_induction Term.aggregates enters term generalizing n with
  | case1 operator left right one two => simp [Term.numbered, Term.aggregates, one, two]
  | case2 => simp [Term.numbered, Term.aggregates]
  | case3 function operand => simp [Term.numbered, Term.aggregates]
  | case4 term noBinary noCount noAggregate =>
    cases term <;> simp_all [Term.numbered, Term.aggregates]

theorem apart_aliased (term : Term Path ν) (names : AliasTable) :
    (term.aliased names).apart enters = term.apart enters := by
  fun_induction Term.apart enters term with
  | case1 operator left right one two => simp [Term.aliased, Term.apart, one, two]
  | case2 function operand ih => simp [Term.aliased, Term.apart, aggregates_aliased, ih]
  | case3 term noBinary noAggregate => cases term <;> simp_all [Term.aliased, Term.apart]

theorem apart_numbered (term : Term ρ Unit) (n : Nat) :
    (term.numbered n).1.apart enters = term.apart enters := by
  fun_induction Term.apart enters term generalizing n with
  | case1 operator left right one two => simp [Term.numbered, Term.apart, one, two]
  | case2 function operand ih => simp [Term.numbered, Term.apart, aggregates_numbered, ih]
  | case3 term noBinary noAggregate => cases term <;> simp_all [Term.numbered, Term.apart]

end Term

def Expr.readsAggregate : Expr → Bool
  | .access ⟨_, _, .value expr⟩ _ => expr.readsAggregate
  | .compose _ composition => composition.readsAggregate
  | .column _ _ type => type.isAggregate
  | _ => false

-- Calls stand where SQL allows them: not in each other's operands, not in WHERE and not in a term of
-- the grouping. What operators that are not entered hide is not judged.
structure Query.PlacesCalls (q : Query) (enters : Operator → Bool) (declared : Expr → Bool)
    (s : Statement String Nat) : Prop where
  operands : ∀ clause ∈ s.clauses, clause.term.apart enters = true
  filter : ∀ clause ∈ s.clauses, clause.role = .filter → clause.term.aggregates enters = false
  groups : ∀ term ∈ s.groups, term.aggregates enters = false
  columns : List.Forall₂
    (fun p column => p.isAggregate = (column.2.aggregates enters || declared p.expr))
    q.projections s.columns

def CallsPlaced (enters : Operator → Bool) (declared : Expr → Bool) : Prop :=
  ∀ q : Query, q.Built → ∀ n s m, q.statement n = .ok (s, m) → q.PlacesCalls enters declared s

theorem resultType_plain (typed : Operator.resultType operator left right = .ok type) :
    type.isAggregate = false ∧
      (operator.isArithmetic = true → left.isAggregate = false ∧ right.isAggregate = false) := by
  unfold Operator.resultType at typed
  split at typed
  · split at typed
    · cases typed
      exact ⟨rfl, fun _ => ⟨rfl, rfl⟩⟩
    · cases typed
  · rename_i comparison
    cases typed
    exact ⟨rfl, fun arithmetic => absurd arithmetic comparison⟩

def Expr.Tells (expr : Expr) (term : Term ρ ν) : Prop :=
  expr.type.isAggregate = (term.aggregates Operator.isArithmetic || expr.readsAggregate) ∧
    term.apart Operator.isArithmetic = true

theorem tells_plain (tells : Expr.Tells expr (term : Term ρ ν))
    (plain : expr.type.isAggregate = false) : term.aggregates Operator.isArithmetic = false := by
  rw [tells.1, Bool.or_eq_false_iff] at plain
  exact plain.1

theorem plan_tells :
    (∀ expr scope planned, Expr.plan expr scope = .ok planned → expr.Built →
      expr.Tells planned.term) ∧
    ∀ expr scope path hops, Expr.navigate expr scope = .ok (path, hops) → True := by
  refine plan_induction ?literal ?mapped ?calculated ?compose ?binary ?countAll ?aggregate ?column
    ?query ?followed ?chained
  case literal => intros; exact ⟨rfl, rfl⟩
  case mapped => intros; exact ⟨rfl, rfl⟩
  case calculated =>
    intro domain name expr side scope path planned _ _ ih built
    exact ih (value_built (access_built built)).1
  case compose =>
    intro reference composition scope path hops planned _ ih built
    exact ih (compose_built built).2.1
  case binary =>
    intro operator left right type scope first second one two built
    obtain ⟨builtLeft, builtRight, typed, _⟩ := binary_built built
    obtain ⟨plain, operands⟩ := resultType_plain typed
    have quiet : (Term.binary operator first.term second.term).aggregates Operator.isArithmetic =
        false := by
      cases arithmetic : operator.isArithmetic with
      | false => simp [Term.aggregates, arithmetic]
      | true =>
        -- Arithmetic is entered, but it was given scalars.
        obtain ⟨plainLeft, plainRight⟩ := operands arithmetic
        simp [Term.aggregates, tells_plain (one builtLeft) plainLeft,
          tells_plain (two builtRight) plainRight]
    refine ⟨?_, ?_⟩
    · rw [quiet]
      exact plain
    · simp [Term.apart, (one builtLeft).2, (two builtRight).2]
  case countAll => intros; exact ⟨rfl, rfl⟩
  case aggregate =>
    intro function operand scope planned ih built
    obtain ⟨inner, scalar, typed⟩ := aggregate_built built
    have plain : operand.type.isAggregate = false := by rw [typed]; rfl
    exact ⟨rfl, by simp [Term.apart, tells_plain (ih inner) plain, (ih inner).2]⟩
  case column => intros; exact ⟨rfl, rfl⟩
  case query => intros; exact ⟨rfl, rfl⟩
  case followed => intros; trivial
  case chained => intros; trivial

theorem written_tells (built : Expr.Built expr) (made : expr.plan scope = .ok planned)
    (names : AliasTable) (k : Nat) : expr.Tells ((planned.term.aliased names).numbered k).1 := by
  unfold Expr.Tells
  rw [Term.aggregates_numbered, Term.aggregates_aliased, Term.apart_numbered, Term.apart_aliased]
  exact plan_tells.1 _ _ _ made built

theorem shown_tells (built : Expr.Built expr)
    (shown : expr.Shows names low high scope term) : expr.Tells term := by
  obtain ⟨planned, k, _, _, made, rfl⟩ := shown
  exact written_tells built made names k

theorem writes_tells (built : Expr.Built (Reading.expr reading))
    (writes : reading.Writes names clause) : reading.expr.Tells clause.term := by
  obtain ⟨_, planned, k, made, term⟩ := writes
  rw [term]
  exact written_tells built made names k

theorem role_filter (same : Role.map rename role = .filter) : role = .filter := by
  cases role <;> cases same
  rfl

theorem readings_filter (member : reading ∈ Query.readings q whole)
    (role : reading.role = .filter) : reading.expr ∈ q.filter := by
  simp only [Query.readings, List.mem_append, List.mem_map] at member
  rcases member with ((⟨p, _, rfl⟩ | ⟨condition, filtered, rfl⟩) | ⟨p, _, rfl⟩) | ⟨leg, _, rfl⟩
  · cases role
  · exact Option.mem_toList.mp filtered
  · cases role
  · cases role

theorem forall₂_zipWith {value : α → γ} {other : β → α → γ}
    (all : List.Forall₂ (fun a b => value a = other b a) as bs) :
    as.map value = List.zipWith other bs as := by
  induction all with
  | nil => rfl
  | cons here _ ih => rw [List.map_cons, List.zipWith_cons_cons, here, ih]

theorem grouped_plain (member : p ∈ Query.grouped q) : p.isAggregate = false := by
  unfold Query.grouped at member
  split at member
  · simpa using (List.mem_filter.mp member).2
  · cases member

theorem calls_placed : CallsPlaced Operator.isArithmetic Expr.readsAggregate := by
  intro q built n s m ran
  obtain ⟨whole, tours, _, _, written⟩ := statement_parts ran
  obtain ⟨names, middle, columns, groups⟩ := statement_counted ran
  have checked := built_checked built
  constructor
  case operands =>
    intro clause member
    obtain ⟨reading, present, writes⟩ := forall₂_right written member
    exact (writes_tells (readings_built built tours present) writes).2
  case filter =>
    intro clause member role
    obtain ⟨reading, present, writes⟩ := forall₂_right written member
    have tells := writes_tells (readings_built built tours present) writes
    have filters : reading.role = .filter := role_filter (writes.1.symm.trans role)
    obtain ⟨_, boolean, _⟩ := checked.filter _ (readings_filter present filters)
    exact tells_plain tells (by rw [boolean]; rfl)
  case groups =>
    intro term member
    obtain ⟨p, grouped, shown⟩ := forall₂_right groups member
    have tells := shown_tells (checked.columns p (grouped_selected grouped)).1 shown
    exact tells_plain tells (grouped_plain grouped)
  case columns =>
    refine (forall₂_members columns).imp ?_
    rintro p column ⟨selected, _, _, shown⟩
    exact (shown_tells (checked.columns p selected).1 shown).1

-- Aggregate functions are called where SQL allows it and counted for what they are, except in the
-- operands of comparisons and connectives, where nothing keeps track of them.
theorem sql_aggregates (q : Query) (built : q.Built) (ran : q.sqlFrom n = .ok (sql, m)) :
    ∃ s, q.statement n = .ok (s, m) ∧ sql = s.text ∧
      q.PlacesCalls Operator.isArithmetic Expr.readsAggregate s ∧
      ∀ inner, s.Contains inner → ∃ r k l, q.Within r ∧ r.statement k = .ok (inner, l) ∧
        r.PlacesCalls Operator.isArithmetic Expr.readsAggregate inner := by
  obtain ⟨⟨s, counter⟩, made, written⟩ := bind_parts ran
  cases written
  refine ⟨s, made, rfl, calls_placed q built n s m made, ?_⟩
  intro inner contains
  obtain ⟨r, k, l, within, ran⟩ := statement_nested made contains
  exact ⟨r, k, l, within, ran, calls_placed r (within_built within built) k inner l ran⟩

namespace Turnover

def region : Expr := .read "orders" "region" .string

def amount : Expr := .read "orders" "amount" .integer

def total : Expr := .aggregate .sum amount

def large : Expr := .binary .greaterThan amount (.literal (.integer 10)) .boolean

def busy : Expr := .binary .greaterThan .countAll (.literal (.integer 1)) .boolean

def summedBefore : Expr :=
  .access (.mapped "orders" "sum" "sum" (.aggregate .decimal)) .matching

def report : Query :=
  ⟨"report", "orders", "orders", [⟨"region", region⟩, ⟨"total", total⟩], some large⟩

def reportText : String :=
  "SELECT orders.region AS region, SUM(orders.amount) AS total FROM orders" ++
    " WHERE (orders.amount > 10) GROUP BY orders.region"

def sums : Query :=
  ⟨"sums", "orders", "orders",
    [⟨"busy", busy⟩, ⟨"sum", summedBefore⟩, ⟨"days", .aggregate .sum busy⟩],
    some busy⟩

def sumsText : String :=
  "SELECT (COUNT(*) > 1) AS busy, orders.sum AS sum, SUM((COUNT(*) > 1)) AS days FROM orders" ++
    " WHERE (COUNT(*) > 1) GROUP BY (COUNT(*) > 1)"

theorem report_built : report.Built := by
  have summed : Expr.aggregated .sum (some amount) = .ok total := rfl
  have total_built : total.Built := .aggregated (read_built _ _ _ _) summed
  have compared : Expr.operation .greaterThan amount (.literal (.integer 10)) = .ok large := rfl
  have large_built : large.Built := .operation (read_built _ _ _ _) (.literal _) compared
  have first : Query.Built ⟨"report", "orders", "orders", [⟨"region", region⟩], none⟩ :=
    .select (.start "report" ⟨"orders", "orders", []⟩)
      (read_built "orders" "region" .string .matching) rfl
  have selected : Query.select ⟨"report", "orders", "orders", [⟨"region", region⟩], none⟩
      "total" total = .ok { report with filter := none } := rfl
  exact .setFilter (.select first total_built selected) large_built rfl

theorem report_aggregates : report.Built ∧ report.sqlFrom 0 = .ok (reportText, 0) ∧
    ∃ s, report.statement 0 = .ok (s, 0) ∧ reportText = s.text ∧
      report.PlacesCalls Operator.isArithmetic Expr.readsAggregate s ∧
      ∀ inner, s.Contains inner → ∃ r k l, report.Within r ∧ r.statement k = .ok (inner, l) ∧
        r.PlacesCalls Operator.isArithmetic Expr.readsAggregate inner := by
  have ran : report.sqlFrom 0 = .ok (reportText, 0) := by decide +kernel
  exact ⟨report_built, ran, sql_aggregates report report_built ran⟩

theorem sums_built : sums.Built := by
  have counted : Expr.aggregated .count none = .ok .countAll := rfl
  have compared : Expr.operation .greaterThan .countAll (.literal (.integer 1)) = .ok busy := rfl
  have busy_built : busy.Built := .operation (.counted counted) (.literal _) compared
  have summed : Expr.aggregated .sum (some busy) = .ok (.aggregate .sum busy) := rfl
  have first : Query.Built ⟨"sums", "orders", "orders", [⟨"busy", busy⟩], none⟩ :=
    .select (.start "sums" ⟨"orders", "orders", []⟩) busy_built rfl
  have declared : Query.select ⟨"sums", "orders", "orders", [⟨"busy", busy⟩], none⟩
      "sum" summedBefore = .ok { sums with
        projections := [⟨"busy", busy⟩, ⟨"sum", summedBefore⟩],
        filter := none } := rfl
  have last : Query.select { sums with
        projections := [⟨"busy", busy⟩, ⟨"sum", summedBefore⟩],
        filter := none } "days" (.aggregate .sum busy) = .ok { sums with filter := none } := rfl
  have selected : Query.Built { sums with filter := none } :=
    .select (.select first (.access _ (.mapped _ _ _ _)) declared) (.aggregated busy_built summed)
      last
  exact .setFilter selected busy_built rfl

theorem sums_refute (called : List Bool)
    (shown : (sums.statement 0).toOption.map (fun made =>
      made.1.columns.map fun column => column.2.aggregates enters) = some called)
    (wrong : sums.projections.map (·.isAggregate) ≠
      List.zipWith (fun call p => call || declared p.expr) called sums.projections) :
    ¬ CallsPlaced enters declared := by
  intro always
  cases made : sums.statement 0 with
  | error error =>
    rw [made] at shown
    cases shown
  | ok pair =>
    obtain ⟨s, m⟩ := pair
    rw [made] at shown
    have counted := (always sums sums_built 0 s m made).columns
    have same : List.Forall₂ (fun p call => p.isAggregate = (call || declared p.expr))
        sums.projections called := by
      rw [← Option.some.inj shown, List.forall₂_map_right_iff]
      exact counted
    exact wrong (forall₂_zipWith same)

-- A rule has to leave out the operands of comparisons, and to take in what was declared.
theorem sums_misplaced : sums.sqlFrom 0 = .ok (sumsText, 0) ∧
    ¬ CallsPlaced (fun _ => true) (fun _ => false) ∧
    ¬ CallsPlaced (fun _ => true) Expr.readsAggregate ∧
    ¬ CallsPlaced Operator.isArithmetic (fun _ => false) := by
  refine ⟨by decide +kernel, ?_, ?_, ?_⟩
  · exact sums_refute [true, false, true] (by decide +kernel) (by decide)
  · exact sums_refute [true, false, true] (by decide +kernel) (by decide)
  · exact sums_refute [false, false, true] (by decide +kernel) (by decide)

end Turnover

end SemanticLayer
