import SemanticLayer.Proofs.Decimals
import SemanticLayer.Proofs.Settling
import SemanticLayer.Proofs.Walking

namespace SemanticLayer

def Expr.names : Expr → Option (List String)
  | .access member .matching => some [member.name]
  | .compose (.access member .matching) rest => rest.names.map (member.name :: ·)
  | _ => none

def Literal.json? : Literal → Option Json
  | .string value => some (.string value)
  | .integer value => some (.integer value)
  | .decimal value => some (.decimal value)
  | .boolean value => some (.bool value)
  | .date _ | .timestamp _ => none

def Expr.readBack : Expr → Option ExprDescriptor
  | .literal value => value.json?.map .literal
  | .binary operator left right _ => do
      pure (.binary operator (← left.readBack) (← right.readBack))
  | .aggregate function operand => operand.readBack.map (.aggregate function)
  | .countAll => some (.aggregateAll .count)
  | expr => expr.names.map fun names => .path (".".intercalate names)

-- A whole number that 64 bits with sign do not hold becomes the DECIMAL nearest to it.
def Json.held : Json → Json
  | .integer value =>
      if value < Nat.pow 2 63 then .integer value else .decimal (.nearest value.toNat 0)
  | json => json

def ExprDescriptor.held : ExprDescriptor → ExprDescriptor
  | .literal json => .literal json.held
  | .binary operator left right => .binary operator left.held right.held
  | .aggregate function operand => .aggregate function operand.held
  | expr => expr

structure Descriptor.Stored (m : Model) (d : Descriptor) (q : Query) : Prop where
  name : q.name = d.name
  source : q.source = d.source
  table : ∃ base, m.domain? d.source = some base ∧ q.table = base.table
  labels : q.projections.map (·.label) = (d.projections.map (·.label)).eraseDups
  columns : ∀ column ∈ q.projections, ∃ p, Latest ProjectionDescriptor.label p d.projections ∧
    column.label = p.label ∧ column.expr.readBack = some p.expr.held
  filter : q.filter.map Expr.readBack = d.filter.map fun condition => some condition.held

theorem walk_names (walked : Domain.walk m d label rest = .ok expr) :
    expr.names = some (label :: rest) := by
  induction rest generalizing d label expr with
  | nil =>
    rw [Domain.walk] at walked
    obtain ⟨member, found, made⟩ := bind_parts walked
    cases made
    rw [Expr.names, (attribute_named (attribute_lookup found)).1]
  | cons next rest ih =>
    cases found : d.attribute? label with
    | none => cases (walk_unknown found _).symm.trans walked
    | some member =>
      cases led : member.target? with
      | none => cases (walk_value found led next rest).symm.trans walked
      | some target =>
        rw [walk_step found led] at walked
        split at walked
        · obtain ⟨composition, onward, made⟩ := bind_parts walked
          obtain ⟨_, _, _, rfl⟩ := composed_parts made
          rw [Expr.names, ih onward, (attribute_named found).1]
          rfl
        · cases walked

theorem named_readBack (named : Expr.names expr = some names) :
    expr.readBack = some (.path (".".intercalate names)) := by
  cases expr with
  | access | compose => simp [Expr.readBack, named]
  | literal | binary | countAll | aggregate | column | query => cases named

theorem resolve_readBack (resolved : Domain.resolve m d text = .ok expr) :
    expr.readBack = some (.path text) := by
  obtain ⟨label, rest, split⟩ := segments_some text
  rw [resolve_walk m d split] at resolved
  have whole := (segments_split text).1
  rw [split] at whole
  have same : ".".intercalate (label :: rest) = text := by
    apply String.toList_injective
    rw [String.toList_intercalate]
    exact whole
  rw [named_readBack (walk_names resolved), same]

theorem literal_held (read : Literal.ofJson json = .ok value) : value.json? = some json.held := by
  cases json with
  | integer number =>
    rw [Json.held]
    rw [Literal.ofJson] at read
    split at read <;> (cases read; simp_all [Literal.json?])
  | null | array | object => cases read
  | bool | decimal | string => cases read; rfl

theorem means_readBack (means : ExprDescriptor.Means m d expr made) :
    made.readBack = some expr.held := by
  induction means with
  | path resolved => exact resolve_readBack resolved
  | literal read =>
    rw [Expr.readBack, literal_held read]
    rfl
  | binary _ _ made one two =>
    obtain ⟨_, _, _, _, rfl⟩ := operation_parts made
    rw [Expr.readBack, one, two]
    rfl
  | aggregate _ made ih =>
    obtain ⟨_, _, rfl⟩ := aggregated_parts made
    rw [Expr.readBack, ih]
    rfl
  | aggregateAll made =>
    cases counted_function made
    rw [counted_parts made]
    rfl

theorem held_said (expr : ExprDescriptor)
    (small : ∀ value, .integer value ∈ expr.literals → value < 2 ^ 63) : expr.held = expr := by
  induction expr with
  | path | aggregateAll => rfl
  | literal json =>
    cases json with
    | integer value =>
      have fits : value < Nat.pow 2 63 := small value (List.mem_singleton.mpr rfl)
      rw [ExprDescriptor.held, Json.held, if_pos fits]
    | null | bool | decimal | string | array | object => rfl
  | binary operator left right one two =>
    rw [ExprDescriptor.held, one, two]
    · exact fun value member => small value (List.mem_append_right _ member)
    · exact fun value member => small value (List.mem_append_left _ member)
  | aggregate function operand ih => rw [ExprDescriptor.held, ih small]

theorem taken_labels (taken : List.Forall₂ (ProjectionDescriptor.Taken m d) projections columns) :
    columns.map (·.label) = projections.map (·.label) := by
  induction taken with
  | nil => rfl
  | cons here _ ih => rw [List.map_cons, List.map_cons, here.label, ih]

theorem taken_latest (taken : List.Forall₂ (ProjectionDescriptor.Taken m d) projections columns)
    (latest : Latest Projection.label column columns) :
    ∃ p, Latest ProjectionDescriptor.label p projections ∧ p.Taken m d column := by
  obtain ⟨before, after, rfl, silent⟩ := latest
  have labels := taken_labels taken
  obtain ⟨first, p, rest, rfl, earlier, here⟩ := forall₂_split before taken
  rw [List.map_append, List.map_append] at labels
  have later := (List.cons.inj (List.append_inj_right labels (by simp [earlier.length_eq]))).2
  exact ⟨p, ⟨first, rest, rfl, by rwa [← later, ← here.label]⟩, here⟩

theorem gives_stored (gives : Descriptor.Gives m d base columns q) : d.Stored m q := by
  have query := gives.query
  have projections : q.projections = Query.placed columns := by rw [query]
  constructor
  case name => rw [query]
  case source => rw [query, domain_named gives.source]
  case table => exact ⟨base, gives.source, by rw [query]⟩
  case labels => rw [projections, placed_labels, taken_labels gives.taken]
  case columns =>
    intro column member
    rw [projections, placed_latest] at member
    obtain ⟨p, latest, taken⟩ := taken_latest gives.taken member
    exact ⟨p, latest, taken.label, means_readBack taken.means⟩
  case filter =>
    have filters := gives.filters
    generalize q.filter = filter at filters
    generalize d.filter = condition at filters
    cases filters with
    | none => rfl
    | some filters => simp [means_readBack filters.means]

-- A literal without a type is reported before all else, and then the first fault of domain, columns
-- and filter, in this order. Without a fault what is stored reads back as what was described, but
-- that whole numbers that 64 bits with sign do not hold have become DECIMAL.
theorem descriptors_settled (m : Model) (d : Descriptor) :
    (∀ json, d.literals.find? Json.untyped = some json →
      d.query m = .error (.unsupportedLiteral json.compact)) ∧
    (d.literals.find? Json.untyped = none →
      (∀ error, d.query m = .error error ↔ d.Fails m error) ∧
      ((∀ error, ¬ d.Fails m error) → ∃ q, d.query m = .ok q) ∧
      ∀ q, d.query m = .ok q → d.Stored m q) ∧
    ∀ expr : ExprDescriptor, (∀ value, .integer value ∈ expr.literals → value < 2 ^ 63) →
      expr.held = expr := by
  refine ⟨fun json first => query_untyped m d first, ?_, held_said⟩
  intro typed
  rcases gives_or_fails m typed with ⟨base, columns, q, gives⟩ | ⟨error, fails⟩
  · have made := gives_query typed gives
    refine ⟨?_, fun _ => ⟨q, made⟩, ?_⟩
    · intro error
      constructor
      · intro failed
        cases made.symm.trans failed
      · exact fails_query typed
    · intro other same
      cases made.symm.trans same
      exact gives_stored gives
  · have failed := fails_query typed fails
    refine ⟨?_, fun none => absurd fails (none error), ?_⟩
    · intro other
      constructor
      · intro same
        cases failed.symm.trans same
        exact fails
      · exact fails_query typed
    · intro q made
      cases failed.symm.trans made

namespace Tickets

def tickets : Domain :=
  ⟨"tickets", "tickets", [.mapped "tickets" "title" "title" (.scalar .string)]⟩

def model : Model := ⟨[tickets], []⟩

-- All of it is wrong.
def broken : Descriptor :=
  ⟨"report", "desks", [⟨"owner", .path "owner"⟩],
    some (.binary .and (.path "owner") (.literal .null))⟩

-- So are the second column and the filter.
def late : Descriptor :=
  ⟨"report", "tickets", [⟨"title", .path "title"⟩, ⟨"owner", .path "owner"⟩], some (.path "title")⟩

def counted : Descriptor :=
  ⟨"report", "tickets", [⟨"shown", .path "title"⟩, ⟨"all", .aggregateAll .count⟩,
    ⟨"shown", .literal (.integer 5)⟩], none⟩

theorem reports_settled : broken.literals.find? Json.untyped = some .null ∧
    broken.query model = .error (.unsupportedLiteral Json.null.compact) ∧
    late.literals.find? Json.untyped = none ∧
    late.Fails model (.unknownAttribute "tickets" "owner") ∧
    counted.literals.find? Json.untyped = none ∧
    (∃ q, counted.query model = .ok q ∧ counted.Stored model q) ∧
    (ExprDescriptor.literal (.integer 5)).held = .literal (.integer 5) := by
  obtain ⟨untyped, _, small⟩ := descriptors_settled model broken
  obtain ⟨_, lateTyped, _⟩ := descriptors_settled model late
  obtain ⟨_, countedTyped, _⟩ := descriptors_settled model counted
  obtain ⟨fails, _⟩ := lateTyped rfl
  obtain ⟨_, _, stored⟩ := countedTyped rfl
  refine ⟨rfl, untyped .null rfl, rfl, (fails _).mp rfl, rfl, ⟨_, rfl, stored _ rfl⟩, small _ ?_⟩
  intro value member
  cases List.mem_singleton.mp member
  decide

end Tickets

def Json.number? : Json → Option ℚ
  | .integer value => some value
  | .decimal value =>
      if value.isFinite then some ((if value.isNegative then -1 else 1) * value.magnitude.value)
      else none
  | _ => none

def Json.SameValue (one two : Json) : Prop :=
  one = two ∨ ∃ number, one.number? = some number ∧ two.number? = some number

theorem magnitude_bounded (x : Binary64) : x.magnitude.significand < 2 ^ 53 := by
  have small := x.fraction_small
  unfold Binary64.magnitude
  split
  · exact small.trans (by decide)
  · simp only [Nat.pow_eq]
    omega

theorem magnitude_nonnegative (x : Binary64) : 0 ≤ x.magnitude.value := by
  unfold Magnitude.value
  positivity

-- From 2 ^ 53 on a binary number is even.
theorem odd_unheld (x : Magnitude) (bounded : x.significand < 2 ^ 53) (number : Nat)
    (odd : number % 2 = 1) (large : 2 ^ 53 ≤ number) : x.value ≠ number := by
  intro same
  unfold Magnitude.value at same
  rcases lt_or_ge 0 x.exponent with positive | low
  · obtain ⟨power, grown⟩ := Int.eq_succ_of_zero_lt positive
    rw [grown] at same
    have whole : x.significand * 2 ^ (power + 1) = number := by exact_mod_cast same
    rw [pow_succ, ← mul_assoc] at whole
    omega
  · have shrunk : (2 : ℚ) ^ x.exponent ≤ 1 := zpow_le_one_of_nonpos₀ (by norm_num) low
    have below : (x.significand : ℚ) * 2 ^ x.exponent ≤ x.significand :=
      mul_le_of_le_one_right (by positivity) shrunk
    rw [same] at below
    have bound : number ≤ x.significand := by exact_mod_cast below
    omega

namespace Tickets

def serial : Descriptor :=
  ⟨"report", "tickets", [⟨"serial", .literal (.integer 9223372036854775809)⟩], none⟩

def given : Query := ⟨"report", "tickets", "tickets",
  [⟨"serial", .literal (.decimal (.nearest 9223372036854775809 0))⟩], none⟩

theorem serial_given : serial.query model = .ok given := rfl

theorem serial_changed : ¬ ∀ (m : Model) (d : Descriptor) (q : Query) (column : Projection)
    (json : Json), d.query m = .ok q → column ∈ q.projections →
    column.expr.readBack = some (.literal json) →
    ∃ p ∈ d.projections, ∃ said, p.expr = .literal said ∧ json.SameValue said := by
  intro always
  obtain ⟨p, member, said, same, value⟩ :=
    always model serial _ _ _ serial_given (List.mem_singleton.mpr rfl) rfl
  cases List.mem_singleton.mp member
  cases same
  rcases value with same | ⟨number, one, two⟩
  · cases same
  · cases two
    rw [Json.number?] at one
    split at one
    · have equal := Option.some.inj one
      have apart := odd_unheld _ (magnitude_bounded (.nearest 9223372036854775809 0))
        9223372036854775809 (by decide) (by decide)
      split at equal
      · have positive := magnitude_nonnegative (.nearest 9223372036854775809 0)
        push_cast at equal
        linarith
      · exact apart (by simpa using equal)
    · cases one

end Tickets

end SemanticLayer
