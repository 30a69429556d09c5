import SemanticLayer.Proofs.Literals
import SemanticLayer.Proofs.Nesting
import SemanticLayer.Statement.Text

namespace SemanticLayer

-- A term can be told from its text, whatever follows it. Its kind is told by the beginning of the
-- text, and then its parts are read from left to right, each up to the character that ends it.

def inName (c : Char) : Bool := c.isAlphanum || c == '_'

def isIdentifier (name : String) : Bool :=
  match name.toList with
  | [] => false
  | first :: rest => (first.isAlpha || first == '_') && rest.all inName

theorem inName_word (name : inName c = true) : inWord c = true := by
  simp only [inName, Bool.or_eq_true] at name
  rcases name with letter | line <;> simp_all [inWord]

theorem identifier_names (named : isIdentifier name = true) : ∀ c ∈ name.toList, inName c = true := by
  unfold isIdentifier at named
  split at named
  · cases named
  · rename_i first rest written
    rw [written]
    simp only [Bool.and_eq_true, Bool.or_eq_true, List.all_eq_true] at named
    refine List.forall_mem_cons.mpr ⟨?_, named.2⟩
    rcases named.1 with letter | line <;> simp_all [inName, Char.isAlphanum]

theorem letter_digit (letter : Char.isAlpha c = true) : c.isDigit = false := by
  unfold Char.isAlpha Char.isUpper Char.isLower at letter
  unfold Char.isDigit
  simp [UInt32.le_iff_toNat_le] at letter ⊢
  omega

theorem letter_sign (letter : Char.isAlpha c = true) : c ≠ '-' := by
  rintro rfl
  cases letter

theorem identifier_starts (named : isIdentifier name = true) (rest : List Char) :
    startsNumber (name.toList ++ rest) = false := by
  unfold isIdentifier at named
  split at named
  · cases named
  · rename_i first others written
    simp only [Bool.and_eq_true, Bool.or_eq_true] at named
    rcases named.1 with letter | line
    · simp_all [startsNumber, letter_digit, letter_sign]
    · simp_all [startsNumber]

theorem field_kind (named : isIdentifier label = true) (name : String) :
    TextKind.ofWord (label.toList ++ '.' :: name.toList) = .field := by
  simp [TextKind.ofWord, identifier_starts named]

theorem field_inside (named : isIdentifier label = true ∧ isIdentifier name = true) :
    ∀ c ∈ label.toList ++ '.' :: name.toList, inWord c = true :=
  List.forall_mem_append.mpr ⟨fun c present => inName_word (identifier_names named.1 c present),
    List.forall_mem_cons.mpr ⟨rfl, fun c present => inName_word (identifier_names named.2 c present)⟩⟩

theorem field_read {label name second other : String}
    (named : isIdentifier label = true) (called : isIdentifier second = true)
    (same : label.toList ++ '.' :: name.toList = second.toList ++ '.' :: other.toList) :
    label = second ∧ name = other := by
  obtain ⟨labels, names⟩ := run_split (identifier_names named) (stops_cons rfl _)
    (identifier_names called) (stops_cons rfl _) same
  exact ⟨String.toList_inj.mp labels, String.toList_inj.mp (List.cons.inj names).2⟩

theorem found_injective {spell : α → String} (all : List α)
    (found : ∀ x, all.find? (spell · == spell x) = some x) {first second : α}
    (same : spell first = spell second) : first = second := by
  have here := found first
  rw [same, found second] at here
  exact (Option.some.inj here).symm

theorem symbol_injective {first second : Operator} (same : first.symbol = second.symbol) :
    first = second :=
  found_injective Operator.all (by intro operator; cases operator <;> decide) same

theorem function_injective {first second : AggregateFunction} (same : first.name = second.name) :
    first = second :=
  found_injective AggregateFunction.all (by intro function; cases function <;> decide) same

theorem symbol_solid (operator : Operator) : ∀ c ∈ operator.symbol.toList, (c != ' ') = true := by
  rw [← List.all_eq_true]
  cases operator <;> rfl

theorem function_inside (function : AggregateFunction) :
    ∀ c ∈ function.name.toList, inWord c = true := by
  rw [← List.all_eq_true]
  cases function <;> rfl

namespace Term

def word : Term String Nat → List Char
  | .literal value => value.word
  | .column label name => label.toList ++ '.' :: name.toList
  | .countAll => AggregateFunction.count.name.toList
  | .aggregate function _ => function.name.toList
  | .binary _ _ _ | .subquery _ _ => []

def after : Term String Nat → List Char
  | .literal value => value.after
  | .column _ _ => []
  | .binary operator left right =>
      '(' :: (left.text.toList ++
        ' ' :: (operator.symbol.toList ++ ' ' :: (right.text.toList ++ [')'])))
  | .countAll => ['(', '*', ')']
  | .aggregate _ operand => '(' :: (operand.text.toList ++ [')'])
  | .subquery number statement =>
      '(' :: (statement.text.toList ++ ") AS sq".toList ++ (toString number).toList)

end Term

def Term.kind : Term String Nat → TextKind
  | .literal value => value.kind
  | .column _ _ => .field
  | .binary _ _ _ | .subquery _ _ => .grouped
  | .countAll | .aggregate _ _ => .call

def Term.literals {ρ ν : Type} : Term ρ ν → List Literal
  | .literal value => [value]
  | .binary _ left right => left.literals ++ right.literals
  | .aggregate _ operand => operand.literals
  | _ => []

structure Term.Legible (term : Term String Nat) : Prop where
  alone : term.nested = []
  named : ∀ read ∈ term.columns, isIdentifier read.1 = true ∧ isIdentifier read.2 = true
  values : ∀ value ∈ term.literals, value.Legible

theorem Term.legible_binary (legible : (Term.binary operator left right).Legible) :
    left.Legible ∧ right.Legible := by
  obtain ⟨alone, named, values⟩ := legible
  rw [Term.nested, List.append_eq_nil_iff] at alone
  rw [Term.columns, List.forall_mem_append] at named
  rw [Term.literals, List.forall_mem_append] at values
  exact ⟨⟨alone.1, named.1, values.1⟩, ⟨alone.2, named.2, values.2⟩⟩

theorem Term.legible_aggregate (legible : (Term.aggregate function operand).Legible) :
    operand.Legible := by
  obtain ⟨alone, named, values⟩ := legible
  exact ⟨alone, named, values⟩

theorem Term.text_parts {term : Term String Nat} (legible : term.Legible) :
    term.text.toList = term.word ++ term.after := by
  cases term with
  | literal value => exact Literal.text_parts (legible.values value (List.mem_singleton.mpr rfl))
  | column label name => simp [text, word, after]
  | binary operator left right => simp [text, word, after]
  | countAll => rfl
  | aggregate function operand => simp [text, word, after]
  | subquery number statement => simp [text, word, after]

theorem Term.word_inside {term : Term String Nat} (legible : term.Legible) :
    ∀ c ∈ term.word, inWord c = true := by
  cases term with
  | literal value => exact value.word_inside
  | column label name => exact field_inside (legible.named (label, name) (List.mem_singleton.mpr rfl))
  | binary operator left right => simp [word]
  | countAll => exact function_inside .count
  | aggregate function operand => exact function_inside function
  | subquery number statement => simp [word]

theorem Term.after_stops (ends : Stops continues rest) (term : Term String Nat) :
    Stops inWord (term.after ++ rest) := by
  cases term with
  | literal value => exact value.after_stops ends
  | column _ _ => exact ends_word ends
  | binary _ _ _ | countAll | aggregate _ _ | subquery _ _ => exact stops_cons rfl _

theorem Term.kind_told {term : Term String Nat} (legible : term.Legible)
    (ends : Stops continues rest) : TextKind.ofText term.word (term.after ++ rest) = term.kind := by
  cases term with
  | literal value => exact value.kind_told ends
  | column label name =>
    have named := legible.named (label, name) (List.mem_singleton.mpr rfl)
    exact (ofText_ended ends _).trans (field_kind named.1 name)
  | binary operator left right => rfl
  | countAll => rfl
  | aggregate function operand => cases function <;> rfl
  | subquery number statement => rfl

theorem Term.parts_read {first second : Term String Nat} (legible : first.Legible)
    (other : second.Legible) (ends : Stops continues rest) (halts : Stops continues more)
    (same : first.text.toList ++ rest = second.text.toList ++ more) :
    first.word = second.word ∧ first.after ++ rest = second.after ++ more ∧
      first.kind = second.kind := by
  rw [text_parts legible, text_parts other, List.append_assoc, List.append_assoc] at same
  obtain ⟨words, afters⟩ := run_split (word_inside legible) (first.after_stops ends)
    (word_inside other) (second.after_stops halts) same
  refine ⟨words, afters, ?_⟩
  rw [← kind_told legible ends, words, afters, kind_told other halts]

theorem Term.text_starred {term : Term String Nat} (legible : term.Legible)
    (ends : Stops continues rest) (more : List Char) : term.text.toList ++ rest ≠ '*' :: more := by
  intro same
  rw [text_parts legible, List.append_assoc, ← List.nil_append ('*' :: more)] at same
  obtain ⟨words, afters⟩ := run_split (word_inside legible) (term.after_stops ends) (by simp)
    (stops_cons rfl _) same
  cases term with
  | literal value =>
    cases value with
    | string text => cases afters
    | integer n => exact absurd words (integer_written n)
    | decimal x => exact absurd words x.finiteText_written
    | boolean flag => cases flag <;> cases words
    | date d => cases words
    | timestamp t => cases words
  | column label name => simp [word] at words
  | binary operator left right => cases afters
  | countAll => cases words
  | aggregate function operand => cases function <;> cases words
  | subquery number statement => cases afters

theorem call_apart (call : Literal.kind value = .call) (function : AggregateFunction) :
    value.word ≠ function.name.toList := by
  cases value <;> cases call <;> cases function <;> simp [Literal.word, AggregateFunction.name]

theorem Term.literal_told {term : Term String Nat} (kinds : Literal.kind value = term.kind)
    (words : value.word = term.word) : ∃ other, term = .literal other := by
  cases term with
  | literal other => exact ⟨other, rfl⟩
  | column _ _ | binary _ _ _ | subquery _ _ => cases value <;> cases kinds
  | countAll => exact absurd words (call_apart kinds .count)
  | aggregate function operand => exact absurd words (call_apart kinds function)

theorem symbol_read {operator other : Operator}
    (same : operator.symbol.toList ++ ' ' :: rest = other.symbol.toList ++ ' ' :: more) :
    operator = other ∧ rest = more := by
  obtain ⟨symbols, after⟩ := run_split (symbol_solid operator) (stops_cons rfl _)
    (symbol_solid other) (stops_cons rfl _) same
  exact ⟨symbol_injective (String.toList_inj.mp symbols), (List.cons.inj after).2⟩

theorem Term.field_told {term : Term String Nat} (field : term.kind = .field) :
    ∃ label name, term = .column label name := by
  cases term with
  | column label name => exact ⟨label, name, rfl⟩
  | literal value => cases value <;> cases field
  | binary _ _ _ | countAll | aggregate _ _ | subquery _ _ => cases field

theorem Term.grouped_told {term : Term String Nat} (grouped : term.kind = .grouped)
    (alone : term.nested = []) : ∃ operator left right, term = .binary operator left right := by
  cases term with
  | binary operator left right => exact ⟨operator, left, right, rfl⟩
  | subquery number statement => cases alone
  | literal value => cases value <;> cases grouped
  | column _ _ | countAll | aggregate _ _ => cases grouped

theorem Term.call_told {term : Term String Nat} {function : AggregateFunction}
    (call : term.kind = .call) (named : function.name.toList = term.word) :
    term = .countAll ∨ ∃ called operand, term = .aggregate called operand := by
  cases term with
  | countAll => exact .inl rfl
  | aggregate called operand => exact .inr ⟨called, operand, rfl⟩
  | literal value => exact absurd named.symm (call_apart call function)
  | column _ _ | binary _ _ _ | subquery _ _ => cases call

-- The induction is on the first term. The kind that the text tells leaves only terms of the same
-- kind for the second one, and their parts are read in the order in which they are written.
theorem Term.text_read {first second : Term String Nat} (legible : first.Legible)
    (other : second.Legible) (ends : Stops continues rest) (halts : Stops continues more)
    (same : first.text.toList ++ rest = second.text.toList ++ more) :
    first = second ∧ rest = more := by
  induction first using Term.literals.induct generalizing second rest more with
  | case1 value =>
    obtain ⟨words, afters, kinds⟩ := parts_read legible other ends halts same
    obtain ⟨value, rfl⟩ := literal_told kinds words
    obtain ⟨rfl, after⟩ := Literal.read (legible.values _ (List.mem_singleton.mpr rfl))
      (other.values _ (List.mem_singleton.mpr rfl)) ends halts kinds words afters
    exact ⟨rfl, after⟩
  | case2 operator left right one two =>
    obtain ⟨_, afters, kinds⟩ := parts_read legible other ends halts same
    obtain ⟨symbol, near, far, rfl⟩ := grouped_told kinds.symm other.alone
    obtain ⟨nearby, faraway⟩ := legible_binary legible
    obtain ⟨nearer, farther⟩ := legible_binary other
    simp only [after, List.cons_append, List.append_assoc, List.cons.injEq, true_and] at afters
    obtain ⟨lefts, tails⟩ := one nearby nearer (stops_cons rfl _) (stops_cons rfl _) afters
    obtain ⟨symbols, tails⟩ := symbol_read (List.cons.inj tails).2
    obtain ⟨rights, tails⟩ := two faraway farther (stops_cons rfl _) (stops_cons rfl _) tails
    exact ⟨by rw [lefts, symbols, rights], (List.cons.inj tails).2⟩
  | case3 function operand ih =>
    obtain ⟨words, afters, kinds⟩ := parts_read legible other ends halts same
    have inner := legible_aggregate legible
    obtain rfl | ⟨called, member, rfl⟩ := call_told kinds.symm words
    all_goals simp only [after, List.cons_append, List.append_assoc, List.cons.injEq, true_and] at afters
    · exact absurd afters (text_starred inner (stops_cons rfl _) _)
    · obtain ⟨members, tails⟩ := ih inner (legible_aggregate other) (stops_cons rfl _)
        (stops_cons rfl _) afters
      exact ⟨by rw [members, function_injective (String.toList_inj.mp words)], (List.cons.inj tails).2⟩
  | case4 term noLiteral noBinary noAggregate =>
    obtain ⟨words, afters, kinds⟩ := parts_read legible other ends halts same
    cases term with
    | literal value => exact absurd rfl (noLiteral value)
    | binary operator left right => exact absurd rfl (noBinary operator left right)
    | aggregate function operand => exact absurd rfl (noAggregate function operand)
    | subquery number statement => cases legible.alone
    | column label name =>
      obtain ⟨called, member, rfl⟩ := field_told kinds.symm
      have named := legible.named (label, name) (List.mem_singleton.mpr rfl)
      have calls := other.named (called, member) (List.mem_singleton.mpr rfl)
      obtain ⟨rfl, rfl⟩ := field_read named.1 calls.1 words
      exact ⟨rfl, afters⟩
    | countAll =>
      obtain rfl | ⟨called, member, rfl⟩ := call_told kinds.symm words
      · exact ⟨rfl, List.append_cancel_left afters⟩
      · simp only [after, List.cons_append, List.append_assoc, List.cons.injEq, true_and] at afters
        exact absurd afters.symm (text_starred (legible_aggregate other) (stops_cons rfl _) _)

theorem Term.literals_aliased (term : Term Path ν) (names : AliasTable) :
    (term.aliased names).literals = term.literals := by
  fun_induction Term.literals term with
  | case1 value => simp [aliased, literals]
  | case2 operator left right one two => simp [aliased, literals, one, two]
  | case3 function operand ih => simp [aliased, literals, ih]
  | case4 term noLiteral noBinary noAggregate => cases term <;> simp_all [aliased, literals]

theorem Term.literals_numbered (term : Term ρ Unit) (n : Nat) :
    (term.numbered n).1.literals = term.literals := by
  fun_induction Term.literals term generalizing n with
  | case1 value => simp [numbered, literals]
  | case2 operator left right one two => simp [numbered, literals, one, two]
  | case3 function operand ih => simp [numbered, literals, ih]
  | case4 term noLiteral noBinary noAggregate => cases term <;> simp_all [numbered, literals]

theorem plan_finite :
    (∀ expr scope planned, Expr.plan expr scope = .ok planned →
      ∀ x, Literal.decimal x ∈ planned.term.literals → x.isFinite = true) ∧
    ∀ expr scope path hops, Expr.navigate expr scope = .ok (path, hops) → True := by
  refine plan_induction ?literal ?mapped ?calculated ?compose ?binary ?countAll ?aggregate ?column
    ?query ?followed ?chained
  case literal =>
    intro value scope made x member
    cases List.mem_singleton.mp member
    simp only [planLiteral] at made
    split at made
    · assumption
    · cases made
  case mapped => intros; contradiction
  case calculated =>
    intro domain name expr side scope path planned _ _ ih
    exact ih
  case compose =>
    intro reference composition scope path hops planned _ ih
    exact ih
  case binary =>
    intro operator left right type scope first second one two x member
    rcases List.mem_append.mp member with left | right
    · exact one x left
    · exact two x right
  case countAll => intros; contradiction
  case aggregate =>
    intro function operand scope planned ih
    exact ih
  case column => intros; contradiction
  case query => intros; contradiction
  case followed => intros; trivial
  case chained => intros; trivial

structure Resolution (expr : Expr) where
  scope : Scope
  names : AliasTable
  count : Nat
  planned : Planned
  made : expr.plan scope = .ok planned

namespace Resolution

def tree (r : Resolution expr) : Term String Nat :=
  ((r.planned.term.aliased r.names).numbered r.count).1

structure Plain (r : Resolution expr) : Prop where
  alone : expr.queries = []
  named : ∀ read ∈ r.tree.columns, isIdentifier read.1 = true ∧ isIdentifier read.2 = true
  whole : ∀ value ∈ r.tree.literals, value.Whole

theorem tree_literals (r : Resolution expr) : r.tree.literals = r.planned.term.literals := by
  rw [tree, Term.literals_numbered, Term.literals_aliased]

theorem tree_alone (r : Resolution expr) (alone : expr.queries = []) : r.tree.nested = [] := by
  have planned := plan_queries.1 _ _ _ r.made
  rw [alone, List.forall₂_nil_left_iff] at planned
  have numbered := (r.planned.term.aliased r.names).nested_numbered r.count
  rw [Term.nested_aliased, planned, List.map_nil, List.forall₂_nil_left_iff] at numbered
  exact numbered

theorem plain_legible {r : Resolution expr} (plain : r.Plain) : r.tree.Legible := by
  refine ⟨r.tree_alone plain.alone, plain.named, ?_⟩
  intro value member
  cases value with
  | decimal x => exact plan_finite.1 _ _ _ r.made x (r.tree_literals ▸ member)
  | timestamp t => exact plain.whole _ member
  | string _ | integer _ | boolean _ | date _ => trivial

end Resolution

-- Equal texts are texts of one tree, and no literal is read beyond its end.
theorem trees_told {one : Resolution first} {two : Resolution second} (plain : one.Plain)
    (other : two.Plain) :
    (one.tree.text = two.tree.text → one.tree = two.tree) ∧
      ∀ rest more : String, Stops continues rest.toList → Stops continues more.toList →
        one.tree.text ++ rest = two.tree.text ++ more → one.tree = two.tree ∧ rest = more := by
  have legible := one.plain_legible plain
  have readable := two.plain_legible other
  constructor
  · intro same
    have texts := congrArg (·.toList ++ []) same
    exact (Term.text_read legible readable (stops_nil _) (stops_nil _) texts).1
  · intro rest more ends halts same
    have texts := congrArg String.toList same
    rw [String.toList_append, String.toList_append] at texts
    obtain ⟨trees, after⟩ := Term.text_read legible readable ends halts texts
    exact ⟨trees, String.toList_inj.mp after⟩

-- A string that holds SQL of its own and a leap second, asked of an order and, by a calculated
-- attribute, of the order of an item; and the comparisons that the string looks like.
namespace Orders

def state (value : String) : Expr :=
  .binary .equals (.read "orders" "state" .string) (.literal (.string value)) .boolean

def leap : Timestamp := ⟨⟨2016, 12, 31⟩, 23, 59, 59, 1000000000⟩

def placed : Expr :=
  .binary .lessThan (.read "orders" "placed" .string) (.literal (.timestamp leap)) .boolean

def both : Expr := .binary .and (state "paid' OR 'x' = 'x") placed .boolean

def either : Expr :=
  .binary .or (state "paid")
    (.binary .equals (.literal (.string "x")) (.literal (.string "x")) .boolean) .boolean

def order : Attribute :=
  ⟨"items", "order", .reference "orders" "orders"
    (.binary .equals (.read "items" "order_id" .string) (.read "orders" "id" .string) .boolean)⟩

def itemBoth : Expr :=
  .compose (.access order .matching) (.access ⟨"orders", "both", .value both⟩ .matching)

def origin : Path := .root "items"

def arrived : Path := origin.extend "items" "order" "orders"

def direct : Resolution both :=
  ⟨.at (.root "orders"), ⟨[(.root "orders", "orders")], 0⟩, 0, ⟨_, _⟩, rfl⟩

def led : Resolution itemBoth :=
  ⟨.at origin, ⟨[(origin, "items"), (arrived, "orders")], 0⟩, 0, ⟨_, _⟩, rfl⟩

def split : Resolution (.binary .and either placed .boolean) :=
  ⟨.at (.root "orders"), ⟨[(.root "orders", "orders")], 0⟩, 0, ⟨_, _⟩, rfl⟩

theorem direct_plain : direct.Plain := ⟨rfl, by decide, by decide⟩

theorem led_plain : led.Plain := ⟨rfl, by decide, by decide⟩

theorem split_plain : split.Plain := ⟨rfl, by decide, by decide⟩

theorem both_told : direct.Plain ∧ led.Plain ∧ split.Plain ∧
    direct.tree.text = "((orders.state = 'paid'' OR ''x'' = ''x') AND " ++
      "(orders.placed < to_timestamp('2016-12-31 23:59:60', 'YYYY-MM-DD HH24:MI:SS')))" ∧
    split.tree.text = "(((orders.state = 'paid') OR ('x' = 'x')) AND " ++
      "(orders.placed < to_timestamp('2016-12-31 23:59:60', 'YYYY-MM-DD HH24:MI:SS')))" ∧
    direct.tree = led.tree ∧ direct.tree.text ≠ split.tree.text := by
  have same : direct.tree.text = led.tree.text := by decide +kernel
  refine ⟨direct_plain, led_plain, split_plain, by decide +kernel, by decide +kernel, ?_, ?_⟩
  · exact (trees_told direct_plain led_plain).1 same
  · intro alike
    have trees := (trees_told direct_plain split_plain).1 alike
    exact absurd (congrArg Term.literals trees) (by decide +kernel)

end Orders

end SemanticLayer
