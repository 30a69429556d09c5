import SemanticLayer.Proofs.Narrowing
import SemanticLayer.Proofs.Staging

namespace SemanticLayer

-- Taking in a schema whose names stay apart can fail in one way only: a key names a column that is
-- not there.

def Schema.HasTable (s : Schema) (table : String) : Prop := ∃ t ∈ s.tables, t.name = table

def Schema.HasColumn (s : Schema) (table column : String) : Prop :=
  ∃ t ∈ s.tables, t.name = table ∧ ∃ c ∈ t.columns, c.name = column

instance (s : Schema) (table : String) : Decidable (s.HasTable table) :=
  inferInstanceAs (Decidable (∃ t ∈ s.tables, t.name = table))

instance (s : Schema) (table column : String) : Decidable (s.HasColumn table column) :=
  inferInstanceAs (Decidable (∃ t ∈ s.tables, t.name = table ∧ ∃ c ∈ t.columns, c.name = column))

def ForeignKey.Stands (key : ForeignKey) (s : Schema) : Prop :=
  key.pairs ≠ [] ∧ s.HasTable key.source ∧ s.HasTable key.target

instance (key : ForeignKey) (s : Schema) : Decidable (key.Stands s) :=
  inferInstanceAs (Decidable (_ ∧ _ ∧ _))

def Schema.missing (s : Schema) (table column : String) : List (String × String) :=
  if s.HasColumn table column then [] else [(table, column)]

def ForeignKey.missing (key : ForeignKey) (s : Schema) : List (String × String) :=
  key.pairs.flatMap fun pair => s.missing key.source pair.1 ++ s.missing key.target pair.2

-- The columns that keys name and that are not there, in the order in which they are named.
def Schema.unknown (s : Schema) : List (String × String) :=
  s.foreignKeys.flatMap fun key => if key.Stands s then key.missing s else []

-- What comes out where columns may be missing: the first of them decides.
def Decides {α : Type} (missing : List (String × String)) (good : α → Prop) :
    Except Error α → Prop
  | .ok value => missing = [] ∧ good value
  | .error error => ∃ named, missing.head? = some named ∧ error = .unknownColumn named.1 named.2

theorem decides_bind {α β : Type} {good : α → Prop} {fine : β → Prop} {first : Except Error α}
    {next : α → Except Error β} (one : Decides missing good first)
    (two : ∀ value, good value → Decides more fine (next value)) :
    Decides (missing ++ more) fine (first >>= next) := by
  cases first with
  | ok value =>
    obtain ⟨rfl, reached⟩ := one
    exact two value reached
  | error error =>
    obtain ⟨named, head, same⟩ := one
    exact ⟨named, by rw [List.head?_append, head]; rfl, same⟩

theorem decides_then {α β : Type} {good : α → Prop} {fine : β → Prop} {first : Except Error α}
    {next : α → Except Error β} (one : Decides missing good first)
    (two : ∀ value, good value → ∃ result, next value = .ok result ∧ fine result) :
    Decides missing fine (first >>= next) := by
  have decided : Decides (missing ++ []) fine (first >>= next) := by
    refine decides_bind one ?_
    intro value reached
    obtain ⟨result, made, fine⟩ := two value reached
    rw [made]
    exact ⟨rfl, fine⟩
  rwa [List.append_nil] at decided

-- In a run, what holds may speak of the items that have been gone through.
theorem decides_fold {σ α : Type} {f : σ → α → Except Error σ}
    (missing : α → List (String × String)) (holds : List α → σ → Prop) (items : List α)
    (step : ∀ item ∈ items, ∀ done state, holds done state →
      Decides (missing item) (holds (done ++ [item])) (f state item))
    (done : List α) (start : σ) (first : holds done start) :
    Decides (items.flatMap missing) (holds (done ++ items)) (items.foldlM f start) := by
  induction items generalizing done start with
  | nil =>
    rw [List.append_nil]
    exact ⟨rfl, first⟩
  | cons item rest ih =>
    rw [List.foldlM_cons, List.flatMap_cons]
    refine decides_bind (step item List.mem_cons_self done start first) ?_
    intro state reached
    rw [List.append_cons]
    exact ih (fun later member => step later (List.mem_cons_of_mem item member)) _ state reached

def ForeignKey.Equates (key : ForeignKey) (options : IngestOptions) (source target : Table)
    (pair : String × String) (equality : Expr) : Prop :=
  ∃ near ∈ source.columns, ∃ far ∈ target.columns, near.name = pair.1 ∧ far.name = pair.2 ∧
    equality = .binary .equals
      (.access (options.columnOf source near) (keySides key.source key.target).1)
      (.access (options.columnOf target far) (keySides key.source key.target).2) .boolean

-- The conjunction nests to the left.
def ForeignKey.Compares (key : ForeignKey) (options : IngestOptions) (source target : Table)
    (pairs : List (String × String)) (condition : Expr) : Prop :=
  ∃ first rest, List.Forall₂ (key.Equates options source target) pairs (first :: rest) ∧
    condition = first.conjoined rest

def keySource (owner aim : String) : Source :=
  if owner = aim then .domain owner else .cross owner aim

theorem equates_source (equates : ForeignKey.Equates key options source target pair equality) :
    equality.source = some (keySource (options.domainName source.name)
      (options.domainName target.name)) := by
  obtain ⟨near, _, far, _, _, _, rfl⟩ := equates
  unfold keySource
  by_cases same : options.domainName source.name = options.domainName target.name
  · simp [Expr.source, Source.union, IngestOptions.columnOf, Attribute.mapped, same]
  · simp [Expr.source, Source.union, IngestOptions.columnOf, Attribute.mapped, same]

theorem conjoined_source (rest : List Expr) (one : Expr.source first = source)
    (more : ∀ e ∈ rest, e.source = source) : (first.conjoined rest).source = source := by
  unfold Expr.conjoined
  induction rest generalizing first with
  | nil => exact one
  | cons e rest ih =>
    refine ih ?_ fun later member => more later (List.mem_cons_of_mem e member)
    have same := more e List.mem_cons_self
    cases source <;> simp [Expr.source, Source.union, one, same]

theorem conjoined_type (rest : List Expr) (one : Expr.type first = .boolean) :
    (first.conjoined rest).type = .boolean := by
  unfold Expr.conjoined
  induction rest generalizing first with
  | nil => exact one
  | cons e rest ih => exact ih rfl

theorem compares_source (compares : ForeignKey.Compares key options source target pairs condition) :
    condition.source = some (keySource (options.domainName source.name)
      (options.domainName target.name)) ∧ condition.type = .boolean := by
  obtain ⟨first, rest, equates, rfl⟩ := compares
  obtain ⟨pair, pairs, one, more, rfl⟩ := List.forall₂_cons_right_iff.mp equates
  constructor
  · refine conjoined_source rest (equates_source one) ?_
    intro e member
    obtain ⟨pair, _, equates⟩ := forall₂_right more member
    exact equates_source equates
  · obtain ⟨_, _, _, _, _, _, rfl⟩ := one
    exact conjoined_type rest rfl

theorem compares_checked (compares : ForeignKey.Compares key options source target pairs condition) :
    checkJoin (options.domainName source.name) (options.domainName target.name) condition =
      .ok () := by
  obtain ⟨sourced, boolean⟩ := compares_source compares
  unfold checkJoin
  rw [boolean, sourced, keySource]
  by_cases same : options.domainName source.name = options.domainName target.name
  · simp [same]
  · simp [same, Source.Pairs]

theorem compares_first (equates : ForeignKey.Equates key options source target pair equality) :
    key.Compares options source target [pair] equality :=
  ⟨equality, [], .cons equates .nil, rfl⟩

theorem compares_next (compares : ForeignKey.Compares key options source target pairs condition)
    (equates : key.Equates options source target pair equality) :
    key.Compares options source target (pairs ++ [pair]) (.binary .and condition equality .boolean) := by
  obtain ⟨first, rest, all, rfl⟩ := compares
  refine ⟨first, rest ++ [equality], ?_, ?_⟩
  · exact List.rel_append all (.cons equates .nil)
  · simp [Expr.conjoined]

theorem both_made (one : Expr.source left = some source) (two : Expr.source right = some source) :
    left.both right = .ok (.binary .and left right .boolean) := by
  have united : Source.union left.source right.source = .ok (some source) := by
    rw [one, two]
    cases source <;> simp [Source.union]
  unfold Expr.both Expr.operation
  rw [united]
  rfl

theorem equality_made (near far : Attribute) (nearSide farSide : Side) :
    Expr.operation .equals (.access near nearSide) (.access far farSide) =
      .ok (.binary .equals (.access near nearSide) (.access far farSide) .boolean) := by
  have united : Source.union (Expr.access near nearSide).source (Expr.access far farSide).source =
      .ok (some (keySource near.domain far.domain)) := by
    by_cases same : near.domain = far.domain
    · simp [Expr.source, Source.union, keySource, same]
    · simp [Expr.source, Source.union, keySource, same]
  unfold Expr.operation
  rw [united]
  rfl

def Domain.Shows (options : IngestOptions) (d : Domain) (t : Table) : Prop :=
  ∀ c ∈ t.columns, d.attribute? (options.attributeName c.name) = some (options.columnOf t c)

theorem separated_named (separates : IngestOptions.Separates options schema)
    (present : t ∈ schema.tables) (other : u ∈ schema.tables) (same : u.name = t.name) : u = t :=
  List.inj_on_of_nodup_map separates.tables other present (congrArg options.domainName same)

section
variable {options : IngestOptions} {schema : Schema} (separates : options.Separates schema)
include separates

theorem column_decides (present : t ∈ schema.tables) (shows : Domain.Shows options d t)
    (column : String) :
    Decides (schema.missing t.name column)
      (fun member => ∃ c ∈ t.columns, c.name = column ∧ member = options.columnOf t c)
      (columnAttribute options d t column) := by
  unfold columnAttribute Schema.missing
  cases found : t.column? column with
  | some c =>
    have inside : c ∈ t.columns := List.mem_of_find?_eq_some found
    have named : c.name = column := by simpa using List.find?_some found
    have held : d.lookup (options.attributeName column) = .ok (options.columnOf t c) := by
      rw [Domain.lookup, ← named, shows c inside]
    dsimp only
    rw [if_pos ⟨t, present, rfl, c, inside, named⟩, held]
    exact ⟨rfl, c, inside, named, rfl⟩
  | none =>
    have absent : ¬ schema.HasColumn t.name column := by
      rintro ⟨u, other, same, c, inside, named⟩
      cases separated_named separates present other same
      have fails := List.find?_eq_none.mp found c inside
      simp [named] at fails
    rw [if_neg absent]
    exact ⟨_, rfl, rfl⟩

variable {ends : KeyEnds} {key : ForeignKey} (source : ends.source ∈ schema.tables)
  (target : ends.target ∈ schema.tables) (named : ends.source.name = key.source)
  (aimed : ends.target.name = key.target) (near : ends.owner.Shows options ends.source)
  (far : ends.aim.Shows options ends.target)
include source target named aimed near far

theorem pair_decides (pair : String × String) :
    Decides (schema.missing key.source pair.1 ++ schema.missing key.target pair.2)
      (key.Equates options ends.source ends.target pair)
      (ends.pairCondition options key.isReflexive pair) := by
  rw [← named, ← aimed]
  refine decides_bind (column_decides separates source near pair.1) ?_
  rintro _ ⟨c, inside, one, rfl⟩
  refine decides_then (column_decides separates target far pair.2) ?_
  rintro _ ⟨k, within, two, rfl⟩
  have sides : (if key.isReflexive = true then (Side.left, Side.right) else (.matching, .matching)) =
      keySides key.source key.target := by
    simp only [ForeignKey.isReflexive, keySides, beq_iff_eq]
  rw [sides]
  exact ⟨_, equality_made _ _ _ _, c, inside, k, within, one, two, rfl⟩

theorem condition_decides (pairs : key.pairs = first :: rest) :
    Decides (key.missing schema) (key.Compares options ends.source ends.target key.pairs)
      (ends.condition options key.isReflexive first rest) := by
  unfold ForeignKey.missing
  rw [pairs, List.flatMap_cons]
  refine decides_bind (pair_decides separates source target named aimed near far first) ?_
  intro equality equates
  refine decides_fold _ (key.Compares options ends.source ends.target) rest ?_ [first] equality
    (compares_first equates)
  intro pair _ done condition compares
  refine decides_then (pair_decides separates source target named aimed near far pair) ?_
  intro next equates
  exact ⟨_, both_made (compares_source compares).1 (equates_source equates),
    compares_next compares equates⟩

end

end SemanticLayer
