import SemanticLayer.Proofs.Keys
import SemanticLayer.Proofs.Readings

namespace SemanticLayer

-- Planning over a model that a schema made can fail in one way only: a path ends at a reference,
-- and a record is asked for where a value is wanted. The first such path decides.

def Expr.ends : Expr → List Attribute
  | .access member _ => [member]
  | .compose _ composition => composition.ends
  | .binary _ left right _ => left.ends ++ right.ends
  | .aggregate _ operand => operand.ends
  | _ => []

def Query.ends (q : Query) : List Attribute :=
  q.projections.flatMap (·.expr.ends) ++ q.filter.toList.flatMap Expr.ends

def Query.EndsAtReference (q : Query) : Prop := ∃ member ∈ q.ends, member.isReference = true

def Settles {α : Type} (ends : List Attribute) (good : α → Prop) (result : Except Error α) : Prop :=
  match ends.find? (·.isReference) with
  | none => ∃ value, result = .ok value ∧ good value
  | some member => result = .error (.referenceAsValue member.domain member.name)

theorem settles_ok {α : Type} {good : α → Prop} {value : α} (fine : good value) :
    Settles [] good (.ok value) := ⟨value, rfl, fine⟩

theorem settles_bind {α β : Type} {good : α → Prop} {fine : β → Prop} {first : Except Error α}
    {next : α → Except Error β} (one : Settles ends good first)
    (two : ∀ value, good value → Settles more fine (next value)) :
    Settles (ends ++ more) fine (first >>= next) := by
  unfold Settles at one ⊢
  rw [List.find?_append]
  cases found : ends.find? (·.isReference) with
  | none =>
    rw [found] at one
    obtain ⟨value, rfl, reached⟩ := one
    exact two value reached
  | some member =>
    rw [found] at one
    rw [one]
    rfl

theorem ok_bind {α β : Type} {value : α} {first : Except Error α} {next : α → Except Error β}
    (made : first = .ok value) : first >>= next = next value := by
  rw [made]
  rfl

theorem settles_then {α β : Type} {good : α → Prop} {fine : β → Prop} {first : Except Error α}
    {next : α → Except Error β} (one : Settles ends good first)
    (two : ∀ value, good value → ∃ result, next value = .ok result ∧ fine result) :
    Settles ends fine (first >>= next) := by
  have settled : Settles (ends ++ []) fine (first >>= next) := settles_bind one two
  rwa [List.append_nil] at settled

theorem settles_map {α β : Type} {good : α → Prop} {fine : β → Prop} {first : Except Error α}
    {result : α → β} (one : Settles ends good first)
    (two : ∀ value, good value → fine (result value)) :
    Settles ends fine (first >>= fun value => pure (result value)) :=
  settles_then one fun value reached => ⟨result value, rfl, two value reached⟩

def Hop.Direct (hop : Hop) : Prop := ∃ term, hop.condition () = .planned term []

def Planned.Direct (planned : Planned) : Prop := ∀ hop ∈ planned.hops, hop.Direct

theorem direct_none (term : Term Path Unit) : Planned.Direct ⟨term, []⟩ := by
  intro hop member
  cases member

theorem joinClauses_direct (seen : List Path) (hops : List Hop) (direct : ∀ hop ∈ hops, hop.Direct) :
    ∃ clauses, joinClauses seen hops = .ok clauses := by
  induction hops generalizing seen with
  | nil => exact ⟨[], by rw [joinClauses]⟩
  | cons hop rest ih =>
    obtain ⟨path, table, condition⟩ := hop
    have later : ∀ hop ∈ rest, hop.Direct :=
      fun hop member => direct hop (List.mem_cons_of_mem _ member)
    by_cases present : path ∈ seen
    · rw [joinClauses_seen present]
      exact ih seen later
    · obtain ⟨term, planned⟩ := direct _ List.mem_cons_self
      rw [joinClauses_planned present planned, List.append_nil]
      obtain ⟨clauses, made⟩ := ih (path :: seen) later
      exact ⟨⟨.join path table, term⟩ :: clauses, by rw [made]; rfl⟩

-- A path of the model: it starts at the domain, and every reference on it has a key's condition.
inductive Expr.Chain : String → Expr → Prop where
  | last : Attribute.Ingested domain member → Chain domain (.access member .matching)
  | step : Expr.Keys domain target condition → Chain target rest →
      Chain domain
        (.compose (.access ⟨domain, label, .reference target table condition⟩ .matching) rest)

theorem chain_settles (expr : Expr) (path : Path) (chain : expr.Chain path.domain) :
    Settles expr.ends Planned.Direct (expr.plan (.at path)) := by
  generalize started : path.domain = domain at chain
  induction chain generalizing path with
  | last ingested =>
    subst started
    cases ingested with
    | column mapped =>
      obtain ⟨name, column, type, rfl⟩ := mapped
      exact ⟨_, column_planned rfl, direct_none _⟩
    | reference =>
      rw [Expr.plan]
      exact rfl
  | @step domain target condition rest label table keys _ ih =>
    subst started
    obtain ⟨term, planned⟩ := keys_planned
      (show Expr.Keys path.domain (path.extend path.domain label target).domain condition from keys)
    have next := ih (path.extend path.domain label target) rfl
    rw [Expr.plan, Expr.navigate, Expr.ends]
    refine settles_map next ?_
    intro inner direct hop member
    rcases List.mem_cons.mp member with rfl | later
    · exact ⟨term, by rw [planned]; rfl⟩
    · exact direct hop later

def Literal.Finite : Literal → Prop
  | .decimal value => value.isFinite = true
  | _ => True

inductive Expr.Asked (domain : String) : Expr → Prop where
  | literal : Literal.Finite value → Asked domain (.literal value)
  | path : Expr.Chain domain expr → Asked domain expr
  | binary : Asked domain left → Asked domain right →
      Asked domain (.binary operator left right result)
  | aggregate : Asked domain operand → Asked domain (.aggregate function operand)
  | countAll : Asked domain .countAll

structure Query.Asked (q : Query) : Prop where
  columns : ∀ p ∈ q.projections, p.expr.Asked q.source
  filter : ∀ condition ∈ q.filter, condition.Asked q.source

theorem asked_settles (expr : Expr) (path : Path) (asked : expr.Asked path.domain) :
    Settles expr.ends Planned.Direct (expr.plan (.at path)) := by
  induction asked with
  | @literal value finite =>
    have planned : planLiteral value = .ok ⟨.literal value, []⟩ := by
      cases value with
      | decimal value => exact if_pos finite
      | _ => rfl
    rw [Expr.plan, planned]
    exact settles_ok (direct_none _)
  | path chain => exact chain_settles _ path chain
  | binary _ _ one two =>
    rw [Expr.plan, Expr.ends]
    refine settles_bind one fun first directFirst => ?_
    refine settles_map two fun second directSecond hop member => ?_
    rcases List.mem_append.mp member with inLeft | inRight
    · exact directFirst hop inLeft
    · exact directSecond hop inRight
  | aggregate _ ih =>
    rw [Expr.plan, Expr.ends]
    exact settles_map ih fun _ direct => direct
  | countAll =>
    rw [Expr.plan]
    exact settles_ok (direct_none _)

theorem projections_settle (root : Path) (projections : List Projection)
    (asked : ∀ p ∈ projections, p.expr.Asked root.domain) :
    Settles (projections.flatMap (·.expr.ends))
      (fun columns : List (Projection × Planned) => ∀ column ∈ columns, column.2.Direct)
      (planProjections root projections) := by
  induction projections with
  | nil =>
    rw [planProjections]
    exact settles_ok (by simp)
  | cons p rest ih =>
    obtain ⟨label, expr⟩ := p
    rw [planProjections, List.flatMap_cons]
    refine settles_bind (asked_settles expr root (asked _ List.mem_cons_self)) ?_
    intro planned direct
    refine settles_map (ih fun p member => asked p (List.mem_cons_of_mem _ member)) ?_
    intro columns directs column member
    rcases List.mem_cons.mp member with rfl | later
    · exact direct
    · exact directs column later

theorem filter_settles (root : Path) (filter : Option Expr)
    (asked : ∀ condition ∈ filter, condition.Asked root.domain) :
    Settles (filter.toList.flatMap Expr.ends)
      (fun restriction : Option Planned => ∀ planned ∈ restriction, planned.Direct)
      (match filter with
        | none => pure none
        | some condition => some <$> condition.plan (.at root)) := by
  cases filter with
  | none => exact settles_ok (by simp)
  | some condition =>
    rw [Option.toList_some, List.flatMap_singleton]
    refine settles_map (asked_settles condition root (asked condition rfl)) ?_
    rintro planned direct _ ⟨⟩
    exact direct

theorem query_settles (q : Query) (asked : q.Asked) : Settles q.ends (fun _ => True) q.plan := by
  obtain ⟨name, source, table, projections, filter⟩ := q
  rw [Query.plan, Query.ends]
  refine settles_bind (projections_settle (.root source) projections asked.columns) ?_
  intro columns directs
  have joined : ∀ restriction : Option Planned, (∀ planned ∈ restriction, planned.Direct) →
      ∃ joins, joinClauses [.root source]
        (columns.flatMap (·.2.hops) ++ (restriction.map (·.hops)).getD []) = .ok joins := by
    intro restriction direct
    apply joinClauses_direct
    intro hop member
    rcases List.mem_append.mp member with column | filter
    · obtain ⟨column, present, inside⟩ := List.mem_flatMap.mp column
      exact directs column present hop inside
    · cases restriction with
      | none => cases filter
      | some planned => exact direct planned rfl hop filter
  cases filter with
  | none =>
    refine settles_then (filter_settles (.root source) none asked.filter) ?_
    intro restriction direct
    obtain ⟨joins, made⟩ := joined restriction direct
    exact ⟨_, ok_bind made, trivial⟩
  | some condition =>
    refine settles_then (filter_settles (.root source) (some condition) asked.filter) ?_
    intro restriction direct
    obtain ⟨joins, made⟩ := joined restriction direct
    exact ⟨_, ok_bind made, trivial⟩

theorem sql_settles (q : Query) (asked : q.Asked) : Settles q.ends (fun _ => True) q.sql := by
  have stated : Settles q.ends (fun _ => True) (q.statement 0) :=
    settles_map (query_settles q asked) fun _ _ => trivial
  have written : Settles q.ends (fun _ => True) (q.sqlFrom 0) :=
    settles_map stated fun _ _ => trivial
  exact settles_map written fun _ _ => trivial

end SemanticLayer
