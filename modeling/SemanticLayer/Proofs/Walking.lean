import SemanticLayer.Formula
import SemanticLayer.Proofs.Operations

namespace SemanticLayer

def Attribute.target? (member : Attribute) : Option String :=
  match member.definition with
  | .reference target _ _ => some target
  | .value _ => none

namespace Domain

-- Where a reference leads from a domain. One to a domain of the same name stays.
def next? (m : Model) (d : Domain) (target : String) : Option Domain :=
  if target = d.name then some d else m.domain? target

inductive Visits (m : Model) : Domain → List String → Attribute → List Attribute → Prop where
  | last : d.attribute? label = some member → Visits m d [label] member []
  | step : d.attribute? label = some member → member.target? = some target →
      d.next? m target = some aim → Visits m aim (next :: rest) second others →
      Visits m d (label :: next :: rest) member (second :: others)

inductive Halts (m : Model) : Domain → List String → Error → Prop where
  | unknown : d.attribute? label = none →
      Halts m d (label :: rest) (.unknownAttribute d.name label)
  | value : d.attribute? label = some member → member.target? = none →
      Halts m d (label :: next :: rest) (.notAReference d.name label)
  | lost : d.attribute? label = some member → member.target? = some target →
      d.next? m target = none → Halts m d (label :: next :: rest) (.unknownDomain target)
  | later : d.attribute? label = some member → member.target? = some target →
      d.next? m target = some aim → Halts m aim (next :: rest) error →
      Halts m d (label :: next :: rest) error

def Owns (d : Domain) : Prop := ∀ label member, d.attribute? label = some member → member.domain = d.name

end Domain

def Model.Owns (m : Model) : Prop := ∀ name d, m.domain? name = some d → d.Owns

def Expr.along (first : Attribute) : List Attribute → Expr
  | [] => .access first .matching
  | next :: rest => .compose (.access first .matching) (along next rest)

theorem along_depth (first : Attribute) (rest : List Attribute) :
    (Expr.along first rest).depth = rest.length := by
  induction rest generalizing first with
  | nil => rfl
  | cons next rest ih => rw [Expr.along, Expr.depth, ih, List.length_cons]

theorem along_terminal (first : Attribute) (rest : List Attribute) :
    (Expr.along first rest).terminal = .access (rest.getLastD first) .matching := by
  induction rest generalizing first with
  | nil => rfl
  | cons next rest ih => rw [Expr.along, Expr.terminal, ih, List.getLastD_cons]

theorem along_type (first : Attribute) (rest : List Attribute) :
    (Expr.along first rest).type = (rest.getLastD first).type := by
  induction rest generalizing first with
  | nil => obtain ⟨domain, name, value | reference⟩ := first <;> rfl
  | cons next rest ih => rw [Expr.along, Expr.type, ih, List.getLastD_cons]

theorem along_source (first : Attribute) (rest : List Attribute) :
    (Expr.along first rest).source = some (.domain first.domain) := by
  cases rest <;> rfl

theorem target_reference (led : Attribute.target? member = some target) :
    ∃ table condition, member.definition = .reference target table condition := by
  unfold Attribute.target? at led
  split at led
  · rename_i found table condition defined
    cases led
    exact ⟨table, condition, defined⟩
  · cases led

theorem target_value (still : Attribute.target? member = none) :
    ∃ expr, member.definition = .value expr := by
  unfold Attribute.target? at still
  split at still
  · cases still
  · rename_i expr defined
    exact ⟨expr, defined⟩

theorem next_named (reached : Domain.next? m d target = some aim) : aim.name = target := by
  unfold Domain.next? at reached
  split at reached
  · rename_i same
    cases reached
    exact same.symm
  · exact domain_named reached

theorem next_owns (owns : Model.Owns m) (own : Domain.Owns d) (reached : d.next? m target = some aim) :
    aim.Owns := by
  unfold Domain.next? at reached
  split at reached
  · cases reached
    exact own
  · exact owns target aim reached

theorem along_composed (led : Attribute.target? member = some second.domain) (others : List Attribute) :
    Expr.composed (.access member .matching) (.along second others) =
      .ok (.along member (second :: others)) := by
  obtain ⟨table, condition, defined⟩ := target_reference led
  obtain ⟨domain, name, definition⟩ := member
  cases defined
  simp [Expr.composed, Expr.type, along_source, Expr.along]

theorem walk_last (found : Domain.attribute? d label = some member) :
    d.walk m label [] = .ok (.access member .matching) := by
  simp [Domain.walk, Domain.lookup, found, bind, Except.bind, pure, Except.pure]

theorem walk_unknown (missing : Domain.attribute? d label = none) (rest : List String) :
    d.walk m label rest = .error (.unknownAttribute d.name label) := by
  cases rest <;> simp [Domain.walk, Domain.lookup, missing, bind, Except.bind]

theorem walk_value (found : Domain.attribute? d label = some member) (still : member.target? = none)
    (next : String) (rest : List String) :
    d.walk m label (next :: rest) = .error (.notAReference d.name label) := by
  obtain ⟨expr, defined⟩ := target_value still
  simp [Domain.walk, Domain.lookup, found, defined, bind, Except.bind, throw, throwThe,
    MonadExceptOf.throw]

theorem walk_step (found : Domain.attribute? d label = some member) (led : member.target? = some target)
    (next : String) (rest : List String) :
    d.walk m label (next :: rest) =
      match d.next? m target with
      | some aim => aim.walk m next rest >>= Expr.composed (.access member .matching)
      | none => .error (.unknownDomain target) := by
  obtain ⟨table, condition, defined⟩ := target_reference led
  unfold Domain.next?
  by_cases same : target = d.name
  · simp [Domain.walk, Domain.lookup, found, defined, same, bind, Except.bind, pure, Except.pure]
  · cases known : m.domain? target <;>
      simp [Domain.walk, Domain.lookup, Model.lookup, found, defined, same, known, bind, Except.bind]

theorem visits_owned (own : Domain.Owns d) (visits : d.Visits m labels first rest) :
    first.domain = d.name := by
  cases visits with
  | last found => exact own _ _ found
  | step found => exact own _ _ found

theorem visits_walk (owns : Model.Owns m) (own : Domain.Owns d)
    (visits : d.Visits m (label :: rest) first others) :
    d.walk m label rest = .ok (.along first others) := by
  induction rest generalizing d label first others with
  | nil =>
    cases visits with
    | last found => exact walk_last found
  | cons next rest ih =>
    cases visits with
    | step found led reached onward =>
      have owned := next_owns owns own reached
      have named := (visits_owned owned onward).trans (next_named reached)
      rw [walk_step found led, reached]
      dsimp only
      rw [ih owned onward]
      exact along_composed (named ▸ led) _

theorem halts_walk (owns : Model.Owns m) (own : Domain.Owns d)
    (halts : d.Halts m (label :: rest) error) : d.walk m label rest = .error error := by
  induction rest generalizing d label with
  | nil =>
    cases halts with
    | unknown missing => exact walk_unknown missing []
  | cons next rest ih =>
    cases halts with
    | unknown missing => exact walk_unknown missing _
    | value found still => exact walk_value found still next rest
    | lost found led nowhere => rw [walk_step found led, nowhere]
    | later found led reached onward =>
      rw [walk_step found led, reached]
      dsimp only
      rw [ih (next_owns owns own reached) onward]
      rfl

theorem visits_or_halts (m : Model) (d : Domain) (label : String) (rest : List String) :
    (∃ first others, d.Visits m (label :: rest) first others) ∨
      ∃ error, d.Halts m (label :: rest) error := by
  induction rest generalizing d label with
  | nil =>
    cases found : d.attribute? label with
    | none => exact .inr ⟨_, .unknown found⟩
    | some member => exact .inl ⟨member, [], .last found⟩
  | cons next rest ih =>
    cases found : d.attribute? label with
    | none => exact .inr ⟨_, .unknown found⟩
    | some member =>
      cases led : member.target? with
      | none => exact .inr ⟨_, .value found led⟩
      | some target =>
        cases reached : d.next? m target with
        | none => exact .inr ⟨_, .lost found led reached⟩
        | some aim =>
          rcases ih aim next with ⟨second, others, onward⟩ | ⟨error, onward⟩
          · exact .inl ⟨member, second :: others, .step found led reached onward⟩
          · exact .inr ⟨error, .later found led reached onward⟩

theorem walk_ok_iff (owns : Model.Owns m) (own : Domain.Owns d) :
    d.walk m label rest = .ok expr ↔
      ∃ first others, d.Visits m (label :: rest) first others ∧ expr = .along first others := by
  constructor
  · intro walked
    rcases visits_or_halts m d label rest with ⟨first, others, visits⟩ | ⟨error, halts⟩
    · have same := walked.symm.trans (visits_walk owns own visits)
      exact ⟨first, others, visits, Except.ok.inj same⟩
    · cases walked.symm.trans (halts_walk owns own halts)
  · rintro ⟨first, others, visits, rfl⟩
    exact visits_walk owns own visits

theorem walk_error_iff (owns : Model.Owns m) (own : Domain.Owns d) :
    d.walk m label rest = .error error ↔ d.Halts m (label :: rest) error := by
  constructor
  · intro walked
    rcases visits_or_halts m d label rest with ⟨first, others, visits⟩ | ⟨other, halts⟩
    · cases walked.symm.trans (visits_walk owns own visits)
    · cases walked.symm.trans (halts_walk owns own halts)
      exact halts
  · exact halts_walk owns own

theorem visits_length (visits : Domain.Visits m d labels first rest) :
    rest.length + 1 = labels.length := by
  induction visits with
  | last => rfl
  | step _ _ _ _ ih => rw [List.length_cons, ih, ← List.length_cons]

theorem halts_cause (halts : Domain.Halts m d labels error) :
    (∃ domain, ∃ label ∈ labels,
      error = .unknownAttribute domain label ∨ error = .notAReference domain label) ∨
      ∃ target, m.domain? target = none ∧ error = .unknownDomain target := by
  induction halts with
  | unknown => exact .inl ⟨_, _, List.mem_cons_self, .inl rfl⟩
  | value => exact .inl ⟨_, _, List.mem_cons_self, .inr rfl⟩
  | lost _ _ nowhere =>
    unfold Domain.next? at nowhere
    split at nowhere
    · cases nowhere
    · exact .inr ⟨_, nowhere, rfl⟩
  | later _ _ _ _ ih =>
    refine ih.imp_left ?_
    rintro ⟨domain, label, member, cause⟩
    exact ⟨domain, label, List.mem_cons_of_mem _ member, cause⟩

theorem go_nonempty (segment text : List Char) : pathSegments.go segment text ≠ [] := by
  fun_induction pathSegments.go segment text with
  | case1 segment => exact List.cons_ne_nil _ _
  | case2 segment text ih => exact List.cons_ne_nil _ _
  | case3 segment c text plain ih => exact ih

theorem go_parts (segment text : List Char) (clean : '.' ∉ segment) :
    ['.'].intercalate (pathSegments.go segment text) = segment.reverse ++ text ∧
      ∀ part ∈ pathSegments.go segment text, '.' ∉ part := by
  fun_induction pathSegments.go segment text with
  | case1 segment => simpa using clean
  | case2 segment text ih =>
    obtain ⟨whole, parts⟩ := ih List.not_mem_nil
    constructor
    · rw [List.intercalate_cons_of_ne_nil (go_nonempty [] text), whole]
      simp
    · intro part member
      rcases List.mem_cons.mp member with rfl | later
      · simpa using clean
      · exact parts part later
  | case3 segment c text plain ih =>
    have apart : '.' ≠ c := fun same => plain same.symm
    obtain ⟨whole, parts⟩ := ih (by simp [apart, clean])
    exact ⟨by simp [whole], parts⟩

theorem segments_split (path : String) :
    ['.'].intercalate ((pathSegments path).map String.toList) = path.toList ∧
      ∀ segment ∈ pathSegments path, '.' ∉ segment.toList := by
  obtain ⟨whole, parts⟩ := go_parts [] path.toList List.not_mem_nil
  have read : (pathSegments path).map String.toList = pathSegments.go [] path.toList := by
    simp [pathSegments, Function.comp_def]
  constructor
  · rw [read, whole]
    rfl
  · intro segment member
    exact parts segment.toList (read ▸ List.mem_map_of_mem member)

theorem segments_some (path : String) : ∃ label rest, pathSegments path = label :: rest := by
  have some : pathSegments path ≠ [] := fun none =>
    go_nonempty [] path.toList (List.map_eq_nil_iff.mp none)
  exact List.exists_cons_of_ne_nil some

theorem sound_owns (sound : Model.Sound m) : m.Owns := by
  intro name d found label member held
  exact ((formed_sound (sound.domains d (find_member found))).members member (find_member held)).owned

theorem formed_owns (formed : Domain.Formed d) : d.Owns := by
  intro label member held
  exact ((formed_sound formed).members member (find_member held)).owned

theorem resolve_walk (m : Model) (d : Domain) (same : pathSegments path = label :: rest) :
    d.resolve m path = d.walk m label rest := by
  unfold Domain.resolve
  rw [same]

-- In a model that the operations made, a path resolves exactly when the walk that it describes goes
-- through, also from a domain that the model does not know, and it resolves to the navigation along
-- the attributes on the way. Otherwise the error is that of the first look-up that fails; a
-- navigation that cannot be put together is never met.
theorem paths_resolved (operations : List Model.Operation)
    (registered : ∀ d, .register d ∈ operations → Domain.Formed d) (d : Domain) (formed : d.Formed)
    (path : String) :
    (∀ expr, d.resolve (Model.after operations) path = .ok expr ↔ ∃ first rest,
      d.Visits (Model.after operations) (pathSegments path) first rest ∧ expr = .along first rest) ∧
    (∀ error, d.resolve (Model.after operations) path = .error error ↔
      d.Halts (Model.after operations) (pathSegments path) error) ∧
    (∀ first rest, d.Visits (Model.after operations) (pathSegments path) first rest →
      (Expr.along first rest).depth + 1 = (pathSegments path).length ∧
      (Expr.along first rest).terminal = .access (rest.getLastD first) .matching ∧
      (Expr.along first rest).type = (rest.getLastD first).type ∧
      (Expr.along first rest).source = some (.domain d.name)) ∧
    (∀ expected got, d.resolve (Model.after operations) path ≠
      .error (.compositionOutOfScope expected got)) ∧
    (∀ got, d.resolve (Model.after operations) path ≠ .error (.valueComposed got)) ∧
    ['.'].intercalate ((pathSegments path).map String.toList) = path.toList ∧
    ∀ segment ∈ pathSegments path, '.' ∉ segment.toList := by
  have owns := sound_owns (after_sound operations registered)
  have own := formed_owns formed
  generalize Model.after operations = m at owns
  obtain ⟨label, rest, same⟩ := segments_some path
  have split := segments_split path
  rw [resolve_walk m d same, same] at *
  have cause {error : Error} (walked : d.walk m label rest = .error error) :=
    halts_cause ((walk_error_iff owns own).mp walked)
  refine ⟨fun expr => walk_ok_iff owns own, fun error => walk_error_iff owns own, ?_, ?_, ?_, split⟩
  · intro first others visits
    have source := along_source first others
    rw [visits_owned own visits] at source
    exact ⟨by rw [along_depth, visits_length visits], along_terminal first others,
      along_type first others, source⟩
  · intro expected got walked
    rcases cause walked with ⟨_, _, _, same | same⟩ | ⟨_, _, same⟩ <;> cases same
  · intro got walked
    rcases cause walked with ⟨_, _, _, same | same⟩ | ⟨_, _, same⟩ <;> cases same

namespace Crew

def person : Domain := { Domain.new "person" with table := "people" }

-- The domains are put together after they were registered.
def operations : List Model.Operation :=
  [.register (.new "company"), .register person, .extend "company" (.mapped "id" "id" .integer),
    .extend "company" (.mapped "name" "name" .string), .extend "person" (.mapped "id" "id" .integer),
    .extend "person" (.mapped "company_id" "company_id" .integer),
    .extend "person" (.selfReference "manager" "id" "id"),
    .reference "person" "works_for" "company_id" "company" "id"]

theorem operations_registered : ∀ d, .register d ∈ operations → Domain.Formed d := by
  intro d member
  simp only [operations, List.mem_cons, reduceCtorEq, Model.Operation.register.injEq,
    List.not_mem_nil, or_false] at member
  rcases member with rfl | rfl
  · exact .new "company"
  · exact .table "people" (.new "person")

def number : Attribute := .mapped "visitor" "id" "id" (.scalar .integer)

def host : Attribute :=
  ⟨"visitor", "host", .reference "visitor" "visitors"
    (.binary .equals (.access number .left) (.access number .right) .boolean)⟩

def guardian : Expr :=
  .binary .equals (.access number .matching)
    (.access (.mapped "person" "id" "id" (.scalar .integer)) .matching) .boolean

def boss : Attribute := ⟨"visitor", "boss", .reference "person" "people" guardian⟩

def visitor : Domain := ⟨"visitor", "visitors", [boss, host, number]⟩

theorem visitor_formed : visitor.Formed := by
  have one : Domain.Formed ⟨"visitor", "visitors", [number]⟩ :=
    .grown (.mapped "id" "id" .integer) (.table "visitors" (.new "visitor")) rfl
  have two : Domain.Formed ⟨"visitor", "visitors", [host, number]⟩ :=
    .grown (.selfReference "host" "id" "id") one rfl
  exact .grown (.joined "boss" "person" "people" guardian) two rfl

def worksFor : Attribute :=
  ⟨"person", "works_for", .reference "company" "company"
    (.binary .equals (.access (.mapped "person" "company_id" "company_id" (.scalar .integer)) .matching)
      (.access (.mapped "company" "id" "id" (.scalar .integer)) .matching) .boolean)⟩

def name : Attribute := .mapped "company" "name" "name" (.scalar .string)

theorem visitor_resolved : (∀ d, .register d ∈ operations → Domain.Formed d) ∧ visitor.Formed ∧
    visitor.resolve (Model.after operations) "host.boss.works_for.name" =
      .ok (.along host [boss, worksFor, name]) ∧
    (Expr.along host [boss, worksFor, name]).depth = 3 ∧
    (Expr.along host [boss, worksFor, name]).source = some (.domain "visitor") ∧
    visitor.Halts (Model.after operations) ["host", "boss", "works_for", ""]
      (.unknownAttribute "company" "") ∧
    visitor.Halts (Model.after operations) ["host", "id", "name"] (.notAReference "visitor" "id") ∧
    visitor.Halts (Model.after []) ["boss", "id"] (.unknownDomain "person") := by
  have whole := paths_resolved operations operations_registered visitor visitor_formed
  have empty := paths_resolved [] (by simp) visitor visitor_formed
  have visits : visitor.Visits (Model.after operations) ["host", "boss", "works_for", "name"] host
      [boss, worksFor, name] :=
    .step rfl rfl rfl (.step rfl rfl rfl (.step rfl rfl rfl (.last rfl)))
  obtain ⟨deep, _, _, sourced⟩ := (whole "host.boss.works_for.name").2.2.1 _ _ visits
  refine ⟨operations_registered, visitor_formed, ?_, Nat.succ.inj deep, sourced, ?_, ?_, ?_⟩
  · exact ((whole "host.boss.works_for.name").1 _).mpr ⟨host, _, visits, rfl⟩
  · exact ((whole "host.boss.works_for.").2.1 _).mp rfl
  · exact ((whole "host.id.name").2.1 _).mp rfl
  · exact ((empty "boss.id").2.1 _).mp rfl

end Crew

end SemanticLayer
