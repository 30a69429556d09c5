import SemanticLayer.Proofs.Allocation
import SemanticLayer.Proofs.Termination

namespace SemanticLayer

-- Generation in one walk. Nothing is planned: the text is written while the references are followed,
-- a path gets its alias when it first comes up, and the columns that are grouped by are written a
-- second time.

-- A path as it was followed, with what the references on it were then.
inductive Trail where
  | root (domain table : String)
  | step (parent : Trail) (owner name target table : String) (condition : Expr)

namespace Trail

def path : Trail → Path
  | .root domain _ => .root domain
  | .step parent owner name target _ _ => parent.path.extend owner name target

def leg? : Trail → Option Leg
  | .root _ _ => none
  | .step parent owner name target table condition =>
      some ⟨parent.path, owner, name, target, table, condition⟩

end Trail

inductive Standing where
  | at (trail : Trail)
  | join (parent child : Trail)

namespace Standing

def scope : Standing → Scope
  | .at trail => .at trail.path
  | .join parent child => .join parent.path child.path

def locate (standing : Standing) (domain name : String) (side : Side) : Except Error Trail :=
  match standing, side with
  | .at trail, _ => .ok trail
  | .join parent _, .left => .ok parent
  | .join _ child, .right => .ok child
  | .join parent child, .matching =>
      match decide (parent.path.domain = domain), decide (child.path.domain = domain) with
      | true, false => .ok parent
      | false, true => .ok child
      | _, _ => .error (.ambiguousSide domain name parent.path.domain child.path.domain)

end Standing

structure Draft where
  names : AliasTable
  trails : List Trail
  counter : Nat

-- A walk fails with an error, and it may not end.
abbrev Drafting := StateT Draft (ExceptT Error Option)

namespace Draft

def blank (counter : Nat) : Draft := ⟨.empty, [], counter⟩

def bind (trail : Trail) : Drafting String := do
  let draft ← get
  let (label, names) := draft.names.bind trail.path
  let known := (draft.names.alias? trail.path).isSome
  set { draft with names, trails := if known then draft.trails else draft.trails ++ [trail] }
  pure label

end Draft

def Expr.follow : Expr → Standing → Drafting Trail
  | .access ⟨domain, name, .reference target table condition⟩ side, standing => do
      let parent ← standing.locate domain name side
      let trail := .step parent domain name target table condition
      let _ ← Draft.bind trail
      pure trail
  | .access ⟨domain, name, .value _⟩ side, standing => do
      let _ ← standing.locate domain name side
      throw (.notAReference domain name)
  | .compose reference composition, standing => do
      let inner ← reference.follow standing
      composition.follow (.at inner)
  | expr, _ => throw (.notNavigable expr.type)

def Literal.write : Literal → Except Error String
  | .decimal value =>
      if value.isFinite then .ok (Literal.decimal value).text
      else .error (.nonFiniteDecimal value.nonFiniteText)
  | value => .ok value.text

-- How far the trails have been gone through, and what has been written of them.
structure Sweep where
  position : Nat
  written : String

def Sweep.past (sweep : Sweep) (text : String) : Sweep :=
  ⟨sweep.position + 1, sweep.written ++ text⟩

mutual

def Expr.write (expr : Expr) (standing : Standing) : Drafting String :=
  match expr with
  | .literal value => value.write
  | .access ⟨domain, name, definition⟩ side => do
      let trail ← standing.locate domain name side
      match definition with
      | .value (.column _ column _) => do
          let label ← Draft.bind trail
          pure (label ++ "." ++ column)
      | .value expr => expr |>.write (.at trail)
      | .reference _ _ _ => throw (.referenceAsValue domain name)
  | .compose reference composition => do
      let trail ← reference.follow standing
      composition |>.write (.at trail)
  | .binary operator left right _ => do
      let left ← left |>.write standing
      let right ← right |>.write standing
      pure ("(" ++ left ++ " " ++ operator.symbol ++ " " ++ right ++ ")")
  | .countAll => pure "COUNT(*)"
  | .aggregate function operand => do
      let operand ← operand |>.write standing
      pure (function.name ++ "(" ++ operand ++ ")")
  | .column domain name _ => do
      let trail ← standing.locate domain name .matching
      let label ← Draft.bind trail
      pure (label ++ "." ++ name)
  -- A nested statement has a draft of its own, and the numbers go on in it.
  | .query nested => fun draft => do
      let number := draft.counter + 1
      let (text, inner) ← nested |>.write (.blank number)
      pure ("(" ++ text ++ ") AS sq" ++ toString number, { draft with counter := inner.counter })
partial_fixpoint

-- The trails that a condition brings come at the end, so that the sweep gets to them.
def Sweep.finish (sweep : Sweep) : Drafting String := do
  let draft ← get
  match draft.trails[sweep.position]? with
  | none => pure sweep.written
  | some trail =>
      let label := draft.names.name trail.path
      match trail with
      | .root _ table =>
          sweep.past (" FROM " ++ table ++ (if label = table then "" else " AS " ++ label))
            |>.finish
      | .step parent _ _ _ table condition => do
          let text ← condition |>.write (.join parent trail)
          sweep.past (" JOIN " ++ table ++ " AS " ++ label ++ " ON " ++ text) |>.finish
partial_fixpoint

def Query.write (q : Query) : Drafting String := do
  let root := Trail.root q.source q.table
  let _ ← Draft.bind root
  let columns ← q.projections.mapM fun p => do
    let text ← p.expr |>.write (.at root)
    pure (text ++ " AS " ++ p.label)
  let restriction ← q.filter.toList.mapM fun condition => do
    let text ← condition |>.write (.at root)
    pure (" WHERE " ++ text)
  let groups ← q.grouped.mapM fun p => p.expr |>.write (.at root)
  let joins ← Sweep.mk 0 "" |>.finish
  pure ("SELECT " ++ (if columns.isEmpty then "*" else ", ".intercalate columns) ++ joins ++
    String.join restriction ++
    (if groups.isEmpty then "" else " GROUP BY " ++ ", ".intercalate groups))
partial_fixpoint

end

def Query.draft (q : Query) (counter : Nat) : ExceptT Error Option (String × Nat) := do
  let (text, last) ← q.write (.blank counter)
  pure (text, last.counter)

-- The walk ends as the stage ends: with the same error, or with something that is good for what the
-- stage gives. A walk that runs on for ever agrees with no stage.
def Agrees {α β : Type} (run : ExceptT Error Option (α × Draft)) (stage : Except Error β)
    (good : β → α → Draft → Prop) : Prop :=
  match stage with
  | .error error => run = throw error
  | .ok value => ∃ made later, run = pure (made, later) ∧ good value made later

section
variable {α β γ δ : Type} {good : β → α → Draft → Prop} {better : δ → γ → Draft → Prop}
  {stage : Except Error β} {more : β → Except Error δ}

theorem agrees_run {run : ExceptT Error Option (α × Draft)}
    {next : α × Draft → ExceptT Error Option (γ × Draft)} (one : Agrees run stage good)
    (two : ∀ value made later, good value made later →
      Agrees (next (made, later)) (more value) better) :
    Agrees (run >>= next) (stage >>= more) better := by
  cases stage with
  | error error =>
    rw [Agrees] at one
    rw [one]
    exact rfl
  | ok value =>
    obtain ⟨made, later, ran, fine⟩ := one
    rw [ran]
    exact two value made later fine

theorem agrees_bind {first : Drafting α} {next : α → Drafting γ}
    (one : Agrees (first draft) stage good)
    (two : ∀ value made later, good value made later →
      Agrees (next made later) (more value) better) :
    Agrees ((first >>= next) draft) (stage >>= more) better :=
  agrees_run one two

theorem agrees_last {run : ExceptT Error Option (α × Draft)} {better : δ → α → Draft → Prop}
    (one : Agrees run stage good)
    (two : ∀ value made later, good value made later →
      Agrees (pure (made, later)) (more value) better) :
    Agrees run (stage >>= more) better := by
  have whole : Agrees (run >>= pure) (stage >>= more) better := agrees_run one two
  rwa [bind_pure] at whole

theorem agrees_pure {made : α} {value : β} (fine : good value made draft) :
    Agrees ((pure made : Drafting α) draft) (pure value) good :=
  ⟨made, draft, rfl, fine⟩

end

theorem bind_after {α γ : Type} {first : Drafting α} {next : α → Drafting γ} {made : α}
    (ran : first draft = pure (made, later)) : (first >>= next) draft = next made later := by
  have run : (first >>= next) draft = first draft >>= fun p => next p.1 p.2 := rfl
  rw [run, ran]
  rfl

theorem get_bind {γ : Type} (next : Draft → Drafting γ) (draft : Draft) :
    (get >>= next) draft = next draft draft := rfl

theorem locate_agrees (standing : Standing) (domain name : String) (side : Side) (draft : Draft) :
    Agrees ((liftM (standing.locate domain name side) : Drafting Trail) draft)
      (standing.scope.locate domain name side) fun path trail later =>
        trail.path = path ∧ path = standing.scope.place domain side ∧ later = draft := by
  cases standing with
  | «at» trail => exact ⟨trail, draft, rfl, rfl, rfl, rfl⟩
  | join parent child =>
    cases side with
    | left => exact ⟨parent, draft, rfl, rfl, rfl, rfl⟩
    | right => exact ⟨child, draft, rfl, rfl, rfl, rfl⟩
    | matching =>
      simp only [Standing.locate, Standing.scope, Scope.locate, Scope.place]
      by_cases onLeft : parent.path.domain = domain <;>
        by_cases onRight : child.path.domain = domain <;>
        simp only [onLeft, onRight, decide_true, decide_false, if_true, if_false]
      · exact rfl
      · exact ⟨parent, draft, rfl, rfl, rfl, rfl⟩
      · exact ⟨child, draft, rfl, rfl, rfl, rfl⟩
      · exact rfl

-- What a draft of a query holds when these legs have been bound. The trails need not be the ones
-- that a leg of the same path would be followed by now: only their legs are told.
structure Draft.Holds (draft : Draft) (q : Query) (known : List Leg) : Prop where
  names : draft.names = .ofPaths (q.paths known)
  root : draft.trails.head? = some (.root q.source q.table)
  legs : draft.trails.map Trail.leg? = none :: known.map some
  distinct : (q.paths known).Nodup
  grounded : Grounded [.root q.source] known

theorem name_kept {q : Query} (distinct : (q.paths known).Nodup) (grown : known <+: whole)
    (member : path ∈ q.paths known) :
    (AliasTable.ofPaths (q.paths whole)).name path = (AliasTable.ofPaths (q.paths known)).name path := by
  obtain ⟨more, rfl⟩ := grown
  have later : q.paths (known ++ more) = q.paths known ++ more.map Leg.path := by
    simp [Query.paths]
  have valid := (ofPaths_follows (q.paths (known ++ more))).valid
  rw [later, AliasTable.ofPaths, List.foldl_append] at valid ⊢
  exact name_known valid ((calls_extend _ _).subset (name_entry distinct member))

theorem leg_path (found : Trail.leg? trail = some leg) : leg.path = trail.path := by
  cases trail with
  | root => cases found
  | step => cases found; rfl

theorem bind_ran (trail : Trail) (draft : Draft) :
    Draft.bind trail draft = pure ((draft.names.bind trail.path).1,
      { draft with
        names := (draft.names.bind trail.path).2
        trails := if (draft.names.alias? trail.path).isSome then draft.trails
          else draft.trails ++ [trail] }) := rfl

section
variable {draft : Draft} {q : Query} {known : List Leg} (holds : draft.Holds q known)
include holds

theorem bound_keys : draft.names.entries.map Prod.fst = q.paths known :=
  holds.names ▸ (ofPaths_valid holds.distinct).2

theorem bind_known (member : trail.path ∈ q.paths known) :
    Draft.bind trail draft = pure (draft.names.name trail.path, draft) := by
  rcases bind_entries draft.names trail.path with ⟨label, found, same⟩ | ⟨_, missing, _⟩
  · have named : draft.names.name trail.path = label := by rw [AliasTable.name, found]; rfl
    rw [bind_ran, same, found, named]
    rfl
  · exact absurd ((bound_keys holds).symm ▸ member) (alias_unknown missing)

theorem bind_fresh (step : trail.leg? = some leg) (inside : leg.parent ∈ q.paths known)
    (absent : trail.path ∉ q.paths known) : ∃ label later,
      Draft.bind trail draft = pure (label, later) ∧ later.Holds q (known ++ [leg]) ∧
        later.counter = draft.counter := by
  have grown : q.paths (known ++ [leg]) = q.paths known ++ [trail.path] := by
    simp [Query.paths, leg_path step]
  have missing : draft.names.alias? trail.path = none := by
    cases found : draft.names.alias? trail.path with
    | none => rfl
    | some label =>
      exact absurd (bound_keys holds ▸ List.mem_map_of_mem (alias_known found)) absent
  refine ⟨(draft.names.bind trail.path).1,
    { draft with names := (draft.names.bind trail.path).2, trails := draft.trails ++ [trail] },
    ?_, ?_, rfl⟩
  · rw [bind_ran, missing]
    rfl
  · constructor
    case names => rw [grown, ofPaths_concat, ← holds.names]
    case root => rw [List.head?_append, holds.root]; rfl
    case legs => rw [List.map_append, holds.legs, List.map_append, List.map_singleton, step]; rfl
    case distinct =>
      rw [grown]
      exact holds.distinct.append (List.nodup_singleton _) (by simpa using absent)
    case grounded => exact grounded_append known [leg] holds.grounded ⟨inside, trivial⟩

theorem bind_leg (step : trail.leg? = some leg) (inside : leg.parent ∈ q.paths known) :
    ∃ label later, Draft.bind trail draft = pure (label, later) ∧
      later.Holds q (enlist known leg) ∧ later.counter = draft.counter := by
  have reached := leg_path step
  unfold enlist
  split
  · rename_i old
    have member : trail.path ∈ q.paths known := reached ▸ List.mem_cons_of_mem _ old
    exact ⟨_, draft, bind_known holds member, holds, rfl⟩
  · rename_i fresh
    refine bind_fresh holds step inside fun member => ?_
    rw [← reached] at member
    rcases List.mem_cons.mp member with isRoot | old
    · simp [Leg.path, Path.extend] at isRoot
    · exact fresh old

end

theorem paths_grown {q : Query} (grown : known <+: whole) : q.paths known ⊆ q.paths whole :=
  List.cons_subset_cons _ (List.map_subset Leg.path grown.subset)

-- What a text tells of a term, whatever is bound later on.
def Tells (q : Query) (known : List Leg) (term : Term Path Unit) (n : Nat) (text : String)
    (m : Nat) : Prop :=
  ∀ whole, known <+: whole → ∃ written,
    (term.aliased (.ofPaths (q.paths whole))).numbered n = (written, m) ∧ written.text = text

theorem tells_later {q : Query} (tells : Tells q known term n text m) (grown : known <+: more) :
    Tells q more term n text m :=
  fun whole later => tells whole (grown.trans later)

theorem tells_column {q : Query} (distinct : (q.paths known).Nodup) (member : path ∈ q.paths known) :
    Tells q known (.column path column) n
      ((AliasTable.ofPaths (q.paths known)).name path ++ "." ++ column) n := by
  intro whole later
  exact ⟨_, rfl, by rw [name_kept distinct later member, Term.text]⟩

theorem tells_binary {q : Query} (one : Tells q known left n first k)
    (two : Tells q known right k second m) :
    Tells q known (.binary operator left right) n
      ("(" ++ first ++ " " ++ operator.symbol ++ " " ++ second ++ ")") m := by
  intro whole later
  obtain ⟨writtenLeft, numberedLeft, rfl⟩ := one whole later
  obtain ⟨writtenRight, numberedRight, rfl⟩ := two whole later
  refine ⟨.binary operator writtenLeft writtenRight, ?_, by rw [Term.text]⟩
  rw [Term.aliased, Term.numbered, numberedLeft]
  dsimp only
  rw [numberedRight]

theorem tells_aggregate {q : Query} (inner : Tells q known term n text m) :
    Tells q known (.aggregate function term) n (function.name ++ "(" ++ text ++ ")") m := by
  intro whole later
  obtain ⟨written, numbered, rfl⟩ := inner whole later
  refine ⟨.aggregate function written, ?_, by rw [Term.text]⟩
  rw [Term.aliased, Term.numbered, numbered]

structure Wrote (q : Query) (known : List Leg) (n : Nat) (planned : Planned) (text : String)
    (later : Draft) : Prop where
  holds : later.Holds q known
  tells : Tells q known planned.term n text later.counter

structure Followed (q : Query) (known : List Leg) (n : Nat) (arrival : Path)
    (led : Path × List Hop) (trail : Trail) (later : Draft) : Prop where
  path : trail.path = led.1
  arrived : led.1 = arrival
  holds : later.Holds q known
  counter : later.counter = n
  bound : (Standing.at trail).scope.paths ⊆ q.paths known

-- A task is done right: an expression wherever it stands and whatever has been bound before, and a
-- query from any number on.
def Task.Right : Task → Prop
  | .generate q => ∀ n, Agrees (q.write (.blank n)) q.plan fun plan text later =>
      text = (plan.aliased.numbered n).1.text ∧ later.counter = (plan.aliased.numbered n).2
  | .render expr => ∀ (q : Query) (known : List Leg) (standing : Standing) (draft : Draft),
      draft.Holds q known → standing.scope.paths ⊆ q.paths known →
      Agrees (expr.write standing draft) (expr.plan standing.scope)
        (Wrote q ((expr.legs standing.scope).foldl enlist known) draft.counter)
  | .navigate reference => ∀ (q : Query) (known : List Leg) (standing : Standing) (draft : Draft),
      draft.Holds q known → standing.scope.paths ⊆ q.paths known →
      Agrees (reference.follow standing draft) (reference.navigate standing.scope)
        (Followed q ((reference.route standing.scope).foldl enlist known) draft.counter
          (reference.arrival standing.scope))

theorem reference_right (reference : Expr)
    (callees : ∀ callee, Task.Calls (.navigate reference) callee → callee.Right) :
    Task.Right (.navigate reference) := by
  intro q known standing draft holds inside
  fun_cases Expr.follow reference standing with
  | case1 domain name target table condition side =>
    rw [Expr.navigate]
    refine agrees_bind (locate_agrees standing domain name side draft) ?_
    rintro path parent later ⟨rfl, placed, rfl⟩
    have member : parent.path ∈ q.paths known := inside (placed ▸ place_paths)
    have step : (Trail.step parent domain name target table condition).leg? = some
        ⟨parent.path, domain, name, target, table, condition⟩ := rfl
    obtain ⟨label, later, ran, grown, counter⟩ := bind_leg holds step member
    rw [Expr.arrival, Expr.route, ← placed]
    refine ⟨_, later, bind_after ran, rfl, rfl, grown, counter, ?_⟩
    exact List.cons_subset.mpr
      ⟨List.mem_cons_of_mem _ (enlist_reaches known _), List.nil_subset _⟩
  | case2 domain name expr side =>
    rw [Expr.navigate]
    refine agrees_bind (locate_agrees standing domain name side draft) ?_
    intro path trail later _
    exact rfl
  | case3 reference composition =>
    rw [Expr.navigate, Expr.arrival, Expr.route, List.foldl_append]
    refine agrees_bind (callees _ .first q known standing draft holds inside) ?_
    rintro ⟨path, hops⟩ trail later ⟨rfl, arrived, grown, counter, bound⟩
    rw [← arrived, ← counter]
    refine agrees_last (callees _ .second q _ (.at trail) later grown bound) ?_
    rintro ⟨path, more⟩ trail last ⟨rfl, arrivedOn, grownOn, counterOn, boundOn⟩
    exact ⟨trail, last, rfl, rfl, arrivedOn, grownOn, counterOn, boundOn⟩
  | case4 noReference noValue noChain =>
    rw [Expr.navigate]
    · exact rfl
    all_goals assumption

section
variable {q : Query} {known : List Leg} {draft : Draft} (holds : draft.Holds q known)
include holds

theorem literal_right (value : Literal) :
    Agrees ((liftM value.write : Drafting String) draft) (planLiteral value)
      (Wrote q known draft.counter) := by
  have fine : Wrote q known draft.counter ⟨.literal value, []⟩ value.text draft :=
    ⟨holds, fun _ _ => ⟨_, rfl, rfl⟩⟩
  cases value with
  | decimal value =>
    simp only [Literal.write, planLiteral]
    split
    · exact ⟨_, draft, rfl, fine⟩
    · exact rfl
  | _ => exact ⟨_, draft, rfl, fine⟩

theorem column_right (member : Trail.path trail ∈ q.paths known) (column : String) :
    Agrees
      ((do let label ← Draft.bind trail; pure (label ++ "." ++ column) : Drafting String) draft)
      (pure ⟨.column trail.path column, []⟩) (Wrote q known draft.counter) := by
  refine ⟨_, draft, bind_after (bind_known holds member), holds, ?_⟩
  rw [holds.names]
  exact tells_column holds.distinct member

end

theorem expr_right (expr : Expr)
    (callees : ∀ callee, Task.Calls (.render expr) callee → callee.Right) :
    Task.Right (.render expr) := by
  intro q known standing draft holds inside
  cases expr with
  | literal value =>
    rw [Expr.write, Expr.plan]
    exact literal_right holds value
  | access member side =>
    obtain ⟨domain, name, definition⟩ := member
    rw [Expr.write]
    cases definition with
    | reference target table condition =>
      rw [Expr.plan]
      refine agrees_bind (locate_agrees standing domain name side draft) ?_
      intro path trail later _
      exact rfl
    | value expr =>
      rw [Expr.legs]
      cases expr with
      | column owner column type =>
        rw [Expr.plan]
        refine agrees_bind (locate_agrees standing domain name side draft) ?_
        rintro path trail later ⟨rfl, placed, rfl⟩
        exact column_right holds (inside (placed ▸ place_paths)) column
      | _ =>
        rw [Expr.plan]
        · refine agrees_bind (locate_agrees standing domain name side draft) ?_
          rintro path trail later ⟨rfl, placed, rfl⟩
          have here : Scope.paths (Standing.scope (.at trail)) ⊆ q.paths known :=
            List.cons_subset.mpr ⟨inside (placed ▸ place_paths), List.nil_subset _⟩
          rw [← placed]
          exact callees _ .definition q known (.at trail) later holds here
        · intro _ _ _ same
          cases same
  | compose reference composition =>
    rw [Expr.write, Expr.plan, Expr.legs, List.foldl_append]
    refine agrees_bind (callees _ .reference q known standing draft holds inside) ?_
    rintro ⟨path, hops⟩ trail later ⟨rfl, arrived, grown, counter, bound⟩
    rw [← arrived, ← counter]
    refine agrees_last (callees _ .composition q _ (.at trail) later grown bound) ?_
    intro planned text last wrote
    exact ⟨text, last, rfl, wrote.holds, wrote.tells⟩
  | binary operator left right type =>
    rw [Expr.write, Expr.plan, Expr.legs, List.foldl_append]
    refine agrees_bind (callees _ .left q known standing draft holds inside) ?_
    intro first textFirst later one
    have more :=
      List.Subset.trans inside (paths_grown (enlist_extends (left.legs standing.scope) known))
    refine agrees_bind (callees _ .right q _ standing later one.holds more) ?_
    intro second textSecond last two
    have kept := tells_later one.tells (enlist_extends (right.legs standing.scope) _)
    exact agrees_pure ⟨two.holds, tells_binary kept two.tells⟩
  | countAll =>
    rw [Expr.write, Expr.plan]
    exact ⟨_, draft, rfl, holds, fun _ _ => ⟨_, rfl, rfl⟩⟩
  | aggregate function operand =>
    rw [Expr.write, Expr.plan, Expr.legs]
    refine agrees_bind (callees _ .operand q known standing draft holds inside) ?_
    intro planned text later inner
    exact agrees_pure ⟨inner.holds, tells_aggregate inner.tells⟩
  | column domain name type =>
    rw [Expr.write, Expr.plan]
    refine agrees_bind (locate_agrees standing domain name .matching draft) ?_
    rintro path trail later ⟨rfl, placed, rfl⟩
    exact column_right holds (inside (placed ▸ place_paths)) name
  | query nested =>
    rw [Expr.write, Expr.plan]
    refine agrees_run (callees _ .nested (draft.counter + 1)) ?_
    rintro plan text inner ⟨rfl, counter⟩
    refine ⟨_, _, rfl, ⟨holds.names, holds.root, holds.legs, holds.distinct, holds.grounded⟩, ?_⟩
    intro whole _
    refine ⟨.subquery (draft.counter + 1) (plan.aliased.numbered (draft.counter + 1)).1, ?_, ?_⟩
    · rw [Term.aliased, Term.numbered, counter]
    · rw [Term.text]

end SemanticLayer
