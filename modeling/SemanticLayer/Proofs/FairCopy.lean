import SemanticLayer.Proofs.Drafting

namespace SemanticLayer

-- An alias that is bound later on changes no text that has been written, so that every part can be
-- compared with what the stages write under the aliases of the whole statement.

def Reading.planned (reading : Reading) : Except Error (Clause Path Unit) := do
  let planned ← reading.expr.plan reading.scope
  pure ⟨reading.role, planned.term⟩

def TellsAll (names : AliasTable) (clauses : List (Clause Path Unit)) (n : Nat)
    (parts : List (Role String × String)) (m : Nat) : Prop :=
  ∃ written, numberedClauses (aliasedClauses names clauses) n = (written, m) ∧
    clauseTexts written = parts

theorem clauseTexts_append (first second : List (Clause String Nat)) :
    clauseTexts (first ++ second) = clauseTexts first ++ clauseTexts second := by
  induction first with
  | nil => rfl
  | cons clause rest ih =>
    obtain ⟨role, term⟩ := clause
    rw [List.cons_append, clauseTexts, clauseTexts, ih, List.cons_append]

theorem tellsAll_append (one : TellsAll names first n parts k)
    (two : TellsAll names second k more m) :
    TellsAll names (first ++ second) n (parts ++ more) m := by
  obtain ⟨written, numbered, rfl⟩ := one
  obtain ⟨writtenMore, numberedMore, rfl⟩ := two
  refine ⟨written ++ writtenMore, ?_, clauseTexts_append written writtenMore⟩
  have parts : aliasedClauses names (first ++ second) =
      aliasedClauses names first ++ aliasedClauses names second := by
    rw [aliasedClauses_parts, aliasedClauses_parts, aliasedClauses_parts, List.map_append]
  rw [parts, numberedClauses_append, numbered]
  dsimp only
  rw [numberedMore]

structure WroteAll {α : Type} (q : Query) (known : List Leg) (role : α → Role Path) (n : Nat)
    (items : List α) (clauses : List (Clause Path Unit)) (rows : List (α × String))
    (later : Draft) : Prop where
  holds : later.Holds q known
  roles : clauses.map (·.role) = items.map role
  tells : ∀ whole, known <+: whole →
    let names := AliasTable.ofPaths (q.paths whole)
    TellsAll names clauses n (rows.map fun row => ((role row.1).map names.name, row.2)) later.counter

theorem wrote_nil (role : α → Role Path) (holds : Draft.Holds draft q known) :
    WroteAll q known role draft.counter [] [] [] draft :=
  ⟨holds, rfl, fun _ _ => ⟨[], rfl, rfl⟩⟩

theorem wrote_cons {role : α → Role Path} {item : α} (one : Wrote q known n planned text middle)
    (more : WroteAll q listed role middle.counter items clauses rows later)
    (grown : known <+: listed) :
    WroteAll q listed role n (item :: items) (⟨role item, planned.term⟩ :: clauses)
      ((item, text) :: rows) later := by
  refine ⟨more.holds, by simp [more.roles], fun whole extended => ?_⟩
  obtain ⟨written, numbered, rfl⟩ := one.tells whole (grown.trans extended)
  have one : TellsAll (.ofPaths (q.paths whole)) [⟨role item, planned.term⟩] n
      [((role item).map (AliasTable.ofPaths (q.paths whole)).name, written.text)] middle.counter := by
    refine ⟨[⟨_, written⟩], ?_, rfl⟩
    rw [aliasedClauses, aliasedClauses, numberedClauses, numbered]
    rfl
  exact tellsAll_append one (more.tells whole extended)

theorem items_agree (items : List α) (role : α → Role Path) (expr : α → Expr)
    (emit : α → String → String) (right : ∀ item ∈ items, Task.Right (.render (expr item)))
    {q : Query} {known : List Leg} {standing : Standing} {draft : Draft}
    (holds : draft.Holds q known) (inside : standing.scope.paths ⊆ q.paths known)
    (grown : (items.flatMap fun item => (expr item).legs standing.scope).foldl enlist known = more) :
    Agrees
      ((items.mapM fun item => do
        let text ← (expr item).write standing
        pure (emit item text) : Drafting (List String)) draft)
      ((items.map fun item => ⟨role item, expr item, standing.scope⟩).mapM Reading.planned)
      fun clauses texts later => ∃ rows, texts = rows.map (fun row => emit row.1 row.2) ∧
        WroteAll q more role draft.counter items clauses rows later := by
  subst grown
  induction items generalizing known draft with
  | nil => exact ⟨[], draft, rfl, [], rfl, wrote_nil role holds⟩
  | cons item rest ih =>
    obtain ⟨first, others⟩ := List.forall_mem_cons.mp right
    rw [List.mapM_cons, List.map_cons, List.mapM_cons, List.flatMap_cons, List.foldl_append]
    simp only [Reading.planned, bind_assoc, pure_bind]
    refine agrees_bind (first q known standing draft holds inside) ?_
    intro planned text middle one
    have extends_first := enlist_extends ((expr item).legs standing.scope) known
    have insideMore := List.Subset.trans inside (paths_grown extends_first)
    refine agrees_bind (ih others one.holds insideMore) ?_
    rintro clauses _ later ⟨rows, rfl, more⟩
    refine agrees_pure ⟨(item, text) :: rows, rfl, ?_⟩
    exact wrote_cons one more (enlist_extends _ _)

theorem ends_bound {q : Query} {draft : Draft} (holds : draft.Holds q known) (member : leg ∈ known) :
    [leg.parent, leg.path] ⊆ q.paths known := by
  obtain ⟨before, after, rfl⟩ := List.append_of_mem member
  have parent := grounded_split before holds.grounded
  refine List.cons_subset.mpr ⟨?_, List.cons_subset.mpr ⟨?_, List.nil_subset _⟩⟩
  · exact paths_grown (List.prefix_append before _) parent
  · exact List.mem_cons_of_mem _ (List.mem_map_of_mem member)

-- The sweep goes the tour of the query, from any position on it.
theorem joins_agree (tour : Tour position known whole)
    (right : ∀ leg ∈ whole, Task.Right (.render leg.condition)) {q : Query} {draft : Draft}
    (holds : draft.Holds q known) (before : String) :
    Agrees (Sweep.finish ⟨position + 1, before⟩ draft)
      (((whole.drop position).map Leg.reading).mapM Reading.planned) fun clauses text later =>
        ∃ rows : List (Leg × String),
          (text = before ++ String.join (rows.map fun row => " JOIN " ++ row.1.table ++ " AS " ++
            (AliasTable.ofPaths (q.paths whole)).name row.1.path ++ " ON " ++ row.2)) ∧
          WroteAll q whole (fun leg => .join leg.path leg.table) draft.counter
            (whole.drop position) clauses rows later := by
  induction tour generalizing draft before with
  | @finish position known past =>
    have done : draft.trails[position + 1]? = none := by
      have listed := congrArg List.length holds.legs
      simp only [List.length_map, List.length_cons] at listed
      exact List.getElem?_eq_none (by omega)
    rw [Sweep.finish, List.drop_eq_nil_of_le past]
    refine ⟨before, draft, ?_, [], by simp, wrote_nil _ holds⟩
    rw [get_bind]
    dsimp only
    rw [done]
    rfl
  | @visit known position leg whole found rest ih =>
    have listed := congrArg (·[position + 1]?) holds.legs
    simp only [List.getElem?_map, List.getElem?_cons_succ, found, Option.map_some] at listed
    obtain ⟨trail, bound, step⟩ := Option.map_eq_some_iff.mp listed
    cases trail with
    | root => cases step
    | step parent owner name target table condition =>
      cases step
      have member := List.mem_of_getElem? found
      have kept := visit_kept found rest
      have named := name_kept holds.distinct ((enlist_extends _ known).trans (tour_extends rest))
        (List.mem_cons_of_mem _ (List.mem_map_of_mem (f := Leg.path) member))
      obtain ⟨short, here⟩ := List.getElem?_eq_some_iff.mp kept
      rw [Sweep.finish, get_bind, List.drop_eq_getElem_cons short, here, List.map_cons, List.mapM_cons]
      dsimp only
      rw [bound]
      simp only [Reading.planned, bind_assoc, pure_bind]
      refine agrees_bind (right _ (List.mem_of_getElem? kept) q known
        (.join parent (.step parent owner name target table condition)) draft holds
        (ends_bound holds member)) ?_
      intro planned text middle one
      refine agrees_last (ih right one.holds _) ?_
      rintro clauses _ later ⟨rows, rfl, more⟩
      refine ⟨_, later, rfl, (⟨parent.path, owner, name, target, table, condition⟩, text) :: rows,
        ?_, wrote_cons one more (tour_extends rest)⟩
      rw [List.map_cons, String.join_cons, named, ← holds.names]
      simp only [String.append_assoc]
      rfl

theorem clauses_given (gives : List.Forall₂ Reading.Gives readings clauses) :
    readings.mapM Reading.planned = .ok clauses := by
  induction gives with
  | nil => rfl
  | @cons reading clause _ _ given _ ih =>
    obtain ⟨role, term⟩ := clause
    obtain ⟨rfl, hops, planned⟩ := given
    rw [List.mapM_cons, ih, Reading.planned, planned]
    rfl

theorem clauses_failed (breaks : Breaks readings error) :
    readings.mapM Reading.planned = .error error := by
  obtain ⟨before, reading, after, rfl, planned, failed⟩ := breaks
  induction before with
  | nil =>
    rw [List.nil_append, List.mapM_cons, Reading.planned, failed]
    rfl
  | cons first rest ih =>
    obtain ⟨⟨here, made⟩, others⟩ := List.forall_mem_cons.mp planned
    rw [List.cons_append, List.mapM_cons, ih others, Reading.planned, made]
    rfl

theorem plan_readings (tours : Query.Tours q whole) :
    q.plan = (q.readings whole).mapM Reading.planned >>= fun clauses =>
      pure ⟨.root q.source, q.table, clauses⟩ := by
  cases made : q.plan with
  | error error =>
    rw [clauses_failed (plan_breaks tours made)]
    rfl
  | ok plan =>
    obtain ⟨root, table, clauses⟩ := plan
    obtain ⟨rfl, rfl, other, toursOther, gives⟩ := plan_parts made
    cases tour_unique tours toursOther
    rw [clauses_given gives]
    rfl

theorem statementText_rows (names : Path → String) (columns groups : List (Projection × String))
    (restriction : List (Expr × String)) (joins : List (Leg × String)) :
    statementText root table
        (columns.map (fun row => (.select row.1.label, row.2)) ++
          restriction.map (fun row => (.filter, row.2)) ++
          groups.map (fun row => (.group, row.2)) ++
          joins.map fun row => (.join (names row.1.path) row.1.table, row.2)) =
      "SELECT " ++ (if (columns.map fun row => row.2 ++ " AS " ++ row.1.label).isEmpty then "*"
        else ", ".intercalate (columns.map fun row => row.2 ++ " AS " ++ row.1.label)) ++
      (" FROM " ++ table ++ (if root = table then "" else " AS " ++ root) ++
        String.join (joins.map fun row =>
          " JOIN " ++ row.1.table ++ " AS " ++ names row.1.path ++ " ON " ++ row.2)) ++
      String.join (restriction.map fun row => " WHERE " ++ row.2) ++
      (if (groups.map (·.2)).isEmpty then "" else
        " GROUP BY " ++ ", ".intercalate (groups.map (·.2))) := by
  simp [statementText, List.filterMap_append, List.filterMap_map, String.append_assoc]

theorem root_bound (q : Query) (n : Nat) : ∃ label draft,
    Draft.bind (.root q.source q.table) (.blank n) = pure (label, draft) ∧ draft.Holds q [] ∧
      draft.counter = n := by
  refine ⟨_, _, rfl, ?_, rfl⟩
  constructor
  case names => rfl
  case root => rfl
  case legs => rfl
  case distinct => exact List.nodup_singleton _
  case grounded => trivial

-- The whole sweep: the root comes first, and nothing is asked of it.
theorem source_agrees (tours : Query.Tours q whole)
    (right : ∀ leg ∈ whole, Task.Right (.render leg.condition)) {draft : Draft}
    (holds : draft.Holds q (q.outset.foldl enlist [])) :
    let names := AliasTable.ofPaths (q.paths whole)
    Agrees (Sweep.finish ⟨0, ""⟩ draft) ((whole.map Leg.reading).mapM Reading.planned)
      fun clauses text later => ∃ rows : List (Leg × String),
        text = " FROM " ++ q.table ++
          (if names.name (.root q.source) = q.table then "" else " AS " ++ names.name (.root q.source)) ++
          String.join (rows.map fun row => " JOIN " ++ row.1.table ++ " AS " ++
            names.name row.1.path ++ " ON " ++ row.2) ∧
        WroteAll q whole (fun leg => .join leg.path leg.table) draft.counter whole clauses rows
          later := by
  have named : (AliasTable.ofPaths (q.paths whole)).name (.root q.source) =
      (AliasTable.ofPaths (q.paths (q.outset.foldl enlist []))).name (.root q.source) :=
    name_kept holds.distinct (tour_extends tours) List.mem_cons_self
  have first : draft.trails[0]? = some (.root q.source q.table) := by
    rw [← List.head?_eq_getElem?, holds.root]
  rw [Sweep.finish, get_bind]
  dsimp only
  rw [first]
  change Agrees (Sweep.finish ⟨1, "" ++ (" FROM " ++ q.table ++
    (if draft.names.name (.root q.source) = q.table then ""
      else " AS " ++ draft.names.name (.root q.source)))⟩ draft) _ _
  rw [String.empty_append, holds.names, ← named]
  exact joins_agree tours right holds _

theorem relations_roles (roles : clauses.map (·.role) = (Query.readings q whole).map (·.role)) :
    Statement.relations (⟨.root q.source, table, clauses⟩ : Plan) = q.paths whole := by
  have joined := congrArg (List.filterMap Role.joined?) roles
  rw [List.filterMap_map, List.filterMap_map] at joined
  exact congrArg _ (joined.trans (readings_joined q whole))

theorem plan_told (roles : clauses.map (·.role) = (Query.readings q whole).map (·.role))
    (told : TellsAll (.ofPaths (q.paths whole)) clauses n parts m) :
    let plan : Plan := ⟨.root q.source, q.table, clauses⟩
    statementText ((AliasTable.ofPaths (q.paths whole)).name (.root q.source)) q.table parts =
        (plan.aliased.numbered n).1.text ∧ m = (plan.aliased.numbered n).2 := by
  obtain ⟨written, numbered, rfl⟩ := told
  dsimp only
  rw [Statement.aliased, relations_roles roles, Statement.numbered]
  dsimp only
  rw [numbered, Statement.text]
  exact ⟨rfl, rfl⟩

theorem outset_stages (q : Query) :
    q.outset.foldl enlist [] = (q.filter.toList.flatMap (·.legs (.at (.root q.source)))).foldl enlist
      ((q.projections.flatMap (·.expr.legs (.at (.root q.source)))).foldl enlist []) :=
  List.foldl_append

theorem columns_extended (tours : Query.Tours q whole) :
    (q.projections.flatMap (·.expr.legs (.at (.root q.source)))).foldl enlist [] <+: whole := by
  have extended := tour_extends tours
  rw [outset_stages] at extended
  exact (enlist_extends _ _).trans extended

theorem root_inside (q : Query) (known : List Leg) :
    Scope.paths (Standing.scope (.at (.root q.source q.table))) ⊆ q.paths known :=
  paths_grown (List.nil_prefix : [] <+: known)

-- The parts are written in the order in which they are planned, and the text puts the joins before
-- the filter and the grouping.
theorem query_right (q : Query)
    (callees : ∀ callee, Task.Calls (.generate q) callee → callee.Right) :
    Task.Right (.generate q) := by
  intro n
  obtain ⟨whole, tours⟩ := tours_exist q
  obtain ⟨label, start, begun, holds, rfl⟩ := root_bound q n
  have right : ∀ reading ∈ q.readings whole, Task.Right (.render reading.expr) :=
    fun reading member => callees _ (.reading tours member)
  have said (expr : Expr) (said : q.Says expr) : Task.Right (.render expr) :=
    have ⟨_, member⟩ := said_reading whole said
    right _ member
  rw [plan_readings tours, Query.write, bind_after begun, Query.readings]
  simp only [List.mapM_append, bind_assoc, pure_bind]
  refine agrees_bind (items_agree q.projections (fun p => .select p.label) (·.expr)
    (fun p text => text ++ " AS " ++ p.label) ?_ holds (root_inside q []) rfl) ?_
  · exact fun p selected => said _ (.inl (List.mem_map_of_mem selected))
  rintro columns _ one ⟨columnRows, rfl, columnsWrote⟩
  refine agrees_bind (items_agree q.filter.toList (fun _ => .filter) (fun condition => condition)
    (fun _ text => " WHERE " ++ text) ?_ columnsWrote.holds (root_inside q _)
    (outset_stages q).symm) ?_
  · exact fun condition filtered => said _ (.inr (Option.mem_toList.mp filtered))
  rintro restriction _ two ⟨restrictionRows, rfl, restrictionWrote⟩
  have grouping := items_agree q.grouped (fun _ => .group) (·.expr) (fun _ text => text)
    (fun p grouped => said _ (.inl (List.mem_map_of_mem (grouped_selected grouped))))
    restrictionWrote.holds (root_inside q _) (grouping_idle q)
  simp only [bind_pure] at grouping
  refine agrees_bind grouping ?_
  rintro groups _ three ⟨groupRows, rfl, groupsWrote⟩
  refine agrees_bind (source_agrees tours ?_ groupsWrote.holds) ?_
  · exact fun leg present => right _ (leg_reading q present)
  rintro joins _ last ⟨joinRows, rfl, joinsWrote⟩
  have extended : q.outset.foldl enlist [] <+: whole := tour_extends tours
  have early := tellsAll_append (columnsWrote.tells whole (columns_extended tours))
    (restrictionWrote.tells whole extended)
  have told := tellsAll_append (tellsAll_append early (groupsWrote.tells whole extended))
    (joinsWrote.tells whole (List.prefix_refl whole))
  rw [← statementText_rows]
  refine agrees_pure (plan_told ?_ told)
  simp only [Query.readings, List.map_append, List.map_map, columnsWrote.roles,
    restrictionWrote.roles, groupsWrote.roles, joinsWrote.roles]
  rfl

theorem tasks_right (task : Task) : task.Right := by
  induction task using calls_end.induction with
  | _ task ih =>
    cases task with
    | generate q => exact query_right q ih
    | render expr => exact expr_right expr ih
    | navigate reference => exact reference_right reference ih

-- The walk ends on every query, and it gives what the stages give: the same text with the same
-- numbers, or the same error.
theorem draft_staged (q : Query) (n : Nat) : q.draft n = some (q.sqlFrom n) := by
  have right := tasks_right (.generate q) n
  rw [Query.draft, Query.sqlFrom, Query.statement]
  cases made : q.plan with
  | error error =>
    rw [made] at right
    rw [show q.write (.blank n) = throw error from right]
    rfl
  | ok plan =>
    rw [made] at right
    obtain ⟨text, last, ran, rfl, counter⟩ := right
    rw [ran]
    change some (Except.ok (_, last.counter)) = _
    rw [counter]
    rfl

end SemanticLayer
