import SemanticLayer.Proofs.Reordering

namespace SemanticLayer

-- Hops that share a join. A path is known by the names of its references, so that hops along
-- references of one name share a join even where the references have been defined differently. The
-- hop that comes first decides what is joined.

def Query.hops (q : Query) (whole : List Leg) : List Leg := q.outset ++ whole.flatMap Leg.onward

def Leg.First (hops : List Leg) (leg : Leg) : Prop :=
  ∃ before after, hops = before ++ leg :: after ∧ ∀ other ∈ before, other.path ≠ leg.path

-- What is read where a hop ends is read from the item that has the alias of its path.
def Joined.Serves (names : AliasTable) (item : Joined) (hop : Leg) : Prop :=
  item.label = names.name hop.path

-- How the hops of a query are served by the joins of its statement. Every hop has one join of its own
-- or in common with the hops that go the same way by name, and each join follows the first of them.
structure Query.SharesJoins (q : Query) (whole : List Leg) (s : Statement String Nat) : Prop where
  tour : q.FromTour whole s
  served : ∀ hop ∈ q.hops whole,
    ∃! item, item ∈ s.joins ∧ item.Serves (.ofPaths (q.paths whole)) hop
  apart : ∀ hop ∈ q.hops whole, (AliasTable.ofPaths (q.paths whole)).name hop.path ≠ s.root
  shared : ∀ one ∈ q.hops whole, ∀ two ∈ q.hops whole, ∀ item ∈ s.joins,
    item.Serves (.ofPaths (q.paths whole)) one →
      (item.Serves (.ofPaths (q.paths whole)) two ↔ one.parent = two.parent ∧
        one.owner = two.owner ∧ one.name = two.name ∧ one.target = two.target)
  first : ∀ item ∈ s.joins, ∃ leg, leg.First (q.hops whole) ∧
    JoinWrites (.ofPaths (q.paths whole)) leg item
  -- A hop whose reference is defined as that of the first one is joined as its reference says.
  own : ∀ hop ∈ q.hops whole, ∀ leg : Leg, leg.First (q.hops whole) → leg.path = hop.path →
    leg.table = hop.table → leg.condition = hop.condition → ∀ item ∈ s.joins,
      item.Serves (.ofPaths (q.paths whole)) hop → JoinWrites (.ofPaths (q.paths whole)) hop item

def Query.JoinsOwn (q : Query) (whole : List Leg) (s : Statement String Nat) : Prop :=
  ∀ hop ∈ q.hops whole, ∀ item ∈ s.joins, item.Serves (.ofPaths (q.paths whole)) hop →
    JoinWrites (.ofPaths (q.paths whole)) hop item

theorem path_same (one two : Leg) : one.path = two.path ↔ one.parent = two.parent ∧
    one.owner = two.owner ∧ one.name = two.name ∧ one.target = two.target := by
  simp only [Leg.path, Path.extend, Path.step.injEq]
  constructor
  · rintro ⟨_, owner, name, target, parent⟩
    exact ⟨parent, owner, name, target⟩
  · rintro ⟨parent, owner, name, target⟩
    exact ⟨by rw [parent], owner, name, target, parent⟩

theorem leg_same {one two : Leg} (path : one.path = two.path) (table : one.table = two.table)
    (condition : one.condition = two.condition) : one = two := by
  obtain ⟨parent, owner, name, target⟩ := (path_same one two).mp path
  cases one
  cases two
  simp_all

theorem first_found : Leg.First hops leg ↔ hops.find? (·.path = leg.path) = some leg := by
  simp [Leg.First, List.find?_eq_some_iff_append]

theorem first_unique (one : Leg.First hops leg) (two : Leg.First hops other)
    (same : leg.path = other.path) : leg = other := by
  have found := first_found.mp one
  rw [same, first_found.mp two] at found
  exact (Option.some.inj found).symm

-- The tour is the list of the hops without those that lead where an earlier one has led.

theorem tour_fold (tour : Tour position known whole) :
    ((whole.drop position).flatMap Leg.onward).foldl enlist known = whole := by
  induction tour with
  | finish done => rw [List.drop_eq_nil_of_le done]; rfl
  | @visit known position leg whole found rest ih =>
    obtain ⟨bound, here⟩ := List.getElem?_eq_some_iff.mp (visit_kept found rest)
    rw [List.drop_eq_getElem_cons bound, here, List.flatMap_cons, List.foldl_append]
    exact ih

theorem tours_fold (tours : Query.Tours q whole) : (q.hops whole).foldl enlist [] = whole := by
  rw [Query.hops, List.foldl_append]
  exact tour_fold tours

theorem enlist_find (hops known : List Leg) (path : Path) :
    (hops.foldl enlist known).find? (·.path = path) = (known ++ hops).find? (·.path = path) := by
  induction hops generalizing known with
  | nil => rw [List.append_nil]; rfl
  | cons hop rest ih =>
    rw [List.foldl_cons, ih]
    by_cases reached : hop.path ∈ known.map Leg.path
    · rw [enlist, if_pos reached, List.find?_append, List.find?_append, List.find?_cons]
      -- A hop that is left out would not have been found before the one that is known.
      cases found : known.find? (·.path = path) with
      | some leg => rfl
      | none =>
        have other : hop.path ≠ path := by
          rintro rfl
          obtain ⟨leg, present, same⟩ := List.mem_map.mp reached
          exact List.find?_eq_none.mp found leg present (decide_eq_true same)
        rw [decide_eq_false other]
    · rw [enlist, if_neg reached, List.append_assoc, List.singleton_append]

section
variable {q : Query} {whole : List Leg} (tours : q.Tours whole)
include tours

theorem tours_first (present : leg ∈ whole) : leg.First (q.hops whole) := by
  obtain ⟨before, after, split⟩ := List.append_of_mem present
  have distinct := tours_distinct tours
  rw [split, List.map_append, List.map_cons] at distinct
  have apart : ∀ other ∈ before, other.path ≠ leg.path := fun other member same =>
    List.disjoint_of_nodup_append distinct (List.mem_map_of_mem member)
      (same ▸ List.mem_cons_self)
  have found : whole.find? (·.path = leg.path) = some leg := by
    refine List.find?_eq_some_iff_append.mpr ⟨decide_eq_true rfl, before, after, split, ?_⟩
    intro other member
    simpa using apart other member
  rw [← tours_fold tours, enlist_find] at found
  exact first_found.mpr found

theorem hops_reached (member : hop ∈ q.hops whole) : hop.path ∈ whole.map Leg.path := by
  have reached := enlisted_reached (q.hops whole) [] member
  rwa [tours_fold tours] at reached

theorem hops_listed (member : hop ∈ q.hops whole) : hop.path ∈ q.paths whole :=
  List.mem_cons_of_mem _ (hops_reached tours member)

theorem hops_mentioned (member : hop ∈ q.hops whole) : q.Mentions hop.reference := by
  rcases List.mem_append.mp member with outset | later
  · obtain ⟨expr, said, inside⟩ := outset_cases outset
    exact ⟨expr, said, legs_mentioned expr _ inside⟩
  · obtain ⟨leg, present, onward⟩ := List.mem_flatMap.mp later
    obtain ⟨expr, said, mentioned⟩ := tours_mentioned tours leg present
    exact ⟨expr, said, mentions_condition mentioned (legs_mentioned leg.condition _ onward)⟩

end

section
variable {q : Query} {whole : List Leg} {s : Statement String Nat} (tour : q.FromTour whole s)
include tour

theorem names_apart (one : path ∈ q.paths whole) (two : other ∈ q.paths whole)
    (same : (AliasTable.ofPaths (q.paths whole)).name path =
      (AliasTable.ofPaths (q.paths whole)).name other) : path = other :=
  List.inj_on_of_nodup_map (names_distinct tour.paths) one two same

theorem served_first (member : hop ∈ q.hops whole) (listed : item ∈ s.joins)
    (serves : item.Serves (.ofPaths (q.paths whole)) hop) :
    ∃ leg ∈ whole, leg.path = hop.path ∧ JoinWrites (.ofPaths (q.paths whole)) leg item := by
  obtain ⟨leg, present, written⟩ := forall₂_right tour.joins listed
  refine ⟨leg, present, ?_, written⟩
  exact names_apart tour (List.mem_cons_of_mem _ (List.mem_map_of_mem present))
    (hops_listed tour.tour member) (written.1.symm.trans serves)

theorem hop_served (member : hop ∈ q.hops whole) :
    ∃! item, item ∈ s.joins ∧ item.Serves (.ofPaths (q.paths whole)) hop := by
  obtain ⟨leg, present, same⟩ := List.mem_map.mp (hops_reached tour.tour member)
  obtain ⟨item, listed, written⟩ := forall₂_left tour.joins present
  have serves : item.Serves (.ofPaths (q.paths whole)) hop := by
    rw [Joined.Serves, ← same]
    exact written.1
  refine ⟨item, ⟨listed, serves⟩, ?_⟩
  rintro other ⟨also, too⟩
  have labels : (s.joins.map Joined.label).Nodup := by
    have all := tour.labels
    rw [relations_joins] at all
    exact (List.nodup_cons.mp all).2
  exact List.inj_on_of_nodup_map labels also listed (too.trans serves.symm)

theorem joins_shared : q.SharesJoins whole s where
  tour := tour
  served _ member := hop_served tour member
  apart hop member same := by
    rw [tour.root] at same
    have root := names_apart tour (hops_listed tour.tour member) List.mem_cons_self same
    simp [Leg.path, Path.extend] at root
  shared one member two also item listed serves := by
    rw [← path_same]
    constructor
    · intro too
      exact names_apart tour (hops_listed tour.tour member) (hops_listed tour.tour also)
        (serves.symm.trans too)
    · intro same
      rw [Joined.Serves, ← same]
      exact serves
  first item listed := by
    obtain ⟨leg, present, written⟩ := forall₂_right tour.joins listed
    exact ⟨leg, tours_first tour.tour present, written⟩
  own hop member leg first same table condition item listed serves := by
    obtain ⟨other, present, led, written⟩ := served_first tour member listed serves
    cases leg_same same table condition
    cases first_unique (tours_first tour.tour present) first led
    exact written

theorem joins_own (coherent : q.Coherent) : q.JoinsOwn whole s := by
  intro hop member item listed serves
  obtain ⟨leg, present, same, written⟩ := served_first tour member listed serves
  cases legs_equal coherent (tours_mentioned tour.tour leg present)
    (hops_mentioned tour.tour member) same
  exact written

end

theorem coherent_within (coherent : Query.Coherent q) (within : q.Within r) : r.Coherent :=
  fun one two first second =>
    coherent one two (within_mentioned within first) (within_mentioned within second)

-- Two hops have one join exactly if they go the same way by name, and the first of them is the one
-- that the join follows. As long as no two references of one name and domain differ, every hop is
-- therefore joined as its own reference says.
theorem hops_share_joins (q : Query) (ran : q.sqlFrom n = .ok (sql, m)) :
    ∃ s, q.statement n = .ok (s, m) ∧ sql = s.selectText ++ s.fromText ++ s.tailText ∧
      (∃ whole, q.SharesJoins whole s ∧ (q.Coherent → q.JoinsOwn whole s)) ∧
      ∀ inner, s.Contains inner → ∃ r k l whole,
        q.Within r ∧ r.statement k = .ok (inner, l) ∧ r.SharesJoins whole inner ∧
          (q.Coherent → r.JoinsOwn whole inner) := by
  obtain ⟨⟨s, counter⟩, made, written⟩ := bind_parts ran
  cases written
  obtain ⟨whole, tour⟩ := statement_tour made
  refine ⟨s, made, text_layout s, ⟨whole, joins_shared tour, joins_own tour⟩, ?_⟩
  intro inner contains
  obtain ⟨r, k, l, within, ran⟩ := statement_nested made contains
  obtain ⟨whole, tour⟩ := statement_tour ran
  exact ⟨r, k, l, whole, within, ran, joins_shared tour,
    fun coherent => joins_own tour (coherent_within coherent within)⟩

namespace Parcels

theorem report_shares : report.Coherent ∧ report.sqlFrom 0 = .ok (reportText, 0) ∧
    ∃ s, report.statement 0 = .ok (s, 0) ∧
      reportText = s.selectText ++ s.fromText ++ s.tailText ∧
      (∃ whole, report.SharesJoins whole s ∧ (report.Coherent → report.JoinsOwn whole s)) ∧
      ∀ inner, s.Contains inner → ∃ r k l whole,
        report.Within r ∧ r.statement k = .ok (inner, l) ∧ r.SharesJoins whole inner ∧
          (report.Coherent → r.JoinsOwn whole inner) := by
  have ran : report.sqlFrom 0 = .ok (reportText, 0) := by decide +kernel
  exact ⟨report_coherent, ran, hops_share_joins report ran⟩

end Parcels

-- Someone is guided by the manager first and by the mentor later, and a query asks for both guides.
namespace Guides

def sameId (near : String) : Expr :=
  .binary .equals (.access (.namesake "staff" near .integer) .left)
    (.access (.namesake "staff" "id" .integer) .right)
    .boolean

def guide (near : String) : Attribute :=
  ⟨"staff", "guide", .reference "staff" "staff" (sameId near)⟩

def guideName (near : String) : Expr :=
  .compose (.access (guide near) .matching) (.read "staff" "name" .string)

def report : Query :=
  ⟨"guides", "staff", "staff",
    [⟨"old", guideName "manager_id"⟩, ⟨"new", guideName "mentor_id"⟩], none⟩

def reportText : String :=
  "SELECT guide.name AS old, guide.name AS new FROM staff" ++
    " JOIN staff AS guide ON (staff.manager_id = guide.id)"

def hop (near : String) : Leg := ⟨.root "staff", "staff", "guide", "staff", "staff", sameId near⟩

theorem guideName_built (near : String) : (guideName near).Built := by
  have compared : Expr.operation .equals (.access (.namesake "staff" near .integer) .left)
      (.access (.namesake "staff" "id" .integer) .right) = .ok (sameId near) := rfl
  have condition : (sameId near).Built :=
    .operation (read_built _ _ _ _) (read_built _ _ _ _) compared
  have referred : Attribute.reference "staff" "guide" "staff" "staff" (sameId near) =
      .ok (guide near) := rfl
  have reference : (guide near).Built := .reference condition referred
  exact .composed (.access .matching reference) (read_built "staff" "name" .string .matching) rfl

theorem report_built : report.Built := by
  have first : (Query.start "guides" ⟨"staff", "staff", []⟩).select "old" (guideName "manager_id") =
      .ok { report with projections := [⟨"old", guideName "manager_id"⟩] } := rfl
  exact .select (.select (.start _ _) (guideName_built "manager_id") first)
    (guideName_built "mentor_id") (rfl : Query.select _ "new" _ = _)

theorem guides_confused : ¬ ∀ q : Query, q.Built → ∀ n s m, q.statement n = .ok (s, m) →
    ∀ whole, q.FromTour whole s → ∀ one ∈ q.hops whole, ∀ two ∈ q.hops whole,
      ∀ item ∈ s.joins, item.Serves (.ofPaths (q.paths whole)) one →
        item.Serves (.ofPaths (q.paths whole)) two →
        one.table = two.table ∧ one.condition = two.condition := by
  intro always
  have ran : report.sqlFrom 0 = .ok (reportText, 0) := by decide +kernel
  obtain ⟨⟨s, m⟩, made, _⟩ := bind_parts ran
  obtain ⟨whole, tour⟩ := statement_tour made
  have outset : report.outset = [hop "manager_id", hop "mentor_id"] := rfl
  have member : ∀ near, hop near ∈ report.outset → hop near ∈ report.hops whole :=
    fun near present => List.mem_append_left _ present
  have old := member "manager_id" (by simp [outset])
  have new := member "mentor_id" (by simp [outset])
  obtain ⟨item, ⟨listed, serves⟩, _⟩ := hop_served tour old
  have same := always report report_built 0 s m made whole tour _ old _ new item listed serves serves
  simp [hop, sameId, Attribute.namesake, Attribute.mapped] at same

end Guides

end SemanticLayer
