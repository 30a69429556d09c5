import Mathlib.Data.List.Forall2
import Mathlib.Data.List.Induction
import SemanticLayer.Catalog

namespace SemanticLayer

-- The fold that gathers the keys looks at the latest one alone: this is enough as long as the rows of
-- a key come together.

def KeyRow.Before (one two : KeyRow) : Prop :=
  one.key < two.key ∨ one.key = two.key ∧ one.position ≤ two.position

inductive KeyRow.Resolves (ask : String → List String) (row : KeyRow) (column : String) : Prop where
  | given : row.column = some column → row.Resolves ask column
  | placed (place : Nat) : row.column = none → row.position = place →
      (ask row.target)[place]? = some column → row.Resolves ask column

def KeyRow.Answers (ask : String → List String) (row : KeyRow) (answer : Option String) : Prop :=
  ∀ column, answer = some column ↔ row.Resolves ask column

def KeyRow.numbered (rows : List KeyRow) (number : Int) : List KeyRow := rows.filter (·.key = number)

def KeyRow.Complete (ask : String → List String) (rows : List KeyRow) (number : Int) : Prop :=
  KeyRow.numbered rows number ≠ [] ∧
    ∀ row ∈ KeyRow.numbered rows number, ∃ column, row.Resolves ask column

structure ForeignKey.Reads (table : String) (ask : String → List String) (rows : List KeyRow)
    (key : ForeignKey) : Prop where
  source : key.source = table
  target : rows.head?.map KeyRow.target = some key.target
  pairs : List.Forall₂ (fun row pair => pair.1 = row.source ∧ row.Resolves ask pair.2) rows key.pairs

inductive KeyTally.Told (table : String) (ask : String → List String) (rows : List KeyRow) :
    Option ForeignKey → Prop where
  | whole : ForeignKey.Reads table ask rows key → KeyTally.Told table ask rows (some key)
  | broken : row ∈ rows → (∀ column, ¬ row.Resolves ask column) → KeyTally.Told table ask rows none

-- The primary keys that are known are those that asking again would give.
def KeyTally.Honest (ask : String → List String) (t : KeyTally) : Prop :=
  ∀ target columns, t.known.lookup target = some columns → columns = ask target

-- The tally after some rows: its keys are those of the rows, falling, each as its own rows tell.
structure KeyTally.Follows (table : String) (ask : String → List String) (seen : List KeyRow)
    (t : KeyTally) : Prop where
  honest : t.Honest ask
  falling : (t.keys.map (·.1)).Pairwise (· > ·)
  listed : ∀ number, number ∈ t.keys.map (·.1) ↔ ∃ row ∈ seen, row.key = number
  told : ∀ number key, (number, key) ∈ t.keys →
    KeyTally.Told table ask (KeyRow.numbered seen number) key

variable {table : String} {ask : String → List String} {rows seen : List KeyRow} {row : KeyRow}
  {answer : Option String} {t next : KeyTally}

theorem numbered_nil : KeyRow.numbered rows number = [] ↔ ∀ row ∈ rows, row.key ≠ number := by
  simp [KeyRow.numbered]

theorem numbered_own (seen : List KeyRow) (row : KeyRow) :
    KeyRow.numbered (seen ++ [row]) row.key = KeyRow.numbered seen row.key ++ [row] := by
  simp [KeyRow.numbered]

theorem numbered_other (seen : List KeyRow) (apart : row.key ≠ number) :
    KeyRow.numbered (seen ++ [row]) number = KeyRow.numbered seen number := by
  simp [KeyRow.numbered, apart]

theorem numbered_ordered (ordered : rows.Pairwise KeyRow.Before) (number : Int) :
    (KeyRow.numbered rows number).Pairwise (·.position ≤ ·.position) := by
  refine (ordered.filter _).imp_of_mem fun {one two} first second before => ?_
  have same : one.key = two.key :=
    (of_decide_eq_true (List.mem_filter.mp first).2).trans
      (of_decide_eq_true (List.mem_filter.mp second).2).symm
  rcases before with less | ⟨_, order⟩
  · omega
  · exact order

namespace KeyRow

theorem Resolves.unique {column other : String} (one : row.Resolves ask column)
    (two : row.Resolves ask other) : column = other := by
  cases one with
  | given given =>
    cases two with
    | given again => exact Option.some.inj (given.symm.trans again)
    | placed _ missing => simp [given] at missing
  | placed place missing position found =>
    cases two with
    | given given => simp [given] at missing
    | placed other _ again reached =>
      obtain rfl : place = other := by omega
      exact Option.some.inj (found.symm.trans reached)

end KeyRow

namespace KeyTally

theorem primaryKey_asked (honest : t.Honest ask) (target : String) :
    (t.primaryKey ask target).1 = ask target ∧ (t.primaryKey ask target).2.keys = t.keys ∧
      (t.primaryKey ask target).2.Honest ask := by
  unfold primaryKey
  cases known : t.known.lookup target with
  | some columns => exact ⟨honest target columns known, rfl, honest⟩
  | none =>
    refine ⟨rfl, rfl, fun other columns found => ?_⟩
    rw [List.lookup_cons] at found
    split at found
    · rename_i same
      rw [eq_of_beq same]
      exact (Option.some.inj found).symm
    · exact honest other columns found

theorem target_resolves (honest : t.Honest ask) (row : KeyRow) :
    row.Answers ask (t.target ask row).1 ∧ (t.target ask row).2.keys = t.keys ∧
      (t.target ask row).2.Honest ask := by
  unfold target
  cases given : row.column with
  | some own =>
    refine ⟨fun column => ⟨fun same => .given (given.trans same), fun resolved => ?_⟩, rfl, honest⟩
    exact congrArg some (KeyRow.Resolves.unique (.given given) resolved)
  | none =>
    obtain ⟨told, keys, honest⟩ := primaryKey_asked honest row.target
    refine ⟨fun column => ?_, keys, honest⟩
    simp only [told, Option.bind_eq_some_iff]
    constructor
    · rintro ⟨place, position, found⟩
      exact .placed place given (Int.mem_toNat?.mp position) found
    · intro resolved
      cases resolved with
      | given present => simp [given] at present
      | placed place _ position found => exact ⟨place, Int.mem_toNat?.mpr position, found⟩

theorem unanswered (answers : row.Answers ask none) (column : String) :
    ¬ row.Resolves ask column := fun resolved => by
  cases (answers column).mpr resolved

theorem told_opened (answers : row.Answers ask answer) :
    Told table ask [row] (opened table row answer) := by
  cases answer with
  | none => exact .broken (List.mem_singleton_self row) (unanswered answers)
  | some column => exact .whole ⟨rfl, rfl, .cons ⟨rfl, (answers column).mp rfl⟩ .nil⟩

theorem told_extended (answers : row.Answers ask answer) (told : Told table ask rows key) :
    Told table ask (rows ++ [row]) (extended key row answer) := by
  cases told with
  | broken member stuck => exact .broken (List.mem_append_left _ member) stuck
  | whole reads =>
    cases answer with
    | none =>
      exact .broken (List.mem_append_right _ (List.mem_singleton_self row)) (unanswered answers)
    | some column =>
      have first : (rows ++ [row]).head?.map KeyRow.target = rows.head?.map KeyRow.target := by
        cases rows with
        | nil => cases reads.target
        | cons first rest => rfl
      exact .whole ⟨reads.source, first.trans reads.target,
        List.rel_append reads.pairs (.cons ⟨rfl, (answers column).mp rfl⟩ .nil)⟩

theorem put_opened (table : String) (column : Option String)
    {keys : List (Int × Option ForeignKey)} (fresh : row.key ∉ keys.map (·.1)) :
    put table row column keys = (row.key, opened table row column) :: keys := by
  cases keys with
  | nil => rfl
  | cons entry rest =>
    have apart : entry.1 ≠ row.key := fun same => fresh (by simp [same])
    simp [put, apart]

-- With the rows in their order, the key of the next one is the latest or a new and greater one.
theorem follows_latest (follows : t.Follows table ask seen)
    (ordered : ∀ earlier ∈ seen, earlier.Before row) :
    (∃ key rest, t.keys = (row.key, key) :: rest) ∨ ∀ number ∈ t.keys.map (·.1), number < row.key := by
  have bounded : ∀ number ∈ t.keys.map (·.1), number ≤ row.key := by
    intro number member
    obtain ⟨earlier, present, rfl⟩ := (follows.listed number).mp member
    rcases ordered earlier present with less | ⟨same, _⟩
    · exact Int.le_of_lt less
    · exact Int.le_of_eq same
  cases keys : t.keys with
  | nil => right; simp
  | cons entry rest =>
    have falling := follows.falling
    rw [keys] at bounded falling
    rcases Int.le_iff_eq_or_lt.mp (bounded entry.1 List.mem_cons_self) with same | less
    · left
      exact ⟨entry.2, rest, by rw [← same]⟩
    · right
      intro number member
      rcases List.mem_cons.mp member with rfl | later
      · exact less
      · exact Int.lt_trans (List.rel_of_pairwise_cons falling later) less

theorem follows_start (table : String) (ask : String → List String) :
    start.Follows table ask [] where
  honest := by simp [start, Honest]
  falling := .nil
  listed := by simp [start]
  told := by simp [start]

theorem follows_extended (follows : t.Follows table ask seen) (latest : t.keys = (row.key, key) :: rest)
    (answers : row.Answers ask answer) (honest : next.Honest ask) :
    Follows table ask (seen ++ [row])
      { next with keys := (row.key, extended key row answer) :: rest } := by
  have falling := follows.falling
  have numbers : t.keys.map (·.1) = row.key :: rest.map (·.1) := by rw [latest, List.map_cons]
  rw [numbers] at falling
  refine ⟨honest, falling, fun number => ?_, fun number found member => ?_⟩
  · rw [List.map_cons, ← numbers, follows.listed]
    constructor
    · rintro ⟨earlier, present, rfl⟩
      exact ⟨earlier, List.mem_append_left _ present, rfl⟩
    · rintro ⟨one, present, rfl⟩
      rcases List.mem_append.mp present with earlier | last
      · exact ⟨one, earlier, rfl⟩
      · rw [List.mem_singleton.mp last, ← follows.listed, numbers]
        exact List.mem_cons_self
  · rcases List.mem_cons.mp member with own | other
    · cases own
      rw [numbered_own]
      exact told_extended answers (follows.told row.key key (latest ▸ List.mem_cons_self))
    · have less : number < row.key := List.rel_of_pairwise_cons falling (List.mem_map_of_mem other)
      rw [numbered_other seen (Int.ne_of_gt less)]
      exact follows.told number found (latest ▸ List.mem_cons_of_mem _ other)

theorem follows_opened (follows : t.Follows table ask seen)
    (greater : ∀ number ∈ t.keys.map (·.1), number < row.key)
    (answers : row.Answers ask answer) (honest : next.Honest ask) :
    Follows table ask (seen ++ [row])
      { next with keys := (row.key, opened table row answer) :: t.keys } := by
  refine ⟨honest, .cons greater follows.falling, fun number => ?_, fun number found member => ?_⟩
  · rw [List.map_cons, List.mem_cons, follows.listed]
    simp only [List.mem_append, List.mem_singleton, or_and_right, exists_or, exists_eq_left]
    rw [or_comm, eq_comm]
  · rcases List.mem_cons.mp member with own | other
    · cases own
      have first : KeyRow.numbered seen row.key = [] := by
        refine numbered_nil.mpr fun earlier present own => ?_
        have listed := (follows.listed row.key).mpr ⟨earlier, present, own⟩
        exact Int.lt_irrefl _ (greater _ listed)
      rw [numbered_own, first]
      exact told_opened answers
    · have less : number < row.key := greater number (List.mem_map_of_mem other)
      rw [numbered_other seen (Int.ne_of_gt less)]
      exact follows.told number found other

theorem follows_step (follows : t.Follows table ask seen)
    (ordered : ∀ earlier ∈ seen, earlier.Before row) :
    (t.step table ask row).Follows table ask (seen ++ [row]) := by
  obtain ⟨answers, same, honest⟩ := target_resolves follows.honest row
  have step : t.step table ask row =
      { (t.target ask row).2 with keys := put table row (t.target ask row).1 t.keys } := by
    rw [← same]
    rfl
  rw [step]
  rcases follows_latest follows ordered with ⟨key, rest, latest⟩ | greater
  · rw [latest, put, if_pos rfl]
    exact follows_extended follows latest answers honest
  · rw [put_opened table _ fun member => Int.lt_irrefl _ (greater _ member)]
    exact follows_opened follows greater answers honest

theorem follows_run (table : String) (ask : String → List String)
    (ordered : rows.Pairwise KeyRow.Before) :
    (rows.foldl (step table ask) start).Follows table ask rows := by
  induction rows using List.reverseRecOn with
  | nil => exact follows_start table ask
  | append_singleton seen row ih =>
    obtain ⟨before, _, last⟩ := List.pairwise_append.mp ordered
    rw [List.foldl_append]
    exact follows_step (ih before) fun earlier present =>
      last earlier present row (List.mem_singleton_self row)

def kept (t : KeyTally) : List (Int × ForeignKey) :=
  t.keys.reverse.filterMap fun entry => entry.2.map (entry.1, ·)

theorem kept_keys (t : KeyTally) : t.kept.map (·.2) = t.keys.reverse.filterMap (·.2) := by
  simp only [kept, List.map_filterMap, Option.map_map]
  congr 1
  funext entry
  cases entry.2 <;> rfl

theorem mem_kept : (number, key) ∈ t.kept ↔ (number, some key) ∈ t.keys := by
  simp only [kept, List.mem_filterMap, List.mem_reverse, Option.map_eq_some_iff]
  constructor
  · rintro ⟨⟨_, _⟩, member, _, rfl, ⟨⟩⟩
    exact member
  · intro member
    exact ⟨_, member, key, rfl, rfl⟩

theorem kept_rising (follows : t.Follows table ask rows) :
    (t.kept.map (·.1)).Pairwise (· < ·) := by
  have rising : t.keys.reverse.Pairwise fun one two => one.1 < two.1 :=
    List.pairwise_reverse.mpr (List.pairwise_map.mp follows.falling)
  refine List.pairwise_map.mpr (rising.filterMap _ ?_)
  intro one two less first gives second yields
  obtain ⟨_, _, rfl⟩ := Option.map_eq_some_iff.mp gives
  obtain ⟨_, _, rfl⟩ := Option.map_eq_some_iff.mp yields
  exact less

theorem told_whole (told : Told table ask rows key) :
    (∃ whole, key = some whole) ↔ ∀ row ∈ rows, ∃ column, row.Resolves ask column := by
  cases told with
  | @whole key reads =>
    have each : List.Forall₂ (fun row pair =>
        (∃ column, KeyRow.Resolves ask row column) ∧ pair.1 = row.source) rows key.pairs :=
      reads.pairs.imp fun _ pair told => ⟨⟨pair.2, told.2⟩, told.1⟩
    exact ⟨fun _ => ((List.forall₂_and_left _ _).mp each).1, fun _ => ⟨key, rfl⟩⟩
  | broken member stuck =>
    constructor
    · rintro ⟨_, ⟨⟩⟩
    · intro resolved
      obtain ⟨column, found⟩ := resolved _ member
      exact absurd found (stuck column)

theorem kept_reads (follows : t.Follows table ask rows) (member : (number, key) ∈ t.kept) :
    key.Reads table ask (KeyRow.numbered rows number) := by
  cases follows.told number (some key) (mem_kept.mp member) with
  | whole reads => exact reads

theorem kept_complete (follows : t.Follows table ask rows) (number : Int) :
    number ∈ t.kept.map (·.1) ↔ KeyRow.Complete ask rows number := by
  have present : KeyRow.numbered rows number ≠ [] ↔ number ∈ t.keys.map (·.1) := by
    rw [Ne, numbered_nil, follows.listed]
    push Not
    rfl
  rw [KeyRow.Complete, present]
  constructor
  · intro member
    obtain ⟨⟨_, key⟩, kept, rfl⟩ := List.mem_map.mp member
    have entry := mem_kept.mp kept
    exact ⟨List.mem_map_of_mem entry, (told_whole (follows.told _ _ entry)).mp ⟨key, rfl⟩⟩
  · rintro ⟨listed, resolved⟩
    obtain ⟨⟨_, key⟩, entry, rfl⟩ := List.mem_map.mp listed
    obtain ⟨whole, rfl⟩ := (told_whole (follows.told _ _ entry)).mpr resolved
    exact List.mem_map_of_mem (mem_kept.mpr entry)

end KeyTally

theorem rows_ordered (t : DeclaredTable) : t.rows.Pairwise KeyRow.Before := by
  refine List.pairwise_flatten.mpr ⟨fun rows member => ?_, ?_⟩
  · obtain ⟨number, _, rfl⟩ := List.mem_mapIdx.mp member
    refine List.pairwise_iff_getElem.mpr fun one two _ _ less => ?_
    right
    simp only [DeclaredTable.keyRows, List.getElem_mapIdx, true_and]
    omega
  · refine List.pairwise_iff_getElem.mpr fun one two _ _ less => ?_
    simp only [List.getElem_mapIdx, DeclaredTable.keyRows, List.mem_mapIdx]
    rintro _ ⟨_, _, rfl⟩ _ ⟨_, _, rfl⟩
    left
    simpa using less

-- Of rows in their order each key that resolves in full is given once, by rising numbers, and no
-- other: with the table as its source, the target of its first row, and a pair for each of its rows,
-- which stand in the order of their positions.
theorem keys_gathered (table : String) (ask : String → List String)
    (ordered : rows.Pairwise KeyRow.Before) :
    ∃ kept : List (Int × ForeignKey), Catalog.foreignKeys table ask rows = kept.map (·.2) ∧
      (kept.map (·.1)).Pairwise (· < ·) ∧
      (∀ number, number ∈ kept.map (·.1) ↔ KeyRow.Complete ask rows number) ∧
      ∀ number key, (number, key) ∈ kept →
        key.Reads table ask (KeyRow.numbered rows number) ∧
        (KeyRow.numbered rows number).Pairwise (·.position ≤ ·.position) := by
  have follows := KeyTally.follows_run table ask ordered
  refine ⟨_, (KeyTally.kept_keys _).symm, KeyTally.kept_rising follows,
    KeyTally.kept_complete follows, fun number key member => ?_⟩
  exact ⟨KeyTally.kept_reads follows member, numbered_ordered ordered number⟩

namespace Places

def visits : DeclaredTable :=
  ⟨"visits", [("code", "TEXT"), ("country", "TEXT"), ("guide", "INTEGER"), ("tag", "TEXT")], [],
    [⟨["code", "country"], "regions", none⟩, ⟨["tag"], "tags", none⟩,
      ⟨["guide", "tag"], "staff", none⟩, ⟨["guide"], "staff", some ["id"]⟩]⟩

def catalog : Catalog :=
  ⟨[visits, ⟨"regions", [("code", "TEXT"), ("country", "TEXT")], ["country", "code"], []⟩,
    ⟨"staff", [("id", "INTEGER")], ["id"], []⟩, ⟨"tags", [("label", "TEXT")], [], []⟩]⟩

theorem visits_gathered : visits.rows.Pairwise KeyRow.Before ∧
    ∃ kept : List (Int × ForeignKey),
      Catalog.foreignKeys "visits" catalog.primaryKey visits.rows = kept.map (·.2) ∧
      (kept.map (·.1)).Pairwise (· < ·) ∧
      (∀ number, number ∈ kept.map (·.1) ↔
        KeyRow.Complete catalog.primaryKey visits.rows number) ∧
      ∀ number key, (number, key) ∈ kept →
        key.Reads "visits" catalog.primaryKey (KeyRow.numbered visits.rows number) ∧
        (KeyRow.numbered visits.rows number).Pairwise (·.position ≤ ·.position) :=
  ⟨rows_ordered visits, keys_gathered "visits" catalog.primaryKey (rows_ordered visits)⟩

example : Catalog.foreignKeys "visits" catalog.primaryKey visits.rows =
    [⟨"visits", "staff", [("guide", "id")]⟩,
      ⟨"visits", "regions", [("code", "country"), ("country", "code")]⟩] := by
  decide +kernel

end Places

end SemanticLayer
