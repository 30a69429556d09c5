import SemanticLayer.Proofs.ForeignKeys
import SemanticLayer.Proofs.Lookup

namespace SemanticLayer

-- The underscore at the end of the pattern stands for any character, so that the pattern leaves out
-- more than the tables that a database keeps for itself.

-- In a pattern a percent sign is for any text, and an underscore for any one character.
inductive Wildcard where
  | run
  | one
  | letter (c : Char)

def Wildcard.ofChar : Char → Wildcard
  | '%' => .run
  | '_' => .one
  | c => .letter c

-- Names that are like a pattern, whatever the case of the letters A to Z.
inductive Like : List Wildcard → List Char → Prop where
  | done : Like [] []
  | pass : Like pattern text → Like (.run :: pattern) text
  | run : Like (.run :: pattern) text → Like (.run :: pattern) (c :: text)
  | one : Like pattern text → Like (.one :: pattern) (c :: text)
  | letter : c.toLower = letter.toLower → Like pattern text →
      Like (.letter letter :: pattern) (c :: text)

def IsLike (pattern name : String) : Prop := Like (pattern.toList.map .ofChar) name.toList

def IsInternal (name : String) : Prop := "sqlite_".toList <+: name.toLower.toList

def IsNear (name : String) : Prop :=
  ∃ c rest, name.toLower.toList = "sqlite".toList ++ c :: rest ∧ c ≠ '_'

-- The columns are those that the database lists for the table, generated ones not among them.
structure DeclaredTable.Shown (t : DeclaredTable) (table : Table) : Prop where
  schema : table.schema = none
  name : table.name = t.name
  columns : List.Forall₂ (fun declared column =>
    column.name = declared.1 ∧ column.type = .ofDeclaration declared.2) t.columns table.columns

structure Catalog.Lists (c : Catalog) (tables : List DeclaredTable) (schema : Schema) : Prop where
  chosen : ∀ t, t ∈ tables ↔ t ∈ c.tables ∧ ¬ IsLike "sqlite_%" t.name
  ordered : (tables.map (·.name)).Pairwise (· < ·)
  shown : List.Forall₂ DeclaredTable.Shown tables schema.tables
  keys : ∃ groups : List (List ForeignKey), schema.foreignKeys = groups.flatten ∧
    List.Forall₂ (fun t group => group = foreignKeys t.name c.primaryKey t.rows ∧
      ∀ key ∈ group, key.source = t.name) tables groups

theorem like_letters (start : List Char) (pattern : List Wildcard) (text : List Char) :
    Like (start.map .letter ++ pattern) text ↔
      ∃ first rest, text = first ++ rest ∧ first.map Char.toLower = start.map Char.toLower ∧
        Like pattern rest := by
  induction start generalizing text with
  | nil =>
    constructor
    · intro like
      exact ⟨[], text, rfl, rfl, like⟩
    · rintro ⟨first, rest, rfl, same, like⟩
      rwa [List.map_eq_nil_iff.mp same]
  | cons letter start ih =>
    constructor
    · intro like
      cases like with
      | letter same like =>
        obtain ⟨first, rest, rfl, letters, like⟩ := (ih _).mp like
        exact ⟨_ :: first, rest, rfl, by rw [List.map_cons, List.map_cons, same, letters], like⟩
    · rintro ⟨first, rest, rfl, letters, like⟩
      obtain ⟨c, others, rfl, same, later⟩ := List.map_eq_cons_iff.mp letters
      exact .letter same ((ih _).mpr ⟨others, rest, rfl, later, like⟩)

theorem like_run (text : List Char) : Like [.run] text := by
  induction text with
  | nil => exact .pass .done
  | cons c text ih => exact .run ih

theorem like_open (text : List Char) : Like [.one, .run] text ↔ ∃ c rest, text = c :: rest := by
  constructor
  · rintro ⟨⟩
    exact ⟨_, _, rfl⟩
  · rintro ⟨c, rest, rfl⟩
    exact .one (like_run rest)

theorem lower_list (name : String) : name.toLower.toList = name.toList.map Char.toLower :=
  String.toList_map

theorem like_reserved (name : String) : IsLike "sqlite_%" name ↔
    ∃ c rest, name.toLower.toList = "sqlite".toList ++ c :: rest := by
  have pattern : "sqlite_%".toList.map Wildcard.ofChar =
      "sqlite".toList.map .letter ++ [.one, .run] := by rfl
  have lower : "sqlite".toList.map Char.toLower = "sqlite".toList := by decide
  rw [IsLike, pattern, like_letters, lower_list, lower]
  constructor
  · rintro ⟨first, rest, whole, letters, like⟩
    obtain ⟨c, rest, rfl⟩ := (like_open rest).mp like
    exact ⟨c.toLower, rest.map Char.toLower, by rw [whole, List.map_append, letters, List.map_cons]⟩
  · rintro ⟨c, rest, same⟩
    obtain ⟨first, others, whole, letters, after⟩ := List.map_eq_append_iff.mp same
    obtain ⟨d, more, rfl, _, _⟩ := List.map_eq_cons_iff.mp after
    exact ⟨first, d :: more, whole, letters, (like_open _).mpr ⟨d, more, rfl⟩⟩

theorem reserved_iff (name : String) : Catalog.isReserved name = true ↔ IsLike "sqlite_%" name := by
  have start : "sqlite".toList = ['s', 'q', 'l', 'i', 't', 'e'] := by decide
  rw [like_reserved, Catalog.isReserved, start, Bool.and_eq_true, beq_iff_eq, decide_eq_true_eq]
  generalize name.toLower.toList = letters
  constructor
  · rintro ⟨first, longer⟩
    have after : letters.drop 6 ≠ [] := by
      rw [Ne, List.drop_eq_nil_iff]
      omega
    obtain ⟨c, rest, same⟩ := List.exists_cons_of_ne_nil after
    exact ⟨c, rest, by rw [← first, ← same, List.take_append_drop]⟩
  · rintro ⟨c, rest, rfl⟩
    simp

-- What is like the pattern has a name that is kept, or a near one, and no name is both.

theorem internal_iff (name : String) :
    IsInternal name ↔ ∃ rest, name.toLower.toList = "sqlite".toList ++ '_' :: rest := by
  have start : "sqlite_".toList = "sqlite".toList ++ ['_'] := by decide
  rw [IsInternal, start]
  constructor
  · rintro ⟨rest, same⟩
    exact ⟨rest, by rw [← same, List.append_assoc, List.singleton_append]⟩
  · rintro ⟨rest, same⟩
    exact ⟨rest, by rw [same, List.append_assoc, List.singleton_append]⟩

theorem like_cases (name : String) : IsLike "sqlite_%" name ↔ IsInternal name ∨ IsNear name := by
  rw [like_reserved, internal_iff, IsNear]
  constructor
  · rintro ⟨c, rest, same⟩
    by_cases underscore : c = '_'
    · exact .inl ⟨rest, underscore ▸ same⟩
    · exact .inr ⟨c, rest, same, underscore⟩
  · rintro (⟨rest, same⟩ | ⟨c, rest, same, _⟩)
    · exact ⟨'_', rest, same⟩
    · exact ⟨c, rest, same⟩

theorem near_apart (near : IsNear name) : ¬ IsInternal name := by
  obtain ⟨c, rest, same, apart⟩ := near
  intro internal
  obtain ⟨more, whole⟩ := (internal_iff name).mp internal
  rw [same] at whole
  exact apart (List.cons.inj (List.append_cancel_left whole)).1

theorem inserts_sorted (key : α → String) (items : List α) {l : List α}
    (sorted : l.Pairwise fun a b => key a < key b) :
    (items.foldl (fun l item => Sorted.insert key item l) l).Pairwise
      fun a b => key a < key b := by
  induction items generalizing l with
  | nil => exact sorted
  | cons item rest ih => exact ih (insert_sorted key item sorted)

theorem ofList_sorted (key : α → String) (items : List α) :
    (Sorted.ofList key items).Pairwise fun a b => key a < key b :=
  inserts_sorted key items .nil

theorem ofList_perm (key : α → String) {l : List α} (distinct : (l.map key).Nodup) :
    (Sorted.ofList key l).Perm l := by
  have kept := inserts_fresh key id l [] distinct
  rwa [List.map_id, List.nil_append] at kept

theorem foreignKeys_source (t : DeclaredTable)
    (member : key ∈ Catalog.foreignKeys table ask t.rows) : key.source = table := by
  have follows := KeyTally.follows_run table ask (rows_ordered t)
  rw [Catalog.foreignKeys, ← KeyTally.kept_keys] at member
  obtain ⟨⟨number, _⟩, kept, rfl⟩ := List.mem_map.mp member
  exact (KeyTally.kept_reads follows kept).source

namespace Catalog

def listed (c : Catalog) : List DeclaredTable :=
  Sorted.ofList DeclaredTable.name (c.tables.filter (!isReserved ·.name))

theorem listed_chosen (c : Catalog) (distinct : (c.tables.map (·.name)).Nodup) (t : DeclaredTable) :
    t ∈ c.listed ↔ t ∈ c.tables ∧ ¬ IsLike "sqlite_%" t.name := by
  have apart : ((c.tables.filter (!isReserved ·.name)).map (·.name)).Nodup :=
    distinct.sublist (List.filter_sublist.map _)
  rw [listed, (ofList_perm DeclaredTable.name apart).mem_iff, List.mem_filter, Bool.not_eq_true',
    ← Bool.not_eq_true, reserved_iff]

theorem introspect_lists (c : Catalog) (distinct : (c.tables.map (·.name)).Nodup) :
    c.Lists c.listed c.introspect where
  chosen := c.listed_chosen distinct
  ordered := List.pairwise_map.mpr (ofList_sorted _ _)
  shown := by
    refine List.forall₂_map_right_iff.mpr (List.forall₂_same.mpr fun t _ => ⟨rfl, rfl, ?_⟩)
    refine List.forall₂_map_right_iff.mpr (List.forall₂_same.mpr fun column _ => ?_)
    dsimp only
    exact ⟨rfl, rfl⟩
  keys := by
    refine ⟨c.listed.map fun t => foreignKeys t.name c.primaryKey t.rows, ?_, ?_⟩
    · exact List.flatMap_def
    · refine List.forall₂_map_right_iff.mpr (List.forall₂_same.mpr fun t _ => ⟨rfl, fun key => ?_⟩)
      exact foreignKeys_source t

end Catalog

-- The tables that are listed are those that the database does not keep for itself, as long as no
-- table has a name near the names that are kept: such a table is left out with its keys. No two
-- tables of a database have one name.
theorem tables_listed (c : Catalog) (distinct : (c.tables.map (·.name)).Nodup) :
    ∃ tables, c.Lists tables c.introspect ∧
      (∀ t ∈ c.tables, t ∉ tables ↔ IsInternal t.name ∨ IsNear t.name) ∧
      ((∀ t, t ∈ tables ↔ t ∈ c.tables ∧ ¬ IsInternal t.name) ↔
        ∀ t ∈ c.tables, ¬ IsNear t.name) := by
  have lists := c.introspect_lists distinct
  have left (t : DeclaredTable) (member : t ∈ c.tables) :
      t ∉ c.listed ↔ IsInternal t.name ∨ IsNear t.name := by
    rw [lists.chosen, ← like_cases]
    simp [member]
  refine ⟨c.listed, lists, left, ?_, ?_⟩
  · intro whole t member near
    exact (left t member).mpr (.inr near) ((whole t).mpr ⟨member, near_apart near⟩)
  · intro apart t
    rw [lists.chosen, like_cases]
    constructor
    · rintro ⟨member, neither⟩
      exact ⟨member, fun internal => neither (.inl internal)⟩
    · rintro ⟨member, own⟩
      exact ⟨member, fun either => either.elim own (apart t member)⟩

namespace Notes

def files : DeclaredTable := ⟨"sqlitefiles", [("id", "INTEGER"), ("path", "TEXT")], ["id"], []⟩

def notes : DeclaredTable :=
  ⟨"notes", [("id", "INTEGER"), ("file_id", "INTEGER")], ["id"],
    [⟨["file_id"], "sqlitefiles", some ["id"]⟩]⟩

def statistics : DeclaredTable := ⟨"sqlite_stat1", [("tbl", ""), ("idx", ""), ("stat", "")], [], []⟩

def catalog : Catalog := ⟨[notes, statistics, files]⟩

theorem catalog_listed : (catalog.tables.map (·.name)).Nodup ∧
    ∃ tables, catalog.Lists tables catalog.introspect ∧
      (∀ t ∈ catalog.tables, t ∉ tables ↔ IsInternal t.name ∨ IsNear t.name) ∧
      ((∀ t, t ∈ tables ↔ t ∈ catalog.tables ∧ ¬ IsInternal t.name) ↔
        ∀ t ∈ catalog.tables, ¬ IsNear t.name) :=
  ⟨by decide, tables_listed catalog (by decide)⟩

-- A table that the database does not keep for itself, and that is not listed all the same, although
-- another table has a key to it.
theorem files_left_out : ¬ ∀ c : Catalog, (c.tables.map (·.name)).Nodup →
    ∀ t ∈ c.tables, ¬ IsInternal t.name → t.name ∈ c.introspect.tables.map (·.name) := by
  intro always
  have own : ¬ IsInternal files.name := near_apart ⟨'f', "iles".toList, by decide +kernel, by decide⟩
  have listed := always catalog (by decide) files (by decide) own
  exact absurd listed (by decide +kernel)

example : catalog.introspect.tables.map (·.name) = ["notes"] ∧
    catalog.introspect.foreignKeys = [⟨"notes", "sqlitefiles", [("file_id", "id")]⟩] := by
  decide +kernel

end Notes

end SemanticLayer
