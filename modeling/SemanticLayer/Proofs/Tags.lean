import SemanticLayer.Proofs.Numbering
import SemanticLayer.Statement.Sql

namespace SemanticLayer

-- The text of a statement in pieces, in which the tag of a nested statement can be told from words
-- that look like one.
inductive Piece where
  | words (text : String)
  | tag (number : Nat)

namespace Piece

def text : Piece → String
  | .words text => text
  | .tag number => " AS sq" ++ toString number

def number? : Piece → Option Nat
  | .words _ => none
  | .tag number => some number

def raised (amount : Nat) : Piece → Piece
  | .words text => .words text
  | .tag number => .tag (number + amount)

end Piece

def written (pieces : List Piece) : String := String.join (pieces.map Piece.text)

def tags (pieces : List Piece) : List Nat := pieces.filterMap Piece.number?

def separated (lists : List (List Piece)) : List Piece := [.words ", "].intercalate lists

def columnPieces? : Role String × List Piece → Option (List Piece)
  | (.select label, pieces) => some (pieces ++ [.words (" AS " ++ label)])
  | _ => none

def joinPieces? : Role String × List Piece → Option (List Piece)
  | (.join label table, pieces) =>
      some (.words (" JOIN " ++ table ++ " AS " ++ label ++ " ON ") :: pieces)
  | _ => none

def filterPieces? : Role String × List Piece → Option (List Piece)
  | (.filter, pieces) => some (.words " WHERE " :: pieces)
  | _ => none

def groupPieces? : Role String × List Piece → Option (List Piece)
  | (.group, pieces) => some pieces
  | _ => none

def statementPieces (root table : String) (parts : List (Role String × List Piece)) : List Piece :=
  let columns := parts.filterMap columnPieces?
  let groups := parts.filterMap groupPieces?
  .words "SELECT " :: (if columns.isEmpty then [.words "*"] else separated columns) ++
    .words (" FROM " ++ table ++ if root = table then "" else " AS " ++ root) ::
      (parts.filterMap joinPieces?).flatten ++
    (parts.filterMap filterPieces?).flatten ++
    if groups.isEmpty then [] else .words " GROUP BY " :: separated groups

mutual

def Term.pieces : Term String Nat → List Piece
  | .literal value => [.words value.text]
  | .column label name => [.words (label ++ "." ++ name)]
  | .binary operator left right =>
      .words "(" :: left.pieces ++ .words (" " ++ operator.symbol ++ " ") :: right.pieces ++
        [.words ")"]
  | .countAll => [.words "COUNT(*)"]
  | .aggregate function operand => .words (function.name ++ "(") :: operand.pieces ++ [.words ")"]
  | .subquery number statement => .words "(" :: statement.pieces ++ [.words ")", .tag number]

def Statement.pieces : Statement String Nat → List Piece
  | ⟨root, table, clauses⟩ => statementPieces root table (clausePieces clauses)

def clausePieces : List (Clause String Nat) → List (Role String × List Piece)
  | [] => []
  | ⟨role, term⟩ :: rest => (role, term.pieces) :: clausePieces rest

end

@[simp] theorem written_nil : written [] = "" := by simp [written]

@[simp] theorem written_cons (piece : Piece) (rest : List Piece) :
    written (piece :: rest) = piece.text ++ written rest := by
  simp [written]

@[simp] theorem written_append (first second : List Piece) :
    written (first ++ second) = written first ++ written second := by
  simp [written]

theorem written_flatten (lists : List (List Piece)) :
    written lists.flatten = String.join (lists.map written) := by
  induction lists with
  | nil => rfl
  | cons pieces rest ih => simp [ih]

theorem written_separated (lists : List (List Piece)) :
    written (separated lists) = ", ".intercalate (lists.map written) := by
  unfold separated
  induction lists with
  | nil => simp
  | cons pieces rest ih =>
    cases rest with
    | nil => simp
    | cons next rest =>
      rw [List.intercalate_cons_cons, List.map_cons, List.map_cons, String.intercalate_cons_cons,
        written_append, ih, List.map_cons]
      simp [Piece.text]

theorem parts_filtered (change : α → β) (last : γ → δ) {f : Role String × β → Option δ}
    {g : Role String × α → Option γ} (parts : List (Role String × α))
    (same : ∀ role inner, f (role, change inner) = (g (role, inner)).map last) :
    (parts.map fun part => (part.1, change part.2)).filterMap f = (parts.filterMap g).map last := by
  rw [List.filterMap_map, List.map_filterMap]
  congr 1
  funext part
  exact same part.1 part.2

theorem statementText_written (root table : String) (parts : List (Role String × List Piece)) :
    statementText root table (parts.map fun part => (part.1, written part.2)) =
      written (statementPieces root table parts) := by
  rw [statementText, parts_filtered written written (g := columnPieces?),
    parts_filtered written written (g := joinPieces?),
    parts_filtered written written (g := filterPieces?),
    parts_filtered written written (g := groupPieces?)]
  · simp only [List.isEmpty_map]
    simp [statementPieces, apply_ite written, written_flatten, written_separated, Piece.text,
      String.append_assoc]
  all_goals
    intro role pieces
    cases role <;>
      simp [columnPieces?, joinPieces?, filterPieces?, groupPieces?, Piece.text,
        String.append_assoc]

mutual

theorem Term.text_written : ∀ term : Term String Nat, term.text = written term.pieces
  | .literal _ => by simp [Term.text, Term.pieces, Piece.text]
  | .column _ _ => by simp [Term.text, Term.pieces, Piece.text]
  | .countAll => by simp [Term.text, Term.pieces, Piece.text]
  | .binary _ left right => by
      simp [Term.text, Term.pieces, Piece.text, left.text_written, right.text_written,
        String.append_assoc]
  | .aggregate _ operand => by
      simp [Term.text, Term.pieces, Piece.text, operand.text_written, String.append_assoc]
  | .subquery _ statement => by
      have closed (rest : String) : ")" ++ (" AS sq" ++ rest) = ") AS sq" ++ rest :=
        String.append_assoc.symm
      simp [Term.text, Term.pieces, Piece.text, statement.text_written, closed, String.append_assoc]

theorem Statement.text_written : ∀ s : Statement String Nat, s.text = written s.pieces
  | ⟨root, table, clauses⟩ => by
      rw [Statement.text, clauseTexts_written clauses, statementText_written, Statement.pieces]

theorem clauseTexts_written : ∀ clauses : List (Clause String Nat),
    clauseTexts clauses = (clausePieces clauses).map fun part => (part.1, written part.2)
  | [] => rfl
  | ⟨_, term⟩ :: rest => by
      rw [clauseTexts, clausePieces, List.map_cons, term.text_written, clauseTexts_written rest]

end

theorem separated_map (change : Piece → Piece) (comma : change (.words ", ") = .words ", ")
    (lists : List (List Piece)) :
    (separated lists).map change = separated (lists.map (List.map change)) := by
  unfold separated
  induction lists with
  | nil => simp
  | cons pieces rest ih =>
    cases rest with
    | nil => simp
    | cons next rest =>
      rw [List.intercalate_cons_cons, List.map_append, ih]
      simp [comma]

theorem statementPieces_map (change : Piece → Piece)
    (kept : ∀ text, change (.words text) = .words text) (root table : String)
    (parts : List (Role String × List Piece)) :
    statementPieces root table (parts.map fun part => (part.1, part.2.map change)) =
      (statementPieces root table parts).map change := by
  rw [statementPieces, parts_filtered (List.map change) (List.map change) (g := columnPieces?),
    parts_filtered (List.map change) (List.map change) (g := joinPieces?),
    parts_filtered (List.map change) (List.map change) (g := filterPieces?),
    parts_filtered (List.map change) (List.map change) (g := groupPieces?)]
  · simp only [List.isEmpty_map]
    simp [statementPieces, apply_ite (List.map change), separated_map change (kept _), kept,
      List.map_flatten]
  all_goals
    intro role pieces
    cases role <;> simp [columnPieces?, joinPieces?, filterPieces?, groupPieces?, kept]

mutual

theorem Term.pieces_raised (amount : Nat) : ∀ term : Term String Nat,
    (term.raised amount).pieces = term.pieces.map (Piece.raised amount)
  | .literal _ => rfl
  | .column _ _ => rfl
  | .countAll => rfl
  | .binary _ left right => by
      simp [Term.raised, Term.pieces, Piece.raised, left.pieces_raised amount,
        right.pieces_raised amount]
  | .aggregate _ operand => by
      simp [Term.raised, Term.pieces, Piece.raised, operand.pieces_raised amount]
  | .subquery _ statement => by
      simp [Term.raised, Term.pieces, Piece.raised, statement.pieces_raised amount]

theorem Statement.pieces_raised (amount : Nat) : ∀ s : Statement String Nat,
    (s.raised amount).pieces = s.pieces.map (Piece.raised amount)
  | ⟨root, table, clauses⟩ => by
      rw [Statement.raised, Statement.pieces, clausePieces_raised amount clauses, Statement.pieces]
      exact statementPieces_map (Piece.raised amount) (fun _ => rfl) root table _

theorem clausePieces_raised (amount : Nat) : ∀ clauses : List (Clause String Nat),
    clausePieces (raisedClauses amount clauses) =
      (clausePieces clauses).map fun part => (part.1, part.2.map (Piece.raised amount))
  | [] => rfl
  | ⟨_, term⟩ :: rest => by
      rw [raisedClauses, clausePieces, clausePieces, List.map_cons, term.pieces_raised amount,
        clausePieces_raised amount rest]

end

def Counts (numbers : List Nat) (n m : Nat) : Prop :=
  n ≤ m ∧ numbers.Perm (List.range' (n + 1) (m - n))

theorem counts_none (n : Nat) : Counts [] n n := by simp [Counts]

theorem counts_append (one : Counts first n k) (two : Counts second k m) :
    Counts (first ++ second) n m := by
  obtain ⟨early, one⟩ := one
  obtain ⟨late, two⟩ := two
  refine ⟨Nat.le_trans early late, (one.append two).trans (.of_eq ?_)⟩
  have start : k + 1 = n + 1 + (k - n) := by omega
  have length : m - n = k - n + (m - k) := by omega
  rw [start, length, List.range'_append_1]

theorem counts_perm (same : second.Perm first) (counts : Counts first n m) : Counts second n m :=
  ⟨counts.1, same.trans counts.2⟩

-- A nested statement is counted before those inside it and tagged after them.
theorem counts_tagged (inner : Counts numbers (n + 1) m) : Counts (numbers ++ [n + 1]) n m := by
  have first : Counts [n + 1] n (n + 1) := by simp [Counts]
  exact counts_perm List.perm_append_comm (counts_append first inner)

@[simp] theorem tags_append (first second : List Piece) :
    tags (first ++ second) = tags first ++ tags second := by
  simp [tags]

@[simp] theorem tags_words (text : String) (rest : List Piece) :
    tags (.words text :: rest) = tags rest :=
  List.filterMap_cons_none rfl

@[simp] theorem tags_tag (number : Nat) (rest : List Piece) :
    tags (.tag number :: rest) = number :: tags rest :=
  List.filterMap_cons_some rfl

@[simp] theorem tags_nil : tags [] = [] := by simp [tags]

theorem tags_flatten (lists : List (List Piece)) : tags lists.flatten = lists.flatMap tags := by
  induction lists with
  | nil => rfl
  | cons pieces rest ih => simp [ih]

theorem tags_separated (lists : List (List Piece)) :
    tags (separated lists) = lists.flatMap tags := by
  unfold separated
  induction lists with
  | nil => simp
  | cons pieces rest ih =>
    cases rest with
    | nil => simp
    | cons next rest =>
      rw [List.intercalate_cons_cons, tags_append, ih]
      simp

theorem statementPieces_tags (root table : String) (parts : List (Role String × List Piece)) :
    tags (statementPieces root table parts) =
      (parts.filterMap columnPieces?).flatMap tags ++ (parts.filterMap joinPieces?).flatMap tags ++
        (parts.filterMap filterPieces?).flatMap tags ++
          (parts.filterMap groupPieces?).flatMap tags := by
  unfold statementPieces
  simp only [apply_ite tags, tags_append, tags_words, tags_nil, tags_flatten, tags_separated]
  cases parts.filterMap columnPieces? <;> cases parts.filterMap groupPieces? <;>
    simp [List.append_assoc]

theorem statementPieces_once (root table : String) (parts : List (Role String × List Piece)) :
    (tags (statementPieces root table parts)).Perm (parts.flatMap fun part => tags part.2) := by
  rw [statementPieces_tags, List.perm_iff_count]
  intro number
  induction parts with
  | nil => simp
  | cons part rest ih =>
    obtain ⟨role, pieces⟩ := part
    cases role <;>
      simp [List.filterMap_cons, columnPieces?, joinPieces?, filterPieces?, groupPieces?] at ih ⊢
    all_goals omega

mutual

theorem Term.tags_numbered : ∀ (term : Term String Unit) (n : Nat),
    Counts (tags (term.numbered n).1.pieces) n (term.numbered n).2
  | .literal _, n => by simpa [Term.numbered, Term.pieces] using counts_none n
  | .column _ _, n => by simpa [Term.numbered, Term.pieces] using counts_none n
  | .countAll, n => by simpa [Term.numbered, Term.pieces] using counts_none n
  | .binary _ left right, n => by
      have counts := counts_append (left.tags_numbered n) (right.tags_numbered (left.numbered n).2)
      simpa [Term.numbered, Term.pieces] using counts
  | .aggregate _ operand, n => by
      simpa [Term.numbered, Term.pieces] using operand.tags_numbered n
  | .subquery _ statement, n => by
      simpa [Term.numbered, Term.pieces] using counts_tagged (statement.tags_numbered (n + 1))

theorem Statement.tags_numbered : ∀ (s : Statement String Unit) (n : Nat),
    Counts (tags (s.numbered n).1.pieces) n (s.numbered n).2
  | ⟨root, table, clauses⟩, n => by
      have counts := clausePieces_numbered clauses n
      exact counts_perm (statementPieces_once root table _) counts

theorem clausePieces_numbered : ∀ (clauses : List (Clause String Unit)) (n : Nat),
    Counts ((clausePieces (numberedClauses clauses n).1).flatMap fun part => tags part.2) n
      (numberedClauses clauses n).2
  | [], n => by simpa [numberedClauses, clausePieces] using counts_none n
  | ⟨_, term⟩ :: rest, n => by
      have counts := counts_append (term.tags_numbered n)
        (clausePieces_numbered rest (term.numbered n).2)
      simpa [numberedClauses, clausePieces] using counts

end

theorem statement_raised (planned : Query.plan q = .ok plan) (n : Nat) :
    q.statement n =
      .ok ((plan.aliased.numbered 0).1.raised n, n + (plan.aliased.numbered 0).2) := by
  have later := plan.aliased.numbered_raised n 0
  rw [Nat.zero_add] at later
  rw [Query.statement, planned, Nat.add_comm n, ← later]
  rfl

theorem sqlFrom_unplanned (failed : Query.plan q = .error error) (n : Nat) :
    q.sqlFrom n = .error error := by
  rw [Query.sqlFrom, Query.statement, failed]
  rfl

-- SQL fails with one error wherever the count starts, or it is one text in which only the numbers
-- of the tags depend on the start: they are the numbers that follow it, each given once.
theorem sql_tagged (q : Query) :
    (∃ error, ∀ n, q.sqlFrom n = .error error) ∨
      ∃ s count, ∀ n, q.statement n = .ok (Statement.raised n s, n + count) ∧
        q.sqlFrom n = .ok (written (s.pieces.map (Piece.raised n)), n + count) ∧
        (tags (s.pieces.map (Piece.raised n))).Perm (List.range' (n + 1) count) := by
  cases planned : q.plan with
  | error error => exact .inl ⟨error, sqlFrom_unplanned planned⟩
  | ok plan =>
    refine .inr ⟨(plan.aliased.numbered 0).1, (plan.aliased.numbered 0).2, ?_⟩
    intro n
    have made := statement_raised planned n
    have later := plan.aliased.numbered_raised n 0
    have counts := plan.aliased.tags_numbered n
    rw [Nat.zero_add] at later
    rw [later, Statement.pieces_raised] at counts
    refine ⟨made, ?_, ?_⟩
    · rw [← Statement.pieces_raised, ← Statement.text_written, Query.sqlFrom, made]
      rfl
    · simpa using counts.2

-- Nested queries in a column, a calculated attribute, an aggregate, a filter and a join, and one
-- inside another. What is grouped is counted again before the join, and written after it.
namespace Market

def keys (name : String) (filter : Option Expr) : Query :=
  ⟨name, "orders", "orders", [⟨"id", .read "orders" "id" .string⟩], filter⟩

def among (nested : Query) : Expr :=
  .binary .isIn (.read "orders" "id" .string) (.query nested) .boolean

def known : Attribute := ⟨"orders", "known", .value (among (keys "orders" none))⟩

def shop : Attribute :=
  ⟨"orders", "shop", .reference "shops" "shops" (among (keys "shops" none))⟩

def report : Query :=
  ⟨"report", "orders", "orders",
    [⟨"all", .query (keys "all" none)⟩, ⟨"known", .access known .matching⟩,
      ⟨"count", .aggregate .count (among (keys "counted" none))⟩,
      ⟨"shop", .compose (.access shop .matching) (.read "shops" "name" .string)⟩],
    some (among (keys "outer" (some (among (keys "inner" none)))))⟩

example : (report.statement 4).toOption.map (fun made => (tags made.1.pieces, made.2)) =
    some ([5, 6, 7, 12, 9, 8, 10, 11], 12) := by decide +kernel

end Market

end SemanticLayer
