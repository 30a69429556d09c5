import SemanticLayer.Proofs.Allocation
import SemanticLayer.Proofs.Grouping
import SemanticLayer.Proofs.Lookup

namespace SemanticLayer
open AliasTable

-- A nested statement has aliases of its own and keeps them.
def Term.relabelled {ν : Type} (rename : String → String) : Term String ν → Term String ν
  | .column label name => .column (rename label) name
  | .binary operator left right => .binary operator (left.relabelled rename) (right.relabelled rename)
  | .aggregate function operand => .aggregate function (operand.relabelled rename)
  | term => term

def Joined.relabelled (rename : String → String) (item : Joined) : Joined :=
  ⟨rename item.label, item.table, item.condition.relabelled rename⟩

theorem relabelled_aliased {before after : AliasTable} (term : Term Path ν)
    (same : ∀ read ∈ term.columns, rename (before.name read.1) = after.name read.1) :
    (term.aliased before).relabelled rename = term.aliased after := by
  fun_induction Term.columns term with
  | case1 relation name =>
    have here := same (relation, name) (by simp)
    simpa [Term.aliased, Term.relabelled] using here
  | case2 operator left right one two =>
    have inLeft := one fun read member => same read (List.mem_append_left _ member)
    have inRight := two fun read member => same read (List.mem_append_right _ member)
    simp [Term.aliased, Term.relabelled, inLeft, inRight]
  | case3 function operand ih => simp [Term.aliased, Term.relabelled, ih same]
  | case4 term noColumn noBinary noAggregate =>
    cases term <;> simp_all [Term.aliased, Term.relabelled]

theorem relabelled_numbered (rename : String → String) (term : Term String Unit) (n : Nat) :
    (term.numbered n).1.relabelled rename = ((term.relabelled rename).numbered n).1 ∧
      (term.numbered n).2 = ((term.relabelled rename).numbered n).2 := by
  fun_induction Term.relabelled rename term generalizing n with
  | case1 label name => simp [Term.numbered, Term.relabelled]
  | case2 operator left right one two =>
    obtain ⟨sameLeft, count⟩ := one n
    simp [Term.numbered, Term.relabelled, sameLeft, ← count, two]
  | case3 function operand ih => simp [Term.numbered, Term.relabelled, ih]
  | case4 term noColumn noBinary noAggregate =>
    cases term <;> simp_all [Term.numbered, Term.relabelled]

def AliasTable.renaming (before after : AliasTable) (label : String) : String :=
  match Sorted.find? Prod.snd label before.entries with
  | some (path, _) => after.name path
  | none => label

theorem renaming_name {paths : List Path} (distinct : paths.Nodup) (after : AliasTable)
    (member : path ∈ paths) :
    (ofPaths paths).renaming after ((ofPaths paths).name path) = after.name path := by
  have found := find_distinct Prod.snd (ofPaths_valid distinct).1.labels (name_entry distinct member)
  rw [AliasTable.renaming, found]

def Path.Calls (path : Path) (label : String) : Prop :=
  label = path.baseAlias ∨ ∃ k, label = suffixed path.baseAlias k

theorem name_calls {paths : List Path} (distinct : paths.Nodup) (member : path ∈ paths) :
    path.Calls ((ofPaths paths).name path) := by
  rcases (ofPaths_follows paths).labels _ (name_entry distinct member) with own | ⟨n, _, _, same⟩
  · exact .inl own
  · exact .inr ⟨n, same⟩

-- The path that comes first never has to give way.
theorem first_named (path : Path) (rest : List Path) :
    (ofPaths (path :: rest)).name path = path.baseAlias := by
  have alone : (AliasTable.empty.bind path).2.entries = [(path, path.baseAlias)] := by
    simp [AliasTable.bind, AliasTable.alias?, AliasTable.taken, AliasTable.empty]
  obtain ⟨more, entries⟩ := calls_extend rest (AliasTable.empty.bind path).2
  rw [alone] at entries
  rw [AliasTable.name, AliasTable.alias?, ofPaths, List.foldl_cons, ← entries]
  simp

end SemanticLayer
