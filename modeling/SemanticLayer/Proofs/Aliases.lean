import Mathlib.Data.List.Nodup
import SemanticLayer.Statement.Aliased

namespace SemanticLayer
open AliasTable

theorem suffixed_injective (same : suffixed base n = suffixed base m) : n = m := by
  have digits : toString n = toString m := (String.append_right_inj (base ++ "_")).mp same
  have read := congrArg (fun text => Nat.ofDigitChars 10 (String.toList text) 0) digits
  simpa [Nat.toString_eq_repr, Nat.repr, Nat.ofDigitChars_ten_toDigits] using read

-- The alias that is found carries a number above the counter, so that it is none of the candidates
-- that were struck from the list on the way.
theorem firstFree_parts (base : String) (taken : List String) (counter : Nat) :
    ∃ n, counter < n ∧ firstFree base taken counter = (suffixed base n, n) ∧
      suffixed base n ∉ taken := by
  induction taken, counter using firstFree.induct base with
  | case1 taken counter candidate present ih =>
    obtain ⟨n, larger, found, free⟩ := ih
    refine ⟨n, by omega, ?_, ?_⟩
    · rw [firstFree, dif_pos present, found]
    · intro taken_n
      have other : suffixed base n ≠ candidate := fun same => by
        have := suffixed_injective same
        omega
      exact free ((List.mem_erase_of_ne other).mpr taken_n)
  | case2 taken counter candidate absent =>
    exact ⟨counter + 1, by omega, by rw [firstFree, dif_neg absent], absent⟩

-- What an alias looks like is no part of this.
structure AliasTable.Valid (t : AliasTable) : Prop where
  paths : (t.entries.map Prod.fst).Nodup
  labels : (t.entries.map Prod.snd).Nodup

theorem alias_known (found : alias? t path = some label) : (path, label) ∈ t.entries := by
  obtain ⟨⟨key, value⟩, located, rfl⟩ := Option.map_eq_some_iff.mp found
  have same : key = path := by simpa using List.find?_some located
  exact same ▸ List.mem_of_find?_eq_some located

theorem alias_unknown (missing : alias? t path = none) : path ∉ t.entries.map Prod.fst := by
  intro known
  obtain ⟨entry, member, rfl⟩ := List.mem_map.mp known
  have absent := List.find?_eq_none.mp (Option.map_eq_none_iff.mp missing) entry member
  simp at absent

theorem bind_entries (t : AliasTable) (path : Path) :
    (∃ label, t.alias? path = some label ∧ t.bind path = (label, t)) ∨
      ∃ label, t.alias? path = none ∧ label ∉ t.taken ∧ (t.bind path).1 = label ∧
        (t.bind path).2.entries = t.entries ++ [(path, label)] := by
  unfold AliasTable.bind
  split
  · rename_i label found
    exact .inl ⟨label, found, rfl⟩
  · rename_i missing
    right
    split
    · obtain ⟨n, _, found, free⟩ := firstFree_parts path.baseAlias t.taken t.counter
      exact ⟨suffixed path.baseAlias n, missing, free, by simp [found], by simp [found]⟩
    · rename_i free
      exact ⟨path.baseAlias, missing, free, rfl, rfl⟩

theorem bind_valid (t : AliasTable) (path : Path) (valid : t.Valid) : (t.bind path).2.Valid := by
  rcases bind_entries t path with ⟨label, _, same⟩ | ⟨label, missing, free, _, grown⟩
  · rw [same]
    exact valid
  · constructor
    · rw [grown, List.map_append]
      exact valid.paths.append (List.nodup_singleton _) (by simpa using alias_unknown missing)
    · rw [grown, List.map_append]
      exact valid.labels.append (List.nodup_singleton _) (by simpa [taken] using free)

theorem binds_entries (paths : List Path) (t : AliasTable) (valid : t.Valid)
    (distinct : (t.entries.map Prod.fst ++ paths).Nodup) :
    let last := paths.foldl (fun t path => (t.bind path).2) t
    last.Valid ∧ last.entries.map Prod.fst = t.entries.map Prod.fst ++ paths := by
  induction paths generalizing t with
  | nil => exact ⟨valid, by simp⟩
  | cons path rest ih =>
    rcases bind_entries t path with ⟨label, found, _⟩ | ⟨label, _, _, _, grown⟩
    · have known := List.mem_map_of_mem (f := Prod.fst) (alias_known found)
      have fresh := (List.nodup_append.mp distinct).2.2 path known path List.mem_cons_self
      exact absurd rfl fresh
    · have keys : (t.bind path).2.entries.map Prod.fst = t.entries.map Prod.fst ++ [path] := by
        simp [grown]
      have more := ih (t.bind path).2 (bind_valid t path valid) (by simpa [keys] using distinct)
      simpa [keys] using more

section
variable {paths : List Path} (distinct : paths.Nodup)
include distinct

theorem ofPaths_valid : (ofPaths paths).Valid ∧ (ofPaths paths).entries.map Prod.fst = paths := by
  have empty : AliasTable.empty.Valid := ⟨List.nodup_nil, List.nodup_nil⟩
  simpa [AliasTable.empty, ofPaths] using
    binds_entries paths .empty empty (by simpa [AliasTable.empty])

theorem name_entry (member : path ∈ paths) : (path, (ofPaths paths).name path) ∈ (ofPaths paths).entries := by
  have keys := (ofPaths_valid distinct).2
  cases found : (ofPaths paths).alias? path with
  | none => exact absurd (keys.symm ▸ member) (alias_unknown found)
  | some label =>
    have named : (ofPaths paths).name path = label := by simp [AliasTable.name, found]
    exact named ▸ alias_known found

theorem names_distinct : (paths.map (ofPaths paths).name).Nodup := by
  obtain ⟨valid, keys⟩ := ofPaths_valid distinct
  refine distinct.map_on ?_
  intro one first two second same
  have entry := name_entry distinct first
  rw [same] at entry
  exact congrArg Prod.fst (List.inj_on_of_nodup_map valid.labels entry (name_entry distinct second) rfl)

end

end SemanticLayer
