import Mathlib.Data.List.Induction
import Mathlib.Data.Nat.Choose.Basic
import SemanticLayer.Proofs.Aliases
import SemanticLayer.Proofs.Lookup

namespace SemanticLayer
open AliasTable (suffixed firstFree ofPaths)

-- The paths are arbitrary: they may come again, and their names may look like numbered aliases.

inductive AliasSearch (base : String) (taken : List String) : String → Nat → String → Nat → Prop where
  | free : label ∉ taken → AliasSearch base taken label counter label counter
  | next : label ∈ taken →
      AliasSearch base taken (suffixed base (counter + 1)) (counter + 1) found last →
      AliasSearch base taken label counter found last

inductive AliasCall (t : AliasTable) (path : Path) : String → AliasTable → Prop where
  | known : (path, label) ∈ t.entries → AliasCall t path label t
  | fresh : path ∉ t.entries.map Prod.fst →
      AliasSearch path.baseAlias t.taken path.baseAlias t.counter label counter →
      AliasCall t path label ⟨t.entries ++ [(path, label)], counter⟩

def AliasTable.answers (t : AliasTable) : List Path → List String
  | [] => []
  | path :: rest => (t.bind path).1 :: (t.bind path).2.answers rest

def Path.Numbered (path : Path) (counter : Nat) (label : String) : Prop :=
  label = path.baseAlias ∨ ∃ n, 1 ≤ n ∧ n ≤ counter ∧ label = suffixed path.baseAlias n

theorem suffixed_apart (base : String) (n : Nat) : suffixed base n ≠ base := by
  intro same
  have lengths := congrArg String.length same
  have mark : "_".length = 1 := rfl
  simp only [suffixed, String.length_append] at lengths
  omega

theorem search_unique (one : AliasSearch base taken label counter found last)
    (two : AliasSearch base taken label counter found' last') : found' = found ∧ last' = last := by
  induction one with
  | free absent =>
    cases two with
    | free => exact ⟨rfl, rfl⟩
    | next present => exact absurd present absent
  | next present _ ih =>
    cases two with
    | free absent => exact absurd present absent
    | next _ rest => exact ih rest

-- Candidates are struck from the list that is searched, and none that is struck is tried again: the
-- numbers only go up.
theorem firstFree_search (whole : List String) (inside : ∀ label ∈ taken, label ∈ whole)
    (ahead : ∀ n, counter < n → suffixed base n ∈ whole → suffixed base n ∈ taken) :
    AliasSearch base whole (suffixed base (counter + 1)) (counter + 1)
      (firstFree base taken counter).1 (firstFree base taken counter).2 := by
  fun_induction firstFree base taken counter with
  | case1 taken counter candidate present ih =>
    refine .next (inside _ present) (ih ?_ ?_)
    · exact fun label member => inside label (List.mem_of_mem_erase member)
    · intro n larger member
      have other : suffixed base n ≠ candidate := fun same => by
        have := suffixed_injective same
        omega
      exact (List.mem_erase_of_ne other).mpr (ahead n (by omega) member)
  | case2 taken counter candidate absent =>
    exact .free fun member => absent (ahead (counter + 1) (by omega) member)

-- The base is among the labels and is no candidate, so one of the labels is never hit.
theorem firstFree_bound (present : base ∈ taken) :
    (firstFree base taken counter).2 ≤ counter + taken.length := by
  have positive := List.length_pos_of_mem present
  fun_induction firstFree base taken counter with
  | case1 taken counter candidate hit ih =>
    have kept : base ∈ taken.erase candidate :=
      (List.mem_erase_of_ne (suffixed_apart base (counter + 1)).symm).mpr present
    have later := ih kept (List.length_pos_of_mem kept)
    rw [List.length_erase_of_mem hit] at later
    refine Nat.le_trans later ?_
    omega
  | case2 taken counter candidate absent =>
    dsimp only
    omega

theorem bind_call (t : AliasTable) (path : Path) : AliasCall t path (t.bind path).1 (t.bind path).2 := by
  unfold AliasTable.bind
  split
  · rename_i label found
    exact .known (alias_known found)
  · rename_i missing
    have unknown := alias_unknown missing
    split
    · rename_i taken
      refine .fresh unknown (.next taken ?_)
      exact firstFree_search t.taken (fun _ member => member) fun _ _ member => member
    · rename_i free
      exact .fresh unknown (.free free)

theorem call_unique (valid : AliasTable.Valid t) (one : AliasCall t path label next)
    (two : AliasCall t path label' next') : label' = label ∧ next' = next := by
  cases one with
  | known entry =>
    cases two with
    | known again =>
      cases List.inj_on_of_nodup_map valid.paths again entry rfl
      exact ⟨rfl, rfl⟩
    | fresh unknown => exact absurd (List.mem_map_of_mem entry) unknown
  | fresh unknown search =>
    cases two with
    | known entry => exact absurd (List.mem_map_of_mem entry) unknown
    | fresh _ again =>
      obtain ⟨rfl, rfl⟩ := search_unique search again
      exact ⟨rfl, rfl⟩

theorem call_iff (valid : AliasTable.Valid t) :
    AliasCall t path label next ↔ t.bind path = (label, next) := by
  constructor
  · intro call
    obtain ⟨same, last⟩ := call_unique valid call (bind_call t path)
    exact Prod.ext same last
  · intro bound
    have call := bind_call t path
    rwa [bound] at call

-- Of equal paths the first one counts.
structure AliasTable.Follows (t : AliasTable) (calls : List Path) : Prop where
  valid : t.Valid
  order : t.entries.map Prod.fst = calls.eraseDups
  labels : ∀ entry ∈ t.entries, entry.1.Numbered t.counter entry.2
  counter : t.counter ≤ t.entries.length * (t.entries.length - 1) / 2

theorem numbered_later (numbered : Path.Numbered path counter label) (grown : counter ≤ later) :
    path.Numbered later label := by
  obtain own | ⟨n, positive, bound, same⟩ := numbered
  · exact .inl own
  · exact .inr ⟨n, positive, by omega, same⟩

theorem search_parts (path : Path) (search : AliasSearch path.baseAlias taken label counter found last)
    (start : path.Numbered counter label) :
    counter ≤ last ∧ path.Numbered last found ∧ found ∉ taken := by
  induction search with
  | free absent => exact ⟨Nat.le_refl _, start, absent⟩
  | @next label counter found last _ _ ih =>
    obtain ⟨grown, numbered, absent⟩ := ih (.inr ⟨counter + 1, by omega, Nat.le_refl _, rfl⟩)
    exact ⟨by omega, numbered, absent⟩

theorem bind_counter (t : AliasTable) (path : Path) :
    (t.bind path).2.counter ≤ t.counter + t.entries.length := by
  have length : t.taken.length = t.entries.length := List.length_map ..
  unfold AliasTable.bind
  split
  · exact Nat.le_add_right _ _
  · split
    · rename_i present
      rw [← length]
      exact firstFree_bound present
    · exact Nat.le_add_right _ _

theorem call_follows (follows : AliasTable.Follows t calls) (call : AliasCall t path label next)
    (valid : next.Valid) (bound : next.counter ≤ t.counter + t.entries.length) :
    next.Follows (calls ++ [path]) := by
  have asked : path ∈ t.entries.map Prod.fst ↔ path ∈ calls := by
    rw [follows.order, List.mem_eraseDups]
  cases call with
  | known entry =>
    have before : path ∈ calls := asked.mp (List.mem_map_of_mem entry)
    refine ⟨valid, ?_, follows.labels, follows.counter⟩
    rw [eraseDups_concat, if_pos before, follows.order]
  | @fresh counter unknown search =>
    obtain ⟨grown, numbered, _⟩ := search_parts path search (.inl rfl)
    constructor
    case valid => exact valid
    case order =>
      rw [eraseDups_concat, if_neg fun before => unknown (asked.mpr before), List.map_append,
        follows.order]
      rfl
    case labels =>
      intro entry member
      rcases List.mem_append.mp member with old | new
      · exact numbered_later (follows.labels entry old) grown
      · rw [List.mem_singleton.mp new]
        exact numbered
    case counter =>
      have sum := Nat.triangle_succ t.entries.length
      have before := follows.counter
      rw [List.length_append, List.length_singleton, sum]
      exact Nat.le_trans bound (Nat.add_le_add_right before _)

theorem bind_follows (path : Path) (follows : AliasTable.Follows t calls) :
    (t.bind path).2.Follows (calls ++ [path]) :=
  call_follows follows (bind_call t path) (bind_valid t path follows.valid) (bind_counter t path)

theorem ofPaths_concat (calls : List Path) (path : Path) :
    ofPaths (calls ++ [path]) = ((ofPaths calls).bind path).2 := by
  simp [ofPaths, List.foldl_append]

theorem ofPaths_follows (calls : List Path) : (ofPaths calls).Follows calls := by
  induction calls using List.reverseRecOn with
  | nil => exact ⟨⟨List.nodup_nil, List.nodup_nil⟩, rfl, by simp [ofPaths, AliasTable.empty], Nat.zero_le _⟩
  | append_singleton calls path ih => exact ofPaths_concat calls path ▸ bind_follows path ih

theorem call_extends (call : AliasCall t path label next) :
    t.entries <+: next.entries ∧ (path, label) ∈ next.entries := by
  cases call with
  | known entry => exact ⟨List.prefix_refl _, entry⟩
  | fresh => exact ⟨List.prefix_append _ _, by simp⟩

theorem calls_extend (calls : List Path) (t : AliasTable) :
    t.entries <+: (calls.foldl (fun t path => (t.bind path).2) t).entries := by
  induction calls generalizing t with
  | nil => exact List.prefix_refl _
  | cons path rest ih => exact (call_extends (bind_call t path)).1.trans (ih _)

theorem name_known (valid : AliasTable.Valid t) (entry : (path, label) ∈ t.entries) :
    t.name path = label := by
  cases found : t.alias? path with
  | none => exact absurd (List.mem_map_of_mem entry) (alias_unknown found)
  | some other =>
    cases List.inj_on_of_nodup_map valid.paths (alias_known found) entry rfl
    rw [AliasTable.name, found, Option.getD_some]

theorem calls_answered (calls : List Path) (t : AliasTable)
    (valid : (calls.foldl (fun t path => (t.bind path).2) t).Valid) :
    t.answers calls = calls.map (calls.foldl (fun t path => (t.bind path).2) t).name := by
  induction calls generalizing t with
  | nil => rfl
  | cons path rest ih =>
    have kept := (calls_extend rest (t.bind path).2).subset (call_extends (bind_call t path)).2
    have here := name_known (by exact valid) kept
    rw [AliasTable.answers, ih _ valid, List.map_cons]
    exact congrArg (· :: _) here.symm

-- Every call ends with the one outcome that it can have, and an alias that has been given stays with
-- its path, in its place.
theorem calls_settled (calls : List Path) :
    (ofPaths calls).Follows calls ∧
      AliasTable.empty.answers calls = calls.map (ofPaths calls).name ∧
      (∀ one ∈ calls, ∀ two ∈ calls,
        (ofPaths calls).name one = (ofPaths calls).name two ↔ one = two) ∧
      ∀ before path after, calls = before ++ path :: after →
        (∀ label next, AliasCall (ofPaths before) path label next ↔
          (ofPaths before).bind path = (label, next)) ∧
        (ofPaths before).entries <+: (ofPaths calls).entries := by
  have follows := ofPaths_follows calls
  have listed : ∀ path ∈ calls, (path, (ofPaths calls).name path) ∈ (ofPaths calls).entries := by
    intro path member
    rw [← List.mem_eraseDups, ← follows.order] at member
    obtain ⟨⟨_, label⟩, entry, rfl⟩ := List.mem_map.mp member
    exact (name_known follows.valid entry).symm ▸ entry
  refine ⟨follows, calls_answered calls .empty follows.valid, ?_, ?_⟩
  · intro one first two second
    constructor
    · intro same
      have entry := listed one first
      rw [same] at entry
      exact congrArg Prod.fst (List.inj_on_of_nodup_map follows.valid.labels entry (listed two second) rfl)
    · exact congrArg _
  · intro before path after split
    refine ⟨fun label next => call_iff (ofPaths_follows before).valid, ?_⟩
    rw [split, ofPaths, ofPaths, List.foldl_append]
    exact calls_extend (path :: after) _

-- A reference that is named like a numbered alias, and paths that come again.
example :
    let staff := Path.root "staff"
    let boss := staff.extend "staff" "manager" "staff"
    let next := boss.extend "staff" "manager" "staff"
    let odd := staff.extend "staff" "manager_1" "staff"
    AliasTable.empty.answers [staff, boss, next, odd, boss, next] =
      ["staff", "manager", "manager_1", "manager_1_2", "manager", "manager_1"] := by
  decide +kernel

end SemanticLayer
