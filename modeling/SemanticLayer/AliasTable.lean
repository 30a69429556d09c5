import SemanticLayer.Path

namespace SemanticLayer

-- The counter numbers the aliases that had to give way.
structure AliasTable where
  entries : List (Path × String)
  counter : Nat
  deriving DecidableEq, Repr

namespace AliasTable

def empty : AliasTable := ⟨[], 0⟩

def alias? (t : AliasTable) (path : Path) : Option String :=
  (t.entries.find? (·.1 == path)).map (·.2)

def taken (t : AliasTable) : List String := t.entries.map (·.2)

def suffixed (base : String) (n : Nat) : String := base ++ "_" ++ toString n

-- No two candidates are equal, so a taken one need not be looked at again; that is why the search
-- ends.
def firstFree (base : String) (taken : List String) (counter : Nat) : String × Nat :=
  let candidate := suffixed base (counter + 1)
  if _present : candidate ∈ taken then firstFree base (taken.erase candidate) (counter + 1)
  else (candidate, counter + 1)
termination_by taken.length
decreasing_by
  have present : suffixed base (counter + 1) ∈ taken := _present
  have erased := List.length_erase_of_mem present
  have positive := List.length_pos_of_mem present
  omega

def bind (t : AliasTable) (path : Path) : String × AliasTable :=
  match t.alias? path with
  | some label => (label, t)
  | none =>
      if path.baseAlias ∈ t.taken then
        let (label, counter) := firstFree path.baseAlias t.taken t.counter
        (label, ⟨t.entries ++ [(path, label)], counter⟩)
      else (path.baseAlias, { t with entries := t.entries ++ [(path, path.baseAlias)] })

def ofPaths (paths : List Path) : AliasTable := paths.foldl (fun t path => (t.bind path).2) empty

end AliasTable

end SemanticLayer
