namespace SemanticLayer.Sorted

-- A list kept in the order of its keys, with one entry for each key.

def insert {α : Type} (key : α → String) (x : α) : List α → List α
  | [] => [x]
  | y :: ys =>
      if key x < key y then x :: y :: ys
      else if key x = key y then x :: ys
      else y :: insert key x ys

def find? {α : Type} (key : α → String) (name : String) (l : List α) : Option α :=
  l.find? (key · == name)

-- Of entries with one key the last stays.
def ofList {α : Type} (key : α → String) (l : List α) : List α :=
  l.foldl (fun sorted x => insert key x sorted) []

end SemanticLayer.Sorted
