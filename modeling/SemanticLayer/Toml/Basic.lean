import SemanticLayer.Number.Binary64

namespace SemanticLayer

inductive Toml.Origin where
  | header
  | passed
  | dotted
  | braces
  deriving DecidableEq, Repr

-- A value of a TOML 1.1 document.
inductive Toml where
  | string (value : String)
  | integer (value : Int)
  | decimal (value : Binary64)
  | boolean (value : Bool)
  | moment (text : String)
  | array (items : List Toml)
  | table (origin : Toml.Origin) (members : List (String × Toml))
  | tables (rows : List (List (String × Toml)))

namespace Toml

abbrev Members := List (String × Toml)

def Members.named? (members : Members) (key : String) : Option Toml :=
  (members.find? (·.1 == key)).map (·.2)

def Members.replaced (members : Members) (key : String) (value : Toml) : Members :=
  members.map fun member => if member.1 == key then (key, value) else member

-- Keys with dots do not reach into a table that has a header, and of tables under one name the last
-- is meant.
def alter (dotted : Bool) (change : Origin → Members → Option Members) :
    List String → Origin → Members → Option Members
  | [], origin, members => change origin members
  | key :: path, _, members =>
      match Members.named? members key with
      | none => do
          let origin := if dotted then Origin.dotted else Origin.passed
          let inner ← alter dotted change path origin []
          return members ++ [(key, .table origin inner)]
      | some (.table origin inner) =>
          if origin = .braces ∨ (dotted ∧ origin = .header) then none
          else do
            let inner ← alter dotted change path origin inner
            return Members.replaced members key (.table origin inner)
      | some (.tables rows) => do
          let row ← rows.getLast?
          let row ← alter dotted change path .header row
          return Members.replaced members key (.tables (rows.dropLast ++ [row]))
      | some _ => none

-- With dots before it a name goes only into a table that is made of such keys alone.
def assign (path : List String) (key : String) (value : Toml) : Origin → Members → Option Members :=
  alter true (fun origin members =>
    if (origin = .dotted) = path.isEmpty ∨ (Members.named? members key).isSome then none
    else some (members ++ [(key, value)])) path

def openTable (path : List String) (key : String) (root : Members) : Option Members :=
  alter false (fun _ members =>
    match Members.named? members key with
    | none => some (members ++ [(key, .table .header [])])
    | some (.table .passed inner) => some (Members.replaced members key (.table .header inner))
    | some _ => none) path .header root

def openRow (path : List String) (key : String) (root : Members) : Option Members :=
  alter false (fun _ members =>
    match Members.named? members key with
    | none => some (members ++ [(key, .tables [[]])])
    | some (.tables rows) => some (Members.replaced members key (.tables (rows ++ [[]])))
    | some _ => none) path .header root

inductive Line where
  | table (path : List String) (key : String)
  | row (path : List String) (key : String)
  | pair (path : List String) (key : String) (value : Toml)

structure Document where
  root : Members
  current : List String

def Document.add (d : Document) : Line → Option Document
  | .table path key => do return ⟨← openTable path key d.root, path ++ [key]⟩
  | .row path key => do return ⟨← openRow path key d.root, path ++ [key]⟩
  | .pair path key value => do
      return { d with root := ← alter false (assign path key value) d.current .header d.root }

def ofLines? (lines : List Line) : Option Toml := do
  let d ← lines.foldlM Document.add ⟨[], []⟩
  return .table .header d.root

-- A record is a table, of which other names are ignored, or an array of its fields in order. A date
-- is a record without any of them.
def fields? (names : List String) : Toml → Option (List (Option Toml))
  | .table _ members => some (names.map (Members.named? members))
  | .array items => some (names.mapIdx fun i _ => items[i]?)
  | .tables rows => some (names.mapIdx fun i _ => (rows[i]?).map (.table .header))
  | .moment _ => some (names.map fun _ => none)
  | _ => none

end Toml

end SemanticLayer
