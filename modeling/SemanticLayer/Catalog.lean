import SemanticLayer.Declaration
import SemanticLayer.Json.Reader
import SemanticLayer.Schema.Basic
import SemanticLayer.Sorted

namespace SemanticLayer

-- What a database tells of its tables. Names that stand for tables and columns match whatever the
-- case of the letters A to Z.

structure DeclaredKey where
  columns : List String
  target : String
  -- Without target columns the key points to the primary key of the target.
  targetColumns : Option (List String)
  deriving DecidableEq, Repr

structure DeclaredTable where
  name : String
  -- Names and types of the columns that the database lists. Generated columns are not among them,
  -- though a key may name one.
  columns : List (String × String)
  primaryKey : List String
  keys : List DeclaredKey
  deriving DecidableEq, Repr

structure Catalog where
  tables : List DeclaredTable
  deriving DecidableEq, Repr

private def sameName (left right : String) : Bool := left.toLower == right.toLower

def DeclaredTable.spelling (t : DeclaredTable) (column : String) : String :=
  match t.columns.find? fun c => sameName c.1 column with
  | some (name, _) => name
  | none => column

-- The keys of a table are numbered from the last one on.
structure KeyRow where
  key : Int
  position : Int
  target : String
  source : String
  column : Option String
  deriving DecidableEq, Repr

def DeclaredTable.keyRows (t : DeclaredTable) (number : Nat) (key : DeclaredKey) : List KeyRow :=
  key.columns.mapIdx fun position column =>
    ⟨number, position, key.target, t.spelling column, key.targetColumns.bind (·[position]?)⟩

def DeclaredTable.rows (t : DeclaredTable) : List KeyRow := (t.keys.reverse.mapIdx t.keyRows).flatten

-- A key is only looked through for as many names as the table has columns. Those that come later
-- follow in the order of the table.
def DeclaredTable.keyColumns (t : DeclaredTable) : List String :=
  let named := t.primaryKey.map t.spelling
  let found := (named.take t.columns.length).eraseDups
  found ++ (t.columns.map (·.1)).filter fun c => named.contains c && !found.contains c

-- A key that lacks a target column is none, and stays so whatever its other rows say. The keys stand
-- with the latest one first.
structure KeyTally where
  keys : List (Int × Option ForeignKey)
  known : List (String × List String)

namespace KeyTally

def start : KeyTally := ⟨[], []⟩

def primaryKey (ask : String → List String) (t : KeyTally) (table : String) :
    List String × KeyTally :=
  match t.known.lookup table with
  | some columns => (columns, t)
  | none =>
      let columns := ask table
      (columns, { t with known := (table, columns) :: t.known })

def target (ask : String → List String) (t : KeyTally) (row : KeyRow) : Option String × KeyTally :=
  match row.column with
  | some column => (some column, t)
  | none =>
      let (columns, t) := t.primaryKey ask row.target
      (row.position.toNat?.bind (columns[·]?), t)

def opened (table : String) (row : KeyRow) (column : Option String) : Option ForeignKey :=
  column.map fun column => ⟨table, row.target, [(row.source, column)]⟩

def extended (key : Option ForeignKey) (row : KeyRow) (column : Option String) :
    Option ForeignKey := do
  let key ← key
  let column ← column
  return { key with pairs := key.pairs ++ [(row.source, column)] }

def put (table : String) (row : KeyRow) (column : Option String) :
    List (Int × Option ForeignKey) → List (Int × Option ForeignKey)
  | [] => [(row.key, opened table row column)]
  | (number, key) :: rest =>
      if number = row.key then (number, extended key row column) :: rest
      else (row.key, opened table row column) :: (number, key) :: rest

def step (table : String) (ask : String → List String) (t : KeyTally) (row : KeyRow) : KeyTally :=
  let (column, t) := t.target ask row
  { t with keys := put table row column t.keys }

end KeyTally

namespace Catalog

def table? (c : Catalog) (name : String) : Option DeclaredTable :=
  c.tables.find? fun t => sameName t.name name

def primaryKey (c : Catalog) (table : String) : List String :=
  ((c.table? table).map DeclaredTable.keyColumns).getD []

def foreignKeys (table : String) (ask : String → List String) (rows : List KeyRow) :
    List ForeignKey :=
  (rows.foldl (KeyTally.step table ask) .start).keys.reverse.filterMap (·.2)

-- The underscore of the pattern stands for any character, so that any name that goes on after
-- "sqlite" is taken for one of the database itself.
def isReserved (name : String) : Bool :=
  let letters := name.toLower.toList
  letters.take 6 == ['s', 'q', 'l', 'i', 't', 'e'] && letters.length > 6

private def schemaTable (t : DeclaredTable) : Table :=
  ⟨none, t.name, t.columns.map fun c => ⟨c.1, .ofDeclaration c.2⟩⟩

def introspect (c : Catalog) : Schema :=
  let tables := Sorted.ofList DeclaredTable.name (c.tables.filter (!isReserved ·.name))
  ⟨tables.map schemaTable, tables.flatMap fun t => foreignKeys t.name c.primaryKey t.rows⟩

end Catalog

private def texts? (json : Json) : Option (List String) := do (← json.array?).mapM Json.string?

private def given? (key : String) (json : Json) : Option Json :=
  match json.member? key with
  | some .null => none
  | value => value

private def DeclaredKey.decode? (json : Json) : Option DeclaredKey := do
  let columns ← texts? (← json.member? "cols")
  let target ← (← json.member? "table").string?
  let targetColumns ← match given? "to" json with
    | some columns => some <$> texts? columns
    | none => some none
  return ⟨columns, target, targetColumns⟩

-- A generated column may be part of a key, but is not listed.
def DeclaredTable.declare (name : String) (columns : List (String × Declaration))
    (primaryKey : List String) (keys : List DeclaredKey) : DeclaredTable :=
  let marked := (columns.filter (·.2.isPrimaryKey)).map (·.1)
  let pointing := columns.flatMap fun (column, d) => d.targets.map fun (table, target) =>
    (⟨[column], table, target.map ([·])⟩ : DeclaredKey)
  let whole : DeclaredTable :=
    ⟨name, columns.map fun (column, d) => (column, d.type), marked ++ primaryKey, pointing ++ keys⟩
  { whole with
    columns := (columns.filter (!·.2.isComputed)).map fun (column, d) => (column, d.type)
    keys := whole.keys.map fun key => { key with columns := key.columns.map whole.spelling } }

private def DeclaredTable.decode? (json : Json) : Option DeclaredTable := do
  let name ← (← json.member? "name").string?
  let columns ← (← (← json.member? "columns").array?).mapM fun
    | .array [.string name, .string text] => some (name, Declaration.ofText text)
    | _ => none
  let primaryKey ← texts? ((given? "pk" json).getD (.array []))
  let keys ← (← ((given? "fks" json).getD (.array [])).array?).mapM DeclaredKey.decode?
  return .declare name columns primaryKey keys

-- Views may be listed, but they are no tables.
def Catalog.decode? (json : Json) : Option Catalog := do
  return ⟨← (← (← json.member? "tables").array?).mapM DeclaredTable.decode?⟩

namespace Catalog

def empty : Catalog := ⟨[]⟩

def isVoid (text : String) : Bool := text.utf8ByteSize ≤ 1

def ofText? (text : String) : Option Catalog :=
  if isVoid text then some empty
  else
    match Json.parse 128 text with
    | .ok json => decode? json
    | .error _ => none

end Catalog

end SemanticLayer
