import SemanticLayer.Json.Basic
import SemanticLayer.Schema.Basic

namespace SemanticLayer

-- Schemas as JSON, in both directions. A record may also be given as an array of its fields.

namespace ColumnType

def code : ColumnType → String
  | .char => "char"
  | .varchar => "varchar"
  | .longVarchar => "long_varchar"
  | .text => "text"
  | .smallInt => "small_int"
  | .integer => "integer"
  | .bigInt => "big_int"
  | .decimal => "decimal"
  | .numeric => "numeric"
  | .real => "real"
  | .float => "float"
  | .double => "double"
  | .boolean => "boolean"
  | .date => "date"
  | .timestamp => "timestamp"
  | .dateTime => "date_time"
  | .other _ => "other"

def toJson : ColumnType → Json
  | .other declared => .object [("other", .string declared)]
  | family => .string family.code

def ofCode? (code : String) : Option ColumnType := families.find? (·.code == code)

def decode? : Json → Option ColumnType
  | .string code => ofCode? code
  | .object [("other", .string declared)] => some (.other declared)
  | .object [(code, .null)] => ofCode? code
  | _ => none

end ColumnType

def Column.toJson (c : Column) : Json :=
  .object [("name", .string c.name), ("sql_type", c.type.toJson)]

def Column.decode? (json : Json) : Option Column := do
  match ← json.fields? ["name", "sql_type"] with
  | [some name, some type] => return ⟨← name.string?, ← ColumnType.decode? type⟩
  | _ => none

private def optionalText : Option Json → Option (Option String)
  | none => some none
  | some .null => some none
  | some json => some <$> json.string?

def Table.toJson (t : Table) : Json :=
  let schema : Json := match t.schema with
    | some schema => .string schema
    | none => .null
  .object [("schema", schema), ("name", .string t.name),
    ("columns", .array (t.columns.map Column.toJson))]

def Table.decode? (json : Json) : Option Table := do
  match ← json.fields? ["schema", "name", "columns"] with
  | [schema, some name, some columns] =>
      return ⟨← optionalText schema, ← name.string?, ← (← columns.array?).mapM Column.decode?⟩
  | _ => none

private def decodePair? : Json → Option (String × String)
  | .array [.string source, .string target] => some (source, target)
  | _ => none

def ForeignKey.toJson (key : ForeignKey) : Json :=
  .object [("source_table", .string key.source), ("target_table", .string key.target),
    ("column_pairs", .array (key.pairs.map fun pair => .array [.string pair.1, .string pair.2]))]

def ForeignKey.decode? (json : Json) : Option ForeignKey := do
  match ← json.fields? ["source_table", "target_table", "column_pairs"] with
  | [some source, some target, some pairs] =>
      return ⟨← source.string?, ← target.string?, ← (← pairs.array?).mapM decodePair?⟩
  | _ => none

def Schema.toJson (s : Schema) : Json :=
  .object [("tables", .array (s.tables.map Table.toJson)),
    ("foreign_keys", .array (s.foreignKeys.map ForeignKey.toJson))]

def Schema.decode? (json : Json) : Option Schema := do
  match ← json.fields? ["tables", "foreign_keys"] with
  | [some tables, some keys] =>
      return ⟨← (← tables.array?).mapM Table.decode?, ← (← keys.array?).mapM ForeignKey.decode?⟩
  | _ => none

end SemanticLayer
