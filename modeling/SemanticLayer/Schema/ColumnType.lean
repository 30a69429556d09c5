import SemanticLayer.ScalarType
import SemanticLayer.Text.Blank

namespace SemanticLayer

-- A declaration of no known family is kept as it is.
inductive ColumnType where
  | char
  | varchar
  | longVarchar
  | text
  | smallInt
  | integer
  | bigInt
  | decimal
  | numeric
  | real
  | float
  | double
  | boolean
  | date
  | timestamp
  | dateTime
  | other (declared : String)
  deriving DecidableEq, Repr

namespace ColumnType

def families : List ColumnType :=
  [.char, .varchar, .longVarchar, .text, .smallInt, .integer, .bigInt, .decimal, .numeric, .real,
    .float, .double, .boolean, .date, .timestamp, .dateTime]

def spellings : ColumnType → List String
  | .char => ["CHAR", "CHARACTER", "NCHAR"]
  | .varchar => ["VARCHAR", "NVARCHAR", "VARCHAR2"]
  | .longVarchar => ["LONGVARCHAR", "CLOB"]
  | .text => ["TEXT"]
  | .smallInt => ["SMALLINT", "TINYINT"]
  | .integer => ["INT", "INTEGER", "MEDIUMINT"]
  | .bigInt => ["BIGINT"]
  | .decimal => ["DECIMAL"]
  | .numeric => ["NUMERIC"]
  | .real => ["REAL"]
  | .float => ["FLOAT"]
  | .double => ["DOUBLE"]
  | .boolean => ["BOOLEAN", "BOOL"]
  | .date => ["DATE"]
  | .timestamp => ["TIMESTAMP"]
  | .dateTime => ["DATETIME"]
  | .other _ => []

private def declaredWord (declaration : List Char) : String :=
  String.ofList ((declaration.takeWhile fun c => c ≠ '(' && !Text.isBlank c).map Char.toUpper)

def ofDeclaration (text : String) : ColumnType :=
  let declaration := Text.trimBlanks text.toList
  match families.find? (·.spellings.contains (declaredWord declaration)) with
  | some family => family
  | none => .other (String.ofList declaration)

def scalar : ColumnType → ScalarType
  | .char | .varchar | .longVarchar | .text => .string
  | .smallInt | .integer | .bigInt => .integer
  | .decimal | .numeric | .real | .float | .double => .decimal
  | .boolean => .boolean
  | .date => .date
  | .timestamp | .dateTime => .timestamp
  | .other _ => .string

def label : ColumnType → String
  | .char => "Char"
  | .varchar => "Varchar"
  | .longVarchar => "LongVarchar"
  | .text => "Text"
  | .smallInt => "SmallInt"
  | .integer => "Integer"
  | .bigInt => "BigInt"
  | .decimal => "Decimal"
  | .numeric => "Numeric"
  | .real => "Real"
  | .float => "Float"
  | .double => "Double"
  | .boolean => "Boolean"
  | .date => "Date"
  | .timestamp => "Timestamp"
  | .dateTime => "DateTime"
  | .other declared => declared

end ColumnType

end SemanticLayer
