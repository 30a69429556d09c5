namespace SemanticLayer

inductive ScalarType where
  | string
  | integer
  | decimal
  | boolean
  | date
  | timestamp
  deriving DecidableEq, Repr

namespace ScalarType

def all : List ScalarType := [.string, .integer, .decimal, .boolean, .date, .timestamp]

def name : ScalarType → String
  | .string => "STRING"
  | .integer => "INTEGER"
  | .decimal => "DECIMAL"
  | .boolean => "BOOLEAN"
  | .date => "DATE"
  | .timestamp => "TIMESTAMP"

def ofName? (text : String) : Option ScalarType := all.find? (·.name == text)

def widen (left right : ScalarType) : ScalarType :=
  if left = .decimal ∨ right = .decimal then .decimal else .integer

end ScalarType

end SemanticLayer
