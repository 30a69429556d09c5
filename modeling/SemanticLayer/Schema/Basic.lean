import SemanticLayer.Schema.ColumnType

namespace SemanticLayer

structure Column where
  name : String
  type : ColumnType
  deriving DecidableEq, Repr

structure Table where
  schema : Option String
  name : String
  columns : List Column
  deriving DecidableEq, Repr

structure ForeignKey where
  source : String
  target : String
  pairs : List (String × String)
  deriving DecidableEq, Repr

structure Schema where
  tables : List Table
  foreignKeys : List ForeignKey
  deriving DecidableEq, Repr

def Table.column? (t : Table) (name : String) : Option Column := t.columns.find? (·.name == name)

def ForeignKey.isReflexive (key : ForeignKey) : Bool := key.source == key.target

def Schema.table? (s : Schema) (name : String) : Option Table := s.tables.find? (·.name == name)

end SemanticLayer
