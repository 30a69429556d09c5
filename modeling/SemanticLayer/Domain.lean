import SemanticLayer.Expr.Build
import SemanticLayer.Sorted

namespace SemanticLayer

-- The attributes are in the order of their names; a name defined again replaces what it stood for.
structure Domain where
  name : String
  table : String
  attributes : List Attribute

namespace Domain

def new (name : String) : Domain := ⟨name, name, []⟩

def insert (d : Domain) (member : Attribute) : Domain :=
  { d with attributes := Sorted.insert Attribute.name member d.attributes }

def attribute? (d : Domain) (name : String) : Option Attribute :=
  Sorted.find? Attribute.name name d.attributes

def has (d : Domain) (name : String) : Bool := (d.attribute? name).isSome

def lookup (d : Domain) (name : String) : Except Error Attribute :=
  match d.attribute? name with
  | some member => .ok member
  | none => .error (.unknownAttribute d.name name)

abbrev Addition := Attribute × Domain

def added (d : Domain) (member : Attribute) : Addition := (member, d.insert member)

def addMapped (d : Domain) (name column : String) (type : ScalarType) : Addition :=
  d.added (.mapped d.name name column (.scalar type))

def addCalculated (d : Domain) (name : String) (expr : Expr) : Except Error Addition := do
  pure (d.added (← Attribute.calculated d.name name expr))

def addReferenceOn (d : Domain) (name target table : String) (condition : Expr) :
    Except Error Addition := do
  pure (d.added (← Attribute.reference d.name name target table condition))

-- When the target is the domain itself, the two sides of the condition are marked so that they stay
-- apart.
def link (d : Domain) (name column target table : String) (key : Attribute) :
    Except Error Addition := do
  let member ← d.lookup column
  let (near, far) : Side × Side := if target = d.name then (.left, .right) else (.matching, .matching)
  let condition ← Expr.operation .equals (.access member near) (.access key far)
  d.addReferenceOn name target table condition

-- A target that has the name of the domain is the domain, and its attributes are looked up there.
def addReference (d : Domain) (name column : String) (target : Domain) (key : String) :
    Except Error Addition := do
  let member ← if target.name = d.name then d.lookup key else target.lookup key
  d.link name column target.name target.table member

def addSelfReference (d : Domain) (name column key : String) : Except Error Addition := do
  let member ← d.lookup key
  d.link name column d.name d.table member

private def describeAttribute (member : Attribute) : Json :=
  let head := [("name", .string member.name), ("type", .string member.type.text)]
  match member.definition with
  | .value (.column _ column _) => .object (head ++ [("column", .string column)])
  | .value _ => .object (head ++ [("calculated", .bool true)])
  | .reference target _ _ => .object (head ++ [("target", .string target)])

def toJson (d : Domain) : Json :=
  .object [("name", .string d.name), ("table", .string d.table),
    ("attributes", .array (d.attributes.map describeAttribute))]

end Domain

end SemanticLayer
