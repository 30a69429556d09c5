import SemanticLayer.Domain

namespace SemanticLayer

structure Relation where
  left : String
  right : String
  condition : Expr

namespace Relation

def between (left right : String) (condition : Expr) : Except Error Relation := do
  checkJoin left right condition
  pure ⟨left, right, condition⟩

def involves (r : Relation) (domain : String) : Bool := r.left == domain || r.right == domain

end Relation

-- The domains stand in the order of their names, the relations in the order in which they were added.
structure Model where
  domains : List Domain
  relations : List Relation

namespace Model

def empty : Model := ⟨[], []⟩

def register (m : Model) (d : Domain) : Model :=
  { m with domains := Sorted.insert Domain.name d m.domains }

def domain? (m : Model) (name : String) : Option Domain :=
  Sorted.find? Domain.name name m.domains

def lookup (m : Model) (name : String) : Except Error Domain :=
  match m.domain? name with
  | some d => .ok d
  | none => .error (.unknownDomain name)

def has (m : Model) (name : String) : Bool := (m.domain? name).isSome

def extend (m : Model) (name : String) (add : Domain → Except Error Domain.Addition) :
    Except Error (Attribute × Model) := do
  let (member, d) ← add (← m.lookup name)
  pure (member, m.register d)

-- The target and its key are looked up before the domain that gets the reference.
def addReference (m : Model) (domain name column target key : String) :
    Except Error (Attribute × Model) := do
  let aim ← m.lookup target
  let member ← aim.lookup key
  m.extend domain (·.link name column aim.name aim.table member)

def addRelation (m : Model) (r : Relation) : Except Error Model := do
  let _ ← m.lookup r.left
  let _ ← m.lookup r.right
  pure { m with relations := m.relations ++ [r] }

def relationsOf (m : Model) (domain : String) : List Relation :=
  m.relations.filter (·.involves domain)

private def describeRelation (r : Relation) : Json :=
  .object [("left", .string r.left), ("right", .string r.right)]

def toJson (m : Model) : Json :=
  .object [("domains", .array (m.domains.map Domain.toJson)),
    ("relations", .array (m.relations.map describeRelation))]

end Model

end SemanticLayer
