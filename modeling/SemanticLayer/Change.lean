import SemanticLayer.Json.Basic

namespace SemanticLayer

-- A relation belongs to its left end.
inductive Change where
  | addDomain (domain table : String)
  | addAttribute (domain name : String)
  | addReference (domain reference target : String)
  | addRelation (left right : String)
  deriving DecidableEq, Repr

namespace Change

def domain : Change → String
  | .addDomain domain _ => domain
  | .addAttribute domain _ => domain
  | .addReference domain _ _ => domain
  | .addRelation left _ => left

def forDomain (domain : String) (changes : List Change) : List Change :=
  changes.filter (·.domain == domain)

private def tagged (kind : String) (members : List (String × String)) : Json :=
  .object (("change", .string kind) :: members.map fun member => (member.1, .string member.2))

def toJson : Change → Json
  | .addDomain domain table => tagged "add_domain" [("domain", domain), ("table", table)]
  | .addAttribute domain name =>
      tagged "add_attribute" [("domain", domain), ("attribute", name)]
  | .addReference domain reference target =>
      tagged "add_reference" [("domain", domain), ("reference", reference), ("target", target)]
  | .addRelation left right => tagged "add_relation" [("left", left), ("right", right)]

end Change

end SemanticLayer
