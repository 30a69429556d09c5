import SemanticLayer.ExprType

namespace SemanticLayer

-- A constant reads no domain; that is the absence of a source.
inductive Source where
  | domain (name : String)
  | cross (left right : String)
  deriving DecidableEq, Repr

namespace Source

def text : Source → String
  | .domain name => domainMark name
  | .cross left right => domainMark left ++ " x " ++ domainMark right

def Pairs (left right a b : String) : Prop := (left = a ∧ right = b) ∨ (left = b ∧ right = a)

instance (left right a b : String) : Decidable (Pairs left right a b) :=
  inferInstanceAs (Decidable ((left = a ∧ right = b) ∨ (left = b ∧ right = a)))

end Source

end SemanticLayer
