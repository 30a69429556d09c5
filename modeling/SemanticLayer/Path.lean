import SemanticLayer.Expr.Build

namespace SemanticLayer

-- Two paths are the same when references of the same names lead along them to the same domains: what
-- a reference of that name was defined to be does not count.
inductive Path where
  | root (domain : String)
  | step (depth : Nat) (owner reference target : String) (parent : Path)
  deriving DecidableEq, Repr

namespace Path

def domain : Path → String
  | .root domain => domain
  | .step _ _ _ target _ => target

def parent? : Path → Option Path
  | .root _ => none
  | .step _ _ _ _ parent => some parent

def depth : Path → Nat
  | .root _ => 0
  | .step depth _ _ _ _ => depth

def extend (parent : Path) (owner reference target : String) : Path :=
  .step (parent.depth + 1) owner reference target parent

def baseAlias : Path → String
  | .root domain => domain
  | .step _ _ reference _ _ => reference

end Path

structure Landing where
  path : Path
  table : String
  deriving DecidableEq, Repr

namespace Landing

def start (domain table : String) : Landing := ⟨.root domain, table⟩

def follow (l : Landing) (member : Attribute) : Except Error Landing :=
  match member.definition with
  | .reference target table _ => .ok ⟨l.path.extend member.domain member.name target, table⟩
  | .value _ => .error (.notAReference member.domain member.name)

end Landing

end SemanticLayer
