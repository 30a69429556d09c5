namespace SemanticLayer

inductive Operator where
  | equals
  | notEquals
  | greaterThan
  | greaterThanOrEquals
  | lessThan
  | lessThanOrEquals
  | like
  | isIn
  | and
  | or
  | plus
  | minus
  | multiply
  | divide
  deriving DecidableEq, Repr

namespace Operator

def all : List Operator :=
  [.equals, .notEquals, .greaterThan, .greaterThanOrEquals, .lessThan, .lessThanOrEquals, .like,
    .isIn, .and, .or, .plus, .minus, .multiply, .divide]

def name : Operator → String
  | .equals => "EQUALS"
  | .notEquals => "NOT_EQUALS"
  | .greaterThan => "GREATER_THAN"
  | .greaterThanOrEquals => "GREATER_THAN_OR_EQUALS"
  | .lessThan => "LESS_THAN"
  | .lessThanOrEquals => "LESS_THAN_OR_EQUALS"
  | .like => "LIKE"
  | .isIn => "IN"
  | .and => "AND"
  | .or => "OR"
  | .plus => "PLUS"
  | .minus => "MINUS"
  | .multiply => "MULTIPLY"
  | .divide => "DIVIDE"

def ofName? (text : String) : Option Operator := all.find? (·.name == text)

def symbol : Operator → String
  | .equals => "="
  | .notEquals => "<>"
  | .greaterThan => ">"
  | .greaterThanOrEquals => ">="
  | .lessThan => "<"
  | .lessThanOrEquals => "<="
  | .like => "LIKE"
  | .isIn => "IN"
  | .and => "AND"
  | .or => "OR"
  | .plus => "+"
  | .minus => "-"
  | .multiply => "*"
  | .divide => "/"

def isArithmetic : Operator → Bool
  | .plus | .minus | .multiply | .divide => true
  | _ => false

end Operator

inductive AggregateFunction where
  | count
  | sum
  | avg
  | min
  | max
  deriving DecidableEq, Repr

namespace AggregateFunction

def all : List AggregateFunction := [.count, .sum, .avg, .min, .max]

def name : AggregateFunction → String
  | .count => "COUNT"
  | .sum => "SUM"
  | .avg => "AVG"
  | .min => "MIN"
  | .max => "MAX"

def ofName? (text : String) : Option AggregateFunction := all.find? (·.name == text)

end AggregateFunction

end SemanticLayer
