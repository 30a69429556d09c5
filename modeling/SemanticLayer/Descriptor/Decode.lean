import SemanticLayer.Descriptor.Basic

namespace SemanticLayer

-- The shapes of JSON in which a descriptor may come. A record is an object, or an array of its
-- fields in order; an expression says its kind in the field "type", or as the first item.

namespace ExprDescriptor

inductive Kind where
  | path
  | literal
  | binary
  | aggregate
  deriving DecidableEq, Repr

namespace Kind

def ofName? : String → Option Kind
  | "attribute" => some .path
  | "literal" => some .literal
  | "binary" => some .binary
  | "aggregate" => some .aggregate
  | _ => none

def decode? : Json → Option Kind
  | .string name => ofName? name
  | .integer 0 => some .path
  | .integer 1 => some .literal
  | .integer 2 => some .binary
  | .integer 3 => some .aggregate
  | _ => none

def fields : Kind → List String
  | .path => ["path"]
  | .literal => ["value"]
  | .binary => ["operator", "left", "right"]
  | .aggregate => ["function", "operand"]

end Kind

-- A name from a fixed list: a string, or an object with the name as its only key and nothing in it.
def nameOf? : Json → Option String
  | .string name => some name
  | .object [(name, .null)] => some name
  | .object [(name, .object [])] => some name
  | _ => none

def untag? : Json → Option (Json × Json)
  | .object members =>
      match members.filter (·.1 == "type") with
      | [(_, kind)] => some (kind, .object (members.filter (·.1 != "type")))
      | _ => none
  | .array (kind :: items) => some (kind, .array items)
  | _ => none

private def ofRecord? : Nat → Kind → Json → Option ExprDescriptor
  | 0, _, _ => none
  | fuel + 1, kind, record => do
      let operand (json : Json) : Option ExprDescriptor := do
        let (kind, record) ← untag? json
        ofRecord? fuel (← Kind.decode? kind) record
      match kind, ← record.fields? kind.fields with
      | .path, [some text] => return .path (← text.string?)
      | .literal, [some value] => return .literal value
      | .binary, [some operator, some left, some right] =>
          let operator ← (← nameOf? operator) |> Operator.ofName?
          return .binary operator (← operand left) (← operand right)
      | .aggregate, [some function, none] =>
          return .aggregateAll (← (← nameOf? function) |> AggregateFunction.ofName?)
      | .aggregate, [some function, some json] =>
          let function ← (← nameOf? function) |> AggregateFunction.ofName?
          if json.isNull then return .aggregateAll function
          return .aggregate function (← operand json)
      | _, _ => none

end ExprDescriptor

mutual

def Json.height : Json → Nat
  | .array items => Json.itemsHeight items + 1
  | .object members => Json.membersHeight members + 1
  | _ => 0

def Json.itemsHeight : List Json → Nat
  | [] => 0
  | item :: items => max item.height (Json.itemsHeight items)

def Json.membersHeight : List (String × Json) → Nat
  | [] => 0
  | (_, value) :: members => max value.height (Json.membersHeight members)

end

namespace ExprDescriptor

def decodeFields? (kind : Kind) (record : Json) : Option ExprDescriptor :=
  ofRecord? (record.height + 1) kind record

def decode? (json : Json) : Option ExprDescriptor := do
  let (kind, record) ← untag? json
  decodeFields? (← Kind.ofName? (← kind.string?)) record

end ExprDescriptor

def ProjectionDescriptor.decode? (json : Json) : Option ProjectionDescriptor := do
  match ← json.fields? ["alias", "expression"] with
  | [some label, some expr] => return ⟨← label.string?, ← ExprDescriptor.decode? expr⟩
  | _ => none

def Descriptor.decode? (json : Json) : Option Descriptor := do
  match ← json.fields? ["name", "from", "select", "where"] with
  | [some name, some source, projections, filter] =>
      let projections ← match projections with
        | none => some []
        | some json => (← json.array?).mapM ProjectionDescriptor.decode?
      let filter ← match filter with
        | none => some none
        | some json => if json.isNull then some none else some <$> ExprDescriptor.decode? json
      return ⟨← name.string?, ← source.string?, projections, filter⟩
  | _ => none

end SemanticLayer
