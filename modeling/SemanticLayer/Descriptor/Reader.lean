import SemanticLayer.Descriptor.Decode
import SemanticLayer.Json.Reader

namespace SemanticLayer

-- A value of the wrong shape counts before a fault further on.

open Json (Reader Fault)
open Json.Reader

private def settled {α : Type} : Option α → Reader α
  | some a => pure a
  | none => throw .shape

private def readKind : Reader ExprDescriptor.Kind := do
  settled (ExprDescriptor.Kind.ofName? (← string))

-- The kind may stand anywhere among the members. The fuel bounds their number.
private def readTagged (depth : Nat) :
    Nat → Bool → Option ExprDescriptor.Kind → List (String × Json) →
    Reader (ExprDescriptor.Kind × Json)
  | 0, _, _, _ => throw .truncated
  | fuel + 1, first, kind, members => do
      match ← nextKey? false first with
      | some key =>
          if key = "type" then
            if kind.isSome then throw .shape
            colon
            readTagged depth fuel false (some (← readKind)) members
          else
            colon
            let value ← Json.Reader.value depth
            readTagged depth fuel false kind ((key, value) :: members)
      | none => return (← settled kind, .object members.reverse)

private def readItems (depth : Nat) : Nat → Bool → Reader (List Json)
  | 0, _ => throw .truncated
  | fuel + 1, first => do
      if ← moreItems first then
        let item ← Json.Reader.value depth
        return item :: (← readItems depth fuel false)
      else return []

private def remaining : Reader Nat := return (← get).length + 1

private def readExpr (depth : Nat) : Reader ExprDescriptor := do
  match ← peek? with
  | some '\x7b' =>
      let depth ← enter depth
      advance
      let (kind, record) ← readTagged depth (← remaining) true none []
      close '\x7d'
      settled (ExprDescriptor.decodeFields? kind record)
  | some '[' =>
      let depth ← enter depth
      advance
      if ← moreItems true then
        let kind ← readKind
        let items ← readItems depth (← remaining) false
        close ']'
        settled (ExprDescriptor.decodeFields? kind (.array items))
      else throw .shape
  | _ => wrongShape

private def once {α : Type} (field : Option α) (read : Reader α) : Reader (Option α) := do
  if field.isSome then throw .shape
  colon
  return some (← read)

private structure ProjectionFields where
  label : Option String
  expr : Option ExprDescriptor

private def readProjectionMembers (depth : Nat) :
    Nat → Bool → ProjectionFields → Reader ProjectionFields
  | 0, _, _ => throw .truncated
  | fuel + 1, first, fields => do
      match ← nextKey? false first with
      | some "alias" =>
          let label ← once fields.label string
          readProjectionMembers depth fuel false { fields with label }
      | some "expression" =>
          let expr ← once fields.expr (readExpr depth)
          readProjectionMembers depth fuel false { fields with expr }
      | some _ =>
          colon
          skip
          readProjectionMembers depth fuel false fields
      | none => return fields

private def nextField {α : Type} (first : Bool) (read : Reader α) : Reader (Option α) := do
  if ← moreItems first then return some (← read) else return none

private def readProjection (depth : Nat) : Reader ProjectionDescriptor := do
  match ← peek? with
  | some '\x7b' =>
      let depth ← enter depth
      advance
      let fields ← readProjectionMembers depth (← remaining) true ⟨none, none⟩
      let label ← settled fields.label
      let expr ← settled fields.expr
      close '\x7d'
      return ⟨label, expr⟩
  | some '[' =>
      let depth ← enter depth
      advance
      let label ← settled (← nextField true string)
      let expr ← settled (← nextField false (readExpr depth))
      close ']'
      return ⟨label, expr⟩
  | _ => wrongShape

private def readProjectionItems (depth : Nat) : Nat → Bool → Reader (List ProjectionDescriptor)
  | 0, _ => throw .truncated
  | fuel + 1, first => do
      if ← moreItems first then
        let item ← readProjection depth
        return item :: (← readProjectionItems depth fuel false)
      else return []

private def readProjections (depth : Nat) : Reader (List ProjectionDescriptor) := do
  match ← peek? with
  | some '[' =>
      let depth ← enter depth
      advance
      let items ← readProjectionItems depth (← remaining) true
      close ']'
      return items
  | _ => wrongShape

private def readFilter (depth : Nat) : Reader (Option ExprDescriptor) := do
  if ← null? then return none else return some (← readExpr depth)

private structure DescriptorFields where
  name : Option String
  source : Option String
  projections : Option (List ProjectionDescriptor)
  filter : Option (Option ExprDescriptor)

private def readDescriptorMembers (depth : Nat) :
    Nat → Bool → DescriptorFields → Reader DescriptorFields
  | 0, _, _ => throw .truncated
  | fuel + 1, first, fields => do
      match ← nextKey? false first with
      | some "name" =>
          let name ← once fields.name string
          readDescriptorMembers depth fuel false { fields with name }
      | some "from" =>
          let source ← once fields.source string
          readDescriptorMembers depth fuel false { fields with source }
      | some "select" =>
          let projections ← once fields.projections (readProjections depth)
          readDescriptorMembers depth fuel false { fields with projections }
      | some "where" =>
          let filter ← once fields.filter (readFilter depth)
          readDescriptorMembers depth fuel false { fields with filter }
      | some _ =>
          colon
          skip
          readDescriptorMembers depth fuel false fields
      | none => return fields

private def trailingField {α : Type} (ended : Bool) (read : Reader α) : Reader (Option α) := do
  if ended then return none else nextField false read

private def readDescriptor (depth : Nat) : Reader Descriptor := do
  match ← peek? with
  | some '\x7b' =>
      let depth ← enter depth
      advance
      let fields ← readDescriptorMembers depth (← remaining) true ⟨none, none, none, none⟩
      let name ← settled fields.name
      let source ← settled fields.source
      close '\x7d'
      return ⟨name, source, fields.projections.getD [], fields.filter.getD none⟩
  | some '[' =>
      let depth ← enter depth
      advance
      let name ← settled (← nextField true string)
      let source ← settled (← nextField false string)
      let projections ← nextField false (readProjections depth)
      let filter ← trailingField projections.isNone (readFilter depth)
      close ']'
      return ⟨name, source, projections.getD [], filter.getD none⟩
  | _ => wrongShape

-- Arrays and objects may be nested 127 deep.
def Descriptor.parse (text : String) : Except Fault Descriptor := (readDescriptor 128).run text

end SemanticLayer
