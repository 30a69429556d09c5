import SemanticLayer.Change
import SemanticLayer.Model
import SemanticLayer.Naming
import SemanticLayer.Schema.Basic

namespace SemanticLayer

structure IngestOptions where
  domainNaming : Naming := .camelCase
  attributeNaming : Naming := .camelCase
  registerRelations : Bool := true
  deriving DecidableEq, Repr

namespace IngestOptions

def domainName (options : IngestOptions) (table : String) : String :=
  options.domainNaming.apply table

def attributeName (options : IngestOptions) (column : String) : String :=
  options.attributeNaming.apply column

-- Of columns whose names become one the last counts.
def domainOf (options : IngestOptions) (t : Table) : Domain :=
  let empty : Domain := { Domain.new (options.domainName t.name) with table := t.name }
  t.columns.foldl
    (fun d c => (d.addMapped (options.attributeName c.name) c.name c.type.scalar).2) empty

def changesOf (options : IngestOptions) (t : Table) : List Change :=
  let domain := options.domainName t.name
  .addDomain domain t.name ::
    t.columns.map fun c => .addAttribute domain (options.attributeName c.name)

end IngestOptions

-- Of tables with one name the last counts.
def Schema.latest? (s : Schema) (name : String) : Option Table :=
  s.tables.reverse.find? (·.name == name)

def columnAttribute (options : IngestOptions) (d : Domain) (t : Table) (column : String) :
    Except Error Attribute :=
  match t.column? column with
  | some _ => d.lookup (options.attributeName column)
  | none => .error (.unknownColumn t.name column)

structure KeyEnds where
  source : Table
  target : Table
  owner : Domain
  aim : Domain

namespace KeyEnds

def pairCondition (options : IngestOptions) (ends : KeyEnds) (reflexive : Bool)
    (pair : String × String) : Except Error Expr := do
  let near ← columnAttribute options ends.owner ends.source pair.1
  let far ← columnAttribute options ends.aim ends.target pair.2
  let (nearSide, farSide) : Side × Side :=
    if reflexive then (.left, .right) else (.matching, .matching)
  Expr.operation .equals (.access near nearSide) (.access far farSide)

def condition (options : IngestOptions) (ends : KeyEnds) (reflexive : Bool)
    (first : String × String) (rest : List (String × String)) : Except Error Expr := do
  rest.foldlM
    (fun condition pair => do condition.both (← ends.pairCondition options reflexive pair))
    (← ends.pairCondition options reflexive first)

end KeyEnds

def stem? (column : String) : Option String :=
  let reversed := column.toList.reverse
  if reversed.take 3 = ['d', 'i', '_'] ∨ reversed.take 3 = ['D', 'I', '_'] then
    match reversed.drop 3 with
    | [] => none
    | stem => some (String.ofList stem.reverse)
  else none

-- No two candidates are equal, so a taken one need not be looked at again; that is why this ends.
def freeReferenceName (taken : List String) (name : String) : String :=
  if _present : name ∈ taken then freeReferenceName (taken.erase name) (name ++ "Ref") else name
termination_by taken.length
decreasing_by
  have present : name ∈ taken := _present
  have erased := List.length_erase_of_mem present
  have positive := List.length_pos_of_mem present
  omega

def ForeignKey.referenceName (key : ForeignKey) (options : IngestOptions) (owner aim : Domain) :
    String :=
  let stem := match key.pairs with
    | [(column, _)] => stem? column
    | _ => none
  let name := match stem with
    | some stem => options.attributeName stem
    | none => aim.name
  freeReferenceName (owner.attributes.map Attribute.name) name

abbrev Staged := List Change × Model

def addKey (options : IngestOptions) (staged : Staged) (key : ForeignKey) (ends : KeyEnds)
    (condition : Expr) : Except Error Staged := do
  let (changes, model) := staged
  let owner := ends.owner.name
  let aim := ends.aim.name
  let name := key.referenceName options ends.owner ends.aim
  let (_, model) ← model.extend owner (·.addReferenceOn name aim ends.aim.table condition)
  let changes := changes ++ [.addReference owner name aim]
  if options.registerRelations then
    let model ← model.addRelation (← Relation.between owner aim condition)
    pure (changes ++ [.addRelation owner aim], model)
  else pure (changes, model)

-- A key without columns, or with a table that the schema does not have, is passed over.
def stageKey (options : IngestOptions) (schema : Schema) (staged : Staged)
    (key : ForeignKey) : Except Error Staged := do
  match key.pairs, schema.latest? key.source, schema.latest? key.target with
  | first :: rest, some source, some target =>
      let owner ← staged.2.lookup (options.domainName source.name)
      let aim ← staged.2.lookup (options.domainName target.name)
      let ends : KeyEnds := ⟨source, target, owner, aim⟩
      addKey options staged key ends (← ends.condition options key.isReflexive first rest)
  | _, _, _ => pure staged

-- All tables come before the first key. Nothing is kept of a schema that fails.
def Model.ingest (model : Model) (schema : Schema) (options : IngestOptions) :
    Except Error Staged :=
  let changes := schema.tables.flatMap options.changesOf
  let model := schema.tables.foldl (fun m t => m.register (options.domainOf t)) model
  schema.foreignKeys.foldlM (stageKey options schema) (changes, model)

end SemanticLayer
