import SemanticLayer.Environment
import SemanticLayer.Ingest
import SemanticLayer.Toml.Reader

namespace SemanticLayer

structure Settings where
  database : Option String := none
  ingestion : IngestOptions := {}
  deriving DecidableEq, Repr

namespace Settings

inductive Fault where
  | notFound (path : String)
  | unreadable (reason : String)
  | malformed
  | missingVariable (name : String)
  | noDatabase
  deriving DecidableEq, Repr

def Fault.message : Fault → String
  | .notFound path => "Config file not found: " ++ path
  | .unreadable reason => "Failed to read config file: " ++ reason
  | .malformed => "Failed to parse config file: not a settings document"
  | .missingVariable name => "Missing environment variable: " ++ name
  | .noDatabase => "No database configured"

private def given {α : Type} (decode? : Toml → Option α) (default : α) : Option Toml → Option α
  | none => some default
  | some value => decode? value

private def text? : Toml → Option String
  | .string value => some value
  | _ => none

private def boolean? : Toml → Option Bool
  | .boolean value => some value
  | _ => none

private def naming? : Toml → Option Naming
  | .string name => Naming.ofName? name
  | .table _ [(name, .table _ [])] => Naming.ofName? name
  | .table _ [(name, .array [])] => Naming.ofName? name
  | _ => none

private def databaseOf? (value : Toml) : Option (Option String) := do
  match ← value.fields? ["path"] with
  | [path] => given (fun v => some <$> text? v) none path
  | _ => none

private def ingestionOf? (value : Toml) : Option IngestOptions := do
  let defaults : IngestOptions := {}
  match ← value.fields? ["domain_naming", "attribute_naming", "register_relations"] with
  | [domains, attributes, relations] =>
      return ⟨← given naming? defaults.domainNaming domains,
        ← given naming? defaults.attributeNaming attributes,
        ← given boolean? defaults.registerRelations relations⟩
  | _ => none

def ofToml? (document : Toml) : Option Settings := do
  match ← document.fields? ["database", "ingestion"] with
  | [database, ingestion] =>
      return ⟨← given databaseOf? none database, ← given ingestionOf? {} ingestion⟩
  | _ => none

def parse (text : String) : Except Fault Settings :=
  match Toml.parse? text >>= ofToml? with
  | some settings => .ok settings
  | none => .error .malformed

def databasePath (settings : Settings) (env : Environment) : Except Fault String :=
  match settings.database with
  | none => .error .noDatabase
  | some path =>
      match env.expand path with
      | .ok path => .ok path
      | .error name => .error (.missingVariable name)

end Settings

end SemanticLayer
