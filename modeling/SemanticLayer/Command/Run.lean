import SemanticLayer.Command.Arguments
import SemanticLayer.Command.Database
import SemanticLayer.Descriptor.Reader
import SemanticLayer.Settings
import SemanticLayer.Statement.Sql

namespace SemanticLayer.Command

structure Outcome where
  code : Nat
  output : String
  errors : String
  deriving DecidableEq, Repr

namespace Outcome

def success (output : String) : Outcome := ⟨0, output, ""⟩

def failure (message : String) : Outcome := ⟨1, "", message ++ "\n"⟩

def misuse : Outcome := ⟨2, "", "Usage: domainql <COMMAND>\n\nFor more information, try '--help'.\n"⟩

end Outcome

abbrev Action (m : Type → Type) (α : Type) := ExceptT String m α

section

variable {m : Type → Type} [Monad m]

private def settingsFrom (host : Host m) (path : String) : m (Except Settings.Fault Settings) := do
  if ← host.exists? path then
    match ← host.readText path with
    | .ok text => return Settings.parse text
    | .error reason => return .error (.unreadable reason)
  else return .error (.notFound path)

-- The file that a variable names, or else the one in the working directory, or else the user's own.
def loadSettings (host : Host m) : m (Except Settings.Fault Settings) := do
  match ← host.value? "DOMAINQL_CONFIG" with
  | some path => settingsFrom host path
  | none =>
      if ← host.exists? "domainql.toml" then settingsFrom host "domainql.toml"
      else
        match ← host.configHome with
        | none => return .ok {}
        | some home =>
            let path := home ++ "/domainql/config.toml"
            if ← host.exists? path then settingsFrom host path else return .ok {}

private def environmentFor (host : Host m) (text : String) : m Environment :=
  (Environment.cut text.toList).filterMapM fun
    | .plain _ => return none
    | .mention name => do return (← host.value? name).map fun value => (name, value)

private def orFail {α ε : Type} (describe : ε → String) : Except ε α → Action m α
  | .ok a => pure a
  | .error e => throw (describe e)

private def asked {α ε : Type} (describe : ε → String) (answer : m (Except ε α)) : Action m α := do
  orFail describe (← ExceptT.lift answer)

-- The settings must be sound even where a database is given.
private def loadModel (host : Host m) (database : Option String) : Action m Model := do
  let settings ← asked (fun fault : Settings.Fault => "Error loading settings: " ++ fault.message)
    (loadSettings host)
  let path ← match database with
    | some path => pure path
    | none => do
        let env ← ExceptT.lift (environmentFor host (settings.database.getD ""))
        orFail (fun fault : Settings.Fault =>
          "Error: " ++ fault.message ++ " (pass --database or set [database] path)")
          (settings.databasePath env)
  let unreadable (reason : String) : String :=
    "Error reading database '" ++ path ++ "': " ++ reason
  let catalog ← asked unreadable (Host.database host (.ofName path))
  let (_, model) ← orFail (fun e : Error => unreadable e.message)
    (Model.empty.ingest catalog.introspect settings.ingestion)
  return model

private def describe (host : Host m) (database : Option String) : Action m String := do
  let model ← loadModel host database
  return model.toJson.pretty "" ++ "\n"

private def faultText : Json.Fault → String
  | .malformed => "not JSON"
  | .truncated => "the text ends too early"
  | .shape => "not a query"

-- The file is read before the database, and the descriptor looked at after it.
private def compile (host : Host m) (file : String) (database : Option String) :
    Action m String := do
  let text ← asked (fun reason : String => "Error reading file '" ++ file ++ "': " ++ reason)
    (host.readText file)
  let model ← loadModel host database
  let place (message : String) : String := "Error in '" ++ file ++ "': " ++ message
  let descriptor ← orFail
    (fun fault : Json.Fault => place ("Invalid query descriptor: " ++ faultText fault))
    (Descriptor.parse text)
  let query ← orFail (fun e : Error => place e.message) (descriptor.query model)
  let sql ← orFail (fun e : Error => "Error generating SQL: " ++ e.message) query.sql
  return sql ++ "\n"

private def outcome (action : Action m String) : m Outcome := do
  match ← action.run with
  | .ok output => return .success output
  | .error message => return .failure message

def perform (host : Host m) : Request → m Outcome
  | .describe database => outcome (describe host database)
  | .compile file database => outcome (compile host file database)
  | .page page => return .success page.text
  | .version => return .success "domainql 0.1.0\n"

def run (host : Host m) (arguments : List String) : m Outcome :=
  match Request.ofArguments? arguments with
  | some request => perform host request
  | none => return .misuse

end

end SemanticLayer.Command
