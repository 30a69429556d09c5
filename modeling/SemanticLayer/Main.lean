import SemanticLayer.Command.Run

-- The program. A database is a file with its catalog as JSON.

open SemanticLayer

private def systemReason : IO.Error → String
  | .noFileOrDirectory .. => "No such file or directory (os error 2)"
  | .permissionDenied .. => "Permission denied (os error 13)"
  | .inappropriateType .. => "Is a directory (os error 21)"
  | error => toString error

private def readBytes (path : String) : IO (Except IO.Error ByteArray) := do
  try return .ok (← IO.FS.readBinFile path)
  catch error => return .error error

private def readTextFile (path : String) : IO (Except String String) := do
  match ← readBytes path with
  | .error error => return .error (systemReason error)
  | .ok bytes =>
      match String.fromUTF8? bytes with
      | some text => return .ok text
      | none => return .error "stream did not contain valid UTF-8"

private def fileExists (path : String) : IO Bool := do
  try
    discard <| IO.FS.realPath path
    return true
  catch _ => return false

private def readCatalogFile (path : String) : IO (Except String Catalog) := do
  match ← readTextFile path with
  | .error reason => return .error reason
  | .ok text =>
      match Catalog.ofText? text with
      | some catalog => return .ok catalog
      | none => return .error "file is not a database"

private def userConfigHome : IO (Option String) := do
  match ← IO.getEnv "XDG_CONFIG_HOME" with
  | some path => if path.startsWith "/" then return some path
  | none => pure ()
  return (← IO.getEnv "HOME").map (· ++ "/.config")

private def machine : Command.Host IO where
  value? := fun name => IO.getEnv name
  exists? := fileExists
  readText := readTextFile
  readCatalog := readCatalogFile
  configHome := userConfigHome

def main (arguments : List String) : IO UInt32 := do
  let outcome ← Command.run machine arguments
  IO.print outcome.output
  IO.eprint outcome.errors
  return outcome.code.toUInt32
