import SemanticLayer.Command.Host
import SemanticLayer.Location

namespace SemanticLayer.Command.Host

variable {m : Type → Type} [Monad m]

private def holdsAt (p : Place) (test : String → m Bool) : m Bool :=
  (p.text?.map test).getD (pure false)

private def isDirectory (host : Host m) (path : String) : m Bool := host.exists? (path ++ "/")

private def isFile (host : Host m) (path : String) : m Bool := do
  return (← host.exists? path) && !(← isDirectory host path)

private def isPresent (host : Host m) (path : String) : m Bool := do
  match ← host.readText path with
  | .ok text => return !text.isEmpty
  | .error _ => host.exists? path

-- A journal that begins with a zero has been closed.
private def isPending (host : Host m) (path : String) : m Bool := do
  match ← host.readText path with
  | .ok text => return text.toList.head?.any (· ≠ '\x00')
  | .error _ => host.exists? path

-- An unfinished change can be taken back where the database may be written, and without tables there
-- is nothing to lose.
private def isDisturbed (host : Host m) (use : Use) (isEmpty : Bool) (path : String) : m Bool := do
  let journal := path ++ "-journal"
  let log := path ++ "-wal"
  if ← isDirectory host log then return true
  else if isEmpty then return false
  else if use.guard = .neighbour then isPresent host log
  else if ← isPending host journal <&&> (pure (use.access = .read) <||> isDirectory host journal) then
    return true
  else pure (use.guard = .nothing) <&&> isPresent host log

private def content (host : Host m) (walk : Walk) (use : Use) : m (Except String Catalog) := do
  let absent : Except String Catalog := .error "unable to open database file"
  if use.access = .make && !(← holdsAt walk.goal host.exists?) then
    return if ← holdsAt walk.goal.up (isDirectory host) then .ok .empty else absent
  match walk.goal.text? with
  | some path => host.readCatalog path
  | none => return absent

private def isLocked (host : Host m) (use : Use) (path : String) : m Bool :=
  pure (use.guard = .neighbour) <&&> host.exists? (path ++ ".lock")

def database (host : Host m) : Location → m (Except String Catalog)
  | .scratch => return .ok .empty
  | .unknown => return .error "unable to open database"
  | .file walk use => do
      if ← walk.entered.anyM (holdsAt · (isFile host)) then
        return .error "unable to open database file"
      if ← use.like.toList.anyM fun path => return !(← host.exists? path) then
        return .error "disk I/O error"
      match ← content host walk use with
      | .error reason => return .error reason
      | .ok catalog =>
          if use.isFixed then return .ok catalog
          if ← holdsAt walk.goal (isLocked host use) then return .error "database is locked"
          if ← holdsAt walk.goal (isDisturbed host use catalog.tables.isEmpty) then
            return .error "the last change has not been finished"
          return .ok catalog

end SemanticLayer.Command.Host
