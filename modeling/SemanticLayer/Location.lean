import SemanticLayer.Place
import SemanticLayer.Text.Hexadecimal

namespace SemanticLayer

inductive Access where
  | read
  | write
  | make
  | memory
  deriving DecidableEq, Repr

namespace Access

def ofName? : String → Option Access
  | "ro" => some .read
  | "rw" => some .write
  | "rwc" => some .make
  | "memory" => some .memory
  | _ => none

def allows : Access → Access → Bool
  | .memory, _ | _, .memory => true
  | .make, _ | _, .read => true
  | .write, asked => asked = .write
  | .read, _ => false

end Access

inductive Guard where
  | system
  | neighbour
  | nothing
  deriving DecidableEq, Repr

structure Use where
  access : Access
  guard : Guard
  isFixed : Bool
  -- It must be there in any case.
  like : Option String
  deriving DecidableEq, Repr

inductive Location where
  | scratch
  | file (walk : Walk) (use : Use)
  | unknown
  deriving DecidableEq, Repr

namespace Location

inductive Storage where
  | disk (guard : Guard)
  | memory
  deriving DecidableEq, Repr

def Storage.ofName? : String → Option Storage
  | "unix" | "unix-excl" => some (.disk .system)
  | "unix-dotfile" => some (.disk .neighbour)
  | "unix-none" => some (.disk .nothing)
  | "memdb" => some .memory
  | _ => none

-- The last storage counts, and one that there is not may still be replaced; of the other options the
-- first one counts.
structure Opening where
  access : Access
  storage : Option Storage
  isUnguarded : Option Bool
  isFixed : Option Bool
  like : Option String
  deriving DecidableEq, Repr

private def plain : Opening := ⟨.read, some (.disk .system), none, none, none⟩

-- Nothing counts after a zero.
def octets : List Char → List UInt8
  | [] => []
  | '%' :: high :: low :: text =>
      match Text.hexDigit? high, Text.hexDigit? low with
      | some high, some low =>
          if high = 0 ∧ low = 0 then [] else (high * 16 + low).toUInt8 :: octets text
      | _, _ => '%'.toUInt8 :: octets (high :: low :: text)
  | c :: text => (String.singleton c).toUTF8.toList ++ octets text

private def decoded? (text : List Char) : Option String :=
  String.fromUTF8? ⟨(octets text).toArray⟩

private def onThisMachine? : List Char → Option (List Char)
  | '/' :: '/' :: text =>
      let machine := String.ofList (text.takeWhile (· ≠ '/'))
      if machine = "" ∨ machine = "localhost" then some (text.dropWhile (· ≠ '/')) else none
  | text => some text

private def isTrue (value : String) : Bool :=
  let digits := value.toList.takeWhile Char.isDigit
  if digits.isEmpty then ["on", "true", "yes"].contains value.toLower
  else digits.foldl (fun n d => n * 10 + (d.toNat - '0'.toNat)) 0 % 256 ≠ 0

private def withOption? (opening : Opening) (option : List Char) : Option Opening := do
  let value := decoded? ((option.dropWhile (· ≠ '=')).drop 1)
  let text := value.getD ""
  match decoded? (option.takeWhile (· ≠ '=')) with
  | some "mode" =>
      let access ← Access.ofName? text
      if opening.access.allows access then return { opening with access := access } else none
  | some "cache" => if text ∈ ["shared", "private"] then return opening else none
  | some "vfs" => return { opening with storage := Storage.ofName? text }
  | some "nolock" =>
      return { opening with isUnguarded := opening.isUnguarded <|> some (isTrue text) }
  | some "immutable" => return { opening with isFixed := opening.isFixed <|> some (isTrue text) }
  | some "modeof" => return { opening with like := opening.like <|> some text }
  | _ => return opening

private def scratchNames : List (List UInt8) := ["".toUTF8.toList, ":memory:".toUTF8.toList]

private def Opening.use (opening : Opening) (guard : Guard) : Use where
  access := opening.access
  guard := if opening.isUnguarded = some true then .nothing else guard
  isFixed := opening.isFixed.getD false
  like := opening.like

private def ofPath (path : List UInt8) (opening : Opening) : Location :=
  match opening.storage with
  | none => .unknown
  | some .memory => .scratch
  | some (.disk guard) =>
      if opening.access = .memory ∨ path ∈ scratchNames then .scratch
      else
        match Place.walk? path with
        | some walk => .file walk (opening.use guard)
        | none => .unknown

private def ofAddress (text : List Char) : Location :=
  match onThisMachine? text with
  | none => .unknown
  | some text =>
      let text := text.takeWhile (· ≠ '#')
      let options := ((text.dropWhile (· ≠ '?')).drop 1).splitOn '&'
      match options.foldlM withOption? plain with
      | some opening => ofPath (octets (text.takeWhile (· ≠ '?'))) opening
      | none => .unknown

def ofName (name : String) : Location :=
  if name.toList.contains '\x00' then .unknown
  else
    match name.toList with
    | 'f' :: 'i' :: 'l' :: 'e' :: ':' :: text => ofAddress text
    | _ => ofPath name.toUTF8.toList plain

end Location

end SemanticLayer
