import SemanticLayer.Json.Number
import SemanticLayer.Text.Hexadecimal

namespace SemanticLayer.Json

abbrev Reader (α : Type) := StateT (List Char) (Except Fault) α

namespace Reader

def isBlank (c : Char) : Bool := c = ' ' || c = '\t' || c = '\n' || c = '\r'

def peek? : Reader (Option Char) := do
  modify (·.dropWhile isBlank)
  return (← get).head?

def advance : Reader Unit := modify (·.drop 1)

def word (expected : List Char) : Reader Unit := fun text =>
  let common := (expected.zip text).takeWhile fun pair => pair.1 = pair.2
  if common.length = expected.length then .ok ((), text.drop expected.length)
  else if common.length = text.length then .error .truncated
  else .error .malformed

-- Four hexadecimal digits. The text has ended when fewer than four bytes are left.
private def hexUnit (text : List Char) : Except Fault (Nat × List Char) :=
  if (String.ofList (text.take 4)).utf8ByteSize < 4 then .error .truncated
  else
    match (text.take 4).mapM Text.hexDigit? with
    | some [a, b, c, d] => .ok (((a * 16 + b) * 16 + c) * 16 + d, text.drop 4)
    | _ => .error .malformed

private def lowHalf (high : Nat) : List Char → Except Fault (Char × List Char)
  | [] => .error .truncated
  | ['\\'] => .error .truncated
  | '\\' :: 'u' :: text => do
      let (low, text) ← hexUnit text
      if 0xDC00 ≤ low ∧ low ≤ 0xDFFF then
        pure (Char.ofNat (0x10000 + (high - 0xD800) * 0x400 + (low - 0xDC00)), text)
      else throw .malformed
  | _ => .error .malformed

-- Where the value of the string does not matter, halves of characters may stand alone.
def escaped (skipping : Bool) : List Char → Except Fault (Char × List Char)
  | [] => .error .truncated
  | '\x22' :: text => .ok ('\x22', text)
  | '\\' :: text => .ok ('\\', text)
  | '/' :: text => .ok ('/', text)
  | 'b' :: text => .ok ('\x08', text)
  | 'f' :: text => .ok ('\x0c', text)
  | 'n' :: text => .ok ('\n', text)
  | 'r' :: text => .ok ('\r', text)
  | 't' :: text => .ok ('\t', text)
  | 'u' :: text => do
      let (unit, text) ← hexUnit text
      if skipping then pure ('?', text)
      else if 0xDC00 ≤ unit ∧ unit ≤ 0xDFFF then throw .malformed
      else if 0xD800 ≤ unit ∧ unit ≤ 0xDBFF then lowHalf unit text
      else pure (Char.ofNat unit, text)
  | _ => .error .malformed

-- A step consumes at least one character, so the text as it was at first bounds the number of steps.
private def characters (skipping : Bool) :
    List Char → List Char → List Char → Except Fault (List Char × List Char)
  | [], _, _ => .error .truncated
  | _, _, [] => .error .truncated
  | _ :: bound, done, c :: text =>
      if c = '\x22' then .ok (done, text)
      else if c = '\\' then do
        let (c, text) ← escaped skipping text
        characters skipping bound (c :: done) text
      else if c.toNat < 0x20 then .error .malformed
      else characters skipping bound (c :: done) text

def stringBody (skipping : Bool) : Reader String := fun text => do
  let (done, text) ← characters skipping text [] text
  pure (String.ofList done.reverse, text)

-- Where its value does not matter a number may be too large, but it may not stop short.
private def numberBody (skipping negative : Bool) : Reader Json := fun text =>
  if skipping then
    match Numeral.read negative text with
    | .ok (_, text) => .ok (.null, text)
    | .error _ => .error .malformed
  else do
    let (numeral, text) ← Numeral.read negative text
    pure (← numeral.value, text)

def scalar (skipping : Bool) (first : Char) : Reader Json := do
  if first = 'n' then advance; word ['u', 'l', 'l']; return .null
  else if first = 't' then advance; word ['r', 'u', 'e']; return .bool true
  else if first = 'f' then advance; word ['a', 'l', 's', 'e']; return .bool false
  else if first = '\x22' then advance; return .string (← stringBody skipping)
  else if first = '-' then advance; numberBody skipping true
  else if first.isDigit then numberBody skipping false
  else throw .malformed

def moreItems (first : Bool) : Reader Bool := do
  match ← peek? with
  | none => throw .truncated
  | some ']' => return false
  | some c =>
      if first then return true
      else if c = ',' then
        advance
        match ← peek? with
        | none => throw .truncated
        | some ']' => throw .malformed
        | some _ => return true
      else throw .malformed

def nextKey? (skipping first : Bool) : Reader (Option String) := do
  match ← peek? with
  | none => throw .truncated
  | some '\x7d' => return none
  | some c =>
      if !first then
        if c = ',' then advance else throw .malformed
      match ← peek? with
      | none => throw .truncated
      | some '\x22' => advance; return some (← stringBody skipping)
      | some _ => throw .malformed

def colon : Reader Unit := do
  match ← peek? with
  | none => throw .truncated
  | some ':' => advance
  | some _ => throw .malformed

def close (stop : Char) : Reader Unit := do
  match ← peek? with
  | none => throw .truncated
  | some c => if c = stop then advance else throw .malformed

def enter : Nat → Reader Nat
  | depth + 2 => return depth + 1
  | _ => throw .malformed

mutual

-- The fuel bounds the number of calls; twice the length of the text is enough, for of two nested
-- calls one consumes a character.
private def valueWithin (skipping : Bool) : Nat → Nat → Reader Json
  | 0, _ => throw .truncated
  | fuel + 1, depth => do
      match ← peek? with
      | none => throw .truncated
      | some '[' =>
          let depth ← enter depth
          advance
          let items ← itemsWithin skipping fuel depth true
          close ']'
          return .array items
      | some '\x7b' =>
          let depth ← enter depth
          advance
          let members ← membersWithin skipping fuel depth true
          close '\x7d'
          return .object members
      | some c => scalar skipping c

private def itemsWithin (skipping : Bool) : Nat → Nat → Bool → Reader (List Json)
  | 0, _, _ => throw .truncated
  | fuel + 1, depth, first => do
      if ← moreItems first then
        let item ← valueWithin skipping fuel depth
        return item :: (← itemsWithin skipping fuel depth false)
      else return []

private def membersWithin (skipping : Bool) : Nat → Nat → Bool → Reader (List (String × Json))
  | 0, _, _ => throw .truncated
  | fuel + 1, depth, first => do
      match ← nextKey? skipping first with
      | some key =>
          colon
          let value ← valueWithin skipping fuel depth
          return (key, value) :: (← membersWithin skipping fuel depth false)
      | none => return []

end

def value (depth : Nat) : Reader Json := fun text =>
  valueWithin false (2 * text.length + 2) depth text

def skip : Reader Unit := fun text => do
  let (_, text) ← valueWithin true (2 * text.length + 2) (text.length + 2) text
  pure ((), text)

-- A broken value is reported as such, and not as one of another shape.
def wrongShape {α : Type} : Reader α := do
  match ← peek? with
  | none => throw .truncated
  | some '[' => throw .shape
  | some '\x7b' => throw .shape
  | some c => let _ ← scalar false c; throw .shape

def string : Reader String := do
  match ← peek? with
  | some '\x22' => advance; stringBody false
  | _ => wrongShape

def null? : Reader Bool := do
  match ← peek? with
  | some 'n' => advance; word ['u', 'l', 'l']; return true
  | _ => return false

def run {α : Type} (reader : Reader α) (text : String) : Except Fault α := do
  let (result, rest) ← reader text.toList
  if (rest.dropWhile isBlank).isEmpty then pure result else throw .malformed

end Reader

def parse (depth : Nat) (text : String) : Except Fault Json := (Reader.value depth).run text

end SemanticLayer.Json
