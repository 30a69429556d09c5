import SemanticLayer.Text.Hexadecimal
import SemanticLayer.Toml.Scalar

namespace SemanticLayer.Toml

-- All faults of a document are one.
abbrev Reader (α : Type) := StateT (List Char) Option α

namespace Reader

private def isSpace (c : Char) : Bool := c = ' ' || c = '\t'

-- Control characters stand nowhere, not in comments either.
private def isPlain (c : Char) : Bool := c = '\t' || (' ' ≤ c && c ≠ '\x7f')

private def newline? : List Char → Option (List Char)
  | '\n' :: text => some text
  | '\r' :: '\n' :: text => some text
  | _ => none

private def peek? : Reader (Option Char) := return (← get).head?

private def advance : Reader Unit := modify (·.drop 1)

private def spaces : Reader Unit := modify (·.dropWhile isSpace)

private def expect (c : Char) : Reader Unit := do
  if (← peek?) = some c then advance else failure

private def comment : Reader Unit := do
  if (← peek?) = some '#' then modify (·.dropWhile isPlain)

private def lineEnd : Reader Unit := do
  spaces
  comment
  let text ← get
  match newline? text with
  | some text => set text
  | none => if !text.isEmpty then failure

private def remaining : Reader Nat := return (← get).length + 1

-- Where a reader is bounded by a list, it is the text as it was at first: a step consumes at least
-- one character of it.
private def skipLinesWithin : List Char → Reader Unit
  | [] => return
  | _ :: bound => do
      spaces
      comment
      match newline? (← get) with
      | some text => set text; skipLinesWithin bound
      | none => return

private def skipLines : Reader Unit := do skipLinesWithin (← get)

private def codePoint? (width : Nat) (text : List Char) : Option (Char × List Char) := do
  let digits ← (text.take width).mapM Text.hexDigit?
  if digits.length ≠ width then none
  let n := digits.foldl (fun n d => n * 16 + d) 0
  if n.isValidChar then return (Char.ofNat n, text.drop width) else none

private def escape? : List Char → Option (Char × List Char)
  | 'b' :: text => some ('\x08', text)
  | 'e' :: text => some ('\x1b', text)
  | 't' :: text => some ('\t', text)
  | 'n' :: text => some ('\n', text)
  | 'f' :: text => some ('\x0c', text)
  | 'r' :: text => some ('\r', text)
  | '\x22' :: text => some ('\x22', text)
  | '\\' :: text => some ('\\', text)
  | 'x' :: text => codePoint? 2 text
  | 'u' :: text => codePoint? 4 text
  | 'U' :: text => codePoint? 8 text
  | _ => none

private def lineString (quote : Char) :
    List Char → List Char → List Char → Option (List Char × List Char)
  | [], _, _ => none
  | _, _, [] => none
  | _ :: bound, done, c :: text =>
      if c = quote then some (done, text)
      else if c = '\\' ∧ quote = '\x22' then do
        let (c, text) ← escape? text
        lineString quote bound (c :: done) text
      else if isPlain c then lineString quote bound (c :: done) text
      else none

private def skipBlankLines : List Char → List Char
  | ' ' :: text => skipBlankLines text
  | '\t' :: text => skipBlankLines text
  | '\n' :: text => skipBlankLines text
  | '\r' :: '\n' :: text => skipBlankLines text
  | text => text

private def continuation? (text : List Char) : Option (List Char) :=
  skipBlankLines <$> newline? (text.dropWhile isSpace)

-- One or two more quotes before those that end the string belong to it.
private def blockString (quote : Char) :
    List Char → List Char → List Char → Option (List Char × List Char)
  | [], _, _ => none
  | _, _, [] => none
  | _ :: bound, done, c :: text =>
      if c = quote then
        let quotes := ((c :: text).takeWhile (· = quote)).length
        if quotes < 3 then blockString quote bound (c :: done) text
        else
          let ending := min quotes 5
          some (List.replicate (ending - 3) quote ++ done, (c :: text).drop ending)
      else if c = '\\' ∧ quote = '\x22' then
        match continuation? text with
        | some text => blockString quote bound done text
        | none => do
            let (c, text) ← escape? text
            blockString quote bound (c :: done) text
      else
        match c, text with
        | '\n', text => blockString quote bound ('\n' :: done) text
        | '\r', '\n' :: text => blockString quote bound ('\n' :: '\r' :: done) text
        | c, text => if isPlain c then blockString quote bound (c :: done) text else none

private def quotedLine (quote : Char) : Reader String := fun text => do
  let (done, text) ← lineString quote text [] text
  return (String.ofList done.reverse, text)

-- A line end right after the opening quotes is no part of the string.
private def quotedBlock (quote : Char) : Reader String := fun text => do
  let text := (newline? text).getD text
  let (done, text) ← blockString quote text [] text
  return (String.ofList done.reverse, text)

private def quoted (quote : Char) : Reader String := do
  if (← get).take 3 = [quote, quote, quote] then
    modify (·.drop 3)
    quotedBlock quote
  else
    advance
    quotedLine quote

private def isKeyChar (c : Char) : Bool := c.isAlphanum || c = '_' || c = '-'

private def simpleKey : Reader String := do
  match ← peek? with
  | some '\x22' => advance; quotedLine '\x22'
  | some '\x27' => advance; quotedLine '\x27'
  | _ =>
      let text ← get
      let key := text.takeWhile isKeyChar
      if key.isEmpty then failure
      set (text.dropWhile isKeyChar)
      return String.ofList key

private def dottedKeyWithin : Nat → Reader (List String × String)
  | 0 => failure
  | parts + 1 => do
      spaces
      let key ← simpleKey
      spaces
      if (← peek?) = some '.' then
        advance
        let (path, last) ← dottedKeyWithin parts
        return (key :: path, last)
      else return ([], key)

private def dottedKey : Reader (List String × String) := dottedKeyWithin 80

private def isScalarChar (c : Char) : Bool :=
  c.isAlphanum || c = '_' || c = '-' || c = '+' || c = '.' || c = ':'

-- A time may follow a date after one blank.
private def bare : Reader Toml := do
  let text ← get
  let word := text.takeWhile isScalarChar
  let text := text.dropWhile isScalarChar
  match isDate word, text with
  | true, ' ' :: c :: rest =>
      if c.isDigit then
        let time := (c :: rest).takeWhile isScalarChar
        set ((c :: rest).dropWhile isScalarChar)
        liftM (scalar? (word ++ ' ' :: time))
      else
        set text
        liftM (scalar? word)
  | _, _ =>
      set text
      liftM (scalar? word)

mutual

-- The first bound is on the calls, of which each second one consumes a character; the second one
-- is on the arrays and braces in one another.
private def valueWithin : Nat → Nat → Reader Toml
  | 0, _ => failure
  | fuel + 1, depth => do
      match ← peek?, depth with
      | some '\x22', _ => return .string (← quoted '\x22')
      | some '\x27', _ => return .string (← quoted '\x27')
      | some '[', depth + 1 =>
          advance
          return .array (← itemsWithin fuel depth)
      | some '\x7b', depth + 1 =>
          advance
          return .table .braces (← pairsWithin fuel depth [])
      | some '[', 0 => failure
      | some '\x7b', 0 => failure
      | _, _ => bare

private def itemsWithin : Nat → Nat → Reader (List Toml)
  | 0, _ => failure
  | fuel + 1, depth => do
      skipLines
      if (← peek?) = some ']' then
        advance
        return []
      let item ← valueWithin fuel depth
      skipLines
      if (← peek?) = some ',' then
        advance
        return item :: (← itemsWithin fuel depth)
      expect ']'
      return [item]

private def pairsWithin : Nat → Nat → Members → Reader Members
  | 0, _, _ => failure
  | fuel + 1, depth, members => do
      skipLines
      if (← peek?) = some '\x7d' then
        advance
        return members
      let (path, key) ← dottedKey
      expect '='
      spaces
      let value ← valueWithin fuel depth
      let members ← liftM (assign path key value .braces members)
      skipLines
      if (← peek?) = some ',' then
        advance
        pairsWithin fuel depth members
      else
        expect '\x7d'
        return members

end

private def value : Reader Toml := do valueWithin (2 * (← remaining)) 80

private def header : Reader Line := do
  advance
  if (← peek?) = some '[' then
    advance
    let (path, key) ← dottedKey
    expect ']'
    expect ']'
    return .row path key
  else
    let (path, key) ← dottedKey
    expect ']'
    return .table path key

private def pair : Reader Line := do
  let (path, key) ← dottedKey
  expect '='
  spaces
  return .pair path key (← value)

private def lines : Nat → Reader (List Line)
  | 0 => failure
  | fuel + 1 => do
      skipLines
      match ← peek? with
      | none => return []
      | some c =>
          let line ← if c = '[' then header else pair
          lineEnd
          return line :: (← lines fuel)

end Reader

-- A document, before which a byte order mark may stand.
def parse? (text : String) : Option Toml := do
  let text := match text.toList with
    | '\ufeff' :: rest => rest
    | text => text
  let (lines, rest) ← Reader.lines (text.length + 1) text
  if rest.isEmpty then ofLines? lines else none

end SemanticLayer.Toml
