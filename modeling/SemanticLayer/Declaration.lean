namespace SemanticLayer

structure Declaration where
  type : String
  isPrimaryKey : Bool
  targets : List (String × Option String)
  isComputed : Bool
  deriving DecidableEq, Repr

namespace Declaration

inductive PieceKind where
  | blank
  | word
  | quoted
  | mark
  deriving DecidableEq, Repr

structure Piece where
  kind : PieceKind
  text : List Char
  deriving DecidableEq, Repr

private def isSpace (c : Char) : Bool :=
  c = ' ' || c = '\t' || c = '\n' || c = '\x0c' || c = '\r'

private def startsWord (c : Char) : Bool := c.isAlpha || c = '_' || 128 ≤ c.toNat

private def inWord (c : Char) : Bool := startsWord c || c.isDigit || c = '$'

def isQuote (c : Char) : Bool := c = '\'' || c = '"' || c = '[' || c = '\x60'

private def closing (quote : Char) : Char := if quote = '[' then ']' else quote

-- A quote inside is written twice.
private def quotedLength (close : Char) : List Char → Nat
  | [] => 0
  | [_] => 1
  | c :: d :: text =>
      if c ≠ close then quotedLength close (d :: text) + 1
      else if d = close then quotedLength close text + 2
      else 1

private def remarkLength : List Char → Nat
  | [] => 0
  | '*' :: '/' :: _ => 2
  | _ :: text => remarkLength text + 1

private def begun (c : Char) (text : List Char) : PieceKind × Nat :=
  if isSpace c || c = '\ufeff' then (.blank, 0)
  else if startsWord c then (.word, (text.takeWhile inWord).length)
  else if c = '[' then (.quoted, (text.takeWhile (· ≠ ']')).length + 1)
  else if isQuote c then (.quoted, quotedLength c text)
  else
    match c, text with
    | '-', '-' :: _ => (.blank, (text.takeWhile (· ≠ '\n')).length)
    | '/', '*' :: rest => (.blank, remarkLength rest + 1)
    | _, _ => (.mark, 0)

def cut : List Char → List Piece
  | [] => []
  | c :: text =>
      let (kind, length) := begun c text
      ⟨kind, c :: text.take length⟩ :: cut (text.drop length)
termination_by text => text.length
decreasing_by simp only [List.length_drop, List.length_cons]; omega

private def capitals (text : List Char) : String := String.ofList (text.map Char.toUpper)

def Piece.isBlank (p : Piece) : Bool := p.kind == .blank

def Piece.isMark (p : Piece) (c : Char) : Bool := p.kind == .mark && p.text == [c]

def Piece.isWord (p : Piece) (word : String) : Bool := p.kind == .word && capitals p.text == word

def constraintWords : List String :=
  ["AS", "CHECK", "COLLATE", "CONSTRAINT", "DEFAULT", "DEFERRABLE", "NOT", "NULL", "PRIMARY",
    "REFERENCES", "UNIQUE"]

private def inType (p : Piece) : Bool :=
  p.kind == .blank || p.kind == .quoted ||
    p.kind == .word && !constraintWords.contains (capitals p.text)

private def withoutBlankEnd (pieces : List Piece) : List Piece :=
  (pieces.reverse.dropWhile Piece.isBlank).reverse

private def typePieces (pieces : List Piece) : List Piece :=
  let pieces := pieces.dropWhile Piece.isBlank
  let names := pieces.takeWhile inType
  let rest := pieces.dropWhile inType
  if !names.isEmpty && rest.head?.any (·.isMark '(') then
    names ++ rest.takeWhile (!·.isMark ')') ++ [⟨.mark, [')']⟩]
  else withoutBlankEnd names

private def before? (word : String) (text : List Char) : Option (List Char) :=
  let length := text.length - word.length
  if capitals (text.drop length) = word then
    some ((text.take length).reverse.dropWhile isSpace).reverse
  else none

-- Words that may announce a computation are no part of a type. Short types are not looked at.
private def withoutAnnouncement (type : List Char) : List Char :=
  if (String.ofList type).utf8ByteSize < 16 then type
  else
    match before? "ALWAYS" type with
    | some type => (before? "GENERATED" type).getD type
    | none => type

private def quotation (close : Char) : List Char → List Char
  | [] => []
  | [c] => if c = close then [] else [c]
  | c :: d :: text =>
      if c ≠ close then c :: quotation close (d :: text)
      else if d = close then c :: quotation close text
      else []

private def unquoted : List Char → List Char
  | [] => []
  | c :: text => if isQuote c then quotation (closing c) text else c :: text

-- The text between the first and the last character, if the first is the only quote before the
-- last.
private def between : List Char → List Char
  | c :: text => if isQuote c && !text.dropLast.any isQuote then text.dropLast else c :: text
  | [] => []

-- Some types are known by name and told in capitals, however they were declared. Of the others
-- quotes are taken off.
def told (type : List Char) : String :=
  let type := between (withoutAnnouncement type)
  if capitals type ∈ ["ANY", "BLOB", "INT", "INTEGER", "REAL", "TEXT"] then capitals type
  else String.ofList (unquoted type)

private def Piece.name (p : Piece) : String := String.ofList (unquoted p.text)

private def outside (depth : Nat) : List Piece → List (Piece × List Piece)
  | [] => []
  | p :: rest =>
      if p.isMark '(' then outside (depth + 1) rest
      else if p.isMark ')' then outside (depth - 1) rest
      else if depth = 0 then (p, rest) :: outside depth rest
      else outside depth rest

private def target? : List Piece → Option (String × Option String)
  | table :: bracket :: column :: _ =>
      some (table.name, if bracket.isMark '(' then some column.name else none)
  | table :: _ => some (table.name, none)
  | [] => none

def ofText (text : String) : Declaration :=
  let pieces := cut text.toList
  let type := typePieces pieces
  let more := outside 0 ((pieces.filter (!·.isBlank)).drop (type.filter (!·.isBlank)).length)
  let holds (word : String) : Bool := more.any (·.1.isWord word)
  ⟨told (type.flatMap Piece.text), holds "PRIMARY",
    more.filterMap fun (p, rest) => if p.isWord "REFERENCES" then target? rest else none,
    holds "AS"⟩

end Declaration

end SemanticLayer
