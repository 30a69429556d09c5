namespace SemanticLayer

-- Without empty parts and without steps that lead nowhere. Names of files are made of bytes.
structure Place where
  isAbsolute : Bool
  -- The last part comes first.
  parts : List (List UInt8)
  deriving DecidableEq, Repr

structure Walk where
  goal : Place
  entered : List Place
  deriving DecidableEq, Repr

namespace Place

private def slash : UInt8 := '/'.toUInt8

private def here : List UInt8 := ['.'.toUInt8]

private def above : List UInt8 := ['.'.toUInt8, '.'.toUInt8]

-- There is nothing above the root. Above the place where a relative path begins it goes on with
-- steps up.
def up (p : Place) : Place :=
  match p.parts with
  | [] => if p.isAbsolute then p else { p with parts := [above] }
  | last :: rest => { p with parts := if last = above then above :: last :: rest else rest }

private def step? (walk : Walk) (part : List UInt8) : Option Walk :=
  if part = [] ∨ part = here then some walk
  else if part = above then some { walk with goal := walk.goal.up }
  else if part.length > 255 then none
  else some ⟨{ walk.goal with parts := part :: walk.goal.parts }, walk.entered ++ [walk.goal]⟩

-- Steps up are taken as they are written, without a look at what is there.
def walk? (path : List UInt8) : Option Walk :=
  (path.splitOn slash).foldlM step? ⟨⟨path.head? = some slash, []⟩, []⟩

def text? (p : Place) : Option String := do
  let parts ← p.parts.reverse.mapM fun part => String.fromUTF8? ⟨part.toArray⟩
  let path := "/".intercalate parts
  return if p.isAbsolute then "/" ++ path else if parts.isEmpty then "." else path

end Place

end SemanticLayer
