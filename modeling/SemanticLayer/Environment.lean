import SemanticLayer.Text.Alphanumeric

namespace SemanticLayer

abbrev Environment := List (String × String)

namespace Environment

-- A name may go on behind the equals sign of its line, and its value is then the rest of the line.
def line (name value : String) : List Char := name.toList ++ '=' :: value.toList

private def valueIn? (name line : List Char) : Option String :=
  if name.isPrefixOf line then
    match line.drop name.length with
    | '=' :: value => some (String.ofList value)
    | _ => none
  else none

def value? (env : Environment) (name : String) : Option String :=
  if name.isEmpty then none
  else env.findSome? fun (known, value) => valueIn? name.toList (line known value)

def isNameChar (c : Char) : Bool := Text.isAlphanumeric c || c == '_'

-- The closing brace belongs neither to the name nor to what follows it. The end of the text closes as
-- well.
def braced (name : String) : List Char → String × List Char
  | [] => (name, [])
  | c :: text => if c = '\x7d' then (name, text) else braced (name.push c) text

def bare (name : String) : List Char → String × List Char
  | [] => (name, [])
  | c :: text => if isNameChar c then bare (name.push c) text else (name, c :: text)

-- With neither a brace nor a name after it a dollar sign starts no name.
def named? : List Char → Option (String × List Char)
  | '\x7b' :: text => some (braced "" text)
  | text =>
      let read := bare "" text
      if read.1.isEmpty then none else some read

private theorem braced_shorter (name : String) (text : List Char) :
    (braced name text).2.length ≤ text.length := by
  fun_induction braced name text with
  | case1 name => exact Nat.le_refl _
  | case2 name text => exact Nat.le_succ _
  | case3 name c text _ ih => exact Nat.le_succ_of_le ih

private theorem bare_shorter (name : String) (text : List Char) :
    (bare name text).2.length ≤ text.length := by
  fun_induction bare name text with
  | case1 name => exact Nat.le_refl _
  | case2 name c text _ ih => exact Nat.le_succ_of_le ih
  | case3 name c text => exact Nat.le_refl _

private theorem named_shorter (read : named? text = some (name, rest)) :
    rest.length ≤ text.length := by
  unfold named? at read
  split at read
  · rename_i inner
    have shorter := braced_shorter "" inner
    rw [Option.some.inj read] at shorter
    exact Nat.le_succ_of_le shorter
  · dsimp only at read
    split at read
    · cases read
    · have shorter := bare_shorter "" text
      rwa [Option.some.inj read] at shorter

-- The values that are put in are not looked through again.
def fill (env : Environment) (made : String) : List Char → Except String String
  | [] => .ok made
  | c :: text =>
      if c = '$' then
        match _read : named? text with
        | none => fill env (made.push '$') text
        | some (name, rest) =>
            match env.value? name with
            | some value => fill env (made ++ value) rest
            | none => .error name
      else fill env (made.push c) text
termination_by text => text.length
decreasing_by
  all_goals simp only [List.length_cons]
  · omega
  · have := named_shorter _read
    omega
  · omega

def expand (env : Environment) (text : String) : Except String String := env.fill "" text.toList

inductive Token where
  | plain (c : Char)
  | mention (name : String)
  deriving DecidableEq, Repr

private theorem rest_shorter (p : Char → Bool) (text : List Char) :
    (text.dropWhile p).length ≤ text.length := by
  induction text with
  | nil => simp
  | cons c rest ih =>
      rw [List.dropWhile_cons]
      split
      · exact Nat.le_succ_of_le ih
      · exact Nat.le_refl _

def cut : List Char → List Token
  | [] => []
  | '$' :: '\x7b' :: text =>
      let name := text.takeWhile (· ≠ '\x7d')
      .mention (String.ofList name) :: cut ((text.dropWhile (· ≠ '\x7d')).drop 1)
  | '$' :: text =>
      match text.takeWhile isNameChar with
      | [] => .plain '$' :: cut text
      | name => .mention (String.ofList name) :: cut (text.dropWhile isNameChar)
  | c :: text => .plain c :: cut text
termination_by text => text.length
decreasing_by
  all_goals simp only [List.length_cons, List.length_drop]
  · have := rest_shorter (· ≠ '\x7d') text
    omega
  · omega
  · have := rest_shorter isNameChar text
    omega
  · omega

end Environment

end SemanticLayer
