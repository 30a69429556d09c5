import SemanticLayer.Environment
import SemanticLayer.Proofs.Faults
import SemanticLayer.Proofs.Numerals

namespace SemanticLayer.Environment

-- The values that are put in are no parts of the text: what stands in them makes no difference.

-- A name without braces is as long as it can be, a name in braces as short.
inductive Cuts : List Char → List Token → Prop where
  | done : Cuts [] []
  | plain : c ≠ '$' → Cuts rest tokens → Cuts (c :: rest) (.plain c :: tokens)
  | lone : rest.head? ≠ some '\x7b' → Stops isNameChar rest → Cuts rest tokens →
      Cuts ('$' :: rest) (.plain '$' :: tokens)
  | bare : name ≠ [] → (∀ c ∈ name, isNameChar c = true) → Stops isNameChar rest →
      Cuts rest tokens → Cuts ('$' :: (name ++ rest)) (.mention (String.ofList name) :: tokens)
  | closed : '\x7d' ∉ name → Cuts rest tokens →
      Cuts ('$' :: '\x7b' :: (name ++ '\x7d' :: rest)) (.mention (String.ofList name) :: tokens)
  | unclosed : '\x7d' ∉ name →
      Cuts ('$' :: '\x7b' :: name) [.mention (String.ofList name)]

inductive Token.Stands (env : Environment) : Token → String → Prop where
  | plain : Stands env (.plain c) (String.singleton c)
  | mention : env.value? name = some value → Stands env (.mention name) value

def Unset (env : Environment) (name : String) (tokens : List Token) : Prop :=
  ∃ before after, tokens = before ++ .mention name :: after ∧ env.value? name = none ∧
    ∀ token ∈ before, ∃ piece, token.Stands env piece

def Token.meaning (env : Environment) : Token → Except String String
  | .plain c => .ok (String.singleton c)
  | .mention name =>
      match env.value? name with
      | some value => .ok value
      | none => .error name

def total (env : Environment) : List Token → Except String String
  | [] => .ok ""
  | token :: tokens => do
      let piece ← token.meaning env
      return piece ++ (← total env tokens)

section
variable {env other : Environment} {text rest : List Char} {tokens : List Token}

theorem dropWhile_stops (kind : Char → Bool) (text : List Char) : Stops kind (text.dropWhile kind) := by
  intro c first
  have stopped := List.head?_dropWhile_not kind text
  rw [Option.mem_def.mp first] at stopped
  exact stopped

theorem dropWhile_run {kind : Char → Bool} (all : ∀ c ∈ name, kind c = true)
    (stops : Stops kind rest) : (name ++ rest).dropWhile kind = rest := by
  have whole := List.takeWhile_append_dropWhile (p := kind) (l := name ++ rest)
  rw [takeWhile_run all stops] at whole
  exact List.append_cancel_left whole

theorem stops_unnamed (unnamed : text.takeWhile isNameChar = []) : Stops isNameChar text := by
  intro c first
  obtain ⟨rest, rfl⟩ := List.head?_eq_some_iff.mp first
  cases kind : isNameChar c with
  | false => rfl
  | true => simp [kind] at unnamed

theorem brace_unnamed : isNameChar '\x7b' = false := by decide +kernel

theorem name_unbraced (written : name ≠ []) (all : ∀ c ∈ name, isNameChar c = true) (inner : List Char) :
    name ++ rest ≠ '\x7b' :: inner := by
  obtain ⟨c, others, rfl⟩ := List.exists_cons_of_ne_nil written
  intro same
  have named := all c List.mem_cons_self
  rw [(List.cons.inj same).1, brace_unnamed] at named
  cases named

theorem cut_cuts (text : List Char) : Cuts text (cut text) := by
  fun_induction cut text with
  | case1 => exact .done
  | case2 text name ih =>
    have inside : '\x7d' ∉ name := fun present => by
      simpa using List.mem_takeWhile_imp present
    have whole : name ++ text.dropWhile (· ≠ '\x7d') = text := List.takeWhile_append_dropWhile
    cases after : text.dropWhile (· ≠ '\x7d') with
    | nil =>
      rw [after, List.append_nil] at whole
      rw [List.drop_nil, cut, ← whole]
      exact .unclosed inside
    | cons c rest =>
      have brace : c = '\x7d' := by
        have stops := dropWhile_stops (· ≠ '\x7d') text
        rw [after] at stops
        simpa using stops c rfl
      rw [after, brace] at whole ih
      rw [← whole]
      exact .closed inside ih
  | case3 text unbraced unnamed ih =>
    have apart : text.head? ≠ some '\x7b' := fun first => by
      obtain ⟨rest, same⟩ := List.head?_eq_some_iff.mp first
      exact unbraced rest same
    exact .lone apart (stops_unnamed unnamed) ih
  | case4 text unbraced named ih =>
    have read := Cuts.bare named (fun c present => List.mem_takeWhile_imp present)
      (dropWhile_stops isNameChar text) ih
    rwa [List.takeWhile_append_dropWhile] at read
  | case5 c text unbraced other ih => exact .plain other ih

theorem cut_plain (other : c ≠ '$') (text : List Char) : cut (c :: text) = .plain c :: cut text := by
  rw [cut]
  · exact fun _ same _ => other same
  · exact other

theorem cut_lone (apart : rest.head? ≠ some '\x7b') (stops : Stops isNameChar rest) :
    cut ('$' :: rest) = .plain '$' :: cut rest := by
  rw [cut, takeWhile_stops stops]
  exact fun inner same => apart (by rw [same]; rfl)

theorem cut_bare (written : name ≠ []) (all : ∀ c ∈ name, isNameChar c = true)
    (stops : Stops isNameChar rest) :
    cut ('$' :: (name ++ rest)) = .mention (String.ofList name) :: cut rest := by
  rw [cut, takeWhile_run all stops, dropWhile_run all stops]
  · split
    · exact absurd rfl written
    · rfl
  · exact name_unbraced written all

theorem inside_run {name : List Char} (inside : '\x7d' ∉ name) :
    ∀ c ∈ name, decide (c ≠ '\x7d') = true :=
  fun _ present => decide_eq_true fun same => inside (same ▸ present)

theorem cut_closed {name : List Char} (inside : '\x7d' ∉ name) (rest : List Char) :
    cut ('$' :: '\x7b' :: (name ++ '\x7d' :: rest)) = .mention (String.ofList name) :: cut rest := by
  have all := inside_run inside
  have stops : Stops (fun c => decide (c ≠ '\x7d')) ('\x7d' :: rest) := stops_cons (by simp) rest
  rw [cut, takeWhile_run all stops, dropWhile_run all stops, List.drop_one, List.tail_cons]

theorem cut_unclosed {name : List Char} (inside : '\x7d' ∉ name) :
    cut ('$' :: '\x7b' :: name) = [.mention (String.ofList name)] := by
  have all := inside_run inside
  have stops := stops_nil fun c => decide (c ≠ '\x7d')
  have word := takeWhile_run all stops
  have after := dropWhile_run all stops
  rw [List.append_nil] at word after
  rw [cut, word, after, List.drop_nil, cut]

theorem cuts_cut (cuts : Cuts text tokens) : cut text = tokens := by
  induction cuts with
  | done => rw [cut]
  | plain other _ ih => rw [cut_plain other, ih]
  | lone apart stops _ ih => rw [cut_lone apart stops, ih]
  | bare written all stops _ ih => rw [cut_bare written all stops, ih]
  | closed inside _ ih => rw [cut_closed inside, ih]
  | unclosed inside => exact cut_unclosed inside

theorem cuts_iff (text : List Char) (tokens : List Token) : Cuts text tokens ↔ tokens = cut text := by
  constructor
  · intro cuts
    exact (cuts_cut cuts).symm
  · rintro rfl
    exact cut_cuts text

theorem braced_closed (inside : '\x7d' ∉ name) (made : String) (rest : List Char) :
    braced made (name ++ '\x7d' :: rest) = (made ++ String.ofList name, rest) := by
  induction name generalizing made with
  | nil => simp [braced]
  | cons c name ih =>
    rw [List.mem_cons, not_or] at inside
    rw [List.cons_append, braced, if_neg (Ne.symm inside.1), ih inside.2, String.push_eq_append,
      String.append_assoc, String.ofList_cons]

theorem braced_unclosed (inside : '\x7d' ∉ name) (made : String) :
    braced made name = (made ++ String.ofList name, []) := by
  induction name generalizing made with
  | nil => simp [braced]
  | cons c name ih =>
    rw [List.mem_cons, not_or] at inside
    rw [braced, if_neg (Ne.symm inside.1), ih inside.2, String.push_eq_append,
      String.append_assoc, String.ofList_cons]

theorem bare_run (all : ∀ c ∈ name, isNameChar c = true) (stops : Stops isNameChar rest)
    (made : String) : bare made (name ++ rest) = (made ++ String.ofList name, rest) := by
  induction name generalizing made with
  | nil =>
    cases rest with
    | nil => simp [bare]
    | cons c rest => simp [bare, stops c rfl]
  | cons c name ih =>
    obtain ⟨first, later⟩ := List.forall_mem_cons.mp all
    rw [List.cons_append, bare, if_pos first, ih later, String.push_eq_append,
      String.append_assoc, String.ofList_cons]

theorem named_closed (inside : '\x7d' ∉ name) (rest : List Char) :
    named? ('\x7b' :: (name ++ '\x7d' :: rest)) = some (String.ofList name, rest) := by
  rw [named?, braced_closed inside, String.empty_append]

theorem named_unclosed (inside : '\x7d' ∉ name) :
    named? ('\x7b' :: name) = some (String.ofList name, []) := by
  rw [named?, braced_unclosed inside, String.empty_append]

theorem named_unbraced (unbraced : ∀ inner, text ≠ '\x7b' :: inner) :
    named? text = if (bare "" text).1.isEmpty then none else some (bare "" text) := by
  rw [named?]
  exact unbraced

theorem named_bare (written : name ≠ []) (all : ∀ c ∈ name, isNameChar c = true)
    (stops : Stops isNameChar rest) : named? (name ++ rest) = some (String.ofList name, rest) := by
  have started : (String.ofList name).isEmpty = false := by simpa using written
  rw [named_unbraced (name_unbraced written all), bare_run all stops, String.empty_append, started]
  rfl

theorem named_lone (apart : rest.head? ≠ some '\x7b') (stops : Stops isNameChar rest) :
    named? rest = none := by
  have unbraced : ∀ inner, rest ≠ '\x7b' :: inner := fun inner same => apart (by rw [same]; rfl)
  have unnamed : bare "" ([] ++ rest) = ("", rest) := bare_run (by simp) stops ""
  rw [named_unbraced unbraced, ← List.nil_append rest, unnamed]
  rfl

theorem fill_done (made : String) : fill env made [] = (made ++ ·) <$> total env [] := by
  rw [fill]
  exact congrArg Except.ok String.append_empty.symm

theorem total_piece {token : Token} (meant : token.meaning env = .ok piece) (made : String) :
    (made ++ ·) <$> total env (token :: tokens) = ((made ++ piece) ++ ·) <$> total env tokens := by
  rw [total, meant]
  cases total env tokens with
  | error name => rfl
  | ok result => exact congrArg Except.ok String.append_assoc.symm

theorem fill_plain (apart : c ≠ '$') (ih : ∀ made, fill env made text = (made ++ ·) <$> total env tokens)
    (made : String) :
    fill env made (c :: text) = (made ++ ·) <$> total env (.plain c :: tokens) := by
  rw [fill, if_neg apart, ih, String.push_eq_append, total_piece rfl]

theorem fill_lone (read : named? text = none)
    (ih : ∀ made, fill env made text = (made ++ ·) <$> total env tokens) (made : String) :
    fill env made ('$' :: text) = (made ++ ·) <$> total env (.plain '$' :: tokens) := by
  rw [fill, if_pos rfl]
  split
  · rw [ih, String.push_eq_append, total_piece rfl]
  · rename_i found
    cases read.symm.trans found

theorem fill_mention (read : named? text = some (name, rest))
    (ih : ∀ made, fill env made rest = (made ++ ·) <$> total env tokens) (made : String) :
    fill env made ('$' :: text) = (made ++ ·) <$> total env (.mention name :: tokens) := by
  rw [fill, if_pos rfl]
  split
  · rename_i found
    cases read.symm.trans found
  · rename_i found
    cases read.symm.trans found
    split
    · rename_i value known
      have meant : (Token.mention name).meaning env = .ok value := by rw [Token.meaning, known]
      rw [ih, total_piece meant]
    · rename_i missing
      rw [total, Token.meaning, missing]
      rfl

theorem fill_total (cuts : Cuts text tokens) (made : String) :
    fill env made text = (made ++ ·) <$> total env tokens := by
  induction cuts generalizing made with
  | done => exact fill_done made
  | plain apart _ ih => exact fill_plain apart ih made
  | lone apart stops _ ih => exact fill_lone (named_lone apart stops) ih made
  | bare written all stops _ ih => exact fill_mention (named_bare written all stops) ih made
  | closed inside _ ih => exact fill_mention (named_closed inside _) ih made
  | unclosed inside => exact fill_mention (named_unclosed inside) fill_done made

theorem expand_total (env : Environment) {text : String} (cuts : Cuts text.toList tokens) :
    env.expand text = total env tokens := by
  rw [expand, fill_total cuts]
  cases total env tokens with
  | error name => rfl
  | ok result => exact congrArg Except.ok String.empty_append

theorem meaning_ok {token : Token} : token.meaning env = .ok piece ↔ token.Stands env piece := by
  constructor
  · intro meant
    cases token with
    | plain c =>
      cases meant
      exact .plain
    | mention name =>
      cases known : env.value? name with
      | none => simp [Token.meaning, known] at meant
      | some value =>
        simp only [Token.meaning, known, Except.ok.injEq] at meant
        exact .mention (meant ▸ known)
  · intro stands
    cases stands with
    | plain => rfl
    | mention known => rw [Token.meaning, known]

theorem meaning_error {token : Token} :
    token.meaning env = .error name ↔ token = .mention name ∧ env.value? name = none := by
  constructor
  · intro failed
    cases token with
    | plain c => cases failed
    | mention called =>
      cases known : env.value? called with
      | none =>
        simp only [Token.meaning, known, Except.error.injEq] at failed
        exact ⟨by rw [failed], failed ▸ known⟩
      | some value => simp [Token.meaning, known] at failed
  · rintro ⟨rfl, missing⟩
    rw [Token.meaning, missing]

theorem total_ok : total env tokens = .ok result ↔
    ∃ pieces, List.Forall₂ (Token.Stands env) tokens pieces ∧ result = String.join pieces := by
  induction tokens generalizing result with
  | nil =>
    constructor
    · intro done
      cases done
      exact ⟨[], .nil, rfl⟩
    · rintro ⟨_, ⟨⟩, rfl⟩
      rfl
  | cons token tokens ih =>
    constructor
    · intro done
      obtain ⟨piece, meant, done⟩ := bind_parts done
      obtain ⟨last, later, done⟩ := bind_parts done
      cases done
      obtain ⟨pieces, stand, rfl⟩ := ih.mp later
      exact ⟨piece :: pieces, .cons (meaning_ok.mp meant) stand, String.join_cons.symm⟩
    · rintro ⟨_, stand, rfl⟩
      cases stand with
      | cons first later =>
        rw [total, meaning_ok.mpr first, ih.mpr ⟨_, later, rfl⟩, String.join_cons]
        rfl

theorem total_error : total env tokens = .error name ↔ Unset env name tokens := by
  induction tokens with
  | nil =>
    constructor
    · rintro ⟨⟩
    · rintro ⟨before, after, same, _⟩
      simp at same
  | cons token tokens ih =>
    constructor
    · intro failed
      rcases bind_failed failed with first | ⟨piece, meant, failed⟩
      · obtain ⟨rfl, missing⟩ := meaning_error.mp first
        exact ⟨[], tokens, rfl, missing, by simp⟩
      · rcases bind_failed failed with later | ⟨_, _, ⟨⟩⟩
        obtain ⟨before, after, rfl, missing, stand⟩ := ih.mp later
        exact ⟨token :: before, after, rfl, missing,
          List.forall_mem_cons.mpr ⟨⟨piece, meaning_ok.mp meant⟩, stand⟩⟩
    · rintro ⟨before, after, same, missing, stand⟩
      cases before with
      | nil =>
        obtain ⟨rfl, rfl⟩ := List.cons.inj same
        rw [total, meaning_error.mpr ⟨rfl, missing⟩]
        rfl
      | cons first before =>
        obtain ⟨rfl, rfl⟩ := List.cons.inj same
        obtain ⟨⟨piece, stands⟩, later⟩ := List.forall_mem_cons.mp stand
        rw [total, meaning_ok.mpr stands, ih.mpr ⟨before, after, rfl, missing, later⟩]
        rfl

theorem total_append (one two : List Token) :
    total env (one ++ two) = do return (← total env one) ++ (← total env two) := by
  induction one with
  | nil =>
    rw [List.nil_append]
    cases total env two with
    | error name => rfl
    | ok result => exact congrArg Except.ok String.empty_append.symm
  | cons token one ih =>
    rw [List.cons_append, total, total, ih]
    cases token.meaning env with
    | error name => rfl
    | ok piece =>
      cases total env one with
      | error name => rfl
      | ok first =>
        cases total env two with
        | error name => rfl
        | ok second => exact congrArg Except.ok String.append_assoc.symm

theorem total_agree (agree : ∀ name, .mention name ∈ tokens → other.value? name = env.value? name) :
    total other tokens = total env tokens := by
  induction tokens with
  | nil => rfl
  | cons token tokens ih =>
    have same : token.meaning other = token.meaning env := by
      cases token with
      | plain c => rfl
      | mention name => rw [Token.meaning, Token.meaning, agree name List.mem_cons_self]
    rw [total, total, same, ih fun name member => agree name (List.mem_cons_of_mem token member)]

end

-- Either every variable in the text is set, and the result is what its parts stand for, or the first
-- one that is not set is named. Two results are put together where the texts keep their parts when
-- they are put together; that is not so where a name of the first goes on in the second.
theorem texts_expanded (env : Environment) :
    (∀ text : String, ∃ tokens, (∀ others, Cuts text.toList others ↔ others = tokens) ∧
      (∀ result, env.expand text = .ok result ↔
        ∃ pieces, List.Forall₂ (Token.Stands env) tokens pieces ∧ result = String.join pieces) ∧
      (∀ name, env.expand text = .error name ↔ Unset env name tokens) ∧
      ∀ other : Environment, (∀ name, .mention name ∈ tokens → other.value? name = env.value? name) →
        other.expand text = env.expand text) ∧
    ∀ (first second : String) one two, Cuts first.toList one → Cuts second.toList two →
      Cuts (first ++ second).toList (one ++ two) →
      env.expand (first ++ second) = do return (← env.expand first) ++ (← env.expand second) := by
  constructor
  · intro text
    have cuts := cut_cuts text.toList
    refine ⟨_, cuts_iff text.toList, fun result => ?_, fun name => ?_, fun other agree => ?_⟩
    · rw [expand_total env cuts]
      exact total_ok
    · rw [expand_total env cuts]
      exact total_error
    · rw [expand_total other cuts, expand_total env cuts]
      exact total_agree agree
  · intro first second one two cutsFirst cutsSecond cutsWhole
    rw [expand_total env cutsWhole, expand_total env cutsFirst, expand_total env cutsSecond]
    exact total_append one two

namespace Deployment

def shell : Environment := [("DATA_DIR", "/srv/$STAGE"), ("STAGE", "test")]

theorem path_expanded :
    Cuts "$\x7bDATA_DIR\x7d/".toList [.mention "DATA_DIR", .plain '/'] ∧
    Cuts "$STAGE.$".toList [.mention "STAGE", .plain '.', .plain '$'] ∧
    Cuts ("$\x7bDATA_DIR\x7d/" ++ "$STAGE.$").toList
      ([.mention "DATA_DIR", .plain '/'] ++ [.mention "STAGE", .plain '.', .plain '$']) ∧
    shell.expand ("$\x7bDATA_DIR\x7d/" ++ "$STAGE.$") = do
      return (← shell.expand "$\x7bDATA_DIR\x7d/") ++ (← shell.expand "$STAGE.$") := by
  have first : Cuts "$\x7bDATA_DIR\x7d/".toList [.mention "DATA_DIR", .plain '/'] :=
    (cuts_iff _ _).mpr (by decide +kernel)
  have second : Cuts "$STAGE.$".toList [.mention "STAGE", .plain '.', .plain '$'] :=
    (cuts_iff _ _).mpr (by decide +kernel)
  have whole : Cuts ("$\x7bDATA_DIR\x7d/" ++ "$STAGE.$").toList
      ([.mention "DATA_DIR", .plain '/'] ++ [.mention "STAGE", .plain '.', .plain '$']) :=
    (cuts_iff _ _).mpr (by decide +kernel)
  exact ⟨first, second, whole, (texts_expanded shell).2 _ _ _ _ first second whole⟩

example : shell.expand "$\x7bDATA_DIR\x7d/$STAGE.$" = .ok "/srv/$STAGE/test.$" := by decide +kernel

example : shell.expand "$STAGE$NAME$\x7bDATA_DIR" = .error "NAME" := by decide +kernel

end Deployment

end SemanticLayer.Environment
