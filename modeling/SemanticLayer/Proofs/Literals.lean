import SemanticLayer.Literal
import SemanticLayer.Proofs.Decimals

namespace SemanticLayer

-- A literal can be told from its text, whatever follows it. The word that a text begins with, if it
-- begins with one, and the character after it tell what kind of value it is.

def inWord (c : Char) : Bool := c.isAlphanum || c == '_' || c == '.' || c == '-'

-- What a text may not go on with where a term has ended.
def continues (c : Char) : Bool := inWord c || c == '(' || c == '\x27'

theorem ends_word (ends : Stops continues rest) : Stops inWord rest := by
  intro c present
  have other := ends c present
  simp only [continues, Bool.or_eq_false_iff] at other
  exact other.1.1

theorem ends_quote (ends : Stops continues rest) : Stops (· == '\x27') rest := by
  intro c present
  have other := ends c present
  simp only [continues, Bool.or_eq_false_iff] at other
  exact other.2

def doubled (text : List Char) : List Char := text.flatMap fun c => if c = '\x27' then [c, c] else [c]

theorem quoted_parts (text : String) :
    (Literal.quoted text).toList = '\x27' :: (doubled text.toList ++ ['\x27']) := by
  simp [Literal.quoted, doubled]

theorem doubled_cons (c : Char) (text : List Char) :
    doubled (c :: text) = (if c = '\x27' then [c, c] else [c]) ++ doubled text := by
  simp [doubled]

theorem doubled_head (c : Char) (text rest : List Char) :
    (doubled (c :: text) ++ rest).head? = some c := by
  rw [doubled_cons]
  split <;> simp_all

-- Where a string has no character left, the quote that ends it is not taken for a doubled one.
theorem doubled_ended (stops : Stops (· == '\x27') rest) (c : Char) (text more : List Char) :
    '\x27' :: rest ≠ doubled (c :: text) ++ '\x27' :: more := by
  intro same
  rw [doubled_cons] at same
  split at same
  · cases (List.cons.inj same).2
    exact absurd (stops '\x27' (by simp_all)) (by decide)
  · exact absurd (List.cons.inj same).1.symm ‹_›

theorem doubled_read {first second : List Char} (stops : Stops (· == '\x27') rest)
    (halts : Stops (· == '\x27') more)
    (same : doubled first ++ '\x27' :: rest = doubled second ++ '\x27' :: more) :
    first = second ∧ rest = more := by
  induction first generalizing second with
  | nil =>
    cases second with
    | nil => exact ⟨rfl, (List.cons.inj same).2⟩
    | cons d text => exact absurd same (doubled_ended stops d text more)
  | cons c text ih =>
    cases second with
    | nil => exact absurd same.symm (doubled_ended halts c text rest)
    | cons d others =>
      have heads := congrArg List.head? same
      rw [doubled_head, doubled_head] at heads
      cases heads
      rw [doubled_cons, doubled_cons, List.append_assoc, List.append_assoc] at same
      obtain ⟨rfl, after⟩ := ih (List.append_cancel_left same)
      exact ⟨rfl, after⟩

def Literal.word : Literal → List Char
  | .string _ => []
  | .integer value => (toString value).toList
  | .decimal value => (value.finiteText .plain).toList
  | .boolean value => if value then ['t', 'r', 'u', 'e'] else ['f', 'a', 'l', 's', 'e']
  | .date _ => ['t', 'o', '_', 'd', 'a', 't', 'e']
  | .timestamp _ => ['t', 'o', '_', 't', 'i', 'm', 'e', 's', 't', 'a', 'm', 'p']

def dateEnd : String := "', 'YYYY-MM-DD')"

def timeEnd : String := "', 'YYYY-MM-DD HH24:MI:SS')"

def Literal.after : Literal → List Char
  | .string value => '\x27' :: (doubled value.toList ++ ['\x27'])
  | .date value => '(' :: '\x27' :: (value.text.toList ++ dateEnd.toList)
  | .timestamp value => '(' :: '\x27' :: (value.text.toList ++ timeEnd.toList)
  | .integer _ | .decimal _ | .boolean _ => []

def Literal.Whole : Literal → Prop
  | .timestamp value => value.Whole
  | .string _ | .integer _ | .decimal _ | .boolean _ | .date _ => True

instance : (value : Literal) → Decidable value.Whole
  | .timestamp t => inferInstanceAs (Decidable t.Whole)
  | .string _ | .integer _ | .decimal _ | .boolean _ | .date _ => .isTrue trivial

def Literal.Legible : Literal → Prop
  | .decimal value => value.isFinite = true
  | .timestamp value => value.Whole
  | _ => True

theorem Literal.text_parts {value : Literal} (legible : value.Legible) :
    value.text.toList = value.word ++ value.after := by
  cases value with
  | string text => exact quoted_parts text
  | integer n => simp [text, word, after]
  | decimal x =>
    change x.isFinite = true at legible
    simp [text, word, after, legible]
  | boolean flag => cases flag <;> rfl
  | date d => simp [text, word, after, dateEnd]
  | timestamp t => simp [text, word, after, timeEnd]

def startsNumber (word : List Char) : Bool := word.head?.all fun c => c.isDigit || c == '-'

theorem numeric_inside {word : List Char} (all : ∀ c ∈ word, c.isDigit = true ∨ c ∈ Spelling.marks) :
    ∀ c ∈ word, inWord c = true := by
  intro c present
  rcases all c present with digit | mark
  · simp [inWord, Char.isAlphanum, digit]
  · simp only [Spelling.marks, List.mem_cons, List.not_mem_nil, or_false] at mark
    rcases mark with rfl | rfl | rfl <;> decide

theorem integer_numeric (n : Int) : ∀ c ∈ (toString n).toList, c.isDigit = true ∨ c ∈ Spelling.marks :=
  fun c present => (integer_characters n c present).imp_right fun same => by simp [Spelling.marks, same]

theorem decimal_numeric (x : Binary64) :
    ∀ c ∈ (x.finiteText .plain).toList, c.isDigit = true ∨ c ∈ Spelling.marks := by
  intro c present
  rw [Binary64.finiteText_spelled, List.mem_append] at present
  rcases present with sign | spelled
  · exact .inr (by simp [Spelling.marks, x.sign_plain c sign])
  · exact Spelling.text_characters x.spelling_proper c spelled

theorem Literal.word_inside (value : Literal) : ∀ c ∈ value.word, inWord c = true := by
  cases value with
  | string text => simp [word]
  | integer n => exact numeric_inside (integer_numeric n)
  | decimal x => exact numeric_inside (decimal_numeric x)
  | boolean flag =>
    rw [← List.all_eq_true]
    cases flag <;> rfl
  | date d => exact List.all_eq_true.mp rfl
  | timestamp t => exact List.all_eq_true.mp rfl

theorem signed_number {sign : List Char} (minus : ∀ c ∈ sign, c = '-')
    (starts : Stops (!·.isDigit) rest) : startsNumber (sign ++ rest) = true := by
  unfold startsNumber
  cases sign with
  | cons c sign => simp [minus c]
  | nil =>
    cases rest with
    | nil => rfl
    | cons c rest =>
      have digit := starts c rfl
      simp_all

inductive TextKind where
  | quoted
  | grouped
  | call
  | integer
  | decimal
  | field
  | flag

def TextKind.ofWord (word : List Char) : TextKind :=
  if startsNumber word then if '.' ∈ word ∨ 'e' ∈ word then .decimal else .integer
  else if '.' ∈ word then .field else .flag

def TextKind.ofText (word after : List Char) : TextKind :=
  match after with
  | '\x27' :: _ => .quoted
  | '(' :: _ => if word = [] then .grouped else .call
  | _ => .ofWord word

theorem ofText_ended (ends : Stops continues rest) (word : List Char) :
    TextKind.ofText word rest = .ofWord word := by
  unfold TextKind.ofText
  split
  · exact absurd (ends '\x27' rfl) (by decide)
  · exact absurd (ends '(' rfl) (by decide)
  · rfl

def Literal.kind : Literal → TextKind
  | .string _ => .quoted
  | .integer _ => .integer
  | .decimal _ => .decimal
  | .boolean _ => .flag
  | .date _ | .timestamp _ => .call

theorem integer_plain (n : Int) (present : c ∈ (toString n).toList) : c ≠ '.' ∧ c ≠ 'e' := by
  rcases integer_characters n c present with digit | rfl
  · constructor <;> rintro rfl <;> cases digit
  · decide

theorem integer_kind (n : Int) : TextKind.ofWord (toString n).toList = .integer := by
  have number : startsNumber (toString n).toList = true := by
    rw [integer_list]
    exact signed_number (by split <;> simp) (numeral_starts _)
  have plain : ¬ ('.' ∈ (toString n).toList ∨ 'e' ∈ (toString n).toList) := by
    rintro (point | power)
    · exact (integer_plain n point).1 rfl
    · exact (integer_plain n power).2 rfl
  rw [TextKind.ofWord, if_pos number, if_neg plain]

theorem decimal_kind (x : Binary64) : TextKind.ofWord (x.finiteText .plain).toList = .decimal := by
  rw [Binary64.finiteText_spelled]
  have number := signed_number x.sign_plain (Spelling.text_starts x.spelling_proper)
  have marked := (Spelling.text_marked x.spelling_proper).imp (List.mem_append_right x.sign)
    (List.mem_append_right x.sign)
  rw [TextKind.ofWord, if_pos number, if_pos marked]

theorem Literal.kind_told (ends : Stops continues rest) (value : Literal) :
    TextKind.ofText value.word (value.after ++ rest) = value.kind := by
  cases value with
  | string text => rfl
  | integer n => exact (ofText_ended ends _).trans (integer_kind n)
  | decimal x => exact (ofText_ended ends _).trans (decimal_kind x)
  | boolean flag =>
    refine (ofText_ended ends _).trans ?_
    cases flag <;> rfl
  | date d => rfl
  | timestamp t => rfl

theorem Literal.after_stops (ends : Stops continues rest) (value : Literal) :
    Stops inWord (value.after ++ rest) := by
  cases value with
  | integer _ | decimal _ | boolean _ => exact ends_word ends
  | string _ | date _ | timestamp _ => exact stops_cons rfl _

theorem dateEnd_stops (rest : List Char) : Stops Char.isDigit (dateEnd.toList ++ rest) := by
  simp [Stops, dateEnd]

theorem timeEnd_stops (rest : List Char) : Stops Char.isDigit (timeEnd.toList ++ rest) := by
  simp [Stops, timeEnd]

theorem Literal.read {first second : Literal} (legible : first.Legible) (other : second.Legible)
    (ends : Stops continues rest) (halts : Stops continues more) (kinds : first.kind = second.kind)
    (words : first.word = second.word) (afters : first.after ++ rest = second.after ++ more) :
    first = second ∧ rest = more := by
  cases first <;> cases second <;> try cases kinds
  case string.string one two =>
    simp only [Literal.after, List.cons_append, List.append_assoc, List.cons.injEq, true_and] at afters
    obtain ⟨texts, after⟩ := doubled_read (ends_quote ends) (ends_quote halts) afters
    exact ⟨congrArg _ (String.toList_inj.mp texts), after⟩
  case integer.integer n m => exact ⟨congrArg _ (integer_injective words), afters⟩
  case decimal.decimal x y => exact ⟨congrArg _ (Binary64.finiteText_injective words), afters⟩
  case boolean.boolean one two =>
    refine ⟨?_, afters⟩
    cases one <;> cases two <;> first | rfl | cases words
  case date.date d e =>
    simp only [Literal.after, List.cons_append, List.append_assoc, List.cons.injEq, true_and] at afters
    obtain ⟨rfl, after⟩ := CivilDate.text_read (dateEnd_stops _) (dateEnd_stops _) afters
    exact ⟨rfl, List.append_cancel_left after⟩
  case timestamp.timestamp t u =>
    simp only [Literal.after, List.cons_append, List.append_assoc, List.cons.injEq, true_and] at afters
    obtain ⟨rfl, after⟩ := Timestamp.text_read legible other (timeEnd_stops _) (timeEnd_stops _) afters
    exact ⟨rfl, List.append_cancel_left after⟩
  case date.timestamp => cases words
  case timestamp.date => cases words

end SemanticLayer
