import Mathlib.Data.List.TakeWhile
import Mathlib.Tactic.Ring
import SemanticLayer.Calendar

namespace SemanticLayer

-- Numbers, dates and times can be told from their texts, whatever follows them: each part of a text
-- is a longest run of characters of one kind.

def Stops (kind : Char → Bool) (rest : List Char) : Prop := ∀ c ∈ rest.head?, kind c = false

theorem stops_nil (kind : Char → Bool) : Stops kind [] := by simp [Stops]

theorem stops_cons {kind : Char → Bool} (other : kind c = false) (rest : List Char) :
    Stops kind (c :: rest) := by simpa [Stops] using other

theorem takeWhile_stops {kind : Char → Bool} (stops : Stops kind rest) : rest.takeWhile kind = [] := by
  cases rest with
  | nil => rfl
  | cons c rest => exact List.takeWhile_cons_of_neg (by simp [stops c rfl])

theorem takeWhile_run {kind : Char → Bool} (all : ∀ c ∈ run, kind c = true) (stops : Stops kind rest) :
    (run ++ rest).takeWhile kind = run := by
  rw [List.takeWhile_append_of_pos all, takeWhile_stops stops, List.append_nil]

theorem run_split {kind : Char → Bool} (all : ∀ c ∈ run, kind c = true) (stops : Stops kind rest)
    (every : ∀ c ∈ other, kind c = true) (halts : Stops kind more) (same : run ++ rest = other ++ more) :
    run = other ∧ rest = more := by
  have runs : run = other := by rw [← takeWhile_run all stops, same, takeWhile_run every halts]
  subst runs
  exact ⟨rfl, List.append_cancel_left same⟩

theorem numeral_list (n : Nat) : (toString n).toList = Nat.toDigits 10 n := by
  rw [Nat.toString_eq_repr, Nat.repr, String.toList_ofList]

theorem numeral_digits (n : Nat) : ∀ c ∈ (toString n).toList, c.isDigit = true := by
  rw [numeral_list]
  exact fun c present => Nat.isDigit_of_mem_toDigits (by decide) (by decide) present

theorem numeral_value (n : Nat) : Nat.ofDigitChars 10 (toString n).toList 0 = n := by
  rw [numeral_list, Nat.ofDigitChars_ten_toDigits]

theorem numeral_written (n : Nat) : (toString n).toList ≠ [] := by simp [Nat.toDigits_ne_nil]

theorem zeros_shift (k start : Nat) :
    Nat.ofDigitChars 10 (List.replicate k '0') start = start * 10 ^ k := by
  induction k generalizing start with
  | zero => simp [Nat.ofDigitChars]
  | succ k ih =>
    rw [List.replicate_succ, Nat.ofDigitChars_cons, ih, Nat.pow_succ]
    simp
    ring

theorem padded_list (width n : Nat) : (padded width n).toList =
    List.replicate (width - (toString n).length) '0' ++ (toString n).toList := by
  simp [padded]

theorem padded_value (width n : Nat) : Nat.ofDigitChars 10 (padded width n).toList 0 = n := by
  rw [padded_list, Nat.ofDigitChars_append, zeros_shift, Nat.zero_mul, numeral_value]

theorem padded_digits (width n : Nat) : ∀ c ∈ (padded width n).toList, c.isDigit = true := by
  intro c present
  rw [padded_list] at present
  rcases List.mem_append.mp present with zero | digit
  · rw [List.eq_of_mem_replicate zero]
    rfl
  · exact numeral_digits n c digit

theorem padded_starts (width n : Nat) (rest : List Char) :
    Stops (!·.isDigit) ((padded width n).toList ++ rest) := by
  have written : (padded width n).toList ≠ [] := by
    simp [padded_list, Nat.toDigits_ne_nil]
  obtain ⟨c, others, same⟩ := List.exists_cons_of_ne_nil written
  have digit := padded_digits width n c (by rw [same]; exact List.mem_cons_self)
  rw [same]
  exact stops_cons (by simp [digit]) _

theorem padded_read (stops : Stops Char.isDigit rest) (halts : Stops Char.isDigit more)
    (same : (padded width n).toList ++ rest = (padded width m).toList ++ more) :
    n = m ∧ rest = more := by
  obtain ⟨digits, after⟩ := run_split (padded_digits width n) stops (padded_digits width m) halts same
  exact ⟨by rw [← padded_value width n, digits, padded_value], after⟩

theorem integer_list (n : Int) :
    (toString n).toList = (if n < 0 then ['-'] else []) ++ (toString n.natAbs).toList := by
  cases n with
  | ofNat m => simp [Int.toString_eq_repr, Int.repr, Nat.toString_eq_repr]
  | negSucc m => simp [Int.toString_eq_repr, Int.repr, Nat.toString_eq_repr, Int.negSucc_lt_zero]

theorem sign_split {first second : List Char} (signs : ∀ c ∈ first, c.isDigit = false)
    (others : ∀ c ∈ second, c.isDigit = false) (starts : Stops (!·.isDigit) rest)
    (begins : Stops (!·.isDigit) more) (same : first ++ rest = second ++ more) :
    first = second ∧ rest = more :=
  run_split (fun c present => by simp [signs c present]) starts
    (fun c present => by simp [others c present]) begins same

theorem numeral_starts (n : Nat) : Stops (!·.isDigit) (toString n).toList := by
  obtain ⟨c, others, same⟩ := List.exists_cons_of_ne_nil (numeral_written n)
  have digit := numeral_digits n c (by rw [same]; exact List.mem_cons_self)
  rw [same]
  exact stops_cons (by simp [digit]) _

theorem integer_injective {n m : Int} (same : (toString n).toList = (toString m).toList) : n = m := by
  rw [integer_list, integer_list] at same
  obtain ⟨signs, digits⟩ := sign_split (by split <;> simp) (by split <;> simp)
    (numeral_starts n.natAbs) (numeral_starts m.natAbs) same
  have sizes : n.natAbs = m.natAbs := by rw [← numeral_value n.natAbs, digits, numeral_value]
  split at signs <;> split at signs <;> first | omega | cases signs

theorem integer_written (n : Int) : (toString n).toList ≠ [] := by
  rw [integer_list]
  exact fun none => numeral_written _ (List.append_eq_nil_iff.mp none).2

theorem integer_characters (n : Int) : ∀ c ∈ (toString n).toList, c.isDigit = true ∨ c = '-' := by
  intro c present
  rw [integer_list, List.mem_append] at present
  rcases present with sign | digit
  · split at sign <;> simp_all
  · exact .inl (numeral_digits _ c digit)

namespace CivilDate

def sign (d : CivilDate) : List Char :=
  if d.year < 0 then ['-'] else if d.year > 9999 then ['+'] else []

theorem text_parts (d : CivilDate) : d.text.toList =
    d.sign ++ ((padded 4 d.year.natAbs).toList ++
      '-' :: ((padded 2 d.month).toList ++ '-' :: (padded 2 d.day).toList)) := by
  have signed : (if d.year < 0 then "-" else if d.year > 9999 then "+" else "").toList = d.sign := by
    unfold sign
    split
    · rfl
    · split <;> rfl
  simp [text, signed]

theorem sign_plain (d : CivilDate) : ∀ c ∈ d.sign, c.isDigit = false := by
  unfold sign
  split
  · simp
  · split <;> simp

theorem sign_year {d e : CivilDate} (signs : d.sign = e.sign) (sizes : d.year.natAbs = e.year.natAbs) :
    d.year = e.year := by
  unfold sign at signs
  grind

theorem text_read {d e : CivilDate} (stops : Stops Char.isDigit rest) (halts : Stops Char.isDigit more)
    (same : d.text.toList ++ rest = e.text.toList ++ more) : d = e ∧ rest = more := by
  rw [text_parts, text_parts] at same
  simp only [List.append_assoc, List.cons_append] at same
  obtain ⟨signs, same⟩ := sign_split d.sign_plain e.sign_plain
    (padded_starts _ _ _) (padded_starts _ _ _) same
  obtain ⟨years, same⟩ := padded_read (stops_cons rfl _) (stops_cons rfl _) same
  obtain ⟨months, same⟩ := padded_read (stops_cons rfl _) (stops_cons rfl _) (List.cons.inj same).2
  obtain ⟨days, same⟩ := padded_read stops halts (List.cons.inj same).2
  refine ⟨?_, same⟩
  have year := sign_year signs years
  cases d
  cases e
  rw [mk.injEq]
  exact ⟨year, months, days⟩

end CivilDate

namespace Timestamp

-- A leap second follows the last second of a minute.
def Whole (t : Timestamp) : Prop :=
  t.nanosecond = 0 ∧ t.second < 60 ∨ t.nanosecond = 1000000000 ∧ t.second = 59

instance (t : Timestamp) : Decidable t.Whole := inferInstanceAs (Decidable (_ ∨ _))

def shown (t : Timestamp) : Nat := if t.nanosecond < 1000000000 then t.second else t.second + 1

theorem text_parts (t : Timestamp) : t.text.toList =
    t.date.text.toList ++ ' ' :: ((padded 2 t.hour).toList ++
      ':' :: ((padded 2 t.minute).toList ++ ':' :: (padded 2 t.shown).toList)) := by
  simp [text, shown]

theorem shown_whole {t u : Timestamp} (whole : t.Whole) (other : u.Whole) (same : t.shown = u.shown) :
    t.second = u.second ∧ t.nanosecond = u.nanosecond := by
  unfold Whole at whole other
  unfold shown at same
  grind

theorem text_read {t u : Timestamp} (whole : t.Whole) (other : u.Whole)
    (stops : Stops Char.isDigit rest) (halts : Stops Char.isDigit more)
    (same : t.text.toList ++ rest = u.text.toList ++ more) : t = u ∧ rest = more := by
  rw [text_parts, text_parts] at same
  simp only [List.append_assoc, List.cons_append] at same
  obtain ⟨dates, same⟩ := CivilDate.text_read (stops_cons rfl _) (stops_cons rfl _) same
  obtain ⟨hours, same⟩ := padded_read (stops_cons rfl _) (stops_cons rfl _) (List.cons.inj same).2
  obtain ⟨minutes, same⟩ := padded_read (stops_cons rfl _) (stops_cons rfl _) (List.cons.inj same).2
  obtain ⟨seconds, same⟩ := padded_read stops halts (List.cons.inj same).2
  refine ⟨?_, same⟩
  have seconds := shown_whole whole other seconds
  cases t
  cases u
  rw [mk.injEq]
  exact ⟨dates, hours, minutes, seconds⟩

end Timestamp

end SemanticLayer
