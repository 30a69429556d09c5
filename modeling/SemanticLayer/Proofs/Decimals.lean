import SemanticLayer.Number.Notation
import SemanticLayer.Proofs.Numerals
import SemanticLayer.Proofs.Rounding

namespace SemanticLayer

-- A finite number can be told from its text: the text tells a decimal, the decimal a magnitude, and
-- sign and magnitude tell the bits.

-- There is no point without a fraction, and no exponent for the power zero.
structure Spelling where
  whole : List Char
  fraction : List Char
  power : Int

namespace Spelling

def ending (power : Int) : List Char := if power = 0 then [] else 'e' :: (toString power).toList

def tail (fraction : List Char) (power : Int) : List Char :=
  if fraction = [] then ending power else '.' :: fraction ++ ending power

def text (s : Spelling) : List Char := s.whole ++ tail s.fraction s.power

def value (s : Spelling) : ℚ :=
  Nat.ofDigitChars 10 (s.whole ++ s.fraction) 0 * (10 : ℚ) ^ (s.power - s.fraction.length)

structure Proper (s : Spelling) : Prop where
  starts : s.whole ≠ []
  digits : ∀ c ∈ s.whole, c.isDigit = true
  places : ∀ c ∈ s.fraction, c.isDigit = true
  -- An integer is not spelled like that.
  marked : s.fraction ≠ [] ∨ s.power ≠ 0

theorem ending_stops (power : Int) : Stops Char.isDigit (ending power) := by
  unfold ending
  split
  · exact stops_nil _
  · exact stops_cons rfl _

theorem tail_stops (fraction : List Char) (power : Int) : Stops Char.isDigit (tail fraction power) := by
  unfold tail
  split
  · exact ending_stops power
  · exact stops_cons rfl _

theorem ending_injective {p q : Int} (same : ending p = ending q) : p = q := by
  unfold ending at same
  split at same <;> split at same
  · omega
  · cases same
  · cases same
  · exact integer_injective (List.cons.inj same).2

theorem tail_injective {first second : List Char} (digits : ∀ c ∈ first, c.isDigit = true)
    (others : ∀ c ∈ second, c.isDigit = true) (same : tail first p = tail second q) :
    first = second ∧ p = q := by
  have dotless (power : Int) (rest : List Char) : ending power ≠ '.' :: rest := by
    unfold ending
    split <;> simp
  unfold tail at same
  split at same <;> split at same
  · rename_i empty void
    exact ⟨empty.trans void.symm, ending_injective same⟩
  · exact absurd same (dotless p _)
  · exact absurd same.symm (dotless q _)
  · obtain ⟨places, powers⟩ := run_split digits (ending_stops p) others (ending_stops q)
      (List.cons.inj same).2
    exact ⟨places, ending_injective powers⟩

theorem text_starts {s : Spelling} (proper : s.Proper) : Stops (!·.isDigit) s.text := by
  obtain ⟨first, rest, same⟩ := List.exists_cons_of_ne_nil proper.starts
  rw [text, same]
  exact stops_cons (by simp [proper.digits first (by simp [same])]) _

def marks : List Char := ['.', 'e', '-']

theorem ending_characters (power : Int) : ∀ c ∈ ending power, c.isDigit = true ∨ c ∈ marks := by
  unfold ending
  split
  · simp
  · intro c present
    rw [List.mem_cons] at present
    rcases present with rfl | present
    · exact .inr (by decide)
    · exact (integer_characters power c present).imp_right fun same => by simp [marks, same]

theorem text_characters {s : Spelling} (proper : s.Proper) :
    ∀ c ∈ s.text, c.isDigit = true ∨ c ∈ marks := by
  unfold text tail
  intro c present
  have ending := ending_characters s.power c
  split at present <;> simp only [List.mem_append, List.mem_cons] at present
  · rcases present with whole | last
    · exact .inl (proper.digits c whole)
    · exact ending last
  · rcases present with whole | (rfl | fraction) | last
    · exact .inl (proper.digits c whole)
    · exact .inr (by decide)
    · exact .inl (proper.places c fraction)
    · exact ending last

theorem text_marked {s : Spelling} (proper : s.Proper) : '.' ∈ s.text ∨ 'e' ∈ s.text := by
  unfold text tail ending
  rcases proper.marked with fraction | power
  · simp [fraction]
  · rw [if_neg power]
    split <;> simp

theorem text_injective {s t : Spelling} (proper : s.Proper) (other : t.Proper)
    (same : s.text = t.text) : s = t := by
  obtain ⟨wholes, tails⟩ := run_split proper.digits (tail_stops _ _) other.digits (tail_stops _ _) same
  obtain ⟨fractions, powers⟩ := tail_injective proper.places other.places tails
  cases s
  cases t
  rw [mk.injEq]
  exact ⟨wholes, fractions, powers⟩

end Spelling

def DecimalForm.spelling (d : DecimalForm) : Spelling :=
  let digits := (toString d.digits).toList
  let point : Int := digits.length + d.exponent
  if 0 ≤ d.exponent ∧ point ≤ 16 then ⟨digits ++ zeros d.exponent.toNat, ['0'], 0⟩
  else if 0 < point ∧ point ≤ 16 then ⟨digits.take point.toNat, digits.drop point.toNat, 0⟩
  else if -5 < point ∧ point ≤ 0 then ⟨['0'], zeros (-point).toNat ++ digits, 0⟩
  else ⟨digits.take 1, digits.drop 1, point - 1⟩

theorem DecimalForm.text_spelled (d : DecimalForm) : (d.text .plain).toList = d.spelling.text := by
  have written := numeral_written d.digits
  unfold text spelling
  dsimp only
  generalize (toString d.digits).toList = digits at written
  split
  · simp [Spelling.text, Spelling.tail, Spelling.ending]
  · split
    · have places : digits.drop ((digits.length : Int) + d.exponent).toNat ≠ [] := by
        rw [ne_eq, List.drop_eq_nil_iff]
        omega
      simp [Spelling.text, Spelling.tail, Spelling.ending, places]
    · split
      · simp [Spelling.text, Spelling.tail, Spelling.ending, written]
      · have power : (digits.length : Int) + d.exponent - 1 ≠ 0 := by omega
        obtain ⟨first, rest, rfl⟩ := List.exists_cons_of_ne_nil written
        cases rest with
        | nil => simp_all [Spelling.text, Spelling.tail, Spelling.ending, ExponentStyle.text]
        | cons second rest =>
          simp_all [Spelling.text, Spelling.tail, Spelling.ending, ExponentStyle.text]

theorem zeros_digits (k : Nat) : ∀ c ∈ zeros k, c.isDigit = true := by
  intro c present
  rw [List.eq_of_mem_replicate present]
  rfl

theorem DecimalForm.spelling_proper (d : DecimalForm) : d.spelling.Proper := by
  have written := numeral_written d.digits
  have digits := numeral_digits d.digits
  unfold spelling
  dsimp only
  generalize (toString d.digits).toList = numeral at written digits
  have size := List.length_pos_iff.mpr written
  split
  · exact ⟨by simp [written], List.forall_mem_append.mpr ⟨digits, zeros_digits _⟩, by simp,
      .inl (by simp)⟩
  · split
    · refine ⟨?_, fun c present => digits c (List.mem_of_mem_take present),
        fun c present => digits c (List.mem_of_mem_drop present), .inl ?_⟩
      · simp [written]
        omega
      · rw [ne_eq, List.drop_eq_nil_iff]
        omega
    · split
      · exact ⟨by simp, by simp, List.forall_mem_append.mpr ⟨zeros_digits _, digits⟩,
          .inl (by simp [written])⟩
      · refine ⟨by simp [written], fun c present => digits c (List.mem_of_mem_take present),
          fun c present => digits c (List.mem_of_mem_drop present), .inr ?_⟩
        dsimp only
        omega

theorem DecimalForm.spelling_value (d : DecimalForm) : d.spelling.value = d.value := by
  have written := numeral_written d.digits
  have read := numeral_value d.digits
  unfold spelling value
  dsimp only
  generalize (toString d.digits).toList = digits at written read
  have size := List.length_pos_iff.mpr written
  split
  · rename_i full
    obtain ⟨k, power⟩ := Int.eq_ofNat_of_zero_le full.1
    simp only [Spelling.value, zeros, Nat.ofDigitChars_append, zeros_shift, read, power]
    simp [Nat.ofDigitChars_cons]
    ring
  · split
    · have power : (0 : Int) - (digits.drop ((digits.length : Int) + d.exponent).toNat).length =
          d.exponent := by
        rw [List.length_drop]
        omega
      simp only [Spelling.value, List.take_append_drop, read, power]
    · split
      · have power : (0 : Int) - (zeros (-((digits.length : Int) + d.exponent)).toNat ++ digits).length =
            d.exponent := by
          rw [List.length_append, zeros, List.length_replicate]
          omega
        simp only [Spelling.value, power]
        simp only [zeros, Nat.ofDigitChars_append, zeros_shift, ← read]
        simp [Nat.ofDigitChars_cons]
      · have power : (digits.length : Int) + d.exponent - 1 - (digits.drop 1).length = d.exponent := by
          rw [List.length_drop]
          omega
        simp only [Spelling.value, List.take_append_drop, read, power]

namespace Binary64

theorem exponentField_bits (x : Binary64) : x.exponentField = x.bits.toNat / 2 ^ 52 % 2 ^ 11 := by
  unfold exponentField
  rw [UInt64.toNat_and, UInt64.toNat_shiftRight]
  simp only [UInt64.reduceToNat, Nat.reduceMod, Nat.shiftRight_eq_div_pow]
  exact Nat.and_two_pow_sub_one_eq_mod _ 11

theorem fraction_bits (x : Binary64) : x.fraction = x.bits.toNat % 2 ^ 52 := by
  unfold fraction
  rw [UInt64.toNat_and]
  exact Nat.and_two_pow_sub_one_eq_mod _ 52

theorem isNegative_bits (x : Binary64) : x.isNegative = true ↔ x.bits.toNat / 2 ^ 63 = 1 := by
  have size := x.bits.toNat_lt
  unfold isNegative
  rw [bne_iff_ne, ne_eq, ← UInt64.toNat_inj, UInt64.toNat_shiftRight]
  simp only [UInt64.reduceToNat, Nat.reduceMod, Nat.shiftRight_eq_div_pow]
  omega

theorem fields_injective {x y : Binary64} (sign : x.isNegative = y.isNegative)
    (exponent : x.exponentField = y.exponentField) (fraction : x.fraction = y.fraction) : x = y := by
  have one := x.bits.toNat_lt
  have two := y.bits.toNat_lt
  rw [exponentField_bits, exponentField_bits] at exponent
  rw [fraction_bits, fraction_bits] at fraction
  rw [Bool.eq_iff_iff, isNegative_bits, isNegative_bits] at sign
  obtain ⟨bits⟩ := x
  obtain ⟨others⟩ := y
  rw [mk.injEq, ← UInt64.toNat_inj]
  dsimp only at *
  omega

theorem fraction_small (x : Binary64) : x.fraction < 2 ^ 52 := by
  rw [fraction_bits]
  exact Nat.mod_lt _ (by decide)

theorem magnitude_canonical {x : Binary64} (nonzero : ¬ (x.exponentField = 0 ∧ x.fraction = 0)) :
    x.magnitude.Canonical := by
  have small := x.fraction_small
  unfold magnitude
  split
  · constructor <;> simp <;> omega
  · constructor <;> simp [Nat.pow_eq] <;> omega

theorem magnitude_fields {x y : Binary64} (same : x.magnitude = y.magnitude) :
    x.exponentField = y.exponentField ∧ x.fraction = y.fraction := by
  have small := x.fraction_small
  have other := y.fraction_small
  unfold magnitude at same
  split at same <;> split at same <;> simp [Nat.pow_eq] at same <;> omega

theorem shortest_rounds {x : Binary64} (nonzero : ¬ (x.exponentField = 0 ∧ x.fraction = 0)) :
    x.magnitude.Rounds x.magnitude.shortest.strip.value := by
  rw [DecimalForm.strip_value]
  exact x.magnitude.shortest_rounds (magnitude_canonical nonzero).positive

theorem shortest_positive {x : Binary64} (nonzero : ¬ (x.exponentField = 0 ∧ x.fraction = 0)) :
    0 < x.magnitude.shortest.strip.value :=
  Magnitude.rounds_positive (magnitude_canonical nonzero).positive (shortest_rounds nonzero)

def spelling (x : Binary64) : Spelling :=
  if x.exponentField = 0 ∧ x.fraction = 0 then ⟨['0'], ['0'], 0⟩
  else x.magnitude.shortest.strip.spelling

theorem spelling_proper (x : Binary64) : x.spelling.Proper := by
  unfold spelling
  split
  · constructor <;> simp
  · exact DecimalForm.spelling_proper _

theorem spelling_fields {x y : Binary64} (same : x.spelling = y.spelling) :
    x.exponentField = y.exponentField ∧ x.fraction = y.fraction := by
  have zero : (⟨['0'], ['0'], 0⟩ : Spelling).value = 0 := by
    simp [Spelling.value, Nat.ofDigitChars_cons]
  unfold spelling at same
  have values := congrArg Spelling.value same
  split at values <;> split at values
  · rename_i one two
    exact ⟨one.1.trans two.1.symm, one.2.trans two.2.symm⟩
  · rename_i nonzero
    rw [zero, DecimalForm.spelling_value] at values
    exact absurd values (shortest_positive nonzero).ne
  · rename_i nonzero _
    rw [zero, DecimalForm.spelling_value] at values
    exact absurd values (shortest_positive nonzero).ne'
  · rename_i one two
    rw [DecimalForm.spelling_value, DecimalForm.spelling_value] at values
    have other := shortest_rounds two
    rw [← values] at other
    exact magnitude_fields (Magnitude.rounds_unique (magnitude_canonical one)
      (magnitude_canonical two) (shortest_rounds one) other)

def sign (x : Binary64) : List Char := if x.isNegative then ['-'] else []

theorem finiteText_spelled (x : Binary64) :
    (x.finiteText .plain).toList = x.sign ++ x.spelling.text := by
  have signed : (if x.isNegative then "-" else "").toList = x.sign := by
    unfold sign
    split <;> rfl
  unfold finiteText spelling
  dsimp only
  split <;> rw [String.toList_append, signed]
  · rfl
  · rw [DecimalForm.text_spelled]

theorem finiteText_written (x : Binary64) : (x.finiteText .plain).toList ≠ [] := by
  rw [finiteText_spelled, Spelling.text]
  simp [x.spelling_proper.starts]

theorem sign_plain (x : Binary64) : ∀ c ∈ x.sign, c = '-' := by
  unfold sign
  split <;> simp

theorem finiteText_injective {x y : Binary64}
    (same : (x.finiteText .plain).toList = (y.finiteText .plain).toList) : x = y := by
  rw [finiteText_spelled, finiteText_spelled] at same
  obtain ⟨signs, spelled⟩ := sign_split (fun c present => by rw [x.sign_plain c present]; rfl)
    (fun c present => by rw [y.sign_plain c present]; rfl)
    (Spelling.text_starts x.spelling_proper) (Spelling.text_starts y.spelling_proper) same
  obtain ⟨exponents, fractions⟩ :=
    spelling_fields (Spelling.text_injective x.spelling_proper y.spelling_proper spelled)
  refine fields_injective ?_ exponents fractions
  unfold sign at signs
  split at signs <;> split at signs <;> simp_all

end Binary64

end SemanticLayer
