namespace SemanticLayer.Text

-- Sets of characters as closed ranges of code points, ascending and apart. The tables that are
-- built of them hold the character properties of Unicode 17.0.
def inRanges (ranges : List (Nat × Nat)) (n : Nat) : Bool :=
  ranges.any fun range => range.1 ≤ n && n ≤ range.2

-- Ranges of which every second code point counts, from the first one on. Capital and small letters
-- take turns in many scripts.
def inAlternating (ranges : List (Nat × Nat)) (n : Nat) : Bool :=
  ranges.any fun range => range.1 ≤ n && n ≤ range.2 && (n - range.1) % 2 == 0

end SemanticLayer.Text
