/-! Blank characters are those with the Unicode property `White_Space`. A text that holds nothing
else is blank; trimming takes them off both ends. -/

namespace TreeStore.Text

/-- Whether a code point lies in one of the closed ranges. -/
def inRanges (ranges : List (Nat × Nat)) (n : Nat) : Bool :=
  ranges.any fun r => r.1 ≤ n && n ≤ r.2

/-- The code points with the property `White_Space`. -/
def blankRanges : List (Nat × Nat) :=
  [ (0x09, 0x0D), (0x20, 0x20), (0x85, 0x85), (0xA0, 0xA0), (0x1680, 0x1680), (0x2000, 0x200A),
    (0x2028, 0x2029), (0x202F, 0x202F), (0x205F, 0x205F), (0x3000, 0x3000) ]

def isBlankChar (c : Char) : Bool := inRanges blankRanges c.toNat

/-- Whether a text holds blank characters only. -/
def isBlank (s : String) : Bool := s.toList.all isBlankChar

/-- Without the last characters that satisfy `p`. -/
def dropEndWhile (p : Char → Bool) (s : List Char) : List Char := (s.reverse.dropWhile p).reverse

/-- Without the blank characters at both ends. -/
def trim (s : String) : String :=
  String.ofList (dropEndWhile isBlankChar (s.toList.dropWhile isBlankChar))

/-- Without the blank characters at the end. -/
def trimEnd (s : String) : String := String.ofList (dropEndWhile isBlankChar s.toList)

end TreeStore.Text
