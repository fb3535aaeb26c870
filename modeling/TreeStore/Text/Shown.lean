import TreeStore.Text.Blank

/-! Texts shown in quotes, with what would not be visible escaped. -/

namespace TreeStore.Text

/-- Characters that leave no mark of their own: controls, blanks other than the space, marks on other
characters, and those for private use. -/
def invisibleRanges : List (Nat × Nat) :=
  [ (0x00, 0x1F), (0x7F, 0xA0), (0xAD, 0xAD), (0x300, 0x36F), (0x1680, 0x1680), (0x2000, 0x200F),
    (0x2028, 0x202F), (0x205F, 0x206F), (0x3000, 0x3000), (0xE000, 0xF8FF), (0xFEFF, 0xFEFF),
    (0xFFF0, 0xFFFB), (0xE0000, 0x10FFFF) ]

def hexText (n : Nat) : String := String.ofList (Nat.toDigits 16 n)

def shownChar (c : Char) : String :=
  match c with
  | '"' => "\\\""
  | '\\' => "\\\\"
  | '\n' => "\\n"
  | '\r' => "\\r"
  | '\t' => "\\t"
  | '\x00' => "\\0"
  | c =>
    if inRanges invisibleRanges c.toNat then "\\u\x7b" ++ hexText c.toNat ++ "\x7d"
    else String.singleton c

def shown (s : String) : String := "\"" ++ String.join (s.toList.map shownChar) ++ "\""

def shownOption : Option String → String
  | none => "None"
  | some s => "Some(" ++ shown s ++ ")"

end TreeStore.Text
