import TreeStore.Document.Node
import TreeStore.Number.Numeral

/-! What plain scalars mean: null, a truth value, a number, or else a text. Whole numbers may have a sign
and be hexadecimal, octal or binary; digits after a leading zero are no number. -/

namespace TreeStore.Yaml

/-- Whether a scalar is a word for null. The empty scalar is no such word. -/
def isNull (s : String) : Bool := s = "null" || s = "Null" || s = "NULL" || s = "~"

def flag? (s : String) : Option Bool :=
  if s = "true" || s = "True" || s = "TRUE" then some true
  else if s = "false" || s = "False" || s = "FALSE" then some false
  else none

/-- Digits after a leading zero, which might be meant as octal or decimal. -/
def digitsButNoNumber (s : List Char) : Bool :=
  let s := match s with
    | '-' :: r => r
    | '+' :: r => r
    | r => r
  match s with
  | '0' :: d :: ds => (d :: ds).all Char.isDigit
  | _ => false

/-- The base that a mark after a zero stands for. -/
def base? : Char → Option Nat
  | 'x' => some 16
  | 'o' => some 8
  | 'b' => some 2
  | _ => none

/-- Digits in the base that their first two characters name, if they do. -/
def basedNatural? : List Char → Option Nat
  | '0' :: mark :: ds => (base? mark).bind fun base => Numeral.natural? base ds
  | _ => none

/-- A whole number below 2 ^ `bits`. -/
def unsigned? (bits : Nat) (s : List Char) : Option Nat :=
  let ds := match s with
    | '+' :: r => r
    | r => r
  let n := match basedNatural? ds with
    | some n => some n
    | none => if digitsButNoNumber s then none else Numeral.natural? 10 ds
  n.filter (· < Nat.pow 2 bits)

/-- A whole number with a minus sign, of `bits` bits. -/
def negative? (bits : Nat) (s : List Char) : Option Int :=
  let n := match s with
    | '-' :: ds => match basedNatural? ds with
      | some n => some n
      | none => if digitsButNoNumber s then none else Numeral.natural? 10 ds
    | _ => none
  (n.filter (· ≤ Nat.pow 2 (bits - 1))).map fun n => -(n : Int)

/-- The decimal after a sign: digits with at most one point among or around them, and an exponent. -/
def decimal? (negative : Bool) (s : List Char) : Option Binary64 := do
  let whole := s.takeWhile Char.isDigit
  let s := s.dropWhile Char.isDigit
  let (fraction, s) := match s with
    | '.' :: r => (r.takeWhile Char.isDigit, r.dropWhile Char.isDigit)
    | r => ([], r)
  let digits ← Numeral.natural? 10 (whole ++ fraction)
  let exponent : Int ← match s with
    | [] => some 0
    | e :: r =>
      if e ≠ 'e' && e ≠ 'E' then none
      else match r with
        | '-' :: ds => (Numeral.natural? 10 ds).map fun n => -(n : Int)
        | '+' :: ds => (Numeral.natural? 10 ds).map Int.ofNat
        | ds => (Numeral.natural? 10 ds).map Int.ofNat
  return .ofDecimal negative digits (exponent - fraction.length)

def isInfinity (s : String) : Bool := s = ".inf" || s = ".Inf" || s = ".INF"

def isNan (s : String) : Bool := s = ".nan" || s = ".NaN" || s = ".NAN"

/-- A binary number. Decimals beyond its range are none. -/
def real? (s : String) : Option Binary64 :=
  if isNan s then some .nan
  else
    let (negative, rest) := match s.toList with
      | '-' :: r => (true, r)
      | '+' :: r => (false, r)
      | r => (false, r)
    if isInfinity (String.ofList rest) then some (.infinite negative)
    else (decimal? negative rest).filter (·.isFinite)

/-- A whole number of 64 bits, with or without a sign. -/
def int? (s : String) : Option Int :=
  match unsigned? 64 s.toList with
  | some n => some n
  | none => negative? 64 s.toList

/-- Whether a scalar is a whole number of 128 bits, which no document may hold if it is not one of 64. -/
def isWide (s : String) : Bool :=
  (unsigned? 128 s.toList).isSome || (negative? 128 s.toList).isSome

def datumOf (s : String) : Except Fault Datum :=
  if s = "" || isNull s then .ok .null
  else match flag? s, int? s with
    | some b, _ => .ok (.flag b)
    | none, some n => .ok (.int n)
    | none, none =>
      if isWide s then .error .invalidType
      else if digitsButNoNumber s.toList then .ok (.text s)
      else match real? s with
        | some x => .ok (.real x)
        | none => .ok (.text s)

/-- Whether a text would mean something else if it were a plain scalar. -/
def needsQuotes (s : String) : Bool :=
  digitsButNoNumber s.toList || match datumOf s with
    | .ok (.text _) => false
    | _ => true

end TreeStore.Yaml
