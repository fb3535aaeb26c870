import TreeStore.Number.Notation
import TreeStore.Number.Numeral
import TreeStore.Text.Case

/-! Values of columns: how texts are read as values of a column's type, when values are equal, and how they
are written. -/

namespace TreeStore

structure Date where
  year : Nat
  month : Nat
  day : Nat
deriving DecidableEq, Repr

namespace Date

def isLeap (year : Nat) : Bool := year % 4 = 0 && (year % 100 ≠ 0 || year % 400 = 0)

def daysIn (year month : Nat) : Nat :=
  if month = 2 then (if isLeap year then 29 else 28)
  else if month = 4 || month = 6 || month = 9 || month = 11 then 30
  else 31

/-- The last year all of whose days can be stored. -/
def maxYear : Nat := 5881579

def isValid (d : Date) : Bool :=
  d.year ≤ maxYear && 1 ≤ d.month && d.month ≤ 12 && 1 ≤ d.day && d.day ≤ daysIn d.year d.month

def padded (width n : Nat) : String :=
  let ds := n.repr.toList
  String.ofList (List.replicate (width - ds.length) '0' ++ ds)

def text (d : Date) : String := padded 4 d.year ++ "-" ++ padded 2 d.month ++ "-" ++ padded 2 d.day

/-- Marks that may stand between the parts of a date. -/
def isSeparator (c : Char) : Bool := c = '-' || c = '/' || c = '\\' || c = ' '

/-- Reads a year, a month and a day, between which one mark stands twice. What follows the day, if it is no
digit, does not matter. -/
def ofChars? (s : List Char) : Option Date := do
  let year := s.takeWhile Char.isDigit
  match s.dropWhile Char.isDigit with
  | mark :: s =>
    let month := s.takeWhile Char.isDigit
    match s.dropWhile Char.isDigit with
    | mark' :: s =>
      let day := s.takeWhile Char.isDigit
      if !isSeparator mark || mark' ≠ mark || 2 < month.length || 2 < day.length then none
      else
        let d : Date := ⟨← Numeral.natural? 10 year, ← Numeral.natural? 10 month,
          ← Numeral.natural? 10 day⟩
        if d.isValid then some d else none
    | [] => none
  | [] => none

end Date

/-- The types of columns. -/
inductive ColumnType where
  | varchar
  | bigint
  | double
  | boolean
  | date
deriving DecidableEq, Repr

namespace ColumnType

def ofName? (name : String) : Option ColumnType :=
  match Text.asciiLower name with
  | "varchar" | "text" | "string" => some .varchar
  | "bigint" | "int8" | "long" => some .bigint
  | "double" | "float8" => some .double
  | "boolean" | "bool" | "logical" => some .boolean
  | "date" => some .date
  | _ => none

def name : ColumnType → String
  | .varchar => "VARCHAR"
  | .bigint => "BIGINT"
  | .double => "DOUBLE"
  | .boolean => "BOOLEAN"
  | .date => "DATE"

end ColumnType

inductive ColumnValue where
  | text (s : String)
  | int (n : Int)
  | real (x : Binary64)
  | flag (b : Bool)
  | date (d : Date)
deriving DecidableEq, Repr

namespace ColumnValue

def splitSign : List Char → Bool × List Char
  | '-' :: r => (true, r)
  | '+' :: r => (false, r)
  | r => (false, r)

/-- The digits, the number of those after the point, and the exponent of a decimal. -/
def decimalParts? (s : List Char) : Option (Nat × Nat × Int) := do
  let whole := s.takeWhile Char.isDigit
  let s := s.dropWhile Char.isDigit
  let (fraction, s) := match s with
    | '.' :: r => (r.takeWhile Char.isDigit, r.dropWhile Char.isDigit)
    | r => ([], r)
  let digits ← Numeral.natural? 10 (whole ++ fraction)
  match s with
  | [] => return (digits, fraction.length, 0)
  | e :: r =>
    if e ≠ 'e' && e ≠ 'E' then none
    else
      let (down, ds) := splitSign r
      let n ← Numeral.natural? 10 ds
      return (digits, fraction.length, if down then -(n : Int) else n)

/-- The nearest whole number to a decimal, from a midpoint away from zero. -/
def nearest (digits places : Nat) (exponent : Int) : Option Nat :=
  let e := exponent - places
  if digits = 0 then some 0
  else if 400 < e then none
  else if 0 ≤ e then some (digits * Nat.pow 10 e.toNat)
  else if e < -400 - (digits.log2 : Int) then some 0
  else
    let unit := Nat.pow 10 (-e).toNat
    some ((2 * digits + unit) / (2 * unit))

/-- Whether a character is a digit of a base. -/
def isDigitOf (base : Nat) (c : Char) : Bool := (Numeral.digitValue? c).any (· < base)

/-- Leaves out underscores, each of which has to stand between two digits. -/
def joinDigits (base : Nat) : List Char → Option (List Char)
  | a :: '_' :: b :: rest =>
    if isDigitOf base a && isDigitOf base b then (a :: ·) <$> joinDigits base (b :: rest) else none
  | '_' :: _ => none
  | c :: rest => (c :: ·) <$> joinDigits base rest
  | [] => some []

def decimalInt? (s : List Char) : Option Int := do
  let (negative, s) := splitSign s
  let (digits, places, exponent) ← decimalParts? (← joinDigits 10 s)
  let n ← nearest digits places exponent
  return if negative then -(n : Int) else n

/-- The number that digits of a base stand for. -/
def basedInt? (base : Nat) (s : List Char) : Option Int := do
  return Int.ofNat (← Numeral.natural? base (← joinDigits base s))

def intOf? (s : List Char) : Option Int := do
  let n ← match s with
    | '0' :: 'x' :: ds | '0' :: 'X' :: ds => basedInt? 16 ds
    | '0' :: 'b' :: ds | '0' :: 'B' :: ds => basedInt? 2 ds
    | s => decimalInt? s
  if Numeral.isInt64 n then some n else none

def realOf? (s : List Char) : Option Binary64 :=
  let (negative, s) := splitSign s
  match Text.asciiLower (String.ofList s) with
  | "inf" | "infinity" => some (.infinite negative)
  | "nan" => some .nan
  | _ => ((joinDigits 10 s).bind decimalParts?).map fun (digits, places, exponent) =>
    .ofDecimal negative digits (exponent - places)

def flagOf? (s : String) : Option Bool :=
  match Text.asciiLower s with
  | "true" | "t" | "1" | "yes" | "y" => some true
  | "false" | "f" | "0" | "no" | "n" => some false
  | _ => none

/-- The characters of a text without blanks at both ends. -/
def core (s : String) : List Char :=
  let isBlank (c : Char) : Bool := c = ' ' || ('\t' ≤ c && c ≤ '\r')
  ((s.toList.dropWhile isBlank).reverse.dropWhile isBlank).reverse

/-- The value of a type that a text stands for. -/
def ofText? (type : ColumnType) (s : String) : Option ColumnValue :=
  match type with
  | .varchar => some (.text s)
  | .bigint => (intOf? (core s)).map .int
  | .double => (realOf? (core s)).map .real
  | .boolean => (flagOf? s).map .flag
  | .date => (Date.ofChars? (core s)).map .date

/-- Whether values are equal: both zeros are, and what is no number equals itself. -/
def same : ColumnValue → ColumnValue → Bool
  | .real x, .real y => x.sameValue y
  | a, b => a = b

def toText : ColumnValue → String
  | .text s => s
  | .int n => toString n
  | .real x => x.render .column
  | .flag b => if b then "true" else "false"
  | .date d => d.text

end ColumnValue

end TreeStore
