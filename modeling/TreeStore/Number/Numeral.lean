/-! Reading whole numbers from digits. -/

namespace TreeStore.Numeral

/-- The value of a digit, letters in either case counting on from ten. -/
def digitValue? (c : Char) : Option Nat :=
  if '0' ≤ c ∧ c ≤ '9' then some (c.toNat - 48)
  else if 'a' ≤ c ∧ c ≤ 'z' then some (c.toNat - 87)
  else if 'A' ≤ c ∧ c ≤ 'Z' then some (c.toNat - 55)
  else none

/-- The number that one or more digits of a base stand for. -/
def natural? (base : Nat) (ds : List Char) : Option Nat :=
  if ds.isEmpty then none
  else ds.foldl (fun acc c => do
    let n ← acc
    let d ← digitValue? c
    if d < base then some (n * base + d) else none) (some 0)

/-- Whether a number is a signed number of 64 bits. -/
def isInt64 (n : Int) : Bool := -0x8000000000000000 ≤ n && n < 0x8000000000000000

/-- Whether a number is a natural number of 64 bits. -/
def isNat64 (n : Nat) : Bool := n < 0x10000000000000000

/-- Decimal digits after at most one sign, within the signed numbers of 64 bits. -/
def int64? (s : String) : Option Int :=
  let bounded (n : Int) : Option Int := if isInt64 n then some n else none
  match s.toList with
  | '-' :: ds => (natural? 10 ds).bind fun n => bounded (-n)
  | '+' :: ds => (natural? 10 ds).bind fun n => bounded n
  | ds => (natural? 10 ds).bind fun n => bounded n

/-- Decimal digits after at most one plus sign, within the natural numbers of 64 bits. -/
def nat64? (s : String) : Option Nat :=
  let ds := match s.toList with
    | '+' :: ds => ds
    | ds => ds
  (natural? 10 ds).bind fun n => if isNat64 n then some n else none

end TreeStore.Numeral
