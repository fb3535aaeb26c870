import TreeStore.Document.Node
import TreeStore.Number.Numeral

/-! Numbers of JSON documents. A whole number of 64 bits is exact. Any other number is read in two
rounded steps: a significand of 64 bits, from which further digits are dropped, and then one product
or quotient with a power of ten; so the last digit may differ from the nearest value's. -/

namespace TreeStore.Json

def significandMax : Nat := 0xFFFFFFFFFFFFFFFF

/-- The largest exponent that is read digit by digit. -/
def exponentMax : Nat := 0x7FFFFFFF

def isDigit (c : Char) : Bool := '0' ≤ c && c ≤ '9'

def digit (c : Char) : Nat := c.toNat - 48

/-- Adds digits to a significand while they fit. Gives it, how many were added, and the others. -/
def addDigits (significand : Nat) : List Char → Nat × Nat × List Char
  | [] => (significand, 0, [])
  | c :: rest =>
    let next := significand * 10 + digit c
    if significandMax < next then (significand, 0, c :: rest)
    else
      let (s, n, left) := addDigits next rest
      (s, n + 1, left)

def powerOfTen (n : Nat) : Binary64 := .ofFraction false (Nat.pow 10 n) 1

/-- ± `significand` · 10 ^ `exponent`, unless it is out of range. The argument that counts down stands
for the steps of 10 ^ 308 that a small exponent needs. -/
def fromParts (negative : Bool) (x : Binary64) (exponent : Int) : Nat → Option Binary64
  | steps =>
    let signed (y : Binary64) := if negative then y.neg else y
    if exponent.natAbs ≤ 308 then
      if 0 ≤ exponent then
        let y := x.mul (powerOfTen exponent.natAbs)
        if y.isFinite then some (signed y) else none
      else some (signed (x.div (powerOfTen exponent.natAbs)))
    else if x.sameValue (.zero false) then some (signed x)
    else if 0 ≤ exponent then none
    else match steps with
      | 0 => some (signed (.zero false))
      | n + 1 => fromParts negative (x.div (powerOfTen 308)) (exponent + 308) n

/-- The rest of a run of digits and signs after a number, and its value. -/
abbrev Scanned := Option (Datum × List Char)

def realOf (negative : Bool) (significand : Nat) (exponent : Int) (rest : List Char) : Scanned :=
  (fromParts negative (.ofNat significand) exponent 4).map fun x => (.real x, rest)

def scanExponent (negative : Bool) (significand : Nat) (start : Int) (s : List Char) : Scanned :=
  let (down, s) := match s with
    | '+' :: r => (false, r)
    | '-' :: r => (true, r)
    | r => (false, r)
  let ds := s.takeWhile isDigit
  let rest := s.dropWhile isDigit
  match Numeral.natural? 10 ds with
  | none => none
  | some n =>
    if exponentMax < n then
      if significand ≠ 0 ∧ !down then none else some (.real (.zero negative), rest)
    else realOf negative significand (if down then start - n else start + n) rest

def startsExponent (c : Char) : Bool := c = 'e' || c = 'E'

/-- Reads what may follow the digits of a number that is not whole. -/
def scanTail (negative : Bool) (significand : Nat) (exponent : Int) : List Char → Scanned
  | c :: rest =>
    if startsExponent c then scanExponent negative significand exponent rest
    else realOf negative significand exponent (c :: rest)
  | [] => realOf negative significand exponent []

def scanFraction (negative : Bool) (significand : Nat) (exponent : Int) (s : List Char) : Scanned :=
  let ds := s.takeWhile isDigit
  if ds.isEmpty then none
  else
    let (sig, n, _) := addDigits significand ds
    scanTail negative sig (exponent - n) (s.dropWhile isDigit)

def scanUnsigned (negative : Bool) (s : List Char) : Scanned :=
  let ds := s.takeWhile isDigit
  let rest := s.dropWhile isDigit
  match ds with
  | [] => none
  | '0' :: _ :: _ => none
  | _ =>
    let (sig, _, dropped) := addDigits 0 ds
    let exponent : Int := dropped.length
    match rest with
    | '.' :: r => scanFraction negative sig exponent r
    | c :: r =>
      if startsExponent c then scanExponent negative sig exponent r
      else whole sig dropped.isEmpty exponent rest
    | [] => whole sig dropped.isEmpty exponent rest
where
  /-- A number without point and exponent. -/
  whole (sig : Nat) (exact : Bool) (exponent : Int) (rest : List Char) : Scanned :=
    if !exact then realOf negative sig exponent rest
    else if !negative then some (.int sig, rest)
    else if sig = 0 ∨ !Numeral.isInt64 (-sig) then some (.real (Binary64.ofNat sig).neg, rest)
    else some (.int (-sig), rest)

/-- Reads a number at the front of a text. -/
def scanNumber : List Char → Scanned
  | '-' :: rest => scanUnsigned true rest
  | s => scanUnsigned false s

end TreeStore.Json
