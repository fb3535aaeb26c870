/-! Binary floating-point numbers of 64 bits, as exact values: a significand below 2^53 times a power
of two between 2^-1074 and 2^971. Arithmetic is exact on fractions and then rounded once, to the
nearest value and from a midpoint to the even significand. -/

namespace TreeStore

inductive Binary64 where
  | nan
  | infinite (negative : Bool)
  /-- The value ± `significand` · 2 ^ `exponent`. -/
  | finite (negative : Bool) (significand : Nat) (exponent : Int)
deriving DecidableEq, Repr

namespace Binary64

def zero (negative : Bool) : Binary64 := .finite negative 0 (-1074)

/-- The quotient rounded to the nearest natural number, from a midpoint to the even one. -/
def roundDiv (num den : Nat) : Nat :=
  let q := num / den
  let r := num % den
  if 2 * r < den then q else if den < 2 * r then q + 1 else q + q % 2

/-- A fraction divided by 2 ^ `e`. -/
def scale (num den : Nat) (e : Int) : Nat × Nat :=
  if e < 0 then (num * Nat.pow 2 (-e).toNat, den) else (num, den * Nat.pow 2 e.toNat)

/-- The exponent that gives a fraction a significand of 53 bits, or of fewer at the lower end. -/
def exponentOf (num den : Nat) : Int :=
  let e : Int := (num.log2 : Int) - den.log2 - 52
  let (n, d) := scale num den e
  max (if n < d * 0x10000000000000 then e - 1 else e) (-1074)

/-- The nearest value to ± `num` / `den`. -/
def ofFraction (negative : Bool) (num den : Nat) : Binary64 :=
  if num = 0 then zero negative
  else
    let e := exponentOf num den
    let (n, d) := scale num den e
    let m := roundDiv n d
    let (m, e) := if m = 0x20000000000000 then (0x10000000000000, e + 1) else (m, e)
    if 971 < e then .infinite negative else .finite negative m e

def ofNat (n : Nat) : Binary64 := ofFraction false n 1

def ofInt (n : Int) : Binary64 := ofFraction (n < 0) n.natAbs 1

/-- The nearest value to ± `digits` · 10 ^ `exponent`. Far beyond the range the power is not computed. -/
def ofDecimal (negative : Bool) (digits : Nat) (exponent : Int) : Binary64 :=
  if digits = 0 then zero negative
  else
    let top : Int := exponent + digits.log2 / 3
    if 700 < exponent then .infinite negative
    else if top < -700 then zero negative
    else if exponent < 0 then ofFraction negative digits (Nat.pow 10 (-exponent).toNat)
    else ofFraction negative (digits * Nat.pow 10 exponent.toNat) 1

def fraction (m : Nat) (e : Int) : Nat × Nat :=
  if e < 0 then (m, Nat.pow 2 (-e).toNat) else (m * Nat.pow 2 e.toNat, 1)

/-- The product of finite values; nothing else is multiplied here. -/
def mul : Binary64 → Binary64 → Binary64
  | .finite s m e, .finite t n f =>
    let (a, b) := fraction m e
    let (c, d) := fraction n f
    ofFraction (s != t) (a * c) (b * d)
  | _, _ => .nan

/-- The quotient of finite values by one that is not zero; nothing else is divided here. -/
def div : Binary64 → Binary64 → Binary64
  | .finite s m e, .finite t n f =>
    let (a, b) := fraction m e
    let (c, d) := fraction n f
    if c = 0 then .nan else ofFraction (s != t) (a * d) (b * c)
  | _, _ => .nan

def neg : Binary64 → Binary64
  | .nan => .nan
  | .infinite s => .infinite (!s)
  | .finite s m e => .finite (!s) m e

def isFinite : Binary64 → Bool
  | .finite .. => true
  | _ => false

/-- Equality of values: both zeros are one value, and so are all that are not numbers. -/
def sameValue : Binary64 → Binary64 → Bool
  | .finite _ 0 _, .finite _ 0 _ => true
  | x, y => x == y

end Binary64

end TreeStore
