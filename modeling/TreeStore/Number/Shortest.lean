import TreeStore.Number.Binary64

/-! The shortest decimal that reads back as a given binary number: of the decimal grids, coarsest
first, the first with a point in the interval of reals that round to the number, and on it the point
nearest to the number. -/

namespace TreeStore.Binary64

/-- A decimal `digits` · 10 ^ `exponent`. -/
structure Decimal where
  digits : Nat
  exponent : Int
deriving DecidableEq, Repr

/-- Whether `a/b ≤ c/d`, or `a/b < c/d` when the end does not belong. -/
def below (closed : Bool) (a : Nat × Nat) (c : Nat × Nat) : Bool :=
  if closed then a.1 * c.2 ≤ c.1 * a.2 else a.1 * c.2 < c.1 * a.2

/-- The midpoints to the neighbours of a positive value. Below a power of two they lie closer. -/
def neighbourhood (m : Nat) (e : Int) : (Nat × Nat) × (Nat × Nat) :=
  let narrow := m = 0x10000000000000 ∧ -1074 < e
  (fraction (if narrow then 4 * m - 1 else 4 * m - 2) (e - 2), fraction (4 * m + 2) (e - 2))

def gridPoint (digits : Nat) (p : Int) : Nat × Nat :=
  if p < 0 then (digits, Nat.pow 10 (-p).toNat) else (digits * Nat.pow 10 p.toNat, 1)

/-- The nearest point of the grid 10 ^ `p` inside the interval, if there is one. -/
def onGrid (m : Nat) (e : Int) (p : Int) : Option Decimal :=
  let (a, b) := fraction m e
  let (n, d) := if p < 0 then (a * Nat.pow 10 (-p).toNat, b) else (a, b * Nat.pow 10 p.toNat)
  let lo := n / d
  let (least, most) := neighbourhood m e
  let closed := m % 2 = 0
  let inside (k : Nat) : Bool :=
    0 < k && below closed least (gridPoint k p) && below closed (gridPoint k p) most
  let nearLo := 2 * (n % d) < d ∨ (2 * (n % d) = d ∧ lo % 2 = 0)
  match inside lo, inside (lo + 1) with
  | true, true => some ⟨if nearLo then lo else lo + 1, p⟩
  | true, false => some ⟨lo, p⟩
  | false, true => some ⟨lo + 1, p⟩
  | false, false => none

def Decimal.normalize : Nat → Decimal → Decimal
  | 0, x => x
  | n + 1, x =>
    if x.digits ≠ 0 ∧ x.digits % 10 = 0 then normalize n ⟨x.digits / 10, x.exponent + 1⟩ else x

def shortest (m : Nat) (e : Int) : Decimal :=
  let (a, b) := fraction m e
  let top : Int := ((a.log2 : Int) - b.log2) * 30103 / 100000 + 2
  let grids := (List.range 22).map fun (i : Nat) => top - (i : Int)
  ((grids.findSome? (onGrid m e)).getD ⟨m, 0⟩).normalize 400

end TreeStore.Binary64
