import TreeStore.Number.Shortest

/-! Written forms of binary numbers. All use the shortest digits that read back; a `Style` says where
positional notation ends and how the rest is spelled. -/

namespace TreeStore.Binary64

/-- How numbers are spelled. -/
structure Style where
  /-- The decimal exponents of the first digit that are written positionally; all when absent. -/
  positional : Option (Int × Int)
  /-- Whether a whole number ends in `.0`. -/
  point : Bool
  /-- The least number of digits of a written exponent. -/
  exponentDigits : Nat
  nan : String
  infinity : String

/-- Attribute values of a document: positional throughout, whole numbers without a point. -/
def Style.attribute : Style := ⟨none, false, 1, "NaN", "inf"⟩

def Style.json : Style := ⟨some (-5, 15), true, 1, "null", "null"⟩

def Style.column : Style := ⟨some (-4, 15), true, 2, "nan", "inf"⟩

def zeros (n : Nat) : List Char := List.replicate n '0'

/-- Digits `ds` with the point after `lead` of them, where `lead` may lie outside. -/
def positionalDigits (ds : List Char) (lead : Int) (point : Bool) : List Char :=
  if lead ≤ 0 then '0' :: '.' :: zeros (-lead).toNat ++ ds
  else
    let n := lead.toNat
    if ds.length ≤ n then ds ++ zeros (n - ds.length) ++ (if point then ['.', '0'] else [])
    else ds.take n ++ '.' :: ds.drop n

/-- Digits with an exponent that always has a sign. -/
def exponentDigits (style : Style) (ds : List Char) (exponent : Int) : List Char :=
  let digits := exponent.natAbs.repr.toList
  let mantissa := match ds with
    | [] => []
    | [d] => [d]
    | d :: rest => d :: '.' :: rest
  mantissa ++ 'e' :: (if exponent < 0 then '-' else '+')
    :: zeros (style.exponentDigits - digits.length) ++ digits

def magnitude (style : Style) (m : Nat) (e : Int) : List Char :=
  if m = 0 then '0' :: (if style.point then ['.', '0'] else [])
  else
    let x := shortest m e
    let ds := x.digits.repr.toList
    let first : Int := x.exponent + ds.length - 1
    let plain := match style.positional with
      | none => true
      | some (lo, hi) => lo ≤ first && first ≤ hi
    if plain then positionalDigits ds (first + 1) style.point else exponentDigits style ds first

def render (style : Style) : Binary64 → String
  | .nan => style.nan
  | .infinite s => (if s then "-" else "") ++ style.infinity
  | .finite s m e => (if s then "-" else "") ++ String.ofList (magnitude style m e)

end TreeStore.Binary64
