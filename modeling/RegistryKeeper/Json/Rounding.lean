import RegistryKeeper.Json.Basic

/-!
Numbers with a point are held in 53 binary digits. `nearest` rounds a fraction to them, a tie going
to the even neighbour; `shortest` is the decimal of fewest digits that rounds back, the nearest of
those. A decimal text is read as its digits, rounded, and then scaled by one power of ten.
-/

namespace RegistryKeeper

structure Binary where
  mantissa : Nat
  exponent : Int
  deriving DecidableEq, Repr, Inhabited

namespace Binary

def zero : Binary := ⟨0, 0⟩

def scale (base num den : Nat) : Int → Nat × Nat
  | .ofNat e => (num * Nat.pow base e, den)
  | .negSucc e => (num, den * Nat.pow base (e + 1))

def roundDiv (num den : Nat) : Nat :=
  let q := num / den
  let r := num % den
  if 2 * r < den then q
  else if den < 2 * r then q + 1
  else if q % 2 = 0 then q else q + 1

/-- The least exponent in use is -1074 and the greatest 971. -/
def nearest (num den : Nat) : Option Binary :=
  if num = 0 then some zero
  else
    let guess : Int := (num.log2 : Int) - (den.log2 : Int) - 52
    let (n, d) := scale 2 num den (-guess)
    let e := if n / d < Nat.pow 2 52 then guess - 1 else guess
    let e := if e < -1074 then -1074 else e
    let (n, d) := scale 2 num den (-e)
    let m := roundDiv n d
    let (m, e) := if m = Nat.pow 2 53 then (Nat.pow 2 52, e + 1) else (m, e)
    if m = 0 then some zero
    else if 971 < e then none
    else some ⟨m, e⟩

def fraction (b : Binary) : Nat × Nat := scale 2 b.mantissa 1 b.exponent

/-- `b · 10 ^ e`, the power being rounded first; a tail beyond `10 ^ 308` is taken off before. -/
def timesPower (b : Binary) (e : Int) : Option Binary :=
  if b = zero then some zero
  else if 308 < e then none
  else
    let (b, e) := if e < -308 then (divide b 308, e + 308) else (b, e)
    let (b, e) := if e < -308 then (divide b 308, e + 308) else (b, e)
    if e < -308 then some zero
    else if e < 0 then some (divide b e.natAbs)
    else
      let (n, d) := b.fraction
      let (p, q) := (power e.natAbs).fraction
      nearest (n * p) (d * q)
where
  power (k : Nat) : Binary := (nearest (Nat.pow 10 k) 1).getD zero
  divide (b : Binary) (k : Nat) : Binary :=
    let (n, d) := b.fraction
    let (p, q) := (power k).fraction
    (nearest (n * q) (d * p)).getD zero

def place (n d : Nat) : Int :=
  if d ≤ n then ((Nat.toDigits 10 (n / d)).length : Int) - 1
  else -((Nat.toDigits 10 ((d - 1) / n)).length : Int)

def neighbours (n d : Nat) (k : Nat) : List (Nat × Int) :=
  let e := place n d - (k : Int) + 1
  let (n, d) := scale 10 n d (-e)
  let q := n / d
  if roundDiv n d = q then [(q, e), (q + 1, e)] else [(q + 1, e), (q, e)]

def readsBack (b : Binary) (c : Nat × Int) : Bool :=
  let (n, d) := scale 10 c.1 1 c.2
  nearest n d = some b

def shortest (b : Binary) : Nat × Int :=
  if b = zero then (0, 0)
  else
    let (n, d) := b.fraction
    match ((List.range 17).flatMap fun k => neighbours n d (k + 1)).find? b.readsBack with
    | some c => c
    | none => (0, 0)

end Binary

namespace Decimal

def ofScientific? (negative : Bool) (digits : Nat) (exponent : Int) : Option Decimal := do
  let b ← Binary.nearest digits 1
  let b ← b.timesPower exponent
  let (d, e) := b.shortest
  return ⟨negative, d, e⟩

def inPlace (point : Int) : Bool := -5 < point && point ≤ 16

def placed (ds : List Char) : Int → List Char
  | .ofNat p =>
      if p = 0 then '0' :: '.' :: ds
      else if ds.length ≤ p then ds ++ List.replicate (p - ds.length) '0' ++ ['.', '0']
      else ds.take p ++ '.' :: ds.drop p
  | .negSucc p => '0' :: '.' :: List.replicate (p + 1) '0' ++ ds

def powered (ds : List Char) (exponent : Int) : List Char :=
  let mantissa := match ds with
    | d :: e :: r => d :: '.' :: e :: r
    | ds => ds
  mantissa ++ 'e' :: (if exponent < 0 then '-' else '+') :: Nat.toDigits 10 exponent.natAbs

def text (d : Decimal) : String :=
  let sign := if d.negative then ['-'] else []
  let all := Nat.toDigits 10 d.digits
  let ds := (all.reverse.dropWhile (· = '0')).reverse
  let point : Int := all.length + d.exponent
  String.ofList <| sign ++
    if d.digits = 0 then ['0', '.', '0']
    else if inPlace point then placed ds point
    else powered ds (point - 1)

end Decimal

end RegistryKeeper
