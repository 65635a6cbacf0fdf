import Scriptlet.Number.Binary64

/-!
# Shortest: the fewest digits that read back

A number is written with the fewest decimal digits that round to it again, and of those with the
nearest ones. Which powers of ten are written out is a decision of the layout.
-/

namespace Scriptlet

/-- Decimal digits and the power of ten of the first: `d.ddd · 10 ^ power`. -/
structure Digits where
  digits : Bytes
  power : Int
deriving DecidableEq, Repr

namespace Binary64

/-- Whether `a / b ≤ c / d`, or `<` where the bound does not count. -/
def within (counts : Bool) (a b c d : Nat) : Bool :=
  if counts then a * d ≤ c * b else a * d < c * b

/-- The greatest power of ten that is at most `n / d`, looked for from `guess` upwards. -/
def leadingPower (n d : Nat) : Nat → Int → Int
  | 0, guess => guess
  | tries + 1, guess =>
    let next := guess + 1
    let (a, b) := if 0 ≤ next then (Nat.pow 10 next.toNat, 1) else (1, Nat.pow 10 (-next).toNat)
    if a * d ≤ n * b then leadingPower n d tries next else guess

/-- The candidate with `count` digits for a positive number between the bounds `lo` and `hi`, which
count for even mantissas. -/
def candidate (even : Bool) (value lo hi : Nat × Nat) (power : Int) (count : Nat) : Option Nat :=
  let unit := power + 1 - count
  -- the grid of `count` digits, as a fraction
  let (un, ud) := if 0 ≤ unit then (Nat.pow 10 unit.toNat, 1) else (1, Nat.pow 10 (-unit).toNat)
  let below := value.1 * ud / (value.2 * un)
  let fits (k : Nat) : Bool :=
    within even lo.1 lo.2 (k * un) ud && within even (k * un) ud hi.1 hi.2
  -- twice the distance from the grid point below, against one unit
  let nearerBelow : Bool := 2 * value.1 * ud ≤ (2 * below + 1) * un * value.2
  match fits below, fits (below + 1) with
  | true, true => some (if nearerBelow then below else below + 1)
  | true, false => some below
  | false, true => some (below + 1)
  | false, false => none

/-- The digits of a positive number with the given mantissa and exponent. Seventeen are always
enough. -/
def shortest (mantissa : Nat) (exponent : Int) : Digits :=
  let fraction (k : Nat) (e : Int) : Nat × Nat :=
    if 0 ≤ e then (k * Nat.pow 2 e.toNat, 1) else (k, Nat.pow 2 (-e).toNat)
  let value := fraction mantissa exponent
  let hi := fraction (2 * mantissa + 1) (exponent - 1)
  let lo :=
    if mantissa = mantissaBound / 2 ∧ minExponent < exponent then
      fraction (4 * mantissa - 1) (exponent - 2)
    else fraction (2 * mantissa - 1) (exponent - 1)
  let power := leadingPower value.1 value.2 700 (-330)
  let even := mantissa % 2 = 0
  let found := (List.range 17).findSome? fun i =>
    (candidate even value lo hi power (i + 1)).map fun k => (k, i + 1)
  match found with
  | none => ⟨decimal (value.1 / value.2), power⟩
  | some (k, count) =>
    let text := decimal k
    ⟨(text.reverse.dropWhile (· == byte '0')).reverse, power + ((text.length : Int) - count)⟩

/-- How numbers are laid out: the powers of ten that are written out. -/
structure Layout where
  leastPower : Int
  beyondPower : Int

/-- Digits with the point after the first one and an exponent of at least two digits. -/
def scientific (d : Digits) : Bytes :=
  let point := match d.digits.tail with
    | [] => []
    | more => byte '.' :: more
  let e := decimal d.power.natAbs
  d.digits.take 1 ++ point ++ byte 'e' :: byte (if d.power < 0 then '-' else '+') ::
    (if e.length < 2 then byte '0' :: e else e)

/-- Digits written out around the point. -/
def positional (d : Digits) : Bytes :=
  let zeros (n : Int) : Bytes := List.replicate n.toNat (byte '0')
  if d.power < 0 then utf8 "0." ++ zeros (-d.power - 1) ++ d.digits
  else
    let whole := d.power.toNat + 1
    let front := d.digits.take whole ++ zeros (whole - d.digits.length)
    match d.digits.drop whole with
    | [] => front
    | more => front ++ byte '.' :: more

/-- A number in the given layout. -/
def render (layout : Layout) : Binary64 → Bytes
  | .nan => utf8 "NaN"
  | .infinite negative => utf8 (if negative then "-Inf" else "+Inf")
  | .finite negative m e =>
    let sign := if negative then utf8 "-" else []
    if m = 0 then sign ++ utf8 "0"
    else
      let d := shortest m e
      sign ++ if layout.leastPower ≤ d.power ∧ d.power < layout.beyondPower then positional d
        else scientific d

end Binary64
end Scriptlet
