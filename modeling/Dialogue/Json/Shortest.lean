import Dialogue.Json.Basic

/-!
# The text of a number

A floating-point number is written with the fewest digits that read back as the same number, and
with those of such digits that are nearest to it. A positive number is `m * 2 ^ q`; the reals that
read back as it lie between the midpoints to its neighbours, and these belong to the interval
exactly if `m` is even. `Decimal.shortest` goes through the decimal grids from coarse to fine and
takes the first one with a point in the interval. All of it is exact arithmetic.
-/

namespace Dialogue

/-- The number `digits * 10 ^ exponent`. -/
structure Decimal where
  digits : Nat
  exponent : Int
deriving Repr, DecidableEq

namespace Decimal

/-- A positive number and the interval of what reads back as it, as fractions with one
denominator. -/
structure Target where
  low : Nat
  value : Nat
  high : Nat
  denominator : Nat
  /-- Do the ends of the interval belong to it? -/
  closed : Bool

/-- The target of a positive finite number, given by its bits. -/
def Target.ofBits (bits : Nat) : Target :=
  let field := bits / 0x10000000000000 % 0x800
  let fraction := bits % 0x10000000000000
  let m := if field = 0 then fraction else 0x10000000000000 + fraction
  let below := if fraction = 0 ∧ 1 < field then 1 else 2
  -- the unit is a quarter of the last place, `2 ^ (field - 1077)`
  let shift := max field 1
  let scale := Nat.pow 2 (shift - 1077)
  { low := (4 * m - below) * scale
    value := 4 * m * scale
    high := (4 * m + 2) * scale
    denominator := Nat.pow 2 (1077 - shift)
    closed := m % 2 == 0 }

/-- The point of the grid of `10 ^ exponent` that is nearest to the target among those that read
back as it; of two that are equally near the even one. -/
def Target.onGrid? (x : Target) (exponent : Int) : Option Decimal :=
  let up := Nat.pow 10 (-exponent).toNat
  let unit := Nat.pow 10 exponent.toNat * x.denominator
  let value := x.value * up
  let fits (d : Nat) : Bool :=
    if x.closed then x.low * up ≤ d * unit && d * unit ≤ x.high * up
    else x.low * up < d * unit && d * unit < x.high * up
  let d := value / unit
  let twice := 2 * (value % unit)
  let first := if twice < unit ∨ (twice = unit ∧ d % 2 = 0) then d else d + 1
  let second := if first = d then d + 1 else d
  ([first, second].find? fits).map (⟨·, exponent⟩)

/-- The power of ten of the first digit of the target. -/
def Target.magnitude (x : Target) : Int :=
  if x.denominator ≤ x.value then ((Nat.toDigits 10 (x.value / x.denominator)).length : Int) - 1
  else
    -- no floating-point number has more than 324 zeros behind the point
    -(((List.range 325).find? fun j ↦ x.denominator ≤ x.value * Nat.pow 10 j).getD 0 : Int)

/-- The shortest decimal that reads back as the target. Eighteen grids suffice, since seventeen
digits tell all floating-point numbers apart. -/
def Target.shortest (x : Target) : Decimal :=
  ((List.range 18).findSome? fun (k : Nat) ↦ x.onGrid? (x.magnitude + 1 - k)).getD ⟨0, 0⟩

/-- How decimals are written. Numbers of moderate size are written in full, with a point; others
have one digit before the point and an exponent. -/
structure Style where
  /-- The most digits before the point of a number written in full. -/
  places : Int
  /-- The most zeros directly behind the point of a number written in full, plus one. -/
  zeros : Int
  /-- What stands before an exponent that is not negative. -/
  mark : String

/-- The decimal in some style. -/
def text (style : Style) (x : Decimal) : String :=
  let ds := Nat.toDigits 10 x.digits
  let point := ds.length + x.exponent
  if 0 ≤ x.exponent ∧ point ≤ style.places then
    String.ofList (ds ++ List.replicate x.exponent.toNat '0' ++ ['.', '0'])
  else if 0 < point ∧ point ≤ style.places then
    String.ofList (ds.take point.toNat ++ '.' :: ds.drop point.toNat)
  else if -style.zeros < point ∧ point ≤ 0 then
    String.ofList ('0' :: '.' :: List.replicate (-point).toNat '0' ++ ds)
  else
    let exponent := point - 1
    String.ofList (ds.take 1 ++ (if ds.length = 1 then [] else '.' :: ds.drop 1))
      ++ (if exponent < 0 then "e-" else style.mark) ++ toString exponent.natAbs

end Decimal

namespace Number

/-- Numbers of a document are written in full up to sixteen digits before the point and four zeros
behind it, and the sign of an exponent is always shown. -/
def style : Decimal.Style := { places := 16, zeros := 5, mark := "e+" }

/-- The text of a number. -/
def text : Number → String
  | int n => toString n
  | real x =>
    let bits := x.toBits.toNat % 0x8000000000000000
    let sign := if x.toBits.toNat < 0x8000000000000000 then "" else "-"
    sign ++ if bits = 0 then "0.0" else (Decimal.Target.ofBits bits).shortest.text style

end Number

end Dialogue
