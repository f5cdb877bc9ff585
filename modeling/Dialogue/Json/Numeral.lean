import Dialogue.Json.Basic

/-!
# Numerals

A numeral is the written form of a number: a sign, the digits before and behind the point, and an
exponent. `Numeral.ofChars?` reads it and `Numeral.value?` says which number it denotes.

A whole number is exact if it fits a signed or an unsigned machine word. Any other number is
floating point, and it is made in two steps. The leading digits, as many as fit an unsigned word,
give a whole number, which is rounded once; then it is scaled by a power of ten, which rounds once
more. So the result of a numeral with more than some fifteen digits need not be the nearest
floating-point number. A number too large for floating point has no value; one too small is zero.
-/

namespace Dialogue

/-- A number as it is written. The digits are values below ten. -/
structure Numeral where
  negative : Bool
  whole : List Nat
  /-- The digits behind the point, if there is a point. -/
  fraction : Option (List Nat)
  /-- Whether the exponent is negative, and its digits, if there is an exponent. -/
  exponent : Option (Bool × List Nat)
deriving Repr, DecidableEq

namespace Numeral

/-! ## Reading -/

/-- The digits at the front of a text and what follows them. -/
def digits (s : List Char) : List Nat × List Char :=
  ((s.takeWhile Char.isDigit).map (·.toNat - '0'.toNat), s.dropWhile Char.isDigit)

/-- The digits at the front of a text, at least one, and what follows them. -/
def digits? (s : List Char) : Option (List Nat × List Char) :=
  if (digits s).1.isEmpty then none else some (digits s)

/-- The point and the digits behind it, if the text starts with a point. -/
def fraction? : List Char → Option (Option (List Nat) × List Char)
  | '.' :: s => (digits? s).map fun (ds, rest) ↦ (some ds, rest)
  | s => some (none, s)

/-- The exponent, if the text starts with its mark. -/
def exponent? : List Char → Option (Option (Bool × List Nat) × List Char)
  | c :: s =>
    if c == 'e' || c == 'E' then
      match s with
      | '+' :: s => (digits? s).map fun (ds, rest) ↦ (some (false, ds), rest)
      | '-' :: s => (digits? s).map fun (ds, rest) ↦ (some (true, ds), rest)
      | s => (digits? s).map fun (ds, rest) ↦ (some (false, ds), rest)
    else some (none, c :: s)
  | [] => some (none, [])

/-- The numeral that a text without sign is. A zero is not followed by further digits before the
point. -/
def unsigned? (negative : Bool) (s : List Char) : Option Numeral := do
  let (whole, s) ← digits? s
  if whole.head? == some 0 && whole.length != 1 then failure
  let (fraction, s) ← fraction? s
  let (exponent, s) ← exponent? s
  if s.isEmpty then return { negative, whole, fraction, exponent } else failure

/-- The numeral that a text is. -/
def ofChars? : List Char → Option Numeral
  | '-' :: s => unsigned? true s
  | s => unsigned? false s

/-! ## The number it denotes -/

/-- The largest unsigned machine word. -/
def maxWord : Nat := 0xFFFFFFFFFFFFFFFF

/-- Appends digits to `m` as long as the result fits an unsigned word, and gives what is left of
them from the first one on that does not fit. -/
def appendDigits (m : Nat) : List Nat → Nat × List Nat
  | [] => (m, [])
  | d :: ds => if m * 10 + d ≤ maxWord then appendDigits (m * 10 + d) ds else (m, d :: ds)

/-- The value of some digits. -/
def ofDigits (ds : List Nat) : Nat := ds.foldl (fun m d ↦ m * 10 + d) 0

/-- The power of ten as a floating-point number. -/
def powTen (k : Nat) : Float := Float.ofScientific 1 false k

/-- `x` divided by `10 ^ k`, in steps that floating point can express. -/
def scaleDown (x : Float) (k : Nat) : Float :=
  if k ≤ 308 then x / powTen k
  else if x == 0.0 then x
  else scaleDown (x / powTen 308) (k - 308)
termination_by k

/-- `x` times `10 ^ e`, unless that is too large. -/
def scale? (x : Float) (e : Int) : Option Float :=
  if e < 0 then some (scaleDown x e.natAbs)
  else if e ≤ 308 then
    let y := x * powTen e.natAbs
    if y.isInf then none else some y
  else if x == 0.0 then some x else none

/-- The floating-point number that a numeral denotes, unless it is too large. -/
def real? (n : Numeral) : Option Float := do
  let (m, dropped) := appendDigits 0 n.whole
  let fraction := n.fraction.getD []
  let (m, ignored) := appendDigits m fraction
  let shift : Int := dropped.length - (fraction.length - ignored.length : Nat)
  let exponent : Int :=
    match n.exponent with
    | none => 0
    | some (negative, ds) => if negative then -ofDigits ds else ofDigits ds
  let x ← scale? (UInt64.ofNat m).toFloat (shift + exponent)
  return if n.negative then -x else x

/-- The whole number that a numeral denotes, if it is written without point and exponent and fits
a machine word. The negative zero is not a whole number. -/
def int? (n : Numeral) : Option Int :=
  let m := ofDigits n.whole
  if n.fraction.isSome || n.exponent.isSome then none
  else if n.negative then if m ≠ 0 ∧ m ≤ 0x8000000000000000 then some (-m) else none
  else if m ≤ maxWord then some m else none

/-- The number that a numeral denotes. -/
def value? (n : Numeral) : Option Number :=
  match n.int? with
  | some i => some (.int i)
  | none => n.real?.map .real

end Numeral

end Dialogue
