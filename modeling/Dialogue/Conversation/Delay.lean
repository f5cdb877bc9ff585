/-!
# Delays

A reply may be delivered later than it is made, as if someone were typing. A delay is given in
seconds and waited in whole nanoseconds: the exact value of the floating-point number, rounded to
the nearest nanosecond. A delay that is not finite or not positive is none at all, and a delay of
`2 ^ 64` seconds or more is too long to be waited.
-/

namespace Dialogue

/-- How long to wait. -/
inductive Delay where
  /-- Some seconds. -/
  | fixed (seconds : Float)
  /-- Some seconds between two bounds, drawn at random. -/
  | range (min max : Float)
deriving DecidableEq

instance : Inhabited Delay := ⟨.range 1.0 3.0⟩

namespace Delay

/-- A fraction rounded to the nearest whole number; a half goes to the even neighbour. -/
def roundHalfEven (numerator denominator : Nat) : Nat :=
  let quotient := numerator / denominator
  let twice := 2 * (numerator % denominator)
  if twice < denominator ∨ (twice = denominator ∧ quotient % 2 = 0) then quotient else quotient + 1

/-- A positive finite floating-point number as a fraction, in units of `2 ^ -1074`. -/
def units (seconds : Float) : Nat :=
  let bits := seconds.toBits.toNat
  let field := bits / 0x10000000000000 % 0x800
  let fraction := bits % 0x10000000000000
  if field = 0 then fraction else (0x10000000000000 + fraction) * Nat.pow 2 (field - 1)

/-- The nanoseconds that some seconds are, unless these are too many. -/
def nanoseconds? (seconds : Float) : Option Nat :=
  if seconds.isFinite && 0.0 < seconds then
    let n := units seconds
    let second := Nat.pow 2 1074
    if n < 0x10000000000000000 * second then some (roundHalfEven (n * 1000000000) second) else none
  else some 0

/-- Is the delay drawn at random? The bounds of a range have to be in order for that; else the
first of them counts. -/
def isRandom : Delay → Bool
  | fixed _ => false
  | range min max => min < max

/-- The seconds to wait if `draw`, a number from 0 to 1, is drawn. A range has none if it is wider
than floating point can tell. -/
def seconds? (draw : Float) : Delay → Option Float
  | fixed seconds => some seconds
  | range min max =>
    if min < max then
      if (max - min).isFinite then some (draw * (max - min) + min) else none
    else some min

/-- The nanoseconds to wait if `draw` is drawn. -/
def duration? (draw : Float) (delay : Delay) : Option Nat := do
  nanoseconds? (← delay.seconds? draw)

end Delay

end Dialogue
