import Dialogue.Random.Draws

/-!
# Seeded sources

The source of a seed is the ChaCha stream cipher with twelve rounds. The seed is stretched to a
key; block after block of the cipher's output makes one sequence of words, and two words make a
number. Since each block depends on its index alone, the number at any position is computed
directly.
-/

namespace Dialogue.Cipher

/-- Four words, on which the cipher works at once. -/
structure Lanes where
  x : UInt32
  y : UInt32
  z : UInt32
  w : UInt32
deriving Repr, DecidableEq

namespace Lanes

/-- Combines two rows word by word. -/
def zipWith (f : UInt32 → UInt32 → UInt32) (r s : Lanes) : Lanes :=
  ⟨f r.x s.x, f r.y s.y, f r.z s.z, f r.w s.w⟩

/-- Each word rotated to the left by `k` bits, for `k` from 1 to 31. -/
def rotate (k : UInt32) (r : Lanes) : Lanes :=
  let f (v : UInt32) := (v <<< k) ||| (v >>> (32 - k))
  ⟨f r.x, f r.y, f r.z, f r.w⟩

/-- The words moved one place to the front, the first one to the end. -/
def turn (r : Lanes) : Lanes := ⟨r.y, r.z, r.w, r.x⟩

/-- The words in order. -/
def toList (r : Lanes) : List UInt32 := [r.x, r.y, r.z, r.w]

end Lanes

/-- The state of the cipher: four rows, whose words stand in four columns. -/
structure Grid where
  a : Lanes
  b : Lanes
  c : Lanes
  d : Lanes
deriving Repr, DecidableEq

namespace Grid

/-- One round on the four columns. -/
def round (g : Grid) : Grid :=
  let a := g.a.zipWith (· + ·) g.b
  let d := (g.d.zipWith (· ^^^ ·) a).rotate 16
  let c := g.c.zipWith (· + ·) d
  let b := (g.b.zipWith (· ^^^ ·) c).rotate 12
  let a := a.zipWith (· + ·) b
  let d := (d.zipWith (· ^^^ ·) a).rotate 8
  let c := c.zipWith (· + ·) d
  let b := (b.zipWith (· ^^^ ·) c).rotate 7
  ⟨a, b, c, d⟩

/-- A round on the columns and a round on the diagonals. -/
def doubleRound (g : Grid) : Grid :=
  let g := g.round
  let g := round ⟨g.a, g.b.turn, g.c.turn.turn, g.d.turn.turn.turn⟩
  ⟨g.a, g.b.turn.turn.turn, g.c.turn.turn, g.d.turn⟩

/-- The words in order. -/
def toList (g : Grid) : List UInt32 := g.a.toList ++ g.b.toList ++ g.c.toList ++ g.d.toList

end Grid

/-- A key of the cipher: eight words. -/
structure Key where
  high : Lanes
  low : Lanes
deriving Repr, DecidableEq

namespace Key

/-- The generator that stretches a seed: its next state, and the word that this state yields. -/
def stretch (state : UInt64) : UInt32 × UInt64 :=
  let state := state * 6364136223846793005 + 11634580027462260723
  let x := (((state >>> 18) ^^^ state) >>> 27).toUInt32
  let turn := (state >>> 59).toUInt32
  ((x >>> turn) ||| (x <<< ((32 - turn) % 32)), state)

/-- The key of a seed. -/
def ofSeed (seed : UInt64) : Key :=
  let (k0, s) := stretch seed
  let (k1, s) := stretch s
  let (k2, s) := stretch s
  let (k3, s) := stretch s
  let (k4, s) := stretch s
  let (k5, s) := stretch s
  let (k6, s) := stretch s
  let (k7, _) := stretch s
  ⟨⟨k0, k1, k2, k3⟩, ⟨k4, k5, k6, k7⟩⟩

/-- The block with some index: sixteen words. -/
def block (key : Key) (index : UInt64) : List UInt32 :=
  let start : Grid :=
    { a := ⟨0x61707865, 0x3320646e, 0x79622d32, 0x6b206574⟩
      b := key.high
      c := key.low
      d := ⟨index.toUInt32, (index >>> 32).toUInt32, 0, 0⟩ }
  let mixed := (List.range 6).foldl (fun g _ ↦ g.doubleRound) start
  List.zipWith (· + ·) start.toList mixed.toList

end Key

/-- The number that two words stand for: their first 53 bits as a fraction. -/
def fraction (low high : UInt32) : Float :=
  ((low.toUInt64 ||| (high.toUInt64 <<< 32)) >>> 11).toFloat / 9007199254740992.0

end Cipher

open Cipher in
/-- The source of a seed. A block yields eight numbers. -/
def Source.seeded (seed : UInt64) : Source :=
  let key := Key.ofSeed seed
  fun n ↦
    match (key.block (UInt64.ofNat (n / 8))).drop (2 * (n % 8)) with
    | low :: high :: _ => fraction low high
    | _ => 0.0

end Dialogue
