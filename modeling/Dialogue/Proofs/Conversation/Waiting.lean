import Dialogue.Conversation.Delay
import Mathlib

/-!
# How long a delay is

A finite floating-point number is a rational number with a power of two below the bar, so a delay in
seconds has an exact value, and so has the number of nanoseconds in it. What is waited is the whole
number nearest to that, a half going to the even neighbour. Nothing is lost on the way: the bits are
read as a multiple of the least positive number, `2 ^ -1074`, and only the last step rounds.

The rounding is described without a word about how it is done (`Nearest`), and already this
description makes it monotone: two numbers that were rounded the wrong way round would both lie half
way between two even numbers, but there is a nearer one between these.

The exception is a delay of `2 ^ 64` seconds or more. It is neither infinite nor without a value,
yet it is too long to be waited (`Delay.lasts_to_the_nanosecond`).
-/

namespace Dialogue.Delay

open Float.Model (UnpackedFloat Format)
open Float.Model.UnpackedFloat (Sign unpackExponent unpackMantissa)

/-! ## The nearest whole number -/

/-- No whole number is nearer to `q`; if another one is as near, this one is even. -/
structure Nearest (q : ℚ) (n : ℕ) : Prop where
  le_of_int : ∀ k : ℤ, |q - n| ≤ |q - k|
  even_of_tie : ∀ k : ℤ, k ≠ n → |q - n| = |q - k| → Even n

/-- What is at most a half away is nearest. -/
theorem nearest_of_half {q : ℚ} {n : ℕ} (hhalf : 2 * |q - n| ≤ 1)
    (htie : 2 * |q - n| = 1 → Even n) : Nearest q n := by
  have hfar : ∀ k : ℤ, k ≠ n → 1 ≤ |q - n| + |q - k| := by
    intro k hk
    have hdist : (1 : ℚ) ≤ |(n : ℚ) - k| := by
      have := Int.one_le_abs (sub_ne_zero.2 hk.symm)
      exact_mod_cast this
    calc (1 : ℚ) ≤ |(n : ℚ) - k| := hdist
      _ ≤ |(n : ℚ) - q| + |q - k| := abs_sub_le ..
      _ = |q - n| + |q - k| := by rw [abs_sub_comm (n : ℚ)]
  constructor
  · intro k
    by_cases hk : k = n
    · rw [hk, Int.cast_natCast]
    · linarith [hfar k hk]
  · intro k hk heq
    exact htie (by linarith [hfar k hk])

theorem nearest_roundHalfEven (numerator : ℕ) {denominator : ℕ} (hpos : 0 < denominator) :
    Nearest (numerator / denominator) (roundHalfEven numerator denominator) := by
  have hsplit := Nat.div_add_mod numerator denominator
  have hrest := Nat.mod_lt numerator hpos
  set quotient := numerator / denominator
  set rest := numerator % denominator
  have hd : (0 : ℚ) < denominator := by exact_mod_cast hpos
  have hvalue : (numerator / denominator : ℚ) = quotient + rest / denominator := by
    rw [← hsplit]
    push_cast
    field_simp
  have hround : roundHalfEven numerator denominator =
      if 2 * rest < denominator ∨ (2 * rest = denominator ∧ quotient % 2 = 0) then quotient
      else quotient + 1 := rfl
  rw [hround, hvalue]
  split
  · have hdist :
        2 * |(quotient + rest / denominator : ℚ) - quotient| = 2 * rest / denominator := by
      rw [add_sub_cancel_left, abs_of_nonneg (by positivity), mul_div_assoc]
    apply nearest_of_half
    · rw [hdist, div_le_one hd]
      have hle : 2 * rest ≤ denominator := by omega
      exact_mod_cast hle
    · rw [hdist, div_eq_one_iff_eq hd.ne']
      intro htie
      have htie : 2 * rest = denominator := by exact_mod_cast htie
      rw [Nat.even_iff]
      omega
  · have hdist : 2 * |(quotient + rest / denominator : ℚ) - (quotient + 1 : ℕ)| =
        2 * (denominator - rest) / denominator := by
      have hle : (rest / denominator : ℚ) ≤ 1 := by
        rw [div_le_one hd]
        exact_mod_cast hrest.le
      push_cast
      rw [add_sub_add_left_eq_sub, abs_of_nonpos (by linarith)]
      field_simp
      ring
    apply nearest_of_half
    · rw [hdist, div_le_one hd]
      have hle : denominator ≤ 2 * rest := by omega
      have hle : (denominator : ℚ) ≤ 2 * rest := by exact_mod_cast hle
      linarith
    · rw [hdist, div_eq_one_iff_eq hd.ne']
      intro htie
      have htie : (denominator : ℚ) = 2 * rest := by linarith
      have htie : denominator = 2 * rest := by exact_mod_cast htie
      rw [Nat.even_iff]
      omega

theorem abs_sub_le_abs_sub_iff_of_lt {q a b : ℚ} (h : a < b) :
    |q - b| ≤ |q - a| ↔ a + b ≤ 2 * q := by
  rw [← sq_le_sq]
  constructor <;> intro hle <;> nlinarith only [h, hle]

theorem abs_sub_le_abs_sub_iff_of_gt {q a b : ℚ} (h : a < b) :
    |q - a| ≤ |q - b| ↔ 2 * q ≤ a + b := by
  rw [← sq_le_sq]
  constructor <;> intro hle <;> nlinarith only [h, hle]

/-- Rounding to the nearest whole number is monotone. -/
theorem Nearest.mono {p q : ℚ} {m n : ℕ} (hm : Nearest p m) (hn : Nearest q n) (h : p ≤ q) :
    m ≤ n := by
  by_contra hlt
  have hlt : n < m := by omega
  have hcast : (n : ℚ) < m := by exact_mod_cast hlt
  have hp : (n + m : ℚ) ≤ 2 * p := (abs_sub_le_abs_sub_iff_of_lt hcast).1 (hm.le_of_int n)
  have hq : 2 * q ≤ n + m := (abs_sub_le_abs_sub_iff_of_gt hcast).1 (hn.le_of_int m)
  -- both lie half way between `n` and `m`, so these are even and have a number between them
  have hevenm : Even m := by
    refine hm.even_of_tie n (by omega) (le_antisymm (hm.le_of_int n) ?_)
    exact (abs_sub_le_abs_sub_iff_of_gt hcast).2 (by linarith)
  have hevenn : Even n := by
    refine hn.even_of_tie m (by omega) (le_antisymm (hn.le_of_int m) ?_)
    exact (abs_sub_le_abs_sub_iff_of_lt hcast).2 (by linarith)
  have hgap : (n + 2 : ℚ) ≤ m := by
    obtain ⟨i, rfl⟩ := hevenm
    obtain ⟨j, rfl⟩ := hevenn
    have hgap : j + j + 2 ≤ i + i := by omega
    exact_mod_cast hgap
  have hbetween := hn.le_of_int (n + 1)
  push_cast at hbetween
  have hclose := (abs_sub_le_abs_sub_iff_of_gt (lt_add_one (n : ℚ))).1 hbetween
  linarith

/-! ## The exact value of a floating-point number -/

/-- The rational number that a floating-point number is, unless it is infinite or no number. -/
def rational? (x : Float) : Option ℚ :=
  match x.toModel.unpack with
  | .finite sign mantissa exponent _ => some (sign.apply mantissa * 2 ^ exponent)
  | .zero _ => some 0
  | _ => none

theorem rational?_eq_none_iff {x : Float} :
    rational? x = none ↔ x.isNaN = true ∨ x.isInf = true := by
  have hnan : x.isNaN = x.toModel.unpack.isNaN := rfl
  have hinf : x.isInf = x.toModel.unpack.isInf := rfl
  rw [rational?, hnan, hinf]
  cases x.toModel.unpack <;> simp [UnpackedFloat.isNaN, UnpackedFloat.isInf]

theorem unpack_zero : (0.0 : Float).toModel.unpack = .zero .positive := by
  have hbits : (0.0 : Float).toModel.toBits = 0 := by decide +kernel
  rw [Float.Model.unpack, hbits]
  rfl

theorem lt_iff (x y : Float) :
    x < y ↔ x.toModel.unpack.compare y.toModel.unpack = some .lt := by
  have hlt : x < y ↔ decide (x.toModel < y.toModel) = true := Iff.rfl
  rw [hlt, decide_eq_true_iff]
  exact beq_iff_eq

theorem eq_notANumber_of_isNaN {x : Float} (h : x.isNaN = true) :
    x.toModel.unpack = .notANumber := by
  have hnan : x.toModel.unpack.isNaN = true := h
  cases hx : x.toModel.unpack with
  | notANumber => rfl
  | _ =>
    rw [hx] at hnan
    exact absurd hnan Bool.false_ne_true

/-- What is no number is not in order with anything. -/
theorem not_lt_of_isNaN {x y : Float} (h : x.isNaN = true ∨ y.isNaN = true) : ¬ x < y := by
  have hunpack : x.toModel.unpack = .notANumber ∨ y.toModel.unpack = .notANumber :=
    h.imp eq_notANumber_of_isNaN eq_notANumber_of_isNaN
  rw [lt_iff]
  rcases hunpack with hx | hy
  · rw [hx]
    exact (Option.some_ne_none _).symm
  · rw [hy]
    cases x.toModel.unpack <;> exact (Option.some_ne_none _).symm

theorem scaled_pos {m : ℕ} (hm : 0 < m) (e : ℤ) : (0 : ℚ) < m * 2 ^ e :=
  mul_pos (by exact_mod_cast hm) (zpow_pos two_pos e)

/-- A positive number is a mantissa times a power of two. -/
theorem exists_unpack_of_pos {x : Float} {q : ℚ} (hq : rational? x = some q) (hpos : 0 < q) :
    ∃ m e h, x.toModel.unpack = .finite .positive m e h ∧ q = m * 2 ^ e := by
  rw [rational?] at hq
  rcases hx : x.toModel.unpack with sign | _ | sign | ⟨sign, m, e, hm⟩ <;> rw [hx] at hq
  · exact absurd hq (Option.some_ne_none q).symm
  · exact absurd hq (Option.some_ne_none q).symm
  · obtain rfl := Option.some.inj hq
    exact absurd hpos (lt_irrefl _)
  · obtain rfl := Option.some.inj hq
    cases sign with
    | negative =>
      have hvalue := scaled_pos hm e
      simp only [Sign.apply] at hpos
      push_cast at hpos
      linarith
    | positive => exact ⟨m, e, hm, rfl, rfl⟩

/-- What a delay is asked before it is waited: whether it is positive and has a value. -/
theorem isFinite_and_pos_iff {x : Float} :
    (x.isFinite && 0.0 < x) = true ↔ ∃ q, rational? x = some q ∧ 0 < q := by
  have hfinite : x.isFinite = x.toModel.unpack.isFinite := rfl
  constructor
  · rw [Bool.and_eq_true, decide_eq_true_iff, lt_iff, unpack_zero, hfinite, rational?]
    generalize x.toModel.unpack = u
    rintro ⟨hfinite, hlt⟩
    rcases u with sign | _ | sign | ⟨sign, m, e, hm⟩
    · exact absurd hfinite Bool.false_ne_true
    · exact absurd hfinite Bool.false_ne_true
    · cases hlt
    · cases sign with
      | negative => cases hlt
      | positive => exact ⟨_, rfl, scaled_pos hm e⟩
  · rintro ⟨q, hq, hpos⟩
    obtain ⟨m, e, hm, hx, -⟩ := exists_unpack_of_pos hq hpos
    rw [Bool.and_eq_true, decide_eq_true_iff, lt_iff, unpack_zero, hfinite, hx]
    exact ⟨rfl, rfl⟩

/-! ## The bits -/

/-- The bits that hold the exponent. -/
def exponentBits (x : Float) : BitVec Format.binary64.exponentBits :=
  @unpackExponent Format.binary64 x.toModel.toBits.toBitVec

/-- The bits that hold the mantissa. -/
def mantissaBits (x : Float) : BitVec Format.binary64.mantissaBitsWithoutImplicit :=
  @unpackMantissa Format.binary64 x.toModel.toBits.toBitVec

/-- A positive number counted in units of `2 ^ -1074`. The bits hold the exponent shifted, except
that the two least exponents are one. -/
theorem units_of_unpack {x : Float} {sign : Sign} {m : ℕ} {e : ℤ} {h : 0 < m}
    (hx : x.toModel.unpack = .finite sign m e h) :
    ∃ k : ℕ, e = k - 1074 ∧ units x = m * 2 ^ k := by
  have hfield : x.toBits.toNat / 0x10000000000000 % 0x800 = (exponentBits x).toNat := by
    rw [exponentBits, unpackExponent, BitVec.toNat_cast, BitVec.extractLsb,
      BitVec.extractLsb'_toNat, Nat.shiftRight_eq_div_pow]
    rfl
  have hfraction : x.toBits.toNat % 0x10000000000000 = (mantissaBits x).toNat := by
    rw [mantissaBits, unpackMantissa, BitVec.toNat_cast, BitVec.extractLsb,
      BitVec.extractLsb'_toNat, Nat.shiftRight_zero]
    rfl
  have hbias : (Format.binary64.exponentBias : ℤ) +
      (Format.binary64.mantissaBitsWithoutImplicit : ℤ) = 1075 := rfl
  have hunits : units x = if (exponentBits x).toNat = 0 then (mantissaBits x).toNat
      else (0x10000000000000 + (mantissaBits x).toNat) * 2 ^ ((exponentBits x).toNat - 1) := by
    rw [← hfield, ← hfraction]
    rfl
  rw [Float.Model.unpack, UnpackedFloat.unpack, hbias] at hx
  rw [hunits]
  dsimp only at hx
  split at hx
  · split at hx <;> cases hx
  · split at hx
    · -- no implicit bit
      rename_i hzero
      split at hx
      · cases hx
      · injection hx with _ hm he
        have hnat : (exponentBits x).toNat = 0 := congrArg BitVec.toNat hzero
        refine ⟨0, ?_, ?_⟩
        · rw [← he]
          exact congrArg (fun n : ℕ ↦ (n : ℤ) - 1075 + 1) hnat
        · rw [if_pos hnat, ← hm, pow_zero, mul_one]
          rfl
    · rename_i hzero
      injection hx with _ hm he
      have hnat : (exponentBits x).toNat ≠ 0 := fun h ↦ hzero (BitVec.eq_of_toNat_eq h)
      have he : ((exponentBits x).toNat : ℤ) - 1075 = e := he
      refine ⟨(exponentBits x).toNat - 1, by omega, ?_⟩
      rw [if_neg hnat, ← hm, BitVec.toNat_append, ← Nat.shiftLeft_add_eq_or_of_lt (BitVec.isLt _)]
      rfl

/-- How many binary places a floating-point number can have behind the point. -/
@[irreducible] def places : ℕ := 1074

-- the power of two with this exponent is never worked out
theorem places_eq : places = 1074 := by rw [places]

theorem units_eq {x : Float} {q : ℚ} (hq : rational? x = some q) (hpos : 0 < q) :
    (units x : ℚ) = q * 2 ^ places := by
  obtain ⟨m, e, hm, hx, rfl⟩ := exists_unpack_of_pos hq hpos
  obtain ⟨k, rfl, hunits⟩ := units_of_unpack hx
  have hplaces : (1074 : ℤ) = places := by rw [places_eq]; rfl
  have hpow : (2 : ℚ) ^ (k - 1074 : ℤ) * 2 ^ places = 2 ^ k := by
    rw [hplaces, zpow_sub₀ two_ne_zero, zpow_natCast, zpow_natCast]
    exact div_mul_cancel₀ _ (pow_ne_zero places two_ne_zero)
  rw [hunits, Nat.cast_mul, Nat.cast_pow, Nat.cast_ofNat, mul_assoc, hpow]

/-! ## What is waited -/

theorem nanoseconds?_eq (x : Float) :
    nanoseconds? x = if x.isFinite && 0.0 < x then
        if units x < 0x10000000000000000 * 2 ^ places then
          some (roundHalfEven (units x * 1000000000) (2 ^ places))
        else none
      else some 0 := by
  rw [nanoseconds?, ← places_eq]
  rfl

theorem nanoseconds?_of_not_pos {x : Float} (h : ∀ q, rational? x = some q → q ≤ 0) :
    nanoseconds? x = some 0 := by
  rw [nanoseconds?_eq, if_neg]
  rw [isFinite_and_pos_iff]
  rintro ⟨q, hq, hpos⟩
  exact absurd (h q hq) (not_le.2 hpos)

theorem nanoseconds?_of_pos {x : Float} {q : ℚ} (hq : rational? x = some q) (hpos : 0 < q) :
    nanoseconds? x =
      if q < 2 ^ 64 then some (roundHalfEven (units x * 1000000000) (2 ^ places)) else none := by
  have hguard : (x.isFinite && 0.0 < x) = true := isFinite_and_pos_iff.2 ⟨q, hq, hpos⟩
  have hlimit : units x < 0x10000000000000000 * 2 ^ places ↔ q < 2 ^ 64 := by
    have hcast : ((0x10000000000000000 * 2 ^ places : ℕ) : ℚ) = 2 ^ 64 * 2 ^ places := by
      push_cast
      norm_num
    rw [← Nat.cast_lt (α := ℚ), hcast, units_eq hq hpos]
    exact mul_lt_mul_iff_left₀ (pow_pos two_pos places)
  rw [nanoseconds?_eq, if_pos hguard]
  exact if_congr hlimit rfl rfl

theorem nearest_nanoseconds {x : Float} {q : ℚ} (hq : rational? x = some q) (hpos : 0 < q) :
    Nearest (q * 10 ^ 9) (roundHalfEven (units x * 1000000000) (2 ^ places)) := by
  have hnearest := nearest_roundHalfEven (units x * 1000000000) (Nat.two_pow_pos places)
  have hvalue : (units x * 1000000000 : ℕ) / ((2 ^ places : ℕ) : ℚ) = q * 10 ^ 9 := by
    have hsecond : (2 : ℚ) ^ places ≠ 0 := pow_ne_zero places two_ne_zero
    push_cast
    rw [units_eq hq hpos, div_eq_iff hsecond]
    ring
  rwa [hvalue] at hnearest

/-- The seconds of a delay that is not drawn at random. -/
inductive Lasts : Delay → Float → Prop
  | fixed (x : Float) : Lasts (.fixed x) x
  /-- The second bound is not greater than the first, or one of them is no number. -/
  | range {x y : Float} : ¬ x < y → Lasts (.range x y) x

theorem Lasts.duration?_eq {delay : Delay} {x : Float} (h : Lasts delay x) (draw : Float) :
    delay.duration? draw = nanoseconds? x := by
  cases h with
  | fixed => rfl
  | range h =>
    rw [duration?, seconds?, if_neg h]
    rfl

theorem nanoseconds?_mono {x y : Float} {p q : ℚ} {m n : ℕ} (hp : rational? x = some p)
    (hq : rational? y = some q) (hle : p ≤ q) (hm : nanoseconds? x = some m)
    (hn : nanoseconds? y = some n) : m ≤ n := by
  by_cases hpos : 0 < p
  · have hpos' : 0 < q := lt_of_lt_of_le hpos hle
    rw [nanoseconds?_of_pos hp hpos, Option.ite_none_right_eq_some] at hm
    rw [nanoseconds?_of_pos hq hpos', Option.ite_none_right_eq_some] at hn
    obtain ⟨-, hm⟩ := hm
    obtain ⟨-, hn⟩ := hn
    obtain rfl := Option.some.inj hm
    obtain rfl := Option.some.inj hn
    refine (nearest_nanoseconds hp hpos).mono (nearest_nanoseconds hq hpos') ?_
    exact mul_le_mul_of_nonneg_right hle (by positivity)
  · have hzero : nanoseconds? x = some 0 := by
      refine nanoseconds?_of_not_pos fun p' hp' ↦ ?_
      obtain rfl := Option.some.inj (hp.symm.trans hp')
      exact not_lt.1 hpos
    rw [hzero] at hm
    exact Option.some.inj hm ▸ Nat.zero_le n

/-- **A delay lasts to the nanosecond what it says, unless it says too much.** Let a delay be a
number of seconds, or a range whose second bound is not greater than the first, as where one of them
is no number. It can be waited exactly if its seconds are not `2 ^ 64` or more. It is none at all if
they are no number, infinite or not positive; else its nanoseconds are the whole number nearest to
the exact value, a half going to the even neighbour. Of two such delays that can be waited the
longer one is not waited less. -/
theorem lasts_to_the_nanosecond (draw : Float) {delay : Delay} {x : Float}
    (hdelay : Lasts delay x) :
    ((delay.duration? draw).isSome ↔ ∀ q, rational? x = some q → q < 2 ^ 64) ∧
    (x.isNaN = true ∨ x.isInf = true ∨ (∃ q, rational? x = some q ∧ q ≤ 0) →
      delay.duration? draw = some 0) ∧
    (∀ q, rational? x = some q → 0 < q → q < 2 ^ 64 →
      ∃ n, delay.duration? draw = some n ∧ Nearest (q * 10 ^ 9) n) ∧
    ∀ (draw' : Float) (delay' : Delay) (y : Float) (p q : ℚ) (m n : ℕ), Lasts delay' y →
      rational? x = some p → rational? y = some q → p ≤ q →
        delay.duration? draw = some m → delay'.duration? draw' = some n → m ≤ n := by
  rw [hdelay.duration?_eq]
  refine ⟨?_, fun hnone ↦ ?_, fun q hq hpos hlt ↦ ?_, ?_⟩
  · by_cases hpos : ∃ q, rational? x = some q ∧ 0 < q
    · obtain ⟨q, hq, hpos⟩ := hpos
      rw [nanoseconds?_of_pos hq hpos, hq]
      by_cases hlt : q < 2 ^ 64 <;> simp [hlt]
    · have hle : ∀ q, rational? x = some q → q ≤ 0 := by
        intro q hq
        exact not_lt.1 fun h ↦ hpos ⟨q, hq, h⟩
      rw [nanoseconds?_of_not_pos hle]
      exact iff_of_true rfl fun q hq ↦ lt_of_le_of_lt (hle q hq) (by positivity)
  · refine nanoseconds?_of_not_pos fun q hq ↦ ?_
    rcases hnone with hnan | hinf | ⟨q', hq', hle⟩
    · rw [rational?_eq_none_iff.2 (.inl hnan)] at hq
      cases hq
    · rw [rational?_eq_none_iff.2 (.inr hinf)] at hq
      cases hq
    · exact Option.some.inj (hq'.symm.trans hq) ▸ hle
  · refine ⟨_, ?_, nearest_nanoseconds hq hpos⟩
    rw [nanoseconds?_of_pos hq hpos, if_pos hlt]
  · intro draw' delay' y p q m n hdelay' hp hq hle hm hn
    rw [hdelay'.duration?_eq] at hn
    exact nanoseconds?_mono hp hq hle hm hn

/-- A 1024th of a second is 976562 nanoseconds and a half, which goes to the even neighbour. As the
first bound of a range whose second one is no number it counts alone. At `2 ^ 64` seconds there is
no waiting, although that is a finite number. -/
theorem half_a_nanosecond_is_left_out :
    let delay := Delay.range 0.0009765625 (0.0 / 0.0)
    let eternity := Delay.fixed 18446744073709551616.0
    Lasts delay 0.0009765625 ∧ delay.duration? 0.5 = some 976562 ∧
      Nearest (976562 + 1 / 2) 976562 ∧
      Lasts eternity 18446744073709551616.0 ∧ (eternity.duration? 0.5).isSome = false := by
  intro delay eternity
  have hnan : ((0.0 : Float) / 0.0).isNaN = true := by decide +kernel
  have hdelay : Lasts delay 0.0009765625 := .range (not_lt_of_isNaN (.inr hnan))
  have hseconds : rational? 0.0009765625 = some (1 / 1024) := by decide +kernel
  have hwaited : delay.duration? 0.5 = some 976562 := by decide +kernel
  obtain ⟨n, hn, hnearest⟩ := (lasts_to_the_nanosecond 0.5 hdelay).2.2.1 _ hseconds
    (by norm_num) (by norm_num)
  obtain rfl := Option.some.inj (hwaited.symm.trans hn)
  have hvalue : (1 / 1024 * 10 ^ 9 : ℚ) = 976562 + 1 / 2 := by norm_num
  have hlong : rational? 18446744073709551616.0 = some (2 ^ 64) := by decide +kernel
  refine ⟨hdelay, hwaited, hvalue ▸ hnearest, .fixed _, ?_⟩
  rw [Bool.eq_false_iff]
  intro hsome
  have hlt := (lasts_to_the_nanosecond 0.5 (.fixed _)).1.1 hsome _ hlong
  exact absurd hlt (lt_irrefl _)

end Dialogue.Delay
