import Mathlib.Algebra.BigOperators.Intervals
import Mathlib.Algebra.Order.BigOperators.Group.Finset
import Mathlib.Tactic.Ring

/-!
# Single-Precision Arithmetic

Addition and multiplication of IEEE binary32 numbers on their bit patterns,
rounding to nearest with ties to even, and the integers on which they are
exact.

Every finite number is an integer multiple of the smallest subnormal, which is
`2 ^ -149`. `value` is that integer. Sums of values are again in units of
`2 ^ -149` and products in units of `2 ^ -298`, so both operations compute an
exact integer and round it once. `roundBits k` is the rounding of a magnitude
in units of `2 ^ -(149 + k)`: it picks the quantum the result can have, rounds
to a multiple of it, and packs exponent and fraction by one addition, which
also carries a significand that was rounded up to the next power of two into
the exponent.

The bits of a NaN are the platform's choice, and one of them is fixed here.

An integer of at most 24 bits is represented exactly. Where the operands are
such integers and so is the result, no rounding takes place, and a dot product
whose absolute terms add up to at most `2 ^ 24` is the integer dot product,
in whatever order its terms come.

## Main definitions

* `sign`, `exponent`, `fraction`: The fields of a bit pattern.
* `magnitude`, `value`: A finite number in units of the smallest subnormal.
* `roundHalfEven`: Rounding a quotient of naturals.
* `roundBits`: Rounding a magnitude to exponent and fraction.
* `pack`: A bit pattern from its sign and the rest.
* `add`, `mul`: The two operations.
* `ofInt`: The number closest to an integer.
* `Represents`: A finite number is an integer.

## Theorems

* `roundBits_normal`: A magnitude with 24 significant bits is not rounded.
* `magnitude_normal`: And can be read back.
* `represents_pack`, `represents_ofInt`: An integer of 24 bits is represented.
* `represents_mul`: Multiplication is exact on such integers.
* `add_ofInt`: So is addition, and it gives the positive zero.
* `dot_exact`: And dot products.
-/

namespace Binary32

/-- The sign bit. -/
def sign (w : BitVec 32) : Bool := decide (2 ^ 31 ≤ w.toNat)

/-- The biased exponent. -/
def exponent (w : BitVec 32) : Nat := w.toNat / 2 ^ 23 % 2 ^ 8

/-- The fraction. -/
def fraction (w : BitVec 32) : Nat := w.toNat % 2 ^ 23

/-- The magnitude of a finite number, in units of `2 ^ -149`. -/
def magnitude (w : BitVec 32) : Nat :=
  if exponent w = 0 then fraction w else (2 ^ 23 + fraction w) * 2 ^ (exponent w - 1)

/-- A finite number, in units of `2 ^ -149`. -/
def value (w : BitVec 32) : Int := if sign w then -(magnitude w : Int) else magnitude w

/-- Not a number. -/
def isNaN (w : BitVec 32) : Bool := exponent w == 255 && fraction w != 0

/-- One of the two infinities. -/
def isInfinite (w : BitVec 32) : Bool := exponent w == 255 && fraction w == 0

/-- One of the two zeros. -/
def isZero (w : BitVec 32) : Bool := exponent w == 0 && fraction w == 0

/-- The quotient of two naturals, rounded to nearest with ties to even. -/
def roundHalfEven (v d : Nat) : Nat :=
  if 2 * (v % d) < d then v / d
  else if d < 2 * (v % d) then v / d + 1
  else v / d + v / d % 2

/-- The exponent and fraction of the number closest to `v` units of
    `2 ^ -(149 + k)`. A magnitude too large is infinite. -/
def roundBits (k v : Nat) : Nat :=
  let e := Nat.log2 v - (23 + k)
  min (e * 2 ^ 23 + roundHalfEven v (2 ^ (e + k))) (255 * 2 ^ 23)

/-- The bit pattern with the given sign. -/
def pack (s : Bool) (bits : Nat) : BitVec 32 := BitVec.ofNat 32 ((if s then 2 ^ 31 else 0) + bits)

/-- The NaN that invalid operations give. -/
def nan : BitVec 32 := 0x7FC00000

/-- Addition. An exact sum of zero is positive, unless both terms are negative
    zeros. -/
def add (x y : BitVec 32) : BitVec 32 :=
  if isNaN x || isNaN y then nan
  else if isInfinite x then (if isInfinite y && sign x != sign y then nan else x)
  else if isInfinite y then y
  else
    let s := value x + value y
    if s = 0 then pack (sign x && sign y) 0 else pack (decide (s < 0)) (roundBits 0 s.natAbs)

/-- Multiplication. -/
def mul (x y : BitVec 32) : BitVec 32 :=
  if isNaN x || isNaN y then nan
  else if isInfinite x || isInfinite y then
    (if isZero x || isZero y then nan else pack (sign x != sign y) (255 * 2 ^ 23))
  else pack (sign x != sign y) (roundBits 149 (magnitude x * magnitude y))

/-- The number closest to an integer. -/
def ofInt (z : Int) : BitVec 32 := pack (decide (z < 0)) (roundBits 0 (z.natAbs * 2 ^ 149))

/-- The finite number `w` is the integer `z`. -/
structure Represents (w : BitVec 32) (z : Int) : Prop where
  finite : exponent w ≠ 255
  value : value w = z * 2 ^ 149

theorem sign_pack (s : Bool) (bits : Nat) (h : bits < 2 ^ 31) : sign (pack s bits) = s := by
  unfold sign pack
  rw [BitVec.toNat_ofNat]
  cases s with
  | true =>
      rw [if_pos rfl, decide_eq_true_eq]
      omega
  | false =>
      rw [if_neg Bool.false_ne_true, decide_eq_false_iff_not]
      omega

theorem exponent_pack (s : Bool) (bits : Nat) (h : bits < 2 ^ 31) :
    exponent (pack s bits) = bits / 2 ^ 23 := by
  unfold exponent pack
  rw [BitVec.toNat_ofNat]
  cases s with
  | true =>
      rw [if_pos rfl]
      omega
  | false =>
      rw [if_neg Bool.false_ne_true]
      omega

theorem fraction_pack (s : Bool) (bits : Nat) : fraction (pack s bits) = bits % 2 ^ 23 := by
  unfold fraction pack
  rw [BitVec.toNat_ofNat]
  cases s with
  | true =>
      rw [if_pos rfl]
      omega
  | false =>
      rw [if_neg Bool.false_ne_true]
      omega

theorem roundHalfEven_mul (q d : Nat) (hd : 0 < d) : roundHalfEven (q * d) d = q := by
  unfold roundHalfEven
  rw [Nat.mul_mod_left, Nat.mul_zero, if_pos hd, Nat.mul_div_cancel q hd]

/-- A magnitude with a significand of exactly 24 bits is not rounded. -/
theorem roundBits_normal (k q e : Nat) (hlow : 2 ^ 23 ≤ q) (hhigh : q < 2 ^ 24)
    (he : e + 1 < 255) : roundBits k (q * 2 ^ (e + k)) = e * 2 ^ 23 + q := by
  have hpow : 0 < 2 ^ (e + k) := Nat.two_pow_pos _
  have hlog : Nat.log2 (q * 2 ^ (e + k)) = 23 + (e + k) := by
    refine (Nat.log2_eq_iff (Nat.mul_ne_zero (by omega) (Nat.ne_of_gt hpow))).mpr ⟨?_, ?_⟩
    · rw [Nat.pow_add 2 23]
      exact Nat.mul_le_mul_right _ hlow
    · rw [show 23 + (e + k) + 1 = 24 + (e + k) by omega, Nat.pow_add 2 24]
      exact Nat.mul_lt_mul_of_pos_right hhigh hpow
  have hexp : 23 + (e + k) - (23 + k) = e := by omega
  unfold roundBits
  rw [hlog]
  simp only [hexp]
  rw [roundHalfEven_mul q _ hpow]
  omega

/-- And it can be read back. -/
theorem magnitude_normal (s : Bool) (q e : Nat) (hlow : 2 ^ 23 ≤ q) (hhigh : q < 2 ^ 24)
    (he : e + 1 < 255) :
    exponent (pack s (e * 2 ^ 23 + q)) = e + 1 ∧
      magnitude (pack s (e * 2 ^ 23 + q)) = q * 2 ^ e := by
  have hexp : exponent (pack s (e * 2 ^ 23 + q)) = e + 1 := by
    rw [exponent_pack s _ (by omega)]
    omega
  refine ⟨hexp, ?_⟩
  have hfrac : 2 ^ 23 + (e * 2 ^ 23 + q) % 2 ^ 23 = q := by omega
  rw [magnitude, hexp, if_neg (Nat.succ_ne_zero e), fraction_pack, hfrac, Nat.add_sub_cancel]

/-- An integer of 24 bits has a significand of exactly 24 bits. -/
theorem exists_normal (n : Nat) (hpos : 0 < n) (hn : n ≤ 2 ^ 24) :
    ∃ q e, 2 ^ 23 ≤ q ∧ q < 2 ^ 24 ∧ e ≤ 150 ∧ n * 2 ^ 149 = q * 2 ^ e := by
  by_cases htop : n = 2 ^ 24
  · exact ⟨2 ^ 23, 150, Nat.le_refl _, by decide, Nat.le_refl _, by rw [htop]; ring⟩
  · have hne : n ≠ 0 := by omega
    have hlt : Nat.log2 n < 24 := (Nat.log2_lt hne).mpr (by omega)
    have hle := Nat.log2_self_le hne
    have hgt : n < 2 ^ (Nat.log2 n + 1) := Nat.lt_log2_self
    -- Shift the leading bit to the top.
    have hshift : ∀ m, 2 ^ m * 2 ^ (23 - Nat.log2 n) = 2 ^ (m + (23 - Nat.log2 n)) :=
      fun m => (Nat.pow_add 2 m _).symm
    refine ⟨n * 2 ^ (23 - Nat.log2 n), 126 + Nat.log2 n, ?_, ?_, by omega, ?_⟩
    · have h := Nat.mul_le_mul_right (2 ^ (23 - Nat.log2 n)) hle
      rw [hshift, show Nat.log2 n + (23 - Nat.log2 n) = 23 by omega] at h
      exact h
    · have h := Nat.mul_lt_mul_of_pos_right hgt (Nat.two_pow_pos (23 - Nat.log2 n))
      rw [hshift, show Nat.log2 n + 1 + (23 - Nat.log2 n) = 24 by omega] at h
      exact h
    · rw [Nat.mul_assoc, ← Nat.pow_add,
        show 23 - Nat.log2 n + (126 + Nat.log2 n) = 149 by omega]

/-- The unit an integer is measured in does not matter. -/
theorem roundBits_scale (k n : Nat) (hn : n ≤ 2 ^ 24) :
    roundBits k (n * 2 ^ 149 * 2 ^ k) = roundBits 0 (n * 2 ^ 149) := by
  rcases Nat.eq_zero_or_pos n with rfl | hpos
  · simp only [Nat.zero_mul]
    have hzero : ∀ j, roundBits j 0 = 0 := by
      intro j
      have hlog : Nat.log2 0 - (23 + j) = 0 := by
        rw [Nat.log2_zero, Nat.zero_sub]
      unfold roundBits
      rw [hlog]
      simp only [Nat.zero_add, Nat.zero_mul]
      have hround := roundHalfEven_mul 0 (2 ^ j) (Nat.two_pow_pos j)
      rw [Nat.zero_mul] at hround
      rw [hround]
      exact Nat.zero_min _
    rw [hzero, hzero]
  · rcases exists_normal n hpos hn with ⟨q, e, hlow, hhigh, he, heq⟩
    rw [heq, Nat.mul_assoc, ← Nat.pow_add, roundBits_normal k q e hlow hhigh (by omega)]
    exact (roundBits_normal 0 q e hlow hhigh (by omega)).symm

/-- A packed integer of 24 bits is that integer. -/
theorem represents_pack (s : Bool) (n : Nat) (hn : n ≤ 2 ^ 24) :
    Represents (pack s (roundBits 0 (n * 2 ^ 149))) (if s then -(n : Int) else n) ∧
      sign (pack s (roundBits 0 (n * 2 ^ 149))) = s := by
  rcases Nat.eq_zero_or_pos n with rfl | hpos
  · have hzero : roundBits 0 (0 * 2 ^ 149) = 0 := by decide
    rw [hzero]
    cases s with
    | true => exact ⟨⟨by decide, by decide⟩, by decide⟩
    | false => exact ⟨⟨by decide, by decide⟩, by decide⟩
  · rcases exists_normal n hpos hn with ⟨q, e, hlow, hhigh, he, heq⟩
    have hround : roundBits 0 (n * 2 ^ 149) = e * 2 ^ 23 + q := by
      rw [heq]
      exact roundBits_normal 0 q e hlow hhigh (by omega)
    rw [hround]
    rcases magnitude_normal s q e hlow hhigh (by omega) with ⟨hexp, hmag⟩
    have hsign := sign_pack s (e * 2 ^ 23 + q) (by omega)
    refine ⟨⟨by omega, ?_⟩, hsign⟩
    rw [value, hsign, hmag, ← heq]
    cases s with
    | true =>
        rw [if_pos rfl, if_pos rfl]
        push_cast
        ring
    | false =>
        rw [if_neg Bool.false_ne_true, if_neg Bool.false_ne_true]
        push_cast
        ring

theorem represents_ofInt (z : Int) (hz : z.natAbs ≤ 2 ^ 24) : Represents (ofInt z) z := by
  have h := (represents_pack (decide (z < 0)) z.natAbs hz).1
  have hval : (if decide (z < 0) = true then -(z.natAbs : Int) else z.natAbs) = z := by
    by_cases hneg : z < 0
    · rw [decide_eq_true hneg, if_pos rfl]
      omega
    · rw [decide_eq_false hneg, if_neg Bool.false_ne_true]
      omega
  rw [hval] at h
  exact h

/-- The magnitude and the sign of a number that is an integer. -/
theorem represents_parts (w : BitVec 32) (z : Int) (h : Represents w z) :
    magnitude w = z.natAbs * 2 ^ 149 ∧ z = if sign w then -(z.natAbs : Int) else z.natAbs := by
  have hval := h.value
  unfold value at hval
  cases hs : sign w with
  | true =>
      rw [hs, if_pos rfl] at hval
      rw [if_pos rfl]
      omega
  | false =>
      rw [hs, if_neg Bool.false_ne_true] at hval
      rw [if_neg Bool.false_ne_true]
      omega

theorem not_special (w : BitVec 32) (h : exponent w ≠ 255) :
    isNaN w = false ∧ isInfinite w = false := by
  have hne : (exponent w == 255) = false := beq_eq_false_iff_ne.mpr h
  unfold isNaN isInfinite
  rw [hne]
  exact ⟨rfl, rfl⟩

/-- Multiplication is exact on integers whose product has 24 bits. -/
theorem represents_mul (x y : BitVec 32) (a b : Int) (hx : Represents x a) (hy : Represents y b)
    (hab : (a * b).natAbs ≤ 2 ^ 24) : Represents (mul x y) (a * b) := by
  rcases not_special x hx.finite with ⟨hnx, hix⟩
  rcases not_special y hy.finite with ⟨hny, hiy⟩
  rcases represents_parts x a hx with ⟨hmx, hsx⟩
  rcases represents_parts y b hy with ⟨hmy, hsy⟩
  have habs : (a * b).natAbs = a.natAbs * b.natAbs := Int.natAbs_mul a b
  have hmul : mul x y =
      pack (sign x != sign y) (roundBits 0 ((a * b).natAbs * 2 ^ 149)) := by
    unfold mul
    rw [hnx, hny, hix, hiy, hmx, hmy]
    simp only [Bool.or_self, Bool.false_eq_true, if_false]
    rw [show a.natAbs * 2 ^ 149 * (b.natAbs * 2 ^ 149) = (a * b).natAbs * 2 ^ 149 * 2 ^ 149 by
      rw [habs]; ring, roundBits_scale 149 _ hab]
  have hval : (if (sign x != sign y) = true then -((a * b).natAbs : Int) else (a * b).natAbs) =
      a * b := by
    rw [habs, Nat.cast_mul]
    generalize a.natAbs = m at hsx
    generalize b.natAbs = n at hsy
    cases hs : sign x with
    | true =>
        rw [hs, if_pos rfl] at hsx
        cases hs' : sign y with
        | true =>
            rw [hs', if_pos rfl] at hsy
            rw [if_neg (by decide), hsx, hsy, neg_mul_neg]
        | false =>
            rw [hs', if_neg Bool.false_ne_true] at hsy
            rw [if_pos (by decide), hsx, hsy, neg_mul]
    | false =>
        rw [hs, if_neg Bool.false_ne_true] at hsx
        cases hs' : sign y with
        | true =>
            rw [hs', if_pos rfl] at hsy
            rw [if_pos (by decide), hsx, hsy, mul_neg]
        | false =>
            rw [hs', if_neg Bool.false_ne_true] at hsy
            rw [if_neg (by decide), hsx, hsy]
  have h := (represents_pack (sign x != sign y) _ hab).1
  rw [hval] at h
  rw [hmul]
  exact h

theorem sign_ofInt (z : Int) (hz : z.natAbs ≤ 2 ^ 24) : sign (ofInt z) = decide (z < 0) :=
  (represents_pack (decide (z < 0)) z.natAbs hz).2

/-- Addition to a converted integer is exact where the sum has 24 bits, and
    gives the conversion of the sum: no negative zero comes out of it. -/
theorem add_ofInt (s : Int) (y : BitVec 32) (b : Int) (hs : s.natAbs ≤ 2 ^ 24)
    (hy : Represents y b) : add (ofInt s) y = ofInt (s + b) := by
  have hx := represents_ofInt s hs
  rcases not_special _ hx.finite with ⟨hnx, hix⟩
  rcases not_special y hy.finite with ⟨hny, hiy⟩
  have hsum : value (ofInt s) + value y = (s + b) * 2 ^ 149 := by
    rw [hx.value, hy.value]
    ring
  unfold add
  rw [hnx, hny, hix, hiy, hsum]
  simp only [Bool.or_self, Bool.false_eq_true, if_false]
  by_cases hzero : s + b = 0
  · -- The terms cancel, so they are not both negative.
    have hsign : (sign (ofInt s) && sign y) = false := by
      rw [sign_ofInt s hs]
      by_cases hneg : s < 0
      · rcases represents_parts y b hy with ⟨-, hb⟩
        cases hsy : sign y with
        | true =>
            rw [hsy, if_pos rfl] at hb
            omega
        | false => exact Bool.and_false _
      · rw [decide_eq_false hneg]
        exact Bool.false_and _
    rw [hzero, Int.zero_mul, if_pos rfl, hsign]
    decide
  · have hne : (s + b) * 2 ^ 149 ≠ 0 := by omega
    have hlt : ((s + b) * 2 ^ 149 < 0) ↔ s + b < 0 := by omega
    have habs : ((s + b) * 2 ^ 149).natAbs = (s + b).natAbs * 2 ^ 149 := by omega
    rw [if_neg hne, habs, ofInt]
    simp only [hlt]

/-- A dot product of integers whose absolute terms add up to at most `2 ^ 24`
    is the integer dot product. -/
theorem dot_exact (x y : Nat → BitVec 32) (f g : Nat → Int) (n : Nat)
    (hx : ∀ k < n, Represents (x k) (f k)) (hy : ∀ k < n, Represents (y k) (g k))
    (hsum : ∑ k ∈ Finset.range n, (f k * g k).natAbs ≤ 2 ^ 24) :
    (List.range n).foldl (fun s k => add s (mul (x k) (y k))) 0 =
      ofInt (∑ k ∈ Finset.range n, f k * g k) := by
  induction n with
  | zero =>
      rw [List.range_zero, List.foldl_nil, Finset.sum_range_zero]
      decide
  | succ n ih =>
      rw [Finset.sum_range_succ] at hsum
      have hbefore := ih (fun k hk => hx k (by omega)) (fun k hk => hy k (by omega)) (by omega)
      have hterm := represents_mul _ _ _ _ (hx n (by omega)) (hy n (by omega)) (by omega)
      -- The partial sum is no larger than the sum of the absolute terms.
      have hpart : (∑ k ∈ Finset.range n, f k * g k).natAbs ≤ 2 ^ 24 :=
        (Int.natAbs_sum_le (Finset.range n) (fun k => f k * g k)).trans (by omega)
      rw [List.range_succ, List.foldl_append, List.foldl_cons, List.foldl_nil, hbefore,
        add_ofInt _ _ _ hpart hterm, Finset.sum_range_succ]

end Binary32
