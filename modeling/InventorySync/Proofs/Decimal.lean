import InventorySync.Number.Shortest
import Mathlib.Algebra.Order.Ring.Nat
import Mathlib.Tactic.Ring

/-!
# The shortest numeral of a double reads back

Rounding looks at the value of a numeral alone, so zeros at its end may be moved into its exponent;
and a double is rounded to itself, so its exact value reads back when none of the shorter numerals
does.

## Key results

- `ofDecimal?_mul_pow`: zeros more at the end of a numeral, and as many less in its exponent
- `readsBack_exactly`: the exact value reads back
- `readsBack_shortest`: so does the shortest numeral, zero's included
-/

namespace InventorySync.Binary64

/-! ## Rounding -/

/-- `nearest` looks at the quotient alone. -/
theorem nearest_scale (a d : Nat) {k : Nat} (hk : 0 < k) :
    nearest (a * k) (d * k) = nearest a d := by
  have hdiv : a * k / (d * k) = a / d := Nat.mul_div_mul_right a d hk
  have hmod : a * k % (d * k) = a % d * k := Nat.mul_mod_mul_right k a d
  have hbelow : 2 * (a % d * k) < d * k ↔ 2 * (a % d) < d := by
    rw [← Nat.mul_assoc]
    exact Nat.mul_lt_mul_right hk
  have habove : d * k < 2 * (a % d * k) ↔ d < 2 * (a % d) := by
    rw [← Nat.mul_assoc]
    exact Nat.mul_lt_mul_right hk
  simp only [nearest, hdiv, hmod, hbelow, habove]

theorem nearest_of_dvd {a d : Nat} (hd : 0 < d) : nearest (a * d) d = a := by
  simp only [nearest, Nat.mul_div_left a hd, Nat.mul_mod_left, Nat.mul_zero, hd, if_true]

theorem ofQuotient?_scale (negative : Bool) (a d : Nat) {k : Nat} (hk : 0 < k) :
    ofQuotient? negative (a * k) (d * k) = ofQuotient? negative a d := by
  have hshift : a * k * Nat.pow 2 1074 = a * Nat.pow 2 1074 * k := Nat.mul_right_comm _ _ _
  have hdiv : a * Nat.pow 2 1074 * k / (d * k) = a * Nat.pow 2 1074 / d :=
    Nat.mul_div_mul_right _ _ hk
  have hunit : ∀ scale, d * k * Nat.pow 2 scale = d * Nat.pow 2 scale * k :=
    fun scale => Nat.mul_right_comm _ _ _
  simp only [ofQuotient?, hshift, hdiv, hunit, nearest_scale _ _ hk]

theorem pow_mul_pow (b : Nat) {k l n : Nat} (h : k + l = n) :
    Nat.pow b k * Nat.pow b l = Nat.pow b n := by
  subst h
  exact (Nat.pow_add b k l).symm

/-- `ofQuotient?` rounds a value of the format to itself. The least unit is a variable of the
hypothesis, so that its power is never computed. -/
theorem ofQuotient?_of_eq {x : Binary64} (hx : x.significand ≠ 0) {a d : Nat} (hd : 0 < d)
    (h : ∀ k, k = 1074 → a * Nat.pow 2 k = x.significand * Nat.pow 2 x.scale * d) :
    ofQuotient? x.negative a d = some x := by
  replace h := h 1074 rfl
  have hlt : x.significand < 2 ^ 53 := x.significand_lt
  have hpow : 0 < Nat.pow 2 x.scale := Nat.two_pow_pos _
  have hvalue : x.significand * Nat.pow 2 x.scale ≠ 0 := Nat.mul_ne_zero hx (by omega)
  -- The unit that is chosen is that of the number.
  have hscale : Nat.log2 (x.significand * Nat.pow 2 x.scale) - 52 = x.scale := by
    rcases x.normal with hnormal | hzero
    · have hlog : Nat.log2 (x.significand * Nat.pow 2 x.scale) = 52 + x.scale := by
        rw [Nat.log2_eq_iff hvalue]
        constructor
        · rw [Nat.pow_add]
          exact Nat.mul_le_mul_right _ hnormal
        · rw [show 52 + x.scale + 1 = 53 + x.scale by omega, Nat.pow_add]
          exact Nat.mul_lt_mul_of_pos_right hlt hpow
      omega
    · have hone : x.significand * Nat.pow 2 x.scale = x.significand := by
        rw [hzero]
        exact Nat.mul_one _
      have hlog : Nat.log2 x.significand < 53 := (Nat.log2_lt hx).mpr hlt
      rw [hone]
      omega
  have hdiv : a * Nat.pow 2 1074 / d = x.significand * Nat.pow 2 x.scale := by
    rw [h, Nat.mul_div_left _ hd]
  have hround : nearest (a * Nat.pow 2 1074) (d * Nat.pow 2 x.scale) = x.significand := by
    rw [h, Nat.mul_assoc, Nat.mul_comm (Nat.pow 2 x.scale) d]
    exact nearest_of_dvd (Nat.mul_pos hd hpow)
  have hne : x.significand ≠ Nat.pow 2 53 := Nat.ne_of_lt hlt
  simp only [ofQuotient?, hdiv, hscale, hround, if_neg hne]
  exact dif_pos ⟨x.significand_lt, x.normal, x.scale_le⟩

/-! ## Numerals -/

theorem digitCount_le_iff {n k : Nat} (hk : 0 < k) : digitCount n ≤ k ↔ n < 10 ^ k :=
  Nat.length_toDigits_le_iff (by decide) hk

theorem digitCount_pos (n : Nat) : 0 < digitCount n := Nat.length_toDigits_pos

theorem digitCount_mul_ten {d : Nat} (hd : d ≠ 0) : digitCount (d * 10) = digitCount d + 1 := by
  have happend := Nat.toDigits_append_toDigits (b := 10) (d := 0) (by decide)
    (Nat.pos_of_ne_zero hd) (by decide)
  rw [Nat.add_zero, Nat.mul_comm 10 d] at happend
  unfold digitCount
  rw [← happend, List.length_append]
  rfl

/-- `ofDecimal?` reads the same number with a zero more at the end and one less in the exponent. -/
theorem ofDecimal?_mul_ten (negative : Bool) {d : Nat} (hd : d ≠ 0) (e : Int) :
    ofDecimal? negative (d * 10) (e - 1) = ofDecimal? negative d e := by
  have hten : d * 10 ≠ 0 := by omega
  have hmagnitude : (digitCount (d * 10) : Int) + (e - 1) = (digitCount d : Int) + e := by
    rw [digitCount_mul_ten hd]
    omega
  have hscaled : (if 0 ≤ e - 1 then ofQuotient? negative (d * 10 * Nat.pow 10 (e - 1).toNat) 1
      else ofQuotient? negative (d * 10) (Nat.pow 10 (-(e - 1)).toNat)) =
      if 0 ≤ e then ofQuotient? negative (d * Nat.pow 10 e.toNat) 1
      else ofQuotient? negative d (Nat.pow 10 (-e).toNat) := by
    -- The factor goes from one side of the quotient to the other where the exponent passes zero.
    rcases lt_trichotomy e 0 with hneg | rfl | hpos
    · have hexp : (-(e - 1)).toNat = (-e).toNat + 1 := by omega
      rw [if_neg (by omega), if_neg (by omega), hexp]
      exact ofQuotient?_scale negative d (10 ^ (-e).toNat) (k := 10) (by decide)
    · have hdown : Nat.pow 10 (-((0 : Int) - 1)).toNat = 1 * 10 := rfl
      have hsame : d * Nat.pow 10 (0 : Int).toNat = d := Nat.mul_one d
      rw [if_neg (by decide), if_pos (by decide), hdown, hsame]
      exact ofQuotient?_scale negative d 1 (by decide)
    · have hexp : e.toNat = (e - 1).toNat + 1 := by omega
      have hvalue : d * 10 * Nat.pow 10 (e - 1).toNat = d * Nat.pow 10 e.toNat := by
        rw [hexp]
        show d * 10 * 10 ^ _ = d * 10 ^ (_ + 1)
        ring
      rw [if_pos (by omega), if_pos (by omega), hvalue]
  simp only [ofDecimal?, hten, hd, hmagnitude, hscaled, false_or]

theorem ofDecimal?_mul_pow (negative : Bool) {d : Nat} (hd : d ≠ 0) (e : Int) (k : Nat) :
    ofDecimal? negative (d * 10 ^ k) (e - k) = ofDecimal? negative d e := by
  induction k with
  | zero => simp
  | succ k ih =>
    have hpow : d * 10 ^ k ≠ 0 := Nat.mul_ne_zero hd (Nat.pow_pos (by decide)).ne'
    have hstep := ofDecimal?_mul_ten negative hpow (e - k)
    rw [← ih, ← hstep]
    congr 1
    · ring
    · push_cast
      ring

/-- A numeral that `ReadsBack` as another number than zero has `digits`. -/
theorem digits_ne_zero_of_readsBack {x : Binary64} (hx : x.significand ≠ 0) {n : Numeral}
    (h : x.ReadsBack n) : n.digits ≠ 0 := by
  intro hzero
  simp only [ReadsBack, ofDecimal?, hzero, true_or, if_true, Option.some.injEq] at h
  exact hx (by rw [← h]; rfl)

/-- `trim` keeps `ReadsBack`: zeros at the end change nothing. -/
theorem readsBack_trim {x : Binary64} (fuel : Nat) {n : Numeral} (h : x.ReadsBack n) :
    x.ReadsBack (n.trim fuel) := by
  induction fuel generalizing n with
  | zero => exact h
  | succ fuel ih =>
    unfold Numeral.trim
    split
    next hzero =>
      refine ih ?_
      have hdigits : n.digits / 10 * 10 = n.digits := by omega
      have hne : n.digits / 10 ≠ 0 := by omega
      have hsame := ofDecimal?_mul_ten x.negative hne (n.exponent + 1)
      rw [hdigits, Int.add_sub_cancel] at hsame
      show ofDecimal? x.negative (n.digits / 10) (n.exponent + 1) = some x
      rw [← hsame]
      exact h
    next => exact h

/-! ## The exact value -/

/-- `2 ^ 205` is a little less than `10 ^ 62`. -/
theorem two_pow_le_ten_pow {k j : Nat} (m : Nat) (hk : k ≤ 205 * m) (hj : 62 * m ≤ j) :
    2 ^ k ≤ 10 ^ j :=
  calc 2 ^ k ≤ 2 ^ (205 * m) := Nat.pow_le_pow_right (by decide) hk
    _ = (2 ^ 205) ^ m := Nat.pow_mul 2 205 m
    _ ≤ (10 ^ 62) ^ m := Nat.pow_le_pow_left (by decide) m
    _ = 10 ^ (62 * m) := (Nat.pow_mul 10 62 m).symm
    _ ≤ 10 ^ j := Nat.pow_le_pow_right (by decide) hj

/-- `digitCount` of a multiple of a large unit is at most 310. -/
theorem digitCount_large {m k : Nat} (hm : m < Nat.pow 2 53) (hk : k ≤ 971) :
    digitCount (m * Nat.pow 2 k) ≤ 310 := by
  refine (digitCount_le_iff (by decide)).mpr ?_
  calc m * Nat.pow 2 k < Nat.pow 2 53 * Nat.pow 2 k :=
        Nat.mul_lt_mul_of_pos_right hm (Nat.two_pow_pos k)
    _ = Nat.pow 2 (53 + k) := pow_mul_pow 2 rfl
    _ ≤ 10 ^ 310 := two_pow_le_ten_pow 5 (by omega) (by decide)

theorem digitCount_small_le {m : Nat} (hm : m < Nat.pow 2 53) (k : Nat) :
    digitCount (m * Nat.pow 5 k) ≤ 16 + k := by
  refine (digitCount_le_iff (by omega)).mpr ?_
  calc m * Nat.pow 5 k < Nat.pow 2 53 * 10 ^ k :=
        Nat.mul_lt_mul_of_lt_of_le hm (Nat.pow_le_pow_left (by decide) k) (Nat.pow_pos (by decide))
    _ ≤ 10 ^ 16 * 10 ^ k := Nat.mul_le_mul_right _ (by decide)
    _ = 10 ^ (16 + k) := (Nat.pow_add 10 16 k).symm

/-- Five to the power of `k` falls behind ten to that power by a factor of at most `10 ^ 400`. -/
theorem le_digitCount_small {m k : Nat} (hm : m ≠ 0) (hk : k ≤ 1074) :
    k ≤ 400 + digitCount (m * Nat.pow 5 k) := by
  by_contra hfew
  have hcount : digitCount (m * Nat.pow 5 k) ≤ k - 400 := by omega
  have hlt : m * 5 ^ k < 10 ^ (k - 400) := (digitCount_le_iff (by omega)).mp hcount
  have hone : 5 ^ k ≤ m * 5 ^ k := Nat.le_mul_of_pos_left _ (by omega)
  have hpowers : 10 ^ k < 10 ^ k :=
    calc 10 ^ k = 2 ^ k * 5 ^ k := Nat.mul_pow 2 5 k
      _ < 2 ^ k * 10 ^ (k - 400) :=
        Nat.mul_lt_mul_of_pos_left (hone.trans_lt hlt) (Nat.two_pow_pos k)
      _ ≤ 10 ^ 400 * 10 ^ (k - 400) :=
        Nat.mul_le_mul_right _ (two_pow_le_ten_pow 6 (by omega) (by decide))
      _ = 10 ^ k := by rw [← Nat.pow_add, Nat.add_sub_cancel' (by omega)]
  exact Nat.lt_irrefl _ hpowers

/-- Between its two bounds, `ofDecimal?` is `ofQuotient?` of the digits and a power of ten. -/
theorem ofDecimal?_of_bounds {negative : Bool} {d : Nat} {e : Int} (hd : d ≠ 0)
    (hlower : -400 ≤ (digitCount d : Int) + e) (hupper : (digitCount d : Int) + e < 311) :
    ofDecimal? negative d e =
      if 0 ≤ e then ofQuotient? negative (d * Nat.pow 10 e.toNat) 1
      else ofQuotient? negative d (Nat.pow 10 (-e).toNat) := by
  have hinside : ¬ (d = 0 ∨ (digitCount d : Int) + e < -400) := by
    rintro (h | h)
    · exact hd h
    · omega
  have hbelow : ¬ 311 ≤ (digitCount d : Int) + e := by omega
  simp only [ofDecimal?, if_neg hinside, if_neg hbelow]

theorem readsBack_exactly {x : Binary64} (hx : x.significand ≠ 0) : x.ReadsBack x.exactly := by
  have hscale := x.scale_le
  unfold ReadsBack exactly
  split
  -- A whole number: its digits are few enough, and it is scaled by the same power of two.
  next hlarge =>
    have hne : x.significand * Nat.pow 2 (x.scale - 1074) ≠ 0 :=
      Nat.mul_ne_zero hx (Nat.two_pow_pos _).ne'
    have hpos := digitCount_pos (x.significand * Nat.pow 2 (x.scale - 1074))
    have hcount := digitCount_large (k := x.scale - 1074) x.significand_lt (by omega)
    have hone : x.significand * Nat.pow 2 (x.scale - 1074) * Nat.pow 10 (0 : Int).toNat =
        x.significand * Nat.pow 2 (x.scale - 1074) := Nat.mul_one _
    show ofDecimal? _ (x.significand * Nat.pow 2 (x.scale - 1074)) 0 = _
    rw [ofDecimal?_of_bounds hne (by omega) (by omega), if_pos (by decide), hone]
    refine ofQuotient?_of_eq hx Nat.one_pos fun k hk => ?_
    have hsum : x.scale - 1074 + k = x.scale := by omega
    rw [Nat.mul_assoc, pow_mul_pow 2 hsum, Nat.mul_one]
  -- A fraction: a power of five turns halves into tenths.
  next hsmall =>
    have hk : 1074 - x.scale + x.scale = 1074 := Nat.sub_add_cancel (by omega)
    have hk' : 1074 - x.scale ≤ 1074 := Nat.sub_le _ _
    have hpos : 0 < 1074 - x.scale := by omega
    generalize 1074 - x.scale = k at hk hk' hpos ⊢
    have hne : x.significand * Nat.pow 5 k ≠ 0 :=
      Nat.mul_ne_zero hx (Nat.pow_pos (by decide)).ne'
    have hupper := digitCount_small_le x.significand_lt k
    have hlower := le_digitCount_small hx hk'
    have hexp : (- -(k : Int)).toNat = k := by omega
    have hten : Nat.pow 5 k * Nat.pow 2 k = Nat.pow 10 k := (Nat.mul_pow 5 2 k).symm
    show ofDecimal? _ (x.significand * Nat.pow 5 k) (-(k : Int)) = _
    rw [ofDecimal?_of_bounds hne (by omega) (by omega), if_neg (by omega), hexp]
    -- Both sides are the significand times powers of two and five.
    refine ofQuotient?_of_eq hx (Nat.pow_pos (by decide)) fun l hl => ?_
    rw [← pow_mul_pow 2 (hk.trans hl.symm), ← hten]
    generalize Nat.pow 5 k = five, Nat.pow 2 k = two, Nat.pow 2 x.scale = unit
    ring

/-! ## The shortest numeral -/

theorem eq_zero {x : Binary64} (hx : x.significand = 0) : x = zero x.negative := by
  obtain ⟨negative, significand, scale, _, hnormal, _⟩ := x
  obtain rfl : significand = 0 := hx
  have hscale : scale = 0 := hnormal.resolve_left (by decide)
  subst hscale
  rfl

theorem readsBack_either? {x : Binary64} {first second n : Numeral}
    (h : x.either? first second = some n) : x.ReadsBack n := by
  unfold either? at h
  split at h
  case isTrue hfirst =>
    rw [← Option.some.inj h]
    exact hfirst
  case isFalse =>
    split at h
    case isTrue hsecond =>
      rw [← Option.some.inj h]
      exact hsecond
    case isFalse => cases h

/-- A numeral that `withDigits?` finds `ReadsBack`. -/
theorem readsBack_withDigits? {x : Binary64} {count : Nat} {n : Numeral}
    (h : x.withDigits? count = some n) : x.ReadsBack n := by
  simp only [withDigits?] at h
  split at h
  · exact readsBack_either? h
  · exact readsBack_either? h

theorem readsBack_shortest (x : Binary64) : x.ReadsBack x.shortest := by
  by_cases hx : x.significand = 0
  · have hzero : x.shortest = ⟨0, 0⟩ := if_pos hx
    rw [hzero]
    show some (zero x.negative) = some x
    rw [← eq_zero hx]
  · unfold shortest
    rw [if_neg hx]
    split
    next n hfound =>
      obtain ⟨i, -, hi⟩ := List.exists_of_findSome?_eq_some hfound
      exact readsBack_trim 17 (readsBack_withDigits? hi)
    next => exact readsBack_exactly hx

end InventorySync.Binary64
