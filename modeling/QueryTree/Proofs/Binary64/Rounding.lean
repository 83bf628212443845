import Mathlib.Algebra.Order.Field.Power
import Mathlib.Tactic.FieldSimp
import Mathlib.Tactic.Linarith
import Mathlib.Tactic.NormNum
import Mathlib.Tactic.Positivity
import QueryTree.Binary64

/-!
# Rounding to binary64 numbers

A quotient is rounded in units of a power of two (`ofRatio`).  The exponent is guessed
from the binary lengths of its two parts, corrected by one if the guess is too large,
and raised to the least exponent.

*Canonical numbers.*  Each number has one form (`Canonical`).  Whatever is rounded has
that form (`canonical_ofDecimal`).

*Cells.*  The numbers that are rounded to `c · 2^e` form a cell around it (`RoundsTo`).
The cell ends half way to the next numbers, and its ends belong to it if `c` is even.
Below a power of two the numbers are twice as dense, so there the cell is half as wide,
and what lies in that part is first rounded with a smaller exponent.

The main statements are `ofRatio_eq_finite` and `ofDecimal_eq_finite`.  What lies in the
cell of a canonical number is rounded to that number.
-/

namespace QueryTree.Binary64

/-! ## Canonical numbers -/

/-- The one form of each number. -/
def Canonical : Binary64 → Prop
  | .finite _ c e => c < 2 ^ 53 ∧ leastExponent ≤ e ∧ e ≤ greatestExponent ∧
      (c < 2 ^ 52 → e = leastExponent)
  | _ => True

/-- The distance from a coefficient to where the number below it begins.  Below a power
of two the numbers are twice as dense. -/
def gapBelow (c : Nat) (e : Int) : ℚ := if c = 2 ^ 52 ∧ leastExponent < e then 1 / 4 else 1 / 2

/-- A quotient in units of `2^e` lies so near to `c` that it is rounded to `c · 2^e`. -/
structure RoundsTo (x : ℚ) (c : Nat) (e : Int) : Prop where
  low : c - gapBelow c e ≤ x
  high : x ≤ c + 1 / 2
  strict : c % 2 = 1 → c - gapBelow c e < x ∧ x < c + 1 / 2

/-! ## Rounding a quotient to a whole number -/

/-- A quotient next to a whole number is rounded to it, and one half way between two if
that is even. -/
theorem divNearest_eq {a b c : Nat} (hb : 0 < b) (hlow : 2 * (c * b) ≤ 2 * a + b)
    (hhigh : 2 * a ≤ 2 * (c * b) + b)
    (hodd : c % 2 = 1 → 2 * (c * b) < 2 * a + b ∧ 2 * a < 2 * (c * b) + b) :
    divNearest a b = c := by
  have hdiv := Nat.div_add_mod' a b
  have hmod := Nat.mod_lt a hb
  simp only [divNearest]
  generalize a / b = q at hdiv ⊢
  generalize a % b = r at hdiv hmod ⊢
  have hnear : c = q ∨ c = q + 1 := by
    have hle : c < q + 2 := by
      by_contra hgt
      have hmul : (q + 2) * b ≤ c * b := Nat.mul_le_mul_right b (by omega)
      rw [Nat.add_mul] at hmul
      omega
    have hge : q < c + 1 := by
      by_contra hlt
      have hmul : (c + 1) * b ≤ q * b := Nat.mul_le_mul_right b (by omega)
      rw [Nat.add_mul, Nat.one_mul] at hmul
      omega
    omega
  rcases hnear with rfl | rfl
  · split_ifs <;> omega
  · rw [Nat.add_mul, Nat.one_mul] at hlow hhigh hodd
    split_ifs <;> omega

/-- A quotient at least as large as a whole number is not rounded below it. -/
theorem le_divNearest {a b c : Nat} (hb : 0 < b) (h : c * b ≤ a) : c ≤ divNearest a b := by
  have hq : c ≤ a / b := (Nat.le_div_iff_mul_le hb).mpr h
  simp only [divNearest]
  split_ifs <;> omega

/-- A quotient less than a whole number is not rounded above it. -/
theorem divNearest_le {a b c : Nat} (hb : 0 < b) (h : a < c * b) : divNearest a b ≤ c := by
  have hq : a / b < c := (Nat.div_lt_iff_lt_mul hb).mpr h
  simp only [divNearest]
  split_ifs <;> omega

/-! ## Units -/

/-- A power as a quotient of powers, one of which is one. -/
theorem pow_toNat_div (b : ℚ) (k : Int) : b ^ k.toNat / b ^ (-k).toNat = b ^ k := by
  cases k with
  | ofNat k =>
      have hneg : (-Int.ofNat k).toNat = 0 := Int.toNat_of_nonpos (by simp)
      rw [hneg, pow_zero, div_one]
      rfl
  | negSucc k =>
      have hneg : (-Int.negSucc k).toNat = k + 1 := rfl
      have hpos : (Int.negSucc k).toNat = 0 := rfl
      rw [hneg, hpos, pow_zero, zpow_negSucc, one_div]

theorem inUnits_pos {num den : Nat} (hden : 0 < den) (e : Int) : 0 < (inUnits num den e).2 := by
  cases e with
  | ofNat k => exact Nat.mul_pos hden (Nat.pow_pos (by decide))
  | negSucc k => exact hden

theorem inUnits_eq (num den : Nat) (e : Int) :
    ((inUnits num den e).1 : ℚ) / (inUnits num den e).2 = num / den / 2 ^ e := by
  cases e with
  | ofNat k =>
      simp only [inUnits, Int.ofNat_eq_natCast, zpow_natCast, Nat.pow_eq, Nat.cast_mul,
        Nat.cast_pow, Nat.cast_ofNat]
      rw [div_div]
  | negSucc k =>
      simp only [inUnits, zpow_negSucc, Nat.pow_eq, Nat.cast_mul, Nat.cast_pow, Nat.cast_ofNat]
      rw [div_inv_eq_mul, mul_div_right_comm]

theorem half_unit (x : ℚ) (e : Int) : x / 2 ^ (e - 1) = 2 * (x / 2 ^ e) := by
  rw [zpow_sub_one₀ two_ne_zero]
  field_simp

/-! ## The exponent that fits -/

/-- A coefficient with an exponent as a number.  A coefficient that has become too large is
halved. -/
def settled (negative : Bool) (e : Int) (c : Nat) : Binary64 :=
  let rounded := if c = 2 ^ 53 then (2 ^ 52, e + 1) else (c, e)
  if greatestExponent < rounded.2 then .infinite negative
  else .finite negative rounded.1 rounded.2

/-- The quotient in units of the exponent that is guessed first. -/
theorem units_at_guess {num den : Nat} (hnum : 0 < num) (hden : 0 < den) :
    (2 : ℚ) ^ 51 < num / den / 2 ^ ((num.log2 : Int) - den.log2 - 52) ∧
      (num : ℚ) / den / 2 ^ ((num.log2 : Int) - den.log2 - 52) < 2 ^ 53 := by
  have hnumLow : (2 : ℚ) ^ num.log2 ≤ num := by exact_mod_cast Nat.log2_self_le hnum.ne'
  have hnumHigh : (num : ℚ) < 2 ^ (num.log2 + 1) := by exact_mod_cast Nat.lt_log2_self
  have hdenLow : (2 : ℚ) ^ den.log2 ≤ den := by exact_mod_cast Nat.log2_self_le hden.ne'
  have hdenHigh : (den : ℚ) < 2 ^ (den.log2 + 1) := by exact_mod_cast Nat.lt_log2_self
  have hunit : (2 : ℚ) ^ ((num.log2 : Int) - den.log2 - 52) =
      2 ^ num.log2 / 2 ^ den.log2 / 2 ^ 52 := by
    rw [zpow_sub₀ two_ne_zero, zpow_sub₀ two_ne_zero, zpow_natCast, zpow_natCast]
    rfl
  have hposNum : (0 : ℚ) < 2 ^ num.log2 := by positivity
  have hposDen : (0 : ℚ) < 2 ^ den.log2 := by positivity
  have hden' : (0 : ℚ) < den := by exact_mod_cast hden
  rw [pow_succ] at hnumHigh hdenHigh
  rw [hunit]
  generalize (2 : ℚ) ^ num.log2 = x at *
  generalize (2 : ℚ) ^ den.log2 = y at *
  have hratio : (num : ℚ) / den / (x / y / 2 ^ 52) = num * y * 2 ^ 52 / (den * x) := by
    field_simp
  rw [hratio]
  constructor
  · rw [lt_div_iff₀ (by positivity)]
    nlinarith
  · rw [div_lt_iff₀ (by positivity)]
    nlinarith

/-- A quotient is rounded with the exponent for which its coefficient has 53 binary digits,
or with the least exponent if that is greater. -/
theorem ofRatio_eq {num den : Nat} (hnum : 0 < num) (hden : 0 < den) :
    ∃ fit : Int, (2 : ℚ) ^ 52 ≤ num / den / 2 ^ fit ∧ (num : ℚ) / den / 2 ^ fit < 2 ^ 53 ∧
      ∀ negative, ofRatio negative num den = settled negative (max fit leastExponent)
        (divNearest (inUnits num den (max fit leastExponent)).1
          (inUnits num den (max fit leastExponent)).2) := by
  obtain ⟨hlow, hhigh⟩ := units_at_guess hnum hden
  set guess : Int := (num.log2 : Int) - den.log2 - 52 with hguess
  have hpos := @inUnits_pos num den hden guess
  have hfloor : (inUnits num den guess).1 / (inUnits num den guess).2 < 2 ^ 52 ↔
      (num : ℚ) / den / 2 ^ guess < 2 ^ 52 := by
    rw [← inUnits_eq, Nat.div_lt_iff_lt_mul hpos, div_lt_iff₀ (by exact_mod_cast hpos)]
    exact_mod_cast Iff.rfl
  have hhalf := half_unit (num / den) guess
  by_cases hsmall : (inUnits num den guess).1 / (inUnits num den guess).2 < 2 ^ 52
  · refine ⟨guess - 1, ?_, ?_, fun negative => ?_⟩
    · rw [hhalf]
      linarith
    · rw [hhalf]
      linarith [hfloor.mp hsmall]
    · simp only [ofRatio, hnum.ne', if_false, ← hguess]
      simp only [Nat.pow_eq, hsmall, if_true, settled]
  · refine ⟨guess, not_lt.mp (mt hfloor.mpr hsmall), hhigh, fun negative => ?_⟩
    simp only [ofRatio, hnum.ne', if_false, ← hguess]
    simp only [Nat.pow_eq, hsmall, if_false, settled]

/-! ## Quotients that round to a number -/

theorem divNearest_inUnits {num den c : Nat} {e : Int} (hden : 0 < den)
    (hlow : (c : ℚ) - 1 / 2 ≤ num / den / 2 ^ e) (hhigh : (num : ℚ) / den / 2 ^ e ≤ c + 1 / 2)
    (hodd : c % 2 = 1 → (c : ℚ) - 1 / 2 < num / den / 2 ^ e ∧ (num : ℚ) / den / 2 ^ e < c + 1 / 2) :
    divNearest (inUnits num den e).1 (inUnits num den e).2 = c := by
  have hpos := @inUnits_pos num den hden e
  rw [← inUnits_eq] at hlow hhigh hodd
  generalize (inUnits num den e).1 = a at *
  generalize (inUnits num den e).2 = b at *
  have hb : (0 : ℚ) < b := by exact_mod_cast hpos
  rw [le_div_iff₀ hb] at hlow
  rw [div_le_iff₀ hb] at hhigh
  rw [lt_div_iff₀ hb, div_lt_iff₀ hb] at hodd
  refine divNearest_eq hpos ?_ ?_ fun h => ⟨?_, ?_⟩
  · have : (2 * (c * b) : ℚ) ≤ 2 * a + b := by linarith
    exact_mod_cast this
  · have : (2 * a : ℚ) ≤ 2 * (c * b) + b := by linarith
    exact_mod_cast this
  · have : (2 * (c * b) : ℚ) < 2 * a + b := by linarith [(hodd h).1]
    exact_mod_cast this
  · have : (2 * a : ℚ) < 2 * (c * b) + b := by linarith [(hodd h).2]
    exact_mod_cast this

/-- In greater units a number is at most half as much. -/
theorem two_mul_units_le {x : ℚ} (hx : 0 ≤ x) {e f : Int} (h : e < f) :
    2 * (x / 2 ^ f) ≤ x / 2 ^ e := by
  have hpow : (2 : ℚ) ^ (e + 1) ≤ 2 ^ f := zpow_le_zpow_right₀ one_le_two h
  have hunits : x / 2 ^ e = 2 * (x / 2 ^ (e + 1)) := by
    rw [zpow_add_one₀ two_ne_zero]
    field_simp
  rw [hunits]
  have : x / 2 ^ f ≤ x / 2 ^ (e + 1) := div_le_div_of_nonneg_left hx (by positivity) hpow
  linarith

theorem gapBelow_le (c : Nat) (e : Int) : gapBelow c e ≤ 1 / 2 := by
  rw [gapBelow]
  split_ifs <;> norm_num

/-- What rounds to a number that is not the least one of its exponent is rounded in units of
that exponent. -/
theorem fit_of_roundsTo {x : ℚ} (hx : 0 ≤ x) {negative : Bool} {c : Nat} {e fit : Int}
    (hcanonical : Canonical (.finite negative c e)) (h : RoundsTo (x / 2 ^ e) c e)
    (hlow : 2 ^ 52 ≤ x / 2 ^ fit) (hhigh : x / 2 ^ fit < 2 ^ 53) :
    max fit leastExponent = e ∨
      c = 2 ^ 52 ∧ leastExponent < e ∧ max fit leastExponent = e - 1 ∧
        x / 2 ^ e < 2 ^ 52 := by
  obtain ⟨hc, hleast, -, hsubnormal⟩ := hcanonical
  have hc' : (c : ℚ) + 1 ≤ 2 ^ 53 := by exact_mod_cast hc
  have hgap := gapBelow_le c e
  have hfit : fit ≤ e := by
    by_contra hlt
    have := two_mul_units_le hx (not_le.mp hlt)
    linarith [h.high]
  rcases hfit.eq_or_lt with rfl | hlt
  · exact Or.inl (max_eq_left hleast)
  · rcases hleast.eq_or_lt with rfl | hnormal
    · exact Or.inl (max_eq_right hfit)
    · have hbelow : x / 2 ^ e < 2 ^ 52 := by linarith [two_mul_units_le hx hlt]
      have hlarge : 2 ^ 52 ≤ c := by
        by_contra hsmall
        exact hnormal.ne' (hsubnormal (not_le.mp hsmall))
      have hpower : c = 2 ^ 52 := by
        have : (c : ℚ) < 2 ^ 52 + 1 := by linarith [h.low]
        have : c < 2 ^ 52 + 1 := by exact_mod_cast this
        omega
      have hhalf := half_unit x e
      have hnext : fit = e - 1 := by
        by_contra hne
        have := two_mul_units_le hx (lt_of_le_of_ne (Int.le_sub_one_of_lt hlt) hne)
        have := h.low
        rw [hpower] at this hgap
        push_cast at this
        linarith
      exact Or.inr ⟨hpower, hnormal, by omega, hbelow⟩

/-- A quotient that rounds to a number is rounded to it. -/
theorem ofRatio_eq_finite {num den : Nat} (hnum : 0 < num) (hden : 0 < den) {negative : Bool}
    {c : Nat} {e : Int} (hcanonical : Canonical (.finite negative c e))
    (h : RoundsTo (num / den / 2 ^ e) c e) : ofRatio negative num den = .finite negative c e := by
  obtain ⟨fit, hlow, hhigh, hround⟩ := ofRatio_eq hnum hden
  have hx : (0 : ℚ) ≤ num / den := by positivity
  have hgap := gapBelow_le c e
  rw [hround]
  rcases fit_of_roundsTo hx hcanonical h hlow hhigh with heq | ⟨hpower, hnormal, heq, hbelow⟩
  · have hnearest : divNearest (inUnits num den e).1 (inUnits num den e).2 = c :=
      divNearest_inUnits hden (by linarith [h.low]) h.high fun hodd =>
        ⟨by linarith [(h.strict hodd).1], (h.strict hodd).2⟩
    rw [heq, hnearest, settled, if_neg hcanonical.1.ne, if_neg (not_lt.mpr hcanonical.2.2.1)]
  · -- just below a power of two the coefficient is rounded up, and then halved
    have hlow' := h.low
    have hgap' : gapBelow c e = 1 / 4 := if_pos ⟨hpower, hnormal⟩
    have hhalf := half_unit (num / den) e
    rw [hgap', hpower] at hlow'
    push_cast at hlow'
    have hnearest :
        divNearest (inUnits num den (e - 1)).1 (inUnits num den (e - 1)).2 = 2 ^ 53 := by
      refine divNearest_inUnits hden ?_ ?_ fun hodd => absurd hodd (by decide)
      · rw [hhalf]
        push_cast
        linarith
      · rw [hhalf]
        push_cast
        linarith
    rw [heq, hnearest, settled, if_pos rfl, Int.sub_add_cancel,
      if_neg (not_lt.mpr hcanonical.2.2.1), hpower]

/-! ## Every rounded number is canonical -/

theorem canonical_settled {negative : Bool} {c : Nat} {e : Int} (hc : c ≤ 2 ^ 53)
    (he : leastExponent ≤ e) (hsubnormal : c < 2 ^ 52 → e = leastExponent) :
    Canonical (settled negative e c) := by
  simp only [settled]
  split
  · next hlarge =>
      split
      · trivial
      · next hle => exact ⟨by norm_num, by omega, not_lt.mp hle, fun h => absurd h (lt_irrefl _)⟩
  · next hlarge =>
      split
      · trivial
      · next hle => exact ⟨lt_of_le_of_ne hc hlarge, he, not_lt.mp hle, hsubnormal⟩

theorem canonical_ofRatio (negative : Bool) (num : Nat) {den : Nat} (hden : 0 < den) :
    Canonical (ofRatio negative num den) := by
  rcases Nat.eq_zero_or_pos num with rfl | hnum
  · exact ⟨by norm_num, le_refl _, by decide, fun _ => rfl⟩
  · obtain ⟨fit, hlow, hhigh, hround⟩ := ofRatio_eq hnum hden
    rw [hround]
    set e := max fit leastExponent with he
    have hpos := @inUnits_pos num den hden e
    have hb : (0 : ℚ) < (inUnits num den e).2 := by exact_mod_cast hpos
    have hunits : (num : ℚ) / den / 2 ^ e ≤ num / den / 2 ^ fit := by
      have hpow : (2 : ℚ) ^ fit ≤ 2 ^ e := zpow_le_zpow_right₀ one_le_two (le_max_left _ _)
      exact div_le_div_of_nonneg_left (by positivity) (by positivity) hpow
    have hhigh' : divNearest (inUnits num den e).1 (inUnits num den e).2 ≤ 2 ^ 53 := by
      refine divNearest_le hpos ?_
      have := hunits.trans_lt hhigh
      rw [← inUnits_eq, div_lt_iff₀ hb] at this
      exact_mod_cast this
    refine canonical_settled hhigh' (le_max_right _ _) fun hsmall => ?_
    by_contra hne
    have hfit : e = fit := by
      rcases max_choice fit leastExponent with hmax | hmax
      · exact he.trans hmax
      · exact absurd (he.trans hmax) hne
    rw [← hfit, ← inUnits_eq, le_div_iff₀ hb] at hlow
    have hlow' : 2 ^ 52 * (inUnits num den e).2 ≤ (inUnits num den e).1 := by exact_mod_cast hlow
    exact absurd (le_divNearest hpos hlow') (not_le.mpr hsmall)

/-! ## Decimals -/

theorem digitCount_of_pos {n : Nat} (hn : 0 < n) : digitCount n = (Nat.toDigits 10 n).length :=
  if_neg hn.ne'

theorem digitCount_pos {n : Nat} (hn : 0 < n) : 0 < digitCount n := by
  rw [digitCount_of_pos hn]
  exact Nat.length_toDigits_pos

theorem lt_pow_digitCount (n : Nat) : n < 10 ^ digitCount n := by
  rcases Nat.eq_zero_or_pos n with rfl | hn
  · exact Nat.one_pos
  · rw [← Nat.length_toDigits_le_iff (by decide) (digitCount_pos hn), digitCount_of_pos hn]

theorem pow_digitCount_le {n : Nat} (hn : 0 < n) : 10 ^ (digitCount n - 1) ≤ n := by
  by_contra hlt
  have hpos := digitCount_pos hn
  rcases Nat.eq_zero_or_pos (digitCount n - 1) with hzero | hmore
  · rw [hzero, Nat.pow_zero] at hlt
    omega
  · have hle := (Nat.length_toDigits_le_iff (by decide) hmore).mpr (not_le.mp hlt)
    rw [← digitCount_of_pos hn] at hle
    omega

/-- A decimal as a quotient. -/
theorem decimal_eq (digits : Nat) (exponent : Int) :
    ((digits * 10 ^ exponent.toNat : Nat) : ℚ) / (10 ^ (-exponent).toNat : Nat) =
      digits * 10 ^ exponent := by
  rw [Nat.cast_mul, Nat.cast_pow, Nat.cast_pow, Nat.cast_ofNat, mul_div_assoc, pow_toNat_div]

/-- A decimal lies between powers of ten by its magnitude. -/
theorem decimal_bounds {digits : Nat} (hdigits : 0 < digits) (exponent : Int) :
    (10 : ℚ) ^ ((digitCount digits : Int) + exponent - 1) ≤ digits * 10 ^ exponent ∧
      (digits : ℚ) * 10 ^ exponent < 10 ^ ((digitCount digits : Int) + exponent) := by
  have hpos := digitCount_pos hdigits
  have hten : (0 : ℚ) < 10 ^ exponent := by positivity
  have hlow : (10 : ℚ) ^ (digitCount digits - 1) ≤ digits := by
    exact_mod_cast pow_digitCount_le hdigits
  have hhigh : (digits : ℚ) < 10 ^ digitCount digits := by exact_mod_cast lt_pow_digitCount digits
  constructor
  · have hsplit : (digitCount digits : Int) + exponent - 1 = (digitCount digits - 1 : Nat) + exponent := by
      omega
    rw [hsplit, zpow_add₀ (by norm_num), zpow_natCast]
    exact mul_le_mul_of_nonneg_right hlow hten.le
  · rw [zpow_add₀ (by norm_num), zpow_natCast]
    exact mul_lt_mul_of_pos_right hhigh hten

theorem two_pow_le_ten_pow : (2 : ℚ) ^ (1200 : Int) ≤ 10 ^ (400 : Int) := by
  have htwo : (1200 : Int) = (3 * 400 : Nat) := rfl
  have hten : (400 : Int) = (400 : Nat) := rfl
  rw [htwo, hten, zpow_natCast, zpow_natCast, pow_mul]
  exact pow_le_pow_left₀ (by norm_num) (by norm_num) 400

/-- What rounds to a canonical number is neither too great nor too small for one. -/
theorem bounds_of_roundsTo {x : ℚ} {negative : Bool} {c : Nat} {e : Int} (hc : 0 < c)
    (hcanonical : Canonical (.finite negative c e)) (h : RoundsTo (x / 2 ^ e) c e) :
    (10 : ℚ) ^ (-400 : Int) ≤ x ∧ x < 10 ^ (400 : Int) := by
  obtain ⟨hlarge, hleast, hgreatest, -⟩ := hcanonical
  have hunit : (0 : ℚ) < 2 ^ e := by positivity
  have hlow : (2 : ℚ) ^ (-1074 : Int) ≤ 2 ^ e := zpow_le_zpow_right₀ one_le_two hleast
  have hhigh : (2 : ℚ) ^ e ≤ 2 ^ (971 : Int) := zpow_le_zpow_right₀ one_le_two hgreatest
  have hc' : (1 : ℚ) ≤ c := by exact_mod_cast hc
  have hlarge' : (c : ℚ) + 1 ≤ 2 ^ 53 := by exact_mod_cast hlarge
  have hgap := gapBelow_le c e
  have hxlow : 1 / 2 * 2 ^ e ≤ x := by
    rw [← le_div_iff₀ hunit]
    linarith [h.low]
  have hxhigh : x < 2 ^ 53 * 2 ^ e := by
    rw [← div_lt_iff₀ hunit]
    linarith [h.high]
  constructor
  · calc (10 : ℚ) ^ (-400 : Int) ≤ 2 ^ (-1200 : Int) := by
          rw [zpow_neg, zpow_neg]
          exact inv_anti₀ (by positivity) two_pow_le_ten_pow
      _ ≤ 2 ^ (-1075 : Int) := zpow_le_zpow_right₀ one_le_two (by norm_num)
      _ = 1 / 2 * 2 ^ (-1074 : Int) := by
          rw [show (-1075 : Int) = -1074 - 1 by rfl, zpow_sub_one₀ two_ne_zero, mul_comm, one_div]
      _ ≤ 1 / 2 * 2 ^ e := mul_le_mul_of_nonneg_left hlow (by norm_num)
      _ ≤ x := hxlow
  · calc x < 2 ^ 53 * 2 ^ e := hxhigh
      _ ≤ 2 ^ 53 * 2 ^ (971 : Int) := mul_le_mul_of_nonneg_left hhigh (by positivity)
      _ = 2 ^ (1024 : Int) := by
          rw [show (1024 : Int) = 53 + 971 by rfl, zpow_add₀ two_ne_zero]
          rfl
      _ ≤ 2 ^ (1200 : Int) := zpow_le_zpow_right₀ one_le_two (by norm_num)
      _ ≤ 10 ^ (400 : Int) := two_pow_le_ten_pow

/-- A decimal that rounds to a number is read as that number. -/
theorem ofDecimal_eq_finite {digits : Nat} (hdigits : 0 < digits) {exponent : Int} {negative : Bool}
    {c : Nat} {e : Int} (hc : 0 < c) (hcanonical : Canonical (.finite negative c e))
    (h : RoundsTo (digits * 10 ^ exponent / 2 ^ e) c e) :
    ofDecimal negative digits exponent = .finite negative c e := by
  obtain ⟨hlow, hhigh⟩ := bounds_of_roundsTo hc hcanonical h
  obtain ⟨hlow', hhigh'⟩ := decimal_bounds hdigits exponent
  have hsmall : ¬ (digitCount digits : Int) + exponent < -400 := by
    intro hlt
    have := (zpow_lt_zpow_iff_right₀ (by norm_num)).mp (hlow.trans_lt hhigh')
    omega
  have hlarge : ¬ 400 < (digitCount digits : Int) + exponent := by
    intro hlt
    have := (zpow_lt_zpow_iff_right₀ (by norm_num)).mp (hlow'.trans_lt hhigh)
    omega
  have hbranch : ofDecimal negative digits exponent = ofRatio negative
      (digits * Nat.pow 10 exponent.toNat) (Nat.pow 10 (-exponent).toNat) := by
    simp only [ofDecimal, hdigits.ne', hsmall, hlarge, decide_false, Bool.or_self, if_false,
      Bool.false_eq_true]
  rw [hbranch]
  refine ofRatio_eq_finite (Nat.mul_pos hdigits (Nat.pow_pos (by decide))) (Nat.pow_pos (by decide))
    hcanonical ?_
  exact (decimal_eq digits exponent).symm ▸ h

/-- Every decimal is read as a canonical number. -/
theorem canonical_ofDecimal (negative : Bool) (digits : Nat) (exponent : Int) :
    Canonical (ofDecimal negative digits exponent) := by
  simp only [ofDecimal]
  split
  · exact canonical_ofRatio negative 0 Nat.one_pos
  · split
    · trivial
    · exact canonical_ofRatio negative _ (Nat.pow_pos (by decide))

end QueryTree.Binary64
