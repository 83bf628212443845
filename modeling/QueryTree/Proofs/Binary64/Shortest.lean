import Mathlib.Tactic.Ring
import QueryTree.Proofs.Binary64.Rounding

/-!
# The fewest digits round back

A number is written with the digits of a point that lies in its interval, on the first
decimal grid that has such a point next to the number (`shortest`).

*Grids.*  A grid with smaller steps than an interval has a point in it, and one of the
two points next to the number is inside (`Interval.onGrid?_isSome`).

*Seventeen digits.*  The grid of the seventeenth digit has smaller steps than the interval
of any number (`seventeenth_fine`), so digits are always found.

The interval is the cell of the number (`roundsTo_of_holds`).  Hence a number is read back
from its digits, in whatever way their value is written (`ofDecimal_of_shortest`).
-/

namespace QueryTree.Binary64

namespace Interval

variable {i : Interval}

/-- A number lies in an interval. -/
def Holds (i : Interval) (x : ℚ) : Prop :=
  if i.closed then (i.low : ℚ) / i.den ≤ x ∧ x ≤ i.high / i.den
  else (i.low : ℚ) / i.den < x ∧ x < i.high / i.den

/-- A point of a grid lies in an interval. -/
def inside (i : Interval) (k : Int) (a : Nat) : Bool :=
  let up := Nat.pow 10 k.toNat * i.den
  let down := Nat.pow 10 (-k).toNat
  if i.closed then i.low * down ≤ a * up && a * up ≤ i.high * down
  else i.low * down < a * up && a * up < i.high * down

/-- The point of a grid before a number. -/
def before (i : Interval) (k : Int) : Nat :=
  i.value * Nat.pow 10 (-k).toNat / (Nat.pow 10 k.toNat * i.den)

theorem le_grid_iff (hden : 0 < i.den) (k : Int) (a n : Nat) :
    n * Nat.pow 10 (-k).toNat ≤ a * (Nat.pow 10 k.toNat * i.den) ↔
      (n : ℚ) / i.den ≤ a * 10 ^ k := by
  have hden' : (0 : ℚ) < i.den := by exact_mod_cast hden
  rw [← pow_toNat_div, ← mul_div_assoc, div_le_div_iff₀ hden' (by positivity), mul_assoc]
  exact_mod_cast Iff.rfl

theorem grid_le_iff (hden : 0 < i.den) (k : Int) (a n : Nat) :
    a * (Nat.pow 10 k.toNat * i.den) ≤ n * Nat.pow 10 (-k).toNat ↔
      a * 10 ^ k ≤ (n : ℚ) / i.den := by
  have hden' : (0 : ℚ) < i.den := by exact_mod_cast hden
  rw [← pow_toNat_div, ← mul_div_assoc, div_le_div_iff₀ (by positivity) hden', mul_assoc]
  exact_mod_cast Iff.rfl

theorem inside_iff (hden : 0 < i.den) (k : Int) (a : Nat) :
    i.inside k a = true ↔ i.Holds (a * 10 ^ k) := by
  simp only [inside, Holds]
  split
  · rw [Bool.and_eq_true, decide_eq_true_iff, decide_eq_true_iff, le_grid_iff hden,
      grid_le_iff hden]
  · rw [Bool.and_eq_true, decide_eq_true_iff, decide_eq_true_iff, ← not_le, ← not_le,
      grid_le_iff hden, le_grid_iff hden, not_le, not_le]

theorem before_le (hden : 0 < i.den) (k : Int) :
    (i.before k : ℚ) * 10 ^ k ≤ i.value / i.den ∧
      (i.value : ℚ) / i.den < (i.before k + 1 : Nat) * 10 ^ k := by
  have hpos : 0 < Nat.pow 10 k.toNat * i.den := Nat.mul_pos (Nat.pow_pos (by decide)) hden
  constructor
  · rw [← grid_le_iff hden]
    exact Nat.div_mul_le_self _ _
  · rw [← not_le, ← grid_le_iff hden, not_le]
    exact Nat.lt_mul_of_div_lt (Nat.lt_succ_self _) hpos

/-- What is found on a grid is one of the two points around the number. -/
theorem onGrid?_eq (i : Interval) (k : Int) :
    i.onGrid? k = match i.inside k (i.before k), i.inside k (i.before k + 1) with
      | true, true =>
        some (if 2 * i.value * Nat.pow 10 (-k).toNat <
            (2 * i.before k + 1) * (Nat.pow 10 k.toNat * i.den) then i.before k
          else if (2 * i.before k + 1) * (Nat.pow 10 k.toNat * i.den) <
            2 * i.value * Nat.pow 10 (-k).toNat then i.before k + 1
          else i.before k + i.before k % 2)
      | true, false => some (i.before k)
      | false, true => some (i.before k + 1)
      | false, false => none := rfl

theorem inside_of_onGrid? {k : Int} {a : Nat} (h : i.onGrid? k = some a) :
    i.inside k a = true := by
  rw [onGrid?_eq] at h
  split at h
  · next hbefore hafter =>
      have ha : a = i.before k ∨ a = i.before k + 1 := by
        rw [← Option.some.inj h]
        split_ifs <;> omega
      rcases ha with rfl | rfl
      · exact hbefore
      · exact hafter
  · next hbefore _ => exact Option.some.inj h ▸ hbefore
  · next _ hafter => exact Option.some.inj h ▸ hafter
  · cases h

/-- A grid that is finer than an interval has a point in it. -/
theorem onGrid?_isSome (hden : 0 < i.den) (hlow : i.low < i.value) (hhigh : i.value < i.high)
    {k : Int} (hfine : (10 : ℚ) ^ k < i.high / i.den - i.low / i.den) :
    (i.onGrid? k).isSome = true := by
  have hden' : (0 : ℚ) < i.den := by exact_mod_cast hden
  have hlow' : (i.low : ℚ) / i.den < i.value / i.den :=
    div_lt_div_of_pos_right (by exact_mod_cast hlow) hden'
  have hhigh' : (i.value : ℚ) / i.den < i.high / i.den :=
    div_lt_div_of_pos_right (by exact_mod_cast hhigh) hden'
  obtain ⟨hbefore, hafter⟩ := before_le hden k
  by_contra hnone
  -- both points are outside, so the interval lies between them
  have hout : i.inside k (i.before k) = false ∧ i.inside k (i.before k + 1) = false := by
    rw [onGrid?_eq] at hnone
    split at hnone
    · exact absurd rfl hnone
    · exact absurd rfl hnone
    · exact absurd rfl hnone
    · next h h' => exact ⟨h, h'⟩
  have hfirst : ¬ i.Holds (i.before k * 10 ^ k) := by
    rw [← inside_iff hden, hout.1]
    exact Bool.false_ne_true
  have hsecond : ¬ i.Holds ((i.before k + 1 : Nat) * 10 ^ k) := by
    rw [← inside_iff hden, hout.2]
    exact Bool.false_ne_true
  have hwide : (i.before k : ℚ) * 10 ^ k ≤ i.low / i.den ∧
      (i.high : ℚ) / i.den ≤ (i.before k + 1 : Nat) * 10 ^ k := by
    simp only [Holds] at hfirst hsecond
    split at hfirst
    · next hclosed =>
        rw [if_pos hclosed, not_and, not_le] at hsecond
        rw [not_and, not_le] at hfirst
        exact ⟨by by_contra hlt; linarith [hfirst (not_le.mp hlt).le], (hsecond (by linarith)).le⟩
    · next hclosed =>
        rw [if_neg hclosed, not_and, not_lt] at hsecond
        rw [not_and, not_lt] at hfirst
        exact ⟨by by_contra hlt; linarith [hfirst (not_le.mp hlt)], hsecond (by linarith)⟩
  have hstep : ((i.before k + 1 : Nat) : ℚ) * 10 ^ k = i.before k * 10 ^ k + 10 ^ k := by
    rw [Nat.cast_add, Nat.cast_one, add_mul, one_mul]
  linarith [hwide.1, hwide.2]

/-- The leading digit of a number is at least one. -/
theorem pow_leading_le (hden : 0 < i.den) (hvalue : 0 < i.value) :
    (10 : ℚ) ^ i.leading ≤ i.value / i.den := by
  have hden' : (0 : ℚ) < i.den := by exact_mod_cast hden
  rw [leading]
  split
  · next hle =>
      have hquotient : 0 < i.value / i.den := Nat.div_pos hle hden
      have hpow : ((digitCount (i.value / i.den) : Int) - 1) = (digitCount (i.value / i.den) - 1 : Nat) := by
        have := digitCount_pos hquotient
        omega
      rw [hpow, zpow_natCast, le_div_iff₀ hden']
      have hmul : 10 ^ (digitCount (i.value / i.den) - 1) * i.den ≤ i.value :=
        (Nat.mul_le_mul_right _ (pow_digitCount_le hquotient)).trans (Nat.div_mul_le_self _ _)
      exact_mod_cast hmul
  · next hlt =>
      -- the quotient rounded up has a count of digits that bounds the reciprocal
      have hmul : i.den ≤ i.value * 10 ^ digitCount ((i.den + i.value - 1) / i.value - 1) := by
        have hceil := Nat.lt_mul_div_succ (i.den + i.value - 1) hvalue
        have hpos : 0 < (i.den + i.value - 1) / i.value := Nat.div_pos (by omega) hvalue
        have hpow := lt_pow_digitCount ((i.den + i.value - 1) / i.value - 1)
        calc i.den ≤ i.value * ((i.den + i.value - 1) / i.value) := by
              rw [Nat.mul_succ] at hceil
              omega
          _ ≤ _ := Nat.mul_le_mul_left _ (by omega)
      rw [zpow_neg, zpow_natCast, inv_le_comm₀ (by positivity) (by positivity), inv_div,
        div_le_iff₀ (by exact_mod_cast hvalue), mul_comm]
      exact_mod_cast hmul

end Interval

/-! ## The interval of a number -/

section

variable {negative : Bool} {c : Nat} {e : Int}

theorem around_den_pos (c : Nat) (e : Int) : 0 < (Interval.around c e).den :=
  Nat.pow_pos (by decide)

theorem around_quarters (c : Nat) (e : Int) (n : Nat) :
    ((n * Nat.pow 2 (e - 2).toNat : Nat) : ℚ) / (Interval.around c e).den = n / 4 * 2 ^ e := by
  have hden : (Interval.around c e).den = 2 ^ (-(e - 2)).toNat := by
    rw [Int.neg_sub]
    rfl
  rw [hden, Nat.pow_eq, Nat.cast_mul, Nat.cast_pow, Nat.cast_pow, Nat.cast_ofNat, mul_div_assoc,
    pow_toNat_div, zpow_sub₀ two_ne_zero]
  norm_num
  ring

theorem around_value (c : Nat) (e : Int) :
    ((Interval.around c e).value : ℚ) / (Interval.around c e).den = c * 2 ^ e := by
  refine (around_quarters c e (4 * c)).trans ?_
  push_cast
  ring

theorem around_high (c : Nat) (e : Int) :
    ((Interval.around c e).high : ℚ) / (Interval.around c e).den = (c + 1 / 2) * 2 ^ e := by
  refine (around_quarters c e (4 * c + 2)).trans ?_
  push_cast
  ring

theorem around_low (hc : 0 < c) (e : Int) :
    ((Interval.around c e).low : ℚ) / (Interval.around c e).den = (c - gapBelow c e) * 2 ^ e := by
  refine (around_quarters c e (4 * c - if c = Nat.pow 2 52 && leastExponent < e then 1 else 2)).trans ?_
  have hpower : (c = Nat.pow 2 52 && leastExponent < e) = true ↔ c = 2 ^ 52 ∧ leastExponent < e := by
    rw [Bool.and_eq_true, decide_eq_true_iff, decide_eq_true_iff, Nat.pow_eq]
  rw [gapBelow]
  split
  · next h =>
      rw [if_pos (hpower.mp h), Nat.cast_sub (by omega)]
      push_cast
      ring
  · next h =>
      rw [if_neg (mt hpower.mpr h), Nat.cast_sub (by omega)]
      push_cast
      ring

/-- What lies in the interval of a number rounds to it. -/
theorem roundsTo_of_holds (hc : 0 < c) {x : ℚ} (h : (Interval.around c e).Holds x) :
    RoundsTo (x / 2 ^ e) c e := by
  have hunit : (0 : ℚ) < 2 ^ e := by positivity
  have hclosed : (Interval.around c e).closed = true ↔ c % 2 = 0 := beq_iff_eq
  rw [Interval.Holds, around_low hc, around_high] at h
  split at h
  · next heven =>
      exact ⟨(le_div_iff₀ hunit).mpr h.1, (div_le_iff₀ hunit).mpr h.2,
        fun hodd => by rw [hclosed.mp heven] at hodd; cases hodd⟩
  · exact ⟨((lt_div_iff₀ hunit).mpr h.1).le, ((div_lt_iff₀ hunit).mpr h.2).le,
      fun _ => ⟨(lt_div_iff₀ hunit).mpr h.1, (div_lt_iff₀ hunit).mpr h.2⟩⟩

/-- Seventeen digits are enough: the grid of the seventeenth is finer than the interval. -/
theorem seventeenth_fine (hc : 0 < c) (hcanonical : Canonical (.finite negative c e)) :
    (10 : ℚ) ^ ((Interval.around c e).leading - 16) <
      (Interval.around c e).high / (Interval.around c e).den -
        (Interval.around c e).low / (Interval.around c e).den := by
  have hvalue : 0 < (Interval.around c e).value :=
    Nat.mul_pos (Nat.mul_pos (by decide) hc) (Nat.pow_pos (by decide))
  have hleading := Interval.pow_leading_le (around_den_pos c e) hvalue
  have hunit : (0 : ℚ) < 2 ^ e := by positivity
  rw [around_value] at hleading
  rw [around_high, around_low hc, ← sub_mul, zpow_sub₀ (by norm_num)]
  have hcoefficient : (c : ℚ) / 10 ^ 16 < 1 / 2 + gapBelow c e := by
    have hlarge : (c : ℚ) < 2 ^ 53 := by exact_mod_cast hcanonical.1
    rw [gapBelow]
    split
    · next hpower =>
        rw [hpower.1]
        norm_num
    · rw [div_lt_iff₀ (by positivity)]
      linarith
  calc (10 : ℚ) ^ (Interval.around c e).leading / 10 ^ (16 : Int)
      ≤ c * 2 ^ e / 10 ^ (16 : Int) := div_le_div_of_nonneg_right hleading (by positivity)
    _ = c / 10 ^ 16 * 2 ^ e := by
        rw [mul_div_right_comm]
        rfl
    _ < (1 / 2 + gapBelow c e) * 2 ^ e := mul_lt_mul_of_pos_right hcoefficient hunit
    _ = _ := by ring

/-- The fewest digits are found, and they round back. -/
theorem shortest_roundsTo (hc : 0 < c) (hcanonical : Canonical (.finite negative c e)) :
    0 < (shortest c e).1 ∧
      RoundsTo ((shortest c e).1 * 10 ^ (shortest c e).2 / 2 ^ e) c e := by
  have hden := around_den_pos c e
  have hup : 0 < Nat.pow 2 (e - 2).toNat := Nat.pow_pos (by decide)
  have hlow : (Interval.around c e).low < (Interval.around c e).value :=
    Nat.mul_lt_mul_of_pos_right (by split <;> omega) hup
  have hhigh : (Interval.around c e).value < (Interval.around c e).high :=
    Nat.mul_lt_mul_of_pos_right (by omega) hup
  have hpos : 0 < (Interval.around c e).low :=
    Nat.mul_pos (by split <;> omega) hup
  have hsome : ((List.range 17).findSome? fun n : Nat =>
      ((Interval.around c e).onGrid? ((Interval.around c e).leading - n)).map fun d =>
        (d, (Interval.around c e).leading - n)).isSome = true := by
    rw [List.findSome?_isSome_iff]
    refine ⟨16, List.mem_range.mpr (by decide), ?_⟩
    rw [Option.isSome_map]
    exact Interval.onGrid?_isSome hden hlow hhigh (seventeenth_fine hc hcanonical)
  obtain ⟨found, hfound⟩ := Option.isSome_iff_exists.mp hsome
  have hshortest : shortest c e = found := by
    simp only [shortest, hfound, Option.getD_some]
  obtain ⟨n, -, hn⟩ := List.exists_of_findSome?_eq_some hfound
  obtain ⟨d, hd, rfl⟩ := Option.map_eq_some_iff.mp hn
  have hholds := (Interval.inside_iff hden _ _).mp (Interval.inside_of_onGrid? hd)
  rw [hshortest]
  refine ⟨Nat.pos_of_ne_zero ?_, roundsTo_of_holds hc hholds⟩
  rintro rfl
  have hlow' : (0 : ℚ) < (Interval.around c e).low / (Interval.around c e).den := by positivity
  rw [Nat.cast_zero, zero_mul, Interval.Holds] at hholds
  split at hholds
  · exact absurd hholds.1 (not_le.mpr hlow')
  · exact absurd hholds.1 (not_lt.mpr hlow'.le)

/-- A number is read back from its fewest digits, in any form that denotes the same. -/
theorem ofDecimal_of_shortest (hc : 0 < c) (hcanonical : Canonical (.finite negative c e))
    {digits : Nat} {exponent : Int}
    (h : (digits : ℚ) * 10 ^ exponent = (shortest c e).1 * 10 ^ (shortest c e).2) :
    ofDecimal negative digits exponent = .finite negative c e := by
  obtain ⟨hpos, hround⟩ := shortest_roundsTo hc hcanonical
  have hdigits : 0 < digits := by
    rcases Nat.eq_zero_or_pos digits with rfl | hdigits
    · have hne : ((shortest c e).1 : ℚ) * 10 ^ (shortest c e).2 ≠ 0 := by positivity
      rw [Nat.cast_zero, zero_mul] at h
      exact absurd h.symm hne
    · exact hdigits
  exact ofDecimal_eq_finite hdigits hc hcanonical (h ▸ hround)

end

end QueryTree.Binary64
