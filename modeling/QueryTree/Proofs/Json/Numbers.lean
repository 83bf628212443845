import Mathlib.Data.List.TakeWhile
import QueryTree.Json
import QueryTree.Json.Writer
import QueryTree.Proofs.Binary64.Shortest

/-!
# Numbers are read back

A whole number is written in its digits.  A binary64 number is written as a *numeral*,
with digits after a point, a power of ten, or both (`Numeral`).

*Reading.*  A numeral is read as the number nearest to what it denotes
(`Numeral.number_text`).  This is so in front of the end of the text and of whatever may
close a value inside another (`Closes`).

*Writing.*  The digits of a number are laid out around a point or before a power of ten.
Either way the numeral denotes what the digits denote (`spells_magnitude`).

Together, a binary64 number is read back from its numeral (`number_of_spells`).
-/

namespace QueryTree.Json

/-! ## Digits -/

/-- A text does not go on with a digit. -/
def NoDigit (cs : List Char) : Prop := ∀ c ∈ cs.head?, c.isDigit = false

theorem noDigit_cons {c : Char} {cs : List Char} (h : c.isDigit = false) : NoDigit (c :: cs) :=
  fun _ hc => Option.some.inj hc ▸ h

theorem digits_append {ds rest : List Char} (hds : ∀ c ∈ ds, c.isDigit = true)
    (hrest : NoDigit rest) : digits (ds ++ rest) = (ds, rest) := by
  have hstop : rest.takeWhile Char.isDigit = [] ∧ rest.dropWhile Char.isDigit = rest := by
    cases rest with
    | nil => exact ⟨rfl, rfl⟩
    | cons c cs =>
        have hc := hrest c rfl
        rw [List.takeWhile_cons_of_neg (by rw [hc]; decide),
          List.dropWhile_cons_of_neg (by rw [hc]; decide)]
        exact ⟨rfl, rfl⟩
  rw [digits, List.takeWhile_append_of_pos hds, List.dropWhile_append_of_pos hds, hstop.1, hstop.2,
    List.append_nil]

theorem digitsValue_eq (cs : List Char) : digitsValue cs = Nat.ofDigitChars 10 cs 0 := by
  simp only [digitsValue, Nat.ofDigitChars, Nat.mul_comm]
  rfl

theorem digitsValue_append (cs ds : List Char) :
    digitsValue (cs ++ ds) = 10 ^ ds.length * digitsValue cs + digitsValue ds := by
  rw [digitsValue_eq, digitsValue_eq, digitsValue_eq, Nat.ofDigitChars_append,
    Nat.ofDigitChars_eq_ofDigitChars_zero]

theorem digitsValue_zeros (n : Nat) : digitsValue (List.replicate n '0') = 0 := by
  rw [digitsValue_eq, Nat.ofDigitChars_replicate_zero, Nat.mul_zero]

theorem digitsValue_toDigits (n : Nat) : digitsValue (Nat.toDigits 10 n) = n := by
  rw [digitsValue_eq, Nat.ofDigitChars_ten_toDigits]

theorem isDigit_toDigits {n : Nat} {c : Char} (h : c ∈ Nat.toDigits 10 n) : c.isDigit = true :=
  Nat.isDigit_of_mem_toDigits (by decide) (by decide) h

/-- Only zero begins with a zero. -/
theorem head_toDigits {n : Nat} (hn : 0 < n) : ∀ c ∈ (Nat.toDigits 10 n).head?, c ≠ '0' := by
  induction n using Nat.strong_induction_on with
  | _ n ih =>
      rcases Nat.lt_or_ge n 10 with hlt | hge
      · rw [Nat.toDigits_of_lt_base hlt]
        intro c hc
        obtain rfl := Option.some.inj hc
        exact fun h => hn.ne' (Nat.digitChar_eq_zero.mp h)
      · rw [Nat.toDigits_of_base_le (by decide) hge]
        intro c hc
        rw [List.head?_append_of_ne_nil _ Nat.toDigits_ne_nil] at hc
        exact ih (n / 10) (Nat.div_lt_self hn (by decide)) (by omega) c hc

/-- The digits of a number are those that count and zeros after them. -/
theorem toDigits_eq_significant (n : Nat) :
    ∃ zeros, Nat.toDigits 10 n = Binary64.significant n ++ List.replicate zeros '0' := by
  refine ⟨((Nat.toDigits 10 n).reverse.takeWhile (· == '0')).length, ?_⟩
  have hzeros : (Nat.toDigits 10 n).reverse.takeWhile (· == '0') =
      List.replicate ((Nat.toDigits 10 n).reverse.takeWhile (· == '0')).length '0' :=
    List.eq_replicate_of_mem fun c hc => by simpa using List.mem_takeWhile_imp hc
  have hsplit := congrArg List.reverse
    (List.takeWhile_append_dropWhile (p := (· == '0')) (l := (Nat.toDigits 10 n).reverse))
  rw [List.reverse_reverse, List.reverse_append, hzeros, List.reverse_replicate] at hsplit
  exact hsplit.symm

/-! ## What follows a number -/

/-- What may follow a value inside an array or an object, or the end. -/
def Closes (rest : List Char) : Prop := ∀ c ∈ rest.head?, c = ',' ∨ c = ']' ∨ c = '\x7d'

variable {rest : List Char}

theorem Closes.noDigit (h : Closes rest) : NoDigit rest := by
  intro c hc
  rcases h c hc with rfl | rfl | rfl <;> decide

theorem Closes.fraction?_eq (h : Closes rest) : fraction? rest = none := by
  cases rest with
  | nil => rfl
  | cons c cs => rcases h c rfl with rfl | rfl | rfl <;> rfl

theorem Closes.power?_eq (h : Closes rest) : power? rest = none := by
  cases rest with
  | nil => rfl
  | cons c cs => rcases h c rfl with rfl | rfl | rfl <;> rfl

/-! ## Notations -/

/-- The sign of a number that may be negative. -/
def sign (negative : Bool) : List Char := if negative then ['-'] else []

/-- The whole digits of a number: at least one, and no zero before others. -/
structure Leading (whole : List Char) : Prop where
  digits : ∀ c ∈ whole, c.isDigit = true
  ne_nil : whole ≠ []
  zero : ∀ c cs, whole ≠ '0' :: c :: cs

/-- Whether a minus sign comes first, and what follows it. -/
def signed : List Char → Bool × List Char
  | '-' :: rest => (true, rest)
  | rest => (false, rest)

theorem signed_sign {negative : Bool} {whole tail : List Char} (hwhole : Leading whole) :
    signed (sign negative ++ whole ++ tail) = (negative, whole ++ tail) := by
  cases negative with
  | true => rfl
  | false =>
      obtain ⟨d, ds, rfl⟩ := List.exists_cons_of_ne_nil hwhole.ne_nil
      have hd := hwhole.digits d List.mem_cons_self
      rw [sign, if_neg Bool.false_ne_true, List.nil_append, List.cons_append, signed]
      rintro rest hrest
      rw [(List.cons.inj hrest).1] at hd
      exact absurd hd (by decide)

/-- The reading of a number, with its sign taken off first. -/
theorem number_unfold (cs : List Char) : number cs = match (digits (signed cs).2).1 with
    | [] =>
      (after? "Infinity".toList (signed cs).2).map fun r => (.float (.infinite (signed cs).1), r)
    | '0' :: _ :: _ => none
    | leading =>
      let afterPoint := (fraction? (digits (signed cs).2).2).getD ([], (digits (signed cs).2).2)
      let afterPower := (power? afterPoint.2).getD (0, afterPoint.2)
      if (fraction? (digits (signed cs).2).2).isNone ∧ (power? afterPoint.2).isNone then
        let n : Int := digitsValue leading
        some (.int (if (signed cs).1 then -n else n), (digits (signed cs).2).2)
      else
        let coefficient := digitsValue (leading ++ afterPoint.1)
        let exponent := afterPower.1 - afterPoint.1.length
        some (.float (.ofDecimal (signed cs).1 coefficient exponent), afterPower.2) := rfl

/-- A number is read from its sign, its whole digits and what follows them. -/
theorem number_eq {negative : Bool} {whole tail : List Char} (hwhole : Leading whole)
    (htail : NoDigit tail) :
    number (sign negative ++ whole ++ tail) =
      let afterPoint := (fraction? tail).getD ([], tail)
      let afterPower := (power? afterPoint.2).getD (0, afterPoint.2)
      if (fraction? tail).isNone ∧ (power? afterPoint.2).isNone then
        some (.int (if negative then -(digitsValue whole : Int) else digitsValue whole), tail)
      else some (.float (.ofDecimal negative (digitsValue (whole ++ afterPoint.1))
        (afterPower.1 - afterPoint.1.length)), afterPower.2) := by
  rw [number_unfold, signed_sign hwhole, digits_append hwhole.digits htail]
  dsimp only
  split
  · exact absurd rfl hwhole.ne_nil
  · exact absurd rfl (hwhole.zero _ _)
  · rfl

/-! ## Powers -/

section

open Binary64 (powerDigits)

theorem powerDigits_toList (n : Nat) :
    ∃ zeros, (powerDigits n).toList = List.replicate zeros '0' ++ Nat.toDigits 10 n := by
  have hdigits : (toString n).toList = Nat.toDigits 10 n := Nat.toList_repr
  rw [powerDigits]
  split
  · exact ⟨1, by rw [String.toList_append, hdigits]; rfl⟩
  · exact ⟨0, by rw [hdigits]; rfl⟩

/-- A power of ten after an `e`. -/
def powerText (power : Int) : List Char :=
  'e' :: (if power < 0 then '-' else '+') :: (powerDigits power.natAbs).toList

theorem isDigit_powerDigits {n : Nat} {c : Char} (h : c ∈ (powerDigits n).toList) :
    c.isDigit = true := by
  obtain ⟨zeros, hpower⟩ := powerDigits_toList n
  rw [hpower, List.mem_append] at h
  rcases h with h | h
  · rw [(List.mem_replicate.mp h).2]
    decide
  · exact isDigit_toDigits h

theorem digitsValue_powerDigits (n : Nat) : digitsValue (powerDigits n).toList = n := by
  obtain ⟨zeros, hpower⟩ := powerDigits_toList n
  rw [hpower, digitsValue_append, digitsValue_zeros, Nat.mul_zero, Nat.zero_add,
    digitsValue_toDigits]

/-- A power is read from its sign and its digits. -/
theorem power?_signed (negative : Bool) {ds : List Char} (hds : ∀ c ∈ ds, c.isDigit = true)
    (hne : ds ≠ []) (h : NoDigit rest) :
    power? ('e' :: (if negative then '-' else '+') :: (ds ++ rest)) =
      some (if negative then -(digitsValue ds : Int) else digitsValue ds, rest) := by
  have hempty : ds.isEmpty = false := List.isEmpty_eq_false_iff.mpr hne
  cases negative with
  | true =>
      rw [if_pos rfl, if_pos rfl, power?, if_pos (.inl rfl)]
      dsimp only
      rw [digits_append hds h, hempty]
      rfl
  | false =>
      rw [if_neg Bool.false_ne_true, if_neg Bool.false_ne_true, power?, if_pos (.inl rfl)]
      dsimp only
      rw [digits_append hds h, hempty]
      rfl

theorem power?_powerText (power : Int) (h : NoDigit rest) :
    power? (powerText power ++ rest) = some (power, rest) := by
  have hne : (powerDigits power.natAbs).toList ≠ [] := by
    obtain ⟨zeros, hpower⟩ := powerDigits_toList power.natAbs
    rw [hpower]
    exact List.append_ne_nil_of_right_ne_nil _ Nat.toDigits_ne_nil
  have hread := power?_signed (decide (power < 0)) (fun _ => isDigit_powerDigits) hne h
  simp only [decide_eq_true_eq, digitsValue_powerDigits] at hread
  refine hread.trans (congrArg (fun p => some (p, rest)) ?_)
  split <;> omega

end

/-! ## Numerals -/

/-- A decimal numeral: the digits before and after the point, and a power of ten. -/
structure Numeral where
  /-- The digits before the point. -/
  whole : List Char
  /-- The digits after the point.  If there are none, the point is missing. -/
  fraction : List Char
  /-- The power of ten, if one is written. -/
  power : Option Int

namespace Numeral

/-- The text of a numeral after its whole digits. -/
def tail (n : Numeral) : List Char :=
  (if n.fraction = [] then [] else '.' :: n.fraction) ++ (n.power.map powerText).getD []

/-- The text of a numeral. -/
def text (n : Numeral) : List Char := n.whole ++ n.tail

/-- The whole number that the digits of a numeral denote together. -/
def coefficient (n : Numeral) : Nat := digitsValue (n.whole ++ n.fraction)

/-- The power of ten of the last digit of a numeral. -/
def exponent (n : Numeral) : Int := n.power.getD 0 - n.fraction.length

/-- A numeral that denotes no whole number by its form. -/
structure Proper (n : Numeral) : Prop where
  leading : Leading n.whole
  digits : ∀ c ∈ n.fraction, c.isDigit = true
  point : n.fraction ≠ [] ∨ n.power ≠ none

variable {n : Numeral}

theorem noDigit_power (power : Option Int) (h : Closes rest) :
    NoDigit ((power.map powerText).getD [] ++ rest) := by
  cases power with
  | none => exact h.noDigit
  | some p => exact noDigit_cons (by decide)

theorem fraction?_power (power : Option Int) (h : Closes rest) :
    fraction? ((power.map powerText).getD [] ++ rest) = none := by
  cases power with
  | none => exact h.fraction?_eq
  | some p => rfl

theorem power?_power (power : Option Int) (h : Closes rest) :
    power? ((power.map powerText).getD [] ++ rest) = power.map (·, rest) := by
  cases power with
  | none => exact h.power?_eq
  | some p => exact power?_powerText p h.noDigit

theorem noDigit_tail (n : Numeral) (h : Closes rest) : NoDigit (n.tail ++ rest) := by
  rw [tail, List.append_assoc]
  split
  · exact noDigit_power n.power h
  · exact noDigit_cons (by decide)

theorem fraction?_tail (hn : n.Proper) (h : Closes rest) :
    fraction? (n.tail ++ rest) =
      if n.fraction = [] then none else some (n.fraction, (n.power.map powerText).getD [] ++ rest) := by
  rw [tail, List.append_assoc]
  split
  · exact fraction?_power n.power h
  · next hne =>
      obtain ⟨d, ds, hfraction⟩ := List.exists_cons_of_ne_nil hne
      have hd := hn.digits d (hfraction ▸ List.mem_cons_self)
      have hread := digits_append hn.digits (noDigit_power n.power h)
      rw [hfraction, List.cons_append] at hread
      rw [hfraction, List.cons_append, List.cons_append, fraction?, if_pos hd, hread]

/-- A numeral is read as the number nearest to what it denotes. -/
theorem number_text (hn : n.Proper) (h : Closes rest) (negative : Bool) :
    number (sign negative ++ n.text ++ rest) =
      some (.float (.ofDecimal negative n.coefficient n.exponent), rest) := by
  have hassoc : sign negative ++ n.text ++ rest = sign negative ++ n.whole ++ (n.tail ++ rest) := by
    simp only [text, List.append_assoc]
  rw [hassoc, number_eq hn.leading (n.noDigit_tail h), fraction?_tail hn h]
  by_cases hfraction : n.fraction = []
  · obtain ⟨p, hpower⟩ := Option.ne_none_iff_exists'.mp (hn.point.resolve_left (not_not.mpr hfraction))
    have htail : n.tail ++ rest = (n.power.map powerText).getD [] ++ rest := by
      rw [tail, if_pos hfraction, List.nil_append]
    simp only [if_pos hfraction, Option.getD_none, htail, power?_power n.power h]
    rw [if_neg (by rw [hpower]; rintro ⟨-, h'⟩; cases h'), coefficient, exponent, hfraction, hpower]
    rfl
  · simp only [if_neg hfraction, Option.getD_some, power?_power n.power h]
    rw [if_neg (by rintro ⟨h', -⟩; cases h'), coefficient, exponent]
    cases n.power <;> rfl

end Numeral

/-! ## Written numbers -/

section

open Binary64 (positional scientific significant shortest Canonical)

variable {ds : List Char}

/-- A text is a numeral that denotes `digits · 10^exponent`. -/
def Spells (cs : List Char) (digits : Nat) (exponent : Int) : Prop :=
  ∃ n : Numeral, n.Proper ∧ cs = n.text ∧
    (n.coefficient : ℚ) * 10 ^ n.exponent = digits * 10 ^ exponent

theorem Spells.congr {cs : List Char} {digits other : Nat} {exponent power : Int}
    (h : Spells cs digits exponent) (hsame : (digits : ℚ) * 10 ^ exponent = other * 10 ^ power) :
    Spells cs other power := by
  obtain ⟨n, hn, htext, hdenotes⟩ := h
  exact ⟨n, hn, htext, hdenotes.trans hsame⟩

theorem leading_of_digits (hds : ∀ c ∈ ds, c.isDigit = true) (hne : ds ≠ [])
    (hzero : ∀ c ∈ ds.head?, c ≠ '0') : Leading ds :=
  ⟨hds, hne, fun _ _ h => hzero '0' (h ▸ rfl) rfl⟩

theorem leading_zero : Leading ['0'] :=
  ⟨fun c hc => by rw [List.mem_singleton.mp hc]; decide, List.cons_ne_nil _ _,
    fun _ _ h => by cases h⟩

theorem isDigit_zeros {n : Nat} {c : Char} (h : c ∈ List.replicate n '0') : c.isDigit = true := by
  rw [(List.mem_replicate.mp h).2]
  decide

/-- Digits on either side of a point. -/
theorem spells_point {whole fraction : List Char} (hwhole : Leading whole)
    (hfraction : ∀ c ∈ fraction, c.isDigit = true) (hne : fraction ≠ []) :
    Spells (whole ++ '.' :: fraction) (digitsValue (whole ++ fraction)) (-fraction.length) := by
  refine ⟨⟨whole, fraction, none⟩, ⟨hwhole, hfraction, .inl hne⟩, ?_, ?_⟩
  · rw [Numeral.text, Numeral.tail, if_neg hne]
    exact congrArg (whole ++ ·) (List.append_nil _).symm
  · simp only [Numeral.coefficient, Numeral.exponent, Option.getD_none, zero_sub]

/-- Digits of which all come after the point. -/
theorem spells_positional_below (hds : ∀ c ∈ ds, c.isDigit = true) (hne : ds ≠ []) {point : Int}
    (h : point ≤ 0) :
    Spells (positional ds point).toList (digitsValue ds) (point - ds.length) := by
  have htext : (positional ds point).toList =
      ['0'] ++ '.' :: (List.replicate (-point).toNat '0' ++ ds) := by
    simp [positional, h]
  have hspells := spells_point leading_zero
    (fun c hc => (List.mem_append.mp hc).elim isDigit_zeros (hds c))
    (List.append_ne_nil_of_right_ne_nil (List.replicate (-point).toNat '0') hne)
  have hvalue : digitsValue (['0'] ++ (List.replicate (-point).toNat '0' ++ ds)) =
      digitsValue ds := by
    have hzero : digitsValue ['0'] = 0 := by decide
    rw [digitsValue_append, digitsValue_append, digitsValue_zeros, hzero, Nat.mul_zero,
      Nat.mul_zero, Nat.zero_add, Nat.zero_add]
  have hexponent : -((List.replicate (-point).toNat '0' ++ ds).length : Int) =
      point - ds.length := by
    rw [List.length_append, List.length_replicate]
    omega
  rwa [htext, ← hvalue, ← hexponent]

/-- Digits with the point among them. -/
theorem spells_positional_inside (hds : ∀ c ∈ ds, c.isDigit = true)
    (hzero : ∀ c ∈ ds.head?, c ≠ '0') {point : Int} (hpos : 0 < point)
    (hlt : point.toNat < ds.length) :
    Spells (positional ds point).toList (digitsValue ds) (point - ds.length) := by
  have hlength : (ds.take point.toNat).length = point.toNat := by
    rw [List.length_take]
    omega
  have hfraction : ds.drop point.toNat ≠ [] := by
    rw [ne_eq, List.drop_eq_nil_iff]
    omega
  have htext : (positional ds point).toList =
      ds.take point.toNat ++ '.' :: ds.drop point.toNat := by
    simp [positional, hpos.not_ge, hfraction, Nat.min_eq_left hlt.le]
  have hwhole : Leading (ds.take point.toNat) := by
    refine leading_of_digits (fun c hc => hds c (List.mem_of_mem_take hc)) ?_ ?_
    · exact List.ne_nil_of_length_pos (by omega)
    · rw [List.head?_take, if_neg (by omega)]
      exact hzero
  have hspells := spells_point hwhole (fun c hc => hds c (List.mem_of_mem_drop hc)) hfraction
  have hexponent : -((ds.drop point.toNat).length : Int) = point - ds.length := by
    rw [List.length_drop]
    omega
  rwa [List.take_append_drop, hexponent, ← htext] at hspells

/-- Digits that all come before the point, with zeros after them. -/
theorem spells_positional_above (hds : ∀ c ∈ ds, c.isDigit = true) (hne : ds ≠ [])
    (hzero : ∀ c ∈ ds.head?, c ≠ '0') {point : Int} (hpos : 0 < point)
    (hge : ds.length ≤ point.toNat) :
    Spells (positional ds point).toList (digitsValue ds) (point - ds.length) := by
  have htext : (positional ds point).toList =
      ds ++ List.replicate (point.toNat - ds.length) '0' ++ '.' :: ['0'] := by
    simp [positional, hpos.not_ge, List.take_of_length_le hge, List.drop_of_length_le hge]
  have hwhole : Leading (ds ++ List.replicate (point.toNat - ds.length) '0') := by
    refine leading_of_digits ?_ (List.append_ne_nil_of_left_ne_nil hne _) ?_
    · exact fun c hc => (List.mem_append.mp hc).elim (hds c) isDigit_zeros
    · rw [List.head?_append_of_ne_nil _ hne]
      exact hzero
  have hspells := spells_point hwhole leading_zero.digits leading_zero.ne_nil
  have hlast : digitsValue ['0'] = 0 := by decide
  have hexponent : point - ds.length = ((point.toNat - ds.length : Nat) : Int) := by omega
  rw [htext]
  refine hspells.congr ?_
  rw [digitsValue_append, digitsValue_append, digitsValue_zeros, hlast, hexponent,
    List.length_replicate, List.length_singleton, zpow_natCast]
  push_cast
  norm_num
  ring

/-- Digits with their point denote the digits times a power of ten. -/
theorem spells_positional (hds : ∀ c ∈ ds, c.isDigit = true) (hne : ds ≠ [])
    (hzero : ∀ c ∈ ds.head?, c ≠ '0') (point : Int) :
    Spells (positional ds point).toList (digitsValue ds) (point - ds.length) := by
  rcases lt_or_ge 0 point with hpos | hle
  · rcases Nat.lt_or_ge point.toNat ds.length with hlt | hge
    · exact spells_positional_inside hds hzero hpos hlt
    · exact spells_positional_above hds hne hzero hpos hge
  · exact spells_positional_below hds hne hle

/-- Digits with a power of ten denote the digits times a power of ten. -/
theorem spells_scientific (hds : ∀ c ∈ ds, c.isDigit = true) (hne : ds ≠ [])
    (hzero : ∀ c ∈ ds.head?, c ≠ '0') (exponent : Int) :
    Spells (scientific ds exponent).toList (digitsValue ds) (exponent + 1 - ds.length) := by
  obtain ⟨d, fraction, rfl⟩ := List.exists_cons_of_ne_nil hne
  have hmark : (if exponent < 0 then "e-" else "e+").toList =
      ['e', if exponent < 0 then '-' else '+'] := by split <;> rfl
  have hpoint : (if fraction.isEmpty then "" else "." ++ String.ofList fraction).toList =
      if fraction = [] then [] else '.' :: fraction := by
    cases fraction with
    | nil => rfl
    | cons c cs => simp
  refine ⟨⟨[d], fraction, some exponent⟩, ⟨leading_of_digits ?_ (List.cons_ne_nil _ _) hzero, ?_,
    .inr (Option.some_ne_none _)⟩, ?_, ?_⟩
  · exact fun c hc => hds c (List.mem_singleton.mp hc ▸ List.mem_cons_self)
  · exact fun c hc => hds c (List.mem_cons_of_mem _ hc)
  · rw [scientific, Numeral.text, Numeral.tail, String.toList_append, String.toList_append,
      String.toList_append, hmark]
    simp only [List.drop_succ_cons, List.drop_zero, hpoint]
    simp [powerText]
  · have hexponent : exponent - (fraction.length : Int) = exponent + 1 - (d :: fraction).length := by
      rw [List.length_cons]
      omega
    simp only [Numeral.coefficient, Numeral.exponent, Option.getD_some, hexponent,
      List.singleton_append]

/-- A number other than zero is written as a numeral of its fewest digits. -/
theorem spells_magnitude {negative : Bool} {c : Nat} {e : Int} (hc : 0 < c)
    (hcanonical : Canonical (.finite negative c e)) (l : Binary64.Layout) :
    Spells (l.magnitude c e).toList (shortest c e).1 (shortest c e).2 := by
  obtain ⟨hpos, -⟩ := Binary64.shortest_roundsTo hc hcanonical
  obtain ⟨zeros, hsplit⟩ := toDigits_eq_significant (shortest c e).1
  generalize hds : significant (shortest c e).1 = ds at hsplit
  have hdigits : ∀ c ∈ ds, c.isDigit = true := fun c h =>
    isDigit_toDigits (hsplit ▸ List.mem_append_left _ h)
  have hvalue : (shortest c e).1 = 10 ^ zeros * digitsValue ds := by
    have h := digitsValue_append ds (List.replicate zeros '0')
    rwa [← hsplit, digitsValue_toDigits, digitsValue_zeros, List.length_replicate,
      Nat.add_zero] at h
  have hne : ds ≠ [] := by
    rintro rfl
    rw [hvalue] at hpos
    exact absurd hpos (by simp [digitsValue])
  have hzero : ∀ c ∈ ds.head?, c ≠ '0' := by
    have h := head_toDigits hpos
    rwa [hsplit, List.head?_append_of_ne_nil _ hne] at h
  have hleading : (shortest c e).2 + (Nat.toDigits 10 (shortest c e).1).length - 1 + 1 - ds.length =
      (shortest c e).2 + zeros := by
    rw [hsplit, List.length_append, List.length_replicate]
    push_cast
    ring
  have hsame : ((digitsValue ds : ℚ)) * 10 ^ ((shortest c e).2 + zeros) =
      (shortest c e).1 * 10 ^ (shortest c e).2 := by
    rw [hvalue, zpow_add₀ (by norm_num), zpow_natCast]
    push_cast
    ring
  rw [Binary64.Layout.magnitude, if_neg hc.ne']
  dsimp only
  rw [hds]
  split
  · exact Spells.congr (hleading ▸ spells_positional hdigits hne hzero _) hsame
  · exact Spells.congr (hleading ▸ spells_scientific hdigits hne hzero _) hsame

/-- What spells the fewest digits of a number is read as the number. -/
theorem number_of_spells {negative : Bool} {c : Nat} {e : Int} (hc : 0 < c)
    (hcanonical : Canonical (.finite negative c e)) {cs : List Char}
    (h : Spells cs (shortest c e).1 (shortest c e).2) (hrest : Closes rest) :
    number (sign negative ++ cs ++ rest) = some (.float (.finite negative c e), rest) := by
  obtain ⟨n, hn, rfl, hdenotes⟩ := h
  rw [n.number_text hn hrest, Binary64.ofDecimal_of_shortest hc hcanonical hdenotes]

end

end QueryTree.Json
