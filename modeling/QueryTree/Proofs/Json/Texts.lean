import Mathlib.Tactic.SplitIfs
import QueryTree.Json
import QueryTree.Json.Writer

/-!
# Texts are read back

Inside quotes a character is written as it is, as a short escape, or by its code units in
four hexadecimal digits each.  In each case the reader takes the one character from it and
goes on after it (`text_escaped`).  So a text is read back from its quotes
(`text_quoted`).
-/

namespace QueryTree.Json

/-! ## Hexadecimal digits -/

theorem hexValue?_digitChar : ∀ n < 16, hexValue? (Nat.digitChar n) = some n := by decide

theorem hexDigits_one {n : Nat} (h : n < 16) :
    (Text.hexDigits 1 n).toList = [Nat.digitChar n] := by
  rw [Text.hexDigits, Nat.toDigits_of_lt_base h]
  exact String.toList_ofList

/-- The last digit of a number stands after the digits of the others. -/
theorem hexDigits_succ {width : Nat} (hwidth : 0 < width) (n : Nat) :
    (Text.hexDigits (width + 1) n).toList =
      (Text.hexDigits width (n / 16)).toList ++ [Nat.digitChar (n % 16)] := by
  simp only [Text.hexDigits, String.toList_ofList, List.append_assoc]
  rcases Nat.lt_or_ge n 16 with hlt | hge
  · have hzero : Nat.toDigits 16 0 = ['0'] := by decide
    have hpadding : List.replicate width '0' = List.replicate (width - 1) '0' ++ ['0'] := by
      rw [← List.replicate_succ', Nat.sub_add_cancel hwidth]
    rw [Nat.toDigits_of_lt_base hlt, Nat.div_eq_of_lt hlt, Nat.mod_eq_of_lt hlt, hzero]
    simp only [List.length_singleton, Nat.add_sub_cancel, hpadding, List.append_assoc]
  · rw [Nat.toDigits_of_base_le (by decide) hge]
    simp only [List.length_append, List.length_singleton, Nat.add_sub_add_right]

theorem hexDigits_four {n : Nat} (h : n < 0x10000) :
    ∃ a b c d, (Text.hexDigits 4 n).toList = [a, b, c, d] ∧ hexValue4? a b c d = some n := by
  have hlow : ∀ m : Nat, m % 16 < 16 := fun m => Nat.mod_lt m (by decide)
  refine ⟨Nat.digitChar (n / 16 / 16 / 16), Nat.digitChar (n / 16 / 16 % 16),
    Nat.digitChar (n / 16 % 16), Nat.digitChar (n % 16), ?_, ?_⟩
  · rw [hexDigits_succ (by decide), hexDigits_succ (by decide), hexDigits_succ (by decide),
      hexDigits_one (by omega)]
    rfl
  · simp only [hexValue4?, hexValue?_digitChar _ (hlow _),
      hexValue?_digitChar (n / 16 / 16 / 16) (by omega), Option.bind_eq_bind, Option.bind_some]
    refine congrArg some ?_
    omega

/-! ## Escapes -/

variable {rest : List Char}

/-- One more character before what is read. -/
def after (c : Char) : Option (List Char × List Char) → Option (List Char × List Char) :=
  Option.map fun r => (c :: r.1, r.2)

theorem text_plain {c : Char} (hquote : c ≠ '\x22') (hback : c ≠ '\x5c') (hc : 0x20 ≤ c.toNat) :
    text (c :: rest) = after c (text rest) := by
  have hplain : ¬ (c.toNat < 0x20 ∨ c = '\x5c') := by
    rintro (h | h)
    · omega
    · exact hback h
  rw [text.eq_def]
  split
  · next h => cases h
  · next h => exact absurd (List.cons.inj h).1 hquote
  · next h => exact absurd (List.cons.inj h).1 hback
  · next h => exact absurd (List.cons.inj h).1 hback
  · next h =>
      obtain ⟨rfl, rfl⟩ := List.cons.inj h
      rw [if_neg hplain]
      rfl

theorem text_short {c e : Char} (hc : c ≠ 'u') (he : shortEscape? c = some e) :
    text ('\x5c' :: c :: rest) = after e (text rest) := by
  rw [text.eq_def]
  split
  · next h => cases h
  · next h => cases (List.cons.inj h).1
  · next h => exact absurd (List.cons.inj (List.cons.inj h).2).1 hc
  · next h =>
      obtain ⟨rfl, rfl⟩ := List.cons.inj (List.cons.inj h).2
      rw [he]
      rfl
  · next hback h =>
      obtain ⟨rfl, rfl⟩ := List.cons.inj h
      exact (hback c rest rfl rfl).elim

theorem text_unit {a b c d : Char} {n : Nat} (h : hexValue4? a b c d = some n)
    (hhigh : isHighSurrogate n = false) (hlow : isLowSurrogate n = false) :
    text ('\x5c' :: 'u' :: a :: b :: c :: d :: rest) = after (Char.ofNat n) (text rest) := by
  rw [text, h]
  dsimp only
  rw [hhigh, hlow]
  rfl

theorem text_pair {a b c d e f g h : Char} {high low : Nat} (hfirst : hexValue4? a b c d = some high)
    (hsecond : hexValue4? e f g h = some low) (hhigh : isHighSurrogate high = true)
    (hlow : isLowSurrogate low = true) :
    text ('\x5c' :: 'u' :: a :: b :: c :: d :: '\x5c' :: 'u' :: e :: f :: g :: h :: rest) =
      after (joinSurrogates high low) (text rest) := by
  simp only [text, hfirst, hhigh, if_true, hsecond, hlow]
  rfl

theorem text_unitEscape {n : Nat} (h : n < 0x10000) (hhigh : isHighSurrogate n = false)
    (hlow : isLowSurrogate n = false) :
    text ((unitEscape n).toList ++ rest) = after (Char.ofNat n) (text rest) := by
  obtain ⟨a, b, c, d, hdigits, hvalue⟩ := hexDigits_four h
  rw [unitEscape, String.toList_append, hdigits]
  exact text_unit hvalue hhigh hlow

theorem text_pairEscape {high low : Nat} (hhigh : isHighSurrogate high = true)
    (hlow : isLowSurrogate low = true) :
    text ((unitEscape high ++ unitEscape low).toList ++ rest) =
      after (joinSurrogates high low) (text rest) := by
  simp only [isHighSurrogate, isLowSurrogate, Bool.and_eq_true, decide_eq_true_eq] at hhigh hlow
  obtain ⟨a, b, c, d, hfirst, hvalue⟩ := hexDigits_four (n := high) (by omega)
  obtain ⟨e, f, g, h, hsecond, hvalue'⟩ := hexDigits_four (n := low) (by omega)
  rw [unitEscape, unitEscape, String.toList_append, String.toList_append, String.toList_append,
    hfirst, hsecond]
  exact text_pair hvalue hvalue' (by simp [isHighSurrogate, hhigh]) (by simp [isLowSurrogate, hlow])

/-- A code point above those of one unit is put together from its two units. -/
theorem joinSurrogates_split {n : Nat} :
    joinSurrogates (0xd800 + n / 0x400) (0xdc00 + n % 0x400) = Char.ofNat (0x10000 + n) := by
  rw [joinSurrogates]
  exact congrArg Char.ofNat (by omega)

/-- A character is read back from its escape. -/
theorem text_escaped (c : Char) : text ((escaped c).toList ++ rest) = after c (text rest) := by
  rw [escaped]
  split_ifs with hquote hback hline hreturn htab hbackspace hfeed hplain hunit
  · exact hquote ▸ text_short (by decide) (by decide)
  · exact hback ▸ text_short (by decide) (by decide)
  · exact hline ▸ text_short (by decide) (by decide)
  · exact hreturn ▸ text_short (by decide) (by decide)
  · exact htab ▸ text_short (by decide) (by decide)
  · exact hbackspace ▸ text_short (by decide) (by decide)
  · exact hfeed ▸ text_short (by decide) (by decide)
  · rw [Char.toString, String.toList_singleton]
    exact text_plain hquote hback hplain.1
  · -- no character has the number of a surrogate
    have hvalid : c.toNat < 0xd800 ∨ 0xdfff < c.toNat ∧ c.toNat < 0x110000 := c.valid
    rw [text_unitEscape hunit, Char.ofNat_toNat]
    · rw [isHighSurrogate, Bool.and_eq_false_iff, decide_eq_false_iff_not, decide_eq_false_iff_not]
      omega
    · rw [isLowSurrogate, Bool.and_eq_false_iff, decide_eq_false_iff_not, decide_eq_false_iff_not]
      omega
  · have hvalid : c.toNat < 0xd800 ∨ 0xdfff < c.toNat ∧ c.toNat < 0x110000 := c.valid
    have hsum : 0x10000 + (c.toNat - 0x10000) = c.toNat := by omega
    dsimp only
    rw [text_pairEscape, joinSurrogates_split, hsum, Char.ofNat_toNat]
    · rw [isHighSurrogate, Bool.and_eq_true, decide_eq_true_iff, decide_eq_true_iff]
      omega
    · rw [isLowSurrogate, Bool.and_eq_true, decide_eq_true_iff, decide_eq_true_iff]
      omega

/-- A text is read back from its quotes. -/
theorem text_quoted (cs : List Char) :
    text ((String.join (cs.map escaped)).toList ++ '\x22' :: rest) = some (cs, rest) := by
  induction cs with
  | nil => rfl
  | cons c cs ih =>
      rw [List.map_cons, String.join_cons, String.toList_append, List.append_assoc, text_escaped, ih]
      rfl

end QueryTree.Json
