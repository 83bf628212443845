import QueryTree.Proofs.Json.Numbers
import QueryTree.Proofs.Json.Texts

/-!
# Everything is written in ASCII

The JSON text of a value holds printable ASCII characters only (`Json.ascii_write`).  This
is so for every value, as what JSON has no form for is written in quotes.  So the text has
no line break (`Ascii.not_mem`).
-/

namespace QueryTree

/-- A text of printable ASCII characters only. -/
def Ascii (s : String) : Prop := ∀ c ∈ s.toList, 0x20 ≤ c.toNat ∧ c.toNat < 0x7f

instance (s : String) : Decidable (Ascii s) :=
  List.decidableBAll (fun c : Char => 0x20 ≤ c.toNat ∧ c.toNat < 0x7f) s.toList

namespace Ascii

variable {s t : String}

theorem append (hs : Ascii s) (ht : Ascii t) : Ascii (s ++ t) := by
  intro c hc
  rw [String.toList_append] at hc
  exact (List.mem_append.mp hc).elim (hs c) (ht c)

theorem ofList {cs : List Char} (h : ∀ c ∈ cs, 0x20 ≤ c.toNat ∧ c.toNat < 0x7f) :
    Ascii (String.ofList cs) := by
  rw [Ascii, String.toList_ofList]
  exact h

theorem join {texts : List String} (h : ∀ s ∈ texts, Ascii s) : Ascii (String.join texts) := by
  induction texts with
  | nil => exact fun c hc => by cases hc
  | cons s texts ih =>
      rw [String.join_cons]
      exact (h s List.mem_cons_self).append (ih fun t ht => h t (List.mem_cons_of_mem _ ht))

theorem intercalate {texts : List String} (hs : Ascii s) (h : ∀ t ∈ texts, Ascii t) :
    Ascii (s.intercalate texts) := by
  induction texts with
  | nil => exact fun c hc => by cases hc
  | cons t texts ih =>
      cases texts with
      | nil =>
          rw [String.intercalate_singleton]
          exact h t List.mem_cons_self
      | cons u texts =>
          rw [String.intercalate_cons_cons]
          exact ((h t List.mem_cons_self).append hs).append
            (ih fun v hv => h v (List.mem_cons_of_mem _ hv))

/-- There is no line break in such a text. -/
theorem not_mem (hs : Ascii s) : '\n' ∉ s.toList := fun h => absurd (hs _ h).1 (by decide)

end Ascii

/-! ## Numbers -/

theorem ascii_digit {c : Char} (h : c.isDigit = true) : 0x20 ≤ c.toNat ∧ c.toNat < 0x7f := by
  have hc : 48 ≤ c.toNat ∧ c.toNat ≤ 57 := by
    simp only [Char.isDigit, Bool.and_eq_true, decide_eq_true_eq] at h
    exact h
  omega

namespace Binary64

open QueryTree.Json (isDigit_toDigits isDigit_zeros isDigit_powerDigits)

theorem ascii_positional {ds : List Char} (hds : ∀ c ∈ ds, c.isDigit = true) (point : Int) :
    Ascii (positional ds point) := by
  rw [positional]
  split
  · refine Ascii.append (by decide) (Ascii.ofList fun c hc => ?_)
    exact ascii_digit ((List.mem_append.mp hc).elim isDigit_zeros (hds c))
  · refine Ascii.append (Ascii.append (Ascii.ofList fun c hc => ?_) (by decide)) ?_
    · exact ascii_digit ((List.mem_append.mp hc).elim (fun h => hds c (List.mem_of_mem_take h))
        isDigit_zeros)
    · split
      · decide
      · exact Ascii.ofList fun c hc => ascii_digit (hds c (List.mem_of_mem_drop hc))

theorem ascii_scientific {ds : List Char} (hds : ∀ c ∈ ds, c.isDigit = true) (exponent : Int) :
    Ascii (scientific ds exponent) := by
  have hpower : Ascii (powerDigits exponent.natAbs) := fun c hc => ascii_digit (isDigit_powerDigits hc)
  have hmark : Ascii (if exponent < 0 then "e-" else "e+") := by split <;> decide
  have hfraction : Ascii (if (ds.drop 1).isEmpty then "" else "." ++ String.ofList (ds.drop 1)) := by
    split
    · decide
    · exact Ascii.append (by decide)
        (Ascii.ofList fun c hc => ascii_digit (hds c (List.mem_of_mem_drop hc)))
  exact (((Ascii.ofList fun c hc => ascii_digit (hds c (List.mem_of_mem_take hc))).append
    hfraction).append hmark).append hpower

theorem ascii_magnitude (l : Layout) (c : Nat) (e : Int) : Ascii (l.magnitude c e) := by
  have hdigits : ∀ n, ∀ d ∈ significant n, d.isDigit = true := by
    intro n d hd
    obtain ⟨zeros, hsplit⟩ := Json.toDigits_eq_significant n
    exact isDigit_toDigits (hsplit ▸ List.mem_append_left _ hd)
  rw [Layout.magnitude]
  split
  · decide
  · dsimp only
    split
    · exact ascii_positional (hdigits _) _
    · exact ascii_scientific (hdigits _) _

theorem ascii_write {l : Layout} (hinfinity : Ascii l.infinity) (hnan : Ascii l.nan) (x : Binary64) :
    Ascii (l.write x) := by
  have hsign : ∀ negative : Bool, Ascii (if negative then "-" else "") := by decide
  cases x with
  | finite negative c e => exact (hsign negative).append (ascii_magnitude l c e)
  | infinite negative => exact (hsign negative).append hinfinity
  | nan => exact hnan

end Binary64

namespace Json

theorem ascii_toString (i : Int) : Ascii (toString i) := by
  cases i with
  | ofNat n =>
      intro c hc
      have hdigits : c ∈ Nat.toDigits 10 n := Nat.toList_repr ▸ hc
      exact ascii_digit (isDigit_toDigits hdigits)
  | negSucc n =>
      have hdigits : Ascii (n + 1).repr := fun c hc =>
        ascii_digit (isDigit_toDigits (Nat.toList_repr ▸ hc))
      exact Ascii.append (by decide : Ascii "-") hdigits

/-! ## Texts -/

theorem ascii_of_hexValue? {c : Char} {n : Nat} (h : hexValue? c = some n) :
    0x20 ≤ c.toNat ∧ c.toNat < 0x7f := by
  have hbetween : ∀ low high : Char, 0x20 ≤ low.toNat → high.toNat < 0x7f → low ≤ c ∧ c ≤ high →
      0x20 ≤ c.toNat ∧ c.toNat < 0x7f := by
    intro low high hlow hhigh hc
    exact ⟨Nat.le_trans hlow hc.1, Nat.lt_of_le_of_lt hc.2 hhigh⟩
  rw [hexValue?] at h
  split at h
  · next hc => exact hbetween '0' '9' (by decide) (by decide) hc
  · split at h
    · next hc => exact hbetween 'a' 'f' (by decide) (by decide) hc
    · split at h
      · next hc => exact hbetween 'A' 'F' (by decide) (by decide) hc
      · cases h

theorem ascii_unitEscape {n : Nat} (h : n < 0x10000) : Ascii (unitEscape n) := by
  obtain ⟨a, b, c, d, hdigits, hvalue⟩ := hexDigits_four h
  obtain ⟨_, ha, hvalue⟩ := Option.bind_eq_some_iff.mp hvalue
  obtain ⟨_, hb, hvalue⟩ := Option.bind_eq_some_iff.mp hvalue
  obtain ⟨_, hc, hvalue⟩ := Option.bind_eq_some_iff.mp hvalue
  obtain ⟨_, hd, -⟩ := Option.bind_eq_some_iff.mp hvalue
  refine Ascii.append (by decide) ?_
  rw [Ascii, hdigits]
  simp only [List.forall_mem_cons]
  exact ⟨ascii_of_hexValue? ha, ascii_of_hexValue? hb, ascii_of_hexValue? hc,
    ascii_of_hexValue? hd, fun c hc => by cases hc⟩

theorem ascii_escaped (c : Char) : Ascii (escaped c) := by
  rw [escaped]
  split_ifs with _ _ _ _ _ _ _ hplain hunit
  · decide
  · decide
  · decide
  · decide
  · decide
  · decide
  · decide
  · rw [Ascii, Char.toString, String.toList_singleton]
    exact List.forall_mem_singleton.mpr hplain
  · exact ascii_unitEscape hunit
  · have hvalid : c.toNat < 0xd800 ∨ 0xdfff < c.toNat ∧ c.toNat < 0x110000 := c.valid
    exact (ascii_unitEscape (by omega)).append (ascii_unitEscape (by omega))

theorem ascii_quoted (s : String) : Ascii (quoted s) := by
  refine ((by decide : Ascii "\"").append (Ascii.join fun t ht => ?_)).append (by decide)
  obtain ⟨c, -, rfl⟩ := List.mem_map.mp ht
  exact ascii_escaped c

/-! ## Values -/

mutual

/-- Every value is written in ASCII. -/
theorem ascii_write (v : Value) : Ascii (write v) := by
  have hcomma : Ascii ", " := by decide
  cases v with
  | null => decide
  | bool b => cases b <;> decide
  | int i => exact ascii_toString i
  | float x => exact Binary64.ascii_write (by decide) (by decide) x
  | str s => exact ascii_quoted s
  | bytes _ => exact ascii_quoted _
  | list items | tuple items =>
      have hitems := Ascii.intercalate hcomma (ascii_writeItems items)
      exact ((by decide : Ascii "[").append hitems).append (by decide)
  | map entries =>
      have hentries := Ascii.intercalate hcomma (ascii_writeEntries entries)
      exact ((by decide : Ascii "\x7b").append hentries).append (by decide)
  | node _ _ => exact ascii_quoted _

theorem ascii_writeItems (items : List Value) : ∀ s ∈ writeItems items, Ascii s := by
  cases items with
  | nil => exact fun s hs => by cases hs
  | cons v rest => exact List.forall_mem_cons.mpr ⟨ascii_write v, ascii_writeItems rest⟩

theorem ascii_writeEntries (entries : Fields) : ∀ s ∈ writeEntries entries, Ascii s := by
  cases entries with
  | nil => exact fun s hs => by cases hs
  | cons entry rest =>
      obtain ⟨key, v⟩ := entry
      have hkey := (ascii_quoted (keyText key)).append (by decide : Ascii ": ")
      exact List.forall_mem_cons.mpr ⟨hkey.append (ascii_write v), ascii_writeEntries rest⟩

end

end Json

end QueryTree
