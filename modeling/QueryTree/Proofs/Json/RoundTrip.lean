import Mathlib.Data.List.DropRight
import QueryTree.Proofs.Json.Numbers
import QueryTree.Proofs.Json.Texts

/-!
# Values are read back

A value is *native* if it is made of null, truth values, numbers, texts, lists, and maps
with text keys (`Native`).

*What is written is read back.*  Twice the length of its text in steps is enough for a
value, whatever closes it (`ReadBack`).  Brackets and commas are worth the steps that go
into the items, so a list has enough of them if its items have.  The same goes for maps,
whose entries are collected in order because no key comes twice.  The main statement is
`read_write`.

*What is read is native.*  A key that comes twice keeps its place and takes the last value
(`NativeEntries.set`).  The main statement is `native_of_read`.
-/

namespace QueryTree.Json

variable {rest : List Char}

/-! ## Native values -/

/-- The map of some entries with text keys. -/
def entriesOf (pairs : List (String × Value)) : Fields := pairs.map fun p => (.str p.1, p.2)

/-- A value that a JSON text can denote.  Keys are texts, each once. -/
inductive Native : Value → Prop
  | null : Native .null
  | bool (b : Bool) : Native (.bool b)
  | int (i : Int) : Native (.int i)
  | float {x : Binary64} : x.Canonical → Native (.float x)
  | str (s : String) : Native (.str s)
  | list {items : List Value} : (∀ v ∈ items, Native v) → Native (.list items)
  | map {pairs : List (String × Value)} : (pairs.map (·.1)).Nodup → (∀ p ∈ pairs, Native p.2) →
    Native (.map (entriesOf pairs))

/-! ## Values without parts -/

/-- The text of a value without parts begins with neither a blank nor a mark. -/
structure Opens (c : Char) : Prop where
  blank : isBlank c = false
  quote : c ≠ '\x22'
  bracket : c ≠ '['
  brace : c ≠ '\x7b'

theorem value_eq_scalar {c : Char} {cs : List Char} (h : Opens c) (n : Nat) :
    value (n + 1) (c :: cs) = scalar (c :: cs) := by
  have hskip : skipBlank (c :: cs) = c :: cs := by
    rw [skipBlank, List.dropWhile_cons_of_neg (by rw [h.blank]; exact Bool.false_ne_true)]
  rw [value, hskip]
  split
  · next heq => exact absurd (List.cons.inj heq).1 h.quote
  · next heq => exact absurd (List.cons.inj heq).1 h.bracket
  · next heq => exact absurd (List.cons.inj heq).1 h.brace
  · rfl

theorem after?_of_ne {w c : Char} (h : w ≠ c) (word cs : List Char) :
    after? (w :: word) (c :: cs) = none := by
  rw [after?, if_neg h]

/-- What begins like no word is a number. -/
theorem scalar_eq_number {c : Char} {cs : List Char} (hn : 'n' ≠ c) (ht : 't' ≠ c) (hf : 'f' ≠ c)
    (hN : 'N' ≠ c) : scalar (c :: cs) = number (c :: cs) := by
  have hwords : after? "null".toList (c :: cs) = none ∧ after? "true".toList (c :: cs) = none ∧
      after? "false".toList (c :: cs) = none ∧ after? "NaN".toList (c :: cs) = none :=
    ⟨after?_of_ne hn _ _, after?_of_ne ht _ _, after?_of_ne hf _ _, after?_of_ne hN _ _⟩
  rw [scalar, hwords.1, hwords.2.1, hwords.2.2.1, hwords.2.2.2]

/-- A value whose text is read as the value, whatever closes it. -/
def ReadBack (v : Value) : Prop :=
  ∀ (n : Nat) (rest : List Char), Closes rest → 2 * (write v).length ≤ n →
    value n ((write v).toList ++ rest) = some (v, rest)

theorem readBack_of_scalar {v : Value} {c : Char} {cs : List Char} (htext : (write v).toList = c :: cs)
    (hopens : Opens c) (hscalar : ∀ rest, Closes rest → scalar (c :: cs ++ rest) = some (v, rest)) :
    ReadBack v := by
  intro n rest hrest hn
  have hlength : (write v).length = cs.length + 1 := by
    rw [← String.length_toList, htext, List.length_cons]
  obtain ⟨m, rfl⟩ : ∃ m, n = m + 1 := ⟨n - 1, by omega⟩
  rw [htext, ← hscalar rest hrest, List.cons_append]
  exact value_eq_scalar hopens m

theorem readBack_null : ReadBack .null :=
  readBack_of_scalar rfl ⟨by decide, by decide, by decide, by decide⟩ fun _ _ => rfl

theorem readBack_bool (b : Bool) : ReadBack (.bool b) := by
  cases b with
  | true => exact readBack_of_scalar rfl ⟨by decide, by decide, by decide, by decide⟩ fun _ _ => rfl
  | false => exact readBack_of_scalar rfl ⟨by decide, by decide, by decide, by decide⟩ fun _ _ => rfl

theorem opens_digit {c : Char} (h : c.isDigit = true) : Opens c ∧
    'n' ≠ c ∧ 't' ≠ c ∧ 'f' ≠ c ∧ 'N' ≠ c := by
  have hne : ∀ d : Char, d.isDigit = false → c ≠ d := by
    rintro d hd rfl
    rw [h] at hd
    cases hd
  refine ⟨⟨?_, hne _ (by decide), hne _ (by decide), hne _ (by decide)⟩, (hne _ (by decide)).symm,
    (hne _ (by decide)).symm, (hne _ (by decide)).symm, (hne _ (by decide)).symm⟩
  simp only [isBlank, beq_eq_false_iff_ne.mpr (hne ' ' (by decide)),
    beq_eq_false_iff_ne.mpr (hne '\t' (by decide)), beq_eq_false_iff_ne.mpr (hne '\n' (by decide)),
    beq_eq_false_iff_ne.mpr (hne '\r' (by decide)), Bool.or_self]

/-- A value that is written as a number. -/
theorem readBack_of_number {v : Value} {negative : Bool} {whole tail : List Char}
    (htext : (write v).toList = sign negative ++ (whole ++ tail)) (hwhole : Leading whole)
    (hnumber : ∀ rest, Closes rest →
      number (sign negative ++ (whole ++ tail) ++ rest) = some (v, rest)) : ReadBack v := by
  obtain ⟨d, ds, rfl⟩ := List.exists_cons_of_ne_nil hwhole.ne_nil
  cases negative with
  | true =>
      refine readBack_of_scalar htext ⟨by decide, by decide, by decide, by decide⟩
        fun rest hrest => ?_
      rw [← hnumber rest hrest]
      exact scalar_eq_number (by decide) (by decide) (by decide) (by decide)
  | false =>
      obtain ⟨hopens, hn, ht, hf, hN⟩ := opens_digit (hwhole.digits d List.mem_cons_self)
      refine readBack_of_scalar htext hopens fun rest hrest => ?_
      rw [← hnumber rest hrest]
      exact scalar_eq_number hn ht hf hN

theorem leading_toDigits (n : Nat) : Leading (Nat.toDigits 10 n) := by
  rcases Nat.eq_zero_or_pos n with rfl | hn
  · exact leading_zero
  · exact leading_of_digits (fun _ => isDigit_toDigits) Nat.toDigits_ne_nil (head_toDigits hn)

theorem readBack_int (i : Int) : ReadBack (.int i) := by
  have htext : (write (.int i)).toList = sign (decide (i < 0)) ++ (Nat.toDigits 10 i.natAbs ++ []) := by
    rw [List.append_nil]
    cases i with
    | ofNat m =>
        have hsign : sign (decide (Int.ofNat m < 0)) = [] := if_neg (by simp)
        rw [hsign]
        exact Nat.toList_repr
    | negSucc m =>
        have hsign : sign (decide (Int.negSucc m < 0)) = ['-'] := if_pos (by simp)
        have hwrite : write (.int (.negSucc m)) = "-" ++ (m + 1).repr := rfl
        rw [hsign, hwrite, String.toList_append, Nat.toList_repr]
        rfl
  refine readBack_of_number htext (leading_toDigits _) fun rest hrest => ?_
  have hread := @number_eq (decide (i < 0)) _ _ (leading_toDigits i.natAbs) hrest.noDigit
  rw [List.append_nil, hread, hrest.fraction?_eq]
  simp only [Option.getD_none, hrest.power?_eq, Option.isNone_none, and_self, if_true,
    digitsValue_toDigits, decide_eq_true_eq]
  congr 3
  split <;> omega

theorem canonical_zero {negative : Bool} {e : Int}
    (h : Binary64.Canonical (.finite negative 0 e)) : e = Binary64.leastExponent :=
  h.2.2.2 (by decide)

theorem write_finite (negative : Bool) (c : Nat) (e : Int) :
    (write (.float (.finite negative c e))).toList =
      sign negative ++ (floatLayout.magnitude c e).toList := by
  cases negative <;> simp [write, Binary64.Layout.write, sign]

theorem readBack_float {x : Binary64} (h : x.Canonical) : ReadBack (.float x) := by
  cases x with
  | finite negative c e =>
      rcases Nat.eq_zero_or_pos c with rfl | hc
      · have htext : (write (.float (.finite negative 0 e))).toList =
            sign negative ++ (['0'] ++ ['.', '0']) := by
          rw [write_finite, Binary64.Layout.magnitude, if_pos rfl]
          rfl
        obtain rfl := canonical_zero h
        have hproper : Numeral.Proper ⟨['0'], ['0'], none⟩ :=
          ⟨leading_zero, leading_zero.digits, .inl leading_zero.ne_nil⟩
        refine readBack_of_number htext leading_zero fun rest hrest => ?_
        refine (Numeral.number_text hproper hrest negative).trans ?_
        have hvalue : Numeral.coefficient ⟨['0'], ['0'], none⟩ = 0 := by decide
        rw [hvalue]
        rfl
      · have hspells := spells_magnitude hc h floatLayout
        have hnumber := fun rest => @number_of_spells rest negative c e hc h _ hspells
        obtain ⟨n, hn, htext, -⟩ := hspells
        have hwrite := write_finite negative c e
        rw [htext] at hwrite hnumber
        exact readBack_of_number hwrite hn.leading hnumber
  | infinite negative =>
      cases negative with
      | true =>
          exact readBack_of_scalar rfl ⟨by decide, by decide, by decide, by decide⟩ fun _ _ => rfl
      | false =>
          exact readBack_of_scalar rfl ⟨by decide, by decide, by decide, by decide⟩ fun _ _ => rfl
  | nan => exact readBack_of_scalar rfl ⟨by decide, by decide, by decide, by decide⟩ fun _ _ => rfl

theorem readBack_str (s : String) : ReadBack (.str s) := by
  intro n rest _ hn
  have htext : (write (.str s)).toList = '\x22' ::
      ((String.join (s.toList.map escaped)).toList ++ ['\x22']) := by
    rw [write, quoted, String.toList_append, String.toList_append]
    rfl
  have hlength : 0 < (write (.str s)).length := by
    rw [← String.length_toList, htext]
    exact Nat.succ_pos _
  obtain ⟨m, rfl⟩ : ∃ m, n = m + 1 := ⟨n - 1, by omega⟩
  have hread := @text_quoted rest s.toList
  rw [htext, List.cons_append, List.append_assoc, List.singleton_append]
  exact (congrArg (Option.map fun r => (Value.str (String.ofList r.1), r.2)) hread).trans
    (by rw [Option.map_some, String.ofList_toList])

/-! ## Blanks -/

theorem skipBlank_idem (cs : List Char) : skipBlank (skipBlank cs) = skipBlank cs := by
  rw [skipBlank, skipBlank, List.dropWhile_idempotent]

/-- Blanks before a value make no difference. -/
theorem value_skipBlank (n : Nat) (cs : List Char) : value n (skipBlank cs) = value n cs := by
  cases n with
  | zero => rfl
  | succ n => rw [value, value, skipBlank_idem]

theorem items_skipBlank (n : Nat) (cs : List Char) : items n (skipBlank cs) = items n cs := by
  cases n with
  | zero => rfl
  | succ n => rw [items, items, value_skipBlank]

theorem value_blank (n : Nat) (cs : List Char) : value n (' ' :: cs) = value n cs := by
  rw [← value_skipBlank, ← value_skipBlank n cs]
  rfl

theorem items_blank (n : Nat) (cs : List Char) : items n (' ' :: cs) = items n cs := by
  rw [← items_skipBlank, ← items_skipBlank n cs]
  rfl

theorem members_skipBlank (n : Nat) (done : Fields) (cs : List Char) :
    members n done (skipBlank cs) = members n done cs := by
  cases n with
  | zero => rfl
  | succ n => rw [members, members, skipBlank_idem]

theorem members_blank (n : Nat) (done : Fields) (cs : List Char) :
    members n done (' ' :: cs) = members n done cs := by
  rw [← members_skipBlank, ← members_skipBlank n done cs]
  rfl

theorem closes_cons {c : Char} {cs : List Char} (h : c = ',' ∨ c = ']' ∨ c = '\x7d') :
    Closes (c :: cs) := fun _ hc => Option.some.inj hc ▸ h

/-- A value is read back if what stands between its first and its last character is. -/
theorem readBack_enclosed {v : Value} {opening closing : Char} {inner : String}
    (htext : (write v).toList = opening :: (inner.toList ++ [closing]))
    (hread : ∀ n rest, 2 * inner.length + 1 ≤ n →
      value (n + 1) (opening :: (inner.toList ++ closing :: rest)) = some (v, rest)) : ReadBack v := by
  intro n rest _ hn
  have hlength : (write v).length = inner.length + 2 := by
    rw [← String.length_toList, htext, List.length_cons, List.length_append, String.length_toList]
    rfl
  obtain ⟨n, rfl⟩ : ∃ m, n = m + 1 := ⟨n - 1, by omega⟩
  rw [htext, List.cons_append, List.append_assoc, List.singleton_append]
  exact hread n rest (by omega)

/-! ## Arrays -/

/-- No item begins with the closing bracket. -/
theorem items_bracket (n : Nat) (cs : List Char) : items n (']' :: cs) = none := by
  cases n with
  | zero => rfl
  | succ n => cases n <;> rfl

/-- After the opening bracket there is the closing one, or an item. -/
theorem value_bracket (n : Nat) (cs : List Char) :
    value (n + 1) ('[' :: cs) = match skipBlank cs with
      | ']' :: rest => some (.list [], rest)
      | rest => (items n rest).map fun r => (.list r.1, r.2) := rfl

theorem value_array {n : Nat} {cs : List Char} {found : List Value × List Char}
    (h : items n cs = some found) : value (n + 1) ('[' :: cs) = some (.list found.1, found.2) := by
  rw [← items_skipBlank] at h
  rw [value_bracket]
  split
  · next heq =>
      rw [heq, items_bracket] at h
      cases h
  · rw [h]
    rfl

/-- Values between commas are read back up to the closing bracket. -/
theorem items_write {vs : List Value} (h : ∀ v ∈ vs, ReadBack v) (hne : vs ≠ []) (rest : List Char) :
    ∀ n : Nat, 2 * (", ".intercalate (writeItems vs)).length + 1 ≤ n →
      items n ((", ".intercalate (writeItems vs)).toList ++ ']' :: rest) = some (vs, rest) := by
  induction vs with
  | nil => exact absurd rfl hne
  | cons v vs ih =>
      intro n hn
      obtain ⟨n, rfl⟩ : ∃ m, n = m + 1 := ⟨n - 1, by omega⟩
      have hv := h v List.mem_cons_self
      cases vs with
      | nil =>
          rw [writeItems, writeItems, String.intercalate_singleton] at hn ⊢
          rw [items, hv n _ (closes_cons (.inr (.inl rfl))) (by omega)]
          rfl
      | cons w ws =>
          have hrest := ih (fun u hu => h u (List.mem_cons_of_mem _ hu)) (List.cons_ne_nil _ _) n
          have htext : ", ".intercalate (writeItems (v :: w :: ws)) =
              write v ++ ", " ++ ", ".intercalate (writeItems (w :: ws)) := by
            rw [writeItems, writeItems, String.intercalate_cons_cons]
          have hcomma : ", ".toList = [',', ' '] := rfl
          rw [htext, String.length_append, String.length_append] at hn
          have hlength : ", ".length = 2 := rfl
          rw [htext, String.toList_append, String.toList_append, hcomma, List.append_assoc,
            List.append_assoc, List.cons_append, List.singleton_append, items,
            hv n _ (closes_cons (.inl rfl)) (by omega)]
          refine congrArg (Option.map fun r => (v :: r.1, r.2)) (Eq.trans ?_ (hrest (by omega)))
          exact items_blank n _

theorem readBack_list {vs : List Value} (h : ∀ v ∈ vs, ReadBack v) : ReadBack (.list vs) := by
  have htext : (write (.list vs)).toList =
      '[' :: ((", ".intercalate (writeItems vs)).toList ++ [']']) := by
    rw [write, String.toList_append, String.toList_append]
    rfl
  refine readBack_enclosed htext fun n rest hn => ?_
  cases vs with
  | nil => rfl
  | cons v vs => exact value_array (items_write h (List.cons_ne_nil _ _) rest n hn)

/-! ## Objects -/

theorem members_brace (n : Nat) (done : Fields) (cs : List Char) :
    members n done ('\x7d' :: cs) = none := by
  cases n <;> rfl

/-- After the opening brace there is the closing one, or an entry. -/
theorem value_brace (n : Nat) (cs : List Char) :
    value (n + 1) ('\x7b' :: cs) = match skipBlank cs with
      | '\x7d' :: rest => some (.map [], rest)
      | rest => (members n [] rest).map fun r => (.map r.1, r.2) := rfl

theorem value_object {n : Nat} {cs : List Char} {found : Fields × List Char}
    (h : members n [] cs = some found) :
    value (n + 1) ('\x7b' :: cs) = some (.map found.1, found.2) := by
  rw [← members_skipBlank] at h
  rw [value_brace]
  split
  · next heq =>
      rw [heq, members_brace] at h
      cases h
  · rw [h]
    rfl

/-- A key that is not there is entered last. -/
theorem set_entriesOf {pairs : List (String × Value)} {key : String} (h : key ∉ pairs.map (·.1))
    (v : Value) : (entriesOf pairs).set key v = entriesOf (pairs ++ [(key, v)]) := by
  induction pairs with
  | nil => rfl
  | cons p pairs ih =>
      rw [List.map_cons, List.mem_cons, not_or] at h
      have hset : (entriesOf (p :: pairs)).set key v =
          if p.1 = key then (.str key, v) :: entriesOf pairs
          else (.str p.1, p.2) :: (entriesOf pairs).set key v := by
        rw [entriesOf, List.map_cons, Fields.set]
        split
        · next heq => rw [heq, entriesOf]
        · rfl
      rw [hset, if_neg (Ne.symm h.1), ih h.2]
      rfl

/-- An entry is a key, a colon and a value. -/
theorem members_quote (n : Nat) (done : Fields) (cs : List Char) :
    members (n + 1) done ('\x22' :: cs) = match text cs with
      | none => none
      | some (key, rest) =>
        match skipBlank rest with
        | ':' :: rest =>
          match value n rest with
          | none => none
          | some (v, rest) =>
            match skipBlank rest with
            | ',' :: rest => members n (done.set (String.ofList key) v) rest
            | '\x7d' :: rest => some (done.set (String.ofList key) v, rest)
            | _ => none
        | _ => none := rfl

/-- The text of an entry. -/
theorem members_entry {n : Nat} {done : List (String × Value)} {key : String} {v : Value}
    (hkey : key ∉ done.map (·.1)) (hv : ReadBack v) (hn : 2 * (write v).length ≤ n)
    {rest : List Char} (hrest : Closes rest) :
    members (n + 1) (entriesOf done) ((quoted key ++ ": " ++ write v).toList ++ rest) =
      match skipBlank rest with
      | ',' :: rest => members n (entriesOf (done ++ [(key, v)])) rest
      | '\x7d' :: rest => some (entriesOf (done ++ [(key, v)]), rest)
      | _ => none := by
  have htext : (quoted key ++ ": " ++ write v).toList ++ rest = '\x22' ::
      ((String.join (key.toList.map escaped)).toList ++
        '\x22' :: ':' :: ' ' :: ((write v).toList ++ rest)) := by
    have hmark : "\"".toList = ['\x22'] ∧ ": ".toList = [':', ' '] := ⟨rfl, rfl⟩
    rw [quoted]
    simp only [String.toList_append, hmark.1, hmark.2, List.append_assoc, List.cons_append,
      List.nil_append]
  have hcolon : ∀ cs, skipBlank (':' :: cs) = ':' :: cs := fun _ => rfl
  have hblank : value n (' ' :: ((write v).toList ++ rest)) = some (v, rest) := by
    rw [value_blank, hv n rest hrest hn]
  rw [htext, members_quote, text_quoted]
  simp only [hcolon, hblank, String.ofList_toList, set_entriesOf hkey]

theorem writeEntries_cons (p : String × Value) (pairs : List (String × Value)) :
    writeEntries (entriesOf (p :: pairs)) =
      (quoted p.1 ++ ": " ++ write p.2) :: writeEntries (entriesOf pairs) := by
  rw [entriesOf, List.map_cons, writeEntries, keyText]
  rfl

/-- Entries between commas are read back up to the closing brace, after those before. -/
theorem members_write {pairs : List (String × Value)} (h : ∀ p ∈ pairs, ReadBack p.2)
    (hne : pairs ≠ []) (rest : List Char) : ∀ (n : Nat) (done : List (String × Value)),
      ((done ++ pairs).map (·.1)).Nodup →
      2 * (", ".intercalate (writeEntries (entriesOf pairs))).length + 1 ≤ n →
      members n (entriesOf done)
          ((", ".intercalate (writeEntries (entriesOf pairs))).toList ++ '\x7d' :: rest) =
        some (entriesOf (done ++ pairs), rest) := by
  induction pairs with
  | nil => exact absurd rfl hne
  | cons p pairs ih =>
      intro n done hnodup hn
      obtain ⟨n, rfl⟩ : ∃ m, n = m + 1 := ⟨n - 1, by omega⟩
      have hp := h p List.mem_cons_self
      have hkey : p.1 ∉ done.map (·.1) := by
        rw [List.map_append, List.map_cons] at hnodup
        exact fun hmem => List.disjoint_of_nodup_append hnodup hmem List.mem_cons_self
      have hshift : done ++ p :: pairs = (done ++ [p]) ++ pairs := by
        rw [List.append_assoc, List.singleton_append]
      rw [writeEntries_cons] at hn ⊢
      cases pairs with
      | nil =>
          have hnil : writeEntries (entriesOf []) = [] := rfl
          rw [hnil, String.intercalate_singleton] at hn ⊢
          simp only [String.length_append] at hn
          rw [members_entry hkey hp (by omega) (closes_cons (.inr (.inr rfl)))]
          rfl
      | cons q pairs =>
          have htext : ∀ s : String, ", ".intercalate (s :: writeEntries (entriesOf (q :: pairs))) =
              s ++ ", " ++ ", ".intercalate (writeEntries (entriesOf (q :: pairs))) := by
            intro s
            rw [writeEntries_cons, String.intercalate_cons_cons]
          have hlength : ", ".length = 2 := rfl
          have hcomma : ", ".toList = [',', ' '] := rfl
          rw [htext] at hn ⊢
          simp only [String.length_append] at hn
          have hrest := ih (fun u hu => h u (List.mem_cons_of_mem _ hu)) (List.cons_ne_nil _ _) n
            (done ++ [p]) (hshift ▸ hnodup) (by omega)
          rw [String.toList_append, String.toList_append, hcomma, List.append_assoc,
            List.append_assoc, List.cons_append, List.singleton_append,
            members_entry hkey hp (by omega) (closes_cons (.inl rfl)), hshift, ← hrest]
          exact members_blank n _ _

theorem readBack_map {pairs : List (String × Value)} (hnodup : (pairs.map (·.1)).Nodup)
    (h : ∀ p ∈ pairs, ReadBack p.2) : ReadBack (.map (entriesOf pairs)) := by
  have htext : (write (.map (entriesOf pairs))).toList =
      '\x7b' :: ((", ".intercalate (writeEntries (entriesOf pairs))).toList ++ ['\x7d']) := by
    rw [write, String.toList_append, String.toList_append]
    rfl
  refine readBack_enclosed htext fun n rest hn => ?_
  cases pairs with
  | nil => rfl
  | cons p pairs => exact value_object (members_write h (List.cons_ne_nil _ _) rest n [] hnodup hn)

/-! ## All values -/

theorem Native.readBack {v : Value} (h : Native v) : ReadBack v := by
  induction h with
  | null => exact readBack_null
  | bool b => exact readBack_bool b
  | int i => exact readBack_int i
  | float hx => exact readBack_float hx
  | str s => exact readBack_str s
  | list _ ih => exact readBack_list ih
  | map hnodup _ ih => exact readBack_map hnodup ih

/-- A value that is written is read back. -/
theorem read_write {v : Value} (h : Native v) : read (write v) = some v := by
  have hvalue := h.readBack (2 * (write v).length + 2) [] (fun _ hc => by cases hc) (by omega)
  rw [List.append_nil] at hvalue
  rw [read, hvalue]
  rfl

/-! ## What is read -/

theorem native_number {cs : List Char} {v : Value} (h : number cs = some (v, rest)) : Native v := by
  rw [number_unfold] at h
  split at h
  · obtain ⟨_, -, hfound⟩ := Option.map_eq_some_iff.mp h
    obtain ⟨rfl, -⟩ := Prod.mk.inj hfound
    exact .float trivial
  · cases h
  · dsimp only at h
    split at h
    · obtain ⟨rfl, -⟩ := Prod.mk.inj (Option.some.inj h)
      exact .int _
    · obtain ⟨rfl, -⟩ := Prod.mk.inj (Option.some.inj h)
      exact .float (Binary64.canonical_ofDecimal _ _ _)

theorem native_scalar {cs : List Char} {v : Value} (h : scalar cs = some (v, rest)) : Native v := by
  rw [scalar] at h
  split at h
  · obtain ⟨rfl, -⟩ := Prod.mk.inj (Option.some.inj h)
    exact .null
  · obtain ⟨rfl, -⟩ := Prod.mk.inj (Option.some.inj h)
    exact .bool true
  · obtain ⟨rfl, -⟩ := Prod.mk.inj (Option.some.inj h)
    exact .bool false
  · obtain ⟨rfl, -⟩ := Prod.mk.inj (Option.some.inj h)
    exact .float trivial
  · exact native_number h

/-- The entries of a native map. -/
def NativeEntries (fields : Fields) : Prop :=
  ∃ pairs, fields = entriesOf pairs ∧ (pairs.map (·.1)).Nodup ∧ ∀ p ∈ pairs, Native p.2

theorem NativeEntries.native {fields : Fields} (h : NativeEntries fields) : Native (.map fields) := by
  obtain ⟨pairs, rfl, hnodup, hpairs⟩ := h
  exact .map hnodup hpairs

/-- A key that is there keeps its place. -/
theorem set_of_mem {pairs : List (String × Value)} {key : String} (h : key ∈ pairs.map (·.1))
    (v : Value) : ∃ others : List (String × Value), (entriesOf pairs).set key v = entriesOf others ∧
      others.map (·.1) = pairs.map (·.1) ∧ ∀ p ∈ others, p ∈ pairs ∨ p = (key, v) := by
  induction pairs with
  | nil => cases h
  | cons p pairs ih =>
      by_cases hkey : p.1 = key
      · refine ⟨(key, v) :: pairs, ?_, by rw [List.map_cons, List.map_cons, hkey], ?_⟩
        · rw [entriesOf, List.map_cons, Fields.set, if_pos hkey, hkey]
          rfl
        · intro q hq
          rcases List.mem_cons.mp hq with rfl | hq
          · exact .inr rfl
          · exact .inl (List.mem_cons_of_mem _ hq)
      · have hmem := (List.mem_cons.mp h).resolve_left (Ne.symm hkey)
        obtain ⟨others, hset, hkeys, hothers⟩ := ih hmem
        refine ⟨p :: others, ?_, by rw [List.map_cons, List.map_cons, hkeys], ?_⟩
        · rw [entriesOf, List.map_cons, Fields.set, if_neg hkey]
          exact congrArg _ hset
        · intro q hq
          rcases List.mem_cons.mp hq with rfl | hq
          · exact .inl List.mem_cons_self
          · exact (hothers q hq).imp (List.mem_cons_of_mem _) id

theorem NativeEntries.set {fields : Fields} (h : NativeEntries fields) (key : String) {v : Value}
    (hv : Native v) : NativeEntries (fields.set key v) := by
  obtain ⟨pairs, rfl, hnodup, hpairs⟩ := h
  by_cases hkey : key ∈ pairs.map (·.1)
  · obtain ⟨others, hset, hkeys, hothers⟩ := set_of_mem hkey v
    refine ⟨others, hset, hkeys ▸ hnodup, fun p hp => ?_⟩
    rcases hothers p hp with hp | rfl
    · exact hpairs p hp
    · exact hv
  · refine ⟨pairs ++ [(key, v)], set_entriesOf hkey v, ?_, fun p hp => ?_⟩
    · rw [List.map_append, List.nodup_append]
      refine ⟨hnodup, List.nodup_singleton _, ?_⟩
      rintro k hk _ hk' rfl
      obtain rfl := List.mem_singleton.mp hk'
      exact hkey hk
    · rcases List.mem_append.mp hp with hp | hp
      · exact hpairs p hp
      · obtain rfl := List.mem_singleton.mp hp
        exact hv

/-- What is read with some steps is native, if what is read with one step less is. -/
theorem native_value_succ {n : Nat} (hitems : ∀ cs rest vs, items n cs = some (vs, rest) →
      ∀ v ∈ vs, Native v)
    (hmembers : ∀ cs rest done fields, NativeEntries done → members n done cs = some (fields, rest) →
      NativeEntries fields) {cs : List Char} {v : Value}
    (h : value (n + 1) cs = some (v, rest)) : Native v := by
  rw [value] at h
  split at h
  · obtain ⟨_, -, hfound⟩ := Option.map_eq_some_iff.mp h
    obtain ⟨rfl, -⟩ := Prod.mk.inj hfound
    exact .str _
  · split at h
    · obtain ⟨rfl, -⟩ := Prod.mk.inj (Option.some.inj h)
      exact .list fun v hv => by cases hv
    · obtain ⟨⟨vs, _⟩, hvs, hfound⟩ := Option.map_eq_some_iff.mp h
      obtain ⟨rfl, -⟩ := Prod.mk.inj hfound
      exact .list (hitems _ _ _ hvs)
  · split at h
    · obtain ⟨rfl, -⟩ := Prod.mk.inj (Option.some.inj h)
      exact NativeEntries.native ⟨[], rfl, List.nodup_nil, fun p hp => by cases hp⟩
    · obtain ⟨⟨fields, _⟩, hfields, hfound⟩ := Option.map_eq_some_iff.mp h
      obtain ⟨rfl, -⟩ := Prod.mk.inj hfound
      exact (hmembers _ _ [] _ ⟨[], rfl, List.nodup_nil, fun p hp => by cases hp⟩ hfields).native
  · exact native_scalar h

theorem native_items_succ {n : Nat} (hvalue : ∀ cs rest v, value n cs = some (v, rest) → Native v)
    (hitems : ∀ cs rest vs, items n cs = some (vs, rest) → ∀ v ∈ vs, Native v) {cs : List Char}
    {vs : List Value} (h : items (n + 1) cs = some (vs, rest)) : ∀ v ∈ vs, Native v := by
  rw [items] at h
  split at h
  · cases h
  · next v after hv =>
      split at h
      · obtain ⟨⟨ws, _⟩, hws, hfound⟩ := Option.map_eq_some_iff.mp h
        obtain ⟨rfl, -⟩ := Prod.mk.inj hfound
        exact List.forall_mem_cons.mpr ⟨hvalue _ _ _ hv, hitems _ _ _ hws⟩
      · obtain ⟨rfl, -⟩ := Prod.mk.inj (Option.some.inj h)
        exact List.forall_mem_singleton.mpr (hvalue _ _ _ hv)
      · cases h

theorem native_members_succ {n : Nat}
    (hvalue : ∀ cs rest v, value n cs = some (v, rest) → Native v)
    (hmembers : ∀ cs rest done fields, NativeEntries done → members n done cs = some (fields, rest) →
      NativeEntries fields) {cs : List Char} {done fields : Fields} (hdone : NativeEntries done)
    (h : members (n + 1) done cs = some (fields, rest)) : NativeEntries fields := by
  rw [members] at h
  split at h
  · split at h
    · cases h
    · split at h
      · split at h
        · cases h
        · next v after hv =>
            have hset := fun key => hdone.set key (hvalue _ _ _ hv)
            dsimp only at h
            split at h
            · exact hmembers _ _ _ _ (hset _) h
            · obtain ⟨rfl, -⟩ := Prod.mk.inj (Option.some.inj h)
              exact hset _
            · cases h
      · cases h
  · cases h

/-- What is read with any number of steps is native. -/
theorem native_steps (n : Nat) :
    (∀ cs rest v, value n cs = some (v, rest) → Native v) ∧
    (∀ cs rest vs, items n cs = some (vs, rest) → ∀ v ∈ vs, Native v) ∧
    (∀ cs rest done fields, NativeEntries done → members n done cs = some (fields, rest) →
      NativeEntries fields) := by
  induction n with
  | zero =>
      refine ⟨?_, ?_, ?_⟩
      · intro _ _ _ h
        cases h
      · intro _ _ _ h
        cases h
      · intro _ _ _ _ _ h
        cases h
  | succ n ih =>
      obtain ⟨hvalue, hitems, hmembers⟩ := ih
      exact ⟨fun _ _ _ => native_value_succ hitems hmembers,
        fun _ _ _ => native_items_succ hvalue hitems,
        fun _ _ _ _ => native_members_succ hvalue hmembers⟩

/-- What is read is native. -/
theorem native_of_read {s : String} {v : Value} (h : read s = some v) : Native v := by
  rw [read] at h
  split at h
  · next hv =>
      split at h
      · exact Option.some.inj h ▸ (native_steps _).1 _ _ _ hv
      · cases h
  · cases h

end QueryTree.Json
