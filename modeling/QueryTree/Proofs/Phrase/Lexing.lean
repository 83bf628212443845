import QueryTree.Proofs.Identifier
import QueryTree.Proofs.Phrase.Literals
import QueryTree.Settings

/-!
# Reading lexemes

The text of a phrase is the text of its lexemes, with names in quotes.  It shows
where each lexeme ends.  No word begins another one, with one exception, and no
lexeme may follow the shorter of the two so that it looks like the longer.  A name
ends at a closing quote, and an alias at the first space, comma or closing
parenthesis.  That is where every lexeme begins that may follow a name or an alias
(`Phrase.Lawful`).

So the text of a phrase determines its lexemes (`Phrase.lexemes_eq_of_chars_eq`).
-/

namespace QueryTree.Phrase

/-! ## Text -/

/-- The text of a name in quotes. -/
def Name.text (n : Name) : String :=
  Identifier.spelled ({} : Settings).quotes ({} : Settings).nameSeparator n.segments

/-- The text of a lexeme. -/
def Lexeme.text : Lexeme → String
  | word w => w.text
  | name n => n.text
  | called a => " AS " ++ a.text

/-- The characters of some lexemes. -/
def chars (xs : List Lexeme) : List Char := xs.flatMap fun x => x.text.toList

@[simp] theorem chars_cons (x : Lexeme) (xs : List Lexeme) :
    chars (x :: xs) = x.text.toList ++ chars xs := rfl

@[simp] theorem chars_append (xs ys : List Lexeme) : chars (xs ++ ys) = chars xs ++ chars ys :=
  List.flatMap_append

/-- Identifiers in default quotes show where they end. -/
theorem quoted : Identifier.Quoted ({} : Settings).quotes ({} : Settings).nameSeparator '"' where
  closing := rfl
  opening := ⟨'"', [], rfl, by decide⟩
  separator := ⟨'.', [], rfl, by decide⟩

/-! ## Words -/

namespace Word

/-- The words that are no comparators. -/
def fixed : List Word :=
  [hole, always, select, source, comma, close, membership true, membership false, direction .asc,
    direction .desc, join, on, shared, clause .conditions, clause .grouping, clause .ordering, and]

/-- All words. -/
def all : List Word :=
  fixed ++ [Comparator.equal, .different, .unequal, .greater, .greaterEqual, .less, .lessEqual,
    .like, .notLike, .ilike, .is, .isNot].map comparator

theorem mem_all (w : Word) : w ∈ all := by
  cases w with
  | comparator c => cases c <;> decide
  | membership negated => cases negated <;> decide
  | direction d => cases d <;> decide
  | clause k => cases k <;> decide
  | _ => decide

/-- The only word that begins with another one is `IS NOT`. -/
theorem eq_of_prefix {w v : Word} (h : w.text.toList <+: v.text.toList) :
    w = v ∨ w = comparator .is ∧ v = comparator .isNot := by
  have hall : ∀ w ∈ all, ∀ v ∈ all, w.text.toList <+: v.text.toList →
      w = v ∨ w = comparator .is ∧ v = comparator .isNot := by decide +kernel
  exact hall w w.mem_all v v.mem_all h

/-- No word begins as an alias does, or the other way round. -/
theorem not_prefix_alias (w : Word) :
    ¬ w.text.toList <+: " AS ".toList ∧ ¬ " AS ".toList <+: w.text.toList := by
  have hall : ∀ w ∈ all,
      ¬ w.text.toList <+: " AS ".toList ∧ ¬ " AS ".toList <+: w.text.toList := by decide +kernel
  exact hall w w.mem_all

/-- A word is no empty text, and begins neither as a name does nor as the end of
`IS NOT`. -/
theorem exists_head (w : Word) :
    ∃ c cs, w.text.toList = c :: cs ∧ c ≠ 'N' ∧ c ≠ '"' ∧ c ≠ '*' := by
  have hall : ∀ w ∈ all, w.text.toList.head?.any fun c => c ≠ 'N' ∧ c ≠ '"' ∧ c ≠ '*' := by
    decide +kernel
  have h := hall w w.mem_all
  cases hw : w.text.toList with
  | nil => simp [hw] at h
  | cons c cs => exact ⟨c, cs, rfl, by simpa [hw] using h⟩

end Word

theorem Name.exists_head (n : Name) : ∃ c cs, n.text.toList = c :: cs ∧ (c = '"' ∨ c = '*') := by
  have hquote : ∀ s : String,
      (Identifier.quoteSegment ({} : Settings).quotes s).toList =
        '"' :: (Identifier.doubledFrom ['"'] 0 s.toList ++ ['"']) :=
    Identifier.toList_quoteSegment quoted.closing
  unfold Name.text
  match hn : n.segments with
  | [] => exact absurd hn n.ne_nil
  | [s] =>
      rw [Identifier.spelled]
      split
      · exact ⟨'*', [], rfl, .inr rfl⟩
      · exact ⟨_, _, hquote s, .inl rfl⟩
  | s :: t :: rest =>
      rw [Identifier.spelled_cons_cons, String.toList_append, String.toList_append, hquote]
      exact ⟨_, _, rfl, .inl rfl⟩

/-! ## Lexemes that follow a name -/

/-- A lexeme that begins with a space, a comma or a closing parenthesis. -/
def Lexeme.isJoint : Lexeme → Bool
  | word .hole => false
  | word .always => false
  | word .select => false
  | word _ => true
  | name _ => false
  | called _ => true

/-- What ends a name or an alias: nothing more, a space, a comma or a closing
parenthesis. -/
def Ends (X : List Char) : Prop := ∀ c ∈ X.head?, c = ' ' ∨ c = ',' ∨ c = ')'

/-- The first lexeme, if there is one, is a joint. -/
def Joint (xs : List Lexeme) : Prop := ∀ x ∈ xs.head?, x.isJoint

theorem Lexeme.ends_of_isJoint {x : Lexeme} (h : x.isJoint) (X : List Char) :
    Ends (x.text.toList ++ X) := by
  have hall : ∀ w ∈ Word.all, (word w).isJoint →
      w.text.toList.head?.any fun c => c = ' ' ∨ c = ',' ∨ c = ')' := by decide +kernel
  match x with
  | .word w =>
      have hw := hall w w.mem_all h
      cases htext : w.text.toList with
      | nil => simp [htext] at hw
      | cons c cs =>
          intro c' hc'
          rw [Lexeme.text, htext] at hc'
          obtain rfl := Option.some.inj hc'
          simpa [htext] using hw
  | .name n => cases h
  | .called a =>
      intro c hc
      rw [Lexeme.text, String.toList_append] at hc
      exact .inl (Option.some.inj hc).symm

theorem Joint.ends {xs : List Lexeme} (h : Joint xs) : Ends (chars xs) := by
  cases xs with
  | nil => exact fun c hc => nomatch hc
  | cons x xs => exact x.ends_of_isJoint (h x rfl) (chars xs)

theorem Ends.identifier {X : List Char} (h : Ends X) :
    Identifier.Ends '"' ({} : Settings).nameSeparator X where
  no_quote hX := by
    have := h '"' hX
    revert this
    decide
  no_separator hX := by
    obtain ⟨Y, rfl⟩ := hX
    have := h '.' rfl
    revert this
    decide

/-- A plain text ends where something follows that ends it. -/
theorem Alias.cancel {a b : Alias} {X Y : List Char} (hX : Ends X) (hY : Ends Y)
    (h : a.text.toList ++ X = b.text.toList ++ Y) : a = b ∧ X = Y := by
  let plain : Char → Bool := fun c => !(c = ' ' ∨ c = ',' ∨ c = ')')
  have htake : ∀ (a : Alias) {X : List Char}, Ends X →
      (a.text.toList ++ X).takeWhile plain = a.text.toList := by
    intro a X hX
    rw [List.takeWhile_append_of_pos]
    · cases X with
      | nil => simp
      | cons c cs =>
          rcases hX c rfl with rfl | rfl | rfl <;> simp [plain]
    · intro c hc
      have := a.plain c hc
      simp [plain, this]
  have htext : a.text.toList = b.text.toList := by
    rw [← htake a hX, h, htake b hY]
  obtain ⟨s, hs⟩ := a
  obtain ⟨t, ht⟩ := b
  obtain rfl : s = t := String.toList_inj.mp htext
  exact ⟨rfl, List.append_cancel_left h⟩

/-- Lexemes in an order in which a name or an alias is followed by a joint. -/
inductive Lawful : List Lexeme → Prop
  | nil : Lawful []
  | word {w : Word} {xs : List Lexeme} : Lawful xs → Lawful (.word w :: xs)
  | name {n : Name} {xs : List Lexeme} : Joint xs → Lawful xs → Lawful (.name n :: xs)
  | called {a : Alias} {xs : List Lexeme} : Joint xs → Lawful xs → Lawful (.called a :: xs)

theorem Lawful.tail {x : Lexeme} {xs : List Lexeme} (h : Lawful (x :: xs)) : Lawful xs := by
  cases h <;> assumption

/-- No lexeme is an empty text, and none looks like the end of `IS NOT`. -/
theorem Lexeme.exists_head (x : Lexeme) : ∃ c cs, x.text.toList = c :: cs ∧ c ≠ 'N' := by
  match x with
  | .word w =>
      obtain ⟨c, cs, hw, hc, -⟩ := w.exists_head
      exact ⟨c, cs, hw, hc⟩
  | .name n =>
      obtain ⟨c, cs, hn, rfl | rfl⟩ := n.exists_head
      · exact ⟨_, cs, hn, by decide⟩
      · exact ⟨_, cs, hn, by decide⟩
  | .called a =>
      rw [Lexeme.text, String.toList_append]
      exact ⟨' ', _, rfl, by decide⟩

theorem chars_head_ne (xs : List Lexeme) : (chars xs).head? ≠ some 'N' := by
  cases xs with
  | nil => exact fun h => nomatch h
  | cons x xs =>
      obtain ⟨c, cs, hx, hc⟩ := x.exists_head
      rw [chars_cons, hx]
      exact fun h => hc (Option.some.inj h)

theorem chars_ne_nil (x : Lexeme) (xs : List Lexeme) : chars (x :: xs) ≠ [] := by
  obtain ⟨c, cs, hx, -⟩ := x.exists_head
  rw [chars_cons, hx]
  exact List.cons_ne_nil _ _

/-! ## Lexemes are determined by the text they begin -/

section

variable {w v : Word} {n m : Name} {a : Alias} {X Y : List Char} {xs ys : List Lexeme}

theorem Word.cancel (h : w.text.toList ++ chars xs = v.text.toList ++ chars ys) :
    w = v ∧ chars xs = chars ys := by
  have hlonger : (comparator .isNot).text.toList = (comparator .is).text.toList ++ "NOT ".toList :=
    rfl
  have hne : ∀ {xs ys : List Lexeme},
      (comparator .is).text.toList ++ chars xs ≠ (comparator .isNot).text.toList ++ chars ys := by
    intro xs ys h
    rw [hlonger, List.append_assoc] at h
    exact chars_head_ne xs (congrArg List.head? (List.append_cancel_left h))
  have hprefix := List.prefix_or_prefix_of_prefix (List.prefix_append w.text.toList (chars xs))
    (h ▸ List.prefix_append v.text.toList (chars ys))
  rcases hprefix with hprefix | hprefix
  · rcases eq_of_prefix hprefix with rfl | ⟨rfl, rfl⟩
    · exact ⟨rfl, List.append_cancel_left h⟩
    · exact absurd h hne
  · rcases eq_of_prefix hprefix with rfl | ⟨rfl, rfl⟩
    · exact ⟨rfl, List.append_cancel_left h⟩
    · exact absurd h.symm hne

theorem Word.ne_name : w.text.toList ++ X ≠ n.text.toList ++ Y := by
  obtain ⟨c, cs, hw, -, hquote, hstar⟩ := w.exists_head
  obtain ⟨d, ds, hn, hd⟩ := n.exists_head
  intro h
  rw [hw, hn] at h
  obtain rfl := (List.cons.inj h).1
  rcases hd with hd | hd
  · exact hquote hd
  · exact hstar hd

theorem Word.ne_alias : w.text.toList ++ X ≠ (Lexeme.called a).text.toList ++ Y := by
  intro h
  rw [Lexeme.text, String.toList_append, List.append_assoc] at h
  have hprefix := List.prefix_or_prefix_of_prefix (List.prefix_append w.text.toList X)
    (h ▸ List.prefix_append " AS ".toList (a.text.toList ++ Y))
  rcases hprefix with hprefix | hprefix
  · exact w.not_prefix_alias.1 hprefix
  · exact w.not_prefix_alias.2 hprefix

theorem Name.ne_alias : n.text.toList ++ X ≠ (Lexeme.called a).text.toList ++ Y := by
  obtain ⟨c, cs, hn, hc⟩ := n.exists_head
  intro h
  rw [Lexeme.text, String.toList_append, hn] at h
  obtain rfl := (List.cons.inj h).1
  revert hc
  decide

theorem Name.cancel (hX : Ends X) (hY : Ends Y) (h : n.text.toList ++ X = m.text.toList ++ Y) :
    n = m ∧ X = Y := by
  obtain ⟨hsegments, hXY⟩ := quoted.spelled_cancel hX.identifier hY.identifier n.ne_nil m.ne_nil
    n.star_last m.star_last h
  obtain ⟨ss, hss, hss'⟩ := n
  obtain ⟨ts, hts, hts'⟩ := m
  obtain rfl : ss = ts := hsegments
  exact ⟨rfl, hXY⟩

/-- The first lexeme is determined by the text. -/
theorem Lawful.cancel {x y : Lexeme} (hx : Lawful (x :: xs)) (hy : Lawful (y :: ys))
    (h : chars (x :: xs) = chars (y :: ys)) : x = y ∧ chars xs = chars ys := by
  rw [chars_cons, chars_cons] at h
  cases hx with
  | word _ =>
      cases hy with
      | word _ =>
          obtain ⟨rfl, htail⟩ := Word.cancel h
          exact ⟨rfl, htail⟩
      | name _ _ => exact absurd h Word.ne_name
      | called _ _ => exact absurd h Word.ne_alias
  | name hjoint _ =>
      cases hy with
      | word _ => exact absurd h.symm Word.ne_name
      | name hjoint' _ =>
          obtain ⟨rfl, htail⟩ := Name.cancel hjoint.ends hjoint'.ends h
          exact ⟨rfl, htail⟩
      | called _ _ => exact absurd h Name.ne_alias
  | called hjoint _ =>
      cases hy with
      | word _ => exact absurd h.symm Word.ne_alias
      | name _ _ => exact absurd h.symm Name.ne_alias
      | called hjoint' _ =>
          simp only [Lexeme.text, String.toList_append, List.append_assoc] at h
          obtain ⟨rfl, htail⟩ := Alias.cancel hjoint.ends hjoint'.ends (List.append_cancel_left h)
          exact ⟨rfl, htail⟩

end

/-- Lexemes with the same text are the same. -/
theorem Lawful.eq_of_chars_eq {xs ys : List Lexeme} (hxs : Lawful xs) (hys : Lawful ys)
    (h : chars xs = chars ys) : xs = ys := by
  induction xs generalizing ys with
  | nil =>
      cases ys with
      | nil => rfl
      | cons y ys => exact absurd h.symm (chars_ne_nil y ys)
  | cons x xs ih =>
      cases ys with
      | nil => exact absurd h (chars_ne_nil x xs)
      | cons y ys =>
          obtain ⟨rfl, htail⟩ := hxs.cancel hys h
          rw [ih hxs.tail hys.tail htail]

/-! ## The lexemes of a phrase -/

theorem joint_nil : Joint [] := by
  intro x hx
  cases hx

theorem joint_word {w : Word} (h : (Lexeme.word w).isJoint) (xs : List Lexeme) :
    Joint (.word w :: xs) := by
  intro x hx
  obtain rfl := Option.some.inj hx
  exact h

mutual

/-- A name or an alias in a phrase is followed by a joint, if the phrase is. -/
theorem lawful_lexemes : ∀ (p : Phrase) {ys : List Lexeme}, Joint ys → Lawful ys →
    Lawful (p.lexemes ++ ys)
  | name n, _, hjoint, h => .name hjoint h
  | literal v, _, _, h => .word h
  | aliased p a, ys, hjoint, h => by
      rw [lexemes, List.append_assoc]
      exact lawful_lexemes p (fun x hx => Option.some.inj hx ▸ rfl) (.called hjoint h)
  | comparison c l r, ys, hjoint, h => by
      rw [lexemes, List.append_assoc]
      exact lawful_lexemes l (joint_word rfl _) (.word (lawful_lexemes r hjoint h))
  | membership negated field values, ys, hjoint, h => by
      rw [lexemes, List.append_assoc, List.append_assoc]
      exact lawful_lexemes field (joint_word rfl _)
        (.word (lawful_lexemesAll rfl values (joint_word rfl _) (.word h)))
  | directed d p, ys, hjoint, h => by
      rw [lexemes, List.append_assoc]
      exact lawful_lexemes p (joint_word rfl _) (.word h)
  | select columns source, ys, hjoint, h => by
      simp only [lexemes, List.append_assoc, List.cons_append]
      exact .word (lawful_lexemesAll rfl columns (joint_word rfl _)
        (.word (lawful_lexemes source hjoint h)))
  | joined p table conditions, ys, hjoint, h => by
      simp only [lexemes, List.append_assoc, List.cons_append]
      exact lawful_lexemes p (joint_word rfl _) (.word (lawful_lexemes table (joint_word rfl _)
        (.word (lawful_lexemesAll rfl conditions (joint_word rfl _) (.word h)))))
  | shared p table columns, ys, hjoint, h => by
      simp only [lexemes, List.append_assoc, List.cons_append]
      exact lawful_lexemes p (joint_word rfl _) (.word (lawful_lexemes table (joint_word rfl _)
        (.word (lawful_lexemesAll rfl columns (joint_word rfl _) (.word h)))))
  | clause p k items, ys, hjoint, h => by
      rw [lexemes, List.append_assoc]
      exact lawful_lexemes p (joint_word rfl _)
        (.word (lawful_lexemesAll (by cases k <;> rfl) items hjoint h))

theorem lawful_lexemesAll {separator : Word} (hs : (Lexeme.word separator).isJoint) :
    ∀ (ps : List Phrase) {ys : List Lexeme}, Joint ys → Lawful ys →
      Lawful (lexemesAll separator ps ++ ys)
  | [], ys, _, h => by
      rw [lexemesAll]
      unfold Word.blank
      split
      · exact .word h
      · exact h
  | [p], ys, hjoint, h => lawful_lexemes p hjoint h
  | p :: q :: ps, ys, hjoint, h => by
      rw [lexemesAll, List.append_assoc]
      exact lawful_lexemes p (joint_word hs _) (.word (lawful_lexemesAll hs (q :: ps) hjoint h))

end

/-- The text of a phrase determines its lexemes. -/
theorem lexemes_eq_of_chars_eq {p q : Phrase} (h : chars p.lexemes = chars q.lexemes) :
    p.lexemes = q.lexemes := by
  have hlawful : ∀ p : Phrase, Lawful p.lexemes := by
    intro p
    have hp := lawful_lexemes p joint_nil Lawful.nil
    rwa [List.append_nil] at hp
  exact (hlawful p).eq_of_chars_eq (hlawful q) h

end QueryTree.Phrase
