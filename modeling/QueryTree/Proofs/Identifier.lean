import QueryTree.Identifier
import Mathlib.Data.List.Basic

/-!
# Identifiers followed by other text

The text of a name is the text of its segments (`Identifier.spelled`).  It shows
where it ends: if a name is quoted by one closing character, and neither that
character nor the separator comes next, then the segments are determined by the
text they begin (`Identifier.spelled_cancel`).
-/

namespace QueryTree.Identifier

/-! ## The text of a name -/

/-- The text of segments, only the last of which may be a star. -/
def spelled (quotes : Quotes) (separator : String) : List String → String
  | [] => ""
  | [s] => if s = star then star else quoteSegment quotes s
  | s :: t :: rest => quoteSegment quotes s ++ separator ++ spelled quotes separator (t :: rest)

section

variable {quotes : Quotes} {separator : String}

theorem spelled_cons_cons (s t : String) (rest : List String) :
    spelled quotes separator (s :: t :: rest) =
      quoteSegment quotes s ++ separator ++ spelled quotes separator (t :: rest) := rfl

theorem texts_map_str (segments : List String) : texts (segments.map .str) = .ok segments := by
  induction segments with
  | nil => rfl
  | cons s rest ih => rw [List.map_cons, texts, ih]; rfl

theorem spelled_of_not_mem {segments : List String} (h : star ∉ segments) :
    spelled quotes separator segments = joined quotes separator segments := by
  induction segments with
  | nil => rfl
  | cons s rest ih =>
      have hs : s ≠ star := (List.ne_of_not_mem_cons h).symm
      cases rest with
      | nil => rw [spelled, if_neg hs, joined, List.map_singleton, String.intercalate_singleton]
      | cons t rest =>
          rw [spelled, ih (List.not_mem_of_not_mem_cons h)]
          simp only [joined, List.map_cons, String.intercalate_cons_cons]

theorem spelled_append_star : ∀ {init : List String}, init ≠ [] → star ∉ init →
    spelled quotes separator (init ++ [star]) = joined quotes separator init ++ separator ++ star
  | [s], _, h => by
      rw [List.singleton_append, spelled, spelled, if_pos rfl, joined, List.map_singleton,
        String.intercalate_singleton]
  | s :: t :: rest, _, h => by
      rw [List.cons_append, List.cons_append, spelled, ← List.cons_append,
        spelled_append_star (List.cons_ne_nil t rest) (List.not_mem_of_not_mem_cons h)]
      simp only [joined, List.map_cons, String.intercalate_cons_cons, String.append_assoc]

/-- A name whose last segment alone may be a star is rendered as its segments are
spelled. -/
theorem render_eq_spelled {segments : List String} (hne : segments ≠ [])
    (hstar : star ∉ segments.dropLast) :
    render quotes separator (segments.map .str) = .ok (spelled quotes separator segments) := by
  obtain ⟨init, last, rfl⟩ : ∃ init last, segments = init ++ [last] :=
    ⟨_, _, (List.dropLast_append_getLast hne).symm⟩
  rw [List.dropLast_concat] at hstar
  simp only [render, texts_map_str, List.getLast?_concat, List.dropLast_concat, hstar, if_false]
  by_cases hlast : last = star
  · subst hlast
    by_cases hinit : init = []
    · subst hinit
      rfl
    · simp only [ne_eq, not_true_eq_false, if_false, List.isEmpty_iff, hinit,
        spelled_append_star hinit hstar]
  · have hmem : star ∉ init ++ [last] := by
      simp only [List.mem_append, List.mem_singleton, not_or]
      exact ⟨hstar, Ne.symm hlast⟩
    simp only [ne_eq, hlast, not_false_eq_true, if_true, spelled_of_not_mem hmem]

end

/-! ## Quoted segments -/

theorem doubledFrom_cons (c d : Char) (rest : List Char) :
    doubledFrom [c] 0 (d :: rest) =
      if d = c then c :: c :: doubledFrom [c] 0 rest else d :: doubledFrom [c] 0 rest := by
  by_cases h : d = c
  · simp [doubledFrom, h]
  · simp [doubledFrom, h, Ne.symm h]

/-- A quoted segment ends at the first closing quote that is not doubled. -/
theorem doubledFrom_cancel {c : Char} :
    ∀ {s t X Y : List Char}, X.head? ≠ some c → Y.head? ≠ some c →
      doubledFrom [c] 0 s ++ c :: X = doubledFrom [c] 0 t ++ c :: Y → s = t ∧ X = Y
  | [], [], X, Y, _, _, h => ⟨rfl, (List.cons.inj h).2⟩
  | [], d :: t, X, Y, hX, _, h => by
      rw [doubledFrom_cons] at h
      split at h
      · exact absurd (congrArg List.head? (List.cons.inj h).2) hX
      · next hd => exact absurd (List.cons.inj h).1.symm hd
  | d :: s, [], X, Y, _, hY, h => by
      rw [doubledFrom_cons] at h
      split at h
      · exact absurd (congrArg List.head? (List.cons.inj h).2).symm hY
      · next hd => exact absurd (List.cons.inj h).1 hd
  | d :: s, e :: t, X, Y, hX, hY, h => by
      rw [doubledFrom_cons, doubledFrom_cons] at h
      split at h <;> split at h
      · next hd he =>
          obtain ⟨rfl, rfl⟩ := doubledFrom_cancel hX hY (List.cons.inj (List.cons.inj h).2).2
          exact ⟨by rw [hd, he], rfl⟩
      · next _ he => exact absurd (List.cons.inj h).1.symm he
      · next hd _ => exact absurd (List.cons.inj h).1 hd
      · obtain ⟨hhead, htail⟩ := List.cons.inj h
        obtain ⟨rfl, rfl⟩ := doubledFrom_cancel hX hY htail
        exact ⟨by rw [hhead], rfl⟩

/-- A segment quoted by one closing character. -/
theorem toList_quoteSegment {quotes : Quotes} {c : Char} (hclosing : quotes.closing.toList = [c])
    (s : String) :
    (quoteSegment quotes s).toList = quotes.opening.toList ++ (doubledFrom [c] 0 s.toList ++ [c]) := by
  have hne : quotes.closing.isEmpty = false := by
    rw [Bool.eq_false_iff]
    intro h
    rw [String.isEmpty_iff.mp h] at hclosing
    cases hclosing
  simp only [quoteSegment, hne, Bool.false_eq_true, if_false, String.toList_append, doubled,
    String.toList_ofList, hclosing, List.append_assoc]

/-! ## Names -/

/-- Names are quoted by one closing character.  The opening quote does not begin with
a star, nor the separator with the closing quote. -/
structure Quoted (quotes : Quotes) (separator : String) (c : Char) : Prop where
  closing : quotes.closing.toList = [c]
  opening : ∃ o os, quotes.opening.toList = o :: os ∧ o ≠ '*'
  separator : ∃ d ds, separator.toList = d :: ds ∧ d ≠ c

/-- What may follow a name: neither a closing quote nor a separator. -/
structure Ends (c : Char) (separator : String) (X : List Char) : Prop where
  no_quote : X.head? ≠ some c
  no_separator : ¬ separator.toList <+: X

namespace Quoted

variable {quotes : Quotes} {separator : String} {c : Char} {s t : String} {X Y : List Char}

theorem quoteSegment_cancel (hq : Quoted quotes separator c) (hX : X.head? ≠ some c)
    (hY : Y.head? ≠ some c)
    (h : (quoteSegment quotes s).toList ++ X = (quoteSegment quotes t).toList ++ Y) :
    s = t ∧ X = Y := by
  simp only [toList_quoteSegment hq.closing, List.append_assoc, List.append_cancel_left_eq] at h
  obtain ⟨hst, hXY⟩ := doubledFrom_cancel hX hY h
  exact ⟨String.toList_inj.mp hst, hXY⟩

/-- No quoted segment begins with a star. -/
theorem star_ne (hq : Quoted quotes separator c) :
    star.toList ++ X ≠ (quoteSegment quotes s).toList ++ Y := by
  obtain ⟨o, os, ho, hne⟩ := hq.opening
  intro h
  rw [toList_quoteSegment hq.closing, ho] at h
  exact hne (List.cons.inj h).1.symm

/-- A quoted segment ends before a separator. -/
theorem separator_head (hq : Quoted quotes separator c) (X : List Char) :
    (separator.toList ++ X).head? ≠ some c := by
  obtain ⟨d, ds, hd, hne⟩ := hq.separator
  rw [hd]
  intro h
  exact hne (Option.some.inj h)

/-- A name of one segment before text that is no separator is no name that goes on. -/
theorem single_ne (hq : Quoted quotes separator c) (hX : Ends c separator X) :
    (spelled quotes separator [s]).toList ++ X ≠
      (quoteSegment quotes t).toList ++ (separator.toList ++ Y) := by
  intro h
  rw [spelled] at h
  split at h
  · exact hq.star_ne h
  · have hsep := (hq.quoteSegment_cancel hX.no_quote (hq.separator_head Y) h).2
    exact hX.no_separator ⟨Y, hsep.symm⟩

theorem single_cancel (hq : Quoted quotes separator c) (hX : X.head? ≠ some c)
    (hY : Y.head? ≠ some c)
    (h : (spelled quotes separator [s]).toList ++ X = (spelled quotes separator [t]).toList ++ Y) :
    s = t ∧ X = Y := by
  rw [spelled, spelled] at h
  split at h <;> split at h
  · next hs ht => exact ⟨by rw [hs, ht], List.append_cancel_left h⟩
  · exact absurd h hq.star_ne
  · exact absurd h.symm hq.star_ne
  · exact hq.quoteSegment_cancel hX hY h

/-- The text of a name before other text determines its segments. -/
theorem spelled_cancel (hq : Quoted quotes separator c) (hX : Ends c separator X)
    (hY : Ends c separator Y) {ss ts : List String} (hss : ss ≠ []) (hts : ts ≠ [])
    (hstar : star ∉ ss.dropLast) (hstar' : star ∉ ts.dropLast)
    (h : (spelled quotes separator ss).toList ++ X = (spelled quotes separator ts).toList ++ Y) :
    ss = ts ∧ X = Y := by
  induction ss generalizing ts with
  | nil => exact absurd rfl hss
  | cons s rest ih =>
      match rest, ts with
      | _, [] => exact absurd rfl hts
      | [], [t] =>
          obtain ⟨rfl, hXY⟩ := hq.single_cancel hX.no_quote hY.no_quote h
          exact ⟨rfl, hXY⟩
      | [], t :: t' :: more =>
          simp only [spelled_cons_cons, String.toList_append, List.append_assoc] at h
          exact absurd h (hq.single_ne hX)
      | s' :: rest, [t] =>
          simp only [spelled_cons_cons, String.toList_append, List.append_assoc] at h
          exact absurd h.symm (hq.single_ne hY)
      | s' :: rest, t :: t' :: more =>
          simp only [spelled_cons_cons, String.toList_append, List.append_assoc] at h
          obtain ⟨rfl, hnext⟩ :=
            hq.quoteSegment_cancel (hq.separator_head _) (hq.separator_head _) h
          obtain ⟨hrest, hXY⟩ := ih (List.cons_ne_nil s' rest) (List.cons_ne_nil t' more)
            (List.not_mem_of_not_mem_cons hstar) (List.not_mem_of_not_mem_cons hstar')
            (List.append_cancel_left hnext)
          exact ⟨by rw [hrest], hXY⟩

end Quoted

end QueryTree.Identifier
