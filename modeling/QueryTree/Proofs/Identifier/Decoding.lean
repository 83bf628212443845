import QueryTree.Clause
import QueryTree.Proofs.Identifier

/-!
# Reading quoted names back

The text of a quoted name is read back from the left (`Identifier.read`).  The
reader takes off the opening quote.  It goes on to the first closing quote that no
other closing quote follows, and a doubled one stands for itself on the way.  Then
comes the end or a separator, and after a separator the next segment.  A star that
is all that is left is the star.

For this the closing quote has to be one character, neither the opening quote nor
the separator may be empty, and the separator may not begin with the closing quote
(`Identifier.Delimited`).  The opening quote may be the closing quote, and it may be
a star.

The main statement is `Identifier.name_reads_back`.  Exactly the segments that make
up a name (`Identifier.IsName`) are rendered, and the reader finds them again.  So
two names with one text are the same, whatever characters are in their segments.
-/

namespace QueryTree.Identifier

/-! ## Names -/

/-- Segments that make up a name: some texts, of which only the last may be a star. -/
structure IsName (segments : List Value) : Prop where
  ne_nil : segments ≠ []
  texts : ∀ v ∈ segments, ∃ s, v = .str s
  star_last : .str star ∉ segments.dropLast

theorem texts_eq_ok_iff {segments : List Value} {names : List String} :
    texts segments = .ok names ↔ segments = names.map .str := by
  constructor
  · intro h
    induction segments generalizing names with
    | nil =>
        obtain rfl := Except.ok.inj h
        rfl
    | cons v rest ih =>
        cases v with
        | str s =>
            rw [texts] at h
            cases hrest : texts rest with
            | error fault =>
                rw [hrest] at h
                cases h
            | ok more =>
                rw [hrest] at h
                obtain rfl := Except.ok.inj h
                rw [List.map_cons, ih hrest]
        | _ => cases h
  · rintro rfl
    exact texts_map_str names

theorem exists_names {segments : List Value} (h : ∀ v ∈ segments, ∃ s, v = .str s) :
    ∃ names : List String, segments = names.map .str := by
  induction segments with
  | nil => exact ⟨[], rfl⟩
  | cons v rest ih =>
      obtain ⟨s, rfl⟩ := h v List.mem_cons_self
      obtain ⟨names, rfl⟩ := ih fun w hw => h w (List.mem_cons_of_mem _ hw)
      exact ⟨s :: names, rfl⟩

theorem str_mem_map {s : String} {names : List String} :
    Value.str s ∈ names.map Value.str ↔ s ∈ names := by
  constructor
  · intro h
    obtain ⟨t, ht, heq⟩ := List.mem_map.mp h
    exact Value.str.inj heq ▸ ht
  · exact List.mem_map_of_mem

theorem isName_map_str {names : List String} :
    IsName (names.map .str) ↔ names ≠ [] ∧ star ∉ names.dropLast := by
  have hstar : .str star ∉ (names.map Value.str).dropLast ↔ star ∉ names.dropLast := by
    rw [← List.map_dropLast, str_mem_map]
  constructor
  · intro h
    exact ⟨fun hnil => h.ne_nil (by rw [hnil]; rfl), hstar.mp h.star_last⟩
  · rintro ⟨hne, hlast⟩
    refine ⟨fun hnil => hne (List.map_eq_nil_iff.mp hnil), fun v hv => ?_, hstar.mpr hlast⟩
    obtain ⟨s, -, rfl⟩ := List.mem_map.mp hv
    exact ⟨s, rfl⟩

section

variable {quotes : Quotes} {separator : String}

/-- What is rendered is a name, and its text is that of its segments. -/
theorem of_render_eq_ok {segments : List Value} {text : String}
    (h : render quotes separator segments = .ok text) :
    ∃ names, segments = names.map .str ∧ IsName segments ∧ text = spelled quotes separator names := by
  cases htexts : texts segments with
  | error fault =>
      rw [render, htexts] at h
      cases h
  | ok names =>
      obtain rfl := texts_eq_ok_iff.mp htexts
      have hne : names ≠ [] := by
        rintro rfl
        cases h
      have hstar : star ∉ names.dropLast := by
        intro hmem
        obtain ⟨init, last, rfl⟩ : ∃ init last, names = init ++ [last] :=
          ⟨_, _, (List.dropLast_append_getLast hne).symm⟩
        simp only [render, htexts, List.getLast?_concat, if_pos hmem] at h
        cases h
      rw [render_eq_spelled hne hstar] at h
      exact ⟨names, rfl, isName_map_str.mpr ⟨hne, hstar⟩, (Except.ok.inj h).symm⟩

theorem render_of_isName {segments : List Value} (h : IsName segments) :
    ∃ text, render quotes separator segments = .ok text := by
  obtain ⟨names, rfl⟩ := exists_names h.texts
  obtain ⟨hne, hstar⟩ := isName_map_str.mp h
  exact ⟨_, render_eq_spelled hne hstar⟩

end

/-! ## A reader -/

/-- A quoted segment without its opening quote: its characters up to the closing
quote, and what comes after that. -/
def readSegment (closing : Char) : List Char → Option (List Char × List Char)
  | [] => none
  | [c] => if c = closing then some ([], []) else none
  | c :: d :: rest =>
    if c = closing then
      if d = closing then (readSegment closing rest).map fun found => (closing :: found.1, found.2)
      else some ([], d :: rest)
    else (readSegment closing (d :: rest)).map fun found => (c :: found.1, found.2)

theorem readSegment_length {closing : Char} {cs segment after : List Char}
    (h : readSegment closing cs = some (segment, after)) : after.length < cs.length := by
  induction cs using readSegment.induct closing generalizing segment after with
  | case1 => cases h
  | case2 =>
      obtain rfl : [] = after := by simpa [readSegment] using congrArg (Option.map Prod.snd) h
      exact Nat.zero_lt_one
  | case3 c hc => simp [readSegment, hc] at h
  | case4 rest ih =>
      simp only [readSegment, if_true, Option.map_eq_some_iff] at h
      obtain ⟨found, hfound, heq⟩ := h
      obtain ⟨-, rfl⟩ := Prod.mk.inj heq
      exact Nat.lt_succ_of_lt (Nat.lt_succ_of_lt (ih hfound))
  | case5 d rest hd =>
      simp only [readSegment, if_true, if_neg hd, Option.some.injEq, Prod.mk.injEq] at h
      rw [← h.2]
      exact Nat.lt_succ_self _
  | case6 c d rest hc ih =>
      simp only [readSegment, if_neg hc, Option.map_eq_some_iff] at h
      obtain ⟨found, hfound, heq⟩ := h
      obtain ⟨-, rfl⟩ := Prod.mk.inj heq
      exact Nat.lt_succ_of_lt (ih hfound)

/-- The segments of a name, read from the left. -/
def read (opening separator : List Char) (closing : Char) (cs : List Char) : Option (List String) :=
  if cs = star.toList then some [star]
  else
    match _hopening : opening.isPrefixOf? cs with
    | none => none
    | some inside =>
      match _hsegment : readSegment closing inside with
      | none => none
      | some (segment, after) =>
        if after = [] then some [String.ofList segment]
        else
          match _hseparator : separator.isPrefixOf? after with
          | none => none
          | some next => (read opening separator closing next).map (String.ofList segment :: ·)
termination_by cs.length
decreasing_by
  have hinside := congrArg List.length (List.isPrefixOf?_eq_some_iff_append_eq.mp _hopening)
  have hafter := readSegment_length _hsegment
  have hnext := congrArg List.length (List.isPrefixOf?_eq_some_iff_append_eq.mp _hseparator)
  rw [List.length_append] at hinside hnext
  omega

/-! ## Reading what is written -/

/-- Names are quoted by one closing character.  Neither the opening quote nor the
separator is empty, and the separator does not begin with the closing quote. -/
structure Delimited (quotes : Quotes) (separator : String) (closing : Char) : Prop where
  opening_ne : quotes.opening.toList ≠ []
  closing_eq : quotes.closing.toList = [closing]
  separator_ne : separator.toList ≠ []
  apart : separator.toList.head? ≠ some closing

theorem readSegment_cons {closing c : Char} (hc : c ≠ closing) (cs : List Char) :
    readSegment closing (c :: cs) =
      (readSegment closing cs).map fun found => (c :: found.1, found.2) := by
  cases cs with
  | nil => simp [readSegment, hc]
  | cons d rest => rw [readSegment, if_neg hc]

theorem readSegment_closing {closing : Char} {after : List Char}
    (h : after.head? ≠ some closing) : readSegment closing (closing :: after) = some ([], after) := by
  cases after with
  | nil => rw [readSegment, if_pos rfl]
  | cons d rest =>
      have hd : d ≠ closing := fun heq => h (by rw [heq]; rfl)
      rw [readSegment, if_pos rfl, if_neg hd]

/-- A segment is read up to its closing quote, however many closing quotes are in it. -/
theorem readSegment_doubledFrom {closing : Char} {after : List Char}
    (h : after.head? ≠ some closing) (segment : List Char) :
    readSegment closing (doubledFrom [closing] 0 segment ++ closing :: after) =
      some (segment, after) := by
  induction segment with
  | nil => exact readSegment_closing h
  | cons c rest ih =>
      rw [doubledFrom_cons]
      split
      · next hc =>
          rw [List.cons_append, List.cons_append, readSegment, if_pos rfl, if_pos rfl, ih, hc]
          rfl
      · next hc =>
          rw [List.cons_append, readSegment_cons hc, ih]
          rfl

namespace Delimited

variable {quotes : Quotes} {separator : String} {closing : Char}

/-- A quoted segment is no star, whatever follows. -/
theorem quoteSegment_ne_star (hq : Delimited quotes separator closing) (s : String)
    (after : List Char) : (quoteSegment quotes s).toList ++ after ≠ star.toList := by
  intro h
  have hlength := congrArg List.length h
  have hopening := List.length_pos_of_ne_nil hq.opening_ne
  rw [toList_quoteSegment hq.closing_eq] at hlength
  simp only [List.length_append, List.length_singleton] at hlength
  have hstar : star.toList.length = 1 := rfl
  omega

/-- After a quoted segment the reader goes on with what follows it. -/
theorem read_quoteSegment (hq : Delimited quotes separator closing) (s : String)
    {after : List Char} (h : after.head? ≠ some closing) :
    read quotes.opening.toList separator.toList closing ((quoteSegment quotes s).toList ++ after) =
      if after = [] then some [s]
      else (separator.toList.isPrefixOf? after).bind fun next =>
        (read quotes.opening.toList separator.toList closing next).map (s :: ·) := by
  have hopening : quotes.opening.toList.isPrefixOf? ((quoteSegment quotes s).toList ++ after) =
      some (doubledFrom [closing] 0 s.toList ++ closing :: after) := by
    rw [List.isPrefixOf?_eq_some_iff_append_eq, toList_quoteSegment hq.closing_eq]
    simp only [List.append_assoc, List.singleton_append]
  rw [read, if_neg (hq.quoteSegment_ne_star s after), hopening]
  dsimp only
  rw [readSegment_doubledFrom h]
  dsimp only
  rw [String.ofList_toList]
  split
  · rfl
  · cases separator.toList.isPrefixOf? after <;> rfl

theorem read_star : read quotes.opening.toList separator.toList closing star.toList = some [star] := by
  rw [read, if_pos rfl]

/-- The reader finds the segments of a name in its text. -/
theorem read_spelled (hq : Delimited quotes separator closing) :
    ∀ {names : List String}, names ≠ [] → star ∉ names.dropLast →
      read quotes.opening.toList separator.toList closing (spelled quotes separator names).toList =
        some names
  | [s], _, _ => by
      rw [spelled]
      split
      · next hs => rw [read_star, hs]
      · have hnil : ([] : List Char).head? ≠ some closing := by simp
        have hread := hq.read_quoteSegment s hnil
        rw [List.append_nil] at hread
        rw [hread, if_pos rfl]
  | s :: t :: rest, _, hstar => by
      have hrest := hq.read_spelled (List.cons_ne_nil t rest) (List.not_mem_of_not_mem_cons hstar)
      have hhead : (separator.toList ++ (spelled quotes separator (t :: rest)).toList).head? ≠
          some closing := by
        rw [List.head?_append_of_ne_nil _ hq.separator_ne]
        exact hq.apart
      have hne : separator.toList ++ (spelled quotes separator (t :: rest)).toList ≠ [] := by
        simp [hq.separator_ne]
      rw [spelled_cons_cons, String.toList_append, String.toList_append, List.append_assoc,
        hq.read_quoteSegment s hhead, if_neg hne, List.isPrefixOf?_eq_some_iff_append_eq.mpr rfl]
      exact congrArg (Option.map (s :: ·)) hrest

end Delimited

/-! ## Names with quoting on -/

section

variable {s : Settings} {closing : Char}

theorem activeQuotes_eq (h : s.quoteIdentifiers = true) : s.activeQuotes = s.quotes := by
  rw [Settings.activeQuotes, if_pos h]

/-- With quoting on, segments are rendered if they make up a name, and refused
otherwise.  The reader finds the segments in the text, so no other segments have
this text. -/
theorem name_reads_back (hquoting : s.quoteIdentifiers = true)
    (hq : Delimited s.quotes s.nameSeparator closing) :
    (∀ segments, (∃ text, render s.activeQuotes s.nameSeparator segments = .ok text) ↔
        IsName segments) ∧
      (∀ n : Node, ∀ binds, ¬ IsName n.args →
        ∃ fault, (Clause.name s n).outcome binds = (.error (.structural fault), binds)) ∧
      (∀ segments text, render s.activeQuotes s.nameSeparator segments = .ok text →
        ∃ names, read s.quotes.opening.toList s.nameSeparator.toList closing text.toList = some names ∧
          segments = names.map .str) ∧
      ∀ segments segments' text, render s.activeQuotes s.nameSeparator segments = .ok text →
        render s.activeQuotes s.nameSeparator segments' = .ok text → segments = segments' := by
  have hread : ∀ segments text, render s.activeQuotes s.nameSeparator segments = .ok text →
      ∃ names, read s.quotes.opening.toList s.nameSeparator.toList closing text.toList = some names ∧
        segments = names.map .str := by
    intro segments text h
    obtain ⟨names, rfl, hname, rfl⟩ := of_render_eq_ok h
    obtain ⟨hne, hstar⟩ := isName_map_str.mp hname
    rw [activeQuotes_eq hquoting]
    exact ⟨names, hq.read_spelled hne hstar, rfl⟩
  have hiff : ∀ segments, (∃ text, render s.activeQuotes s.nameSeparator segments = .ok text) ↔
      IsName segments := by
    intro segments
    constructor
    · rintro ⟨text, h⟩
      obtain ⟨-, -, hname, -⟩ := of_render_eq_ok h
      exact hname
    · exact render_of_isName
  refine ⟨hiff, fun n binds hname => ?_, hread, fun segments segments' text h h' => ?_⟩
  · cases hrender : render s.activeQuotes s.nameSeparator n.args with
    | ok text => exact absurd ((hiff n.args).mp ⟨text, hrender⟩) hname
    | error fault => exact ⟨fault, by rw [Clause.name, hrender]; rfl⟩
  · obtain ⟨names, hnames, rfl⟩ := hread segments text h
    obtain ⟨names', hnames', rfl⟩ := hread segments' text h'
    rw [hnames] at hnames'
    rw [Option.some.inj hnames']

/-- Closing quotes at the end of a segment, an empty segment, a segment that looks like
the end of one and the start of the next, and a star. -/
theorem name_reads_back_brackets :
    let s : Settings := { quoteIdentifiers := true, quotes := ⟨"[", "]"⟩ }
    let segments : List Value := [.str "a]]", .str "", .str "].[", .str "*"]
    render s.activeQuotes s.nameSeparator segments = .ok "[a]]]]].[].[]].[].*" ∧
      ∃ names, read ['['] ['.'] ']' "[a]]]]].[].[]].[].*".toList = some names ∧
        segments = names.map .str := by
  have hq : Delimited ⟨"[", "]"⟩ "." ']' := ⟨by decide, rfl, by decide, by decide⟩
  have hback := @name_reads_back { quoteIdentifiers := true, quotes := ⟨"[", "]"⟩ } ']' rfl hq
  exact ⟨rfl, hback.2.2.1 _ _ rfl⟩

end

end QueryTree.Identifier
