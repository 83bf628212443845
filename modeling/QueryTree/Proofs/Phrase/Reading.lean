import QueryTree.Proofs.Phrase.Literals

/-!
# Reading phrases

A reader goes through lexemes from left to right.  It keeps a stack of *frames*,
the parts that are still open, and the phrase read last in the innermost of them.
A lexeme makes that phrase part of another one (`Phrase.grow`), or takes the
innermost frame on (`Frame.turn`).  If it does neither, the frame ends there
(`Frame.ending`), and the lexeme is offered to the frame around it (`Phrase.offer`).
So a lexeme goes to the innermost part that can take it.

After the lexemes of a phrase the parts at the end of it are still open
(`Phrase.opened`).  A lexeme that none of them takes closes them all
(`Phrase.offer_opened`).  Hence the reader reads a determined phrase back from its
lexemes (`Determined.read_lexemes`), and phrases with the same lexemes are the same but
for their literals.
-/

namespace QueryTree.Phrase

/-! ## Frames -/

/-- A part that is still open, with what has been read of it. -/
inductive Frame where
  /-- The whole text, up to a closing parenthesis. -/
  | whole
  /-- The right side of a comparison. -/
  | operand (c : Comparator) (left : Phrase)
  /-- The values of a membership test. -/
  | values (negated : Bool) (field : Phrase) (done : List Phrase)
  /-- The columns of a select. -/
  | columns (done : List Phrase)
  /-- The source of a select. -/
  | source (listed : List Phrase)
  /-- The table of a join. -/
  | table (p : Phrase)
  /-- The conditions of a join. -/
  | on (p table : Phrase) (done : List Phrase)
  /-- The shared columns of a join. -/
  | shared (p table : Phrase) (done : List Phrase)
  /-- The items of a clause. -/
  | clause (p : Phrase) (k : ClauseKind) (done : List Phrase)

/-- Where the phrases in a frame stand. -/
def Frame.slot : Frame → Slot
  | whole => .condition
  | on .. => .condition
  | clause _ k _ => k.slot
  | _ => .term

/-- What a frame and the phrase read last in it become with one lexeme more: a frame
or a phrase. -/
def Frame.turn : Frame → Option Phrase → Lexeme → Option (Frame ⊕ Phrase)
  | whole, some p, .word .close => some (.inr p)
  | values negated field done, some p, .word .comma =>
    some (.inl (values negated field (done ++ [p])))
  | values negated field done, last, .word .close =>
    some (.inr (membership negated field (done ++ last.toList)))
  | columns done, some p, .word .comma => some (.inl (columns (done ++ [p])))
  | columns done, last, .word .source => some (.inl (source (done ++ last.toList)))
  | table p, some t, .word .on => some (.inl (on p t []))
  | table p, some t, .word .shared => some (.inl (shared p t []))
  | on p t done, some q, .word .and => some (.inl (on p t (done ++ [q])))
  | on p t done, last, .word .close => some (.inr (joined p t (done ++ last.toList)))
  | shared p t done, some q, .word .comma => some (.inl (shared p t (done ++ [q])))
  | shared p t done, last, .word .close => some (.inr (Phrase.shared p t (done ++ last.toList)))
  | clause p k done, some q, x =>
    if x.isWord k.separator then some (.inl (clause p k (done ++ [q]))) else none
  | _, _, _ => none

/-- The phrase of a frame that ends after the phrase read last in it. -/
def Frame.ending : Frame → Option Phrase → Option Phrase
  | operand c left, some p => some (comparison c left p)
  | source listed, some p => some (select listed p)
  | clause p k done, last => some (Phrase.clause p k (done ++ last.toList))
  | _, _ => none

/-- What a phrase in a place becomes with one lexeme more: the beginning of another
phrase, or a whole one. -/
def grow (s : Slot) (p : Phrase) : Lexeme → Option (Frame ⊕ Phrase)
  | .called a => if p.isTerm then some (.inr (aliased p a)) else none
  | .word (.comparator c) => if s = .condition then some (.inl (.operand c p)) else none
  | .word (.membership negated) =>
    if s = .condition then some (.inl (.values negated p [])) else none
  | .word (.direction d) => if s = .item && p.isTerm then some (.inr (directed d p)) else none
  | .word .join => if p.isJoinable then some (.inl (.table p)) else none
  | .word (.clause k) => if p.hasRoom k then some (.inl (.clause p k [])) else none
  | _ => none

theorem grow_isSome (s : Slot) (p : Phrase) (x : Lexeme) : (grow s p x).isSome = p.continues s x := by
  unfold grow continues
  split
  all_goals first
    | rfl
    | split <;> simp_all

theorem grow_eq_none {s : Slot} {p : Phrase} {x : Lexeme} (h : p.continues s x = false) :
    grow s p x = none := by
  rw [← Option.not_isSome_iff_eq_none, grow_isSome, h]
  exact Bool.false_ne_true

/-! ## The reader -/

/-- The open frames, and the phrase read last in the innermost. -/
abbrev State := List Frame × Option Phrase

/-- The state after a frame has been opened or a phrase has been read. -/
def enter (frames : List Frame) : Frame ⊕ Phrase → State
  | .inl F => (F :: frames, none)
  | .inr p => (frames, some p)

/-- A lexeme goes to the innermost frame that takes it. -/
def offer (x : Lexeme) : List Frame → Option Phrase → Option State
  | [], _ => none
  | F :: frames, last =>
    match last.bind fun p => grow F.slot p x with
    | some next => some (enter (F :: frames) next)
    | none =>
      match F.turn last x with
      | some next => some (enter frames next)
      | none =>
        match F.ending last with
        | some p => offer x frames (some p)
        | none => none

/-- One lexeme. -/
def step (x : Lexeme) (state : State) : Option State :=
  match x with
  | .name n => some (state.1, some (name n))
  | .word .hole => some (state.1, some (literal .null))
  | .word .select => some (.columns [] :: state.1, none)
  | .word .always => some state
  | x => offer x state.1 state.2

/-- Some lexemes. -/
def run : List Lexeme → State → Option State
  | [], state => some state
  | x :: xs, state => (step x state).bind (run xs)

/-- The phrase whose lexemes these are, with null for every literal. -/
def read (xs : List Lexeme) : Option Phrase :=
  (run (xs ++ [.word .close]) ([.whole], none)).bind fun state => state.2

theorem run_append (xs ys : List Lexeme) (state : State) :
    run (xs ++ ys) state = (run xs state).bind (run ys) := by
  induction xs generalizing state with
  | nil => rfl
  | cons x xs ih =>
      simp only [List.cons_append, run]
      cases step x state with
      | none => rfl
      | some next => exact ih next

/-! ### What becomes of a lexeme -/

section

variable {F : Frame} {frames : List Frame} {last : Option Phrase} {x : Lexeme}

theorem offer_grow {p : Phrase} {next : Frame ⊕ Phrase} (h : grow F.slot p x = some next) :
    offer x (F :: frames) (some p) = some (enter (F :: frames) next) := by
  simp only [offer, Option.bind_some, h]

theorem offer_turn {next : Frame ⊕ Phrase} (hgrow : ∀ p ∈ last, p.continues F.slot x = false)
    (h : F.turn last x = some next) : offer x (F :: frames) last = some (enter frames next) := by
  have hnone : (last.bind fun p => grow F.slot p x) = none := by
    rw [Option.bind_eq_none_iff]
    exact fun p hp => grow_eq_none (hgrow p hp)
  simp only [offer, hnone, h]

theorem offer_ending {p : Phrase} (hgrow : ∀ q ∈ last, q.continues F.slot x = false)
    (hturn : F.turn last x = none) (h : F.ending last = some p) :
    offer x (F :: frames) last = offer x frames (some p) := by
  have hnone : (last.bind fun q => grow F.slot q x) = none := by
    rw [Option.bind_eq_none_iff]
    exact fun q hq => grow_eq_none (hgrow q hq)
  simp only [offer, hnone, hturn, h]

end

/-! ## Open phrases -/

mutual

/-- The state after the lexemes of a phrase.  The parts at its end are still open. -/
def opened (frames : List Frame) : Phrase → State
  | comparison c l r => opened (.operand c l :: frames) r
  | select columns source => opened (.source columns :: frames) source
  | clause p k items => openedAll (.clause p k) [] frames items
  | p => (frames, some p)

/-- The state after the lexemes of some phrases in a frame. -/
def openedAll (F : List Phrase → Frame) (done : List Phrase) (frames : List Frame) :
    List Phrase → State
  | [] => (F done :: frames, none)
  | [p] => opened (F done :: frames) p
  | p :: q :: ps => openedAll F (done ++ [p]) frames (q :: ps)

end

/-- A lexeme is offered to a state. -/
abbrev State.offer (state : State) (x : Lexeme) : Option State := Phrase.offer x state.1 state.2

mutual

/-- A lexeme that no part at the end of a phrase takes closes all of them. -/
theorem offer_opened (x : Lexeme) : ∀ (p : Phrase) (frames : List Frame), p.takes x = false →
    (opened frames p).offer x = offer x frames (some p)
  | comparison c l r, frames, h => by
      obtain ⟨hr, hend⟩ := Bool.or_eq_false_iff.mp h
      rw [opened, offer_opened x r _ hr]
      exact offer_ending (fun q hq => Option.some.inj hq ▸ hend) rfl rfl
  | select columns source, frames, h => by
      obtain ⟨hsource, hend⟩ := Bool.or_eq_false_iff.mp h
      rw [opened, offer_opened x source _ hsource]
      exact offer_ending (fun q hq => Option.some.inj hq ▸ hend) rfl rfl
  | clause p k items, frames, h => by
      rw [opened, offer_openedAll x p k items [] frames h, List.nil_append]
  | name _, _, _ => rfl
  | literal _, _, _ => rfl
  | aliased _ _, _, _ => rfl
  | membership _ _ _, _, _ => rfl
  | directed _ _, _, _ => rfl
  | joined _ _ _, _, _ => rfl
  | shared _ _ _, _, _ => rfl

theorem offer_openedAll (x : Lexeme) (p : Phrase) (k : ClauseKind) :
    ∀ (items done : List Phrase) (frames : List Frame),
      takesLast x k.slot k.separator items = false →
        (openedAll (.clause p k) done frames items).offer x =
          offer x frames (some (clause p k (done ++ items)))
  | [], done, frames, h => by
      rw [openedAll]
      exact offer_ending (fun q hq => nomatch hq) rfl rfl
  | [q], done, frames, h => by
      obtain ⟨h, hend⟩ := Bool.or_eq_false_iff.mp h
      obtain ⟨hword, hq⟩ := Bool.or_eq_false_iff.mp h
      rw [openedAll, offer_opened x q _ hq]
      refine offer_ending (fun q hq => Option.some.inj hq ▸ hend) ?_ rfl
      simp only [Frame.turn, hword, Bool.false_eq_true, if_false]
  | q :: q' :: qs, done, frames, h => by
      rw [openedAll, offer_openedAll x p k (q' :: qs) (done ++ [q]) frames h, List.append_assoc]
      rfl

end

/-! ## Words that close a list -/

/-- A word after a list that no phrase takes. -/
inductive Word.Closing : Word → Prop
  | close : Closing .close
  | source : Closing .source
  | on : Closing .on
  | shared : Closing .shared

section

variable {w : Word}

theorem Word.Closing.continues (hw : w.Closing) (s : Slot) (p : Phrase) :
    p.continues s (.word w) = false := by
  cases hw <;> rfl

theorem Word.Closing.ne_separator (hw : w.Closing) (k : ClauseKind) :
    (Lexeme.word w).isWord k.separator = false := by
  cases hw <;> cases k <;> rfl

mutual

theorem Word.Closing.takes (hw : w.Closing) : ∀ p : Phrase, p.takes (.word w) = false
  | .comparison _ _ r => by simp only [Phrase.takes, hw.takes r, hw.continues, Bool.or_self]
  | .select _ p => by simp only [Phrase.takes, hw.takes p, hw.continues, Bool.or_self]
  | .clause _ k items => hw.takesLast k.slot (hw.ne_separator k) items
  | .name _ => rfl
  | .literal _ => rfl
  | .aliased _ _ => rfl
  | .membership _ _ _ => rfl
  | .directed _ _ => rfl
  | .joined _ _ _ => rfl
  | .shared _ _ _ => rfl

theorem Word.Closing.takesLast (hw : w.Closing) (s : Slot) {separator : Word}
    (hne : (Lexeme.word w).isWord separator = false) :
    ∀ ps : List Phrase, Phrase.takesLast (.word w) s separator ps = false
  | [] => rfl
  | [p] => by simp only [Phrase.takesLast, hne, hw.takes p, hw.continues, Bool.or_self]
  | _ :: p :: ps => hw.takesLast s hne (p :: ps)

end

theorem Word.Closing.step_eq (hw : w.Closing) (state : State) :
    step (.word w) state = state.offer (.word w) := by
  cases hw <;> rfl

/-- A list ends at a closing word, whatever is open at the end of its last phrase. -/
theorem Word.Closing.offer_openedAll (hw : w.Closing) {F : List Phrase → Frame}
    {out : List Phrase → Frame ⊕ Phrase}
    (hturn : ∀ done last, (F done).turn last (.word w) = some (out (done ++ last.toList))) :
    ∀ (items done : List Phrase) (frames : List Frame),
      (openedAll F done frames items).offer (.word w) = some (enter frames (out (done ++ items)))
  | [], done, frames => offer_turn (fun q hq => nomatch hq) (hturn done none)
  | [q], done, frames => by
      rw [openedAll, offer_opened _ q _ (hw.takes q)]
      exact offer_turn (fun q _ => hw.continues _ q) (hturn done (some q))
  | q :: q' :: qs, done, frames => by
      rw [openedAll, hw.offer_openedAll hturn (q' :: qs) (done ++ [q]) frames, List.append_assoc]
      rfl

end

/-! ## Words between the items of a list -/

/-- A word between two items. -/
inductive Word.Separating : Word → Prop
  | comma : Separating .comma
  | and : Separating .and

theorem ClauseKind.separating (k : ClauseKind) : k.separator.Separating := by
  cases k with
  | conditions => exact .and
  | grouping => exact .comma
  | ordering => exact .comma

section

variable {w : Word}

theorem Word.Separating.continues (hw : w.Separating) (s : Slot) (p : Phrase) :
    p.continues s (.word w) = false := by
  cases hw <;> rfl

theorem Word.Separating.step_eq (hw : w.Separating) (state : State) :
    step (.word w) state = state.offer (.word w) := by
  cases hw <;> rfl

/-- What a list without items says changes nothing. -/
theorem Word.Separating.run_blank (hw : w.Separating) (state : State) :
    run w.blank state = some state := by
  cases hw <;> rfl

end

/-! ## Reading lexemes back -/

theorem Determined.isTerm {p : Phrase} (h : Determined .term p) : p.isTerm := by
  cases h <;> rfl

@[simp] theorem isTerm_bare (p : Phrase) : p.bare.isTerm = p.isTerm := by
  cases p <;> rfl

@[simp] theorem isJoinable_bare (p : Phrase) : p.bare.isJoinable = p.isJoinable := by
  cases p <;> rfl

@[simp] theorem hasRoom_bare (k : ClauseKind) (p : Phrase) : p.bare.hasRoom k = p.hasRoom k := by
  cases p <;> rfl

/-- One lexeme more, after a phrase that does not take it. -/
theorem run_opened {xs ys : List Lexeme} {x : Lexeme} {state : State} {frames : List Frame}
    {p : Phrase} (h : run xs state = some (opened frames p.bare)) (htakes : p.takes x = false)
    (hstep : ∀ state, step x state = state.offer x) :
    run (xs ++ x :: ys) state = (offer x frames (some p.bare)).bind (run ys) := by
  rw [run_append, h, Option.bind_some, run, hstep, offer_opened x _ _ (by rw [takes_bare, htakes])]

/-- One word more, after a list that it closes. -/
theorem run_closing {xs : List Lexeme} (ys : List Lexeme) {w : Word} {state : State}
    {frames : List Frame} {F : List Phrase → Frame} {items : List Phrase} (hw : w.Closing)
    (out : List Phrase → Frame ⊕ Phrase)
    (hturn : ∀ done last, (F done).turn last (.word w) = some (out (done ++ last.toList)))
    (h : run xs state = some (openedAll F [] frames items)) :
    run (xs ++ .word w :: ys) state = run ys (enter frames (out items)) := by
  rw [run_append, h, Option.bind_some, run, hw.step_eq, hw.offer_openedAll hturn,
    Option.bind_some, List.nil_append]

/-- A join up to its conditions or its columns. -/
theorem run_join {p table : Phrase} {w : Word} {F G : Frame} {frames : List Frame}
    (ys : List Lexeme) (hjoinable : p.isJoinable) (htakes : p.takes (.word .join) = false)
    (hp : run p.lexemes (F :: frames, none) = some (opened (F :: frames) p.bare))
    (htable : run table.lexemes (.table p.bare :: F :: frames, none) =
      some (opened (.table p.bare :: F :: frames) table.bare))
    (hw : w.Closing)
    (hturn : Frame.turn (.table p.bare) (some table.bare) (.word w) = some (.inl G)) :
    run (p.lexemes ++ .word .join :: (table.lexemes ++ .word w :: ys)) (F :: frames, none) =
      run ys (G :: F :: frames, none) := by
  have hgrow : grow F.slot p.bare (.word .join) = some (.inl (.table p.bare)) := by
    simp only [grow, isJoinable_bare, hjoinable, if_true]
  rw [run_opened hp htakes fun _ => rfl, offer_grow hgrow, Option.bind_some]
  change run (table.lexemes ++ .word w :: ys) (.table p.bare :: F :: frames, none) = _
  rw [run_opened htable (hw.takes table) hw.step_eq,
    offer_turn (fun q _ => hw.continues _ q) hturn]
  rfl

mutual

/-- The lexemes of a determined phrase are read as that phrase. -/
theorem Determined.run_lexemes : ∀ {s : Slot} {p : Phrase}, Determined s p →
    ∀ (F : Frame) (frames : List Frame), s = .term ∨ F.slot = s →
      run p.lexemes (F :: frames, none) = some (opened (F :: frames) p.bare)
  | _, _, .name _ n, F, frames, _ => rfl
  | _, _, .literal _ v, F, frames, _ => rfl
  | _, _, @Determined.aliased _ p a hp htakes, F, frames, _ => by
      have hgrow : grow F.slot p.bare (.called a) = some (.inr (.aliased p.bare a)) := by
        simp only [grow, isTerm_bare, hp.isTerm, if_true]
      rw [lexemes, run_opened (hp.run_lexemes F frames (.inl rfl)) htakes fun _ => rfl,
        offer_grow hgrow]
      rfl
  | _, _, @Determined.comparison c l r hl htakes hr, F, frames, hF => by
      have hslot : F.slot = .condition := hF.resolve_left fun h => nomatch h
      have hgrow : grow F.slot l.bare (.word (.comparator c)) = some (.inl (.operand c l.bare)) := by
        simp only [grow, hslot, if_true]
      rw [lexemes, run_opened (hl.run_lexemes F frames hF) htakes fun _ => rfl, offer_grow hgrow]
      exact hr.run_lexemes _ _ (.inl rfl)
  | _, _, @Determined.membership negated field values hf htakes hvs, F, frames, hF => by
      have hslot : F.slot = .condition := hF.resolve_left fun h => nomatch h
      have hgrow : grow F.slot field.bare (.word (.membership negated)) =
          some (.inl (.values negated field.bare [])) := by
        simp only [grow, hslot, if_true]
      rw [lexemes, List.append_assoc, List.cons_append,
        run_opened (hf.run_lexemes F frames hF) htakes fun _ => rfl, offer_grow hgrow]
      exact run_closing [] .close (fun values => .inr (.membership negated field.bare values))
        (fun _ last => by cases last <;> rfl)
        (hvs.run_lexemesAll (F := .values negated field.bare) .comma (.inl rfl) (fun _ _ => rfl)
          (F :: frames))
  | _, _, @Determined.directed d p hp htakes, F, frames, hF => by
      have hslot : F.slot = .item := hF.resolve_left fun h => nomatch h
      have hgrow : grow F.slot p.bare (.word (.direction d)) = some (.inr (.directed d p.bare)) := by
        simp only [grow, hslot, isTerm_bare, hp.isTerm, decide_true, Bool.and_self, if_true]
      rw [lexemes, run_opened (hp.run_lexemes F frames (.inl rfl)) htakes fun _ => rfl,
        offer_grow hgrow]
      rfl
  | _, _, @Determined.select _ columns source hcolumns hsource, F, frames, _ => by
      rw [lexemes]
      have hrun := run_closing source.lexemes .source (fun listed => .inl (.source listed))
        (fun _ last => by cases last <;> rfl)
        (hcolumns.run_lexemesAll (F := .columns) .comma (.inl rfl) (fun _ _ => rfl) (F :: frames))
      exact hrun.trans (hsource.run_lexemes _ _ (.inl rfl))
  | _, _, @Determined.joined _ p table conditions hp hjoinable htakes htable hon, F, frames, _ => by
      rw [lexemes, List.append_assoc, List.append_assoc, List.cons_append, List.cons_append,
        run_join _ hjoinable htakes (hp.run_lexemes F frames (.inl rfl))
          (htable.run_lexemes _ _ (.inl rfl)) .on rfl]
      exact run_closing [] .close (fun on => .inr (.joined p.bare table.bare on))
        (fun _ last => by cases last <;> rfl)
        (hon.run_lexemesAll (F := .on p.bare table.bare) .and (.inr fun _ => rfl) (fun _ _ => rfl)
          (F :: frames))
  | _, _, @Determined.shared _ p table columns hp hjoinable htakes htable hcolumns, F, frames, _ => by
      rw [lexemes, List.append_assoc, List.append_assoc, List.cons_append, List.cons_append,
        run_join _ hjoinable htakes (hp.run_lexemes F frames (.inl rfl))
          (htable.run_lexemes _ _ (.inl rfl)) .shared rfl]
      exact run_closing [] .close (fun listed => .inr (.shared p.bare table.bare listed))
        (fun _ last => by cases last <;> rfl)
        (hcolumns.run_lexemesAll (F := .shared p.bare table.bare) .comma (.inl rfl) (fun _ _ => rfl)
          (F :: frames))
  | _, _, @Determined.clause _ p k items hp hroom htakes hitems, F, frames, _ => by
      have hgrow : grow F.slot p.bare (.word (.clause k)) = some (.inl (.clause p.bare k [])) := by
        simp only [grow, hasRoom_bare, hroom, if_true]
      rw [lexemes, run_opened (hp.run_lexemes F frames (.inl rfl)) htakes fun _ => rfl,
        offer_grow hgrow]
      refine hitems.run_lexemesAll (F := .clause p.bare k) k.separating (.inr fun _ => rfl) (fun _ _ => ?_)
        (F :: frames)
      cases k <;> rfl

theorem DeterminedAll.run_lexemesAll : ∀ {s : Slot} {w : Word} {ps : List Phrase},
    DeterminedAll s w ps → ∀ {F : List Phrase → Frame} {done : List Phrase}, w.Separating →
      (s = .term ∨ ∀ done, (F done).slot = s) →
      (∀ done q, (F done).turn (some q) (.word w) = some (.inl (F (done ++ [q])))) →
      ∀ frames, run (lexemesAll w ps) (F done :: frames, none) =
        some (openedAll F done frames (bareAll ps))
  | _, _, _, .nil s w, F, done, hw, _, _, frames => hw.run_blank (F done :: frames, none)
  | _, _, _, .last hp, F, done, _, hF, _, frames =>
      hp.run_lexemes _ _ (hF.imp_right fun h => h done)
  | _, w, _, @DeterminedAll.cons _ _ p q ps hp htakes hps, F, done, hw, hF, hturn, frames => by
      rw [lexemesAll,
        run_opened (hp.run_lexemes _ _ (hF.imp_right fun h => h done)) htakes hw.step_eq,
        offer_turn (fun q _ => hw.continues _ q) (hturn done p.bare)]
      exact hps.run_lexemesAll hw hF hturn frames

end

/-- A determined phrase is read back from its lexemes, but for its literals. -/
theorem Determined.read_lexemes {p : Phrase} (h : Determined .condition p) :
    read p.lexemes = some p.bare := by
  have hrun := h.run_lexemes .whole [] (.inr rfl)
  rw [read, run_opened hrun (Word.Closing.close.takes p) fun _ => rfl]
  rfl

/-- Determined phrases with the same lexemes and the same literals are the same. -/
theorem Determined.eq_of_lexemes_eq {p q : Phrase} (hp : Determined .condition p)
    (hq : Determined .condition q) (hlexemes : p.lexemes = q.lexemes)
    (hbinds : p.binds = q.binds) : p = q := by
  have hread := hp.read_lexemes
  rw [hlexemes, hq.read_lexemes] at hread
  exact eq_of_bare_eq (Option.some.inj hread).symm hbinds

end QueryTree.Phrase
