import QueryTree.Condition

/-!
# The grammar of laid out conditions

Laid out conditions are read like any infix notation.  There are two connectives,
and one of them binds tighter.

* An *operand* is an atom, a constant or a whole text in parentheses.
* A *chain* is operands with the tighter connective between them.
* A *whole* text is chains with the other connective between them.

`Reads tight level ws f` says that the words `ws` are read as the formula `f` at a
level.  The rules are those of the textbook grammar, with both connectives joined
from the left.

The main statement is `Reads.unique`: words are read in one way only.  Its proof
goes through a reader that looks at each word once and keeps what it has read in
front of every open parenthesis (`readOperand`, `readRest`).
-/

namespace QueryTree

namespace Connective

/-- The other connective. -/
def other : Connective → Connective
  | and => or
  | or => and

/-- Two truth values joined by a connective. -/
def combine : Connective → Bool → Bool → Bool
  | and, a, b => a && b
  | or, a, b => a || b

/-- The truth value of nothing joined by a connective. -/
def neutral : Connective → Bool
  | and => true
  | or => false

theorem combine_assoc (c : Connective) (a b d : Bool) :
    c.combine (c.combine a b) d = c.combine a (c.combine b d) := by
  cases c
  · exact Bool.and_assoc a b d
  · exact Bool.or_assoc a b d

@[simp] theorem combine_neutral (c : Connective) (a : Bool) : c.combine a c.neutral = a := by
  cases c
  · exact Bool.and_true a
  · exact Bool.or_false a

end Connective

namespace Condition

/-! ## Formulas -/

/-- A formula over atoms. -/
inductive Formula where
  /-- An atom. -/
  | atom (v : Value)
  /-- A constant. -/
  | constant (holds : Bool)
  /-- Two formulas joined by a connective. -/
  | joined (c : Connective) (f g : Formula)

namespace Formula

/-- The atoms from left to right. -/
def atoms : Formula → List Value
  | atom v => [v]
  | constant _ => []
  | joined _ f g => f.atoms ++ g.atoms

/-- The truth value of a formula.  The atoms are numbered from left to right,
beginning with `start`, and each occurrence has a truth value of its own. -/
def holds (truth : Nat → Bool) (start : Nat) : Formula → Bool
  | atom _ => truth start
  | constant b => b
  | joined c f g => c.combine (f.holds truth start) (g.holds truth (start + f.atoms.length))

end Formula

/-- The atom a word is. -/
def Word.atom? : Word → Option Value
  | .atom v => some v
  | _ => none

/-! ## The rules -/

/-- How much of a text is read as one formula. -/
inductive Level where
  /-- An atom, a constant or a text in parentheses. -/
  | operand
  /-- Operands joined by the tighter connective. -/
  | chain
  /-- Chains joined by the other connective. -/
  | whole
deriving DecidableEq

/-- Words read as a formula at a level. -/
inductive Reads (tight : Connective) : Level → List Word → Formula → Prop
  | atom (v : Value) : Reads tight .operand [.atom v] (.atom v)
  | constant (b : Bool) : Reads tight .operand [.constant b] (.constant b)
  | enclosed {ws : List Word} {f : Formula} :
    Reads tight .whole ws f → Reads tight .operand (.opening :: ws ++ [.closing]) f
  | chainOne {ws : List Word} {f : Formula} : Reads tight .operand ws f → Reads tight .chain ws f
  | chainMore {us ws : List Word} {f g : Formula} :
    Reads tight .chain us f → Reads tight .operand ws g →
      Reads tight .chain (us ++ .connective tight :: ws) (.joined tight f g)
  | wholeOne {ws : List Word} {f : Formula} : Reads tight .chain ws f → Reads tight .whole ws f
  | wholeMore {us ws : List Word} {f g : Formula} :
    Reads tight .whole us f → Reads tight .chain ws g →
      Reads tight .whole (us ++ .connective tight.other :: ws) (.joined tight.other f g)

/-- Reading keeps the atoms in their order. -/
theorem Reads.atoms_eq {tight : Connective} {level : Level} {ws : List Word} {f : Formula}
    (h : Reads tight level ws f) : f.atoms = ws.filterMap Word.atom? := by
  induction h with
  | atom v => rfl
  | constant b => rfl
  | enclosed _ ih => simp [ih, List.filterMap_cons, Word.atom?]
  | chainOne _ ih => exact ih
  | chainMore _ _ ihf ihg => simp [Formula.atoms, ihf, ihg, List.filterMap_cons, Word.atom?]
  | wholeOne _ ih => exact ih
  | wholeMore _ _ ihf ihg => simp [Formula.atoms, ihf, ihg, List.filterMap_cons, Word.atom?]

/-! ## The reader -/

/-- What has been read at one depth of parentheses, before an operand. -/
structure Context where
  /-- The chains in front, if the other connective followed them. -/
  chains : Option Formula := none
  /-- The operands in front, if the tighter connective followed them. -/
  operands : Option Formula := none

/-- The operands in front with one more. -/
def Context.extend (tight : Connective) (here : Context) (g : Formula) : Formula :=
  match here.operands with
  | none => g
  | some f => .joined tight f g

/-- The chains in front with the last one. -/
def closed (tight : Connective) (chains : Option Formula) (g : Formula) : Formula :=
  match chains with
  | none => g
  | some f => .joined tight.other f g

mutual

/-- The words from an operand on.  The contexts around the open parentheses are
given from the inside out. -/
def readOperand (tight : Connective) : List Word → List Context → Context → Option Formula
  | .atom v :: ws, outer, here => readRest tight ws outer here.chains (here.extend tight (.atom v))
  | .constant b :: ws, outer, here =>
    readRest tight ws outer here.chains (here.extend tight (.constant b))
  | .opening :: ws, outer, here => readOperand tight ws (here :: outer) {}
  | _, _, _ => none

/-- The words after an operand. -/
def readRest (tight : Connective) :
    List Word → List Context → Option Formula → Formula → Option Formula
  | [], [], chains, f => some (closed tight chains f)
  | .connective c :: ws, outer, chains, f =>
    if c = tight then readOperand tight ws outer { chains, operands := some f }
    else readOperand tight ws outer { chains := some (closed tight chains f) }
  | .closing :: ws, here :: outer, chains, f =>
    readRest tight ws outer here.chains (here.extend tight (closed tight chains f))
  | _, _, _, _ => none

end

/-- The formula of a whole text. -/
def read (tight : Connective) (ws : List Word) : Option Formula := readOperand tight ws [] {}

/-- What the reader does with words that are read at a level, whatever follows. -/
def Consumed (tight : Connective) : Level → List Word → Formula → Prop
  | .operand, ws, f => ∀ rest outer here,
    readOperand tight (ws ++ rest) outer here = readRest tight rest outer here.chains (here.extend tight f)
  | .chain, ws, f => ∀ rest outer chains,
    readOperand tight (ws ++ rest) outer { chains } = readRest tight rest outer chains f
  | .whole, ws, f => ∃ chains g, closed tight chains g = f ∧ ∀ rest outer,
    readOperand tight (ws ++ rest) outer {} = readRest tight rest outer chains g

theorem other_ne (c : Connective) : c.other ≠ c := by
  cases c <;> simp [Connective.other]

theorem Reads.consumed {tight : Connective} {level : Level} {ws : List Word} {f : Formula}
    (h : Reads tight level ws f) : Consumed tight level ws f := by
  induction h with
  | atom v =>
      intro rest outer here
      rfl
  | constant b =>
      intro rest outer here
      rfl
  | @enclosed ws f _ ih =>
      obtain ⟨chains, g, rfl, hread⟩ := ih
      intro rest outer here
      have hws : Word.opening :: ws ++ [Word.closing] ++ rest
          = .opening :: (ws ++ .closing :: rest) := by simp
      rw [hws, readOperand, hread, readRest]
  | chainOne _ ih =>
      intro rest outer chains
      exact ih rest outer { chains }
  | @chainMore us ws f g _ _ ihf ihg =>
      intro rest outer chains
      rw [List.append_assoc, ihf, List.cons_append, readRest, if_pos rfl, ihg]
      rfl
  | wholeOne _ ih => exact ⟨none, _, rfl, fun rest outer => ih rest outer none⟩
  | @wholeMore us ws f g _ _ ihf ihg =>
      obtain ⟨chains, e, rfl, hread⟩ := ihf
      refine ⟨some (closed tight chains e), g, rfl, fun rest outer => ?_⟩
      rw [List.append_assoc, hread, List.cons_append, readRest,
        if_neg (other_ne tight), ihg]

/-- The reader finds the formula of a whole text. -/
theorem Reads.read_eq {tight : Connective} {ws : List Word} {f : Formula}
    (h : Reads tight .whole ws f) : read tight ws = some f := by
  obtain ⟨chains, g, rfl, hread⟩ := h.consumed
  rw [read, ← List.append_nil ws, hread, readRest]

/-- A text is read in one way only. -/
theorem Reads.unique {tight : Connective} {ws : List Word} {f g : Formula}
    (hf : Reads tight .whole ws f) (hg : Reads tight .whole ws g) : f = g := by
  have h := hf.read_eq.symm.trans hg.read_eq
  exact Option.some.inj h

end Condition

end QueryTree
