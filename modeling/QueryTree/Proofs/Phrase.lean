import QueryTree.Identifier
import QueryTree.Tag

/-!
# Phrases

A *phrase* is the tree of an expression, apart from how it is written as a value.
It is made of names, literals, aliases, comparisons, membership tests and selects.
Two operators with one token are one comparator.

The clauses of a select are put around it one after another, in the order in which
they are written.

The text of a phrase is a list of *lexemes* (`Phrase.lexemes`), and `Phrase.binds`
lists its literals in the order in which they are recorded.  A lexeme shows no
literal.  A name shows its segments in quotes, and an alias shows its text as it
is.

No lexeme opens or closes a comparison or a select.  So a lexeme after a phrase may
belong to a part at the end of it (`Phrase.takes`).  A phrase is *determined* if
none of its lexemes may belong to a part that ends before it.
-/

namespace QueryTree

namespace Phrase

/-! ## Words -/

/-- What stands between the two sides of a comparison. -/
inductive Comparator where
  | equal
  | different
  | unequal
  | greater
  | greaterEqual
  | less
  | lessEqual
  | like
  | notLike
  | ilike
  | is
  | isNot
deriving DecidableEq, Repr

/-- The token of a comparator. -/
def Comparator.token : Comparator → String
  | equal => "="
  | different => "!="
  | unequal => "<>"
  | greater => ">"
  | greaterEqual => ">="
  | less => "<"
  | lessEqual => "<="
  | like => "LIKE"
  | notLike => "NOT LIKE"
  | ilike => "ILIKE"
  | is => "IS"
  | isNot => "IS NOT"

/-- The clauses of a select after its joins. -/
inductive ClauseKind where
  | conditions
  | grouping
  | ordering
deriving DecidableEq, Repr

/-- The place of a kind among the clauses of a select. -/
def ClauseKind.rank : ClauseKind → Nat
  | conditions => 0
  | grouping => 1
  | ordering => 2

/-- A fixed part of the text, with the spaces around it. -/
inductive Word where
  /-- A literal. -/
  | hole
  /-- What a clause without conditions says. -/
  | always
  | select
  | source
  | comma
  | close
  | comparator (c : Comparator)
  | membership (negated : Bool)
  | direction (d : Direction)
  | join
  | on
  | shared
  | clause (k : ClauseKind)
  | and
deriving DecidableEq, Repr

/-- The text of a word. -/
def Word.text : Word → String
  | hole => "?"
  | always => "1 = 1"
  | select => "SELECT "
  | source => " FROM "
  | comma => ", "
  | close => ")"
  | comparator c => " " ++ c.token ++ " "
  | membership false => " IN ("
  | membership true => " NOT IN ("
  | direction d => " " ++ d.word
  | join => " JOIN "
  | on => " ON ("
  | shared => " USING ("
  | clause .conditions => " WHERE "
  | clause .grouping => " GROUP BY "
  | clause .ordering => " ORDER BY "
  | and => " AND "

/-- What stands between the items of a clause. -/
def ClauseKind.separator : ClauseKind → Word
  | conditions => .and
  | _ => .comma

/-- The segments of a name.  Only the last may be a star. -/
structure Name where
  /-- The segments. -/
  segments : List String
  ne_nil : segments ≠ []
  star_last : Identifier.star ∉ segments.dropLast

/-- The text of an alias.  It ends at the first space, comma or closing
parenthesis. -/
structure Alias where
  /-- The text. -/
  text : String
  plain : ∀ c ∈ text.toList, c ≠ ' ' ∧ c ≠ ',' ∧ c ≠ ')'

/-- A part of the text. -/
inductive Lexeme where
  | word (w : Word)
  | name (n : Name)
  /-- An alias, with the word before it. -/
  | called (a : Alias)

end Phrase

/-! ## Trees -/

open Phrase in
/-- The tree of an expression or a select. -/
inductive Phrase where
  | name (n : Name)
  | literal (v : Value)
  | aliased (p : Phrase) (a : Alias)
  | comparison (c : Comparator) (left right : Phrase)
  | membership (negated : Bool) (field : Phrase) (values : List Phrase)
  /-- An item of an ordering, with its direction. -/
  | directed (d : Direction) (p : Phrase)
  | select (columns : List Phrase) (source : Phrase)
  /-- A select with one join more, on conditions. -/
  | joined (p table : Phrase) (conditions : List Phrase)
  /-- A select with one join more, on shared columns. -/
  | shared (p table : Phrase) (columns : List Phrase)
  /-- A select with one clause more. -/
  | clause (p : Phrase) (k : ClauseKind) (items : List Phrase)

namespace Phrase

/-- What a list without items says. -/
def Word.blank : Word → List Lexeme
  | .and => [.word .always]
  | _ => []

mutual

/-- The lexemes of a phrase. -/
def lexemes : Phrase → List Lexeme
  | name n => [.name n]
  | literal _ => [.word .hole]
  | aliased p a => p.lexemes ++ [.called a]
  | comparison c l r => l.lexemes ++ .word (.comparator c) :: r.lexemes
  | membership negated field values =>
    field.lexemes ++ .word (.membership negated) :: lexemesAll .comma values ++ [.word .close]
  | directed d p => p.lexemes ++ [.word (.direction d)]
  | select columns source =>
    .word .select :: lexemesAll .comma columns ++ .word .source :: source.lexemes
  | joined p table conditions =>
    p.lexemes ++ .word .join :: table.lexemes ++ .word .on :: lexemesAll .and conditions
      ++ [.word .close]
  | shared p table columns =>
    p.lexemes ++ .word .join :: table.lexemes ++ .word .shared :: lexemesAll .comma columns
      ++ [.word .close]
  | clause p k items => p.lexemes ++ .word (.clause k) :: lexemesAll k.separator items

/-- The lexemes of some phrases, with a word between them. -/
def lexemesAll (separator : Word) : List Phrase → List Lexeme
  | [] => separator.blank
  | [p] => p.lexemes
  | p :: q :: ps => p.lexemes ++ .word separator :: lexemesAll separator (q :: ps)

end

mutual

/-- The literals of a phrase, in the order in which they are recorded.  A
membership test comes to its values first. -/
def binds : Phrase → List Value
  | name _ => []
  | literal v => [v]
  | aliased p _ => p.binds
  | comparison _ l r => l.binds ++ r.binds
  | membership _ field values => bindsAll values ++ field.binds
  | directed _ p => p.binds
  | select columns source => bindsAll columns ++ source.binds
  | joined p table conditions => p.binds ++ table.binds ++ bindsAll conditions
  | shared p table columns => p.binds ++ table.binds ++ bindsAll columns
  | clause p _ items => p.binds ++ bindsAll items

/-- The literals of some phrases. -/
def bindsAll : List Phrase → List Value
  | [] => []
  | p :: ps => p.binds ++ bindsAll ps

end

/-! ## What may follow a phrase -/

/-- Where a phrase stands. -/
inductive Slot where
  /-- An operand, a value, a column or a table. -/
  | term
  /-- A condition. -/
  | condition
  /-- An item of an ordering. -/
  | item
deriving DecidableEq, Repr

/-- Where the items of a clause stand. -/
def ClauseKind.slot : ClauseKind → Slot
  | conditions => .condition
  | grouping => .term
  | ordering => .item

/-- Neither a comparison nor a membership test, and without direction. -/
def isTerm : Phrase → Bool
  | comparison .. => false
  | membership .. => false
  | directed .. => false
  | _ => true

/-- A select that may have one join more. -/
def isJoinable : Phrase → Bool
  | select .. => true
  | joined .. => true
  | shared .. => true
  | _ => false

/-- A select that may have one clause more. -/
def hasRoom (k : ClauseKind) : Phrase → Bool
  | select .. => true
  | joined .. => true
  | shared .. => true
  | clause _ last _ => last.rank < k.rank
  | _ => false

/-- Whether a lexeme after a phrase may make it part of another in the same
place. -/
def continues (s : Slot) (p : Phrase) : Lexeme → Bool
  | .called _ => p.isTerm
  | .word (.comparator _) => s = .condition
  | .word (.membership _) => s = .condition
  | .word (.direction _) => s = .item && p.isTerm
  | .word .join => p.isJoinable
  | .word (.clause k) => p.hasRoom k
  | _ => false

/-- Whether a lexeme is a word. -/
def Lexeme.isWord : Lexeme → Word → Bool
  | .word w, v => w = v
  | _, _ => false

mutual

/-- Whether a lexeme after a phrase may belong to a part at the end of it. -/
def takes (x : Lexeme) : Phrase → Bool
  | comparison _ _ r => takes x r || r.continues .term x
  | select _ source => takes x source || source.continues .term x
  | clause _ k items => takesLast x k.slot k.separator items
  | _ => false

/-- Whether a lexeme may belong to the last of some items, or stand between it and
the next. -/
def takesLast (x : Lexeme) (s : Slot) (separator : Word) : List Phrase → Bool
  | [] => false
  | [p] => x.isWord separator || takes x p || p.continues s x
  | _ :: p :: ps => takesLast x s separator (p :: ps)

end

/-! ## Determined phrases -/

mutual

/-- No lexeme of a phrase may belong to a part that ends before it, and no right
side of a comparison is a comparison or a membership test itself. -/
inductive Determined : Slot → Phrase → Prop
  | name (s : Slot) (n : Name) : Determined s (.name n)
  | literal (s : Slot) (v : Value) : Determined s (.literal v)
  | aliased (s : Slot) {p : Phrase} {a : Alias} :
    Determined .term p → p.takes (.called a) = false → Determined s (.aliased p a)
  | comparison {c : Comparator} {l r : Phrase} :
    Determined .condition l → l.takes (.word (.comparator c)) = false → Determined .term r →
      Determined .condition (.comparison c l r)
  | membership {negated : Bool} {field : Phrase} {values : List Phrase} :
    Determined .condition field → field.takes (.word (.membership negated)) = false →
      DeterminedAll .term .comma values → Determined .condition (.membership negated field values)
  | directed {d : Direction} {p : Phrase} :
    Determined .term p → p.takes (.word (.direction d)) = false → Determined .item (.directed d p)
  | select (s : Slot) {columns : List Phrase} {source : Phrase} :
    DeterminedAll .term .comma columns → Determined .term source →
      Determined s (.select columns source)
  | joined (s : Slot) {p table : Phrase} {conditions : List Phrase} :
    Determined .term p → p.isJoinable → p.takes (.word .join) = false → Determined .term table →
      DeterminedAll .condition .and conditions → Determined s (.joined p table conditions)
  | shared (s : Slot) {p table : Phrase} {columns : List Phrase} :
    Determined .term p → p.isJoinable → p.takes (.word .join) = false → Determined .term table →
      DeterminedAll .term .comma columns → Determined s (.shared p table columns)
  | clause (s : Slot) {p : Phrase} {k : ClauseKind} {items : List Phrase} :
    Determined .term p → p.hasRoom k → p.takes (.word (.clause k)) = false →
      DeterminedAll k.slot k.separator items → Determined s (.clause p k items)

/-- Determined phrases, none of which may take the word after it. -/
inductive DeterminedAll : Slot → Word → List Phrase → Prop
  | nil (s : Slot) (separator : Word) : DeterminedAll s separator []
  | last {s : Slot} {separator : Word} {p : Phrase} :
    Determined s p → DeterminedAll s separator [p]
  | cons {s : Slot} {separator : Word} {p q : Phrase} {ps : List Phrase} :
    Determined s p → p.takes (.word separator) = false → DeterminedAll s separator (q :: ps) →
      DeterminedAll s separator (p :: q :: ps)

end

end Phrase

end QueryTree
