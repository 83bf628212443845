import QueryTree.Rendering

/-!
# Conditions

The conditions of a WHERE clause form a tree.  Its *atoms* are rendered through
the table of conditions.  Its *groups* are joined by AND or OR.  `Condition` is
the tree, and `Condition.ofValue` reads it off a value.

* A sequence headed by `-and` or `-or` is that group of the items that follow.
  Any other sequence is an AND group of its items.
* A node tagged `-and` or `-or` is that group of its operands.  Any other node
  is an AND group of itself alone.
* A group whose first item is neither a node nor a sequence is flat: its items
  together are the one member of the group.

A member of a group is itself a group if it is headed by `-and` or `-or`, and
an atom otherwise.

`Condition.words` lays a tree out as a flat list of words: atoms, connectives,
parentheses and the constants that stand for empty groups.  A group is put in
parentheses if its priority is greater than that of the group around it.  A
priority that is missing and a member that is neither a node nor a sequence are
words too.  They stop the rendering when it comes to them.
-/

namespace QueryTree

/-- A tree of conditions. -/
inductive Condition where
  /-- A condition of its own. -/
  | atom (v : Value)
  /-- A value that can be no condition. -/
  | invalid (v : Value)
  /-- Conditions joined by one connective. -/
  | group (c : Connective) (members : List Condition)
deriving Inhabited

namespace Condition

/-! ## Reading a tree -/

/-- Whether a value can be a member of a group. -/
def isClause : Value → Bool
  | .node .. => true
  | v => v.isSequence

mutual

/-- The group of the items after its tag. -/
def ofItems (c : Connective) : List Value → Condition
  | [] => .group c []
  | .str s :: rest =>
    match Connective.ofTag? s with
    | some inner => .group c [ofItems inner rest]
    | none => .group c [.atom (.list (.str s :: rest))]
  | v :: rest =>
    if isClause v then .group c (ofMember v :: ofMembers rest)
    else .group c [.atom (.list (v :: rest))]

/-- A member of a group. -/
def ofMember : Value → Condition
  | .node tag args fields =>
    match Connective.ofTag? tag with
    | some inner => ofItems inner args
    | none => .atom (.node tag args fields)
  | .list (.str s :: rest) =>
    match Connective.ofTag? s with
    | some inner => ofItems inner rest
    | none => .atom (.list (.str s :: rest))
  | .tuple (.str s :: rest) =>
    match Connective.ofTag? s with
    | some inner => ofItems inner rest
    | none => .atom (.tuple (.str s :: rest))
  | .list items => .atom (.list items)
  | .tuple items => .atom (.tuple items)
  | v => .invalid v

/-- The members of a group. -/
def ofMembers : List Value → List Condition
  | [] => []
  | v :: rest => ofMember v :: ofMembers rest

end

/-- The tree of a sequence. -/
def ofSequence : List Value → Condition
  | .str s :: rest =>
    match Connective.ofTag? s with
    | some c => ofItems c rest
    | none => ofItems .and (.str s :: rest)
  | items => ofItems .and items

/-- The tree of a value. -/
def ofValue : Value → Except Fault Condition
  | .node tag args fields =>
    .ok (match Connective.ofTag? tag with
      | some c => ofItems c args
      | none => .group .and [.atom (.node tag args fields)])
  | v =>
    match v.sequence? with
    | some items => .ok (ofSequence items)
    | none => .error (.conditionsNotSequence v)

/-! ## Laying a tree out -/

/-- A word of a laid out tree. -/
inductive Word where
  /-- A condition of its own. -/
  | atom (v : Value)
  /-- A condition that always holds or never. -/
  | constant (holds : Bool)
  /-- The word between two members. -/
  | connective (c : Connective)
  /-- An opening parenthesis. -/
  | opening
  /-- A closing parenthesis. -/
  | closing
  /-- A connective without priority. -/
  | unranked (c : Connective)
  /-- A value that can be no condition. -/
  | invalid (v : Value)

/-- The words of the members with a connective between them. -/
def joined (c : Connective) : List (List Word) → List Word
  | [] => []
  | [ws] => ws
  | ws :: rest => ws ++ .connective c :: joined c rest

/-- The words of a member in a group of priority `outer`. -/
def enclosed (rank : Connective → Option Int) (outer : Int) : Condition → List Word → List Word
  | group c _, ws =>
    match rank c with
    | none => [.unranked c]
    | some inner => if outer < inner then .opening :: ws ++ [.closing] else ws
  | _, ws => ws

mutual

/-- The words of a tree. -/
def words (rank : Connective → Option Int) : Condition → List Word
  | atom v => [.atom v]
  | invalid v => [.invalid v]
  | group c [] => [.constant (c == .and)]
  | group c (m :: ms) =>
    match rank c with
    | none => [.unranked c]
    | some outer => joined c (enclosed rank outer m (words rank m) :: memberWords rank outer ms)

/-- The words of the members of a group of priority `outer`. -/
def memberWords (rank : Connective → Option Int) (outer : Int) : List Condition → List (List Word)
  | [] => []
  | m :: ms => enclosed rank outer m (words rank m) :: memberWords rank outer ms

end

/-! ## Rendering -/

/-- The predicate that always holds. -/
def always : String := "1 = 1"

/-- The predicate that never holds. -/
def never : String := "0 = 1"

/-- The SQL of a word, given that of atoms. -/
def renderWord (atom : Value → Rendering Sql) : Word → Rendering Sql
  | .atom v => atom v
  | .constant holds => pure (.ofText (if holds then always else never))
  | .connective c => pure (.ofText (" " ++ c.word ++ " "))
  | .opening => pure (.ofText "(")
  | .closing => pure (.ofText ")")
  | .unranked c => Rendering.fail (.unranked c)
  | .invalid v => Rendering.fault (.notCondition v)

/-- The SQL of some words, given that of atoms. -/
def renderWords (atom : Value → Rendering Sql) (ws : List Word) : Rendering Sql := do
  let parts ← Rendering.each (renderWord atom) ws
  return parts.flatten

end Condition

end QueryTree
