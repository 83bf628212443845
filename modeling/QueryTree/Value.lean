import QueryTree.Binary64

/-!
# Values

A query tree is handed in as a plain *value*: null, a boolean, a number, a
text, bytes, a list, a tuple, a map or a node.  Lists and tuples are the
*sequences*.  Their items are positions of a tree.  Texts and bytes are not
sequences.

A map keeps its entries in the order they were entered, and each key once.  A
node is what lists, tuples and maps with a tag become (`QueryTree.Node`).  It may
stand wherever they may.

`Value.weight` counts the values a value is made of.  It bounds how deep a
rendering can nest.
-/

namespace QueryTree

/-- A plain value. -/
inductive Value where
  /-- The absent value. -/
  | null
  /-- A truth value. -/
  | bool (b : Bool)
  /-- A whole number. -/
  | int (i : Int)
  /-- A binary64 number. -/
  | float (x : Binary64)
  /-- A text. -/
  | str (s : String)
  /-- A run of bytes. -/
  | bytes (bs : List UInt8)
  /-- A list. -/
  | list (items : List Value)
  /-- A tuple. -/
  | tuple (items : List Value)
  /-- A map, in the order of entry. -/
  | map (entries : List (Value × Value))
  /-- A node: a tag, operands by position and operands by name. -/
  | node (tag : String) (args : List Value) (fields : List (Value × Value))
deriving Inhabited

/-- The entries of a map, or the named operands of a node. -/
abbrev Fields := List (Value × Value)

namespace Fields

/-- The value under a text key. -/
def get? (fields : Fields) (key : String) : Option Value :=
  match fields with
  | [] => none
  | (.str k, v) :: rest => if k = key then some v else get? rest key
  | _ :: rest => get? rest key

/-- Whether a text key has an entry. -/
def contains (fields : Fields) (key : String) : Bool := (fields.get? key).isSome

/-- The value under a text key, null if there is none. -/
def get (fields : Fields) (key : String) : Value := (fields.get? key).getD .null

/-- The entries without a text key. -/
def without (fields : Fields) (key : String) : Fields :=
  fields.filter fun entry => match entry.1 with
    | .str k => k != key
    | _ => true

/-- The entries with a text key set.  A key that is there keeps its place. -/
def set (fields : Fields) (key : String) (v : Value) : Fields :=
  match fields with
  | [] => [(.str key, v)]
  | (.str k, w) :: rest => if k = key then (.str k, v) :: rest else (.str k, w) :: set rest key v
  | entry :: rest => entry :: set rest key v

end Fields

namespace Value

/-- The items of a list or a tuple. -/
def sequence? : Value → Option (List Value)
  | list items => some items
  | tuple items => some items
  | _ => none

/-- Whether a value is a list or a tuple. -/
def isSequence (v : Value) : Bool := v.sequence?.isSome

/-- Whether a value is a map. -/
def isMap : Value → Bool
  | map _ => true
  | _ => false

/-- Whether a value counts as absent: null, false, a zero, or anything empty. -/
def isBlank : Value → Bool
  | null => true
  | bool b => !b
  | int i => i == 0
  | float x => x.isZero
  | str s => s.isEmpty
  | bytes bs => bs.isEmpty
  | list items => items.isEmpty
  | tuple items => items.isEmpty
  | map entries => entries.isEmpty
  | node .. => false

/-- The name of the kind of a value, as messages give it. -/
def kind : Value → String
  | null => "NoneType"
  | bool _ => "bool"
  | int _ => "int"
  | float _ => "float"
  | str _ => "str"
  | bytes _ => "bytes"
  | list _ => "list"
  | tuple _ => "tuple"
  | map _ => "dict"
  | node .. => "Node"

/-! ## Weight -/

mutual

/-- The number of values a value is made of, itself included.  Keys are not
counted, nor is the entry of a map that names its type. -/
def weight : Value → Nat
  | list items => 1 + weightItems items
  | tuple items => 1 + weightItems items
  | map entries => 1 + weightEntries entries
  | node _ args fields => 1 + weightItems args + weightFields fields
  | _ => 1

/-- The weights of some items together. -/
def weightItems : List Value → Nat
  | [] => 0
  | v :: rest => weight v + weightItems rest

/-- The weights of the values of a map together, its type left out. -/
def weightEntries : List (Value × Value) → Nat
  | [] => 0
  | (.str k, v) :: rest => (if k = "type" then 0 else weight v) + weightEntries rest
  | (_, v) :: rest => weight v + weightEntries rest

/-- The weights of the named operands of a node together. -/
def weightFields : List (Value × Value) → Nat
  | [] => 0
  | (_, v) :: rest => weight v + weightFields rest

end

end Value

end QueryTree
