import QueryTree.Tag
import QueryTree.Value.Order
import QueryTree.Value.Printer

/-!
# Nodes

A *node* has a tag, operands by position and operands by name.  It is the one
shape that rendering sees.  Three shapes of values stand for one.

* A node stands for itself.
* The *array form* is a sequence headed by a text.  The text is the tag and the
  other items are the operands.  A name may hold its segments in one sequence.
  The two operands of an alias become its names `ident` and `as`.
* The *hash form* is a map.  The entry `type` gives the tag, where the hyphen
  may be left out, and the other entries are the operands by name.  A default
  tag serves a map whose type is missing or blank.

`Node.ofValue` turns a value into the node it stands for, or says why it stands
for none (`Malformed`).
-/

namespace QueryTree

/-- A tag with its operands. -/
structure Node where
  /-- The tag. -/
  tag : String
  /-- The operands by position. -/
  args : List Value := []
  /-- The operands by name. -/
  fields : Fields := []

/-- A node as a value. -/
def Node.toValue (n : Node) : Value := .node n.tag n.args n.fields

/-! ## What stands for a node -/

namespace Value

/-- The tag and the operands of an array form. -/
def arrayForm? (v : Value) : Option (String × List Value) :=
  match v.sequence? with
  | some (.str tag :: operands) => some (tag, operands)
  | _ => none

/-- Whether a value is an array form. -/
def isArrayForm (v : Value) : Bool := v.arrayForm?.isSome

/-- Whether a value is a node or an array form. -/
def isNodeLike : Value → Bool
  | node .. => true
  | v => v.isArrayForm

/-- The tag of a node or an array form. -/
def tag? : Value → Option String
  | node tag .. => some tag
  | v => v.arrayForm?.map (·.1)

/-- The operands by position of a node, or those after the head of a sequence. -/
def operands : Value → List Value
  | node _ args _ => args
  | v => (v.sequence?.getD []).tail

end Value

/-! ## From values to nodes -/

/-- Why a value stands for no node. -/
inductive Malformed where
  /-- A map has no type.  Its keys are given in order. -/
  | untyped (keys : List Value)
  /-- A map has no type, and its keys have no order. -/
  | unordered (later earlier : String)
  /-- A type is not a text. -/
  | badType (type : Value)
  /-- The value has none of the three shapes. -/
  | notNode (v : Value)

/-- The wording of a cause. -/
def Malformed.message : Malformed → String
  | untyped keys => "hash-form node has no 'type' key: " ++ Value.display (.list keys)
  | unordered later earlier =>
    "'<' not supported between instances of '" ++ later ++ "' and '" ++ earlier ++ "'"
  | badType type => "node type must be a string, got " ++ type.display
  | notNode v => "not an AST node: " ++ v.display

namespace Node

/-- The tag a type stands for. -/
def tagOf : Value → Except Malformed String
  | .str type => .ok (tagOfType type)
  | type => .error (.badType type)

/-- The operands of a name.  A sequence that stands alone is spread. -/
def nameOperands (operands : List Value) : List Value :=
  match operands with
  | [v] => v.sequence?.getD operands
  | _ => operands

/-- The node of an array form. -/
def ofArray (tag : String) (operands : List Value) : Node :=
  if tag = Keyword.name.tag then { tag, args := nameOperands operands }
  else if tag = Keyword.aliased.tag then
    { tag, fields := [(.str "ident", operands.headD .null),
        (.str "as", operands.tail.headD .null)] }
  else { tag, args := operands }

/-- The cause reported for a map without a type. -/
def untyped (entries : Fields) : Malformed :=
  match Value.ordered (entries.map (·.1)) with
  | .ok keys => .untyped keys
  | .error (later, earlier) => .unordered later earlier

/-- The node of a hash form. -/
def ofMap (default? : Option String) (entries : Fields) : Except Malformed Node :=
  let type := entries.get "type"
  let fields := entries.without "type"
  if type.isBlank then
    match default? with
    | some tag => .ok { tag := tagOfType tag, fields }
    | none => .error (untyped entries)
  else (tagOf type).map fun tag => { tag, fields }

/-- The node a value stands for. -/
def ofValue (v : Value) (default? : Option String := none) : Except Malformed Node :=
  match v with
  | .node tag args fields => .ok { tag, args, fields }
  | .map entries => ofMap default? entries
  | v => match v.arrayForm? with
    | some (tag, operands) => .ok (ofArray tag operands)
    | none => .error (.notNode v)

/-- A node stands for itself, whatever the default. -/
@[simp] theorem ofValue_toValue (n : Node) (default? : Option String) :
    ofValue n.toValue default? = .ok n := rfl

end Node

end QueryTree
