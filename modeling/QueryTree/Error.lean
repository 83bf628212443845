import QueryTree.Node

/-!
# Rendering errors

A tree is refused for one of a few kinds of causes.  A *fault* is a clause that
is missing or has the wrong shape.  The other causes are a tag that no table
has, an operator without a token, a join with two conditions or none, and a
priority table that does not rank a connective.

An *issue* is a fault of a statement, found before anything of it is rendered.
One fault may carry several.

The wording of every cause is in `Fault.message` and `RenderError.message`.
-/

namespace QueryTree

/-! ## Issues -/

/-- One problem found in the shape of a statement. -/
structure Issue where
  /-- The kind of problem. -/
  code : String
  /-- The wording. -/
  message : String
  /-- The place in the statement. -/
  path : Option String

namespace Issue

/-- A clause that a statement needs is missing or is no tree. -/
def missing (key statement : String) : Issue :=
  ⟨"MISSING_CLAUSE", key ++ " key is required (and must be an AST) to " ++ statement, some key⟩

/-- A clause is not a list. -/
def notList (key tag : String) : Issue :=
  ⟨"WRONG_TAG", key ++ " key should be a -list AST, not " ++ tag, some key⟩

/-- A clause is not a sequence. -/
def notSequence (key : String) : Issue :=
  ⟨"WRONG_SHAPE", key ++ " must be a sequence", some key⟩

/-- An insert has more columns than values, or fewer. -/
def arity (columns values : Nat) : Issue :=
  ⟨"ARITY_MISMATCH",
    "insert has " ++ toString columns ++ " columns but " ++ toString values ++ " values",
    some "values"⟩

/-- An update has no assignments. -/
def noAssignments : Issue :=
  ⟨"MISSING_CLAUSE", "set key is required (a non-empty sequence of pairs) to update", some "set"⟩

/-- An assignment of an update is no pair of trees. -/
def notPair (index : Nat) : Issue :=
  let place := "set[" ++ toString index ++ "]"
  ⟨"WRONG_SHAPE", place ++ " must be a (name, value) pair of ASTs", some place⟩

/-- A statement has another type than the one asked for. -/
def otherType (tag expected : String) : Issue :=
  ⟨"WRONG_TAG", "type " ++ tag ++ " conflicts with " ++ expected, some "type"⟩

end Issue

/-! ## Faults -/

/-- A clause that is missing or has the wrong shape. -/
inductive Fault where
  /-- A value stands for no node. -/
  | malformed (cause : Malformed)
  /-- A statement has another type than the one asked for. -/
  | otherType (tag expected : String)
  /-- Issues found in a statement. -/
  | issues (found : List Issue)
  /-- An alias lacks its tree or its name. -/
  | aliasIncomplete
  /-- A value node has no literal or several. -/
  | literalCount (count : Nat)
  /-- An operator has not two operands. -/
  | operandCount (op : String) (count : Nat)
  /-- A membership test has no field. -/
  | fieldMissing (tag : String)
  /-- A join is not a map. -/
  | joinNotMap
  /-- A join has no table. -/
  | joinWithoutTable
  /-- A select's join is neither a join nor a sequence of joins. -/
  | joinNotTree
  /-- The items of an ordering or a grouping are no sequence. -/
  | itemsNotSequence (key : String)
  /-- A direction has not one expression. -/
  | directionOperands (tag : String)
  /-- The conditions are no sequence. -/
  | conditionsNotSequence (v : Value)
  /-- A condition is neither a node nor a sequence. -/
  | notCondition (v : Value)
  /-- A name has no segments. -/
  | nameEmpty
  /-- A segment of a name is not a text. -/
  | segmentNotText (v : Value)
  /-- A star stands before the last segment of a name. -/
  | starNotLast (segments : List String)

namespace Fault

/-- The wording of a fault. -/
def message : Fault → String
  | malformed cause => cause.message
  | otherType tag expected => "cannot render a '" ++ tag ++ "' node as '" ++ expected ++ "'"
  | issues found => "; ".intercalate (found.map (·.message))
  | aliasIncomplete => "alias node requires both 'ident' and 'as'"
  | literalCount count => "value node takes exactly one literal, got " ++ toString count
  | operandCount op count =>
    "binary operator '" ++ op ++ "' takes two operands, got " ++ toString count
  | fieldMissing tag => "'" ++ tag ++ "' requires a field to test"
  | joinNotMap => "join must be a mapping with 'tablespec' and 'on' or 'using'"
  | joinWithoutTable => "join requires a 'tablespec'"
  | joinNotTree => "join option is not an AST"
  | itemsNotSequence key => "'" ++ key ++ "' must be a sequence of expressions"
  | directionOperands tag => "'" ++ tag ++ "' takes exactly one expression"
  | conditionsNotSequence v => "where clause must be a sequence, not " ++ v.display
  | notCondition v => "invalid component in where clause: " ++ v.display
  | nameEmpty => "name node requires at least one segment"
  | segmentNotText v => "name segment must be a string, not " ++ v.display
  | starNotLast segments =>
    "'*' is only allowed as the last name segment: " ++ Value.display (.list (segments.map .str))

/-- The issues a fault carries. -/
def issueList : Fault → List Issue
  | issues found => found
  | otherType tag expected => [.otherType tag expected]
  | _ => []

end Fault

/-! ## Errors -/

/-- Why a tree is not rendered. -/
inductive RenderError where
  /-- A clause is missing or has the wrong shape. -/
  | structural (fault : Fault)
  /-- No table entry for an operation. -/
  | unknownTag (tag : String) (inConditions : Bool)
  /-- No table entry for a bare operator. -/
  | unknownOperator (op : String)
  /-- An operator has a table entry and no token. -/
  | unmappedOperator (op : String)
  /-- A join has both conditions and columns. -/
  | joinConditionTwice
  /-- A join has neither conditions nor columns. -/
  | joinConditionMissing
  /-- The priority table does not rank a connective. -/
  | unranked (connective : Connective)
  /-- The tree is nested deeper than it has values, which no tree is. -/
  | tooDeep

namespace RenderError

/-- The wording of an error. -/
def message : RenderError → String
  | structural fault => fault.message
  | unknownTag tag inConditions =>
    "'" ++ tag ++ "' is not a valid clause in " ++ (if inConditions then "a where AST" else "an AST")
  | unknownOperator op => "'" ++ op ++ "' is not a valid operator"
  | unmappedOperator op => "Unknown binary operator " ++ op
  | joinConditionTwice => "join accepts only one of 'on' or 'using', got both"
  | joinConditionMissing => "No 'on' or 'using' clause passed to join"
  | unranked connective => Text.quoted connective.name
  | tooDeep => "tree nested too deep"

end RenderError

end QueryTree
