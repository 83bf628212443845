/-!
# Tags

The head of a node is its *tag*, a text.  A tag that begins with a hyphen names
an operation, such as `-select`.  Any other tag is a bare operator, such as `==`.

The built-in operations are the *keywords*.  The tags `-and` and `-or` head
groups of conditions, and `-asc` and `-desc` give the direction of a sort.
-/

namespace QueryTree

/-- The built-in operations. -/
inductive Keyword where
  | select
  | insert
  | update
  | delete
  | whereClause
  | orderBy
  | groupBy
  | join
  | list
  | aliased
  | name
  | value
  | isIn
  | notIn
  | always
  | never
  | and
  | or
  | asc
  | desc
deriving DecidableEq, Repr

namespace Keyword

/-- The tag of a keyword. -/
def tag : Keyword → String
  | select => "-select"
  | insert => "-insert"
  | update => "-update"
  | delete => "-delete"
  | whereClause => "-where"
  | orderBy => "-order_by"
  | groupBy => "-group_by"
  | join => "-join"
  | list => "-list"
  | aliased => "-alias"
  | name => "-name"
  | value => "-value"
  | isIn => "-in"
  | notIn => "-not_in"
  | always => "-true"
  | never => "-false"
  | and => "-and"
  | or => "-or"
  | asc => "-asc"
  | desc => "-desc"

/-- The symbol of a keyword, as the listing of a table shows it. -/
def symbol : Keyword → String
  | select => "SELECT"
  | insert => "INSERT"
  | update => "UPDATE"
  | delete => "DELETE"
  | whereClause => "WHERE"
  | orderBy => "ORDER_BY"
  | groupBy => "GROUP_BY"
  | join => "JOIN"
  | list => "LIST"
  | aliased => "ALIAS"
  | name => "NAME"
  | value => "VALUE"
  | isIn => "IN"
  | notIn => "NOT_IN"
  | always => "TRUE"
  | never => "FALSE"
  | and => "AND"
  | or => "OR"
  | asc => "ASC"
  | desc => "DESC"

end Keyword

/-- Whether a tag names an operation. -/
def isOperation (tag : String) : Bool := tag.toList.head? == some '-'

/-- The tag a type stands for.  The hyphen may be left out. -/
def tagOfType (type : String) : String := if isOperation type then type else "-" ++ type

/-! ## Groups of conditions -/

/-- How the conditions of a group are joined. -/
inductive Connective where
  | and
  | or
deriving DecidableEq, Repr

namespace Connective

/-- The lower case name, which is also its key among the priorities. -/
def name : Connective → String
  | and => "and"
  | or => "or"

/-- The tag that heads a group. -/
def tag : Connective → String
  | and => "-and"
  | or => "-or"

/-- The word between two conditions. -/
def word : Connective → String
  | and => "AND"
  | or => "OR"

/-- The connective a tag stands for. -/
def ofTag? (tag : String) : Option Connective :=
  if tag = "-and" then some and else if tag = "-or" then some or else none

@[simp] theorem ofTag?_tag (c : Connective) : ofTag? c.tag = some c := by
  cases c <;> rfl

end Connective

/-! ## Directions of a sort -/

/-- The direction of a sort. -/
inductive Direction where
  | asc
  | desc
deriving DecidableEq, Repr

namespace Direction

/-- The tag that carries a direction. -/
def tag : Direction → String
  | asc => "-asc"
  | desc => "-desc"

/-- The word after the expression. -/
def word : Direction → String
  | asc => "ASC"
  | desc => "DESC"

/-- The direction a tag stands for. -/
def ofTag? (tag : String) : Option Direction :=
  if tag = "-asc" then some asc else if tag = "-desc" then some desc else none

@[simp] theorem ofTag?_tag (d : Direction) : ofTag? d.tag = some d := by
  cases d <;> rfl

end Direction

end QueryTree
