import QueryTree.Value

/-!
# Equality and order of keys

Two keys of a map are the same if they are equal as values.  Numbers are equal
by magnitude, whatever their kind, and truth values count as one and zero.

Keys are listed in order.  Texts and bytes are ordered by code, numbers by
magnitude, sequences of one kind by their first difference.  Values of other
kinds, or of two kinds, have no order, and listing them fails with the names of
the two kinds.
-/

namespace QueryTree

namespace Binary64

/-- A finite number as a signed numerator over a power of two. -/
def toFraction? : Binary64 → Option (Int × Nat)
  | .finite negative c e =>
    let parts := inUnits c 1 (-e)
    some (if negative then -(parts.1 : Int) else parts.1, parts.2)
  | _ => none

/-- Whether a number is below a whole number. -/
def ltInt (x : Binary64) (i : Int) : Bool :=
  match x with
  | .infinite negative => negative
  | x => match x.toFraction? with
    | some (n, d) => n < i * d
    | none => false

/-- Whether a whole number is below a number. -/
def intLt (i : Int) (x : Binary64) : Bool :=
  match x with
  | .infinite negative => !negative
  | x => match x.toFraction? with
    | some (n, d) => i * d < n
    | none => false

/-- Whether a number is below another. -/
def lt : Binary64 → Binary64 → Bool
  | .nan, _ => false
  | _, .nan => false
  | .infinite a, .infinite b => a && !b
  | .infinite a, _ => a
  | _, .infinite b => !b
  | x, y => match x.toFraction?, y.toFraction? with
    | some (n, d), some (m, e) => n * e < m * d
    | _, _ => false

end Binary64

namespace Value

/-- The whole number a truth value or a whole number counts as. -/
def asInt? : Value → Option Int
  | bool b => some (if b then 1 else 0)
  | int i => some i
  | _ => none

/-- Whether two numbers have one magnitude, and `none` if one is no number. -/
def sameNumber? (v w : Value) : Option Bool :=
  match v.asInt?, w.asInt?, v, w with
  | some i, some j, _, _ => some (i == j)
  | some i, none, _, float y => some (y.toInt? == some i)
  | none, some j, float x, _ => some (x.toInt? == some j)
  | none, none, float x, float y =>
    some (x == y && x != .nan || x.isZero && y.isZero)
  | _, _, _, _ => none

mutual

/-- Whether two keys are the same. -/
def same : Value → Value → Bool
  | null, null => true
  | str s, str t => s == t
  | bytes s, bytes t => s == t
  | tuple xs, tuple ys => sameItems xs ys
  | list xs, list ys => sameItems xs ys
  | v, w => (sameNumber? v w).getD false

/-- Whether the items of two keys are the same, one by one. -/
def sameItems : List Value → List Value → Bool
  | [], [] => true
  | v :: vs, w :: ws => same v w && sameItems vs ws
  | _, _ => false

end

/-- Whether a number is below another, and `none` if one is no number. -/
def numberLt? (v w : Value) : Option Bool :=
  match v.asInt?, w.asInt?, v, w with
  | some i, some j, _, _ => some (i < j)
  | some i, none, _, float y => some (Binary64.intLt i y)
  | none, some j, float x, _ => some (x.ltInt j)
  | none, none, float x, float y => some (x.lt y)
  | _, _, _, _ => none

/-- Whether bytes come before others. -/
def bytesLt : List UInt8 → List UInt8 → Bool
  | _, [] => false
  | [], _ :: _ => true
  | b :: bs, c :: cs => b < c || b == c && bytesLt bs cs

mutual

/-- Whether a key comes before another, or the kinds that have no order. -/
def before : Value → Value → Except (String × String) Bool
  | str s, str t => .ok (s < t)
  | bytes s, bytes t => .ok (bytesLt s t)
  | tuple xs, tuple ys => itemsBefore xs ys
  | list xs, list ys => itemsBefore xs ys
  | v, w => match numberLt? v w with
    | some answer => .ok answer
    | none => .error (v.kind, w.kind)

/-- Whether a sequence comes before another by its first difference. -/
def itemsBefore : List Value → List Value → Except (String × String) Bool
  | _, [] => .ok false
  | [], _ :: _ => .ok true
  | v :: vs, w :: ws => if same v w then itemsBefore vs ws else before v w

end

/-- A key put into its place among ordered keys. -/
def insertOrdered (v : Value) : List Value → Except (String × String) (List Value)
  | [] => .ok [v]
  | w :: ws =>
    match before v w with
    | .error kinds => .error kinds
    | .ok true => .ok (v :: w :: ws)
    | .ok false => (insertOrdered v ws).map (w :: ·)

/-- The keys in order. -/
def ordered (keys : List Value) : Except (String × String) (List Value) :=
  keys.foldlM (fun done v => insertOrdered v done) []

end Value

namespace Fields

/-- The entries with any key set.  A key that is there keeps its place. -/
def enter (fields : Fields) (key v : Value) : Fields :=
  match fields with
  | [] => [(key, v)]
  | (k, w) :: rest => if k.same key then (k, v) :: rest else (k, w) :: enter rest key v

end Fields

end QueryTree
