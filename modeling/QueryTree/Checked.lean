import QueryTree.Error

/-!
# Checked fields

A record is read from a map field by field.  Each field is checked on its own,
and the reading fails with the errors of all fields, in the order of the fields.
An error gives the path to the field and what is wrong there (`FieldFault`).

`Checked` is a value or errors.  Two checked values are combined side by side, so
no error hides another.
-/

namespace QueryTree

/-- What is wrong with a field. -/
inductive FieldFault where
  /-- Not a text. -/
  | notText
  /-- Bytes that encode no text. -/
  | notEncoded
  /-- Not a truth value. -/
  | notBoolean
  /-- A text or a number that is no truth value. -/
  | unclearBoolean
  /-- Not a pair. -/
  | notPair
  /-- More items than a pair has. -/
  | tooManyItems (count : Nat)
  /-- A field or an item is not there. -/
  | missing
  /-- Not a map. -/
  | notMap
  /-- Not a whole number. -/
  | notInteger
  /-- A text that is no whole number. -/
  | unclearInteger
  /-- A number that is not whole. -/
  | fractional
  /-- A number without magnitude. -/
  | notFinite
  /-- A number too large to be read as a whole one. -/
  | tooLarge
  /-- A priority table that does not rank these connectives. -/
  | unranked (names : List String)
  /-- A field that cannot be assigned. -/
  | frozen
deriving DecidableEq, Repr

namespace FieldFault

/-- The code of a fault. -/
def code : FieldFault → String
  | notText => "string_type"
  | notEncoded => "string_unicode"
  | notBoolean => "bool_type"
  | unclearBoolean => "bool_parsing"
  | notPair => "tuple_type"
  | tooManyItems _ => "too_long"
  | missing => "missing"
  | notMap => "dict_type"
  | notInteger => "int_type"
  | unclearInteger => "int_parsing"
  | fractional => "int_from_float"
  | notFinite => "finite_number"
  | tooLarge => "int_parsing_size"
  | unranked _ => "value_error"
  | frozen => "frozen_instance"

/-- The wording of a fault. -/
def message : FieldFault → String
  | notText => "Input should be a valid string"
  | notEncoded =>
    "Input should be a valid string, unable to parse raw data as a unicode string"
  | notBoolean => "Input should be a valid boolean"
  | unclearBoolean => "Input should be a valid boolean, unable to interpret input"
  | notPair => "Input should be a valid tuple"
  | tooManyItems count =>
    "Tuple should have at most 2 items after validation, not " ++ toString count
  | missing => "Field required"
  | notMap => "Input should be a valid dictionary"
  | notInteger => "Input should be a valid integer"
  | unclearInteger => "Input should be a valid integer, unable to parse string as an integer"
  | fractional => "Input should be a valid integer, got a number with a fractional part"
  | notFinite => "Input should be a finite number"
  | tooLarge => "Unable to parse input string as an integer, exceeded maximum size"
  | unranked names =>
    "Value error, priority table is missing " ++ Value.display (.list (names.map .str))
  | frozen => "Instance is frozen"

end FieldFault

/-- A fault with the path to its field. -/
structure FieldError where
  /-- The names and indices that lead to the field. -/
  path : List String
  /-- What is wrong there. -/
  fault : FieldFault
deriving DecidableEq, Repr

/-- A value, or what is wrong with its fields. -/
inductive Checked (α : Type) where
  /-- The value. -/
  | valid (a : α)
  /-- The errors, in order. -/
  | invalid (errors : List FieldError)

namespace Checked

/-- A function and its argument, checked side by side. -/
def apply {α β : Type} : Checked (α → β) → Checked α → Checked β
  | valid f, valid a => valid (f a)
  | valid _, invalid errors => invalid errors
  | invalid errors, valid _ => invalid errors
  | invalid first, invalid second => invalid (first ++ second)

instance : Applicative Checked where
  pure := valid
  seq f x := apply f (x ())

/-- One error. -/
def error {α : Type} (path : List String) (fault : FieldFault) : Checked α :=
  invalid [⟨path, fault⟩]

/-- Items checked one by one. -/
def each {α β : Type} (f : α → Checked β) : List α → Checked (List β)
  | [] => valid []
  | a :: rest => List.cons <$> f a <*> each f rest

/-- The text that some bytes encode in UTF-8. -/
def decoded? (bs : List UInt8) : Option String := String.fromUTF8? ⟨bs.toArray⟩

/-- A text.  Bytes stand for the text they encode. -/
def text (path : List String) : Value → Checked String
  | .str s => valid s
  | .bytes bs =>
    match decoded? bs with
    | some s => valid s
    | none => error path .notEncoded
  | _ => error path .notText

end Checked

/-! ## Issues as records -/

namespace Issue

/-- A field that has to be a text. -/
def textField (fields : Fields) (key : String) : Checked String :=
  match fields.get? key with
  | some v => .text [key] v
  | none => .error [key] .missing

/-- A field that may be a text or null, or left out. -/
def optionalTextField (fields : Fields) (key : String) : Checked (Option String) :=
  match fields.get key with
  | .null => .valid none
  | v => some <$> Checked.text [key] v

/-- An issue from the fields of a record. -/
def ofFields (fields : Fields) : Checked Issue :=
  Issue.mk <$> textField fields "code" <*> textField fields "message"
    <*> optionalTextField fields "path"

/-- Issues from records.  The first record with errors is reported. -/
def ofRecords : List Fields → Except (List FieldError) (List Issue)
  | [] => .ok []
  | fields :: rest =>
    match ofFields fields with
    | .valid issue => (ofRecords rest).map (issue :: ·)
    | .invalid errors => .error errors

end Issue

end QueryTree
