import AmbientStubs.Binary64

/-!
JSON values with ordered objects.  Integers and doubles are kept apart, because they are
written differently.
-/

namespace AmbientStubs

inductive JsonValue where
  | null
  | boolean (value : Bool)
  | integer (value : Int)
  | double (value : Binary64)
  | text (value : String)
  | list (elements : List JsonValue)
  /-- Members with distinct keys, in the order they are written. -/
  | object (members : List (String × JsonValue))

namespace JsonValue

/-- Set a member of an object.  A key that is there keeps its place and takes the new
value; a new key comes last. -/
def setMember (key : String) (value : JsonValue) :
    List (String × JsonValue) → List (String × JsonValue)
  | [] => [(key, value)]
  | (present, old) :: rest =>
      if present = key then (present, value) :: rest
      else (present, old) :: setMember key value rest

def member? (key : String) (members : List (String × JsonValue)) : Option JsonValue :=
  (members.find? fun entry => entry.1 == key).map (·.2)

def members? : JsonValue → Option (List (String × JsonValue))
  | object members => some members
  | _ => none

def texts (values : List String) : JsonValue :=
  list (values.map text)

def textOrNull : Option String → JsonValue
  | some value => text value
  | none => null

def count (number : Nat) : JsonValue :=
  integer number

end JsonValue

end AmbientStubs
