import AmbientStubs.JsonValue.Token

/-!
Reading JSON5 text as a value.  A comma may follow the last element or member, and of
repeated keys the first gives the place and the last the value.
-/

namespace AmbientStubs.JsonValue

def namedValue? : String → Option JsonValue
  | "null" => some null
  | "true" => some (boolean true)
  | "false" => some (boolean false)
  | "Infinity" => some null
  | "NaN" => some null
  | _ => none

def keyOf? : Token → Option String
  | .text value => some value
  | .name value _ => some value
  | _ => none

mutual

/-- Read a value.  Of two successive steps at least one takes a token, so twice the number
of tokens bounds the steps. -/
def readValue? (steps : Nat) (tokens : List Token) : Option (JsonValue × List Token) :=
  match steps with
  | 0 => none
  | steps + 1 =>
      match tokens with
      | .text value :: rest => some (text value, rest)
      | .number value :: rest => some (value, rest)
      | .name value true :: rest => do some (← namedValue? value, rest)
      | .openBracket :: .closeBracket :: rest => some (list [], rest)
      | .openBracket :: rest => do
          let (elements, rest) ← readElements? steps rest
          some (list elements, rest)
      | .openBrace :: .closeBrace :: rest => some (object [], rest)
      | .openBrace :: rest => do
          let (members, rest) ← readMembers? steps [] rest
          some (object members, rest)
      | _ => none

def readElements? (steps : Nat) (tokens : List Token) :
    Option (List JsonValue × List Token) :=
  match steps with
  | 0 => none
  | steps + 1 => do
      let (value, rest) ← readValue? steps tokens
      match rest with
      | .closeBracket :: rest => some ([value], rest)
      | .comma :: .closeBracket :: rest => some ([value], rest)
      | .comma :: rest => do
          let (elements, rest) ← readElements? steps rest
          some (value :: elements, rest)
      | _ => none

def readMembers? (steps : Nat) (before : List (String × JsonValue)) (tokens : List Token) :
    Option (List (String × JsonValue) × List Token) :=
  match steps with
  | 0 => none
  | steps + 1 =>
      match tokens with
      | key :: .colon :: rest => do
          let key ← keyOf? key
          let (value, rest) ← readValue? steps rest
          let members := setMember key value before
          match rest with
          | .closeBrace :: rest => some (members, rest)
          | .comma :: .closeBrace :: rest => some (members, rest)
          | .comma :: rest => readMembers? steps members rest
          | _ => none
      | _ => none

end

/-- The value of a text, if all of the text is one value. -/
def ofText? (content : String) : Option JsonValue := do
  let tokens ← Token.ofText? content.toList
  match ← readValue? (2 * tokens.length + 1) tokens with
  | (value, []) => some value
  | (_, _ :: _) => none

end AmbientStubs.JsonValue
