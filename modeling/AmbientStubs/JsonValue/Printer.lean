import AmbientStubs.Binary64.Shortest
import AmbientStubs.JsonValue

/-!
Printing of JSON values with two spaces of indentation per level, one member or element
per line.
-/

namespace AmbientStubs.JsonValue

def hexDigit (value : Nat) : Char :=
  (Nat.toDigits 16 value).headD '0'

def escaped (character : Char) : List Char :=
  if character = '"' then ['\\', '"']
  else if character = '\\' then ['\\', '\\']
  else if character = '\x08' then ['\\', 'b']
  else if character = '\x0c' then ['\\', 'f']
  else if character = '\n' then ['\\', 'n']
  else if character = '\r' then ['\\', 'r']
  else if character = '\t' then ['\\', 't']
  else if character.toNat < 0x20 then
    ['\\', 'u', '0', '0', hexDigit (character.toNat / 16), hexDigit (character.toNat % 16)]
  else [character]

def quoted (text : String) : List Char :=
  '"' :: text.toList.flatMap escaped ++ ['"']

/-- Digits written positionally: the first digit stands for the given power of ten. -/
def positional (digits : List Char) (first : Int) : List Char :=
  if first < 0 then
    ['0', '.'] ++ List.replicate (-first - 1).toNat '0' ++ digits
  else
    let whole := first.toNat + 1
    if digits.length ≤ whole then
      digits ++ List.replicate (whole - digits.length) '0' ++ ['.', '0']
    else digits.take whole ++ ['.'] ++ digits.drop whole

/-- Digits written with an exponent, which always carries its sign. -/
def exponential (digits : List Char) (first : Int) : List Char :=
  let fraction := digits.drop 1
  digits.take 1 ++ (if fraction.isEmpty then [] else '.' :: fraction) ++ ['e'] ++
    [if first < 0 then '-' else '+'] ++ Nat.toDigits 10 first.natAbs

/-- The text of a double: its shortest digits, positionally from `1e-5` up to below `1e16`
and with an exponent elsewhere. -/
def doubleText (number : Binary64) : List Char :=
  let (digits, first) :=
    if number.significand = 0 then (['0'], 0) else number.shortest
  (if number.negative then ['-'] else []) ++
    if -5 ≤ first ∧ first < 16 then positional digits first else exponential digits first

def integerText (value : Int) : List Char :=
  (if value < 0 then ['-'] else []) ++ Nat.toDigits 10 value.natAbs

def breakOnto (depth : Nat) (rest : List Char) : List Char :=
  '\n' :: List.replicate (2 * depth) ' ' ++ rest

def keyOnto (key : String) (rest : List Char) : List Char :=
  quoted key ++ ':' :: ' ' :: rest

mutual

/-- The text of a value inside the given number of lists and objects, in front of the
text that follows it. -/
def printOnto (depth : Nat) (value : JsonValue) (rest : List Char) : List Char :=
  match value with
  | null => "null".toList ++ rest
  | boolean true => "true".toList ++ rest
  | boolean false => "false".toList ++ rest
  | integer value => integerText value ++ rest
  | double value => doubleText value ++ rest
  | text value => quoted value ++ rest
  | list [] => '[' :: ']' :: rest
  | list (first :: others) =>
      '[' :: breakOnto (depth + 1) (printOnto (depth + 1) first
        (elementsOnto (depth + 1) others (breakOnto depth (']' :: rest))))
  | object [] => '\x7b' :: '\x7d' :: rest
  | object ((key, value) :: others) =>
      '\x7b' :: breakOnto (depth + 1) (keyOnto key (printOnto (depth + 1) value
        (membersOnto (depth + 1) others (breakOnto depth ('\x7d' :: rest)))))

def elementsOnto (depth : Nat) (elements : List JsonValue) (rest : List Char) : List Char :=
  match elements with
  | [] => rest
  | value :: others =>
      ',' :: breakOnto depth (printOnto depth value (elementsOnto depth others rest))

def membersOnto (depth : Nat) (members : List (String × JsonValue)) (rest : List Char) :
    List Char :=
  match members with
  | [] => rest
  | (key, value) :: others =>
      ',' :: breakOnto depth (keyOnto key (printOnto depth value (membersOnto depth others rest)))

end

def pretty (value : JsonValue) : String :=
  String.ofList (printOnto 0 value [])

end AmbientStubs.JsonValue
