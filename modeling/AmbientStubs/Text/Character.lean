import AmbientStubs.Text.Letter
import AmbientStubs.Text.Mark

/-!
Character classes, and the numbers that digits stand for.  Sources are read as full Unicode
text: white space, word characters, alphanumeric characters and upper case follow the character
standard, and the ASCII classes are the ones that member chains and reference counts are made of.
-/

namespace AmbientStubs.Text

def isAsciiLower (character : Char) : Bool :=
  'a' ≤ character && character ≤ 'z'

def isAsciiUpper (character : Char) : Bool :=
  'A' ≤ character && character ≤ 'Z'

def isAsciiLetter (character : Char) : Bool :=
  isAsciiLower character || isAsciiUpper character

def isAsciiDigit (character : Char) : Bool :=
  '0' ≤ character && character ≤ '9'

def isAsciiAlphanumeric (character : Char) : Bool :=
  isAsciiLetter character || isAsciiDigit character

/-- Below U+0080, where the tables say nothing. -/
def isAscii (character : Char) : Bool :=
  decide (character.toNat < 0x80)

def blankTable : CodeTable :=
  [(0x09, 0x0D), (0x20, 0x20), (0x85, 0x85), (0xA0, 0xA0), (0x1680, 0x1680),
   (0x2000, 0x200A), (0x2028, 0x2029), (0x202F, 0x202F), (0x205F, 0x205F),
   (0x3000, 0x3000)]

/-- White space.  The byte-order mark and the zero-width space are not blank. -/
def isBlank (character : Char) : Bool :=
  blankTable.holds character

def isLetter (character : Char) : Bool :=
  if isAscii character then isAsciiLetter character
  else letterTable.holds character

def isAlphabetic (character : Char) : Bool :=
  isLetter character ||
    !isAscii character &&
      (alphabeticMarkTable.holds character || letterSymbolTable.holds character)

def isDecimalDigit (character : Char) : Bool :=
  if isAscii character then isAsciiDigit character
  else decimalDigitTable.holds character

def isMark (character : Char) : Bool :=
  nonspacingMarkTable.holds character || spacingMarkTable.holds character ||
    enclosingMarkTable.holds character

def isConnector (character : Char) : Bool :=
  character == '_' || connectorTable.holds character

def isJoiner (character : Char) : Bool :=
  character == '\u200c' || character == '\u200d'

/-- A character that words are made of: alphabetic characters, marks, decimal digits,
connector punctuation and the joiners, as far as edition 16 has them. -/
def isWord (character : Char) : Bool :=
  if isAscii character then isAsciiAlphanumeric character || character == '_'
  else
    (isAlphabetic character || isMark character || isDecimalDigit character ||
      isConnector character || isJoiner character) && !wordsNewIn17.holds character

/-- A character of an identifier in an import clause. -/
def isIdentifier (character : Char) : Bool :=
  isWord character || character == '$'

def isAlphanumeric (character : Char) : Bool :=
  isAlphabetic character || isDecimalDigit character ||
    !isAscii character && otherNumberTable.holds character

def isUppercase (character : Char) : Bool :=
  if isAscii character then isAsciiUpper character
  else
    uppercaseTable.holds character ||
      alternatingUppercaseTable.holdsAlternating character

def hexValue? (character : Char) : Option Nat :=
  if isAsciiDigit character then some (character.toNat - '0'.toNat)
  else if 'a' ≤ character ∧ character ≤ 'f' then some (character.toNat - 'a'.toNat + 10)
  else if 'A' ≤ character ∧ character ≤ 'F' then some (character.toNat - 'A'.toNat + 10)
  else none

def isHexDigit (character : Char) : Bool :=
  (hexValue? character).isSome

/-- The value of exactly the given number of hexadecimal digits, continuing a value. -/
def hexDigits? (digits : Nat) (value : Nat) (text : List Char) : Option (Nat × List Char) :=
  match digits, text with
  | 0, _ => some (value, text)
  | _ + 1, [] => none
  | digits + 1, character :: rest => do
      hexDigits? digits (16 * value + (← hexValue? character)) rest

/-- The number that digits of the given base stand for; the digits are hexadecimal ones. -/
def numberOfDigits (base : Nat) (digits : List Char) : Nat :=
  digits.foldl (fun value digit => base * value + (hexValue? digit).getD 0) 0

def withoutTrailingZeros (digits : List Char) : List Char :=
  (digits.reverse.dropWhile (· == '0')).reverse

def paddedDigits (width number : Nat) : List Char :=
  let digits := Nat.toDigits 10 number
  List.replicate (width - digits.length) '0' ++ digits

/-- The integers of the formats read here have 64 bits with sign: they lie below this
number, `2 ^ 63`, and not below its negative. -/
def integerBound : Nat := 0x8000000000000000

end AmbientStubs.Text
