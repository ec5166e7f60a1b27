import AmbientStubs.Binary64
import AmbientStubs.Text.Line

/-!
Texts and numbers of TOML.  A reader returns the rest of the text after the
longest value it recognises; what may follow a value is checked elsewhere.
-/

namespace AmbientStubs.Toml

open Text

def isSpace (character : Char) : Bool :=
  character == ' ' || character == '\t'

def afterSpaces (text : List Char) : List Char :=
  text.dropWhile isSpace

def newline? : List Char → Option (List Char)
  | '\n' :: rest => some rest
  | '\r' :: '\n' :: rest => some rest
  | _ => none

/-- Characters that may stand in comments and texts: no control characters but the tab. -/
def isPrintable (character : Char) : Bool :=
  character == '\t' || (decide (0x20 ≤ character.toNat) && character.toNat != 0x7F)

def isPlain (character : Char) : Bool :=
  isPrintable character && character != '"' && character != '\\'

def isScalarValue (code : Nat) : Bool :=
  decide (code < 0xD800) || (decide (0xE000 ≤ code) && decide (code < 0x110000))

def escape? : List Char → Option (Char × List Char)
  | 'b' :: rest => some ('\x08', rest)
  | 't' :: rest => some ('\t', rest)
  | 'n' :: rest => some ('\n', rest)
  | 'f' :: rest => some ('\x0c', rest)
  | 'r' :: rest => some ('\r', rest)
  | '"' :: rest => some ('"', rest)
  | '\\' :: rest => some ('\\', rest)
  | 'u' :: rest => codePoint? 4 rest
  | 'U' :: rest => codePoint? 8 rest
  | _ => none
where
  codePoint? (digits : Nat) (text : List Char) : Option (Char × List Char) := do
    let (code, rest) ← hexDigits? digits 0 text
    if isScalarValue code then some (Char.ofNat code, rest) else none

/-- A text on one line after its opening double quote.  Every step reads a character. -/
def basicText? (steps : Nat) (text : List Char) : Option (List Char × List Char) :=
  match steps, text with
  | 0, _ => none
  | _ + 1, [] => none
  | _ + 1, '"' :: rest => some ([], rest)
  | steps + 1, '\\' :: rest => do
      let (character, rest) ← escape? rest
      let (characters, rest) ← basicText? steps rest
      some (character :: characters, rest)
  | steps + 1, character :: rest =>
      if isPlain character then do
        let (characters, rest) ← basicText? steps rest
        some (character :: characters, rest)
      else none

def literalText? : List Char → Option (List Char × List Char)
  | [] => none
  | '\'' :: rest => some ([], rest)
  | character :: rest =>
      if isPrintable character then do
        let (characters, rest) ← literalText? rest
        some (character :: characters, rest)
      else none

/-- The text after line endings and spaces, of which the first is a line ending. -/
def afterBlankLines? (steps : Nat) (text : List Char) : Option (List Char) := do
  let rest ← newline? (afterSpaces text)
  match steps with
  | 0 => some (afterSpaces rest)
  | steps + 1 => some ((afterBlankLines? steps rest).getD (afterSpaces rest))

/-- The quotes that end a text on several lines: three of them, with up to two more that
belong to the text. -/
def closingQuotes? (quote : Char) (text : List Char) : Option (List Char × List Char) :=
  let quotes := (text.takeWhile (· == quote)).length
  if quotes < 3 then none
  else
    let inside := min (quotes - 3) 2
    some (List.replicate inside quote, text.drop (inside + 3))

/-- A text on several lines after its opening quotes.  Line endings become line feeds; an
escape at the end of a line swallows all blanks up to the next character. -/
def longBasicText? (steps : Nat) (text : List Char) : Option (List Char × List Char) :=
  match steps with
  | 0 => none
  | steps + 1 =>
      match closingQuotes? '"' text with
      | some found => some found
      | none =>
          match newline? text with
          | some rest => more '\n' steps rest
          | none =>
              match text with
              | [] => none
              | '\\' :: rest =>
                  match afterBlankLines? rest.length rest with
                  | some rest => longBasicText? steps rest
                  | none => do
                      let (character, rest) ← escape? rest
                      more character steps rest
              | character :: rest =>
                  if isPlain character || character == '"' then more character steps rest
                  else none
where
  more (character : Char) (steps : Nat) (rest : List Char) : Option (List Char × List Char) := do
    let (characters, rest) ← longBasicText? steps rest
    some (character :: characters, rest)

def longLiteralText? (steps : Nat) (text : List Char) : Option (List Char × List Char) :=
  match steps with
  | 0 => none
  | steps + 1 =>
      match closingQuotes? '\'' text with
      | some found => some found
      | none => do
          let (character, rest) ← match newline? text, text with
            | some rest, _ => some ('\n', rest)
            | none, [] => none
            | none, character :: rest =>
                if isPrintable character then some (character, rest) else none
          let (characters, rest) ← longLiteralText? steps rest
          some (character :: characters, rest)

def afterFirstNewline (text : List Char) : List Char :=
  (newline? text).getD text

def text? (text : List Char) : Option (List Char × List Char) :=
  match literal? "\"\"\"" text, literal? "'''" text, text with
  | some rest, _, _ => longBasicText? (text.length + 1) (afterFirstNewline rest)
  | _, some rest, _ => longLiteralText? (text.length + 1) (afterFirstNewline rest)
  | _, _, '"' :: rest => basicText? (text.length + 1) rest
  | _, _, '\'' :: rest => literalText? rest
  | _, _, _ => none

/-- Further digits, each perhaps after one underscore. -/
def moreDigits (isDigit : Char → Bool) : List Char → List Char × List Char
  | [] => ([], [])
  | '_' :: digit :: rest =>
      if isDigit digit then
        let (digits, rest) := moreDigits isDigit rest
        (digit :: digits, rest)
      else ([], '_' :: digit :: rest)
  | digit :: rest =>
      if isDigit digit then
        let (digits, rest) := moreDigits isDigit rest
        (digit :: digits, rest)
      else ([], digit :: rest)

def digits? (isDigit : Char → Bool) : List Char → Option (List Char × List Char)
  | [] => none
  | digit :: rest =>
      if isDigit digit then
        let (digits, rest) := moreDigits isDigit rest
        some (digit :: digits, rest)
      else none

def sign : List Char → Bool × List Char
  | '-' :: rest => (true, rest)
  | '+' :: rest => (false, rest)
  | rest => (false, rest)

/-- An integer in another base after its two-character mark; it fits 64 bits with sign. -/
def basedInteger? (mark : String) (base : Nat) (isDigit : Char → Bool) (text : List Char) :
    Option (List Char) := do
  let rest ← literal? mark text
  let (digits, rest) ← digits? isDigit rest
  if numberOfDigits base digits < integerBound then some rest else none

def exponent? (text : List Char) : Option (Int × List Char) := do
  let rest ← (literal? "e" text).or (literal? "E" text)
  let (negative, rest) := sign rest
  let (digits, rest) ← digits? isAsciiDigit rest
  let value : Int := numberOfDigits 10 digits
  some (if negative then -value else value, rest)

def fraction? (text : List Char) : Option (List Char × List Char) := do
  let rest ← literal? "." text
  digits? isAsciiDigit rest

/-- The whole part of a number: a zero, or digits that do not start with one. -/
def wholePart? : List Char → Option (List Char × List Char)
  | '0' :: rest => some (['0'], rest)
  | other => digits? isAsciiDigit other

/-- A decimal number.  An integer fits 64 bits; a positive number with point or exponent
is not too large for a double. -/
def decimal? (text : List Char) : Option (List Char) := do
  let (negative, rest) := sign text
  let (whole, rest) ← wholePart? rest
  let float (digits : List Char) (power : Int) (rest : List Char) : Option (List Char) :=
    if negative || (Binary64.nearest? false (numberOfDigits 10 digits) power).isSome then some rest
    else none
  match fraction? rest with
  | some (digits, rest) =>
      let (power, rest) := (exponent? rest).getD (0, rest)
      float (whole ++ digits) (power - (digits.length : Int)) rest
  | none =>
      match exponent? rest with
      | some (power, rest) => float whole power rest
      | none =>
          let value := numberOfDigits 10 whole
          if value < integerBound ∨ (negative ∧ value = integerBound) then some rest else none

def specialFloat? (text : List Char) : Option (List Char) :=
  let rest := (sign text).2
  (literal? "inf" rest).or (literal? "nan" rest)

def number? (text : List Char) : Option (List Char) :=
  match literal? "0x" text, literal? "0o" text, literal? "0b" text with
  | none, none, none => (specialFloat? text).or (decimal? text)
  | _, _, _ =>
      (basedInteger? "0x" 16 isHexDigit text).or
        ((basedInteger? "0o" 8 (fun digit => '0' ≤ digit && digit ≤ '7') text).or
          (basedInteger? "0b" 2 (fun digit => digit == '0' || digit == '1') text))

def boolean? (text : List Char) : Option (List Char) :=
  (literal? "true" text).or (literal? "false" text)

def scalar? (text : List Char) : Option (List Char) :=
  (number? text).or (boolean? text)

end AmbientStubs.Toml
