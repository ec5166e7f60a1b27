import AmbientStubs.JsonValue
import AmbientStubs.Text.Line

/-!
Tokens of JSON5, the relaxed notation of manifests: comments, quotes of either kind,
identifiers as keys, hexadecimal integers, and signs and points in front of a number.
-/

namespace AmbientStubs.JsonValue

open Text

inductive Token where
  | openBrace
  | closeBrace
  | openBracket
  | closeBracket
  | colon
  | comma
  | text (value : String)
  | number (value : JsonValue)
  /-- An identifier; a plain one was written without escapes. -/
  | name (value : String) (plain : Bool)

namespace Token

def isLineTerminator (character : Char) : Bool :=
  character == '\n' || character == '\r' || character == '\u2028' || character == '\u2029'

def spaceTable : CodeTable :=
  [(0xA0, 0xA0), (0x1680, 0x1680), (0x2000, 0x200A), (0x202F, 0x202F), (0x205F, 0x205F),
   (0x3000, 0x3000), (0xFEFF, 0xFEFF)]

def isSpace (character : Char) : Bool :=
  character == '\t' || character == '\x0b' || character == '\x0c' || character == ' ' ||
    isLineTerminator character || spaceTable.holds character

/-- The text after a block comment whose opening was read; none if it is not closed. -/
def afterBlockComment? : List Char → Option (List Char)
  | [] => none
  | '*' :: '/' :: rest => some rest
  | _ :: rest => afterBlockComment? rest

/-- What a part of a quoted text stands for: a character, or a code unit written as a
`\u` escape. -/
inductive Piece where
  | character (value : Char)
  | unit (value : Nat)

/-- The code point of a pair of surrogates: ten bits from each, with the bit of weight
`0x10000` always set.  So only every second plane can be written as a pair. -/
def codeOfPair (leading trailing : Nat) : Nat :=
  let bits := (leading - 0xD800) * 0x400 + (trailing - 0xDC00)
  if bits / 0x10000 % 2 = 1 then bits else bits + 0x10000

/-- The pieces of a text from its escapes decoded: a leading surrogate has to be followed
at once by a trailing one, and no trailing surrogate stands alone. -/
def decode? : List Piece → Option (List Char)
  | [] => some []
  | .character value :: rest => do some (value :: (← decode? rest))
  | .unit value :: rest =>
      if 0xDC00 ≤ value ∧ value ≤ 0xDFFF then none
      else if 0xD800 ≤ value ∧ value ≤ 0xDBFF then
        match rest with
        | .unit trailing :: rest =>
            if 0xDC00 ≤ trailing ∧ trailing ≤ 0xDFFF then do
              some (Char.ofNat (codeOfPair value trailing) :: (← decode? rest))
            else none
        | _ => none
      else do some (Char.ofNat value :: (← decode? rest))

/-- The character that a single-character escape stands for; none for a digit, `x`, `u`
and line terminators. -/
def simpleEscape? (character : Char) : Option Char :=
  match character with
  | 'b' => some '\x08'
  | 'f' => some '\x0c'
  | 'n' => some '\n'
  | 'r' => some '\r'
  | 't' => some '\t'
  | 'v' => some '\x0b'
  | '0' => some '\x00'
  | 'x' => none
  | 'u' => none
  | other => if isAsciiDigit other || isLineTerminator other then none else some other

/-- An escape after its backslash: at most one piece, since a continued line stands for
nothing. -/
def escape? (text : List Char) : Option (List Piece × List Char) :=
  match text with
  | [] => none
  | 'x' :: rest => do
      let (value, rest) ← hexDigits? 2 0 rest
      some ([.character (Char.ofNat value)], rest)
  | 'u' :: rest => do
      let (value, rest) ← hexDigits? 4 0 rest
      some ([.unit value], rest)
  | '\r' :: '\n' :: rest => some ([], rest)
  | character :: rest =>
      if isLineTerminator character then some ([], rest)
      else do some ([.character (← simpleEscape? character)], rest)

/-- The pieces of a quoted text up to its closing quote.  Every step reads a character, so
the length of the text bounds the steps. -/
def quotedPieces? (quote : Char) (steps : Nat) (text : List Char) :
    Option (List Piece × List Char) :=
  match steps, text with
  | 0, _ => none
  | _ + 1, [] => none
  | steps + 1, '\\' :: rest => do
      let (found, rest) ← escape? rest
      let (pieces, rest) ← quotedPieces? quote steps rest
      some (found ++ pieces, rest)
  | steps + 1, character :: rest =>
      if character = quote then some ([], rest)
      else if isLineTerminator character then none
      else do
        let (pieces, rest) ← quotedPieces? quote steps rest
        some (.character character :: pieces, rest)

def quoted? (quote : Char) (text : List Char) : Option (Token × List Char) := do
  let (pieces, rest) ← quotedPieces? quote (text.length + 1) text
  some (.text (String.ofList (← decode? pieces)), rest)

def isNameStart (character : Char) : Bool :=
  isLetter character || lettersNewIn18.holds character || character == '$' || character == '_'

/-- Marks, diacritics (`^` and the grave accent among them), digits, connectors and
joiners may continue an identifier. -/
def isNamePart (character : Char) : Bool :=
  isNameStart character || nonspacingMarkTable.holds character ||
    marksNewIn18.holds character || diacriticTable.holds character || character == '^' ||
    character == '\x60' || isDecimalDigit character || isConnector character || isJoiner character

/-- The pieces of an identifier from here on; at its start a digit or mark does not
count. -/
def namePieces (atStart : Bool) (steps : Nat) (text : List Char) :
    List Piece × List Char :=
  match steps, text with
  | 0, _ => ([], text)
  | _ + 1, [] => ([], [])
  | steps + 1, character :: rest =>
      if (if atStart then isNameStart character else isNamePart character) then
        let (pieces, rest) := namePieces false steps rest
        (.character character :: pieces, rest)
      else
        match (literal? "\\u" text).bind (hexDigits? 4 0) with
        | some (value, rest) =>
            let (pieces, rest) := namePieces false steps rest
            (.unit value :: pieces, rest)
        | none => ([], text)

def name? (text : List Char) : Option (Token × List Char) := do
  let (pieces, rest) := namePieces true (text.length + 1) text
  let value ← decode? pieces
  if value.isEmpty then none
  else
    let plain := pieces.all fun piece => match piece with
      | .character _ => true
      | .unit _ => false
    some (.name (String.ofList value) plain, rest)

/-- A hexadecimal integer after its sign; it fits 32 bits. -/
def hexInteger? (text : List Char) : Option (JsonValue × List Char) := do
  let rest ← (literal? "0x" text).or (literal? "0X" text)
  let (digits, rest) ← run? isHexDigit rest
  let value := numberOfDigits 16 digits
  if value < 0x100000000 then some (.integer value, rest) else none

/-- The digits before the point: a zero, or digits that do not start with one. -/
def wholeDigits : List Char → List Char × List Char
  | '0' :: rest => (['0'], rest)
  | other => (other.takeWhile isAsciiDigit, other.dropWhile isAsciiDigit)

def exponent? (text : List Char) : Option (Int × List Char) := do
  let rest ← (literal? "e" text).or (literal? "E" text)
  let (negative, rest) := match rest with
    | '-' :: rest => (true, rest)
    | '+' :: rest => (false, rest)
    | rest => (false, rest)
  let (digits, rest) ← run? isAsciiDigit rest
  let value : Int := numberOfDigits 10 digits
  some (if negative then -value else value, rest)

def fraction? (whole : List Char) (text : List Char) : Option (List Char × List Char) :=
  match text with
  | '.' :: rest =>
      let digits := rest.takeWhile isAsciiDigit
      if whole.isEmpty && digits.isEmpty then none
      else some (digits, rest.dropWhile isAsciiDigit)
  | _ => none

/-- A decimal number after its sign.  Without point and exponent it is an integer of 64
bits, otherwise a double; a number out of range is none. -/
def decimal? (negative : Bool) (text : List Char) : Option (JsonValue × List Char) :=
  let (whole, rest) := wholeDigits text
  match fraction? whole rest with
  | some (digits, rest) => do
      let (power, rest) := (exponent? rest).getD (0, rest)
      let value ← Binary64.nearest? negative (numberOfDigits 10 (whole ++ digits))
        (power - (digits.length : Int))
      some (.double value, rest)
  | none =>
      if whole.isEmpty then none
      else
        match exponent? rest with
        | some (power, rest) => do
            some (.double (← Binary64.nearest? negative (numberOfDigits 10 whole) power), rest)
        | none =>
            let value := numberOfDigits 10 whole
            if value < integerBound ∨ (negative ∧ value = integerBound) then
              some (.integer (if negative then -(value : Int) else value), rest)
            else none

/-- Numbers that no value of the format can hold are read as null.  A plus sign does not
go with them. -/
def nonFinite? (text : List Char) : Option (JsonValue × List Char) := do
  let rest ← (literal? "Infinity" text).or (literal? "NaN" text)
  some (.null, rest)

/-- A number.  A hexadecimal integer takes no sign. -/
def number? (text : List Char) : Option (Token × List Char) :=
  let found :=
    match text with
    | '-' :: rest =>
        (nonFinite? rest).or (if (hexInteger? rest).isSome then none else decimal? true rest)
    | '+' :: rest => if (hexInteger? rest).isSome then none else decimal? false rest
    | _ =>
        match literal? "0x" text, literal? "0X" text with
        | none, none => decimal? false text
        | _, _ => hexInteger? text
  found.map fun (value, rest) => (.number value, rest)

def punctuation? : Char → Option Token
  | '\x7b' => some .openBrace
  | '\x7d' => some .closeBrace
  | '[' => some .openBracket
  | ']' => some .closeBracket
  | ':' => some .colon
  | ',' => some .comma
  | _ => none

def token? (character : Char) (rest : List Char) : Option (Token × List Char) :=
  match punctuation? character with
  | some token => some (token, rest)
  | none =>
      if character = '"' ∨ character = '\'' then quoted? character rest
      else if isAsciiDigit character ∨ character = '+' ∨ character = '-' ∨ character = '.' then
        number? (character :: rest)
      else name? (character :: rest)

/-- The tokens of a text.  Every step reads at least one character. -/
def scan? (steps : Nat) (text : List Char) : Option (List Token) :=
  match steps, text with
  | _, [] => some []
  | 0, _ :: _ => none
  | steps + 1, '/' :: '/' :: rest =>
      scan? steps (rest.dropWhile fun character => !isLineTerminator character)
  | steps + 1, '/' :: '*' :: rest => do scan? steps (← afterBlockComment? rest)
  | steps + 1, character :: rest =>
      if isSpace character then scan? steps rest
      else do
        let (token, rest) ← token? character rest
        some (token :: (← scan? steps rest))

def ofText? (text : List Char) : Option (List Token) :=
  scan? text.length text

end Token

end AmbientStubs.JsonValue
