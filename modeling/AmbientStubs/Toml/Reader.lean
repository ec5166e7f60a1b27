import AmbientStubs.Toml
import AmbientStubs.Toml.Scalar

/-!
Reading TOML documents.
-/

namespace AmbientStubs.Toml

open Text

/-- Lists and tables between braces nest to less than this depth, and keys have fewer
parts. -/
def nestingLimit : Nat := 80

def isBareKey (character : Char) : Bool :=
  isAsciiAlphanumeric character || character == '_' || character == '-'

/-- One part of a key, bare or quoted on one line. -/
def keyPart? (text : List Char) : Option (String × List Char) := do
  let (part, rest) ← match text with
    | '"' :: rest => basicText? (text.length + 1) rest
    | '\'' :: rest => literalText? rest
    | _ => run? isBareKey text
  some (String.ofList part, rest)

def keyParts? (steps : Nat) (text : List Char) : Option (List String × List Char) :=
  match steps with
  | 0 => none
  | steps + 1 => do
      let (part, rest) ← keyPart? (afterSpaces text)
      match afterSpaces rest with
      | '.' :: rest => do
          let (parts, rest) ← keyParts? steps rest
          some (part :: parts, rest)
      | rest => some ([part], rest)

/-- The path of a key, its last part and the text after the key and blanks. -/
def key? (text : List Char) : Option (List String × String × List Char) := do
  let (parts, rest) ← keyParts? (text.length + 1) text
  if nestingLimit ≤ parts.length then none
  else some (parts.dropLast, ← parts.getLast?, rest)

def afterComment (text : List Char) : List Char :=
  match text with
  | '#' :: rest => rest.dropWhile isPrintable
  | _ => text

/-- The text after blanks, comments and line endings; none if a comment has no end of
line.  Every step reads a character. -/
def afterFiller? (steps : Nat) (text : List Char) : Option (List Char) :=
  match steps with
  | 0 => none
  | steps + 1 =>
      let rest := afterSpaces text
      match rest with
      | '#' :: _ => do afterFiller? steps (← newline? (afterComment rest))
      | _ =>
          match newline? rest with
          | some rest => afterFiller? steps rest
          | none => some rest

mutual

def value? (steps depth : Nat) (text : List Char) : Option (Toml × List Char) :=
  match steps with
  | 0 => none
  | steps + 1 =>
      match text with
      | '[' :: rest =>
          if nestingLimit ≤ depth + 1 then none
          else do
            let (elements, rest) ← elements? steps (depth + 1) rest
            some (list elements, rest)
      | '\x7b' :: rest =>
          if nestingLimit ≤ depth + 1 then none
          else
            match afterSpaces rest with
            | '\x7d' :: rest => some (table .inline [], rest)
            | rest => do
                let (entries, rest) ← inlineEntries? steps (depth + 1) [] rest
                some (table .inline entries, rest)
      | '"' :: _ => do
          let (characters, rest) ← text? text
          some (Toml.text (String.ofList characters), rest)
      | '\'' :: _ => do
          let (characters, rest) ← text? text
          some (Toml.text (String.ofList characters), rest)
      | _ =>
          match DateTime.read? text with
          | some (value, rest) => some (dateTime value, rest)
          | none => do some (scalar, ← scalar? text)

/-- Read the rest of a list, from before an element or the closing bracket. -/
def elements? (steps depth : Nat) (text : List Char) : Option (List Toml × List Char) :=
  match steps with
  | 0 => none
  | steps + 1 => do
      match ← afterFiller? (text.length + 1) text with
      | ']' :: rest => some ([], rest)
      | rest => do
          let (value, rest) ← value? steps depth rest
          match ← afterFiller? (rest.length + 1) rest with
          | ']' :: rest => some ([value], rest)
          | ',' :: rest => do
              let (elements, rest) ← elements? steps depth rest
              some (value :: elements, rest)
          | _ => none

/-- Read the entries of a table between braces from before a key; they are added to those
read before. -/
def inlineEntries? (steps depth : Nat) (before : Entries) (text : List Char) :
    Option (Entries × List Char) :=
  match steps with
  | 0 => none
  | steps + 1 => do
      let (path, key, rest) ← key? text
      let rest ← literal? "=" rest
      let (value, rest) ← value? steps depth (afterSpaces rest)
      let entries ← insert? path key value .inline before
      match afterSpaces rest with
      | '\x7d' :: rest => some (entries, rest)
      | ',' :: rest => inlineEntries? steps depth entries rest
      | _ => none

end

def endOfLine? (text : List Char) : Option (List Char) :=
  match afterComment (afterSpaces text) with
  | [] => some []
  | rest => newline? rest

/-- A document being read: its entries and the header that new keys belong to. -/
structure Progress where
  document : Entries := []
  current : List String := []

def addKeyValue? (state : Progress) (path : List String) (key : String) (value : Toml) :
    Option Progress := do
  let document ← alterAt? .implied (insert? path key value) state.current .header state.document
  some { state with document := document }

def expression? (state : Progress) (text : List Char) : Option (Progress × List Char) :=
  match text with
  | '[' :: '[' :: rest => do
      let (path, key, rest) ← key? rest
      let rest ← endOfLine? (← literal? "]]" rest)
      some (⟨← openNextTable? path key state.document, path ++ [key]⟩, rest)
  | '[' :: rest => do
      let (path, key, rest) ← key? rest
      let rest ← endOfLine? (← literal? "]" rest)
      some (⟨← openTable? path key state.document, path ++ [key]⟩, rest)
  | '#' :: _ => do some (state, ← endOfLine? text)
  | '\n' :: _ => do some (state, ← endOfLine? text)
  | '\r' :: _ => do some (state, ← endOfLine? text)
  | _ => do
      let (path, key, rest) ← key? text
      let rest ← literal? "=" rest
      let (value, rest) ← value? (2 * rest.length + 1) 0 (afterSpaces rest)
      some (← addKeyValue? state path key value, ← endOfLine? rest)

def expressions? (steps : Nat) (state : Progress) (text : List Char) : Option Progress :=
  match steps, afterSpaces text with
  | _, [] => some state
  | 0, _ :: _ => none
  | steps + 1, rest => do
      let (state, rest) ← expression? state rest
      expressions? steps state rest

/-- The entries of a document; none if its text breaks a rule.  A byte-order mark at the
start is skipped. -/
def ofText? (content : String) : Option Entries := do
  let text := match content.toList with
    | '\ufeff' :: rest => rest
    | other => other
  let state ← expressions? text.length {} text
  some state.document

end AmbientStubs.Toml
