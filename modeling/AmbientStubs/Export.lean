import AmbientStubs.Symbol

/-!
Export declarations on one line.  Each form of declaration has a header reader; a line
declares at most one symbol, and the symbol's signature is the declaration tidied up
and closed.
-/

namespace AmbientStubs.Export

open Text

/-- The name of a declaration and its type parameters as written. -/
structure Header where
  name : List Char
  typeParameters : Option (List Char) := none
deriving DecidableEq, Repr

def exported? (text : List Char) : Option (List Char) :=
  (keyword? "export" text).map (skipKeyword "default")

/-- The text after `export`, `default` and `declare`, of which only the first has to be
there. -/
def declared? (text : List Char) : Option (List Char) :=
  (exported? text).map (skipKeyword "declare")

/-- Type parameters in angle brackets, up to the first closing one. -/
def typeParameters (text : List Char) : Option (List Char) × List Char :=
  match enclosed? '<' '>' text with
  | some (inner, rest) => (some ('<' :: inner ++ ['>']), rest)
  | none => (none, text)

def named? (text : List Char) : Option (Header × List Char) := do
  let (name, rest) ← run? isWord text
  let (parameters, rest) := typeParameters (trimStart rest)
  some (⟨name, parameters⟩, trimStart rest)

def classHeader? (line : List Char) : Option Header := do
  let rest ← declared? line
  let rest ← keyword? "class" (skipKeyword "abstract" rest)
  let (header, _) ← named? rest
  some header

def interfaceHeader? (line : List Char) : Option Header := do
  let rest ← declared? line
  let rest ← keyword? "interface" rest
  let (header, _) ← named? rest
  some header

def aliasHeader? (line : List Char) : Option Header := do
  let rest ← declared? line
  let rest ← keyword? "type" rest
  let (header, rest) ← named? rest
  if rest.head? = some '=' then some header else none

/-- The name may follow `function` or the generator star directly. -/
def functionHeader? (line : List Char) : Option Header := do
  let rest ← declared? line
  let rest ← literal? "function" (skipKeyword "async" rest)
  let rest := trimStart rest
  let rest := trimStart ((literal? "*" rest).getD rest)
  let (header, rest) ← named? rest
  if rest.head? = some '(' then some header else none

def constantHeader? (line : List Char) : Option Header := do
  let rest ← declared? line
  let rest ← keyword? "const" rest
  let (name, rest) ← run? isWord rest
  match (trimStart rest).head? with
  | some '=' => some ⟨name, none⟩
  | some ':' => some ⟨name, none⟩
  | _ => none

def enumHeader? (line : List Char) : Option Header := do
  let rest ← declared? line
  let rest ← keyword? "enum" (skipKeyword "const" rest)
  let (name, _) ← run? isWord rest
  some ⟨name, none⟩

/-- The rest after one decorator, its arguments in parentheses and blanks. -/
def decorator? (text : List Char) : Option (List Char) := do
  let rest ← literal? "@" text
  let (_, rest) ← run? isWord rest
  let rest :=
    match enclosed? '(' ')' rest with
    | some (_, rest) => rest
    | none => rest
  blanks? rest

theorem length_decorator?_lt {text rest : List Char} (read : decorator? text = some rest) :
    rest.length < text.length := by
  simp only [decorator?, Option.bind_eq_bind, Option.bind_eq_some_iff] at read
  obtain ⟨afterSign, readSign, ⟨name, afterName⟩, readName, readBlanks⟩ := read
  have shorter := length_blanks?_lt readBlanks
  have sign := length_literal?_le readSign
  have word := length_run?_le readName
  simp only at shorter
  split at shorter
  · next readArguments =>
      have arguments := length_enclosed?_le readArguments
      omega
  · omega

def afterDecorators (text : List Char) : List Char :=
  match read : decorator? text with
  | some rest =>
      have := length_decorator?_lt read
      afterDecorators rest
  | none => text
termination_by text.length

def decorators (line : List Char) : List Char :=
  line.take (line.length - (afterDecorators line).length)

def structHeader? (line : List Char) : Option Header := do
  let rest ← exported? (afterDecorators line)
  let rest ← keyword? "struct" rest
  let (name, _) ← run? isWord rest
  some ⟨name, none⟩

def beforeBody (line : List Char) : List Char :=
  line.takeWhile (· != '{')

def emptyBody : String := " \x7b\x7d"

/-- `export class A<T> extends B {` becomes the same declaration with an empty body. -/
def blockSignature (line : List Char) : String :=
  String.ofList (tidy (beforeBody line)) ++ emptyBody

def statementSignature (line : List Char) : String :=
  let tidied := tidy line
  if tidied.getLast? = some ';' then String.ofList tidied
  else String.ofList (tidied ++ [';'])

/-- The tidied text before the body, ended by exactly one semicolon. -/
def functionSignature (line : List Char) : String :=
  let header := (tidy (beforeBody line)).reverse.dropWhile (· == ';')
  String.ofList (header.reverse ++ [';'])

def structSignature (line : List Char) (name : List Char) : String :=
  let decorators := tidy (decorators line)
  (if decorators.isEmpty then "" else String.ofList decorators ++ " ") ++
    "struct " ++ String.ofList name ++ emptyBody

def Header.symbol (header : Header) (kind : SymbolKind) (signature : String) : Symbol where
  name := String.ofList header.name
  kind := kind
  signature := some signature
  typeParameters := header.typeParameters.map String.ofList

def headerOfKind? (line : List Char) : SymbolKind → Option Header
  | .classType => classHeader? line
  | .interfaceType => interfaceHeader? line
  | .aliasType => aliasHeader? line
  | .function => functionHeader? line
  | .constant => constantHeader? line
  | .enumType => enumHeader? line
  | .structType => structHeader? line
  | .namespaceScope => none

def signature (line : List Char) (header : Header) : SymbolKind → String
  | .classType | .interfaceType | .namespaceScope => blockSignature line
  | .aliasType | .constant => statementSignature line
  | .function => functionSignature line
  | .enumType => "enum " ++ String.ofList header.name ++ emptyBody
  | .structType => structSignature line header.name

/-- The order in which the forms are tried. -/
def formOrder : List SymbolKind :=
  [.classType, .interfaceType, .aliasType, .function, .constant, .enumType, .structType]

def symbol? (line : List Char) : Option Symbol :=
  formOrder.findSome? fun kind =>
    (headerOfKind? line kind).map fun header =>
      header.symbol kind (signature line header kind)

end AmbientStubs.Export
