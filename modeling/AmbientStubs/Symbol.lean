import AmbientStubs.Text.Line

/-!
Symbols: declared or inferred types, functions, values and namespaces.  A symbol knows
the dotted path of the scope it stands in, so a package is a flat list of symbols.
-/

namespace AmbientStubs

inductive SymbolKind where
  | classType
  | interfaceType
  | aliasType
  | function
  | enumType
  | constant
  | namespaceScope
  /-- A component declared with `struct`. -/
  | structType
deriving DecidableEq, Repr

namespace SymbolKind

def keyword : SymbolKind → String
  | classType => "class"
  | interfaceType => "interface"
  | aliasType => "type"
  | function => "function"
  | enumType => "enum"
  | constant => "const"
  | namespaceScope => "namespace"
  | structType => "struct"

end SymbolKind

structure Symbol where
  name : String
  kind : SymbolKind
  /-- The declaration it was seen with or stands for. -/
  signature : Option String := none
  /-- Type parameters as written, with their angle brackets. -/
  typeParameters : Option String := none
  /-- Dotted path of the enclosing scope; none at the top level. -/
  parentPath : Option String := none
  returnType : Option String := none
deriving DecidableEq, Repr

namespace Symbol

def isTopLevel (symbol : Symbol) : Bool :=
  symbol.parentPath.isNone

def qualifiedPath (symbol : Symbol) : String :=
  match symbol.parentPath with
  | some parent => parent ++ "." ++ symbol.name
  | none => symbol.name

structure Identity where
  name : String
  kind : SymbolKind
  parentPath : Option String
deriving DecidableEq, Repr

def identity (symbol : Symbol) : Identity :=
  ⟨symbol.name, symbol.kind, symbol.parentPath⟩

end Symbol

end AmbientStubs
