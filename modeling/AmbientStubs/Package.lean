import AmbientStubs.Catalog
import AmbientStubs.Import
import AmbientStubs.Method
import AmbientStubs.Symbol

/-!
Packages: the inferred model of one external package.  Symbols and methods are kept in
the order of their first insertion, one per identity.
-/

namespace AmbientStubs

structure Package where
  modulePath : String
  imports : List Import := []
  symbols : List Symbol := []
  methods : List Method := []
  /-- Declarations given in the settings, by name. -/
  extraDeclarations : Catalog String := {}

namespace Package

def addImport (package : Package) (imported : Import) : Package :=
  { package with imports := package.imports ++ [imported] }

def hasSymbol (package : Package) (identity : Symbol.Identity) : Bool :=
  package.symbols.any fun symbol => symbol.identity == identity

def hasMethod (package : Package) (identity : Method.Identity) : Bool :=
  package.methods.any fun method => method.identity == identity

/-- The package with one more symbol; none if its identity is taken. -/
def insertSymbol? (package : Package) (symbol : Symbol) : Option Package :=
  if package.hasSymbol symbol.identity then none
  else some { package with symbols := package.symbols ++ [symbol] }

def insertSymbol (package : Package) (symbol : Symbol) : Package :=
  (package.insertSymbol? symbol).getD package

def insertMethod? (package : Package) (method : Method) : Option Package :=
  if package.hasMethod method.identity then none
  else some { package with methods := package.methods ++ [method] }

def insertMethod (package : Package) (method : Method) : Package :=
  (package.insertMethod? method).getD package

def addExtraDeclaration (package : Package) (name declaration : String) : Package :=
  { package with extraDeclarations := package.extraDeclarations.insert name declaration }

def topLevel (package : Package) : List Symbol :=
  package.symbols.filter (·.isTopLevel)

def hasTopLevel (package : Package) (name : String) : Bool :=
  package.topLevel.any (·.name == name)

def childrenOf (package : Package) (path : String) : List Symbol :=
  package.symbols.filter fun symbol => symbol.parentPath == some path

def hasChildren (package : Package) (path : String) : Bool :=
  package.symbols.any fun symbol => symbol.parentPath == some path

def methodsOf (package : Package) (owner : String) : List Method :=
  package.methods.filter (·.owner == owner)

/-- The owners of methods, each once, in the order of their first method. -/
def methodOwners (package : Package) : List String :=
  (package.methods.map (·.owner)).foldl
    (fun owners owner => if owners.contains owner then owners else owners ++ [owner]) []

/-- The name given to the default export by the first import of it. -/
def defaultExport? (package : Package) : Option String :=
  (package.imports.find? (·.kind == .defaultExport)).map (·.importedName)

/-- Name of the stub package: one leading `@` is dropped and slashes become underscores. -/
def stubName (package : Package) : String :=
  let name :=
    match package.modulePath.toList with
    | '@' :: rest => rest
    | whole => whole
  String.ofList (name.map fun character => if character = '/' then '_' else character)

end Package

end AmbientStubs
