import AmbientStubs.Convention
import AmbientStubs.Declaration
import AmbientStubs.Declaration.Placement

/-!
Laying a package out as declarations.  The symbols of a scope that share a name form one
entry, and an entry is declared by at most one type, one value and one namespace block,
so that no identifier is declared twice.
-/

namespace AmbientStubs.Package

open Text Convention

/-- All symbols of one scope that share a name. -/
structure Entry where
  name : String
  kinds : List SymbolKind := []
  paths : List String := []
  returnType : Option String := none
deriving DecidableEq, Repr

namespace Entry

def including {Element : Type} [BEq Element] (elements : List Element) (element : Element) :
    List Element :=
  if elements.contains element then elements else elements ++ [element]

def add (entry : Entry) (symbol : Symbol) : Entry :=
  { entry with
    kinds := including entry.kinds symbol.kind
    paths := including entry.paths symbol.qualifiedPath
    returnType :=
      if symbol.kind = .function then entry.returnType.or symbol.returnType
      else entry.returnType }

/-- Add a symbol to the entry of its name, which is the last one if it is new. -/
def file (symbol : Symbol) : List Entry → List Entry
  | [] => [({ name := symbol.name } : Entry).add symbol]
  | entry :: rest =>
      if entry.name = symbol.name then entry.add symbol :: rest
      else entry :: file symbol rest

def ofSymbols (symbols : List Symbol) : List Entry :=
  symbols.foldl (fun entries symbol => file symbol entries) []

/-- Add entries without symbols for the names that have none. -/
def withOwners (entries : List Entry) (owners : List String) : List Entry :=
  owners.foldl
    (fun entries owner =>
      if entries.any (·.name == owner) then entries else entries ++ [{ name := owner }])
    entries

end Entry

/-- Whether an entry has a namespace block: it is a namespace, something is declared in
it, or the class of a method owner is placed there. -/
def hasBlock (package : Package) (relocations : List Relocation) (entry : Entry) : Bool :=
  entry.kinds.contains .namespaceScope || entry.paths.any package.hasChildren ||
    !(hostedIn relocations entry.paths).isEmpty

/-- The kinds of an entry that count in its scope.  An interface of the module level
gives way to the class that is declared elsewhere. -/
def effectiveKinds (relocations : List Relocation) (atModuleLevel : Bool) (entry : Entry) :
    List SymbolKind :=
  if atModuleLevel && isRelocated relocations entry.name then
    entry.kinds.filter (· != .interfaceType)
  else entry.kinds

def typeDeclaration? (kinds : List SymbolKind) (name : String) (methods : List Method) :
    Option Declaration :=
  if kinds.contains .classType || kinds.contains .structType || methods.any (·.isStatic) then
    some (.classBody name methods)
  else if kinds.contains .interfaceType || !methods.isEmpty then
    some (.interfaceBody name methods)
  else if kinds.contains .enumType then some (.enumeration name)
  else if kinds.contains .aliasType then some (.typeAlias name opaqueType)
  else none

def declaresValue : Declaration → Bool
  | .classBody _ _ | .enumeration _ => true
  | _ => false

def valueDeclaration? (kinds : List SymbolKind) (entry : Entry) (block : Bool) :
    Option Declaration :=
  if kinds.contains .function then
    some (.function entry.name (entry.returnType.getD opaqueType))
  else if kinds.contains .constant && !block then
    some (.constant entry.name
      (if isObjectName entry.name then "Record<string, unknown>" else opaqueType))
  else none

/-- The declarations of an entry other than its namespace block.  The owners are those
whose methods belong in this scope. -/
def plainDeclarations (package : Package) (relocations : List Relocation)
    (atModuleLevel : Bool) (owners : List String) (entry : Entry) : List Declaration :=
  let methods := if owners.contains entry.name then package.methodsOf entry.name else []
  let kinds := effectiveKinds relocations atModuleLevel entry
  let asType := typeDeclaration? kinds entry.name methods
  let asAlias :=
    if asType.isNone && atModuleLevel && isRelocated relocations entry.name then
      (package.aliasTarget? entry.name).map (.typeAlias entry.name)
    else none
  let asValue :=
    if asType.any declaresValue then none
    else valueDeclaration? kinds entry (package.hasBlock relocations entry)
  asType.toList ++ asAlias.toList ++ asValue.toList

/-- The declarations of a scope.  At most the given number of levels is laid out. -/
def scopeDeclarations (package : Package) (relocations : List Relocation) (levels : Nat)
    (atModuleLevel : Bool) (entries : List Entry) (owners : List String) : List Declaration :=
  match levels with
  | 0 => []
  | levels + 1 =>
      entries.flatMap fun entry =>
        package.plainDeclarations relocations atModuleLevel owners entry ++
          if package.hasBlock relocations entry then
            let hosted := hostedIn relocations entry.paths
            let members := Entry.ofSymbols (entry.paths.flatMap package.childrenOf)
            [.namespaceBlock entry.name
              (package.scopeDeclarations relocations levels false
                (Entry.withOwners members hosted) hosted)]
          else []

def longestParentPath (package : Package) : Nat :=
  (package.symbols.map fun symbol => (symbol.parentPath.getD "").length).foldl max 0

/-- A number of levels that is never used up: every level lengthens the paths of its
entries by at least the dot, an entry has members only if one of its paths is the path of
an enclosing scope, and below an entry without members nothing has a block. -/
def levelBound (package : Package) : Nat :=
  package.longestParentPath + 3

/-- The symbols declared at the module level: those of the top level and what is inside
a root that stands for the whole module. -/
def moduleSymbols (package : Package) : List Symbol :=
  package.symbols.filter fun symbol =>
    match symbol.parentPath with
    | none => symbol.kind != .namespaceScope
    | some parent => package.flattenedRoots.contains parent

def moduleDeclarations (package : Package) : List Declaration :=
  package.scopeDeclarations package.relocations package.levelBound true
    (Entry.withOwners (Entry.ofSymbols package.moduleSymbols) package.methodOwners)
    package.moduleLevelOwners

def declarationFile (package : Package) : DeclarationFile where
  modulePath := package.modulePath
  declarations := package.moduleDeclarations
  defaultExport := package.defaultExport?
  verbatim := package.extraDeclarations.values.map fun declaration =>
    String.ofList (trimEnd declaration.toList)

/-- The text of `index.d.ts`. -/
def declarationText (package : Package) : String :=
  package.declarationFile.text

end AmbientStubs.Package
